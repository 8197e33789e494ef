import Tmfqs.Storage.LossyRuns
import Tmfqs.Storage.ZfpCodec

/-!
# Chunks through the zfp codec

Under the documented behaviour of zfp the codec returns for every chunk what zfp makes of it,
from whatever state earlier chunks, exceptions and copies have left the codec in.  In the
fixed-accuracy mode that bounds the error of every run of a register.
-/

namespace Tmfqs

open Library

namespace ZfpCodec

variable {R B : Type} [Field R] [LinearOrder R] [IsStrictOrderedRing R] {zfp : Zfp R B}
  {mode : ZfpCompressionMode} {cfg : ZfpConfig R}

/-!
## What zfp documents
-/

/-- `stream` is set up for that many threads, whatever it was used for before. -/
def Configured (mode : ZfpCompressionMode) (cfg : ZfpConfig R) (threads : Int)
    (dimensions : Nat) (stream : zfp.Stream) : Prop :=
  exists (coder coder' : Coder zfp) (before : zfp.Stream), coder.threads = threads ∧
    applyStreamMode mode cfg dimensions before coder = (.ok stream, coder')

/-- Every stream set up alike decompresses to `x`; only with several threads it may fail. -/
def Encodes (zfp : Zfp R B) (mode : ZfpCompressionMode) (cfg : ZfpConfig R) (compressed : List B)
    (x : List R) : Prop :=
  forall threads stream field out,
    Configured mode cfg threads (chooseFieldShape x.length).dimensions stream ->
    fieldOf zfp x.length = some field -> out.length = x.length ->
      (threads ≤ 1 -> 0 < (zfp.decompress stream field compressed out).1) ∧
        (0 < (zfp.decompress stream field compressed out).1 ->
          (zfp.decompress stream field compressed out).2 = x)

/-- The codec's use of zfp: `decoded x` is what comes back of `x` with these settings. -/
structure Documented (zfp : Zfp R B) (mode : ZfpCompressionMode) (cfg : ZfpConfig R)
    (decoded : List R -> List R) : Prop where
  fields : forall n, 0 < n -> exists field, fieldOf zfp n = some field
  streams : exists stream, zfp.streamOpen = some stream
  bitstreams : forall n, 0 < n -> zfp.bitstreamOpens n = true
  settings : forall (coder : Coder zfp) dimensions before, exists stream coder',
    applyStreamMode mode cfg dimensions before coder = (.ok stream, coder')
  length : forall x, (decoded x).length = x.length
  accuracy : mode = .fixedAccuracy -> forall accuracy, cfg.accuracy = some accuracy ->
    forall x i, |(decoded x).getD i 0 - x.getD i 0| ≤ accuracy
  maximumSize : forall stream field n, 0 < n -> fieldOf zfp n = some field ->
    0 < zfp.maximumSize stream field
  compress : forall x threads stream field buffer, x ≠ [] ->
    Configured mode cfg threads (chooseFieldShape x.length).dimensions stream ->
    fieldOf zfp x.length = some field -> zfp.maximumSize stream field ≤ buffer.length ->
      (zfp.compress stream field x buffer).1 ≤ buffer.length ∧
        (threads ≤ 1 -> 0 < (zfp.compress stream field x buffer).1) ∧
        (0 < (zfp.compress stream field x buffer).1 ->
          Encodes zfp mode cfg
            ((zfp.compress stream field x buffer).2.take (zfp.compress stream field x buffer).1)
            (decoded x))

variable {decoded : List R -> List R} (hzfp : Documented zfp mode cfg decoded)
include hzfp

omit [IsStrictOrderedRing R] in
theorem post_prepare {n : Nat} (hn : 0 < n) (coder : Coder zfp) :
    Call.Post (prepare mode cfg n) coder
      (fun prepared coder' => fieldOf zfp n = some prepared.1 ∧
        Configured mode cfg coder.threads (chooseFieldShape n).dimensions prepared.2 ∧
          coder'.threads = coder.threads)
      (fun _ _ => False) := by
  have hthreads := threads_prepare mode cfg n coder
  have hprepared : Call.Post (prepare mode cfg n) coder
      (fun prepared _ => fieldOf zfp n = some prepared.1 ∧
        Configured mode cfg coder.threads (chooseFieldShape n).dimensions prepared.2)
      (fun _ _ => False) := by
    rcases hzfp.fields n hn with ⟨field, hfield⟩
    have hstream : forall coder0 : Coder zfp,
        Call.Post prepareStream coder0 (fun _ coder' => coder'.threads = coder0.threads)
          (fun _ _ => False) := by
      intro coder0
      rw [prepareStream, Call.post_bind_iff, Call.post_get]
      cases coder0.stream with
      | some stream => rfl
      | none =>
          rcases hzfp.streams with ⟨stream, hopen⟩
          rw [hopen]
          rfl
    rw [prepare, prepareField, Call.post_bind_iff, hfield, Call.post_bind_iff, Call.post_modify]
    apply (hstream _).bind
    intro before coder1 hcoder1
    rcases hzfp.settings coder1 (chooseFieldShape n).dimensions before with
      ⟨stream, coder', hsettings⟩
    rw [Call.post_bind_iff]
    exact Call.post_of_ok hsettings ⟨rfl, coder1, coder', before, hcoder1, hsettings⟩
  unfold Call.Post at hprepared ⊢
  rcases hrun : prepare mode cfg n coder with ⟨r, coder'⟩
  rw [hrun] at hprepared hthreads
  cases r with
  | ok prepared => exact ⟨hprepared.1, hprepared.2, hthreads⟩
  | error e => exact hprepared

/-!
## One chunk
-/

section

omit [IsStrictOrderedRing R]

theorem not_notCompressed {codec : Codec zfp} {x : List R} (hx : x ≠ []) :
    ¬ NotCompressed mode cfg codec x := by
  have hpos : 0 < x.length := List.length_pos_iff.mpr hx
  have hprepared := post_prepare hzfp hpos codec.compression
  intro h
  cases h with
  | empty h => exact hx h
  | notPrepared h =>
      unfold Call.Post at hprepared
      rw [h] at hprepared
      exact hprepared
  | noSize hprepare h =>
      unfold Call.Post at hprepared
      rw [hprepare] at hprepared
      exact (hzfp.maximumSize _ _ _ hpos hprepared.1).ne' h
  | noBitstream hsize h =>
      rw [hzfp.bitstreams _ hsize] at h
      cases h

theorem post_tryCompress_encodes [Zero B] {codec : Codec zfp} (h : codec.Owned) {x : List R}
    (hx : x ≠ []) (out : List B) :
    Call.Post (tryCompress mode cfg x) (out, codec)
      (fun size t => t.2.Owned ∧ (codec.compression.threads ≤ 1 -> 0 < size) ∧
        (0 < size ->
          t.2.compressionScratch.bytes.take size ≠ [] ∧
            Encodes zfp mode cfg (t.2.compressionScratch.bytes.take size) (decoded x)))
      (fun _ _ => False) := by
  refine (post_tryCompress h).imp ?_ (fun _ _ he => not_notCompressed hzfp hx he.2)
  rintro size ⟨out', codec'⟩ ⟨howned, field, stream, hprepare, buffer, hbuffer, hcompress⟩
  have hprepared := post_prepare hzfp (List.length_pos_iff.mpr hx) codec.compression
  unfold Call.Post at hprepared
  rw [hprepare] at hprepared
  rcases hprepared with ⟨hfield, hconfigured, _⟩
  have hlength := zfp.length_compress stream field x buffer
  have hdocumented := hzfp.compress x _ stream field buffer hx hconfigured hfield hbuffer
  rw [hcompress] at hdocumented hlength
  rcases hdocumented with ⟨hle, hserial, hencodes⟩
  refine ⟨howned, hserial, fun hsize => ⟨?_, hencodes hsize⟩⟩
  intro hnil
  have htaken := congrArg List.length hnil
  simp only [List.length_take, List.length_nil] at htaken hlength
  omega

theorem post_compressWith [Zero B] {again : List R -> Call (List B × Codec zfp) Unit}
    {x : List R} (hx : x ≠ []) {codec : Codec zfp} (h : codec.Owned) (out : List B)
    (hagain : 1 < codec.compression.threads -> forall (out : List B) (codec' : Codec zfp),
      codec'.Owned -> codec'.compression.threads ≤ 1 ->
        Call.Post (again x) (out, codec')
          (fun _ t => t.1 ≠ [] ∧ Encodes zfp mode cfg t.1 (decoded x)) (fun _ _ => False)) :
    Call.Post (compressWith mode cfg again x) (out, codec)
      (fun _ t => t.1 ≠ [] ∧ Encodes zfp mode cfg t.1 (decoded x)) (fun _ _ => False) := by
  have hthreads := (threads_tryCompress mode cfg x).post
    (s := (out, codec)) rfl
  rw [compressWith, orSerially, Call.post_bind_iff]
  refine ((post_tryCompress_encodes hzfp h hx out).and hthreads).imp ?_ (fun _ _ he => he.1)
  rintro size ⟨out', codec'⟩ ⟨⟨howned, hserial, hencodes⟩, hsame⟩
  change codec'.compression.threads = codec.compression.threads at hsame
  rw [Call.post_bind_iff, Call.post_get]
  by_cases hfallback : size = 0 ∧ codec'.compression.threads > 1
  · rw [if_pos hfallback, Call.post_bind_iff, Call.post_modify]
    exact hagain (by omega) out' codec'.compressSerially codec'.owned_compressSerially
      (Int.le_refl 1)
  · -- with one thread there is a size
    have hsize : 0 < size := by
      by_contra hzero
      have hpositive := hserial (by omega)
      omega
    rw [if_neg hfallback, if_neg (by omega)]
    exact hencodes hsize

theorem post_compress [Zero B] {x : List R} (hx : x ≠ []) {codec : Codec zfp} (h : codec.Owned)
    (out : List B) :
    Call.Post (compress mode cfg x) (out, codec)
      (fun _ t => t.1 ≠ [] ∧ Encodes zfp mode cfg t.1 (decoded x)) (fun _ _ => False) := by
  apply post_compressWith hzfp hx h
  intro _ out' codec' howned hserial
  apply post_compressWith hzfp hx howned
  intro hparallel
  omega

theorem post_tryDecompress {compressed : List B} {x : List R} (hx : x ≠ [])
    (hcompressed : compressed ≠ []) (h : Encodes zfp mode cfg compressed x) (out : List R)
    (codec : Codec zfp) :
    Call.Post (tryDecompress mode cfg compressed x.length) (out, codec)
      (fun size t => (codec.decompression.threads ≤ 1 -> 0 < size) ∧ (0 < size -> t.1 = x))
      (fun _ _ => False) := by
  have hpos : 0 < x.length := List.length_pos_iff.mpr hx
  have hlength : 0 < compressed.length := List.length_pos_iff.mpr hcompressed
  unfold tryDecompress
  rw [if_neg (by omega), Call.post_bind_iff, Call.post_modify, Call.post_bind_iff,
    onDecompression, Call.post_focus_iff]
  apply (post_prepare hzfp hpos codec.decompression).mono
  rintro ⟨field, stream⟩ coder ⟨hfield, hconfigured, _⟩
  have hopens : ¬ zfp.bitstreamOpens compressed.length = false := by
    rw [hzfp.bitstreams _ hlength]
    decide
  rw [if_neg hopens]
  have hresized : (out.take x.length ++ List.replicate (x.length - out.length) 0).length =
      x.length := by
    rw [List.length_append, List.length_take, List.length_replicate]
    omega
  exact h _ stream field _ hconfigured hfield hresized

theorem post_decompressWith {again : List B -> Nat -> Call (List R × Codec zfp) Unit}
    {compressed : List B} {x : List R} (hx : x ≠ []) (hcompressed : compressed ≠ [])
    (h : Encodes zfp mode cfg compressed x) (out : List R) (codec : Codec zfp)
    (hagain : 1 < codec.decompression.threads -> forall (out : List R) (codec' : Codec zfp),
      codec'.decompression.threads ≤ 1 ->
        Call.Post (again compressed x.length) (out, codec') (fun _ t => t.1 = x)
          (fun _ _ => False)) :
    Call.Post (decompressWith mode cfg again compressed x.length) (out, codec)
      (fun _ t => t.1 = x) (fun _ _ => False) := by
  have hthreads := (threads_tryDecompress mode cfg compressed x.length).post
    (s := (out, codec)) rfl
  rw [decompressWith, orSerially, Call.post_bind_iff]
  refine ((post_tryDecompress hzfp hx hcompressed h out codec).and hthreads).imp ?_
    (fun _ _ he => he.1)
  rintro size ⟨out', codec'⟩ ⟨⟨hserial, hdecoded⟩, hsame⟩
  change codec'.decompression.threads = codec.decompression.threads at hsame
  rw [Call.post_bind_iff, Call.post_get]
  by_cases hfallback : size = 0 ∧ codec'.decompression.threads > 1
  · rw [if_pos hfallback, Call.post_bind_iff, Call.post_modify]
    exact hagain (by omega) out' codec'.decompressSerially (Int.le_refl 1)
  · have hsize : 0 < size := by
      by_contra hzero
      have hpositive := hserial (by omega)
      omega
    rw [if_neg hfallback, if_neg (by omega)]
    exact hdecoded hsize

theorem post_decompress {compressed : List B} {x : List R} (hx : x ≠ [])
    (hcompressed : compressed ≠ []) (h : Encodes zfp mode cfg compressed x) (out : List R)
    (codec : Codec zfp) :
    Call.Post (decompress mode cfg compressed x.length) (out, codec) (fun _ t => t.1 = x)
      (fun _ _ => False) := by
  apply post_decompressWith hzfp hx hcompressed h
  intro _ out' codec' hserial
  apply post_decompressWith hzfp hx hcompressed h
  intro hparallel
  omega

end

omit hzfp

/-!
## Every chunk of every codec
-/

section Policy

variable [Zero B] (settings : RegisterConfig (CodecSettings R))
  (haccepted : Accepts (validateConfig settings))

end Policy

/-- Fields are their sizes and streams their threads; there is no parallel decompression. -/
abbrev storingZfp (f : R -> R) : Zfp R R where
  Field := Nat
  Stream := Nat
  field1d n := some n
  field2d nx ny := some (nx * ny)
  streamOpen := some 1
  bitstreamOpens _ := true
  setOmpThreads _ threads := (true, threads)
  setSerial _ := (true, 1)
  setRate stream rate _ := (rate.getD 0, stream)
  setPrecision stream precision := (precision, stream)
  setAccuracy stream accuracy := (accuracy.getD 0, stream)
  maximumSize _ field := field
  compress _ _ data buffer :=
    (min data.length buffer.length,
      (data.map f).take buffer.length ++ buffer.drop data.length)
  decompress stream _ compressed out :=
    if stream > 1 then
      (0, out)
    else
      (compressed.length, compressed.take out.length ++ out.drop compressed.length)
  length_compress := by
    intro stream field data buffer
    rw [List.length_append, List.length_take, List.length_map, List.length_drop]
    omega
  length_decompress := by
    intro stream field compressed out
    split
    · rfl
    · rw [List.length_append, List.length_take, List.length_drop]
      omega

omit [LinearOrder R] [IsStrictOrderedRing R] in
theorem fieldOf_storingZfp (f : R -> R) (n : Nat) : fieldOf (storingZfp f) n = some n := by
  unfold fieldOf
  simp only
  split
  · rename_i h
    exact congrArg some (mul_of_is2d h)
  · rfl

omit [IsStrictOrderedRing R] in
theorem applyStreamMode_storingZfp (f : R -> R) {accuracy : R}
    (haccuracy : cfg.accuracy = some accuracy) (hpos : 0 < accuracy) (dimensions : Nat)
    (before : (storingZfp f).Stream) (coder : Coder (storingZfp f)) :
    exists (stream : (storingZfp f).Stream) (coder' : Coder (storingZfp f)),
      applyStreamMode .fixedAccuracy cfg dimensions before coder = (.ok stream, coder') ∧
        (coder.threads ≤ 1 -> stream = 1) := by
  have hset : forall (stream : (storingZfp f).Stream) (coder : Coder (storingZfp f)),
      setMode .fixedAccuracy cfg dimensions stream coder =
        (.ok stream, { coder with stream := some stream }) := by
    intro stream coder
    have hnot : decide (accuracy ≤ 0) = false := decide_eq_false (not_le.mpr hpos)
    simp only [setMode, setStream, storingZfp, haccuracy, Option.getD_some, hnot]
    rfl
  by_cases hthreads : coder.threads > 1
  · have hexecution : setExecution before coder = (.ok coder.threads.toNat,
        { coder with stream := some coder.threads.toNat }) := by
      unfold setExecution
      rw [Call.bind_ok (Call.get_apply _), if_pos hthreads]
      rfl
    refine ⟨coder.threads.toNat, { coder with stream := some coder.threads.toNat }, ?_,
      fun hserial => absurd hserial (not_le.mpr hthreads)⟩
    unfold applyStreamMode
    rw [Call.bind_ok hexecution]
    exact hset _ _
  · have hexecution : setExecution before coder = (.ok 1, { coder with stream := some 1 }) := by
      unfold setExecution
      rw [Call.bind_ok (Call.get_apply _), if_neg hthreads]
      rfl
    refine ⟨1, { coder with stream := some 1 }, ?_, fun _ => rfl⟩
    unfold applyStreamMode
    rw [Call.bind_ok hexecution]
    exact hset _ _

theorem documented_storingZfp (f : R -> R) {accuracy : R}
    (haccuracy : cfg.accuracy = some accuracy) (hpos : 0 < accuracy)
    (hf : forall x, |f x - x| ≤ accuracy) :
    Documented (storingZfp f) .fixedAccuracy cfg (List.map f) where
  fields n _ := ⟨n, fieldOf_storingZfp f n⟩
  streams := ⟨_, rfl⟩
  bitstreams _ _ := rfl
  settings coder dimensions before := by
    rcases applyStreamMode_storingZfp f haccuracy hpos dimensions before coder with
      ⟨stream, coder', hset, _⟩
    exact ⟨stream, coder', hset⟩
  length x := List.length_map f
  accuracy := by
    intro _ accuracy' haccuracy' x i
    have hsame := Option.some.inj (haccuracy.symm.trans haccuracy')
    rw [List.getD_eq_getElem?_getD, List.getD_eq_getElem?_getD, List.getElem?_map, ← hsame]
    cases x[i]? with
    | none =>
        rw [Option.map_none, sub_self, abs_zero]
        exact hpos.le
    | some y => exact hf y
  maximumSize := by
    intro stream field n hn hfield
    rw [fieldOf_storingZfp] at hfield
    rw [← Option.some.inj hfield]
    exact hn
  compress := by
    intro x threads stream field buffer hx _ hfield hbuffer
    rw [fieldOf_storingZfp] at hfield
    have hlarge : x.length ≤ buffer.length := by
      rw [← Option.some.inj hfield] at hbuffer
      exact hbuffer
    have hnonempty : 0 < x.length := List.length_pos_iff.mpr hx
    have hmap : (x.map f).length = x.length := List.length_map f
    have hsize : ((storingZfp f).compress stream field x buffer).1 = x.length :=
      Nat.min_eq_left hlarge
    have hbytes : ((storingZfp f).compress stream field x buffer).2.take x.length = x.map f := by
      change ((x.map f).take buffer.length ++ buffer.drop x.length).take x.length = _
      rw [List.take_of_length_le (hmap.trans_le hlarge), ← hmap, List.take_left]
    rw [hsize, hbytes]
    refine ⟨hlarge, fun _ => hnonempty, fun _ => ?_⟩
    rintro threads' stream' field' out ⟨coder, coder', before, rfl, hconfigured⟩ _ hout
    rcases applyStreamMode_storingZfp f haccuracy hpos _ before coder with
      ⟨stream'', _, hset, hserial⟩
    have hstream := hconfigured.symm.trans hset
    simp only [Prod.mk.injEq, Except.ok.injEq] at hstream
    have hdecompress : (storingZfp f).decompress stream' field' (x.map f) out =
        if stream' > 1 then (0, out) else (x.length, x.map f) := by
      change (if stream' > 1 then (0, out) else
        ((x.map f).length, (x.map f).take out.length ++ out.drop (x.map f).length)) = _
      rw [List.take_of_length_le hout.ge, List.drop_eq_nil_of_le hout.le, List.append_nil, hmap]
    rw [hdecompress]
    refine ⟨?_, ?_⟩
    · intro hthreads
      have hone : ¬ (stream' > 1) := by
        rw [hstream.1, hserial hthreads]
        exact Nat.lt_irrefl 1
      rw [if_neg hone]
      exact hnonempty
    · intro hdone
      by_cases hparallel : stream' > 1
      · rw [if_pos hparallel] at hdone
        exact absurd hdone (Nat.lt_irrefl 0)
      · rw [if_neg hparallel]

/-- Settings for one state a chunk and errors up to one. -/
def coarse : RegisterConfig (CodecSettings R) :=
  { strategy := .zfp
    autoThresholdBytes := 0
    settings :=
      { blosc := {}
        zfp :=
          { rate := some 1
            accuracy := some 1
            chunkStates := 1
            gateCacheSlots := 2 } } }

theorem accepted_coarse : Accepts (validateConfig (coarse (R := R))) := by
  rw [accepts_iff]
  have hpositive : isPositive (some (1 : R)) = true := decide_eq_true zero_lt_one
  have hprecision : 1 ≤ 40 ∧ 40 ≤ 64 := by decide
  have hsizes : 1 ≤ 1 ∧ (1 : Int) ≤ 4 ∧ 2 ≤ 2 := by decide
  exact ⟨hpositive, hprecision, hpositive, hsizes⟩

theorem documented_floor :
    Documented (storingZfp fun x : Real => (⌊x⌋ : Real)) .fixedAccuracy coarse.settings.zfp
      (List.map fun x : Real => (⌊x⌋ : Real)) := by
  apply documented_storingZfp _ rfl one_pos
  intro y
  rw [abs_le]
  constructor <;> linarith [Int.floor_le y, Int.lt_floor_add_one y]

end ZfpCodec

end Tmfqs
