import Mathlib.Data.UInt
import Tmfqs.Storage.ChunkAddressing
import Tmfqs.Storage.CodecPolicy

/-!
# The Blosc codec

`storage/blosc/blosc_codec.cpp`: compression and decompression of one independent chunk.
The functions of Blosc2 are parameters.  What matters here are the sizes they are given.
-/

namespace Tmfqs

open Library

/-- `std::overflow_error` is a `std::runtime_error`. -/
def overflowError (what : String) : Exc :=
  runtimeError what

/-- `static_cast<int32_t>` of a `size_t`. -/
def i32 (x : Nat) : Int :=
  Int.bmod x (2 ^ 32)

theorem i32_of_le {x : Nat} (h : x ≤ int32Max) : i32 x = x := by
  unfold int32Max at h
  unfold i32
  apply Int.bmod_eq_of_le <;> omega

/--
The functions of Blosc2 the codec calls.  Compressing and decompressing give the returned
size and the new contents of the buffer that is written to, which keeps its length.
-/
structure Blosc2 (R : Type) where
  Context : Type
  createCctx : BloscConfig -> Option Context
  createDctx : Int -> Option Context
  compressCtx : Context -> List R -> Int -> List UInt8 -> Int -> Int × List UInt8
  decompressCtx : Context -> List UInt8 -> Int -> List R -> Int -> Int × List R
  length_compressCtx : forall ctx src srcsize dest destsize,
    (compressCtx ctx src srcsize dest destsize).2.length = dest.length
  length_decompressCtx : forall ctx src srcsize dest destsize,
    (decompressCtx ctx src srcsize dest destsize).2.length = dest.length

namespace BloscCodec

variable {R : Type} {blosc2 : Blosc2 R}

/-- `BLOSC2_MAX_OVERHEAD`. -/
def maxOverhead : Nat :=
  32

/-- The members of `Impl` that belong to independent chunks. -/
structure Impl (blosc2 : Blosc2 R) where
  compressionCtx : Option blosc2.Context
  decompressionCtx : Option blosc2.Context
  compressionScratch : List UInt8

/-- A constructed codec; a copied one starts like this, too. -/
def Impl.initial : Impl blosc2 :=
  { compressionCtx := none
    decompressionCtx := none
    compressionScratch := [] }

def onImpl {τ α : Type} (x : Call (Impl blosc2) α) : Call (τ × Impl blosc2) α :=
  Call.focus Prod.snd (fun t impl => (t.1, impl)) x

theorem fst_onImpl {τ α : Type} (x : Call (Impl blosc2) α) (t : τ × Impl blosc2) :
    (onImpl x t).1 = (x t.2).1 := rfl

def compressionContext (cfg : BloscConfig) : Call (Impl blosc2) blosc2.Context := do
  let impl <- get
  match impl.compressionCtx with
  | some ctx => pure ctx
  | none =>
      match blosc2.createCctx cfg with
      | some ctx => do
          set { impl with compressionCtx := some ctx }
          pure ctx
      | none => throw (runtimeError "BloscCodec: failed creating compression context")

def decompressionContext (cfg : BloscConfig) : Call (Impl blosc2) blosc2.Context := do
  let impl <- get
  match impl.decompressionCtx with
  | some ctx => pure ctx
  | none =>
      match blosc2.createDctx cfg.nthreads with
      | some ctx => do
          set { impl with decompressionCtx := some ctx }
          pure ctx
      | none => throw (runtimeError "BloscCodec: failed creating decompression context")

def chunkByteSizeOverflow : Exc :=
  overflowError "BloscCodec: chunk byte size overflow"

def growScratch (required : Nat) (impl : Impl blosc2) : Impl blosc2 :=
  { impl with
    compressionScratch := impl.compressionScratch ++
      List.replicate (required - impl.compressionScratch.length) 0 }

/-- The two sizes `compress` passes on. -/
def compressSizes (elems : Nat) : Call (Impl blosc2) (Int × Int) := do
  let srcBytes := u64 (elems * StorageStrategyRegistry.sizeofDouble)
  let required := u64 (srcBytes + maxOverhead)
  modify (growScratch required)
  let impl <- get
  if srcBytes > int32Max ∨ impl.compressionScratch.length > int32Max then
    throw chunkByteSizeOverflow
  pure (i32 srcBytes, i32 impl.compressionScratch.length)

def compress (cfg : BloscConfig) (data : List R) : Call (List UInt8 × Impl blosc2) Unit := do
  if data.length = 0 then
    throw (invalidArgument "BloscCodec: cannot compress empty buffer")
  let ctx <- onImpl (compressionContext cfg)
  let sizes <- onImpl (compressSizes data.length)
  let (_, impl) <- get
  let (csz, scratch) :=
    blosc2.compressCtx ctx data sizes.1 impl.compressionScratch sizes.2
  modify fun t => (t.1, { t.2 with compressionScratch := scratch })
  if csz ≤ 0 then
    throw (runtimeError "BloscCodec: chunk compress failed")
  modify fun t => (scratch.take csz.toNat, t.2)

/-- The two sizes `decompress` passes on. -/
def decompressSizes {σ : Type} (compressedBytes expectedElems : Nat) : Call σ (Int × Int) := do
  let destBytes := u64 (expectedElems * StorageStrategyRegistry.sizeofDouble)
  if destBytes > int32Max ∨ compressedBytes > int32Max then
    throw chunkByteSizeOverflow
  pure (i32 compressedBytes, i32 destBytes)

def decompress [Zero R] (cfg : BloscConfig) (compressed : List UInt8) (expectedElems : Nat) :
    Call (List R × Impl blosc2) Unit := do
  if expectedElems = 0 ∨ compressed = [] then
    throw (invalidArgument "BloscCodec: invalid chunk while decompressing")
  modify fun t =>
    (t.1.take expectedElems ++ List.replicate (expectedElems - t.1.length) 0, t.2)
  let ctx <- onImpl (decompressionContext cfg)
  let sizes <- decompressSizes compressed.length expectedElems
  let (out, _) <- get
  let (dsz, out) := blosc2.decompressCtx ctx compressed sizes.1 out sizes.2
  modify fun t => (out, t.2)
  if dsz < 0 then
    throw (runtimeError "BloscCodec: chunk decompress failed")
  if dsz ≠ sizes.2 then
    throw (runtimeError "BloscCodec: chunk decompress size mismatch")

/-!
## Sizes that fit

As long as every chunk with its overhead fits into `limit` bytes, so does the scratch
buffer, and up to `INT32_MAX` no size is cut.
-/

section Sizes

variable {impl : Impl blosc2} {limit elems : Nat}

@[simp] theorem length_growScratch (required : Nat) (impl : Impl blosc2) :
    (growScratch required impl).compressionScratch.length =
      max impl.compressionScratch.length required := by
  rw [growScratch, List.length_append, List.length_replicate]
  omega

theorem scratch_compressionContext (cfg : BloscConfig) :
    Call.Post (compressionContext cfg) impl
      (fun _ impl' => impl'.compressionScratch = impl.compressionScratch)
      (fun e impl' => e ≠ chunkByteSizeOverflow ∧
        impl'.compressionScratch = impl.compressionScratch) := by
  rw [compressionContext, Call.post_bind_iff, Call.post_get]
  cases impl.compressionCtx with
  | some ctx => rfl
  | none =>
      cases blosc2.createCctx cfg with
      | some ctx => rfl
      | none => exact ⟨by decide, rfl⟩

theorem scratch_decompressionContext (cfg : BloscConfig) :
    Call.Post (decompressionContext cfg) impl
      (fun _ impl' => impl'.compressionScratch = impl.compressionScratch)
      (fun e impl' => e ≠ chunkByteSizeOverflow ∧
        impl'.compressionScratch = impl.compressionScratch) := by
  rw [decompressionContext, Call.post_bind_iff, Call.post_get]
  cases impl.decompressionCtx with
  | some ctx => rfl
  | none =>
      cases blosc2.createDctx cfg.nthreads with
      | some ctx => rfl
      | none => exact ⟨by decide, rfl⟩

theorem compressSizes_eq (hlimit : limit ≤ int32Max) (helems : 8 * elems + maxOverhead ≤ limit)
    (hscratch : impl.compressionScratch.length ≤ limit) :
    compressSizes elems impl =
      (.ok (((8 * elems : Nat) : Int),
          ((growScratch (8 * elems + maxOverhead) impl).compressionScratch.length : Int)),
        growScratch (8 * elems + maxOverhead) impl) := by
  have hmax : int32Max < 2 ^ 64 := by decide
  have hsrc : u64 (elems * StorageStrategyRegistry.sizeofDouble) = 8 * elems := by
    rw [StorageStrategyRegistry.sizeofDouble, Nat.mul_comm, u64_of_lt (by omega)]
  have hrequired : u64 (8 * elems + maxOverhead) = 8 * elems + maxOverhead :=
    u64_of_lt (by omega)
  have hlength := length_growScratch (8 * elems + maxOverhead) impl
  have hcheck : ¬ (8 * elems > int32Max ∨
      (growScratch (8 * elems + maxOverhead) impl).compressionScratch.length > int32Max) := by
    omega
  unfold compressSizes
  simp only [hsrc, hrequired]
  rw [Call.bind_ok (Call.modify_apply _ _), Call.bind_ok (Call.get_apply _), if_neg hcheck,
    i32_of_le (by omega), i32_of_le (by omega)]
  rfl

theorem le_of_compressSizes (h : Call.Post (compressSizes elems) impl
      (fun sizes _ => sizes.1 = ((8 * elems : Nat) : Int)) (fun _ _ => False))
    (helems : 8 * elems + maxOverhead < 2 ^ 64) : 8 * elems + maxOverhead ≤ int32Max := by
  have hsrc : u64 (elems * StorageStrategyRegistry.sizeofDouble) = 8 * elems := by
    rw [StorageStrategyRegistry.sizeofDouble, Nat.mul_comm, u64_of_lt (by omega)]
  have hlength := length_growScratch (8 * elems + maxOverhead) impl
  unfold compressSizes at h
  simp only [hsrc, u64_of_lt helems] at h
  rw [Call.post_bind_iff, Call.post_modify, Call.post_bind_iff, Call.post_get] at h
  by_contra hlarge
  rw [if_pos (by omega)] at h
  exact h

theorem decompressSizes_eq {σ : Type} {compressed : Nat} (hlimit : limit ≤ int32Max)
    (helems : 8 * elems + maxOverhead ≤ limit) (hcompressed : compressed ≤ limit) :
    (decompressSizes compressed elems : Call σ (Int × Int)) =
      pure ((compressed : Int), ((8 * elems : Nat) : Int)) := by
  have hmax : int32Max < 2 ^ 64 := by decide
  have hdest : u64 (elems * StorageStrategyRegistry.sizeofDouble) = 8 * elems := by
    rw [StorageStrategyRegistry.sizeofDouble, Nat.mul_comm, u64_of_lt (by omega)]
  unfold decompressSizes
  simp only [hdest]
  rw [if_neg (by omega), i32_of_le (by omega), i32_of_le (by omega)]

variable {cfg : BloscConfig}

theorem post_compress {data : List R} {out : List UInt8} (hlimit : limit ≤ int32Max)
    (hdata : 8 * data.length + maxOverhead ≤ limit)
    (hscratch : impl.compressionScratch.length ≤ limit) :
    Call.Post (compress cfg data) (out, impl)
      (fun _ t => t.2.compressionScratch.length ≤ limit)
      (fun e t => e ≠ chunkByteSizeOverflow ∧ t.2.compressionScratch.length ≤ limit) := by
  unfold compress
  by_cases hempty : data.length = 0
  · rw [if_pos hempty]
    exact ⟨by decide, hscratch⟩
  · rw [if_neg hempty, Call.post_bind_iff]
    rw [onImpl, Call.post_focus_iff]
    refine (scratch_compressionContext cfg).imp ?_ ?_
    · intro ctx impl1 hsame
      have hscratch1 : impl1.compressionScratch.length ≤ limit := by rw [hsame]; exact hscratch
      rw [Call.post_bind_iff, onImpl, Call.post_focus_iff]
      refine Call.post_of_ok (compressSizes_eq hlimit hdata hscratch1) ?_
      rw [Call.post_bind_iff, Call.post_get]
      simp only
      rw [Call.post_bind_iff, Call.post_modify]
      have hwritten : (blosc2.compressCtx ctx data ((8 * data.length : Nat) : Int)
          (growScratch (8 * data.length + maxOverhead) impl1).compressionScratch
          (growScratch (8 * data.length + maxOverhead) impl1).compressionScratch.length).2.length ≤
            limit := by
        rw [blosc2.length_compressCtx, length_growScratch]
        omega
      split
      · exact ⟨by decide, hwritten⟩
      · exact hwritten
    · rintro e impl1 ⟨he, hsame⟩
      exact ⟨he, by rw [hsame]; exact hscratch⟩

theorem post_decompress [Zero R] {compressed : List UInt8} {out : List R}
    (hlimit : limit ≤ int32Max) (helems : 8 * elems + maxOverhead ≤ limit)
    (hcompressed : compressed.length ≤ limit) :
    Call.Post (decompress cfg compressed elems) (out, impl) (fun _ _ => True)
      (fun e _ => e ≠ chunkByteSizeOverflow) := by
  unfold decompress
  by_cases hinvalid : elems = 0 ∨ compressed = []
  · rw [if_pos hinvalid]
    exact (by decide :
      invalidArgument "BloscCodec: invalid chunk while decompressing" ≠ chunkByteSizeOverflow)
  · rw [if_neg hinvalid, Call.post_bind_iff, Call.post_modify, Call.post_bind_iff, onImpl,
      Call.post_focus_iff]
    refine (scratch_decompressionContext cfg).imp ?_ (fun e _ he => he.1)
    intro ctx impl1 _
    rw [decompressSizes_eq hlimit helems hcompressed, pure_bind, Call.post_bind_iff, Call.post_get]
    simp only
    rw [Call.post_bind_iff, Call.post_modify]
    split
    · exact (by decide :
        runtimeError "BloscCodec: chunk decompress failed" ≠ chunkByteSizeOverflow)
    · split
      · exact (by decide :
          runtimeError "BloscCodec: chunk decompress size mismatch" ≠ chunkByteSizeOverflow)
      · trivial

theorem keeps_decompress [Zero R] (cfg : BloscConfig) (compressed : List UInt8) (elems : Nat) :
    Call.Keeps (fun t : List R × Impl blosc2 => t.2.compressionScratch)
      (decompress cfg compressed elems) := by
  have hcontext : Call.Keeps (fun t : List R × Impl blosc2 => t.2.compressionScratch)
      (onImpl (decompressionContext cfg)) := by
    intro t
    exact ((scratch_decompressionContext cfg).imp (fun _ _ h => h) (fun _ _ h => h.2)).state
  unfold decompress
  apply Call.Keeps.ite (Call.keeps_throw _)
  beta_reduce
  apply Call.Keeps.bind
  · exact Call.keeps_modify fun _ => rfl
  intro _
  apply Call.Keeps.bind hcontext
  intro ctx
  apply Call.Keeps.bind
  · exact Call.Keeps.ite (Call.keeps_throw _) (Call.keeps_pure _)
  · intro sizes
    apply Call.Keeps.bind Call.keeps_get
    rintro ⟨out, impl⟩
    rcases blosc2.decompressCtx ctx compressed sizes.1 out sizes.2 with ⟨dsz, out⟩
    apply Call.Keeps.bind
    · exact Call.keeps_modify fun _ => rfl
    intro _
    apply Call.Keeps.ite (Call.keeps_throw _)
    exact Call.Keeps.ite (Call.keeps_throw _) (Call.keeps_pure _)

end Sizes

/-!
## Chunks of registers

A configuration makes chunks for registers of at most 31 qubits, and its codec is used
for any number of them.
-/

/-- A register of at most 31 qubits has a chunk of `elems` elements. -/
def ChunkElems (chunkStates elems : Nat) : Prop :=
  1 ≤ elems ∧ elems ≤ 2 * chunkStates ∧ exists n c, n ≤ 31 ∧
    c < (ChunkLayout.ofSizes (2 ^ n) chunkStates).chunkCount ∧
    (ChunkLayout.ofSizes (2 ^ n) chunkStates).chunkElemCount c = (pure elems : Call Unit Nat)

theorem ChunkElems.le {chunkStates elems : Nat} (h : ChunkElems chunkStates elems) :
    elems ≤ u64 (2 * chunkStates) := by
  rcases h with ⟨_, _, n, c, _, hc, hcount⟩
  rw [ChunkLayout.chunkElemCount, if_neg (by omega)] at hcount
  have hmin := congrArg (fun x : Call Unit Nat => (x ()).1) hcount
  simp only [Call.pure_apply, Except.ok.injEq] at hmin
  rw [← hmin, Nat.mul_comm 2]
  exact Nat.min_le_left _ _

theorem chunkElems_full {chunkStates : Nat} (hfull : 1 ≤ u64 (2 * chunkStates))
    (hpayload : 8 * u64 (2 * chunkStates) < 2 ^ 31) :
    ChunkElems chunkStates (u64 (2 * chunkStates)) := by
  have helems : (ChunkLayout.ofSizes (2 ^ 31) chunkStates).elemsPerChunk =
      u64 (2 * chunkStates) := by
    rw [Nat.mul_comm]
    rfl
  have htotal : (ChunkLayout.ofSizes (2 ^ 31) chunkStates).totalElems = 2 ^ 32 := rfl
  have hcount : (ChunkLayout.ofSizes (2 ^ 31) chunkStates).chunkCount =
      u64 (2 ^ 32 + u64 (2 * chunkStates) - 1) / u64 (2 * chunkStates) := by
    rw [Nat.mul_comm 2]
    rfl
  have hpos : 0 < (ChunkLayout.ofSizes (2 ^ 31) chunkStates).chunkCount := by
    rw [hcount, u64_of_lt (by omega)]
    apply Nat.div_pos <;> omega
  refine ⟨hfull, Nat.mod_le _ _, 31, 0, Nat.le_refl 31, hpos, ?_⟩
  have hbegin : u64 (2 ^ 32 + 2 ^ 64 - 0) = 2 ^ 32 := rfl
  rw [ChunkLayout.chunkElemCount, if_neg (by omega), helems, htotal, Nat.zero_mul]
  simp only [show u64 0 = 0 from rfl, hbegin]
  rw [Nat.min_eq_left (by omega)]

section Runs

variable [Zero R]

/-- The codec of a backend after any calls on chunks of its registers. -/
inductive Reached (blosc2 : Blosc2 R) (cfg : BloscConfig) : Impl blosc2 -> Prop where
  | constructed : Reached blosc2 cfg Impl.initial
  | compressed {impl : Impl blosc2} {data : List R} {out : List UInt8}
      (h : Reached blosc2 cfg impl) (hdata : ChunkElems cfg.chunkStates data.length) :
      Reached blosc2 cfg (compress cfg data (out, impl)).2.2
  | decompressed {impl : Impl blosc2} {compressed : List UInt8} {elems : Nat} {out : List R}
      (h : Reached blosc2 cfg impl) :
      Reached blosc2 cfg (decompress cfg compressed elems (out, impl)).2.2

variable {cfg : BloscConfig}

theorem Reached.scratch_le {impl : Impl blosc2} (h : Reached blosc2 cfg impl)
    (hfits : 8 * u64 (2 * cfg.chunkStates) + maxOverhead ≤ int32Max) :
    impl.compressionScratch.length ≤ 8 * u64 (2 * cfg.chunkStates) + maxOverhead := by
  induction h with
  | constructed => exact Nat.zero_le _
  | compressed h hdata ih =>
      have hle := hdata.le
      exact ((post_compress hfits (by omega) ih).imp (fun _ _ ht => ht) (fun _ _ ht => ht.2)).state
  | @decompressed impl compressed elems out h ih =>
      have hkeep := keeps_decompress cfg compressed elems (out, impl)
      simp only at hkeep
      rw [hkeep]
      exact ih

/--
Compressing a chunk and decompressing what Blosc2 made of it pass the size checks, and
the sizes they pass on are those of the buffers.
-/
structure StoresChunk (cfg : BloscConfig) (impl : Impl blosc2) (elems : Nat) : Prop where
  compress_checks : forall data out, data.length = elems ->
    (compress cfg data (out, impl)).1 ≠ .error chunkByteSizeOverflow
  compress_sizes : Call.Post (compressSizes elems) impl
    (fun sizes impl' => sizes.1 = ((8 * elems : Nat) : Int) ∧
      sizes.2 = (impl'.compressionScratch.length : Int)) (fun _ _ => False)
  decompress_checks : forall compressed out, compressed.length ≤ 8 * elems + maxOverhead ->
    (decompress cfg compressed elems (out, impl)).1 ≠ .error chunkByteSizeOverflow
  decompress_sizes : forall compressedBytes, compressedBytes ≤ 8 * elems + maxOverhead ->
    (decompressSizes compressedBytes elems : Call Unit (Int × Int)) =
      pure ((compressedBytes : Int), ((8 * elems : Nat) : Int))

theorem ne_error_of_post {τ α : Type} {x : Call τ α} {t : τ} {e : Exc} {Q : α -> τ -> Prop}
    (h : Call.Post x t Q (fun e' _ => e' ≠ e)) : (x t).1 ≠ .error e := by
  intro herror
  unfold Call.Post at h
  rcases hrun : x t with ⟨r, t'⟩
  rw [hrun] at h herror
  subst herror
  exact h rfl

theorem StoresChunk.compressSizes_ne {impl : Impl blosc2} {elems : Nat}
    (h : StoresChunk cfg impl elems) : (compressSizes elems impl).1 ≠ .error chunkByteSizeOverflow :=
  ne_error_of_post (h.compress_sizes.imp (fun _ _ hs => hs) (fun _ _ hs => hs.elim))

theorem storesChunk_of_le {impl : Impl blosc2} {limit elems : Nat} (hlimit : limit ≤ int32Max)
    (helems : 8 * elems + maxOverhead ≤ limit)
    (hscratch : impl.compressionScratch.length ≤ limit) : StoresChunk cfg impl elems where
  compress_checks := by
    intro data out hdata
    subst hdata
    exact ne_error_of_post
      ((post_compress hlimit helems hscratch).imp (fun _ _ _ => trivial) (fun _ _ he => he.1))
  compress_sizes := Call.post_of_ok (compressSizes_eq hlimit helems hscratch) ⟨rfl, rfl⟩
  decompress_checks := by
    intro compressed out hcompressed
    exact ne_error_of_post (post_decompress hlimit helems (hcompressed.trans helems))
  decompress_sizes := fun _ hbytes => decompressSizes_eq hlimit helems (hbytes.trans helems)

/-- Every chunk can be stored if and only if a full one with its overhead fits. -/
theorem stores_chunks_iff {K : Type} [Field K] [LinearOrder K]
    {config : RegisterConfig (CodecSettings K)} (haccepted : Accepts (validateConfig config)) :
    (forall impl : Impl blosc2, Reached blosc2 config.settings.blosc impl ->
      forall elems, ChunkElems config.settings.blosc.chunkStates elems ->
        StoresChunk config.settings.blosc impl elems) <->
      8 * u64 (2 * config.settings.blosc.chunkStates) + maxOverhead ≤ int32Max := by
  have hpayload := ((accepts_iff config).mp haccepted).2.2.2.2
  constructor
  · intro hall
    by_cases hnone : u64 (2 * config.settings.blosc.chunkStates) = 0
    · rw [hnone]
      decide
    · have hstores := hall Impl.initial .constructed _ (chunkElems_full (by omega) hpayload)
      exact le_of_compressSizes (hstores.compress_sizes.mono fun _ _ h => h.1)
        (by unfold maxOverhead; omega)
  · intro hfits impl himpl elems helems
    have hle := helems.le
    exact storesChunk_of_le hfits (by omega) (himpl.scratch_le hfits)

end Runs

/-!
## A codec that stores
-/

/-- The bytes of a `double`, given by its bits. -/
def doubleBytes (bits : UInt64) : List UInt8 :=
  (List.range 8).map fun i => (bits >>> (8 * i).toUInt64).toUInt8

def doubleOfBytes (bytes : List UInt8) : UInt64 :=
  bytes.foldr (fun byte bits => bits <<< 8 ||| byte.toUInt64) 0

/-- A Blosc2 that puts the elements behind a header without compressing them. -/
def storingBlosc2 : Blosc2 UInt64 where
  Context := Unit
  createCctx _ := some ()
  createDctx _ := some ()
  compressCtx _ src srcsize dest destsize :=
    if destsize < srcsize + maxOverhead then
      (0, dest)
    else
      let bytes := List.replicate maxOverhead 0 ++ src.flatMap doubleBytes
      (bytes.length, (bytes ++ dest.drop bytes.length).take dest.length)
  decompressCtx _ src _ dest destsize :=
    (destsize, (List.range dest.length).map fun i =>
      doubleOfBytes ((src.drop (maxOverhead + 8 * i)).take 8))
  length_compressCtx := by
    intro ctx src srcsize dest destsize
    split
    · rfl
    · simp only
      rw [List.length_take, List.length_append, List.length_drop]
      omega
  length_decompressCtx := by
    intro ctx src srcsize dest destsize
    rw [List.length_map, List.length_range]

theorem default_stores_chunks_iff :
    (forall impl : Impl storingBlosc2, Reached storingBlosc2 {} impl ->
      forall elems, ChunkElems 32768 elems -> StoresChunk {} impl elems) <->
      8 * u64 (2 * 32768) + maxOverhead ≤ int32Max :=
  stores_chunks_iff (default_accepted (R := Rat) .blosc 0).1

def largestChunks : BloscConfig :=
  { chunkStates := 134217727 }

theorem compressSizes_largest (impl : Impl storingBlosc2) :
    (compressSizes 268435454 impl).1 = .error chunkByteSizeOverflow := by
  have hsrc : u64 (268435454 * StorageStrategyRegistry.sizeofDouble) = 2147483632 := by decide
  have hrequired : u64 (2147483632 + maxOverhead) = 2147483664 := by decide
  have hmax : int32Max = 2147483647 := by decide
  have hlength := length_growScratch 2147483664 impl
  unfold compressSizes
  simp only [hsrc, hrequired]
  rw [Call.bind_ok (Call.modify_apply _ _), Call.bind_ok (Call.get_apply _), if_pos (by omega)]
  rfl

/--
The validation accepts chunks whose payload alone fits.  With the overhead of the codec
they do not, and a full chunk can never be compressed.
-/
theorem accepted_chunk_not_stored :
    Accepts (validateConfig (withChunkStates 134217727 1)) ∧
      ChunkElems 134217727 268435454 ∧
      (forall data : List UInt64, data.length = 268435454 ->
        (compress largestChunks data ([], (Impl.initial : Impl storingBlosc2))).1 =
          .error chunkByteSizeOverflow) ∧
      ¬ StoresChunk largestChunks (Impl.initial : Impl storingBlosc2) 268435454 := by
  have hdefault := default_accepted (R := Rat) .blosc 0
  rw [accepts_iff] at hdefault
  rcases hdefault.1 with ⟨_, hclevel, hnthreads, hslots, _⟩
  have haccepted : Accepts (validateConfig (withChunkStates 134217727 1)) := by
    have hchunk : 1 ≤ 134217727 := by decide
    have hpayload : 8 * u64 (2 * 134217727) < 2 ^ 31 := by decide
    exact (accepts_iff _).mpr ⟨hchunk, hclevel, hnthreads, hslots, hpayload⟩
  have hfull : u64 (2 * 134217727) = 268435454 := by decide
  have hchunk : ChunkElems 134217727 268435454 := by
    rw [← hfull]
    exact chunkElems_full (by decide) (by decide)
  refine ⟨haccepted, hchunk, ?_, ?_⟩
  · intro data hdata
    have hcontext : onImpl (compressionContext largestChunks)
        (([] : List UInt8), (Impl.initial : Impl storingBlosc2)) =
          (.ok (), [], { Impl.initial with compressionCtx := some () }) := rfl
    have hsizes := compressSizes_largest { Impl.initial with compressionCtx := some () }
    unfold compress
    rw [if_neg (by omega)]
    beta_reduce
    rw [Call.bind_ok hcontext, hdata]
    apply Call.fst_bind_error
    rw [fst_onImpl]
    exact hsizes
  · intro hstores
    exact hstores.compressSizes_ne (compressSizes_largest Impl.initial)

end BloscCodec

end Tmfqs
