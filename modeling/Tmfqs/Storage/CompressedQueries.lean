import Tmfqs.Storage.CompressedHolds

/-!
# Queries of the compressed backend

Queries over all chunks read a chunk from its slot, or decompress it beside the
cache.  Either way they see the chunk as it reads at present, whatever the codec
loses, and they leave the cache alone.
-/

namespace Tmfqs

open Library ChunkCache

namespace CompressedStateBackend

variable {R B : Type} [Field R] {P : CodecPolicy R B} {round : List R -> List R}

/-- Every chunk `k` reads as `X k` and, unless its slot is dirty, is stored as `S k`. -/
structure Contains (hR : P.Rounds round) (n : Nat) (X S : Nat -> List R)
    (b : CompressedStateBackend P) : Prop where
  shaped : b.Shaped n
  length : forall k, k < b.layout.chunkCount -> (X k).length = 2 * b.layout.statesIn k
  content : Content (ChunkVector.chunkStore hR b.layout.chunkCount) b.cache b.store X S

omit [Field R] in
theorem HoldsChunks.contains {hP : P.Lossless} {n : Nat} {X : Nat -> List R}
    {b : CompressedStateBackend P} (h : HoldsChunks hP n X b) : Contains hP n X X b where
  shaped := h.shaped
  length := fun k _ => h.length k
  content := h.content

variable {hR : P.Rounds round} {n : Nat} {X S : Nat -> List R} {b : CompressedStateBackend P}

omit [Field R] in
theorem Contains.elemCount (h : Contains hR n X S b) {k : Nat} (hk : k < b.layout.chunkCount) :
    (b.store.chunk k).elemCount = (X k).length :=
  (h.content.sized k (h.shaped.cacheChunks ▸ hk)).2.2.1

/-!
## Visiting the chunks
-/

structure CodecOnly (b b' : CompressedStateBackend P) : Prop where
  numQubits : b'.numQubits = b.numQubits
  numStates : b'.numStates = b.numStates
  layout : b'.layout = b.layout
  chunks : b'.store.chunks = b.store.chunks
  cache : b'.cache = b.cache
  batchDepth : b'.batchDepth = b.batchDepth

section

omit [Field R]

theorem CodecOnly.refl (b : CompressedStateBackend P) : CodecOnly b b :=
  ⟨rfl, rfl, rfl, rfl, rfl, rfl⟩

theorem CodecOnly.trans {b b' b'' : CompressedStateBackend P} (h : CodecOnly b b')
    (h' : CodecOnly b' b'') : CodecOnly b b'' :=
  ⟨h'.numQubits.trans h.numQubits, h'.numStates.trans h.numStates, h'.layout.trans h.layout,
    h'.chunks.trans h.chunks, h'.cache.trans h.cache, h'.batchDepth.trans h.batchDepth⟩

theorem CodecOnly.frame {b b' : CompressedStateBackend P} (h : CodecOnly b b') :
    SameFrame b b' := by
  refine ⟨h.numQubits, h.numStates, h.layout, h.batchDepth, fun hb => ?_⟩
  rw [Roomy, h.cache]
  exact hb

theorem CodecOnly.shaped {b b' : CompressedStateBackend P} (hc : CodecOnly b b')
    (h : b.Shaped n) : b'.Shaped n where
  qubits := h.qubits
  numQubits := hc.numQubits.trans h.numQubits
  numStates := hc.numStates.trans h.numStates
  layout := by
    rw [hc.layout]
    exact h.layout
  chunks := by
    rw [hc.chunks, hc.layout]
    exact h.chunks
  cacheChunks := by
    rw [hc.cache, hc.layout]
    exact h.cacheChunks
  capacity := by
    rw [hc.cache, hc.layout]
    exact h.capacity
  coherent := by
    rw [hc.cache]
    exact h.coherent

end

omit [Field R] in
theorem Contains.codecOnly {b' : CompressedStateBackend P} (h : Contains hR n X S b)
    (hc : CodecOnly b b') : Contains hR n X S b' where
  shaped := hc.shaped h.shaped
  length := by
    rw [hc.layout]
    exact h.length
  content := by
    have hchunk : forall k, b'.store.chunk k = b.store.chunk k := by
      intro k
      rw [ChunkVector.chunk, ChunkVector.chunk, hc.chunks]
    have hstores : forall k x, b.store.Stores k x -> b'.store.Stores k x := by
      rintro k x ⟨hk, hcount, hdecodes⟩
      exact ⟨hc.chunks ▸ hk, (hchunk k).symm ▸ hcount, (hchunk k).symm ▸ hdecodes⟩
    have hsizes : forall k m, ChunkVector.HasSize b.layout.chunkCount b.store k m ->
        ChunkVector.HasSize b.layout.chunkCount b'.store k m := by
      rintro k m ⟨hlen, hk, hcount, hpos⟩
      exact ⟨hc.chunks ▸ hlen, hk, (hchunk k).symm ▸ hcount, hpos⟩
    rw [hc.cache, hc.layout]
    exact h.content.keep hstores hsizes

omit [Field R] in
theorem post_chunkData (h : Contains hR n X S b) {k : Nat} (hk : k < b.layout.chunkCount)
    (scratch : List R) :
    Call.Post (chunkData k scratch) b
      (fun data b' => data.1 = X k ∧ CodecOnly b b') (fun _ _ => False) := by
  have hkey : k < b.cache.chunkToSlot.length := h.shaped.cacheChunks ▸ hk
  rw [chunkData, Call.post_bind_iff, Call.post_get, findBuffer_eq]
  cases hentry : b.cache.entry k with
  | some cached =>
      obtain ⟨buffer, dirty⟩ := cached
      exact ⟨(h.content.cached k buffer dirty hentry).1, CodecOnly.refl b⟩
  | none =>
      obtain ⟨heq, hstored⟩ := h.content.stored k hkey hentry
      have hdecodes := hstored.2.2
      rw [← heq] at hdecodes
      simp only [Option.map_none]
      rw [Call.post_bind_iff, Call.post_withLocal_iff, Call.post_bind_iff, Call.post_focus_iff,
        h.elemCount hk]
      refine (hdecodes b.store.codec scratch).mono ?_
      rintro _ ⟨x, codec⟩ hx
      rw [Call.post_bind_iff, Call.post_get, Call.post_pure, Call.post_pure]
      exact ⟨hx, rfl, rfl, rfl, rfl, rfl, rfl⟩

def visited {α : Type} (done : α -> Bool) (g : α -> Nat -> List R -> α) (X : Nat -> List R)
    (count : Nat) (start : α) : α :=
  (List.range count).foldl (fun acc k => if done acc then acc else g acc k (X k)) start

section

omit [Field R]

theorem visited_succ {α : Type} (done : α -> Bool) (g : α -> Nat -> List R -> α)
    (X : Nat -> List R) (count : Nat) (start : α) :
    visited done g X (count + 1) start =
      if done (visited done g X count start) then visited done g X count start
      else g (visited done g X count start) count (X count) := by
  rw [visited, List.range_succ, List.foldl_append]
  rfl

theorem post_visitChunks {α : Type} (h : Contains hR n X S b) {done : α -> Bool}
    {visitor : α -> Nat -> List R -> Call (CompressedStateBackend P) α}
    {g : α -> Nat -> List R -> α} {start : α}
    (hvisitor : forall acc k data b', k < b.layout.chunkCount -> b'.layout = b.layout ->
      visitor acc k data b' = (.ok (g acc k data), b')) :
    Call.Post (visitChunks done visitor start) b
      (fun result b' => result = visited done g X b.layout.chunkCount start ∧ CodecOnly b b')
      (fun _ _ => False) := by
  rw [visitChunks, Call.post_bind_iff, Call.post_get, Call.post_bind_iff, h.shaped.chunks]
  refine (Call.post_foldlM_range
    (fun count acc b' => acc.1 = visited done g X count start ∧ CodecOnly b b')
    ?_ ⟨rfl, CodecOnly.refl b⟩).mono ?_
  · rintro k ⟨acc, scratch⟩ b1 hk ⟨hacc, hcodec⟩
    simp only at hacc ⊢
    rw [visited_succ, ← hacc]
    by_cases hdone : done acc
    · rw [if_pos hdone, if_pos hdone]
      exact ⟨rfl, hcodec⟩
    · rw [if_neg hdone, if_neg hdone, Call.post_bind_iff]
      refine (post_chunkData (h.codecOnly hcodec) (hcodec.layout.symm ▸ hk) scratch).mono ?_
      rintro ⟨data, scratch'⟩ b2 ⟨hdata, hcodec'⟩
      simp only at hdata
      subst hdata
      have htake : (X k).take (b.store.chunk k).elemCount = X k := by
        rw [h.elemCount hk, List.take_length]
      simp only [htake]
      rw [Call.post_bind_iff]
      refine Call.post_of_ok (hvisitor acc k (X k) b2 hk (hcodec'.layout.trans hcodec.layout)) ?_
      exact ⟨rfl, hcodec.trans hcodec'⟩
  · rintro ⟨acc, _⟩ b1 ⟨hacc, hcodec⟩
    exact ⟨hacc, hcodec⟩

theorem post_visitChunks_pure {α : Type} (h : Contains hR n X S b) (done : α -> Bool)
    (g : α -> Nat -> List R -> α) (start : α) :
    Call.Post (visitChunks done (fun acc k data => pure (g acc k data)) start) b
      (fun result b' => result = visited done g X b.layout.chunkCount start ∧ CodecOnly b b')
      (fun _ _ => False) :=
  post_visitChunks h (fun _ _ _ _ _ _ => rfl)

end

/-!
## Answers from the chunks
-/

section Answers

def seenExport (X : Nat -> List R) (count n : Nat) : List R :=
  (visited (fun _ => false)
    (fun (acc : List R × Nat) _ data =>
      (acc.1.take acc.2 ++ data ++ acc.1.drop (acc.2 + data.length), acc.2 + data.length))
    X count (List.replicate (2 * 2 ^ n) 0, 0)).1

def seenChunks (chunkStates : Nat) (X : Nat -> List R) (count : Nat) : List (Nat × List R) :=
  visited (fun _ => false)
    (fun visits k data => visits ++ [(k * chunkStates, data)]) X count []

def seenTotal (X : Nat -> List R) (count : Nat) : R :=
  visited (fun _ => false)
    (fun total _ data =>
      (amplitudesOf data).foldl
        (fun total amp => total + (amp.real * amp.real + amp.imag * amp.imag)) total)
    X count 0

variable [LinearOrder R]

/-- The search of `sampleMeasurement` over the chunks. -/
def seenSearch (rnd : R) (X : Nat -> List R) (count : Nat) : Option Nat × R × Nat :=
  visited (fun acc => acc.1.isSome)
    (fun acc _ data =>
      ((searchCumulative rnd acc.2.1 ((amplitudesOf data).map fun amp =>
          amp.real * amp.real + amp.imag * amp.imag)).1.map (acc.2.2 + ·),
        (searchCumulative rnd acc.2.1 ((amplitudesOf data).map fun amp =>
          amp.real * amp.real + amp.imag * amp.imag)).2,
        acc.2.2 + data.length / 2))
    X count (none, 0, 0)

def seenSample (rnd : R) (X : Nat -> List R) (count : Nat) : Except ExcKind Nat :=
  if rnd < 0 ∨ rnd ≥ 1 then
    .error .invalidArgument
  else
    match (seenSearch rnd X count).1 with
    | some state => .ok state
    | none => .error .runtimeError

def seenLines (epsilon : R) (X : Nat -> List R) (count : Nat) : List (Nat × Amplitude R) × Nat :=
  visited (fun _ => false)
    (fun acc _ data =>
      (acc.1 ++ ((List.range (data.length / 2)).map fun localState =>
          (acc.2 + localState, readAmp data (localState * 2))).filter
            fun line => |line.2.real| > epsilon ∨ |line.2.imag| > epsilon,
        acc.2 + data.length / 2))
    X count ([], 0)

def seenPrint (epsilon : R) (X : Nat -> List R) (count : Nat) :
    Except ExcKind (List (Nat × Amplitude R)) :=
  if epsilon < 0 then
    .error .invalidArgument
  else
    .ok (seenLines epsilon X count).1

variable (h : Contains hR n X S b)
include h

section

omit [LinearOrder R]

theorem exportAmplitudes_sees :
    Answers exportAmplitudes b (.ok (seenExport X b.layout.chunkCount n)) (CodecOnly b) := by
  rw [Answers, exportAmplitudes, Call.post_bind_iff]
  refine Call.post_of_ok (ensureInitialized_eq h.shaped _) ?_
  have hn := h.shaped.qubits
  rw [Call.post_bind_iff, Call.post_get, h.shaped.numQubits,
    checkedAmplitudeElementCount_eq (by omega), pure_bind, Call.post_bind_iff]
  refine (post_visitChunks_pure h _ _ _).imp ?_ (fun _ _ he => he.elim)
  rintro result b1 ⟨rfl, hcodec⟩
  exact ⟨rfl, hcodec⟩

omit [Field R] in
theorem forEachAmplitudeChunk_sees :
    Answers forEachAmplitudeChunk b (.ok (seenChunks P.chunkStates X b.layout.chunkCount))
      (CodecOnly b) := by
  rw [Answers, forEachAmplitudeChunk, Call.post_bind_iff]
  refine Call.post_of_ok (ensureInitialized_eq h.shaped _) ?_
  rw [Call.post_bind_iff, Call.post_get]
  refine (post_visitChunks h (g := fun visits k data => visits ++ [(k * P.chunkStates, data)])
    ?_).imp ?_ (fun _ _ he => he.elim)
  · intro acc k data b' hk _
    rw [h.shaped.layout.chunkStateBegin_eq hk]
    rfl
  · rintro result b1 ⟨rfl, hcodec⟩
    exact ⟨rfl, hcodec⟩

theorem totalProbability_sees :
    Answers totalProbability b (.ok (seenTotal X b.layout.chunkCount)) (CodecOnly b) := by
  rw [Answers, totalProbability, Call.post_bind_iff]
  refine Call.post_of_ok (ensureInitialized_eq h.shaped _) ?_
  refine (post_visitChunks_pure h _ _ _).imp ?_ (fun _ _ he => he.elim)
  rintro result b1 ⟨rfl, hcodec⟩
  exact ⟨rfl, hcodec⟩

end

theorem sampleMeasurement_sees (rnd : R) :
    Answers (sampleMeasurement rnd) b (seenSample rnd X b.layout.chunkCount) (CodecOnly b) := by
  rw [Answers, sampleMeasurement, Call.post_bind_iff]
  refine Call.post_of_ok (ensureInitialized_eq h.shaped _) ?_
  by_cases hrange : rnd < 0 ∨ rnd ≥ 1
  · rw [if_pos hrange]
    exact ⟨if_pos hrange, CodecOnly.refl b⟩
  · rw [if_neg hrange, seenSample, if_neg hrange]
    change Call.Post (visitChunks _ _ _ >>= _) _ _ _
    rw [Call.post_bind_iff]
    refine (post_visitChunks_pure h _ _ _).imp ?_ (fun _ _ he => he.elim)
    rintro result b1 ⟨hresult, hcodec⟩
    have hsearch : result = seenSearch rnd X b.layout.chunkCount := hresult
    rw [← hsearch]
    cases result.1 with
    | some state => exact ⟨rfl, hcodec⟩
    | none => exact ⟨rfl, hcodec⟩

theorem printNonZeroStates_sees (epsilon : R) :
    Answers (printNonZeroStates epsilon) b (seenPrint epsilon X b.layout.chunkCount)
      (CodecOnly b) := by
  rw [Answers, printNonZeroStates, Call.post_bind_iff]
  refine Call.post_of_ok (ensureInitialized_eq h.shaped _) ?_
  by_cases hneg : epsilon < 0
  · rw [if_pos hneg]
    exact ⟨if_pos hneg, CodecOnly.refl b⟩
  · rw [if_neg hneg, seenPrint, if_neg hneg]
    change Call.Post (visitChunks _ _ _ >>= _) _ _ _
    rw [Call.post_bind_iff]
    refine (post_visitChunks_pure h _ _ _).imp ?_ (fun _ _ he => he.elim)
    rintro result b1 ⟨hresult, hcodec⟩
    have hlines : result = seenLines epsilon X b.layout.chunkCount := hresult
    rw [← hlines]
    exact ⟨rfl, hcodec⟩

end Answers

/-!
## Answers from a state vector
-/

section Vectors

variable {layout : ChunkLayout} {k : Nat} {v : List R}

omit [Field R] in
theorem visited_all {α : Type} (g : α -> Nat -> List R -> α) (X : Nat -> List R) (count : Nat)
    (start : α) :
    visited (fun _ => false) g X (count + 1) start =
      g (visited (fun _ => false) g X count start) count (X count) := by
  rw [visited_succ, if_neg Bool.false_ne_true]

theorem seenExport_take (n count : Nat) (hv : v.length = 2 * 2 ^ n) :
    let acc := visited (fun _ => false)
      (fun (acc : List R × Nat) _ data =>
        (acc.1.take acc.2 ++ data ++ acc.1.drop (acc.2 + data.length), acc.2 + data.length))
      (chunkOf k v) count (List.replicate (2 * 2 ^ n) 0, 0)
    acc.1.length = v.length ∧ acc.2 = (v.take (count * (2 * k))).length ∧
      acc.1.take acc.2 = v.take (count * (2 * k)) := by
  induction count with
  | zero => simp [visited, hv]
  | succ count ih =>
      obtain ⟨hlen, hoffset, htake⟩ := ih
      simp only [visited_all]
      obtain ⟨acc, hacc⟩ : exists acc, acc = visited (fun _ => false)
          (fun (acc : List R × Nat) _ data =>
            (acc.1.take acc.2 ++ data ++ acc.1.drop (acc.2 + data.length), acc.2 + data.length))
          (chunkOf k v) count (List.replicate (2 * 2 ^ n) 0, 0) := ⟨_, rfl⟩
      rw [← hacc] at hlen hoffset htake ⊢
      have hsplit := congrArg List.length (take_succ_chunk (k := k) (v := v) count)
      rw [List.length_append] at hsplit
      have hle : (v.take ((count + 1) * (2 * k))).length ≤ v.length := List.length_take_le' _ _
      refine ⟨?_, ?_, ?_⟩
      · rw [htake, ← take_succ_chunk, List.length_append, List.length_drop]
        omega
      · rw [hsplit, hoffset]
      · rw [htake, ← take_succ_chunk, hoffset, ← hsplit, List.take_left]

theorem seenExport_chunkOf (h : layout.Exact (2 ^ n) k) (hv : v.length = 2 * 2 ^ n) :
    seenExport (chunkOf k v) layout.chunkCount n = v := by
  obtain ⟨hlen, hoffset, htake⟩ := seenExport_take (k := k) n layout.chunkCount hv
  rw [take_all_chunks h hv] at hoffset htake
  rw [seenExport]
  rw [hoffset, ← hlen, List.take_length] at htake
  exact htake

section

omit [Field R]

theorem isChunking_append {visits rest : List (Nat × List R)} {xs ys : List R} :
    forall {base : Nat}, IsChunking base visits xs -> IsChunking (base + xs.length / 2) rest ys ->
      IsChunking base (visits ++ rest) (xs ++ ys) := by
  induction visits generalizing xs with
  | nil =>
      intro base hxs hys
      cases hxs
      simpa using hys
  | cons visit visits ih =>
      obtain ⟨begin_, data⟩ := visit
      rintro base ⟨hbegin, heven, tail, rfl, htail⟩ hys
      refine ⟨hbegin, heven, tail ++ ys, List.append_assoc data tail ys, ih htail ?_⟩
      have hbase : base + (data ++ tail).length / 2 = base + data.length / 2 + tail.length / 2 := by
        rw [List.length_append]
        omega
      rw [← hbase]
      exact hys

theorem isChunking_seenChunks (hv : v.length % 2 = 0) (count : Nat)
    (hle : (count - 1) * (2 * k) ≤ v.length) :
    IsChunking 0 (seenChunks k (chunkOf k v) count) (v.take (count * (2 * k))) := by
  induction count with
  | zero =>
      rw [Nat.zero_mul, List.take_zero]
      rfl
  | succ count ih =>
      rw [seenChunks, visited_all, take_succ_chunk]
      have hcount : count * (2 * k) ≤ v.length := hle
      refine isChunking_append (ih ?_) ⟨?_, length_chunkOf_mod_two hv count, [], by simp, rfl⟩
      · exact Nat.le_trans (Nat.mul_le_mul_right _ (Nat.sub_le count 1)) hcount
      · have hmul : count * (2 * k) = 2 * (count * k) := Nat.mul_left_comm count 2 k
        rw [List.length_take, hmul, Nat.zero_add]
        omega

theorem isChunking_seenChunks_all (h : layout.Exact (2 ^ n) k) (hv : v.length = 2 * 2 ^ n) :
    IsChunking 0 (seenChunks k (chunkOf k v) layout.chunkCount) v := by
  have heven : v.length % 2 = 0 := by
    rw [hv]
    exact Nat.mul_mod_right 2 _
  have hlast : (layout.chunkCount - 1) * k < 2 ^ n := by
    rw [← h.lt_chunkCount_iff]
    have hpos := h.chunkCount_pos
    omega
  have hmul : (layout.chunkCount - 1) * (2 * k) = 2 * ((layout.chunkCount - 1) * k) :=
    Nat.mul_left_comm _ 2 _
  have hvisits := isChunking_seenChunks (k := k) heven layout.chunkCount (by
    rw [hv, hmul]
    omega)
  rw [take_all_chunks h hv] at hvisits
  exact hvisits

end

theorem seenTotal_chunkOf (h : layout.Exact (2 ^ n) k) (hv : v.length = 2 * 2 ^ n) :
    seenTotal (chunkOf k v) layout.chunkCount = StateVector.totalProbability v := by
  have heven : v.length % 2 = 0 := by
    rw [hv]
    exact Nat.mul_mod_right 2 _
  have htotal : forall count, seenTotal (chunkOf k v) count =
      StateVector.totalProbability (v.take (count * (2 * k))) := by
    intro count
    induction count with
    | zero =>
        rw [Nat.zero_mul, List.take_zero]
        rfl
    | succ count ih =>
        rw [seenTotal, visited_all]
        change (amplitudesOf (chunkOf k v count)).foldl _ (seenTotal (chunkOf k v) count) = _
        rw [ih, StateVector.totalProbability, StateVector.totalProbability,
          amplitudesOf_take_succ heven, List.foldl_append]
        rfl
  rw [htotal, take_all_chunks h hv]

variable [LinearOrder R]

theorem seenSearch_take (rnd : R) (hv : v.length % 2 = 0) (count : Nat) :
    (seenSearch rnd (chunkOf k v) count).1 =
        (searchCumulative rnd 0 ((amplitudesOf (v.take (count * (2 * k)))).map
          Amplitude.probability)).1 ∧
      ((seenSearch rnd (chunkOf k v) count).1 = none ->
        (seenSearch rnd (chunkOf k v) count).2.1 =
            (searchCumulative rnd 0 ((amplitudesOf (v.take (count * (2 * k)))).map
              Amplitude.probability)).2 ∧
          (seenSearch rnd (chunkOf k v) count).2.2 =
            (amplitudesOf (v.take (count * (2 * k)))).length) := by
  induction count with
  | zero => simp [seenSearch, visited, searchCumulative, amplitudesOf]
  | succ count ih =>
      obtain ⟨hfound, hrest⟩ := ih
      have hstep : seenSearch rnd (chunkOf k v) (count + 1) =
          if (seenSearch rnd (chunkOf k v) count).1.isSome then
            seenSearch rnd (chunkOf k v) count
          else
            ((searchCumulative rnd (seenSearch rnd (chunkOf k v) count).2.1
                ((amplitudesOf (chunkOf k v count)).map Amplitude.probability)).1.map
                  ((seenSearch rnd (chunkOf k v) count).2.2 + ·),
              (searchCumulative rnd (seenSearch rnd (chunkOf k v) count).2.1
                ((amplitudesOf (chunkOf k v count)).map Amplitude.probability)).2,
              (seenSearch rnd (chunkOf k v) count).2.2 + (chunkOf k v count).length / 2) :=
        visited_succ _ _ _ count _
      rw [hstep, amplitudesOf_take_succ hv, List.map_append, searchCumulative_append]
      cases hsearch : searchCumulative rnd 0 ((amplitudesOf (v.take (count * (2 * k)))).map
          Amplitude.probability) with
      | mk found total =>
          rw [hsearch] at hfound hrest
          cases found with
          | some i =>
              have hsome : (seenSearch rnd (chunkOf k v) count).1 = some i := hfound
              rw [if_pos (by rw [hsome]; rfl), hsome]
              exact ⟨rfl, fun hnone => by cases hnone⟩
          | none =>
              have hnone : (seenSearch rnd (chunkOf k v) count).1 = none := hfound
              obtain ⟨htotal, hbase⟩ := hrest hnone
              rw [if_neg (by rw [hnone]; exact Bool.false_ne_true), htotal, hbase]
              simp only [List.length_map, List.length_append, length_amplitudesOf]
              refine ⟨?_, fun _ => ⟨trivial, trivial⟩⟩
              congr 1
              funext i
              exact Nat.add_comm _ _

theorem seenSample_chunkOf [CMath R] (h : layout.Exact (2 ^ n) k) (hv : v.length = 2 * 2 ^ n)
    (rnd : R) : seenSample rnd (chunkOf k v) layout.chunkCount = StateVector.sample rnd v := by
  have heven : v.length % 2 = 0 := by
    rw [hv]
    exact Nat.mul_mod_right 2 _
  rw [seenSample, (seenSearch_take rnd heven layout.chunkCount).1, take_all_chunks h hv]
  rfl

theorem seenLines_take (epsilon : R) (hv : v.length % 2 = 0) (count : Nat) :
    seenLines epsilon (chunkOf k v) count =
      (StateVector.printed epsilon 0 (amplitudesOf (v.take (count * (2 * k)))),
        (amplitudesOf (v.take (count * (2 * k)))).length) := by
  induction count with
  | zero => simp [seenLines, visited, StateVector.printed, amplitudesOf]
  | succ count ih =>
      have hstep : seenLines epsilon (chunkOf k v) (count + 1) =
          ((seenLines epsilon (chunkOf k v) count).1 ++
            ((List.range ((chunkOf k v count).length / 2)).map fun localState =>
              ((seenLines epsilon (chunkOf k v) count).2 + localState,
                readAmp (chunkOf k v count) (localState * 2))).filter
              fun line => |line.2.real| > epsilon ∨ |line.2.imag| > epsilon,
            (seenLines epsilon (chunkOf k v) count).2 + (chunkOf k v count).length / 2) :=
        visited_all _ _ count _
      rw [hstep, ih, amplitudesOf_take_succ hv, StateVector.printed_append, Nat.zero_add,
        StateVector.printed_eq_filter epsilon (amplitudesOf (chunkOf k v count)),
        List.length_append, length_amplitudesOf (chunkOf k v count)]
      have hlines : ((List.range ((chunkOf k v count).length / 2)).map fun localState =>
          ((amplitudesOf (v.take (count * (2 * k)))).length + localState,
            readAmp (chunkOf k v count) (localState * 2))) =
          (List.range ((chunkOf k v count).length / 2)).map fun i =>
            ((amplitudesOf (v.take (count * (2 * k)))).length + i,
              (amplitudesOf (chunkOf k v count)).getD i Amplitude.zero) := by
        apply List.map_congr_left
        intro i hi
        rw [amplitudesOf_eq_map (chunkOf k v count), List.getD_eq_getElem?_getD,
          List.getElem?_map, List.getElem?_range (List.mem_range.mp hi), Nat.mul_comm i 2]
        rfl
      simp only
      rw [hlines]

theorem seenPrint_chunkOf [CMath R] (h : layout.Exact (2 ^ n) k) (hv : v.length = 2 * 2 ^ n)
    (epsilon : R) :
    seenPrint epsilon (chunkOf k v) layout.chunkCount = StateVector.print epsilon v := by
  have heven : v.length % 2 = 0 := by
    rw [hv]
    exact Nat.mul_mod_right 2 _
  rw [seenPrint, seenLines_take epsilon heven, take_all_chunks h hv]
  rfl

end Vectors

end CompressedStateBackend

end Tmfqs
