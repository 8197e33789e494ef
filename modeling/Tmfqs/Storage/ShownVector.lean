import Tmfqs.Storage.ArgumentChecks
import Tmfqs.Storage.CompressedSafety

/-!
# The vector a backend shows

A checked backend answers every query from one vector, whatever its codec keeps and
whatever copies it comes from.  Which vector that is after a mutation is left open.
-/

namespace Tmfqs

open Library

/-- `Shows n v b`: queries of `b` are answered from the vector `v` of `n` qubits. -/
structure ShowsVector {R : Type} [Field R] [LinearOrder R] {β : Type} [IStateBackend R β]
    (G : ChecksArguments (R := R) β) where
  Shows : Nat -> List R -> β -> Prop
  ready : forall {n v b}, Shows n v b -> G.Ready n b
  exists_shows : forall {n b}, G.Ready n b -> exists v, Shows n v b
  length : forall {n v b}, Shows n v b -> v.length = 2 * 2 ^ n
  forEachAmplitudeChunk : forall {n v b}, Shows n v b ->
    Call.Post IStateBackend.forEachAmplitudeChunk b
      (fun chunks b' => IsChunking 0 chunks v ∧ Shows n v b') (fun _ _ => False)
  amplitude : forall {n v b s}, Shows n v b -> s < 2 ^ n ->
    Answers (IStateBackend.amplitude s) b (.ok (ampAt v s)) (fun _ => True)
  totalProbability : forall {n v b}, Shows n v b ->
    Answers IStateBackend.totalProbability b (.ok (StateVector.totalProbability v)) (fun _ => True)
  sampleMeasurement : forall {n v b rnd}, Shows n v b ->
    Answers (IStateBackend.sampleMeasurement rnd) b (StateVector.sample rnd v) (fun _ => True)

theorem Answers.mono {β α : Type} {call : Call β α} {b : β} {answer : Except ExcKind α}
    {Q Q' : β -> Prop} (h : Answers call b answer Q) (hq : forall b', Q b' -> Q' b') :
    Answers call b answer Q' :=
  Call.Post.imp h (fun _ _ ha => ⟨ha.1, hq _ ha.2⟩) (fun _ _ he => ⟨he.1, hq _ he.2⟩)

/-!
## The dense backend
-/

namespace DenseStateBackend

variable {R : Type} [Field R] [LinearOrder R] [CMath R]

def showsVector : ShowsVector (checksArguments (R := R)) where
  Shows n v b := Holds n v b
  ready h := ⟨_, h⟩
  exists_shows h := h
  length h := h.length
  forEachAmplitudeChunk h := storesVector.forEachAmplitudeChunk (d := 0) h
  amplitude h hs := (storesVector.amplitude (d := 0) h hs).mono fun _ _ => trivial
  totalProbability h := (storesVector.totalProbability (d := 0) h).mono fun _ _ => trivial
  sampleMeasurement h := (storesVector.sampleMeasurement (d := 0) h).mono fun _ _ => trivial

end DenseStateBackend

/-!
## The compressed backend
-/

namespace CompressedStateBackend

variable {R B : Type} [Field R] {P : CodecPolicy R B} {round : List R -> List R}
  {hR : P.Rounds round} {n : Nat} {v : List R} {X S : Nat -> List R} {b : CompressedStateBackend P}

section Chunks

variable {layout : ChunkLayout} {N k : Nat}

theorem statesIn_of_succ (h : layout.Exact N k) {c : Nat} (hc : c + 1 < layout.chunkCount) :
    layout.statesIn c = k := by
  have hlt := (h.lt_chunkCount_iff (c + 1)).mp hc
  rw [Nat.succ_mul] at hlt
  rw [h.statesIn_eq]
  omega

omit [Field R] in
theorem length_flatMap_range (h : layout.Exact N k)
    (hX : forall c, c < layout.chunkCount -> (X c).length = 2 * layout.statesIn c) {c : Nat}
    (hc : c < layout.chunkCount) : ((List.range c).flatMap X).length = c * (2 * k) := by
  induction c with
  | zero => simp
  | succ c ih =>
      have hprev : c < layout.chunkCount := Nat.lt_of_succ_lt hc
      rw [List.range_succ, List.flatMap_append, List.length_append, ih hprev,
        List.flatMap_singleton, hX c hprev, statesIn_of_succ h hc, Nat.succ_mul c (2 * k)]

omit [Field R] in
theorem chunkOf_flatMap (h : layout.Exact N k)
    (hX : forall c, c < layout.chunkCount -> (X c).length = 2 * layout.statesIn c) {c : Nat}
    (hc : c < layout.chunkCount) :
    chunkOf k ((List.range layout.chunkCount).flatMap X) c = X c := by
  have hsplit : List.range layout.chunkCount =
      List.range c ++ (c :: List.range' (c + 1) (layout.chunkCount - (c + 1))) := by
    have happend := List.range'_append_1 (s := 0) (m := c) (n := layout.chunkCount - c)
    have hrest : layout.chunkCount - c = layout.chunkCount - (c + 1) + 1 := by omega
    have hcount : c + (layout.chunkCount - c) = layout.chunkCount := by omega
    rw [hcount, Nat.zero_add, hrest, List.range'_succ, ← List.range_eq_range',
      ← List.range_eq_range'] at happend
    exact happend.symm
  rw [hsplit, List.flatMap_append, List.flatMap_cons, chunkOf,
    ← length_flatMap_range h hX hc, List.drop_left]
  rcases Nat.lt_or_ge (c + 1) layout.chunkCount with hnext | hlast
  · have hfull : (X c).length = 2 * k := by
      rw [hX c hc, statesIn_of_succ h hnext]
    rw [← hfull, List.take_left]
  · have hnone : layout.chunkCount - (c + 1) = 0 := Nat.sub_eq_zero_of_le hlast
    have hle : (X c).length ≤ 2 * k := by
      rw [hX c hc, h.statesIn_eq]
      omega
    rw [hnone, List.range'_zero, List.flatMap_nil, List.append_nil, List.take_of_length_le hle]

end Chunks

/-- The backend answers from the vector its chunks make up at present. -/
def Shows (hR : P.Rounds round) (n : Nat) (v : List R) (b : CompressedStateBackend P) : Prop :=
  v.length = 2 * 2 ^ n ∧ exists S, Contains hR n (chunkOf P.chunkStates v) S b

section

omit [Field R]

theorem Contains.congr {X' S' : Nat -> List R} (h : Contains hR n X S b)
    (hX : forall k, k < b.layout.chunkCount -> X' k = X k)
    (hS : forall k, k < b.layout.chunkCount -> S' k = S k)
    (hlength : forall k, (S' k).length = (X' k).length) : Contains hR n X' S' b := by
  have hcount : forall {k : Nat}, k < b.cache.chunkToSlot.length -> k < b.layout.chunkCount :=
    fun hk => h.shaped.cacheChunks ▸ hk
  exact
    { shaped := h.shaped
      length := by
        intro k hk
        rw [hX k hk]
        exact h.length k hk
      content :=
        { sized := by
            intro k hk
            rw [hX k (hcount hk)]
            exact h.content.sized k hk
          length := hlength
          cached := by
            intro k buffer dirty hentry
            have hk : k < b.layout.chunkCount := by
              cases hslot : b.cache.slotOf k with
              | none =>
                  rw [ChunkCache.entry, hslot] at hentry
                  cases hentry
              | some i => exact hcount (b.cache.slotOf_lt hslot)
            rw [hX k hk, hS k hk]
            exact h.content.cached k buffer dirty hentry
          stored := by
            intro k hk hnone
            rw [hX k (hcount hk), hS k (hcount hk)]
            exact h.content.stored k hk hnone } }

theorem Sound.exists_shows (h : Sound hR n b) : exists v, Shows hR n v b := by
  rcases h with ⟨X, S, hX⟩
  have hlayout := hX.shaped.layout
  have hlength : ((List.range b.layout.chunkCount).flatMap X).length = 2 * 2 ^ n := by
    rw [List.length_flatMap, ← sum_statesIn hlayout]
    congr 1
    apply List.map_congr_left
    intro k hk
    exact hX.length k (List.mem_range.mp hk)
  have hchunk : forall k, k < b.layout.chunkCount ->
      chunkOf P.chunkStates ((List.range b.layout.chunkCount).flatMap X) k = X k :=
    fun k hk => chunkOf_flatMap hlayout hX.length hk
  refine ⟨(List.range b.layout.chunkCount).flatMap X, hlength,
    fun k => if k < b.layout.chunkCount then S k else [], ?_⟩
  apply hX.congr hchunk
  · intro k hk
    rw [if_pos hk]
  · intro k
    by_cases hk : k < b.layout.chunkCount
    · rw [if_pos hk, hchunk k hk]
      exact hX.content.length k
    · rw [if_neg hk, length_chunkOf_eq hlayout hlength, hlayout.statesIn_eq]
      have hend := mt (hlayout.lt_chunkCount_iff k).mpr hk
      simp only [List.length_nil]
      omega

theorem Shows.ready (h : Shows hR n v b) : Sound hR n b := by
  rcases h with ⟨_, S, hS⟩
  exact ⟨_, S, hS⟩

end

/-!
### Queries
-/

theorem shows_findAmplitude (h : Shows hR n v b) {s : Nat} (hs : s < 2 ^ n) :
    Answers (findAmplitude s) b (.ok (ampAt v s)) (fun _ => True) := by
  rcases h with ⟨_, S, hX⟩
  have hk := hX.shaped.layout.div_lt_chunkCount hs
  have hkey : s / P.chunkStates < b.cache.chunkToSlot.length := hX.shaped.cacheChunks ▸ hk
  have hread := readAmp_chunkOf P.chunkStates_pos v s
  rw [Answers, findAmplitude, Call.post_bind_iff, Call.post_get]
  simp only [hX.shaped.layout.stateRef_eq, ChunkCache.findBuffer_eq]
  cases hentry : b.cache.entry (s / P.chunkStates) with
  | some cached =>
      rcases cached with ⟨buffer, dirty⟩
      have hbuffer := (hX.content.cached _ buffer dirty hentry).1
      simp only [Option.map_some]
      rw [Call.post_pure, hbuffer, hread]
      exact ⟨rfl, trivial⟩
  | none =>
      simp only [Option.map_none]
      rw [Call.post_bind_iff, acquireChunk, onCached, Call.post_focus_iff]
      refine (ChunkCache.post_acquire hX.shaped.coherent hX.content hkey (fun hf => hf.elim)).imp ?_
        (fun _ _ he => he.1.elim)
      rintro handle ⟨c, store⟩ ⟨_, _, hbuffer, _⟩
      rw [Call.post_bind_iff, Call.post_get, Call.post_pure]
      have hdata : (c.slot handle.slotIndex).buffer = chunkOf P.chunkStates v (s / P.chunkStates) :=
        hbuffer
      rw [slotData, hdata, hread]
      exact ⟨rfl, trivial⟩

section Queries

variable [LinearOrder R] [CMath R]

omit [Field R] [LinearOrder R] [CMath R] in
theorem shows_forEachAmplitudeChunk (h : Shows hR n v b) :
    Call.Post forEachAmplitudeChunk b
      (fun chunks b' => IsChunking 0 chunks v ∧ Shows hR n v b') (fun _ _ => False) := by
  rcases h with ⟨hlength, S, hX⟩
  refine (forEachAmplitudeChunk_sees hX).imp ?_ ?_
  · rintro chunks b1 ⟨hchunks, hcodec⟩
    cases hchunks
    exact ⟨isChunking_seenChunks_all hX.shaped.layout hlength, hlength, S, hX.codecOnly hcodec⟩
  · rintro e b1 ⟨he, _⟩
    cases he

def showsVector (hR : P.Rounds round) : ShowsVector (checksArguments (R := R) hR) where
  Shows := Shows hR
  ready h := h.ready
  exists_shows h := Sound.exists_shows h
  length h := h.1
  forEachAmplitudeChunk h := shows_forEachAmplitudeChunk h
  amplitude := by
    intro n v b s h hs
    rcases h.2 with ⟨S, hX⟩
    change Answers (amplitude s) b _ _
    rw [Answers, amplitude, Call.post_bind_iff]
    refine Call.post_of_ok (ensureInitialized_eq hX.shaped _) ?_
    rw [Call.post_bind_iff, Call.post_get, validateStateIndex_eq hX.shaped hs, pure_bind]
    exact shows_findAmplitude h hs
  totalProbability := by
    rintro n v b ⟨hlength, S, hX⟩
    have hsees := totalProbability_sees hX
    rw [seenTotal_chunkOf hX.shaped.layout hlength] at hsees
    exact hsees.mono fun _ _ => trivial
  sampleMeasurement := by
    rintro n v b rnd ⟨hlength, S, hX⟩
    have hsees := sampleMeasurement_sees hX rnd
    rw [seenSample_chunkOf hX.shaped.layout hlength] at hsees
    exact hsees.mono fun _ _ => trivial

end Queries

end CompressedStateBackend

end Tmfqs
