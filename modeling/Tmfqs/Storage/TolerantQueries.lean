import Tmfqs.Storage.BackendRuns
import Tmfqs.Storage.CompressedQueries
import Tmfqs.Storage.Tolerance

/-!
# Queries that may fail

Queries over all chunks see the vector the backend reads as, and leave it alone also when
they throw.  Reading one amplitude may bring its chunk in.
-/

namespace Tmfqs

open Library ChunkCache

namespace CompressedStateBackend

variable {R B : Type} [Field R] {P : CodecPolicy R B} {T : Tolerance P} {n : Nat}
  {D : Drift T n} {v x : List R} {b b' b'' : CompressedStateBackend P}

/-!
## Visiting the chunks
-/

/-- `b'` reads as `x` as `b` did, and differs from it in the codec at most. -/
structure Sees (T : Tolerance P) (n : Nat) (x : List R) (b b' : CompressedStateBackend P) :
    Prop where
  reads : ReadsAs T n x b'
  codecOnly : CodecOnly b b'

section

omit [Field R]

theorem Sees.refl (h : ReadsAs T n x b) : Sees T n x b b :=
  ⟨h, CodecOnly.refl b⟩

theorem Sees.after (hc : CodecOnly b b') (h : Sees T n x b' b'') : Sees T n x b b'' :=
  ⟨h.reads, hc.trans h.codecOnly⟩

theorem Sees.carries (h : Sees T n x b b') (hc : b.cache.Coherent none)
    (hwithin : D.Within b.cache.touchCounter x v) : Carries D v b' := by
  refine ⟨?_, x, h.reads, ?_⟩
  · rw [h.codecOnly.cache]
    exact hc
  · rw [h.codecOnly.cache]
    exact hwithin

theorem Sees.leaves (h : Sees T n x b b') (hc : b.cache.Coherent none)
    (hwithin : D.Within b.cache.touchCounter x v) : Leaves D v b.batchDepth b' :=
  ⟨fun _ => (h.carries hc hwithin).1, h.codecOnly.batchDepth, (h.carries hc hwithin).2⟩

theorem Framed.ensureInitialized_eq (h : b.Framed n) (operation : String) :
    ensureInitialized operation b = (.ok (), b) := by
  have hinit : b.numStates > 0 ∧ !b.store.chunks.isEmpty := by
    constructor
    · rw [h.numStates]
      exact Nat.two_pow_pos n
    · have hpos := h.layout.chunkCount_pos
      rw [← h.chunks] at hpos
      cases hchunks : b.store.chunks with
      | nil =>
          rw [hchunks] at hpos
          exact absurd hpos (Nat.lt_irrefl 0)
      | cons _ _ => rfl
  rw [ensureInitialized, Call.bind_ok (Call.get_apply b), ensureBackendInitialized,
    if_pos (decide_eq_true hinit), Call.pure_apply]

theorem post_chunkData_sees (h : ReadsAs T n x b) {k : Nat} (hk : k < b.layout.chunkCount)
    (scratch : List R) :
    Call.Post (chunkData k scratch) b
      (fun data b' => data.1 = chunkOf P.chunkStates x k ∧ Sees T n x b b')
      (fun _ b' => Sees T n x b b') := by
  rcases h.retains with ⟨S, hretains⟩
  have hkey : k < b.cache.chunkToSlot.length := hretains.framed.cacheChunks ▸ hk
  have hsized := hretains.content.sized k hkey
  rw [chunkData, Call.post_bind_iff, Call.post_get, findBuffer_eq]
  cases hentry : b.cache.entry k with
  | some cached =>
      rcases cached with ⟨buffer, dirty⟩
      exact ⟨(hretains.content.cached k buffer dirty hentry).1, Sees.refl h⟩
  | none =>
      rcases hretains.content.stored k hkey hentry with ⟨heq, hstored⟩
      rw [← heq] at hstored
      have hcount : (b.store.chunk k).elemCount = (chunkOf P.chunkStates x k).length := by
        have hsize := hsized
        rw [T.sized] at hsize
        exact hsize.2.2.1
      -- the callback that loads a chunk is the same decompression
      have hload := (T.store b.layout.chunkCount).loadChunk scratch hsized hstored
      change Call.Post (ChunkVector.loadChunk k (chunkOf P.chunkStates x k).length) _ _ _ at hload
      rw [ChunkVector.loadChunk, Call.post_bind_iff, Call.post_get] at hload
      simp only [hcount, ne_eq, not_true_eq_false, if_false] at hload
      rw [ChunkVector.onBuffer, Call.post_focus_iff] at hload
      have hsees : forall codec,
          (forall j y, (T.store b.layout.chunkCount).Stored b.store j y ->
            (T.store b.layout.chunkCount).Stored { b.store with codec := codec } j y) ->
          (forall j l, (T.store b.layout.chunkCount).Sized b.store j l ->
            (T.store b.layout.chunkCount).Sized { b.store with codec := codec } j l) ->
          Sees T n x b { b with store := { b.store with codec := codec } } := by
        intro codec hkeep hsizes
        refine ⟨⟨h.length, S, ?_⟩, rfl, rfl, rfl, rfl, rfl, rfl⟩
        exact
          { framed := hretains.framed.recached ⟨rfl, rfl⟩ hretains.framed.roomy
              hretains.framed.chunks
            length := hretains.length
            content := hretains.content.keep hkeep hsizes
            settled := hretains.settled }
      simp only [Option.map_none, hcount]
      rw [Call.post_bind_iff, Call.post_withLocal_iff, Call.post_bind_iff, Call.post_focus_iff]
      refine hload.imp ?_ ?_
      · rintro _ ⟨y, codec⟩ ⟨hy, hkeep, hsizes⟩
        rw [Call.post_bind_iff, Call.post_get, Call.post_pure, Call.post_pure]
        exact ⟨hy, hsees codec hkeep hsizes⟩
      · rintro e ⟨y, codec⟩ ⟨_, hkeep, hsizes⟩
        exact hsees codec hkeep hsizes

theorem ReadsAs.elemCount (h : ReadsAs T n x b) {k : Nat} (hk : k < b.layout.chunkCount) :
    (b.store.chunk k).elemCount = (chunkOf P.chunkStates x k).length := by
  rcases h.retains with ⟨S, hretains⟩
  have hsized := hretains.content.sized k (hretains.framed.cacheChunks ▸ hk)
  rw [T.sized] at hsized
  exact hsized.2.2.1

theorem post_visitChunks_sees {α : Type} (h : ReadsAs T n x b) {done : α -> Bool}
    {visitor : α -> Nat -> List R -> Call (CompressedStateBackend P) α}
    {g : α -> Nat -> List R -> α} {start : α}
    (hvisitor : forall acc k data b', k < b.layout.chunkCount -> b'.layout = b.layout ->
      visitor acc k data b' = (.ok (g acc k data), b')) :
    Call.Post (visitChunks done visitor start) b
      (fun result b' =>
        result = visited done g (chunkOf P.chunkStates x) b.layout.chunkCount start ∧
          Sees T n x b b')
      (fun _ b' => Sees T n x b b') := by
  rw [visitChunks, Call.post_bind_iff, Call.post_get, Call.post_bind_iff, h.framed.chunks]
  refine (Call.post_foldlM_range
    (fun count acc b' => acc.1 = visited done g (chunkOf P.chunkStates x) count start ∧
      Sees T n x b b') ?_ ⟨rfl, Sees.refl h⟩).mono ?_
  · rintro k ⟨acc, scratch⟩ b1 hk ⟨hacc, hsees⟩
    simp only at hacc ⊢
    rw [visited_succ, ← hacc]
    by_cases hdone : done acc
    · rw [if_pos hdone, if_pos hdone]
      exact ⟨rfl, hsees⟩
    · rw [if_neg hdone, if_neg hdone, Call.post_bind_iff]
      refine (post_chunkData_sees hsees.reads (hsees.codecOnly.layout.symm ▸ hk) scratch).imp ?_
        (fun _ _ he => Sees.after hsees.codecOnly he)
      rintro ⟨data, scratch'⟩ b2 ⟨hdata, hsees'⟩
      simp only at hdata
      subst hdata
      have htake : (chunkOf P.chunkStates x k).take (b.store.chunk k).elemCount =
          chunkOf P.chunkStates x k := by
        rw [h.elemCount hk, List.take_length]
      simp only [htake]
      rw [Call.post_bind_iff]
      refine Call.post_of_ok (hvisitor acc k (chunkOf P.chunkStates x k) b2 hk
        (hsees'.codecOnly.layout.trans hsees.codecOnly.layout)) ?_
      exact ⟨rfl, Sees.after hsees.codecOnly hsees'⟩
  · rintro ⟨acc, _⟩ b1 ⟨hacc, hsees⟩
    exact ⟨hacc, hsees⟩

end

/-!
## Answers
-/

/-- An answer is the one for the vector `x`, and nothing but the codec changes. -/
def SeesAnswer {α : Type} (T : Tolerance P) (n : Nat) (x : List R)
    (call : Call (CompressedStateBackend P) α) (b : CompressedStateBackend P)
    (answer : Except ExcKind α) : Prop :=
  Call.Post call b (fun a b' => answer = .ok a ∧ Sees T n x b b') (fun _ b' => Sees T n x b b')

section Answers

variable (h : ReadsAs T n x b)
include h

theorem exportAmplitudes_seesAnswer : SeesAnswer T n x exportAmplitudes b (.ok x) := by
  rw [SeesAnswer, exportAmplitudes, Call.post_bind_iff]
  refine Call.post_of_ok (h.framed.ensureInitialized_eq _) ?_
  have hn := h.framed.qubits
  rw [Call.post_bind_iff, Call.post_get, h.framed.numQubits,
    checkedAmplitudeElementCount_eq (by omega), pure_bind, Call.post_bind_iff]
  refine (post_visitChunks_sees h (fun _ _ _ _ _ _ => rfl)).imp ?_ (fun _ _ he => he)
  rintro result b1 ⟨hresult, hsees⟩
  refine ⟨?_, hsees⟩
  have hexport := seenExport_chunkOf h.framed.layout h.length
  rw [seenExport, ← hresult] at hexport
  rw [hexport]

omit [Field R] in
theorem forEachAmplitudeChunk_sees_chunks :
    Call.Post forEachAmplitudeChunk b
      (fun chunks b' => IsChunking 0 chunks x ∧ Sees T n x b b') (fun _ b' => Sees T n x b b') := by
  rw [forEachAmplitudeChunk, Call.post_bind_iff]
  refine Call.post_of_ok (h.framed.ensureInitialized_eq _) ?_
  rw [Call.post_bind_iff, Call.post_get]
  refine (post_visitChunks_sees h
    (g := fun visits k data => visits ++ [(k * P.chunkStates, data)]) ?_).mono ?_
  · intro acc k data b' hk _
    rw [h.framed.layout.chunkStateBegin_eq hk]
    rfl
  · rintro result b1 ⟨rfl, hsees⟩
    exact ⟨isChunking_seenChunks_all h.framed.layout h.length, hsees⟩

theorem totalProbability_seesAnswer :
    SeesAnswer T n x totalProbability b (.ok (StateVector.totalProbability x)) := by
  rw [SeesAnswer, totalProbability, Call.post_bind_iff]
  refine Call.post_of_ok (h.framed.ensureInitialized_eq _) ?_
  refine (post_visitChunks_sees h (fun _ _ _ _ _ _ => rfl)).imp ?_ (fun _ _ he => he)
  rintro result b1 ⟨hresult, hsees⟩
  have htotal := seenTotal_chunkOf h.framed.layout h.length
  rw [seenTotal, ← hresult] at htotal
  exact ⟨congrArg Except.ok htotal.symm, hsees⟩

variable [LinearOrder R] [CMath R]

theorem sampleMeasurement_seesAnswer (rnd : R) :
    SeesAnswer T n x (sampleMeasurement rnd) b (StateVector.sample rnd x) := by
  rw [SeesAnswer, sampleMeasurement, Call.post_bind_iff]
  refine Call.post_of_ok (h.framed.ensureInitialized_eq _) ?_
  by_cases hrange : rnd < 0 ∨ rnd ≥ 1
  · rw [if_pos hrange]
    exact Sees.refl h
  · rw [if_neg hrange, ← seenSample_chunkOf h.framed.layout h.length, seenSample, if_neg hrange]
    change Call.Post (visitChunks _ _ _ >>= _) _ _ _
    rw [Call.post_bind_iff]
    refine (post_visitChunks_sees h (fun _ _ _ _ _ _ => rfl)).imp ?_ (fun _ _ he => he)
    rintro result b1 ⟨hresult, hsees⟩
    have hsearch : result =
        seenSearch rnd (chunkOf P.chunkStates x) b.layout.chunkCount := hresult
    rw [← hsearch]
    cases result.1 with
    | some state => exact ⟨rfl, hsees⟩
    | none => exact hsees

theorem printNonZeroStates_seesAnswer (epsilon : R) :
    SeesAnswer T n x (printNonZeroStates epsilon) b (StateVector.print epsilon x) := by
  rw [SeesAnswer, printNonZeroStates, Call.post_bind_iff]
  refine Call.post_of_ok (h.framed.ensureInitialized_eq _) ?_
  by_cases hneg : epsilon < 0
  · rw [if_pos hneg]
    exact Sees.refl h
  · rw [if_neg hneg, ← seenPrint_chunkOf h.framed.layout h.length, seenPrint, if_neg hneg]
    change Call.Post (visitChunks _ _ _ >>= _) _ _ _
    rw [Call.post_bind_iff]
    refine (post_visitChunks_sees h (fun _ _ _ _ _ _ => rfl)).imp ?_ (fun _ _ he => he)
    rintro result b1 ⟨hresult, hsees⟩
    have hlines : result = seenLines epsilon (chunkOf P.chunkStates x) b.layout.chunkCount :=
      hresult
    rw [← hlines]
    exact ⟨rfl, hsees⟩

end Answers

/-!
## Single amplitudes
-/

section Amplitudes

/-- The backend follows `v`, and `Q` holds of a vector it reads as. -/
def Observes (D : Drift T n) (v : List R) (b b' : CompressedStateBackend P)
    (Q : List R -> Prop) : Prop :=
  b'.cache.Coherent none ∧ b'.batchDepth = b.batchDepth ∧
    exists x, ReadsAs T n x b' ∧ D.Within b'.cache.touchCounter x v ∧ Q x

omit [Field R] in
theorem Observes.mono {Q Q' : List R -> Prop} (h : Observes D v b b' Q)
    (hq : forall x, Q x -> Q' x) : Observes D v b b' Q' := by
  rcases h with ⟨hc, hdepth, x, hx, hwithin, hQ⟩
  exact ⟨hc, hdepth, x, hx, hwithin, hq x hQ⟩

theorem post_findAmplitude_observes (h : Carries D v b) {s : Nat} (hs : s < 2 ^ n) :
    Call.Post (findAmplitude s) b
      (fun a b' => Observes D v b b' fun x => a = ampAt x s)
      (fun _ b' => Leaves D v b.batchDepth b') := by
  have hk := h.shaped.layout.div_lt_chunkCount hs
  rw [findAmplitude, Call.post_bind_iff, Call.post_get]
  simp only [h.shaped.layout.stateRef_eq, findBuffer_eq]
  cases hentry : b.cache.entry (s / P.chunkStates) with
  | some cached =>
      rcases cached with ⟨buffer, dirty⟩
      rcases h with ⟨hc, x, hx, hwithin⟩
      rcases hx.retains with ⟨S, hretains⟩
      have hbuffer := (hretains.content.cached _ buffer dirty hentry).1
      simp only [Option.map_some]
      rw [Call.post_pure]
      refine ⟨hc, rfl, x, hx, hwithin, ?_⟩
      rw [hbuffer, readAmp_chunkOf P.chunkStates_pos]
  | none =>
      simp only [Option.map_none]
      rw [Call.post_bind_iff]
      refine (post_acquireChunk_obtains h hk).mono ?_
      intro handle b1 hobtains
      have hh := hobtains.liveHandle
      rcases hobtains.carries with ⟨hc, x, hx, hwithin⟩
      rcases hx.retains with ⟨S, hretains⟩
      rw [Call.post_bind_iff, Call.post_get, Call.post_pure]
      refine ⟨hc, hobtains.frame.batchDepth, x, hx, hwithin, ?_⟩
      have hbuffer : b1.slotData handle = chunkOf P.chunkStates x (s / P.chunkStates) := by
        rw [← hh.chunkIndex]
        exact hretains.content.buffer hh.live
      rw [hbuffer, readAmp_chunkOf P.chunkStates_pos]

theorem post_amplitude_observes (h : Carries D v b) {s : Nat} (hs : s < 2 ^ n) :
    Call.Post (amplitude s) b (fun a b' => Observes D v b b' fun x => a = ampAt x s)
      (fun _ b' => Leaves D v b.batchDepth b') := by
  rw [amplitude, Call.post_bind_iff]
  refine Call.post_of_ok (CompressedStateBackend.ensureInitialized_eq h.shaped _) ?_
  rw [Call.post_bind_iff, Call.post_get, validateStateIndex_eq h.shaped hs, pure_bind]
  exact post_findAmplitude_observes h hs

theorem post_probability_observes (h : Carries D v b) {s : Nat} (hs : s < 2 ^ n) :
    Call.Post (probability s) b
      (fun p b' => Observes D v b b' fun x => p = (ampAt x s).probability)
      (fun _ b' => Leaves D v b.batchDepth b') := by
  rw [probability, Call.post_bind_iff]
  refine (post_amplitude_observes h hs).mono ?_
  intro a b1 hobserves
  rw [Call.post_pure]
  refine hobserves.mono ?_
  rintro x rfl
  rfl

end Amplitudes

/-!
## Every query
-/

section Queries

variable [LinearOrder R] [CMath R]

def answerOf (n depth : Nat) (x : List R) (op : BackendOp R) : Except ExcKind (Answer R) :=
  LogicalState.answer { numQubits := n, amplitudes := x, depth := depth } op

omit [Field R] [LinearOrder R] [CMath R] in
theorem SeesAnswer.observes {α : Type} {wrap : α -> Answer R}
    {call : Call (CompressedStateBackend P) α} {answer : Except ExcKind α}
    (hsees : SeesAnswer T n x call b answer) (hc : b.cache.Coherent none)
    (hwithin : D.Within b.cache.touchCounter x v) {Q : Answer R -> List R -> Prop}
    (hQ : forall a, answer = .ok a -> Q (wrap a) x) :
    Call.Post (BackendOp.query wrap call) b (fun a b' => Observes D v b b' (Q a))
      (fun _ b' => Leaves D v b.batchDepth b') := by
  rw [BackendOp.query, Call.post_bind_iff]
  refine Call.Post.imp hsees ?_ (fun _ b' hs => hs.leaves hc hwithin)
  rintro a b1 ⟨hanswer, hs⟩
  rw [Call.post_pure]
  refine ⟨(hs.carries hc hwithin).1, hs.codecOnly.batchDepth, x, hs.reads, ?_, hQ a hanswer⟩
  rw [hs.codecOnly.cache]
  exact hwithin

omit [Field R] [LinearOrder R] [CMath R] in
theorem post_query_observes {α : Type} {wrap : α -> Answer R}
    {call : Call (CompressedStateBackend P) α} {q : List R -> α}
    (h : Call.Post call b (fun a b' => Observes D v b b' fun x => a = q x)
      (fun _ b' => Leaves D v b.batchDepth b')) {Q : Answer R -> List R -> Prop}
    (hQ : forall x, Q (wrap (q x)) x) :
    Call.Post (BackendOp.query wrap call) b (fun a b' => Observes D v b b' (Q a))
      (fun _ b' => Leaves D v b.batchDepth b') := by
  rw [BackendOp.query, Call.post_bind_iff]
  refine h.mono ?_
  intro a b1 hobserves
  rw [Call.post_pure]
  refine hobserves.mono ?_
  rintro x rfl
  exact hQ x

end Queries

end CompressedStateBackend

end Tmfqs
