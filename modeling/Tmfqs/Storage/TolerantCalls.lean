import Tmfqs.Storage.TolerantMutations

/-!
# Calls that may change or fail

What each call of a backend does to the vector it follows: a call that returns takes all of
its steps, and one that throws leaves every amplitude as it was or as the whole call would
have left it.
-/

namespace Tmfqs

open Library ChunkCache

/-- Every amplitude of `w` is the one of `v` or the one of `v'`. -/
def Mixes {R : Type} [Field R] (n : Nat) (v v' w : List R) : Prop :=
  w.length = 2 * 2 ^ n ∧ OldOrNew (fun u (s : Fin (2 ^ n)) => ampAt u s) v v' w

/-!
## Footprints
-/

section Footprints

variable {R : Type} [Field R] {n : Nat} {v : List R}

theorem mixes_old (hv : v.length = 2 * 2 ^ n) (v' : List R) : Mixes n v v' v :=
  ⟨hv, oldOrNew_old v v'⟩

theorem mixes_new (v : List R) {v' : List R} (hv' : v'.length = 2 * 2 ^ n) : Mixes n v v' v' :=
  ⟨hv', oldOrNew_new v v'⟩

theorem Mixes.eq_of_same {w : List R} (h : Mixes n v v w)
    (hv : v.length = 2 * 2 ^ n) : w = v := by
  apply eq_of_ampAt h.1 hv
  intro s hs
  rcases h.2 ⟨s, hs⟩ with hold | hold
  · exact hold
  · exact hold

theorem mixes_single {ι : Type} {step : List R -> ι -> List R} {i : ι}
    (hv : v.length = 2 * 2 ^ n) (hstep : (step v i).length = 2 * 2 ^ n) {done todo : List ι}
    (hsteps : [i] = done ++ todo) : Mixes n v (step v i) (done.foldl step v) := by
  cases done with
  | nil => exact mixes_old hv _
  | cons j rest =>
      rw [List.cons_append, List.cons.injEq] at hsteps
      rcases hsteps with ⟨rfl, hnil⟩
      rw [(List.append_eq_nil_iff.mp hnil.symm).1]
      exact mixes_new v hstep

theorem mixes_pairSteps (kernel : PairKernel R) {bit : Nat} (hv : v.length = 2 * 2 ^ n)
    {done todo : List (Nat × Nat)} (hsteps : PairKernelExecutor.pairList n bit = done ++ todo) :
    Mixes n v (StateVector.pairKernel kernel n bit v)
      (done.foldl (StateVector.pairStep kernel) v) := by
  have hkeep : forall (p : Nat × Nat) (w : List R), w.length = 2 * 2 ^ n ->
      (StateVector.pairStep kernel w p).length = 2 * 2 ^ n := by
    intro p w hw
    rw [StateVector.length_pairStep, hw]
  have hdisjoint := @StateVector.pairwise_pairList n bit
  rw [hsteps, List.pairwise_append] at hdisjoint
  refine ⟨foldl_invariant hkeep done hv, ?_⟩
  rw [StateVector.pairKernel, hsteps]
  refine oldOrNew_foldl (fun p (k : Fin (2 ^ n)) => k.val = p.1 ∨ k.val = p.2) hkeep ?_ ?_ hv
  · intro p w k hw hne
    rw [not_or] at hne
    rw [StateVector.pairStep]
    exact (readAmp_writeAmp_of_disjoint _ (by omega)).trans
      (readAmp_writeAmp_of_disjoint _ (by omega))
  · intro p hp q hq k hkp hkq
    have hpq := hdisjoint.2.2 p hp q hq
    rcases hkp with hk | hk
    · rcases hkq with hk' | hk'
      · exact hpq.1 (hk.symm.trans hk')
      · exact hpq.2.1 (hk.symm.trans hk')
    · rcases hkq with hk' | hk'
      · exact hpq.2.2.1 (hk.symm.trans hk')
      · exact hpq.2.2.2 (hk.symm.trans hk')

theorem mixes_mapChunks {layout : ChunkLayout} {k : Nat} (h : layout.Exact (2 ^ n) k)
    (f : Amplitude R -> Amplitude R) (hv : v.length = 2 * 2 ^ n) {done todo : List Nat}
    (hsteps : List.range layout.chunkCount = done ++ todo) :
    Mixes n v (mapAmplitudes f v) (done.foldl (mapChunk k f) v) := by
  have hkeep : forall (c : Nat) (w : List R), w.length = 2 * 2 ^ n ->
      (mapChunk k f w c).length = 2 * 2 ^ n := by
    intro c w hw
    rw [length_mapChunk, hw]
  have hnodup := List.nodup_range (n := layout.chunkCount)
  rw [hsteps] at hnodup
  refine ⟨foldl_invariant hkeep done hv, ?_⟩
  rw [← foldl_mapChunk h hv f, hsteps]
  refine oldOrNew_foldl (fun c (s : Fin (2 ^ n)) => s.val / k = c) hkeep ?_ ?_ hv
  · intro c w s hw hne
    have hs := s.isLt
    rw [ampAt_mapChunk (by omega), if_neg hne]
  · intro c hc d hd s hsc hsd
    exact (List.nodup_append.mp hnodup).2.2 c hc d hd (hsc.symm.trans hsd)

end Footprints

namespace CompressedStateBackend

variable {R B : Type} [Field R] {P : CodecPolicy R B} {T : Tolerance P} {n : Nat}
  {D : Drift T n} {v v' x : List R} {b b' : CompressedStateBackend P}

/-!
## All or part of a call
-/

/-- The call takes the vector to `v'`, or throws with some amplitudes still those of `v`. -/
def Interrupts {α : Type} (D : Drift T n) (v v' : List R)
    (call : Call (CompressedStateBackend P) α) (b : CompressedStateBackend P) : Prop :=
  Call.Post call b (fun _ b' => Carries D v' b' ∧ SameFrame b b')
    (fun _ b' => exists w, Mixes n v v' w ∧ Leaves D w b.batchDepth b')

theorem Performs.interrupts {ι α : Type} {step : List R -> ι -> List R} {steps : List ι}
    {call : Call (CompressedStateBackend P) α} (h : Performs D step steps v call b)
    (hsteps : steps.foldl step v = v')
    (hmixes : forall done todo, steps = done ++ todo -> Mixes n v v' (done.foldl step v)) :
    Interrupts D v v' call b := by
  refine Call.Post.imp h ?_ ?_
  · intro _ b' ht
    rw [← hsteps]
    exact ht
  · rintro _ b' ⟨done, todo, heq, hl⟩
    exact ⟨_, hmixes done todo heq, hl⟩

theorem interrupts_mutate (h : Carries D v b) (hv' : v'.length = 2 * 2 ^ n) (operation : String)
    {mutateFn : Call (CompressedStateBackend P) Unit} (hfn : Interrupts D v v' mutateFn b) :
    Interrupts D v v' (mutate operation mutateFn) b := by
  rw [Interrupts, mutate, Call.post_bind_iff]
  refine Call.post_of_ok (ensureInitialized_eq h.shaped operation) ?_
  rw [Call.post_bind_iff]
  refine Call.Post.mono hfn ?_
  rintro _ b1 ⟨h1, hframe⟩
  refine (post_flushCacheIfNeeded_carries h1).imp ?_ ?_
  · rintro _ b2 ⟨h2, hframe'⟩
    exact ⟨h2, hframe.trans hframe'⟩
  · intro _ b2 hl
    exact ⟨v', mixes_new v hv', hframe.leaves hl⟩

/-!
## Without drift

The calls below read amplitudes at one time and use them at another, so what they compute is
a function of the vector only if the vector does not drift.
-/

def Drift.Exact (D : Drift T n) : Prop :=
  forall j x v, D.Within j x v <-> x = v ∧ v.length = 2 * 2 ^ n

section Exact

variable (hexact : D.Exact)
include hexact

omit [Field R] in
theorem Drift.Exact.respects {f : List R -> List R}
    (hf : forall w : List R, w.length = 2 * 2 ^ n -> (f w).length = 2 * 2 ^ n) :
    D.Respects f := by
  intro j x v _ hwithin
  rcases (hexact j x v).mp hwithin with ⟨rfl, hv⟩
  exact (hexact j _ _).mpr ⟨rfl, hf x hv⟩

omit [Field R] in
theorem Carries.readsAs (h : Carries D v b) : ReadsAs T n v b := by
  rcases h with ⟨_, x, hx, hwithin⟩
  rw [← ((hexact _ x v).mp hwithin).1]
  exact hx

theorem performs_inversionAboutMean (h : Carries D v b) :
    Performs D (mapChunk P.chunkStates (StateVector.reflectAmp (StateVector.mean n v)))
      (List.range b.layout.chunkCount) v inversionAboutMean b := by
  have hv := (h.readsAs hexact).length
  have heven : v.length % 2 = 0 := by omega
  refine performs_mutate h _ ?_
  rw [Performs, Call.post_bind_iff, Call.post_get, Call.post_bind_iff, h.shaped.chunks]
  refine (Call.post_foldlM_range
    (fun done sum b' => Carries D v b' ∧ SameFrame b b' ∧
      sum = StateVector.amplitudeSum (v.take (done * (2 * P.chunkStates))))
    ?_ ⟨h, SameFrame.refl b, ?_⟩).mono ?_
  · rintro k sum b1 hk ⟨h1, hframe1, hsum⟩
    have hk1 : k < b1.layout.chunkCount := by
      rw [hframe1.layout]
      exact hk
    rw [Call.post_bind_iff]
    refine (post_acquireChunk_obtains h1 hk1).imp ?_ ?_
    · intro handle b2 hobtains
      have hk2 : k < b2.layout.chunkCount := by
        rw [hobtains.frame.layout]
        exact hk1
      have hreads := hobtains.carries.readsAs hexact
      rw [Call.post_bind_iff, Call.post_get, Call.post_pure]
      refine ⟨hobtains.carries, hframe1.trans hobtains.frame, ?_⟩
      rw [hobtains.liveHandle.reads hreads, hreads.elemCount hk2, List.take_length, hsum,
        StateVector.amplitudeSum, StateVector.amplitudeSum, amplitudesOf_take_succ heven,
        List.foldl_append]
    · intro _ b2 hl
      exact ⟨[], _, rfl, hframe1.leaves hl⟩
  · rw [Nat.zero_mul, List.take_zero]
    rfl
  · rintro sum b1 ⟨h1, hframe1, hsum⟩
    rw [take_all_chunks h.shaped.layout hv] at hsum
    have hmean : ({ real := sum.real / (b.numStates : R)
                    imag := sum.imag / (b.numStates : R) } : Amplitude R) =
        StateVector.mean n v := by
      rw [hsum, h.shaped.numStates]
      rfl
    rw [hmean, ← hframe1.layout]
    have hrun := performs_mapChunks h1 (StateVector.reflectAmp (StateVector.mean n v))
      (fun k => hexact.respects fun w hw => by rw [length_mapChunk, hw])
    refine Call.Post.imp hrun ?_ ?_
    · rintro _ b2 ⟨h2, hframe2⟩
      exact ⟨h2, hframe1.trans hframe2⟩
    · rintro _ b2 ⟨done, todo, heq, hl⟩
      exact ⟨done, todo, heq, hframe1.leaves hl⟩

/-!
### Blocks
-/

theorem post_readAmplitudeMutable_carries (h : Carries D v b) {s : Nat} (hs : s < 2 ^ n) :
    Call.Post (readAmplitudeMutable s) b
      (fun a b' => a = ampAt v s ∧ Carries D v b' ∧ SameFrame b b')
      (fun _ b' => Leaves D v b.batchDepth b') := by
  rw [readAmplitudeMutable, Call.post_bind_iff]
  refine (post_acquireAmplitudeRef_obtains h hs).mono ?_
  rintro ref b1 ⟨hobtains, hoffset⟩
  rw [Call.post_bind_iff, Call.post_get, Call.post_pure]
  refine ⟨?_, hobtains.carries, hobtains.frame⟩
  rw [hobtains.liveHandle.reads (hobtains.carries.readsAs hexact), hoffset,
    readAmp_chunkOf P.chunkStates_pos]

theorem post_mapM_readAmplitudeMutable {indices : List Nat}
    (hlt : forall s, s ∈ indices -> s < 2 ^ n) :
    forall {b : CompressedStateBackend P}, Carries D v b ->
      Call.Post (indices.mapM readAmplitudeMutable) b
        (fun amps b' => amps = indices.map (ampAt v) ∧ Carries D v b' ∧ SameFrame b b')
        (fun _ b' => Leaves D v b.batchDepth b') := by
  induction indices with
  | nil =>
      intro b h
      exact ⟨rfl, h, SameFrame.refl b⟩
  | cons s rest ih =>
      intro b h
      rw [List.mapM_cons, Call.post_bind_iff]
      refine (post_readAmplitudeMutable_carries hexact h (hlt s List.mem_cons_self)).mono ?_
      rintro a b1 ⟨rfl, h1, hframe1⟩
      rw [Call.post_bind_iff]
      refine (ih (fun t ht => hlt t (List.mem_cons_of_mem s ht)) h1).imp ?_
        (fun _ _ hl => hframe1.leaves hl)
      rintro amps b2 ⟨rfl, h2, hframe2⟩
      rw [Call.post_pure]
      exact ⟨rfl, h2, hframe1.trans hframe2⟩

variable [LinearOrder R]

def blockStep (gate : QuantumGate R) (qubits : List Nat) (n : Nat) (v : List R) (block : Nat) :
    List R :=
  (applyBlock gate (blockIndices qubits n block) loadState storeState v).2

omit [Field R] [LinearOrder R] hexact in
theorem storeStates_apply (value : Nat -> Amplitude R) (indices rows : List Nat) (v : List R) :
    (rows.forM fun row => storeState (indices.getD row 0) (value row)) v =
      (.ok ⟨⟩, rows.foldl (fun v row => setAmp v (indices.getD row 0) (value row)) v) := by
  induction rows generalizing v with
  | nil => rfl
  | cons row rest ih => exact ih (setAmp v (indices.getD row 0) (value row))

omit [Field R] [LinearOrder R] hexact in
theorem blockIndices_lt {gate : QuantumGate R} {qubits : List Nat}
    (hvalid : ValidTargets qubits n gate.dimension) (block : Nat) {s : Nat}
    (hs : s ∈ blockIndices qubits n block) : s < 2 ^ n := by
  rw [blockIndices, List.mem_map] at hs
  rcases hs with ⟨row, _, rfl⟩
  exact blockState_lt hvalid block row

omit hexact in
theorem blockDone_blockStep {gate : QuantumGate R} {qubits : List Nat}
    (hvalid : ValidTargets qubits n gate.dimension) (hv : v.length = 2 * 2 ^ n) {block : Nat}
    (hblock : block < 2 ^ (n - qubits.length)) :
    BlockDone gate (blockIndices qubits n block) v (blockStep gate qubits n v block) := by
  have hdone := post_applyBlock gate (v := v) (blockIndices_nodup hvalid hblock) (by
    intro s hs
    have hlt := blockIndices_lt hvalid block hs
    omega)
  obtain ⟨_, w, hrun, hw⟩ := hdone.exists_ok
  rw [blockStep, hrun]
  exact hw

theorem interrupts_applyBlock (h : Carries D v b) {gate : QuantumGate R} {qubits : List Nat}
    (hvalid : ValidTargets qubits n gate.dimension) {block : Nat}
    (hblock : block < 2 ^ (n - qubits.length)) :
    Interrupts D v (blockStep gate qubits n v block)
      (applyBlock gate (blockIndices qubits n block) readAmplitudeMutable
        writeAmplitudeMutable) b := by
  have hv := (h.readsAs hexact).length
  have hlt : forall s, s ∈ blockIndices qubits n block -> s < 2 ^ n :=
    fun s hs => blockIndices_lt hvalid block hs
  have hnodup := blockIndices_nodup hvalid hblock
  obtain ⟨indices, hindices⟩ : exists indices, indices = blockIndices qubits n block := ⟨_, rfl⟩
  have hstep : blockStep gate qubits n v block =
      if allZero (indices.map (ampAt v)) = true then v
      else (List.range indices.length).foldl (fun w row => setAmp w (indices.getD row 0)
        (rowProduct gate indices.length row (indices.map (ampAt v)))) v := by
    rw [blockStep, applyBlock, ← hindices, Call.bind_ok (mapM_loadState v indices)]
    by_cases hzero : allZero (indices.map (ampAt v)) = true
    · rw [if_pos hzero, if_pos hzero]
      rfl
    · rw [if_neg hzero, if_neg hzero, storeStates_apply]
  rw [hstep, Interrupts, applyBlock, ← hindices, Call.post_bind_iff]
  rw [← hindices] at hlt hnodup
  refine (post_mapM_readAmplitudeMutable hexact hlt h).imp ?_ ?_
  · rintro amps b1 ⟨rfl, h1, hframe1⟩
    by_cases hzero : allZero (indices.map (ampAt v)) = true
    · rw [if_pos hzero, if_pos hzero]
      exact ⟨h1, hframe1⟩
    · rw [if_neg hzero, if_neg hzero]
      have hloop := Call.post_forM_advances (l := List.range indices.length) (s := b1)
        (f := fun row => (writeAmplitudeMutable (indices.getD row 0)
          (rowProduct gate indices.length row (indices.map (ampAt v))) :
            Call (CompressedStateBackend P) PUnit))
        (fun w b' => Carries D w b' ∧ SameFrame b b')
        (fun w b' => Leaves D w b.batchDepth b')
        (by
          rintro row hrow w b2 ⟨h2, hframe2⟩
          have hrow' := List.mem_range.mp hrow
          have hs : indices.getD row 0 < 2 ^ n := by
            apply hlt
            rw [List.getD_eq_getElem?_getD, List.getElem?_eq_getElem hrow']
            exact List.getElem_mem hrow'
          refine (post_writeAmplitudeMutable_carries h2 hs _ (hexact.respects ?_)).imp ?_ ?_
          · intro u hu
            rw [length_setAmp, hu]
          · rintro _ b3 ⟨h3, hframe3⟩
            exact ⟨h3, hframe2.trans hframe3⟩
          · intro _ b3 hl
            exact hframe2.leaves hl)
        ⟨h1, hframe1⟩
      refine hloop.imp (fun _ _ ht => ht) ?_
      rintro _ b2 ⟨done, todo, hrows, hl⟩
      refine ⟨_, ?_, hl⟩
      -- the rows of a block are distinct states
      rw [hrows]
      have hkeep : forall (row : Nat) (w : List R), w.length = 2 * 2 ^ n ->
          (setAmp w (indices.getD row 0)
            (rowProduct gate indices.length row (indices.map (ampAt v)))).length =
            2 * 2 ^ n := by
        intro row w hw
        rw [length_setAmp, hw]
      have hrange := List.nodup_range (n := indices.length)
      have hmem : forall row, row ∈ done ++ todo -> row < indices.length :=
        fun row hrow => List.mem_range.mp (hrows ▸ hrow)
      rw [hrows, List.nodup_append] at hrange
      refine ⟨foldl_invariant hkeep done hv, ?_⟩
      refine oldOrNew_foldl (fun row (s : Fin (2 ^ n)) => s.val = indices.getD row 0)
        hkeep ?_ ?_ hv
      · intro row w s hw hne
        exact readAmp_writeAmp_of_disjoint _ (by omega)
      · intro row hrow row' hrow' s hs hs'
        have hi := hmem row (List.mem_append_left todo hrow)
        have hi' := hmem row' (List.mem_append_right done hrow')
        rw [hs, List.getD_eq_getElem?_getD, List.getD_eq_getElem?_getD,
          List.getElem?_eq_getElem hi, List.getElem?_eq_getElem hi'] at hs'
        exact hrange.2.2 row hrow row' hrow' ((List.Nodup.getElem_inj_iff hnodup).mp hs')
  · intro _ b1 hl
    refine ⟨v, mixes_old hv _, hl⟩

omit hexact in
theorem foldl_blockStep {gate : QuantumGate R} {qubits : List Nat} (hn : n ≤ 31)
    (hvalid : ValidTargets qubits n gate.dimension) (hv : v.length = 2 * 2 ^ n) :
    (List.range (2 ^ (n - qubits.length))).foldl (blockStep gate qubits n) v =
      StateVector.blockGate gate qubits n v := by
  have hloop : forall (blocks : List Nat) (w : List R), w.length = 2 * 2 ^ n ->
      (forall block, block ∈ blocks -> block < 2 ^ (n - qubits.length)) ->
      (blocks.forM fun block => applyBlock gate (blockIndices qubits n block) loadState
        storeState) w = (.ok ⟨⟩, blocks.foldl (blockStep gate qubits n) w) := by
    intro blocks
    induction blocks with
    | nil =>
        intro w _ _
        rfl
    | cons block rest ih =>
        intro w hw hlt
        have hdone := post_applyBlock gate (v := w)
          (blockIndices_nodup hvalid (hlt block List.mem_cons_self)) (by
            intro s hs
            have hlt := blockIndices_lt hvalid block hs
            omega)
        obtain ⟨_, u, hrun, hu⟩ := hdone.exists_ok
        have hstep : blockStep gate qubits n w block = u := by
          rw [blockStep, hrun]
        change (applyBlock gate (blockIndices qubits n block) loadState storeState >>= fun _ =>
          rest.forM _) w = _
        rw [Call.bind_ok hrun, List.foldl_cons, hstep]
        exact ih u (hu.length.trans hw) fun c hc => hlt c (List.mem_cons_of_mem block hc)
  rw [StateVector.blockGate, gateApplyEngine_eq "" gate hn hvalid,
    hloop _ v hv fun block hblock => List.mem_range.mp hblock]

omit hexact in
theorem mixes_blockSteps {gate : QuantumGate R} {qubits : List Nat}
    (hvalid : ValidTargets qubits n gate.dimension) (hv : v.length = 2 * 2 ^ n)
    (done todo : List Nat)
    (hblocks : List.range (2 ^ (n - qubits.length)) = done ++ todo) :
    Mixes n v ((done ++ todo).foldl (blockStep gate qubits n) v)
      (done.foldl (blockStep gate qubits n) v) := by
  have hrange := List.nodup_range (n := 2 ^ (n - qubits.length))
  have hmem : forall block, block ∈ done ++ todo -> block < 2 ^ (n - qubits.length) :=
    fun block hblock => List.mem_range.mp (hblocks ▸ hblock)
  rw [hblocks, List.nodup_append] at hrange
  -- outside the range of blocks a step is taken to do nothing
  obtain ⟨step, hstepDef⟩ : exists step : List R -> Nat -> List R, step = fun w block =>
      if block < 2 ^ (n - qubits.length) then blockStep gate qubits n w block else w := ⟨_, rfl⟩
  have hsame : forall (blocks : List Nat) (w : List R),
      (forall block, block ∈ blocks -> block < 2 ^ (n - qubits.length)) ->
      blocks.foldl (blockStep gate qubits n) w = blocks.foldl step w := by
    intro blocks
    induction blocks with
    | nil =>
        intro w _
        rfl
    | cons block rest ih =>
        intro w hlt
        rw [List.foldl_cons, List.foldl_cons,
          ih _ fun c hc => hlt c (List.mem_cons_of_mem block hc)]
        congr 1
        rw [hstepDef]
        simp only [if_pos (hlt block List.mem_cons_self)]
  have hkeep : forall (block : Nat) (w : List R), w.length = 2 * 2 ^ n ->
      (step w block).length = 2 * 2 ^ n := by
    intro block w hw
    rw [hstepDef]
    by_cases hblock : block < 2 ^ (n - qubits.length)
    · simp only [if_pos hblock]
      exact (blockDone_blockStep hvalid hw hblock).length.trans hw
    · simp only [if_neg hblock]
      exact hw
  rw [hsame _ v hmem,
    hsame done v fun block hblock => hmem block (List.mem_append_left todo hblock)]
  refine ⟨foldl_invariant hkeep done hv, ?_⟩
  refine oldOrNew_foldl
    (fun block (s : Fin (2 ^ n)) => block < 2 ^ (n - qubits.length) ∧
      s.val ∈ blockIndices qubits n block) hkeep ?_ ?_ hv
  · intro block w s hw hne
    rw [hstepDef]
    by_cases hblock : block < 2 ^ (n - qubits.length)
    · simp only [if_pos hblock]
      exact (blockDone_blockStep hvalid hw hblock).frame s fun hs => hne ⟨hblock, hs⟩
    · simp only [if_neg hblock]
  · rintro block hblock block' hblock' s ⟨hlt, hs⟩ ⟨hlt', hs'⟩
    rw [blockIndices, List.mem_map] at hs
    rcases hs with ⟨row, hrow, heq⟩
    rw [← heq] at hs'
    exact blockState_not_mem hvalid hlt hlt' (List.mem_range.mp hrow)
      (hrange.2.2 block hblock block' hblock') hs'

theorem interrupts_blocks (h : Carries D v b) {gate : QuantumGate R} {qubits : List Nat}
    (hvalid : ValidTargets qubits n gate.dimension) (operation scopeName : String) :
    Interrupts D v (StateVector.blockGate gate qubits n v)
      (mutate operation do
        let b <- get
        GateApplyEngine.apply scopeName gate qubits b.numQubits
          readAmplitudeMutable writeAmplitudeMutable) b := by
  have hn := h.shaped.qubits
  have hv := (h.readsAs hexact).length
  refine interrupts_mutate h (StateVector.length_blockGate hn hvalid hv) operation ?_
  rw [Interrupts, Call.post_bind_iff, Call.post_get, h.shaped.numQubits,
    gateApplyEngine_eq _ gate hn hvalid, ← foldl_blockStep hn hvalid hv]
  refine Call.post_forM (fun done _ b' =>
    Carries D (done.foldl (blockStep gate qubits n) v) b' ∧ SameFrame b b') ?_
    ⟨h, SameFrame.refl b⟩
  rintro done block todo b1 hblocks ⟨h1, hframe1⟩
  have hblock : block < 2 ^ (n - qubits.length) := by
    rw [← List.mem_range, hblocks]
    exact List.mem_append_right done List.mem_cons_self
  refine Call.Post.imp (interrupts_applyBlock hexact h1 hvalid hblock) ?_ ?_
  · rintro _ b2 ⟨h2, hframe2⟩
    rw [List.foldl_append]
    exact ⟨h2, hframe1.trans hframe2⟩
  · rintro _ b2 ⟨w, ⟨hw, hmid⟩, hl⟩
    refine ⟨w, ⟨hw, ?_⟩, hframe1.leaves hl⟩
    -- the block that was interrupted lies between two lists of whole blocks
    have hleft := (mixes_blockSteps hvalid hv done (block :: todo) hblocks).2
    have hright := (mixes_blockSteps hvalid hv (done ++ [block]) todo
      (by rw [hblocks, List.append_assoc]; rfl)).2
    rw [List.append_assoc, @List.foldl_append _ _ _ _ done [block]] at hright
    rw [hblocks]
    exact OldOrNew.between hleft hright hmid

end Exact

/-!
## Every call
-/

section Runs

variable [LinearOrder R] [CMath R]

/-- The rewriting of a chunk does not let the drift grow. -/
def Drift.RespectsMap (D : Drift T n) (f : Amplitude R -> Amplitude R) : Prop :=
  forall k, D.Respects fun v => mapChunk P.chunkStates f v k

def Drift.Follows (D : Drift T n) : BackendOp R -> Prop
  | .setAmplitude s amp => D.Respects fun v => setAmp v s amp
  | .phaseFlipBasisState s => D.Respects fun v => StateVector.phaseFlip v s
  | .inversionAboutMean => D.Exact
  | .inversionAboutMeanWith mean => D.RespectsMap (StateVector.reflectAmp mean)
  | .applyAffineTransform scale bias => D.RespectsMap (StateVector.affineAmp scale bias)
  | .applyHadamard _ => D.RespectsKernel hadamardPair
  | .applyPauliX _ => D.RespectsKernel pauliXPair
  | .applyControlledPhaseShift control _ theta =>
      D.RespectsKernel (controlledPhaseShiftPair (2 ^ (n - control - 1)) theta)
  | .applyControlledNot control _ =>
      D.RespectsKernel (controlledNotPair (2 ^ (n - control - 1)))
  | .applyGate gate qubits =>
      match fastPath gate qubits.length with
      | .hadamard => D.RespectsKernel hadamardPair
      | .pauliX => D.RespectsKernel pauliXPair
      | .controlledNot =>
          D.RespectsKernel (controlledNotPair (2 ^ (n - qubits.getD 0 0 - 1)))
      | .controlledPhaseShift theta =>
          D.RespectsKernel (controlledPhaseShiftPair (2 ^ (n - qubits.getD 0 0 - 1)) theta)
      | .blocks => D.Exact
  | _ => True

section Kernels

variable (h : Carries D v b)
include h

theorem interrupts_applyHadamard {q : Nat} (hq : q < n)
    (hrespects : D.RespectsKernel hadamardPair) :
    Interrupts D v (StateVector.hadamard n q v) (applyHadamard q) b :=
  (performs_applyHadamard h hq hrespects).interrupts rfl fun _ _ =>
    mixes_pairSteps hadamardPair h.length

omit [CMath R] in
theorem interrupts_applyPauliX {q : Nat} (hq : q < n) (hrespects : D.RespectsKernel pauliXPair) :
    Interrupts D v (StateVector.pauliX n q v) (applyPauliX q) b :=
  (performs_applyPauliX h hq hrespects).interrupts rfl fun _ _ =>
    mixes_pairSteps pauliXPair h.length

theorem interrupts_applyControlledPhaseShift {control target : Nat} (hcontrol : control < n)
    (htarget : target < n) (hne : control ≠ target) (theta : R)
    (hrespects : D.RespectsKernel (controlledPhaseShiftPair (2 ^ (n - control - 1)) theta)) :
    Interrupts D v (StateVector.controlledPhaseShift n control target theta v)
      (applyControlledPhaseShift control target theta) b :=
  (performs_applyControlledPhaseShift h hcontrol htarget hne theta hrespects).interrupts rfl
    fun _ _ => mixes_pairSteps _ h.length

omit [CMath R] in
theorem interrupts_applyControlledNot {control target : Nat} (hcontrol : control < n)
    (htarget : target < n) (hne : control ≠ target)
    (hrespects : D.RespectsKernel (controlledNotPair (2 ^ (n - control - 1)))) :
    Interrupts D v (StateVector.controlledNot n control target v)
      (applyControlledNot control target) b :=
  (performs_applyControlledNot h hcontrol htarget hne hrespects).interrupts rfl
    fun _ _ => mixes_pairSteps _ h.length

theorem interrupts_applyGate {gate : QuantumGate R} {qubits : List Nat}
    (hvalid : ValidTargets qubits n gate.dimension)
    (hfollows : D.Follows (.applyGate gate qubits)) :
    Interrupts D v (gateVector gate qubits n v) (applyGate gate qubits) b := by
  unfold Drift.Follows at hfollows
  rw [Interrupts, applyGate, Call.post_bind_iff]
  refine Call.post_of_ok (ensureInitialized_eq h.shaped _) ?_
  unfold gateVector
  cases hpath : fastPath gate qubits.length with
  | hadamard =>
      simp only [hpath] at hfollows
      have hlen := fastPath_one (Or.inl hpath)
      exact interrupts_applyHadamard h (hvalid.getD_lt (by omega)) hfollows
  | pauliX =>
      simp only [hpath] at hfollows
      have hlen := fastPath_one (Or.inr hpath)
      exact interrupts_applyPauliX h (hvalid.getD_lt (by omega)) hfollows
  | controlledNot =>
      simp only [hpath] at hfollows
      have hlen := fastPath_two (Or.inl hpath)
      exact interrupts_applyControlledNot h (hvalid.getD_lt (by omega))
        (hvalid.getD_lt (by omega)) (hvalid.getD_ne hlen) hfollows
  | controlledPhaseShift theta =>
      simp only [hpath] at hfollows
      have hlen := fastPath_two (Or.inr ⟨theta, hpath⟩)
      exact interrupts_applyControlledPhaseShift h (hvalid.getD_lt (by omega))
        (hvalid.getD_lt (by omega)) (hvalid.getD_ne hlen) theta hfollows
  | blocks =>
      simp only [hpath] at hfollows
      exact interrupts_blocks hfollows h hvalid _ _

omit [LinearOrder R] [CMath R] in
theorem interrupts_mapChunks {call : Call (CompressedStateBackend P) Unit}
    {f : Amplitude R -> Amplitude R}
    (hperforms : Performs D (mapChunk P.chunkStates f) (List.range b.layout.chunkCount) v call b) :
    Interrupts D v (mapAmplitudes f v) call b :=
  hperforms.interrupts (foldl_mapChunk h.shaped.layout h.length f) fun _ _ =>
    mixes_mapChunks h.shaped.layout f h.length

end Kernels

/-- The vector a call is about, with the batches the backend has open. -/
def stateOf (n : Nat) (v : List R) (b : CompressedStateBackend P) : LogicalState R :=
  { numQubits := n
    amplitudes := v
    depth := b.batchDepth }

/-- What a call that returned has done: the vector is followed, and the answer is about it. -/
def Returned (D : Drift T n) (L : LogicalState R) (op : BackendOp R) (a : Answer R)
    (b' : CompressedStateBackend P) : Prop :=
  b'.cache.Coherent none ∧ b'.batchDepth = L.depthAfter op ∧ exists x, ReadsAs T n x b' ∧
    D.Within b'.cache.touchCounter x (L.vectorAfter gateVector op) ∧
      answerOf n L.depth x op = .ok a

/-- What a call that threw has done: every amplitude is old or new. -/
def Threw (D : Drift T n) (L : LogicalState R) (op : BackendOp R)
    (b' : CompressedStateBackend P) : Prop :=
  exists w, Mixes n L.amplitudes (L.vectorAfter gateVector op) w ∧
    Leaves D w (L.depthAfter op) b'

theorem post_command {op : BackendOp R} {call : Call (CompressedStateBackend P) Unit}
    (hcall : Interrupts D v ((stateOf n v b).vectorAfter gateVector op) call b)
    (hdepth : (stateOf n v b).depthAfter op = b.batchDepth)
    (hdone : forall x, answerOf n b.batchDepth x op = .ok .done) :
    Call.Post (BackendOp.command call) b (fun a b' => Returned D (stateOf n v b) op a b')
      (fun _ b' => Threw D (stateOf n v b) op b') := by
  rw [BackendOp.command, Call.post_bind_iff]
  refine Call.Post.imp hcall ?_ ?_
  · rintro _ b1 ⟨⟨hc, x, hx, hwithin⟩, hframe⟩
    rw [Call.post_pure]
    exact ⟨hc, hframe.batchDepth.trans hdepth.symm, x, hx, hwithin, hdone x⟩
  · rintro _ b1 ⟨w, hw, hl⟩
    rw [← hdepth] at hl
    exact ⟨w, hw, hl⟩

theorem post_observed {op : BackendOp R} {call : Call (CompressedStateBackend P) (Answer R)}
    (h : Carries D v b)
    (hcall : Call.Post call b
      (fun a b' => Observes D v b b' fun x => answerOf n b.batchDepth x op = .ok a)
      (fun _ b' => Leaves D v b.batchDepth b'))
    (hdepth : (stateOf n v b).depthAfter op = b.batchDepth)
    (hsame : (stateOf n v b).vectorAfter gateVector op = v) :
    Call.Post call b (fun a b' => Returned D (stateOf n v b) op a b')
      (fun _ b' => Threw D (stateOf n v b) op b') := by
  refine hcall.imp ?_ ?_
  · rintro a b1 ⟨hc, hb, x, hx, hwithin, ha⟩
    refine ⟨hc, hb.trans hdepth.symm, x, hx, ?_, ha⟩
    rw [hsame]
    exact hwithin
  · intro _ b1 hl
    rw [← hdepth] at hl
    exact ⟨v, mixes_old h.length _, hl⟩

theorem post_run (h : Carries D v b) {op : BackendOp R} (hsize : op.size = none)
    (hvalid : op.ValidOn n b.batchDepth) (hfollows : D.Follows op) :
    Call.Post op.run b (fun a b' => Returned D (stateOf n v b) op a b')
      (fun _ b' => Threw D (stateOf n v b) op b') := by
  have hv := h.length
  have sees {α : Type} {wrap : α -> Answer R} {call : Call (CompressedStateBackend P) α}
      {answer : List R -> Except ExcKind α} (hcall : forall x, ReadsAs T n x b ->
        SeesAnswer T n x call b (answer x)) {op : BackendOp R}
      (hanswer : forall x, answerOf n b.batchDepth x op = (answer x).map wrap)
      (hdepth : (stateOf n v b).depthAfter op = b.batchDepth)
      (hsame : (stateOf n v b).vectorAfter gateVector op = v) :
      Call.Post (BackendOp.query wrap call) b (fun a b' => Returned D (stateOf n v b) op a b')
        (fun _ b' => Threw D (stateOf n v b) op b') := by
    rcases h with ⟨hc, x, hx, hwithin⟩
    refine post_observed ⟨hc, x, hx, hwithin⟩ ?_ hdepth hsame
    refine (hcall x hx).observes hc hwithin ?_
    intro a ha
    rw [hanswer, ha]
    rfl
  cases op with
  | initZero m => cases hsize
  | initBasis m t amp => cases hsize
  | initUniformSuperposition m states => cases hsize
  | loadAmplitudes m data => cases hsize
  | setAmplitude s amp =>
      refine post_command ?_ rfl (fun _ => rfl)
      refine (performs_setAmplitude h hvalid amp hfollows).interrupts rfl fun _ _ => ?_
      exact mixes_single hv ((length_setAmp v s amp).trans hv)
  | phaseFlipBasisState s =>
      refine post_command ?_ rfl (fun _ => rfl)
      refine (performs_phaseFlipBasisState h hvalid hfollows).interrupts rfl fun _ _ => ?_
      exact mixes_single hv ((StateVector.length_phaseFlip v s).trans hv)
  | inversionAboutMean =>
      refine post_command ?_ rfl (fun _ => rfl)
      exact interrupts_mapChunks h (performs_inversionAboutMean hfollows h)
  | inversionAboutMeanWith mean =>
      refine post_command ?_ rfl (fun _ => rfl)
      exact interrupts_mapChunks h (performs_inversionAboutMeanWith h mean hfollows)
  | applyAffineTransform scale bias =>
      refine post_command ?_ rfl (fun _ => rfl)
      exact interrupts_mapChunks h (performs_applyAffineTransform h scale bias hfollows)
  | applyHadamard q =>
      exact post_command (interrupts_applyHadamard h hvalid hfollows) rfl (fun _ => rfl)
  | applyPauliX q =>
      exact post_command (interrupts_applyPauliX h hvalid hfollows) rfl (fun _ => rfl)
  | applyControlledPhaseShift c q theta =>
      exact post_command (interrupts_applyControlledPhaseShift h hvalid.1 hvalid.2.1 hvalid.2.2
        theta hfollows) rfl (fun _ => rfl)
  | applyControlledNot c q =>
      exact post_command (interrupts_applyControlledNot h hvalid.1 hvalid.2.1 hvalid.2.2 hfollows)
        rfl (fun _ => rfl)
  | applyGate gate qubits =>
      exact post_command (interrupts_applyGate h hvalid hfollows) rfl (fun _ => rfl)
  | beginOperationBatch =>
      rw [BackendOp.run, BackendOp.command, Call.post_bind_iff]
      refine (post_beginOperationBatch_carries h).imp ?_ (fun _ _ he => he.elim)
      rintro _ b1 ⟨⟨hc, x, hx, hwithin⟩, hdepth⟩
      exact ⟨hc, hdepth, x, hx, hwithin, rfl⟩
  | endOperationBatch =>
      rw [BackendOp.run, BackendOp.command, Call.post_bind_iff]
      refine (post_endOperationBatch_carries h hvalid).imp ?_ ?_
      · rintro _ b1 ⟨⟨hc, x, hx, hwithin⟩, hdepth⟩
        exact ⟨hc, hdepth, x, hx, hwithin, rfl⟩
      · intro _ b1 hl
        exact ⟨v, mixes_old hv _, hl⟩
  | amplitude s =>
      exact post_observed h (post_query_observes (post_amplitude_observes h hvalid)
        (fun x => rfl)) rfl rfl
  | probability s =>
      exact post_observed h (post_query_observes (post_probability_observes h hvalid)
        (fun x => rfl)) rfl rfl
  | totalProbability =>
      exact sees (fun x hx => totalProbability_seesAnswer hx) (fun _ => rfl) rfl rfl
  | exportAmplitudes =>
      exact sees (fun x hx => exportAmplitudes_seesAnswer hx) (fun _ => rfl) rfl rfl
  | forEachAmplitudeChunk =>
      refine post_observed h ?_ rfl rfl
      rcases h with ⟨hc, x, hx, hwithin⟩
      rw [BackendOp.run, BackendOp.query, Call.post_bind_iff]
      refine (forEachAmplitudeChunk_sees_chunks hx).imp ?_ ?_
      · rintro chunks b1 ⟨hchunks, hs⟩
        rw [Call.post_pure, hchunks.flatMap_eq]
        refine ⟨(hs.carries hc hwithin).1, hs.codecOnly.batchDepth, x, hs.reads, ?_, rfl⟩
        rw [hs.codecOnly.cache]
        exact hwithin
      · intro _ b1 hs
        exact hs.leaves hc hwithin
  | sampleMeasurement rnd =>
      exact sees (fun x hx => sampleMeasurement_seesAnswer hx rnd) (fun _ => rfl) rfl rfl
  | printNonZeroStates epsilon =>
      exact sees (fun x hx => printNonZeroStates_seesAnswer hx epsilon) (fun _ => rfl) rfl rfl

end Runs

end CompressedStateBackend

end Tmfqs
