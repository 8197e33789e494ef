import Tmfqs.Storage.FlushedCalls
import Tmfqs.Storage.RecordedQubits
import Tmfqs.Storage.RejectedCalls

/-!
# Calls on a backend whose store is up to date

Every mutation ends with a flush unless a batch is open, reads mark no slot dirty, and a
rejected call changes nothing.  So while no batch is open the store alone has all amplitudes.
-/

namespace Tmfqs

open Library ChunkCache

namespace CompressedStateBackend

variable {R B : Type} [Field R] {P : CodecPolicy R B} {b : CompressedStateBackend P} {n : Nat}

/-!
## Initialised backends
-/

section UpToDate

variable [LinearOrder R] [CMath R] {hP : P.Lossless} {op : BackendOp R} {v : List R}

/--
The backend stores a vector of `n` qubits, and outside a batch the store has all of it.  A
rejected initialisation with more than 63 qubits may have changed the recorded number.
-/
structure UpToDate (hP : P.Lossless) (n : Nat) (b : CompressedStateBackend P) : Prop where
  represents : exists v, Represents hP n v b.batchDepth (renumber n b)
  clean : b.batchDepth = 0 -> b.NoneDirty
  recorded : b.numQubits = n ∨ 63 < b.numQubits

section

omit [Field R] [LinearOrder R] [CMath R]

theorem UpToDate.renumbered (h : UpToDate hP n b) {m : Nat} (hm : m = n ∨ 63 < m) :
    UpToDate hP n (renumber m b) where
  represents := h.represents
  clean := h.clean
  recorded := hm

/-- What a call that does not look at the recorded number does with the right one. -/
theorem UpToDate.of_unnumbered {α : Type} {x : Call (CompressedStateBackend P) α}
    (h : UpToDate hP n b) (hx : Unnumbered x)
    (hnext : UpToDate hP n (x (renumber n b)).2) :
    UpToDate hP n (x b).2 := by
  have hrun := hx b.numQubits (renumber n b)
  rw [renumber_renumber, renumber_self] at hrun
  rw [hrun]
  exact hnext.renumbered h.recorded

theorem Represents.contains {d : Nat} (h : Represents hP n v d b) :
    Contains hP n (chunkOf P.chunkStates v) (chunkOf P.chunkStates v) b :=
  h.1.chunks.contains

end

theorem accepts_gateVector (hsize : op.size = none) :
    (storesVector hP).Accepts gateVector op := by
  constructor
  · intro m hm
    rw [hsize] at hm
    cases hm
  · intro _ _ _ _ _ _ _ _
    rfl

/-- A call with valid arguments does what it does to the vector, and answers from it. -/
theorem Represents.run (h : Represents hP n v b.batchDepth b) (hsize : op.size = none)
    (hvalid : op.ValidOn n b.batchDepth) :
    (op.run b).1.mapError Exc.kind =
        LogicalState.answer { numQubits := n, amplitudes := v, depth := b.batchDepth } op ∧
      exists v', Represents hP n v'
        (LogicalState.depthAfter { numQubits := n, amplitudes := v, depth := b.batchDepth } op)
        (op.run b).2 := by
  have hspec : Refines Exc.kind (storesVector hP).Stores op.run (op.spec gateVector)
      (some { numQubits := n, amplitudes := v, depth := b.batchDepth }) b :=
    StoresVector.refines_call hsize h hvalid (accepts_gateVector hsize)
  unfold BackendOp.spec at hspec
  rw [hsize] at hspec
  exact ⟨hspec.1, _, hspec.2⟩

omit [Field R] [LinearOrder R] [CMath R] in
theorem noneDirty_query {α : Type} {call : Call (CompressedStateBackend P) α}
    (h : Call.Post call b (fun _ b' => b'.NoneDirty) (fun _ b' => b'.NoneDirty))
    (wrap : α -> Answer R) : (BackendOp.query wrap call b).2.NoneDirty := by
  have hpost : Call.Post (BackendOp.query wrap call) b (fun _ b' => b'.NoneDirty)
      (fun _ b' => b'.NoneDirty) := by
    rw [BackendOp.query, Call.post_bind_iff]
    exact h
  exact hpost.state

omit [LinearOrder R] [CMath R] in
theorem Represents.noneDirty_amplitude {d s : Nat} (h : Represents hP n v d b) (hs : s < 2 ^ n)
    (hclean : b.NoneDirty) :
    Call.Post (amplitude s) b (fun _ b' => b'.NoneDirty) (fun _ b' => b'.NoneDirty) := by
  refine (h.contains.amplitude hs).imp ?_ (fun _ _ he => he.elim)
  rintro a b' ⟨_, ⟨_, rfl⟩ | ⟨victim, hf⟩⟩
  · exact hclean
  · exact hclean.fetched hf

omit [LinearOrder R] [CMath R] in
theorem Represents.noneDirty_probability {d s : Nat} (h : Represents hP n v d b) (hs : s < 2 ^ n)
    (hclean : b.NoneDirty) :
    Call.Post (probability s) b (fun _ b' => b'.NoneDirty) (fun _ b' => b'.NoneDirty) := by
  rw [probability, Call.post_bind_iff]
  exact h.noneDirty_amplitude hs hclean

omit [Field R] [LinearOrder R] [CMath R] in
theorem NoneDirty.of_answers {α : Type} {call : Call (CompressedStateBackend P) α}
    {answer : Except ExcKind α} (hclean : b.NoneDirty)
    (h : Answers call b answer (CodecOnly b)) :
    Call.Post call b (fun _ b' => b'.NoneDirty) (fun _ b' => b'.NoneDirty) := by
  have hsame : forall b', CodecOnly b b' -> b'.NoneDirty := by
    intro b' hcodec k
    rw [hcodec.cache]
    exact hclean k
  exact h.imp (fun _ b' ha => hsame b' ha.2) (fun _ b' he => hsame b' he.2)

theorem Represents.noneDirty_run (h : Represents hP n v b.batchDepth b)
    (hclean : b.batchDepth = 0 -> b.NoneDirty) (hsize : op.size = none)
    (hvalid : op.ValidOn n b.batchDepth) (hdepth : (op.run b).2.batchDepth = 0) :
    (op.run b).2.NoneDirty := by
  rcases h.run hsize hvalid with ⟨hanswer, v', hnext⟩
  have command : forall {call : Call (CompressedStateBackend P) Unit},
      op.run = BackendOp.command call -> EndsFlushed call ->
      LogicalState.answer { numQubits := n, amplitudes := v, depth := b.batchDepth } op =
        .ok .done -> (op.run b).2.NoneDirty := by
    intro call hop hcall hdone
    have hok : exists a, (op.run b).1 = .ok a := by
      rw [hdone] at hanswer
      cases hr : (op.run b).1 with
      | ok a => exact ⟨a, rfl⟩
      | error e =>
          rw [hr] at hanswer
          cases hanswer
    apply clean_of_flushed hnext.1.chunks.shaped.coherent
    rw [hop] at hok hdepth ⊢
    exact hcall.command.flushed hok hdepth
  have hsame := hnext.2.2
  rw [hdepth] at hsame
  cases op with
  | initZero m => cases hsize
  | initBasis m t amp => cases hsize
  | initUniformSuperposition m states => cases hsize
  | loadAmplitudes m data => cases hsize
  | setAmplitude t amp => exact command rfl (endsFlushed_mutate _ _) rfl
  | phaseFlipBasisState t => exact command rfl (endsFlushed_mutate _ _) rfl
  | inversionAboutMean => exact command rfl (endsFlushed_mutate _ _) rfl
  | inversionAboutMeanWith mean => exact command rfl (endsFlushed_mutate _ _) rfl
  | applyAffineTransform scale bias => exact command rfl (endsFlushed_mutate _ _) rfl
  | applyHadamard q => exact command rfl (endsFlushed_applyHadamard q) rfl
  | applyPauliX q => exact command rfl (endsFlushed_applyPauliX q) rfl
  | applyControlledPhaseShift c q theta =>
      exact command rfl (endsFlushed_applyControlledPhaseShift c q theta) rfl
  | applyControlledNot c q => exact command rfl (endsFlushed_applyControlledNot c q) rfl
  | applyGate gate qubits => exact command rfl (endsFlushed_applyGate gate qubits) rfl
  | beginOperationBatch => cases hsame
  | endOperationBatch => exact command rfl endsFlushed_endOperationBatch rfl
  | amplitude t =>
      exact noneDirty_query (h.noneDirty_amplitude hvalid (hclean hsame.symm)) _
  | probability t =>
      exact noneDirty_query (h.noneDirty_probability hvalid (hclean hsame.symm)) _
  | totalProbability =>
      exact noneDirty_query ((hclean hsame.symm).of_answers (totalProbability_sees h.contains)) _
  | exportAmplitudes =>
      exact noneDirty_query ((hclean hsame.symm).of_answers (exportAmplitudes_sees h.contains)) _
  | forEachAmplitudeChunk =>
      exact noneDirty_query
        ((hclean hsame.symm).of_answers (forEachAmplitudeChunk_sees h.contains)) _
  | sampleMeasurement rnd =>
      exact noneDirty_query
        ((hclean hsame.symm).of_answers (sampleMeasurement_sees h.contains rnd)) _
  | printNonZeroStates epsilon =>
      exact noneDirty_query
        ((hclean hsame.symm).of_answers (printNonZeroStates_sees h.contains epsilon)) _

end UpToDate

/-!
## The recorded number is right
-/

section Recorded

variable [LinearOrder R] [CMath R] {hP : P.Lossless} {op : BackendOp R} {v : List R}

omit [CMath R] in
theorem validOn_of_argumentsOk {d : Nat} (hend : op ≠ .endOperationBatch)
    (h : op.ArgumentsOk n) : op.ValidOn n d := by
  cases op with
  | endOperationBatch => exact absurd rfl hend
  | sampleMeasurement rnd => trivial
  | printNonZeroStates epsilon => trivial
  | _ => exact h.2

theorem Shaped.run_of_not_valid (h : b.Shaped n) (hsize : op.size = none)
    (hvalid : ¬ op.ValidOn n b.batchDepth) : (op.run b).2 = b := by
  by_cases hend : op = .endOperationBatch
  · subst hend
    have hclosed : b.batchDepth = 0 := Nat.eq_zero_of_not_pos hvalid
    have hpost : Call.Post (BackendOp.command (R := R) endOperationBatch) b
        (fun _ b' => b' = b) (fun _ b' => b' = b) := by
      rw [BackendOp.command, Call.post_bind_iff]
      exact (endOperationBatch_of_closed hclosed).imp (fun _ _ hf => hf.elim)
        (fun _ _ he => he.2)
    exact hpost.state
  · rcases h.rejects hsize (fun hok => hvalid (validOn_of_argumentsOk hend hok)) with ⟨e, he, _⟩
    rw [he]

omit [Field R] [LinearOrder R] [CMath R] in
theorem UpToDate.shaped (h : UpToDate hP n b) :
    (renumber n b).Shaped n := by
  rcases h.represents with ⟨v, hv⟩
  exact hv.1.chunks.shaped

theorem UpToDate.run_recorded (h : UpToDate hP n b) (hn : b.numQubits = n)
    (hsize : op.size = none) : UpToDate hP n (op.run b).2 := by
  have hb : renumber n b = b := by
    rw [← hn, renumber_self]
  rcases h.represents with ⟨v, hv⟩
  rw [hb] at hv
  by_cases hvalid : op.ValidOn n b.batchDepth
  · rcases (hv.run hsize hvalid).2 with ⟨v', hnext⟩
    have hqubits := hnext.1.chunks.shaped.numQubits
    have hself : renumber n (op.run b).2 = (op.run b).2 := by
      rw [← hqubits, renumber_self]
    exact
      { represents := by
          rw [hself, hnext.2.2]
          exact ⟨v', hnext⟩
        clean := hv.noneDirty_run h.clean hsize hvalid
        recorded := Or.inl hqubits }
  · rw [hv.1.chunks.shaped.run_of_not_valid hsize hvalid]
    exact h

omit [Field R] [LinearOrder R] [CMath R] in
theorem UpToDate.flush_recorded (h : UpToDate hP n b) (hn : b.numQubits = n) :
    UpToDate hP n (flushCacheIfNeeded b).2 := by
  have hb : renumber n b = b := by
    rw [← hn, renumber_self]
  rcases h.represents with ⟨v, hv⟩
  rw [hb] at hv
  obtain ⟨a, b', hrun, hchunks, hframe⟩ := (post_flushCacheIfNeeded hv.1.chunks).exists_ok
  have hflushed := endsFlushed_flushCacheIfNeeded.flushed (b := b) ⟨a, by rw [hrun]⟩
  rw [hrun] at hflushed ⊢
  have hself : renumber n b' = b' := by
    rw [← hchunks.shaped.numQubits, renumber_self]
  exact
    { represents := by
        rw [hself]
        exact ⟨v, ⟨hv.1.length, hchunks⟩, hframe.roomy hv.2.1, rfl⟩
      clean := fun hclosed => clean_of_flushed hchunks.shaped.coherent (hflushed hclosed)
      recorded := Or.inl hchunks.shaped.numQubits }

end Recorded

/-!
## Another number is recorded

Then the bit of a qubit is counted from the wrong end: the qubit that has this bit with the right
number recorded is found by shifting.
-/

section Renumbered

variable [LinearOrder R] [CMath R] {hP : P.Lossless} {op : BackendOp R}

/-- The bits a gate call works on are bits of a state index. -/
def InRange (qubits : List Nat) (b : CompressedStateBackend P) : Prop :=
  forall q, q ∈ qubits -> q < b.numQubits -> 2 ^ (b.numQubits - q - 1) < b.numStates

section

omit [Field R] [LinearOrder R] [CMath R]

theorem UpToDate.initialized (h : UpToDate hP n b) (operation : String) :
    ensureInitialized operation b = (.ok (), b) := by
  have hrun := ignores_ensureInitialized (n := b.numQubits) operation
    (renumber n b)
  rw [ensureInitialized_eq h.shaped] at hrun
  exact hrun

theorem UpToDate.le_numQubits (h : UpToDate hP n b) : n ≤ b.numQubits := by
  have hn := h.shaped.qubits
  rcases h.recorded with heq | hlarge
  · exact Nat.le_of_eq heq.symm
  · omega

theorem UpToDate.shifted (h : UpToDate hP n b) {qubits : List Nat} (hrange : InRange qubits b)
    {q : Nat} (hmem : q ∈ qubits) (hq : q < b.numQubits) :
    q - (b.numQubits - n) < n ∧ n - (q - (b.numQubits - n)) - 1 = b.numQubits - q - 1 := by
  have hstates : b.numStates = 2 ^ n := h.shaped.numStates
  have hlt := hrange q hmem hq
  rw [hstates] at hlt
  have hbit := (Nat.pow_lt_pow_iff_right (by decide)).mp hlt
  have hle := h.le_numQubits
  omega

theorem UpToDate.mask_shifted (h : UpToDate hP n b) {qubits : List Nat}
    (hrange : InRange qubits b) {q : Nat} (hmem : q ∈ qubits) (hq : q < b.numQubits) :
    qubitMaskFromMsbIndex (q - (b.numQubits - n)) n = qubitMaskFromMsbIndex q b.numQubits := by
  rw [qubitMaskFromMsbIndex, qubitMaskFromMsbIndex, (h.shifted hrange hmem hq).2]

theorem UpToDate.qubitGate (h : UpToDate hP n b) (operation scopeName : String) {q : Nat}
    (hrange : InRange [q] b) {gate : Nat -> Call (CompressedStateBackend P) Unit}
    (hgate : forall mask, Unnumbered (gate mask))
    {x : Nat -> Call (CompressedStateBackend P) Unit}
    (hx : forall q, x q = do
      ensureInitialized operation
      let b <- get
      validateQubitIndex scopeName q b.numQubits
      gate (qubitMaskFromMsbIndex q b.numQubits))
    (hnext : forall q', q' < n -> UpToDate hP n (x q' (renumber n b)).2) :
    UpToDate hP n (x q b).2 := by
  have hrun : forall (c : CompressedStateBackend P) (t : Nat),
      ensureInitialized operation c = (.ok (), c) -> t < c.numQubits ->
      x t c = gate (qubitMaskFromMsbIndex t c.numQubits) c := by
    intro c t hinit ht
    rw [hx, Call.bind_ok hinit, Call.bind_ok (Call.get_apply c), validateQubitIndex_ok _ ht,
      pure_bind]
  by_cases hq : q < b.numQubits
  · have hmem : q ∈ [q] := List.mem_singleton.mpr rfl
    have hshifted := hnext _ (h.shifted hrange hmem hq).1
    rw [hrun (renumber n b) _ (ensureInitialized_eq h.shaped operation)
      (h.shifted hrange hmem hq).1] at hshifted
    change UpToDate hP n (gate (qubitMaskFromMsbIndex (q - (b.numQubits - n)) n) _).2 at hshifted
    rw [h.mask_shifted hrange hmem hq] at hshifted
    rw [hrun b q (h.initialized operation) hq]
    exact h.of_unnumbered (hgate _) hshifted
  · have hrejects : Rejects (x q) b := by
      rw [hx]
      apply Rejects.after (h.initialized operation)
      apply Rejects.after (Call.get_apply b)
      exact (rejects_qubitIndex scopeName hq).bind _
    rcases hrejects with ⟨e, he, _⟩
    rw [he]
    exact h

theorem UpToDate.qubitsGate (h : UpToDate hP n b) (operation scopeName : String) {q0 q1 : Nat}
    (hrange : InRange [q0, q1] b) {gate : Nat -> Nat -> Call (CompressedStateBackend P) Unit}
    (hgate : forall mask0 mask1, Unnumbered (gate mask0 mask1))
    {x : Nat -> Nat -> Call (CompressedStateBackend P) Unit}
    (hx : forall q0 q1, x q0 q1 = do
      ensureInitialized operation
      let b <- get
      validateBackendTwoQubits scopeName q0 q1 b.numQubits
      gate (qubitMaskFromMsbIndex q0 b.numQubits) (qubitMaskFromMsbIndex q1 b.numQubits))
    (hnext : forall q0' q1', q0' < n -> q1' < n ->
      UpToDate hP n (x q0' q1' (renumber n b)).2) :
    UpToDate hP n (x q0 q1 b).2 := by
  have hrun : forall (c : CompressedStateBackend P) (s t : Nat),
      ensureInitialized operation c = (.ok (), c) -> s < c.numQubits -> t < c.numQubits ->
      s ≠ t -> x s t c =
        gate (qubitMaskFromMsbIndex s c.numQubits) (qubitMaskFromMsbIndex t c.numQubits) c := by
    intro c s t hinit hs ht hne
    rw [hx, Call.bind_ok hinit, Call.bind_ok (Call.get_apply c),
      validateBackendTwoQubits_ok _ hs ht hne, pure_bind]
  by_cases hq : q0 < b.numQubits ∧ q1 < b.numQubits ∧ q0 ≠ q1
  · rcases hq with ⟨hq0, hq1, hne⟩
    have hmem0 : q0 ∈ [q0, q1] := List.mem_cons_self
    have hmem1 : q1 ∈ [q0, q1] := List.mem_cons_of_mem _ (List.mem_singleton.mpr rfl)
    have hbit0 := h.shifted hrange hmem0 hq0
    have hbit1 := h.shifted hrange hmem1 hq1
    have hne' : q0 - (b.numQubits - n) ≠ q1 - (b.numQubits - n) := by omega
    have hshifted := hnext _ _ hbit0.1 hbit1.1
    rw [hrun (renumber n b) _ _
      (ensureInitialized_eq h.shaped operation) hbit0.1 hbit1.1 hne'] at hshifted
    change UpToDate hP n (gate (qubitMaskFromMsbIndex (q0 - (b.numQubits - n)) n)
      (qubitMaskFromMsbIndex (q1 - (b.numQubits - n)) n) _).2 at hshifted
    rw [h.mask_shifted hrange hmem0 hq0, h.mask_shifted hrange hmem1 hq1] at hshifted
    rw [hrun b q0 q1 (h.initialized operation) hq0 hq1 hne]
    exact h.of_unnumbered (hgate _ _) hshifted
  · have hrejects : Rejects (x q0 q1) b := by
      rw [hx]
      apply Rejects.after (h.initialized operation)
      apply Rejects.after (Call.get_apply b)
      exact (rejects_twoQubits scopeName hq).bind _
    rcases hrejects with ⟨e, he, _⟩
    rw [he]
    exact h

theorem UpToDate.command {call : Call (CompressedStateBackend P) Unit}
    (h : UpToDate hP n (call b).2) : UpToDate hP n (BackendOp.command (R := R) call b).2 := by
  rw [command_state]
  exact h

end

theorem UpToDate.command_recorded (h : UpToDate hP n b) (op : BackendOp R) (hsize : op.size = none)
    {call : Call (CompressedStateBackend P) Unit} (hop : op.run = BackendOp.command call) :
    UpToDate hP n (call (renumber n b)).2 := by
  have hrun := (h.renumbered (Or.inl rfl)).run_recorded rfl hsize
  rw [hop, command_state] at hrun
  exact hrun

theorem UpToDate.applyHadamard (h : UpToDate hP n b) {q : Nat} (hrange : InRange [q] b) :
    UpToDate hP n (CompressedStateBackend.applyHadamard q b).2 :=
  h.qubitGate _ _ hrange (fun mask => (unnumbered_runPairKernel mask hadamardPair).mutate _)
    (fun _ => rfl) fun q' _ => h.command_recorded (.applyHadamard q') rfl rfl

theorem UpToDate.applyPauliX (h : UpToDate hP n b) {q : Nat} (hrange : InRange [q] b) :
    UpToDate hP n (CompressedStateBackend.applyPauliX q b).2 :=
  h.qubitGate _ _ hrange (fun mask => (unnumbered_runPairKernel mask pauliXPair).mutate _)
    (fun _ => rfl) fun q' _ => h.command_recorded (.applyPauliX q') rfl rfl

theorem UpToDate.applyControlledPhaseShift (h : UpToDate hP n b) {control target : Nat}
    (hrange : InRange [control, target] b) (theta : R) :
    UpToDate hP n (CompressedStateBackend.applyControlledPhaseShift control target theta b).2 :=
  h.qubitsGate
    (x := fun c q => CompressedStateBackend.applyControlledPhaseShift c q theta) _ _ hrange
    (fun mask0 mask1 =>
      (unnumbered_runPairKernel mask1 (controlledPhaseShiftPair mask0 theta)).mutate _)
    (fun _ _ => rfl) fun c q _ _ =>
      h.command_recorded (.applyControlledPhaseShift c q theta) rfl rfl

theorem UpToDate.applyControlledNot (h : UpToDate hP n b) {control target : Nat}
    (hrange : InRange [control, target] b) :
    UpToDate hP n (CompressedStateBackend.applyControlledNot control target b).2 :=
  h.qubitsGate _ _ hrange
    (fun mask0 mask1 => (unnumbered_runPairKernel mask1 (controlledNotPair mask0)).mutate _)
    (fun _ _ => rfl) fun c q _ _ => h.command_recorded (.applyControlledNot c q) rfl rfl

omit [Field R] [LinearOrder R] [CMath R] in
theorem UpToDate.length_le (h : UpToDate hP n b) {qubits : List Nat} {d : Nat}
    (hrange : InRange qubits b) (hvalid : ValidTargets qubits b.numQubits d) :
    qubits.length ≤ n := by
  have hsubset : targetBits qubits b.numQubits ⊆ List.range n := by
    intro bit hbit
    rcases List.mem_map.mp hbit with ⟨q, hq, rfl⟩
    have hshifted := h.shifted hrange hq (hvalid.inRange q hq)
    rw [List.mem_range]
    omega
  have hle := ((targetBits_nodup hvalid).subperm hsubset).length_le
  rw [List.length_range, targetBits, List.length_map] at hle
  exact hle

omit [CMath R] in
/-- With more than 63 qubits recorded the number of blocks is narrowed to zero, or throws. -/
theorem keeps_gateApplyEngine {σ γ : Type} (view : σ -> γ) (scopeName : String)
    (gate : QuantumGate R) {qubits : List Nat} {m : Nat} (hm : 63 < m) (hk : qubits.length ≤ 31)
    (loadAmplitude : Nat -> Call σ (Amplitude R))
    (storeAmplitude : Nat -> Amplitude R -> Call σ PUnit) :
    Call.Keeps view
      (GateApplyEngine.apply scopeName gate qubits m loadAmplitude storeAmplitude) := by
  have hactive : u32 qubits.length = qubits.length := u32_of_lt (by omega)
  apply (keeps_validateGateTargets scopeName qubits m gate.dimension).bind
  intro _
  rw [makeGateBlockLayout, hactive]
  by_cases hwide : m - qubits.length ≤ 63
  · have hblocks : u32 (2 ^ (m - qubits.length)) = 0 :=
      Nat.mod_eq_zero_of_dvd (Nat.pow_dvd_pow 2 (by omega))
    rw [checkedStateCount_eq hwide, checkedStateCount_eq (show qubits.length ≤ 63 by omega),
      pure_bind, pure_bind, pure_bind, applyGateByBlocks, hblocks]
    simp only [List.range_zero]
    apply Call.Keeps.ite
    · exact (Call.keeps_throw _)
    · apply Call.Keeps.ite
      · exact Call.keeps_pure _
      · exact Call.Keeps.ite (Call.keeps_pure _) (Call.keeps_pure _)
  · have hthrows : m - qubits.length > maxSupportedQubitsForStateIndex := Nat.lt_of_not_le hwide
    rw [checkedStateCount, if_pos hthrows]
    exact Call.keeps_throw _

omit [Field R] [LinearOrder R] [CMath R] in
theorem InRange.single {qubits : List Nat} (h : InRange qubits b) (hlen : qubits.length = 1) :
    InRange [qubits.getD 0 0] b := by
  obtain ⟨q, rfl⟩ := List.length_eq_one_iff.mp hlen
  exact h

omit [Field R] [LinearOrder R] [CMath R] in
theorem InRange.pair {qubits : List Nat} (h : InRange qubits b) (hlen : qubits.length = 2) :
    InRange [qubits.getD 0 0, qubits.getD 1 0] b := by
  obtain ⟨q0, q1, rfl⟩ := List.length_eq_two.mp hlen
  exact h

omit [CMath R] in
theorem UpToDate.blocks (h : UpToDate hP n b) (hlarge : 63 < b.numQubits)
    (operation scopeName : String) {gate : QuantumGate R} {qubits : List Nat}
    (hrange : InRange qubits b) :
    UpToDate hP n (mutate operation (do
      let b <- get
      GateApplyEngine.apply scopeName gate qubits b.numQubits
        readAmplitudeMutable writeAmplitudeMutable) b).2 := by
  rw [mutate, Call.bind_ok (h.initialized operation)]
  by_cases hvalid : ValidTargets qubits b.numQubits gate.dimension
  · have hn := h.shaped.qubits
    have hk := h.length_le hrange hvalid
    have hkeeps := keeps_gateApplyEngine id scopeName gate hlarge
      (show qubits.length ≤ 31 by omega) (readAmplitudeMutable (P := P)) writeAmplitudeMutable b
    rw [Call.bind_apply, Call.bind_ok (Call.get_apply b)]
    rcases hrun : GateApplyEngine.apply scopeName gate qubits b.numQubits
      (readAmplitudeMutable (P := P)) writeAmplitudeMutable b with ⟨r, b'⟩
    rw [hrun] at hkeeps
    change b' = b at hkeeps
    rw [hkeeps]
    cases r with
    | ok a =>
        have hflush : Unnumbered (flushCacheIfNeeded : Call (CompressedStateBackend P) Unit) :=
          fun _ => ignores_flushCacheIfNeeded
        change UpToDate hP n (flushCacheIfNeeded b).2
        exact h.of_unnumbered hflush ((h.renumbered (Or.inl rfl)).flush_recorded rfl)
    | error e => exact h
  · have hrejects : Rejects (do
        let b <- get
        GateApplyEngine.apply scopeName gate qubits b.numQubits
          (readAmplitudeMutable (P := P)) writeAmplitudeMutable) b :=
      Rejects.after (Call.get_apply b) (rejects_gateApplyEngine scopeName hvalid _ _ b)
    rcases hrejects.bind fun _ => flushCacheIfNeeded with ⟨e, he, _⟩
    rw [he]
    exact h

theorem UpToDate.applyGate (h : UpToDate hP n b) (hlarge : 63 < b.numQubits)
    {gate : QuantumGate R} {qubits : List Nat} (hrange : InRange qubits b) :
    UpToDate hP n (CompressedStateBackend.applyGate gate qubits b).2 := by
  rw [CompressedStateBackend.applyGate, Call.bind_ok (h.initialized _)]
  cases hpath : fastPath gate qubits.length with
  | hadamard => exact h.applyHadamard (hrange.single (fastPath_one (Or.inl hpath)))
  | pauliX => exact h.applyPauliX (hrange.single (fastPath_one (Or.inr hpath)))
  | controlledNot => exact h.applyControlledNot (hrange.pair (fastPath_two (Or.inl hpath)))
  | controlledPhaseShift theta =>
      exact h.applyControlledPhaseShift (hrange.pair (fastPath_two (Or.inr ⟨theta, hpath⟩))) theta
  | blocks => exact h.blocks hlarge _ _ hrange

omit [LinearOrder R] [CMath R] in
theorem UpToDate.refused_export (h : UpToDate hP n b) (hlarge : 63 < b.numQubits) :
    Refused exportAmplitudes b := by
  apply Refused.after (h.initialized _)
  apply Refused.after (Call.get_apply b)
  have hthrows : b.numQubits > maxSupportedQubitsForStateIndex := hlarge
  rw [checkedAmplitudeElementCount, checkedStateCount, if_pos hthrows]
  exact ((refused_throw _ b).bind _).bind _

theorem UpToDate.run (h : UpToDate hP n b) (hsize : op.size = none)
    (hrange : InRange op.qubits b) : UpToDate hP n (op.run b).2 := by
  rcases h.recorded with hn | hlarge
  · exact h.run_recorded hn hsize
  · by_cases hreads : op.ReadsQubits
    · cases op with
      | initZero m => cases hsize
      | initBasis m t amp => cases hsize
      | initUniformSuperposition m states => cases hsize
      | loadAmplitudes m data => cases hsize
      | applyHadamard q => exact UpToDate.command (h.applyHadamard hrange)
      | applyPauliX q => exact UpToDate.command (h.applyPauliX hrange)
      | applyControlledPhaseShift c q theta =>
          exact UpToDate.command (h.applyControlledPhaseShift hrange theta)
      | applyControlledNot c q => exact UpToDate.command (h.applyControlledNot hrange)
      | applyGate gate qubits => exact UpToDate.command (h.applyGate hlarge hrange)
      | exportAmplitudes =>
          have hsame : (BackendOp.query (R := R) .amplitudes exportAmplitudes b).2 = b :=
            (h.refused_export hlarge).query
          exact hsame.symm ▸ h
      | _ => exact hreads.elim
    · exact h.of_unnumbered (unnumbered_run hreads)
        ((h.renumbered (Or.inl rfl)).run_recorded rfl hsize)

end Renumbered

end CompressedStateBackend

end Tmfqs
