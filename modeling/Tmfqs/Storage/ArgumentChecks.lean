import Tmfqs.Storage.BackendRuns
import Tmfqs.Storage.DenseRefinement

/-!
# Argument checks of a backend

What both backends promise about the arguments of a call on an initialised backend:
unusable ones are reported before anything is touched, and usable ones are never
reported.
-/

namespace Tmfqs

open Library

namespace BackendOp

variable {R : Type} [Field R] [LinearOrder R]

/-- The arguments a backend of `n` qubits can use. -/
def ArgumentsOk (n : Nat) : BackendOp R -> Prop
  | sampleMeasurement rnd => 0 ≤ rnd ∧ rnd < 1
  | printNonZeroStates epsilon => 0 ≤ epsilon
  | op => op.ValidInit ∧ op.ValidOn n 1

/-- The exceptions that usable arguments leave possible. -/
def MayThrow : BackendOp R -> ExcKind -> Prop
  | endOperationBatch, kind => kind = .logicError
  | sampleMeasurement _, kind => kind = .runtimeError
  | _, _ => False

omit [Field R] [LinearOrder R] in
theorem MayThrow.rejection {op : BackendOp R} {kind : ExcKind} (h : op.MayThrow kind) :
    kind.rejection = false := by
  cases op with
  | endOperationBatch =>
      cases h
      rfl
  | sampleMeasurement rnd =>
      cases h
      rfl
  | _ => exact h.elim

end BackendOp

/-- A backend that checks its arguments first: `Ready n` says it is initialised for `n` qubits. -/
structure ChecksArguments {R : Type} [Field R] [LinearOrder R] (β : Type) [IStateBackend R β] where
  Ready : Nat -> β -> Prop
  /-- The sizes the backend can be initialised with. -/
  Size : Nat -> Prop
  bound : forall {n b}, Ready n b -> n ≤ 31 ∧ Size n
  init : forall {op : BackendOp R} {n : Nat} (b : β), op.size = some n -> op.ValidInit -> Size n ->
    Does op.run b (Ready n)
  call : forall {op : BackendOp R} {n b}, Ready n b -> op.size = none -> op.ArgumentsOk n ->
    Call.Post op.run b (fun _ b' => Ready n b') (fun e b' => op.MayThrow e.kind ∧ Ready n b')
  rejects : forall {op : BackendOp R} {n b}, Ready n b -> op.size = none -> ¬ op.ArgumentsOk n ->
    Rejects op.run b
  clone : forall {n b}, Ready n b -> Ready n (IStateBackend.clone b)

section Wrapping

variable {β α R : Type} {b : β}

theorem Rejects.command {call : Call β Unit} (h : Rejects call b) :
    Rejects (BackendOp.command (R := R) call) b :=
  h.bind _

theorem Rejects.query {wrap : α -> Answer R} {call : Call β α} (h : Rejects call b) :
    Rejects (BackendOp.query wrap call) b :=
  h.bind _

end Wrapping

section Engine

variable {R σ : Type} [Field R] [DecidableEq R]

theorem rejects_gateApplyEngine (scopeName : String) {gate : QuantumGate R} {qubits : List Nat}
    {n : Nat} (h : ¬ ValidTargets qubits n gate.dimension)
    (loadAmplitude : Nat -> Call σ (Amplitude R))
    (storeAmplitude : Nat -> Amplitude R -> Call σ PUnit) (s : σ) :
    Rejects (GateApplyEngine.apply scopeName gate qubits n loadAmplitude storeAmplitude) s :=
  (rejects_gateTargets scopeName h).bind _

end Engine

/-!
## The dense backend
-/

namespace DenseStateBackend

variable {R : Type} [Field R] [LinearOrder R] [CMath R] {n : Nat} {v : List R}
  {b : DenseStateBackend R}

section

omit [Field R] [LinearOrder R] [CMath R]

theorem Holds.initialized (h : Holds n v b) (operation : String) :
    ensureInitialized operation b = (.ok (), b) := by
  rw [h.eq]
  exact ensureInitialized_holding h.length operation

theorem Holds.rejects_state (h : Holds n v b) {state : Nat} (hs : ¬ state < 2 ^ n)
    (scopeName : String) : Rejects (validateState state scopeName) b := by
  apply Rejects.after (Call.get_apply b)
  rw [h.eq]
  exact rejects_stateIndex scopeName h.qubits hs

theorem Holds.rejects_qubit (h : Holds n v b) {qubit : Nat} (hq : ¬ qubit < n)
    (scopeName : String) : Rejects (validateSingleQubitOperation qubit scopeName) b := by
  apply Rejects.after (h.initialized scopeName)
  apply Rejects.after (Call.get_apply b)
  rw [h.eq]
  exact rejects_qubitIndex scopeName hq

theorem Holds.rejects_qubits (h : Holds n v b) {q0 q1 : Nat} (hq : ¬ (q0 < n ∧ q1 < n ∧ q0 ≠ q1))
    (scopeName : String) : Rejects (validateTwoQubitOperation q0 q1 scopeName) b := by
  apply Rejects.after (h.initialized scopeName)
  apply Rejects.after (Call.get_apply b)
  rw [h.eq]
  exact rejects_twoQubits scopeName hq

end

omit [LinearOrder R] [CMath R] in
theorem Holds.rejects_amplitude (h : Holds n v b) {state : Nat} (hs : ¬ state < 2 ^ n) :
    Rejects (amplitude state) b := by
  apply Rejects.after (h.initialized _)
  exact (h.rejects_state hs _).bind _

section

omit [CMath R]

theorem Holds.rejects_sampleMeasurement (h : Holds n v b) {rnd : R}
    (hrnd : ¬ (0 ≤ rnd ∧ rnd < 1)) : Rejects (sampleMeasurement rnd) b := by
  apply Rejects.after (h.initialized _)
  rw [if_pos]
  · exact (rejects_throw rfl b).bind _
  · by_contra hrange
    rw [not_or, not_lt, ge_iff_le, not_le] at hrange
    exact hrnd hrange

theorem Holds.rejects_printNonZeroStates (h : Holds n v b) {epsilon : R} (heps : ¬ 0 ≤ epsilon) :
    Rejects (printNonZeroStates epsilon) b := by
  apply Rejects.after (h.initialized _)
  rw [if_pos (not_le.mp heps)]
  exact (rejects_throw rfl b).bind _

theorem Holds.rejects_applyGate (h : Holds n v b) {gate : QuantumGate R} {qubits : List Nat}
    (hgate : ¬ ValidTargets qubits n gate.dimension) : Rejects (applyGate gate qubits) b := by
  apply Rejects.after (h.initialized _)
  apply Rejects.after (Call.get_apply b)
  rcases rejects_gateApplyEngine "DenseStateBackend::applyGate" hgate loadState storeState
    b.amplitudes with ⟨e, he, hkind⟩
  refine ⟨e, ?_, hkind⟩
  have hqubits : b.numQubits = n := by rw [h.eq]; rfl
  rw [Call.focus_apply, hqubits, he]
  rfl

end

theorem Holds.rejects (h : Holds n v b) {op : BackendOp R} (hsize : op.size = none)
    (hop : ¬ op.ArgumentsOk n) : Rejects op.run b := by
  cases op with
  | initZero m => cases hsize
  | initBasis m t amp => cases hsize
  | initUniformSuperposition m states => cases hsize
  | loadAmplitudes m data => cases hsize
  | setAmplitude t amp =>
      apply Rejects.command
      apply Rejects.after (h.initialized _)
      exact (h.rejects_state (fun hs => hop ⟨trivial, hs⟩) _).bind _
  | phaseFlipBasisState t =>
      apply Rejects.command
      apply Rejects.after (h.initialized _)
      exact (h.rejects_state (fun hs => hop ⟨trivial, hs⟩) _).bind _
  | inversionAboutMean => exact (hop ⟨trivial, trivial⟩).elim
  | inversionAboutMeanWith mean => exact (hop ⟨trivial, trivial⟩).elim
  | applyAffineTransform scale bias => exact (hop ⟨trivial, trivial⟩).elim
  | applyHadamard q =>
      exact ((h.rejects_qubit (fun hq => hop ⟨trivial, hq⟩) _).bind _).command
  | applyPauliX q =>
      exact ((h.rejects_qubit (fun hq => hop ⟨trivial, hq⟩) _).bind _).command
  | applyControlledPhaseShift c q theta =>
      exact ((h.rejects_qubits (fun hq => hop ⟨trivial, hq⟩) _).bind _).command
  | applyControlledNot c q =>
      exact ((h.rejects_qubits (fun hq => hop ⟨trivial, hq⟩) _).bind _).command
  | applyGate gate qubits =>
      exact (h.rejects_applyGate fun hgate => hop ⟨trivial, hgate⟩).command
  | beginOperationBatch => exact (hop ⟨trivial, trivial⟩).elim
  | endOperationBatch => exact (hop ⟨trivial, Nat.one_pos⟩).elim
  | amplitude t => exact (h.rejects_amplitude fun hs => hop ⟨trivial, hs⟩).query
  | probability t => exact ((h.rejects_amplitude fun hs => hop ⟨trivial, hs⟩).bind _).query
  | totalProbability => exact (hop ⟨trivial, trivial⟩).elim
  | exportAmplitudes => exact (hop ⟨trivial, trivial⟩).elim
  | forEachAmplitudeChunk => exact (hop ⟨trivial, trivial⟩).elim
  | sampleMeasurement rnd => exact (h.rejects_sampleMeasurement hop).query
  | printNonZeroStates epsilon => exact (h.rejects_printNonZeroStates hop).query

theorem accepts (op : BackendOp R) :
    (storesVector (R := R)).Accepts StateVector.blockGate op :=
  ⟨fun _ _ => trivial, fun _ _ _ _ _ _ _ _ => rfl⟩

/-- A call with usable arguments throws only where no state is reached by the sample. -/
theorem Holds.call (h : Holds n v b) {op : BackendOp R} (hsize : op.size = none)
    (hop : op.ArgumentsOk n) :
    Call.Post op.run b (fun _ b' => exists v', Holds n v' b')
      (fun e b' => op.MayThrow e.kind ∧ exists v', Holds n v' b') := by
  have hvalid : op.ValidOn n 1 := by
    cases op with
    | sampleMeasurement rnd => trivial
    | printNonZeroStates epsilon => trivial
    | _ => exact hop.2
  have hspec : Refines Exc.kind storesVector.Stores op.run (op.spec StateVector.blockGate)
      (some { numQubits := n, amplitudes := v, depth := 1 }) b :=
    StoresVector.refines_call hsize h hvalid (accepts op)
  have hstored : forall b', storesVector.Stores
      (op.spec StateVector.blockGate
        (some { numQubits := n, amplitudes := v, depth := 1 })).2 b' ->
      exists v', Holds n v' b' := by
    intro b' hb'
    unfold BackendOp.spec at hb'
    rw [hsize] at hb'
    exact ⟨_, hb'⟩
  have hanswer : (op.spec StateVector.blockGate
      (some { numQubits := n, amplitudes := v, depth := 1 })).1 =
      LogicalState.answer { numQubits := n, amplitudes := v, depth := 1 } op := by
    unfold BackendOp.spec
    rw [hsize]
  rcases hspec with ⟨hout, hrep⟩
  rw [hanswer] at hout
  unfold Call.Post
  rcases hrun : op.run b with ⟨r, b'⟩
  rw [hrun] at hout hrep
  cases r with
  | ok a => exact hstored b' hrep
  | error e =>
      refine ⟨?_, hstored b' hrep⟩
      cases op with
      | sampleMeasurement rnd =>
          have hrange : ¬ (rnd < 0 ∨ rnd ≥ 1) := by
            rintro (hneg | hlarge)
            · exact absurd hop.1 (not_le.mpr hneg)
            · exact absurd hop.2 (not_lt.mpr hlarge)
          simp only [LogicalState.answer, StateVector.sample, if_neg hrange] at hout
          split at hout
          · cases hout
          · exact Except.error.inj hout
      | printNonZeroStates epsilon =>
          have heps : ¬ epsilon < 0 := not_lt.mpr hop
          simp only [LogicalState.answer, StateVector.print, if_neg heps] at hout
          cases hout
      | _ => cases hout

def checksArguments : ChecksArguments (R := R) (DenseStateBackend R) where
  Ready n b := exists v, Holds n v b
  Size _ := True
  bound h := by
    rcases h with ⟨v, hv⟩
    exact ⟨hv.qubits, trivial⟩
  init := by
    intro op n b hsize hvalid _
    have hspec : Refines Exc.kind storesVector.Stores op.run (op.spec StateVector.blockGate) none b :=
      StoresVector.refines_init hsize hvalid (accepts op) none b
    unfold BackendOp.spec at hspec
    rw [hsize] at hspec
    rcases hspec with ⟨hout, hrep⟩
    unfold Does Call.Post
    rcases hrun : op.run b with ⟨r, b'⟩
    rw [hrun] at hout hrep
    cases r with
    | ok a => exact ⟨_, hrep⟩
    | error e => cases hout
  call := by
    rintro op n b ⟨v, hv⟩ hsize hop
    exact hv.call hsize hop
  rejects := by
    rintro op n b ⟨v, hv⟩ hsize hop
    exact hv.rejects hsize hop
  clone h := h

end DenseStateBackend

end Tmfqs
