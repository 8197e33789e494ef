import Tmfqs.Sim.Simulator
import Tmfqs.State.DenseStates

/-!
# Runs of circuits

A circuit on a register does to the represented vector what its operations do to a
plain vector, one after the other.
-/

namespace Tmfqs

open Library

namespace Operation

variable {R : Type}

def registerOp : Operation R -> RegisterOp R
  | hadamard target => .applyHadamard target
  | pauliX target => .applyPauliX target
  | controlledNot control target => .applyControlledNot control target
  | controlledPhaseShift control target theta =>
      .applyControlledPhaseShift control target theta
  | swap first second => .applySwap first second
  | matrixGate gate targets => .applyGate gate targets
  | phaseFlipBasisState state => .applyPhaseFlipBasisState state
  | inversionAboutMean materialized =>
      if materialized then .applyInversionAboutMeanMaterialized else .applyInversionAboutMean

def Valid [Field R] [LinearOrder R] (n : Nat) (op : Operation R) : Prop :=
  op.registerOp.Valid n

/-- The operation without its choice of inversion. -/
def unmaterialized : Operation R -> Operation R
  | inversionAboutMean _ => inversionAboutMean false
  | op => op

variable [Field R] [LinearOrder R] [CMath R]

def apply (n : Nat) (v : List R) : Operation R -> List R
  | hadamard target => StateVector.hadamard n target v
  | pauliX target => StateVector.pauliX n target v
  | controlledNot control target => StateVector.controlledNot n control target v
  | controlledPhaseShift control target theta =>
      StateVector.controlledPhaseShift n control target theta v
  | swap first second => StateVector.swap n first second v
  | matrixGate gate targets => StateVector.blockGate gate targets n v
  | phaseFlipBasisState state => StateVector.phaseFlip v state
  | inversionAboutMean _ => StateVector.reflect (StateVector.mean n v) v

theorem apply_unmaterialized (n : Nat) (v : List R) (op : Operation R) :
    op.unmaterialized.apply n v = op.apply n v := by
  cases op <;> rfl

def applyAll (n : Nat) (ops : List (Operation R)) (v : List R) : List R :=
  ops.foldl (apply n) v

@[simp] theorem applyAll_nil (n : Nat) (v : List R) : applyAll n [] v = v := rfl

@[simp] theorem applyAll_cons (n : Nat) (op : Operation R) (ops : List (Operation R)) (v : List R) :
    applyAll n (op :: ops) v = applyAll n ops (op.apply n v) := rfl

theorem applyAll_append (n : Nat) (ops ops' : List (Operation R)) (v : List R) :
    applyAll n (ops ++ ops') v = applyAll n ops' (applyAll n ops v) :=
  List.foldl_append

theorem applyAll_unmaterialized (n : Nat) (ops : List (Operation R)) :
    forall v : List R, applyAll n (ops.map unmaterialized) v = applyAll n ops v := by
  induction ops with
  | nil =>
      intro v
      rfl
  | cons op rest ih =>
      intro v
      rw [List.map_cons, applyAll_cons, applyAll_cons, apply_unmaterialized, ih]

theorem length_apply {n : Nat} (hn : n ≤ 31) {v : List R} (hv : v.length = 2 * 2 ^ n)
    {op : Operation R} (hvalid : op.Valid n) : (op.apply n v).length = 2 * 2 ^ n := by
  cases op with
  | matrixGate gate targets => exact StateVector.length_blockGate hn hvalid hv
  | _ =>
      simp [apply, StateVector.hadamard, StateVector.pauliX, StateVector.controlledNot,
        StateVector.controlledPhaseShift, StateVector.swap, hv]

theorem length_applyAll {n : Nat} (hn : n ≤ 31) {ops : List (Operation R)}
    (hvalid : forall op, op ∈ ops -> op.Valid n) :
    forall {v : List R}, v.length = 2 * 2 ^ n -> (applyAll n ops v).length = 2 * 2 ^ n := by
  induction ops with
  | nil =>
      intro v hv
      exact hv
  | cons op rest ih =>
      intro v hv
      exact ih (fun op' hop' => hvalid op' (List.mem_cons_of_mem op hop'))
        (length_apply hn hv (hvalid op List.mem_cons_self))

end Operation

namespace Simulator

open QuantumRegister

variable {R : Type} [Field R] [LinearOrder R] [CMath R] {β : Type} [IStateBackend R β]
  {sv : StoresVector (R := R) β} {n depth : Nat} {v : List R} {r : QuantumRegister R β}

theorem does_executeOperation (hgate : sv.gate = StateVector.blockGate)
    (h : Lazy sv n v depth r) {op : Operation R} (hvalid : op.Valid n) :
    Does (executeOperation op) r (Lazy sv n (op.apply n v) depth) := by
  cases op with
  | hadamard target => exact does_applyHadamard h hvalid
  | pauliX target => exact does_applyPauliX h hvalid
  | controlledNot control target =>
      exact does_applyControlledNot h hvalid.1 hvalid.2.1 hvalid.2.2
  | controlledPhaseShift control target theta =>
      exact does_applyControlledPhaseShift h hvalid.1 hvalid.2.1 hvalid.2.2 theta
  | swap first second => exact does_applySwap h hvalid.1 hvalid.2.1 hvalid.2.2
  | matrixGate gate targets =>
      have hdoes : Does (applyGate gate targets) r
          (Lazy sv n (sv.gate gate targets n v) depth) := does_applyGate h hvalid
      rw [hgate] at hdoes
      exact hdoes
  | phaseFlipBasisState state => exact does_applyPhaseFlipBasisState h hvalid
  | inversionAboutMean materialized =>
      cases materialized with
      | true => exact does_applyInversionAboutMeanMaterialized h
      | false => exact does_applyInversionAboutMean h

theorem does_operations (hgate : sv.gate = StateVector.blockGate) {ops : List (Operation R)}
    (hvalid : forall op, op ∈ ops -> op.Valid n) :
    forall {v : List R} {r : QuantumRegister R β}, Lazy sv n v depth r ->
      Does (ops.forM executeOperation) r (Lazy sv n (Operation.applyAll n ops v) depth) := by
  induction ops with
  | nil =>
      intro v r h
      exact h
  | cons op rest ih =>
      intro v r h
      change Call.Post (executeOperation op >>= fun _ => rest.forM executeOperation) r _ _
      rw [Call.post_bind_iff]
      refine (does_executeOperation hgate h (hvalid op List.mem_cons_self)).imp ?_
        (fun _ _ he => he)
      rintro _ r1 h1
      exact ih (fun op' hop' => hvalid op' (List.mem_cons_of_mem op hop')) h1

theorem does_runBatch (hgate : sv.gate = StateVector.blockGate) {ops : List (Operation R)}
    (hvalid : forall op, op ∈ ops -> op.Valid n) (h : Lazy sv n v depth r) :
    Does (runBatch ops) r (Lazy sv n (Operation.applyAll n ops v) depth) := by
  have hbegin : Does beginOperationBatch r (Lazy sv n v (depth + 1)) :=
    does_batch h fun _ hw => sv.beginOperationBatch hw
  rw [Does, runBatch, Call.post_bind_iff]
  refine hbegin.imp ?_ (fun _ _ he => he)
  rintro _ r1 h1
  have hrun : Does (runOperations ops) r1
      (Lazy sv n (Operation.applyAll n ops v) depth) := by
    rw [Does, runOperations, Call.post_bind_iff]
    refine (does_operations hgate hvalid h1).imp ?_ (fun _ _ he => he)
    rintro _ r2 h2
    exact does_batch h2 fun _ hw => sv.endOperationBatch hw
  obtain ⟨_, r2, hok, h2⟩ := Call.Post.exists_ok hrun
  rw [Call.Post, closingBatch, hok]
  exact h2

/-- A run on the dense backend ends in a state of the vector its operations compute. -/
theorem run_denotes {n : Nat} {v : List R} {initialState : QuantumState R (DenseStateBackend R)}
    (h : initialState.Denotes n v) {circuit : Circuit R} (hqubits : circuit.qubits = n)
    (hvalid : forall op, op ∈ circuit.operations -> op.Valid n) :
    exists finalState, run DenseStateBackend.make circuit initialState = .ok finalState ∧
      finalState.Denotes n (Operation.applyAll n circuit.operations v) := by
  obtain ⟨r, d, hr, hlazy⟩ := h.materialize
  obtain ⟨_, r', hrun, hlazy'⟩ := Call.Post.exists_ok (does_runBatch rfl hvalid hlazy)
  refine ⟨QuantumState.fromRegister r', ?_, QuantumState.Denotes.register hlazy'⟩
  rw [run, hqubits, h.qubits_eq, if_neg (fun hne => hne rfl), hr]
  simp only [hrun]

def circuitAmplitudes (operations : List (Operation R)) : Call (DenseRegister R) (List R) := do
  operations.forM executeOperation
  amplitudes

theorem circuitAmplitudes_eq {n d : Nat} {v : List R} {r : DenseRegister R}
    (h : Lazy DenseStateBackend.storesVector n v d r) {operations : List (Operation R)}
    (hvalid : forall op, op ∈ operations -> op.Valid n) :
    (circuitAmplitudes operations r).1 = .ok (Operation.applyAll n operations v) := by
  have hpost : Call.Post (circuitAmplitudes operations) r
      (fun data _ => data = Operation.applyAll n operations v) (fun _ _ => False) := by
    rw [circuitAmplitudes, Call.post_bind_iff]
    refine (does_operations rfl hvalid h).imp ?_ (fun _ _ he => he)
    rintro _ r1 h1
    refine (answers_amplitudes h1).imp ?_ ?_
    · rintro data _ ⟨hdata, _⟩
      exact (Except.ok.inj hdata).symm
    · rintro e _ ⟨he, _⟩
      cases he
  obtain ⟨data, r', hrun, rfl⟩ := hpost.exists_ok
  rw [hrun]

end Simulator

end Tmfqs
