import Tmfqs.Model.StateVector

/-!
# The storage backend interface

`IStateBackend` of `storage/i_state_backend.h`.  Queries are calls as well: the
compressed backend changes its cache behind `const`.
-/

namespace Tmfqs

open Library

/--
The virtual functions of a backend with state `β`.  `forEachAmplitudeChunk`
returns the visitor calls in order, and `printNonZeroStates` the printed lines.
-/
class IStateBackend (R : outParam Type) (β : Type) where
  clone : β -> β
  initZero : Nat -> Call β Unit
  initBasis : Nat -> Nat -> Amplitude R -> Call β Unit
  initUniformSuperposition : Nat -> List Nat -> Call β Unit
  loadAmplitudes : Nat -> List R -> Call β Unit
  exportAmplitudes : Call β (List R)
  forEachAmplitudeChunk : Call β (List (Nat × List R))
  amplitude : Nat -> Call β (Amplitude R)
  setAmplitude : Nat -> Amplitude R -> Call β Unit
  probability : Nat -> Call β R
  totalProbability : Call β R
  sampleMeasurement : R -> Call β Nat
  printNonZeroStates : R -> Call β (List (Nat × Amplitude R))
  phaseFlipBasisState : Nat -> Call β Unit
  inversionAboutMean : Call β Unit
  inversionAboutMeanWith : Amplitude R -> Call β Unit
  applyAffineTransform : Amplitude R -> Amplitude R -> Call β Unit
  applyHadamard : Nat -> Call β Unit
  applyPauliX : Nat -> Call β Unit
  applyControlledPhaseShift : Nat -> Nat -> R -> Call β Unit
  applyControlledNot : Nat -> Nat -> Call β Unit
  applyGate : QuantumGate R -> List Nat -> Call β Unit
  beginOperationBatch : Call β Unit
  endOperationBatch : Call β Unit

/-!
## Backends that store a state vector
-/

/-- The call does not throw and leaves the backend in a state that meets `Q`. -/
def Does {β α : Type} (call : Call β α) (b : β) (Q : β -> Prop) : Prop :=
  Call.Post call b (fun _ b' => Q b') (fun _ _ => False)

/-- The call returns or throws as `answer` says and keeps `Q`. -/
def Answers {β α : Type} (call : Call β α) (b : β) (answer : Except ExcKind α)
    (Q : β -> Prop) : Prop :=
  Call.Post call b (fun a b' => answer = .ok a ∧ Q b') (fun e b' => answer = .error e.kind ∧ Q b')

theorem Answers.outcome {β α : Type} {call : Call β α} {b : β} {answer : Except ExcKind α}
    {Q : β -> Prop} (h : Answers call b answer Q) :
    (call b).1.mapError Exc.kind = answer := by
  unfold Answers Call.Post at h
  rcases hrun : call b with ⟨r, b'⟩
  rw [hrun] at h
  cases r with
  | ok a => exact h.1.symm
  | error e => exact h.1.symm

/-- The visitor calls cut `v` into consecutive intervals of states from `base` on. -/
def IsChunking {R : Type} : Nat -> List (Nat × List R) -> List R -> Prop
  | _, [], v => v = []
  | base, (begin_, data) :: rest, v =>
      begin_ = base ∧ data.length % 2 = 0 ∧
        exists tail, v = data ++ tail ∧ IsChunking (base + data.length / 2) rest tail

/--
A backend that stores a state vector: `Rep n v depth b` says that `b` holds the
amplitudes `v` of `n` qubits and has `depth` open batches.
-/
structure StoresVector {R : Type} [Field R] [LinearOrder R] [CMath R] (β : Type)
    [IStateBackend R β] where
  Rep : Nat -> List R -> Nat -> β -> Prop
  /-- The sizes the backend can be initialised with. -/
  Size : Nat -> Prop
  /-- What `applyGate` does to the vector. -/
  gate : QuantumGate R -> List Nat -> Nat -> List R -> List R
  bound : forall {n v d b}, Rep n v d b -> n ≤ 31 ∧ Size n ∧ v.length = 2 * 2 ^ n
  length_gate : forall {g qubits n v}, n ≤ 31 -> ValidTargets qubits n g.dimension ->
    v.length = 2 * 2 ^ n -> (gate g qubits n v).length = 2 * 2 ^ n
  initZero : forall {n b}, n ≤ 31 -> Size n ->
    Does (IStateBackend.initZero n) b (Rep n (StateVector.zero n) 0)
  initBasis : forall {n s a b}, n ≤ 31 -> Size n -> s < 2 ^ n ->
    Does (IStateBackend.initBasis n s a) b (Rep n (StateVector.basis n s a) 0)
  initUniformSuperposition : forall {n states b}, n ≤ 31 -> Size n -> states ≠ [] ->
    (forall s, s ∈ states -> s < 2 ^ n) ->
    Does (IStateBackend.initUniformSuperposition n states) b
      (Rep n (StateVector.uniform n states) 0)
  loadAmplitudes : forall {n amplitudes b}, n ≤ 31 -> Size n ->
    amplitudes.length = 2 * 2 ^ n ->
    Does (IStateBackend.loadAmplitudes n amplitudes) b (Rep n amplitudes 0)
  exportAmplitudes : forall {n v d b}, Rep n v d b ->
    Answers IStateBackend.exportAmplitudes b (.ok v) (Rep n v d)
  forEachAmplitudeChunk : forall {n v d b}, Rep n v d b ->
    Call.Post IStateBackend.forEachAmplitudeChunk b
      (fun chunks b' => IsChunking 0 chunks v ∧ Rep n v d b') (fun _ _ => False)
  amplitude : forall {n v d b s}, Rep n v d b -> s < 2 ^ n ->
    Answers (IStateBackend.amplitude s) b (.ok (ampAt v s)) (Rep n v d)
  setAmplitude : forall {n v d b s a}, Rep n v d b -> s < 2 ^ n ->
    Does (IStateBackend.setAmplitude s a) b (Rep n (setAmp v s a) d)
  probability : forall {n v d b s}, Rep n v d b -> s < 2 ^ n ->
    Answers (IStateBackend.probability s) b (.ok (ampAt v s).probability) (Rep n v d)
  totalProbability : forall {n v d b}, Rep n v d b ->
    Answers IStateBackend.totalProbability b (.ok (StateVector.totalProbability v)) (Rep n v d)
  sampleMeasurement : forall {n v d b rnd}, Rep n v d b ->
    Answers (IStateBackend.sampleMeasurement rnd) b (StateVector.sample rnd v) (Rep n v d)
  printNonZeroStates : forall {n v d b epsilon}, Rep n v d b ->
    Answers (IStateBackend.printNonZeroStates epsilon) b (StateVector.print epsilon v) (Rep n v d)
  phaseFlipBasisState : forall {n v d b s}, Rep n v d b -> s < 2 ^ n ->
    Does (IStateBackend.phaseFlipBasisState s) b (Rep n (StateVector.phaseFlip v s) d)
  inversionAboutMean : forall {n v d b}, Rep n v d b ->
    Does IStateBackend.inversionAboutMean b
      (Rep n (StateVector.reflect (StateVector.mean n v) v) d)
  inversionAboutMeanWith : forall {n v d b mean}, Rep n v d b ->
    Does (IStateBackend.inversionAboutMeanWith mean) b (Rep n (StateVector.reflect mean v) d)
  applyAffineTransform : forall {n v d b scale bias}, Rep n v d b ->
    Does (IStateBackend.applyAffineTransform scale bias) b
      (Rep n (StateVector.affine scale bias v) d)
  applyHadamard : forall {n v d b q}, Rep n v d b -> q < n ->
    Does (IStateBackend.applyHadamard q) b (Rep n (StateVector.hadamard n q v) d)
  applyPauliX : forall {n v d b q}, Rep n v d b -> q < n ->
    Does (IStateBackend.applyPauliX q) b (Rep n (StateVector.pauliX n q v) d)
  applyControlledPhaseShift : forall {n v d b control target theta}, Rep n v d b ->
    control < n -> target < n -> control ≠ target ->
    Does (IStateBackend.applyControlledPhaseShift control target theta) b
      (Rep n (StateVector.controlledPhaseShift n control target theta v) d)
  applyControlledNot : forall {n v d b control target}, Rep n v d b ->
    control < n -> target < n -> control ≠ target ->
    Does (IStateBackend.applyControlledNot control target) b
      (Rep n (StateVector.controlledNot n control target v) d)
  applyGate : forall {n v d b g qubits}, Rep n v d b -> ValidTargets qubits n g.dimension ->
    Does (IStateBackend.applyGate g qubits) b (Rep n (gate g qubits n v) d)
  beginOperationBatch : forall {n v d b}, Rep n v d b ->
    Does IStateBackend.beginOperationBatch b (Rep n v (d + 1))
  endOperationBatch : forall {n v d b}, Rep n v (d + 1) b ->
    Does IStateBackend.endOperationBatch b (Rep n v d)

end Tmfqs
