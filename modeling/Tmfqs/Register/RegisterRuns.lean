import Tmfqs.Register.QuantumRegister
import Tmfqs.Storage.BackendRuns

/-!
# Runs of register operations

The operations of a register, the arguments it accepts, and an eager register that
stores the plain amplitude vector and recomputes every mean.
-/

namespace Tmfqs

open Library

inductive RegisterOp (R : Type) where
  | setAmplitude (state : Nat) (amp : Amplitude R)
  | loadAmplitudes (amplitudes : List R)
  | initUniformSuperposition (basisStates : List Nat)
  | applyGate (gate : QuantumGate R) (qubits : List Nat)
  | applyPhaseFlipBasisState (state : Nat)
  | applyInversionAboutMean
  | applyInversionAboutMeanWith (mean : Amplitude R)
  | applyInversionAboutMeanMaterialized
  | applyInversionAboutMeanMaterializedWith (mean : Amplitude R)
  | applyHadamard (qubit : Nat)
  | applyPauliX (qubit : Nat)
  | applyControlledPhaseShift (controlQubit targetQubit : Nat) (theta : R)
  | applyControlledNot (controlQubit targetQubit : Nat)
  | applySwap (qubit1 qubit2 : Nat)
  | beginOperationBatch
  | endOperationBatch
  | amplitude (state : Nat)
  | probability (state : Nat)
  | totalProbability
  | amplitudes
  | measure (rnd : R)
  | stream
  | printStatesVector (epsilon : R)

namespace RegisterOp

variable {R : Type}

section Run

variable {β : Type} [Field R] [LinearOrder R] [IStateBackend R β]

def run : RegisterOp R -> Call (QuantumRegister R β) (Answer R)
  | setAmplitude s amp => BackendOp.command (QuantumRegister.setAmplitude s amp)
  | loadAmplitudes data => BackendOp.command (QuantumRegister.loadAmplitudes data)
  | initUniformSuperposition states =>
      BackendOp.command (QuantumRegister.initUniformSuperposition states)
  | applyGate gate qubits => BackendOp.command (QuantumRegister.applyGate gate qubits)
  | applyPhaseFlipBasisState s =>
      BackendOp.command (QuantumRegister.applyPhaseFlipBasisState s)
  | applyInversionAboutMean => BackendOp.command QuantumRegister.applyInversionAboutMean
  | applyInversionAboutMeanWith mean =>
      BackendOp.command (QuantumRegister.applyInversionAboutMeanWith mean)
  | applyInversionAboutMeanMaterialized =>
      BackendOp.command QuantumRegister.applyInversionAboutMeanMaterialized
  | applyInversionAboutMeanMaterializedWith mean =>
      BackendOp.command (QuantumRegister.applyInversionAboutMeanMaterializedWith mean)
  | applyHadamard q => BackendOp.command (QuantumRegister.applyHadamard q)
  | applyPauliX q => BackendOp.command (QuantumRegister.applyPauliX q)
  | applyControlledPhaseShift c q theta =>
      BackendOp.command (QuantumRegister.applyControlledPhaseShift c q theta)
  | applyControlledNot c q => BackendOp.command (QuantumRegister.applyControlledNot c q)
  | applySwap a b => BackendOp.command (QuantumRegister.applySwap a b)
  | beginOperationBatch => BackendOp.command QuantumRegister.beginOperationBatch
  | endOperationBatch => BackendOp.command QuantumRegister.endOperationBatch
  | amplitude s => BackendOp.query .amplitude (QuantumRegister.amplitude s)
  | probability s => BackendOp.query .value (QuantumRegister.probability s)
  | totalProbability => BackendOp.query .value QuantumRegister.totalProbability
  | amplitudes => BackendOp.query .amplitudes QuantumRegister.amplitudes
  | measure rnd => BackendOp.query .state (QuantumRegister.measure rnd)
  | stream => BackendOp.query .lines QuantumRegister.stream
  | printStatesVector epsilon =>
      BackendOp.query .lines (QuantumRegister.printStatesVector epsilon)

end Run

/--
The arguments a register of `n` qubits accepts.  A random source draws numbers from
`[0, 1)`.
-/
def Valid [Field R] [LinearOrder R] (n : Nat) : RegisterOp R -> Prop
  | setAmplitude s _ => s < 2 ^ n
  | loadAmplitudes data => data.length = 2 * 2 ^ n
  | initUniformSuperposition states => states ≠ [] ∧ forall s, s ∈ states -> s < 2 ^ n
  | applyGate gate qubits => ValidTargets qubits n gate.dimension
  | applyPhaseFlipBasisState s => s < 2 ^ n
  | applyHadamard q => q < n
  | applyPauliX q => q < n
  | applyControlledPhaseShift c q _ => c < n ∧ q < n ∧ c ≠ q
  | applyControlledNot c q => c < n ∧ q < n ∧ c ≠ q
  | applySwap a b => a < n ∧ b < n ∧ a ≠ b
  | amplitude s => s < 2 ^ n
  | probability s => s < 2 ^ n
  | measure rnd => 0 ≤ rnd ∧ rnd < 1
  | _ => True

end RegisterOp

/-!
## The eager register
-/

/-- What an eager register leaves to its storage. -/
structure EagerRules (R : Type) where
  gate : QuantumGate R -> List Nat -> Nat -> List R -> List R
  /-- The answer to closing a batch when the storage has none open. -/
  unmatchedEnd : Except ExcKind (Answer R)

namespace LogicalState

variable {R : Type} [Field R] [LinearOrder R] [CMath R]

def eagerVector (rules : EagerRules R) (L : LogicalState R) : RegisterOp R -> List R
  | .setAmplitude s amp => setAmp L.amplitudes s amp
  | .loadAmplitudes data => data
  | .initUniformSuperposition states => StateVector.uniform L.numQubits states
  | .applyGate gate qubits => rules.gate gate qubits L.numQubits L.amplitudes
  | .applyPhaseFlipBasisState s => StateVector.phaseFlip L.amplitudes s
  | .applyInversionAboutMean =>
      StateVector.reflect (StateVector.mean L.numQubits L.amplitudes) L.amplitudes
  | .applyInversionAboutMeanWith mean => StateVector.reflect mean L.amplitudes
  | .applyInversionAboutMeanMaterialized =>
      StateVector.reflect (StateVector.mean L.numQubits L.amplitudes) L.amplitudes
  | .applyInversionAboutMeanMaterializedWith mean => StateVector.reflect mean L.amplitudes
  | .applyHadamard q => StateVector.hadamard L.numQubits q L.amplitudes
  | .applyPauliX q => StateVector.pauliX L.numQubits q L.amplitudes
  | .applyControlledPhaseShift c q theta =>
      StateVector.controlledPhaseShift L.numQubits c q theta L.amplitudes
  | .applyControlledNot c q => StateVector.controlledNot L.numQubits c q L.amplitudes
  | .applySwap a b => StateVector.swap L.numQubits a b L.amplitudes
  | _ => L.amplitudes

/-- The batches the storage has open after a register operation. -/
def eagerDepth (L : LogicalState R) : RegisterOp R -> Nat
  | .loadAmplitudes _ => 0
  | .initUniformSuperposition _ => 0
  | .beginOperationBatch => L.depth + 1
  | .endOperationBatch => L.depth - 1
  | _ => L.depth

def eagerAnswer (rules : EagerRules R) (L : LogicalState R) :
    RegisterOp R -> Except ExcKind (Answer R)
  | .endOperationBatch => if L.depth = 0 then rules.unmatchedEnd else .ok .done
  | .amplitude s => .ok (.amplitude (ampAt L.amplitudes s))
  | .probability s => .ok (.value (ampAt L.amplitudes s).probability)
  | .totalProbability => .ok (.value (StateVector.totalProbability L.amplitudes))
  | .amplitudes => .ok (.amplitudes L.amplitudes)
  | .measure rnd => (StateVector.sample rnd L.amplitudes).map .state
  | .stream =>
      (StateVector.print QuantumRegister.kDefaultPrintEpsilon L.amplitudes).map .lines
  | .printStatesVector epsilon => (StateVector.print epsilon L.amplitudes).map .lines
  | _ => .ok .done

end LogicalState

def RegisterOp.spec {R : Type} [Field R] [LinearOrder R] [CMath R] (rules : EagerRules R)
    (op : RegisterOp R) : Library.Call ExcKind (LogicalState R) (Answer R) :=
  fun L =>
    (L.eagerAnswer rules op,
      { numQubits := L.numQubits
        amplitudes := L.eagerVector rules op
        depth := L.eagerDepth op })

end Tmfqs
