import Tmfqs.Circuit.Circuit
import Tmfqs.State.QuantumState

/-!
# The simulator

`sim/simulator.cpp`: a circuit is run operation by operation inside one batch.  The
run report and the timings are left out.
-/

namespace Tmfqs

open Library

namespace Simulator

variable {R β : Type} [Field R] [LinearOrder R] [IStateBackend R β]

def executeOperation : Operation R -> Call (QuantumRegister R β) Unit
  | .hadamard target => QuantumRegister.applyHadamard target
  | .pauliX target => QuantumRegister.applyPauliX target
  | .controlledNot control target => QuantumRegister.applyControlledNot control target
  | .controlledPhaseShift control target theta =>
      QuantumRegister.applyControlledPhaseShift control target theta
  | .swap first second => QuantumRegister.applySwap first second
  | .matrixGate gate targets => QuantumRegister.applyGate gate targets
  | .phaseFlipBasisState state => QuantumRegister.applyPhaseFlipBasisState state
  | .inversionAboutMean materialized =>
      if materialized then
        QuantumRegister.applyInversionAboutMeanMaterialized
      else
        QuantumRegister.applyInversionAboutMean

def runOperations (operations : List (Operation R)) : Call (QuantumRegister R β) Unit := do
  operations.forM executeOperation
  QuantumRegister.endOperationBatch

/--
The handler around the block: an exception closes the batch once more, whether that
throws or not, and is thrown again.
-/
def closingBatch (block : Call (QuantumRegister R β) Unit) : Call (QuantumRegister R β) Unit :=
  fun reg =>
    match block reg with
    | (.ok _, reg') => (.ok (), reg')
    | (.error e, reg') => (.error e, (QuantumRegister.endOperationBatch reg').2)

def runBatch (operations : List (Operation R)) : Call (QuantumRegister R β) Unit := do
  QuantumRegister.beginOperationBatch
  closingBatch (runOperations operations)

def run (selected : β) (circuit : Circuit R) (initialState : QuantumState R β) :
    Except Exc (QuantumState R β) :=
  if circuit.qubits ≠ initialState.qubits then
    .error (invalidArgument "Circuit and initial state qubit counts differ")
  else
    match initialState.materialize selected with
    | .error e => .error e
    | .ok reg =>
        match runBatch circuit.operations reg with
        | (.ok _, reg') => .ok (QuantumState.fromRegister reg')
        | (.error e, _) => .error e

end Simulator

end Tmfqs
