import Tmfqs.Storage.IStateBackend

/-!
# The dense backend

`storage/dense/dense_state_backend.cpp`: the full state vector in one buffer.
The last section shows that it stores a state vector.
-/

namespace Tmfqs

open Library

structure DenseStateBackend (R : Type) where
  numQubits : Nat
  numStates : Nat
  amplitudes : List R
deriving DecidableEq, Repr

namespace DenseStateBackend

variable {R : Type} [Field R] [LinearOrder R] [CMath R]

def make : DenseStateBackend R :=
  { numQubits := 0
    numStates := 0
    amplitudes := [] }

def putAmplitudes (b : DenseStateBackend R) (amplitudes : List R) : DenseStateBackend R :=
  { b with amplitudes := amplitudes }

def ensureInitialized (operation : String) : Call (DenseStateBackend R) Unit := do
  let b <- get
  ensureBackendInitialized (b.numStates > 0 ∧ !b.amplitudes.isEmpty) "DenseStateBackend" operation

def validateState (state : Nat) (scopeName : String) : Call (DenseStateBackend R) Unit := do
  let b <- get
  validateStateIndex scopeName state b.numStates

def validateSingleQubitOperation (qubit : Nat) (scopeName : String) :
    Call (DenseStateBackend R) Unit := do
  ensureInitialized scopeName
  let b <- get
  validateQubitIndex scopeName qubit b.numQubits

def validateTwoQubitOperation (q0 q1 : Nat) (scopeName : String) :
    Call (DenseStateBackend R) Unit := do
  ensureInitialized scopeName
  let b <- get
  validateBackendTwoQubits scopeName q0 q1 b.numQubits

def pairCallback (pairFn : PairKernel R) (state0 state1 : Nat) :
    Call (DenseStateBackend R) PUnit :=
  modify fun b =>
    let r := pairFn state0 state1 (ampAt b.amplitudes state0) (ampAt b.amplitudes state1)
    b.putAmplitudes (setAmp (setAmp b.amplitudes state0 r.2.1) state1 r.2.2)

def runPairKernel (targetMask : Nat) (pairFn : PairKernel R) :
    Call (DenseStateBackend R) PUnit := do
  let b <- get
  PairKernelExecutor.runFallback b.numStates targetMask (pairCallback pairFn)

/-!
## Initialisation
-/

def setSize (numQubits : Nat) : Call (DenseStateBackend R) Unit := do
  modify fun b => { b with numQubits := numQubits }
  let stateCount <- checkedStateCount numQubits
  modify fun b => { b with numStates := u32 stateCount }

def initZero (numQubits : Nat) : Call (DenseStateBackend R) Unit := do
  setSize numQubits
  let count <- checkedAmplitudeElementCount numQubits
  modify fun b => b.putAmplitudes (List.replicate count 0)

def initBasis (numQubits initState : Nat) (amp : Amplitude R) :
    Call (DenseStateBackend R) Unit := do
  initZero numQubits
  validateState initState "DenseStateBackend::initBasis"
  modify fun b => b.putAmplitudes (setAmp b.amplitudes initState amp)

def initUniformSuperposition (numQubits : Nat) (basisStates : List Nat) :
    Call (DenseStateBackend R) Unit := do
  initZero numQubits
  basisStates.forM fun state =>
    validateState state "DenseStateBackend::initUniformSuperposition"
  let selected := selectedStates basisStates
  if selected.isEmpty then
    throw (invalidArgument
      "DenseStateBackend::initUniformSuperposition requires at least one state")
  modify fun b => b.putAmplitudes
    (selected.foldl (fun v state => setAmp v state (uniformAmplitude selected.length))
      b.amplitudes)

def loadAmplitudes (numQubits : Nat) (amplitudes : List R) :
    Call (DenseStateBackend R) Unit := do
  setSize numQubits
  let count <- checkedAmplitudeElementCount numQubits
  if amplitudes.length ≠ count then
    throw (invalidArgument "DenseStateBackend: amplitudes size mismatch")
  modify fun b => b.putAmplitudes amplitudes

/-!
## Queries
-/

def exportAmplitudes : Call (DenseStateBackend R) (List R) := do
  ensureInitialized "amplitude export"
  let b <- get
  pure b.amplitudes

def forEachAmplitudeChunk : Call (DenseStateBackend R) (List (Nat × List R)) := do
  ensureInitialized "amplitude chunk iteration"
  let b <- get
  pure [(0, b.amplitudes)]

def amplitude (state : Nat) : Call (DenseStateBackend R) (Amplitude R) := do
  ensureInitialized "amplitude query"
  validateState state "DenseStateBackend::amplitude"
  let b <- get
  pure (ampAt b.amplitudes state)

def probability (state : Nat) : Call (DenseStateBackend R) R := do
  let amp <- amplitude state
  pure (amp.real * amp.real + amp.imag * amp.imag)

def totalProbability : Call (DenseStateBackend R) R := do
  ensureInitialized "total probability query"
  let b <- get
  pure ((amplitudesOf b.amplitudes).foldl
    (fun sum amp => sum + (amp.real * amp.real + amp.imag * amp.imag)) 0)

def sampleMeasurement (rnd : R) : Call (DenseStateBackend R) Nat := do
  ensureInitialized "measurement"
  if rnd < 0 ∨ rnd ≥ 1 then
    throw (invalidArgument "DenseStateBackend::sampleMeasurement requires rnd in [0,1)")
  let b <- get
  let probabilities := ((amplitudesOf b.amplitudes).take b.numStates).map fun amp =>
    amp.real * amp.real + amp.imag * amp.imag
  match (searchCumulative rnd 0 probabilities).1 with
  | some state => pure state
  | none =>
      throw (runtimeError
        "DenseStateBackend::sampleMeasurement cumulative probability did not reach sample")

def printNonZeroStates (epsilon : R) :
    Call (DenseStateBackend R) (List (Nat × Amplitude R)) := do
  ensureInitialized "state printing"
  if epsilon < 0 then
    throw (invalidArgument "DenseStateBackend::printNonZeroStates epsilon must be non-negative")
  let b <- get
  pure (((List.range b.numStates).map fun state => (state, ampAt b.amplitudes state)).filter
    fun line => |line.2.real| > epsilon ∨ |line.2.imag| > epsilon)

/-!
## Mutations
-/

def setAmplitude (state : Nat) (amp : Amplitude R) : Call (DenseStateBackend R) Unit := do
  ensureInitialized "state update"
  validateState state "DenseStateBackend::setAmplitude"
  modify fun b => b.putAmplitudes (setAmp b.amplitudes state amp)

def phaseFlipBasisState (state : Nat) : Call (DenseStateBackend R) Unit := do
  ensureInitialized "basis-state phase flip"
  validateState state "DenseStateBackend::phaseFlipBasisState"
  modify fun b => b.putAmplitudes
    (setAmp b.amplitudes state
      { real := -(ampAt b.amplitudes state).real
        imag := -(ampAt b.amplitudes state).imag })

def inversionAboutMeanWith (mean : Amplitude R) : Call (DenseStateBackend R) Unit := do
  ensureInitialized "inversion about mean"
  modify fun b => b.putAmplitudes
    (mapAmplitudes (fun amp =>
      { real := 2 * mean.real - amp.real
        imag := 2 * mean.imag - amp.imag }) b.amplitudes)

def inversionAboutMean : Call (DenseStateBackend R) Unit := do
  ensureInitialized "inversion about mean"
  let b <- get
  let sum := (amplitudesOf b.amplitudes).foldl Amplitude.add Amplitude.zero
  inversionAboutMeanWith
    { real := sum.real / (b.numStates : R)
      imag := sum.imag / (b.numStates : R) }

def applyAffineTransform (scale bias : Amplitude R) : Call (DenseStateBackend R) Unit := do
  ensureInitialized "affine transform"
  modify fun b => b.putAmplitudes
    (mapAmplitudes (fun amp =>
      { real := scale.real * amp.real - scale.imag * amp.imag + bias.real
        imag := scale.real * amp.imag + scale.imag * amp.real + bias.imag }) b.amplitudes)

def applyHadamard (qubit : Nat) : Call (DenseStateBackend R) Unit := do
  validateSingleQubitOperation qubit "DenseStateBackend::applyHadamard"
  let b <- get
  runPairKernel (qubitMaskFromMsbIndex qubit b.numQubits) hadamardPair

def applyPauliX (qubit : Nat) : Call (DenseStateBackend R) Unit := do
  validateSingleQubitOperation qubit "DenseStateBackend::applyPauliX"
  let b <- get
  runPairKernel (qubitMaskFromMsbIndex qubit b.numQubits) pauliXPair

def applyControlledPhaseShift (controlQubit targetQubit : Nat) (theta : R) :
    Call (DenseStateBackend R) Unit := do
  validateTwoQubitOperation controlQubit targetQubit
    "DenseStateBackend::applyControlledPhaseShift"
  let b <- get
  runPairKernel (qubitMaskFromMsbIndex targetQubit b.numQubits)
    (controlledPhaseShiftPair (qubitMaskFromMsbIndex controlQubit b.numQubits) theta)

def applyControlledNot (controlQubit targetQubit : Nat) : Call (DenseStateBackend R) Unit := do
  validateTwoQubitOperation controlQubit targetQubit "DenseStateBackend::applyControlledNot"
  let b <- get
  runPairKernel (qubitMaskFromMsbIndex targetQubit b.numQubits)
    (controlledNotPair (qubitMaskFromMsbIndex controlQubit b.numQubits))

def applyGate (gate : QuantumGate R) (qubits : List Nat) :
    Call (DenseStateBackend R) Unit := do
  ensureInitialized "gate application"
  let b <- get
  Call.focus DenseStateBackend.amplitudes putAmplitudes
    (GateApplyEngine.apply "DenseStateBackend::applyGate" gate qubits b.numQubits
      loadState storeState)

instance : IStateBackend R (DenseStateBackend R) where
  clone b := b
  initZero := initZero
  initBasis := initBasis
  initUniformSuperposition := initUniformSuperposition
  loadAmplitudes := loadAmplitudes
  exportAmplitudes := exportAmplitudes
  forEachAmplitudeChunk := forEachAmplitudeChunk
  amplitude := amplitude
  setAmplitude := setAmplitude
  probability := probability
  totalProbability := totalProbability
  sampleMeasurement := sampleMeasurement
  printNonZeroStates := printNonZeroStates
  phaseFlipBasisState := phaseFlipBasisState
  inversionAboutMean := inversionAboutMean
  inversionAboutMeanWith := inversionAboutMeanWith
  applyAffineTransform := applyAffineTransform
  applyHadamard := applyHadamard
  applyPauliX := applyPauliX
  applyControlledPhaseShift := applyControlledPhaseShift
  applyControlledNot := applyControlledNot
  applyGate := applyGate
  beginOperationBatch := pure ()
  endOperationBatch := pure ()

end DenseStateBackend

end Tmfqs
