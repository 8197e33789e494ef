import Tmfqs.Storage.IStateBackend

/-!
# The quantum register

`register/quantum_register.cpp`: a backend together with an affine overlay that is
applied lazily, and a cached sum of the amplitudes.  A register here always holds a
backend, so `requireInitialized` never throws: only a register that was moved from
has none.
-/

namespace Tmfqs

open Library

structure QuantumRegister (R β : Type) where
  numQubits : Nat
  numStates : Nat
  backend : β
  cachedLogicalAmplitudeSum : Option (Amplitude R)
  affineScale : Amplitude R
  affineBias : Amplitude R
  affineOverlayActive : Bool

namespace QuantumRegister

variable {R β : Type} [Field R] [LinearOrder R] [IStateBackend R β]

def kDefaultPrintEpsilon : R :=
  1 / 10 ^ 12

omit [IStateBackend R β] in
/-- The member values a constructor starts from, with the backend the factory selects. -/
def uninitialized (backend : β) : QuantumRegister R β :=
  { numQubits := 0
    numStates := 0
    backend := backend
    cachedLogicalAmplitudeSum := none
    affineScale := { real := 1, imag := 0 }
    affineBias := Amplitude.zero
    affineOverlayActive := false }

def onBackend {α : Type} (x : Call β α) : Call (QuantumRegister R β) α :=
  Call.focus backend (fun r b => { r with backend := b }) x

/-!
## Construction and copies
-/

def initializeBackend (selected : β) (qubits : Nat) : Call (QuantumRegister R β) Unit := do
  modify fun r => { r with numQubits := qubits }
  let count <- checkedStateCount qubits
  modify fun r => { r with numStates := count, backend := selected }

def initBasis (selected : β) (qubits initState : Nat) (amp : Amplitude R) :
    Call (QuantumRegister R β) Unit := do
  initializeBackend selected qubits
  onBackend (IStateBackend.initBasis qubits initState amp)

def initAmplitudes (selected : β) (qubits : Nat) (amplitudes : List R) :
    Call (QuantumRegister R β) Unit := do
  initializeBackend selected qubits
  onBackend (IStateBackend.loadAmplitudes qubits amplitudes)

/-- A constructor call: the register it builds, or the exception it ends in. -/
def construct (selected : β) (init_ : Call (QuantumRegister R β) Unit) :
    Except Exc (QuantumRegister R β) :=
  match init_ (uninitialized selected) with
  | (.ok _, r) => .ok r
  | (.error e, _) => .error e

def copy (other : QuantumRegister R β) : QuantumRegister R β :=
  { other with backend := IStateBackend.clone other.backend }

/-!
## The affine overlay
-/

def divideAmplitude {σ : Type} (numerator denominator : Amplitude R) : Call σ (Amplitude R) :=
  let denomNormSq := denominator.real * denominator.real + denominator.imag * denominator.imag
  if denomNormSq = 0 then
    throw (logicError "QuantumRegister affine overlay scale is zero")
  else
    pure
      { real := (numerator.real * denominator.real + numerator.imag * denominator.imag) /
          denomNormSq
        imag := (numerator.imag * denominator.real - numerator.real * denominator.imag) /
          denomNormSq }

def resetAffineOverlay : Call (QuantumRegister R β) Unit :=
  modify fun r =>
    { r with
      affineScale := { real := 1, imag := 0 }
      affineBias := Amplitude.zero
      affineOverlayActive := false
      cachedLogicalAmplitudeSum := none }

def applyAffineOverlay (r : QuantumRegister R β) (backendAmplitude : Amplitude R) :
    Amplitude R :=
  if r.affineOverlayActive then
    (r.affineScale.multiply backendAmplitude).add r.affineBias
  else
    backendAmplitude

def removeAffineOverlay (logicalAmplitude : Amplitude R) :
    Call (QuantumRegister R β) (Amplitude R) := do
  let r <- get
  if r.affineOverlayActive then
    divideAmplitude (logicalAmplitude.sub r.affineBias) r.affineScale
  else
    pure logicalAmplitude

def visitLogicalAmplitudeChunks : Call (QuantumRegister R β) (List (Nat × List R)) := do
  let r <- get
  let visits <- onBackend IStateBackend.forEachAmplitudeChunk
  if r.affineOverlayActive then
    pure (visits.map fun visit => (visit.1, mapAmplitudes r.applyAffineOverlay visit.2))
  else
    pure visits

def logicalAmplitudeSum : Call (QuantumRegister R β) (Amplitude R) := do
  let r <- get
  match r.cachedLogicalAmplitudeSum with
  | some sum => pure sum
  | none =>
      let visits <- visitLogicalAmplitudeChunks
      let sum := visits.foldl
        (fun sum visit => (amplitudesOf visit.2).foldl Amplitude.add sum) Amplitude.zero
      modify fun r => { r with cachedLogicalAmplitudeSum := some sum }
      pure sum

def amplitudeElementCount (r : QuantumRegister R β) : Nat :=
  u64 (r.numStates * 2)

def snapshotLogicalAmplitudes : Call (QuantumRegister R β) (List R) := do
  let r <- get
  let visits <- visitLogicalAmplitudeChunks
  pure (visits.foldl
    (fun snapshot visit =>
      let beginElem := u64 (visit.1 * 2)
      snapshot.take beginElem ++ visit.2 ++ snapshot.drop (beginElem + visit.2.length))
    (List.replicate r.amplitudeElementCount 0))

def flushAffineOverlay : Call (QuantumRegister R β) Unit := do
  let r <- get
  if r.affineOverlayActive then
    onBackend (IStateBackend.applyAffineTransform r.affineScale r.affineBias)
    resetAffineOverlay
    modify fun r' => { r' with cachedLogicalAmplitudeSum := r.cachedLogicalAmplitudeSum }
  else
    pure ()

/-!
## Queries
-/

def amplitude (state : Nat) : Call (QuantumRegister R β) (Amplitude R) := do
  let r <- get
  validateStateIndex "QuantumRegister::amplitude" state r.numStates
  let amp <- onBackend (IStateBackend.amplitude state)
  pure (r.applyAffineOverlay amp)

def amplitudes : Call (QuantumRegister R β) (List R) :=
  snapshotLogicalAmplitudes

def probability (state : Nat) : Call (QuantumRegister R β) R := do
  let r <- get
  validateStateIndex "QuantumRegister::probability" state r.numStates
  let amp <- amplitude state
  pure amp.probability

def totalProbability : Call (QuantumRegister R β) R := do
  let r <- get
  if r.affineOverlayActive then
    let visits <- visitLogicalAmplitudeChunks
    pure (visits.foldl
      (fun total visit =>
        (amplitudesOf visit.2).foldl (fun total amp => total + amp.probability) total) 0)
  else
    onBackend IStateBackend.totalProbability

/--
One chunk of the sampling loop: the measured state, `none` while it still is
`numStates_`, and the cumulative probability.
-/
def measureChunk (rnd : R) (acc : Option Nat × R) (visit : Nat × List R) : Option Nat × R :=
  if acc.1.isSome then
    acc
  else
    let search := searchCumulative rnd acc.2 ((amplitudesOf visit.2).map Amplitude.probability)
    (search.1.map (visit.1 + ·), search.2)

/-- `rnd` is the number drawn from the random source, one for each measurement. -/
def measure (rnd : R) : Call (QuantumRegister R β) Nat := do
  let r <- get
  if r.affineOverlayActive then
    let visits <- visitLogicalAmplitudeChunks
    match (visits.foldl (measureChunk rnd) (none, 0)).1 with
    | some state => pure state
    | none =>
        throw (runtimeError
          "QuantumRegister::measure cumulative probability did not reach sample")
  else
    onBackend (IStateBackend.sampleMeasurement rnd)

def printedChunk (epsilon : R) (visit : Nat × List R) : List (Nat × Amplitude R) :=
  ((List.range (visit.2.length / 2)).map fun localState =>
    (visit.1 + localState, readAmp visit.2 (localState * 2))).filter
      fun line => |line.2.real| > epsilon ∨ |line.2.imag| > epsilon

def stream : Call (QuantumRegister R β) (List (Nat × Amplitude R)) := do
  let r <- get
  if r.affineOverlayActive then
    let visits <- visitLogicalAmplitudeChunks
    pure (visits.flatMap (printedChunk kDefaultPrintEpsilon))
  else
    onBackend (IStateBackend.printNonZeroStates kDefaultPrintEpsilon)

def printStatesVector (epsilon : R) : Call (QuantumRegister R β) (List (Nat × Amplitude R)) := do
  if epsilon < 0 then
    throw (invalidArgument "QuantumRegister::printStatesVector epsilon must be non-negative")
  let r <- get
  if r.affineOverlayActive then
    let visits <- visitLogicalAmplitudeChunks
    pure (visits.flatMap (printedChunk epsilon))
  else
    onBackend (IStateBackend.printNonZeroStates epsilon)

/-!
## Mutations
-/

def invalidateSum : Call (QuantumRegister R β) Unit :=
  modify fun r => { r with cachedLogicalAmplitudeSum := none }

def setAmplitude (state : Nat) (amp : Amplitude R) : Call (QuantumRegister R β) Unit := do
  let r <- get
  validateStateIndex "QuantumRegister::setAmplitude" state r.numStates
  let backendAmp <- removeAffineOverlay amp
  onBackend (IStateBackend.setAmplitude state backendAmp)
  invalidateSum

def loadAmplitudes (amplitudes : List R) : Call (QuantumRegister R β) Unit := do
  let r <- get
  if amplitudes.length ≠ r.amplitudeElementCount then
    throw (invalidArgument "QuantumRegister::loadAmplitudes amplitudes size mismatch")
  resetAffineOverlay
  onBackend (IStateBackend.loadAmplitudes r.numQubits amplitudes)

def initUniformSuperposition (basisStates : List Nat) : Call (QuantumRegister R β) Unit := do
  let r <- get
  if basisStates.isEmpty then
    throw (invalidArgument
      "QuantumRegister::initUniformSuperposition requires at least one basis state")
  basisStates.forM fun state =>
    validateStateIndex "QuantumRegister::initUniformSuperposition" state r.numStates
  resetAffineOverlay
  onBackend (IStateBackend.initUniformSuperposition r.numQubits basisStates)

def applyFlushed (gate : Call β Unit) : Call (QuantumRegister R β) Unit := do
  flushAffineOverlay
  onBackend gate
  invalidateSum

def applyGate (gate : QuantumGate R) (qubits : List Nat) : Call (QuantumRegister R β) Unit := do
  let r <- get
  validateGateTargets "QuantumRegister::applyGate" qubits r.numQubits gate.dimension
  applyFlushed (IStateBackend.applyGate gate qubits)

def applyPhaseFlipBasisState (state : Nat) : Call (QuantumRegister R β) Unit := do
  let r <- get
  validateStateIndex "QuantumRegister::applyPhaseFlipBasisState" state r.numStates
  if r.cachedLogicalAmplitudeSum.isSome || r.affineOverlayActive then
    let logical <- amplitude state
    modify fun r =>
      { r with
        cachedLogicalAmplitudeSum := r.cachedLogicalAmplitudeSum.map fun sum =>
          { real := sum.real - 2 * logical.real
            imag := sum.imag - 2 * logical.imag } }
    if r.affineOverlayActive then
      let backendAmp <- removeAffineOverlay logical.negate
      onBackend (IStateBackend.setAmplitude state backendAmp)
    else
      onBackend (IStateBackend.phaseFlipBasisState state)
  else
    onBackend (IStateBackend.phaseFlipBasisState state)

/-- The update of a cached sum by an inversion about `mean`. -/
def reflectSum (mean : Amplitude R) : Call (QuantumRegister R β) Unit :=
  modify fun r =>
    { r with
      cachedLogicalAmplitudeSum := r.cachedLogicalAmplitudeSum.map fun sum =>
        { real := 2 * mean.real * (r.numStates : R) - sum.real
          imag := 2 * mean.imag * (r.numStates : R) - sum.imag } }

def applyInversionAboutMeanWith (mean : Amplitude R) : Call (QuantumRegister R β) Unit := do
  reflectSum mean
  modify fun r =>
    let scale := if r.affineOverlayActive then r.affineScale else { real := 1, imag := 0 }
    let bias := if r.affineOverlayActive then r.affineBias else Amplitude.zero
    { r with
      affineScale := scale.negate
      affineBias := (mean.scale 2).sub bias
      affineOverlayActive := true }

/-- The mean both inversions derive from the sum of the amplitudes. -/
def logicalMean : Call (QuantumRegister R β) (Amplitude R) := do
  let sum <- logicalAmplitudeSum
  let r <- get
  pure
    { real := sum.real / (r.numStates : R)
      imag := sum.imag / (r.numStates : R) }

def applyInversionAboutMean : Call (QuantumRegister R β) Unit := do
  let mean <- logicalMean
  applyInversionAboutMeanWith mean

def applyInversionAboutMeanMaterializedWith (mean : Amplitude R) :
    Call (QuantumRegister R β) Unit := do
  reflectSum mean
  flushAffineOverlay
  onBackend (IStateBackend.inversionAboutMeanWith mean)

def applyInversionAboutMeanMaterialized : Call (QuantumRegister R β) Unit := do
  let mean <- logicalMean
  applyInversionAboutMeanMaterializedWith mean

def applyHadamard (qubit : Nat) : Call (QuantumRegister R β) Unit := do
  let r <- get
  validateQubitIndex "QuantumRegister::applyHadamard" qubit r.numQubits
  applyFlushed (IStateBackend.applyHadamard qubit)

def applyPauliX (qubit : Nat) : Call (QuantumRegister R β) Unit := do
  let r <- get
  validateQubitIndex "QuantumRegister::applyPauliX" qubit r.numQubits
  applyFlushed (IStateBackend.applyPauliX qubit)

def validateTwoQubits (scopeName : String) (q0 q1 : Nat) : Call (QuantumRegister R β) Unit := do
  let r <- get
  validateQubitIndex scopeName q0 r.numQubits
  validateQubitIndex scopeName q1 r.numQubits
  validateDistinctQubits scopeName q0 q1

def applyControlledPhaseShift (controlQubit targetQubit : Nat) (theta : R) :
    Call (QuantumRegister R β) Unit := do
  validateTwoQubits "QuantumRegister::applyControlledPhaseShift" controlQubit targetQubit
  applyFlushed (IStateBackend.applyControlledPhaseShift controlQubit targetQubit theta)

def applyControlledNot (controlQubit targetQubit : Nat) : Call (QuantumRegister R β) Unit := do
  validateTwoQubits "QuantumRegister::applyControlledNot" controlQubit targetQubit
  applyFlushed (IStateBackend.applyControlledNot controlQubit targetQubit)

def applySwap (qubit1 qubit2 : Nat) : Call (QuantumRegister R β) Unit := do
  validateTwoQubits "QuantumRegister::applySwap" qubit1 qubit2
  applyControlledNot qubit1 qubit2
  applyControlledNot qubit2 qubit1
  applyControlledNot qubit1 qubit2

def beginOperationBatch : Call (QuantumRegister R β) Unit :=
  onBackend IStateBackend.beginOperationBatch

def endOperationBatch : Call (QuantumRegister R β) Unit :=
  onBackend IStateBackend.endOperationBatch

end QuantumRegister

end Tmfqs
