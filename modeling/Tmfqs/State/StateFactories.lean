import Tmfqs.State.QuantumState

/-!
# Building, changing and measuring states

`state/quantum_state.cpp`: the factories, the two functions that give a state new
amplitudes, copies, and `measure` with its random source.  A change of representation
leaves the members of the old one in place in the source; no function reads a member
that does not belong to the current representation.
-/

namespace Tmfqs

open Library

inductive NormalizationPolicy where
  | validate
  | normalize
  | allowUnnormalized
deriving DecidableEq, Repr

structure StateValidation (R : Type) [Field R] where
  probabilityTolerance : R := 1 / 10 ^ 9
  normalization : NormalizationPolicy := .validate

/-- The validation that lets every vector of even length through. -/
def StateValidation.allowUnnormalized {R : Type} [Field R] : StateValidation R :=
  { normalization := .allowUnnormalized }

/-- `IRandomSource`: the numbers `nextUnitDouble` returns, and how many it has returned. -/
structure RandomSource (R : Type) where
  values : Nat -> R
  consumed : Nat

namespace RandomSource

variable {R : Type}

def nextUnitDouble (source : RandomSource R) : R × RandomSource R :=
  (source.values source.consumed, { source with consumed := source.consumed + 1 })

end RandomSource

namespace QuantumState

variable {R β σ : Type} [Field R] [LinearOrder R] [CMath R] [IStateBackend R β]

/-!
## Normalisation
-/

def normalize (amplitudes : List R) : Call σ (List R) :=
  let total := probabilityMass amplitudes
  if total ≤ 0 then
    throw (invalidArgument "Cannot normalize an all-zero amplitude vector")
  else
    pure (amplitudes.map fun value => value * (1 / CMath.sqrt total))

/-- The argument is changed in place in the source, and returned here. -/
def validateOrNormalize (amplitudes : List R) (validation : StateValidation R) :
    Call σ (List R) :=
  if amplitudes.length % 2 ≠ 0 then
    throw (invalidArgument "Amplitude vector length must be even")
  else
    match validation.normalization with
    | .allowUnnormalized => pure amplitudes
    | .normalize => normalize amplitudes
    | .validate =>
        if |probabilityMass amplitudes - 1| > validation.probabilityTolerance then
          throw (invalidArgument "Amplitude vector is not normalized")
        else
          pure amplitudes

/-!
## Factories
-/

def basis (qubits state : Nat) : Call σ (QuantumState R β) := do
  let stateCount <- checkedStateCount qubits
  if state ≥ stateCount then
    throw (invalidArgument "Basis state is out of range")
  pure
    { qubits := qubits
      kind := .basis state }

def basisAmplitude (qubits state : Nat) (amp : Amplitude R) : Call σ (QuantumState R β) := do
  let stateCount <- checkedStateCount qubits
  if state ≥ stateCount then
    throw (invalidArgument "Basis state is out of range")
  pure
    { qubits := qubits
      kind := .basisAmplitude state amp }

def uniformSubset (qubits : Nat) (states : List Nat) : QuantumState R β :=
  { qubits := qubits
    kind := .uniformSubset states }

def fromAmplitudes (qubits : Nat) (amplitudes : List R) (validation : StateValidation R) :
    Call σ (QuantumState R β) := do
  let elementCount <- checkedAmplitudeElementCount qubits
  if amplitudes.length ≠ elementCount then
    throw (invalidArgument "Amplitude vector size does not match qubit count")
  let amplitudes <- validateOrNormalize amplitudes validation
  pure
    { qubits := qubits
      kind := .amplitudes amplitudes }

def copy (q : QuantumState R β) : QuantumState R β :=
  match q.kind with
  | .register reg => { q with kind := .register reg.copy }
  | _ => q

/-!
## New amplitudes
-/

def loadAmplitudes (amplitudes : List R) (validation : StateValidation R) :
    Call (QuantumState R β) Unit := do
  let q <- get
  let elementCount <- checkedAmplitudeElementCount q.qubits
  if amplitudes.length ≠ elementCount then
    throw (invalidArgument "Amplitude vector size does not match state qubit count")
  let amplitudes <- validateOrNormalize amplitudes validation
  modify fun q => { q with kind := .amplitudes amplitudes }

def setAmplitude (dense : β) (state : Nat) (amp : Amplitude R) (validation : StateValidation R) :
    Call (QuantumState R β) Unit := do
  let values <- amplitudes dense
  let q <- get
  let stateCount <- checkedStateCount q.qubits
  if state ≥ stateCount then
    throw (invalidArgument "Amplitude state index is out of range")
  loadAmplitudes (setAmp values state amp) validation

/-!
## Measurement
-/

/--
`measure` on a random source.  A stored basis state draws no number, and a uniform
subset draws one once its register is made.
-/
def measureFrom (dense : β) : Call (QuantumState R β × RandomSource R) Nat :=
  fun (q, source) =>
    let draw : Except Exc Nat × (QuantumState R β × RandomSource R) :=
      let next := source.nextUnitDouble
      let out := measure dense next.1 q
      (out.1, (out.2, next.2))
    match q.kind with
    | .basis state => (.ok state, (q, source))
    | .basisAmplitude state _ => (.ok state, (q, source))
    | .uniformSubset _ =>
        match q.materialize dense with
        | .ok _ => draw
        | .error e => (.error e, (q, source))
    | _ => draw

end QuantumState

end Tmfqs
