import Tmfqs.Register.QuantumRegister

/-!
# Quantum states

`state/quantum_state.cpp`: a state in one of five representations, each with the
members it reads.  An argument `dense` or `selected` is the backend the factory creates
for a configuration.
-/

namespace Tmfqs

open Library

inductive StateKind (R β : Type) where
  | basis (state : Nat)
  | basisAmplitude (state : Nat) (amp : Amplitude R)
  | uniformSubset (states : List Nat)
  | amplitudes (data : List R)
  | register (reg : QuantumRegister R β)

structure QuantumState (R β : Type) where
  qubits : Nat
  kind : StateKind R β

namespace QuantumState

variable {R β : Type} [Field R] [LinearOrder R] [IStateBackend R β]

def probabilityMass (amplitudes : List R) : R :=
  (amplitudesOf amplitudes).foldl (fun total amp => total + amp.probability) 0

def materialize (q : QuantumState R β) (selected : β) : Except Exc (QuantumRegister R β) :=
  match q.kind with
  | .basis state =>
      QuantumRegister.construct selected
        (QuantumRegister.initBasis selected q.qubits state { real := 1, imag := 0 })
  | .basisAmplitude state amp =>
      QuantumRegister.construct selected
        (QuantumRegister.initBasis selected q.qubits state amp)
  | .uniformSubset states =>
      QuantumRegister.construct selected do
        QuantumRegister.initBasis selected q.qubits 0 { real := 1, imag := 0 }
        QuantumRegister.initUniformSuperposition states
  | .amplitudes data =>
      QuantumRegister.construct selected
        (QuantumRegister.initAmplitudes selected q.qubits data)
  | .register reg => .ok reg.copy

def fromRegister (reg : QuantumRegister R β) : QuantumState R β :=
  { qubits := reg.numQubits
    kind := .register reg }

def onRegister {α : Type} (dense : β) (x : Call (QuantumRegister R β) α) :
    Call (QuantumState R β) α :=
  fun q =>
    match q.kind with
    | .register reg => ((x reg).1, { q with kind := .register (x reg).2 })
    | _ =>
        match q.materialize dense with
        | .ok reg => ((x reg).1, q)
        | .error e => (.error e, q)

/-- The branches of `amplitude` after the range check. -/
def storedAmplitude (dense : β) (state : Nat) : Call (QuantumState R β) (Amplitude R) := do
  let q <- get
  match q.kind with
  | .amplitudes data => pure (ampAt data state)
  | .basis basisState =>
      pure (if state = basisState then { real := 1, imag := 0 } else Amplitude.zero)
  | .basisAmplitude basisState amp =>
      pure (if state = basisState then amp else Amplitude.zero)
  | _ => onRegister dense (QuantumRegister.amplitude state)

def amplitude (dense : β) (state : Nat) : Call (QuantumState R β) (Amplitude R) := do
  let q <- get
  let stateCount <- checkedStateCount q.qubits
  if state ≥ stateCount then
    throw (invalidArgument "Amplitude state index is out of range")
  storedAmplitude dense state

def totalProbability (dense : β) : Call (QuantumState R β) R := do
  let q <- get
  match q.kind with
  | .amplitudes data => pure (probabilityMass data)
  | .basis _ => pure ({ real := 1, imag := 0 } : Amplitude R).probability
  | .basisAmplitude _ amp => pure amp.probability
  | _ => onRegister dense QuantumRegister.totalProbability

def amplitudes (dense : β) : Call (QuantumState R β) (List R) := do
  let q <- get
  match q.kind with
  | .amplitudes data => pure data
  | _ => onRegister dense QuantumRegister.amplitudes

/-- `rnd` is the number drawn from the random source, if one is drawn at all. -/
def measure (dense : β) (rnd : R) : Call (QuantumState R β) Nat := do
  let q <- get
  match q.kind with
  | .basis state => pure state
  | .basisAmplitude state _ => pure state
  | .amplitudes data => do
      let stateCount <- checkedStateCount q.qubits
      let probabilities := (List.range stateCount).map fun state => (ampAt data state).probability
      match (searchCumulative rnd 0 probabilities).1 with
      | some state => pure state
      | none =>
          throw (runtimeError "QuantumState::measure cumulative probability did not reach sample")
  | _ => onRegister dense (QuantumRegister.measure rnd)

end QuantumState

end Tmfqs
