import Tmfqs.Core.BasisStates
import Tmfqs.Core.Validation
import Tmfqs.Gates.QuantumGate

/-!
# Circuits

`circuit/circuit.cpp`: lists of operations and the builders of the Fourier transform
and of Grover search.
-/

namespace Tmfqs

open Library

inductive Operation (R : Type) where
  | hadamard (target : Nat)
  | pauliX (target : Nat)
  | controlledNot (control target : Nat)
  | controlledPhaseShift (control target : Nat) (theta : R)
  | swap (first second : Nat)
  | matrixGate (gate : QuantumGate R) (targets : List Nat)
  | phaseFlipBasisState (state : Nat)
  | inversionAboutMean (materialized : Bool)

structure Circuit (R : Type) where
  qubits : Nat
  operations : List (Operation R)

namespace Circuit

variable {R : Type}

def make (qubits : Nat) : Circuit R :=
  { qubits := qubits
    operations := [] }

def append (operation : Operation R) : Call (Circuit R) PUnit :=
  modify fun c => { c with operations := c.operations ++ [operation] }

def h (target : Nat) : Call (Circuit R) PUnit :=
  append (.hadamard target)

def controlledPhase (control target : Nat) (theta : R) : Call (Circuit R) PUnit :=
  append (.controlledPhaseShift control target theta)

def swap (first second : Nat) : Call (Circuit R) PUnit :=
  append (.swap first second)

def phaseFlip (state : Nat) : Call (Circuit R) PUnit :=
  append (.phaseFlipBasisState state)

def inversionAboutMean (materialized : Bool) : Call (Circuit R) PUnit :=
  append (.inversionAboutMean materialized)

/-!
## The Fourier transform
-/

variable [Field R] [CMath R]

def appendQft : Call (Circuit R) PUnit := do
  let c <- get
  let qubits := c.qubits
  (List.range qubits).forM fun target => do
    h target
    (List.range' (target + 1) (qubits - (target + 1))).forM fun control => do
      let distance := control - target
      let theta := CMath.kPi / ((u64 (1 <<< distance) : Nat) : R)
      controlledPhase control target theta
  (List.range (qubits / 2)).forM fun left =>
    swap left (qubits - left - 1)

/-- The circuit a builder makes, with the exception it ends in, if any. -/
def build (qubits : Nat) (builder : Call (Circuit R) PUnit) : Except Exc (Circuit R) :=
  match builder (make qubits) with
  | (.ok _, c) => .ok c
  | (.error e, _) => .error e

def makeQft (qubits : Nat) : Except Exc (Circuit R) :=
  build qubits appendQft

/-!
## Grover search
-/

structure GroverCircuitOptions where
  markedStates : List Nat
  materializedDiffusion : Bool

def groverIterationCount {σ : Type} (stateCount markedCount : Nat) : Call σ Nat :=
  if markedCount = 0 then
    throw (invalidArgument "Grover circuit requires at least one marked state")
  else
    let idealIterations : R :=
      CMath.kPi / 4 * CMath.sqrt ((stateCount : R) / (markedCount : R))
    pure (u32 (CMath.floor idealIterations).toNat)

def appendGrover (options : GroverCircuitOptions) : Call (Circuit R) PUnit := do
  if options.markedStates.isEmpty then
    throw (invalidArgument "Grover circuit requires at least one marked state")
  let marked := selectedStates options.markedStates
  let c <- get
  (List.range c.qubits).forM fun q => h q
  let stateCount <- checkedStateCount c.qubits
  let iterations <- groverIterationCount (R := R) stateCount marked.length
  (List.range iterations).forM fun _ => do
    marked.forM fun state => do
      if state ≥ stateCount then
        throw (invalidArgument "Grover marked state is out of range")
      phaseFlip state
    inversionAboutMean options.materializedDiffusion

def makeGrover (qubits : Nat) (options : GroverCircuitOptions) : Except Exc (Circuit R) :=
  build qubits (appendGrover options)

end Circuit

end Tmfqs
