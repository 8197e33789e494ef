import Tmfqs.Core.Types

/-!
# Gate matrices

A gate is a square complex matrix in row-major order.  The row access
`gate[row][col]` is only made inside the dimension.
-/

namespace Tmfqs

/-- Square complex matrix stored in row-major order. -/
structure QuantumGate (R : Type) where
  dimension : Nat
  matrix : List (Amplitude R)
  size : matrix.length = dimension * dimension

namespace QuantumGate

variable {R : Type} [Field R]

def entry (gate : QuantumGate R) (row col : Nat) : Amplitude R :=
  gate.matrix.getD (row * gate.dimension + col) Amplitude.zero

omit [Field R] in
def ofEntries (dimension : Nat) (entries : Nat -> Nat -> Amplitude R) :
    QuantumGate R where
  dimension := dimension
  matrix := (List.range (dimension * dimension)).map
    (fun cell => entries (cell / dimension) (cell % dimension))
  size := by simp

theorem entry_ofEntries {dimension row col : Nat}
    (entries : Nat -> Nat -> Amplitude R)
    (hrow : row < dimension) (hcol : col < dimension) :
    (ofEntries dimension entries).entry row col = entries row col := by
  have hpos : 0 < dimension := by omega
  have hcell : row * dimension + col < dimension * dimension := by
    calc row * dimension + col < row * dimension + dimension := by omega
      _ = (row + 1) * dimension := by ring
      _ ≤ dimension * dimension := Nat.mul_le_mul_right dimension hrow
  have hdiv : (row * dimension + col) / dimension = row := by
    rw [Nat.mul_comm, Nat.mul_add_div hpos, Nat.div_eq_of_lt hcol, Nat.add_zero]
  have hmod : (row * dimension + col) % dimension = col := by
    rw [Nat.mul_comm, Nat.mul_add_mod, Nat.mod_eq_of_lt hcol]
  simp [entry, ofEntries, List.getD_eq_getElem?_getD, hcell, hdiv, hmod]

def zeros (dimension : Nat) : QuantumGate R where
  dimension := dimension
  matrix := List.replicate (dimension * dimension) Amplitude.zero
  size := List.length_replicate

omit [Field R] in
def setEntry (gate : QuantumGate R) (row col : Nat) (cell : Amplitude R) : QuantumGate R where
  dimension := gate.dimension
  matrix := gate.matrix.set (row * gate.dimension + col) cell
  size := by rw [List.length_set, gate.size]

def scale (gate : QuantumGate R) (x : Amplitude R) : QuantumGate R :=
  ofEntries gate.dimension fun row col => (gate.entry row col).multiply x

def addProduct (gate qg : QuantumGate R) (i k : Nat) (result : QuantumGate R) (j : Nat) :
    QuantumGate R :=
  result.setEntry i j ((result.entry i j).add ((gate.entry i k).multiply (qg.entry k j)))

/-- `operator*` with a gate: the loops run over `i`, `k` and `j`. -/
def mul (gate qg : QuantumGate R) : Except Exc (QuantumGate R) :=
  if qg.dimension ≠ gate.dimension then
    .error (invalidArgument "QuantumGate dimensions differ in multiplication")
  else
    .ok ((List.range gate.dimension).foldl
      (fun result i =>
        (List.range gate.dimension).foldl
          (fun result k => (List.range gate.dimension).foldl (addProduct gate qg i k) result)
          result)
      (zeros gate.dimension))

def setReal (gate : QuantumGate R) (row col : Nat) (real : R) : QuantumGate R :=
  gate.setEntry row col { gate.entry row col with real := real }

variable [CMath R]

omit [CMath R] in
def Identity (dimension : Nat) : QuantumGate R :=
  ofEntries dimension fun row col =>
    if row = col then { real := 1, imag := 0 } else Amplitude.zero

def Hadamard : QuantumGate R :=
  let invSqrt2 : R := 1 / CMath.sqrt 2
  ofEntries 2 fun row col =>
    if row = 1 ∧ col = 1 then { real := -invSqrt2, imag := 0 }
    else { real := invSqrt2, imag := 0 }

def ControlledPhaseShift (theta : R) : QuantumGate R :=
  let phase := complexExp { real := 0, imag := theta }
  ofEntries 4 fun row col =>
    if row = 3 ∧ col = 3 then phase
    else if row = col then { real := 1, imag := 0 }
    else Amplitude.zero

omit [CMath R] in
def ControlledNot : QuantumGate R :=
  ofEntries 4 fun row col =>
    if (row = 0 ∧ col = 0) ∨ (row = 1 ∧ col = 1) ∨ (row = 2 ∧ col = 3) ∨
        (row = 3 ∧ col = 2) then
      { real := 1, imag := 0 }
    else Amplitude.zero

omit [CMath R] in
def PauliX : QuantumGate R :=
  ofEntries 2 fun row col =>
    if row = col then Amplitude.zero else { real := 1, imag := 0 }

omit [CMath R] in
def PauliY : QuantumGate R :=
  ofEntries 2 fun row col =>
    if row = 0 ∧ col = 1 then { real := 0, imag := -1 }
    else if row = 1 ∧ col = 0 then { real := 0, imag := 1 }
    else Amplitude.zero

omit [CMath R] in
def PauliZ : QuantumGate R :=
  ofEntries 2 fun row col =>
    if row = 0 ∧ col = 0 then { real := 1, imag := 0 }
    else if row = 1 ∧ col = 1 then { real := -1, imag := 0 }
    else Amplitude.zero

def PhaseShift (theta : R) : QuantumGate R :=
  let phase := complexExp { real := 0, imag := theta }
  ofEntries 2 fun row col =>
    if row = 0 ∧ col = 0 then { real := 1, imag := 0 }
    else if row = 1 ∧ col = 1 then phase
    else Amplitude.zero

def PiOverEight : QuantumGate R :=
  PhaseShift (CMath.kPi / 4)

omit [CMath R] in
def Toffoli : QuantumGate R :=
  ((((Identity 8).setReal 6 6 0).setReal 7 7 0).setReal 6 7 1).setReal 7 6 1

omit [CMath R] in
def Swap : QuantumGate R :=
  ofEntries 4 fun row col =>
    if (row = 0 ∧ col = 0) ∨ (row = 1 ∧ col = 2) ∨ (row = 2 ∧ col = 1) ∨
        (row = 3 ∧ col = 3) then
      { real := 1, imag := 0 }
    else Amplitude.zero

def Ising (theta : R) : QuantumGate R :=
  let c := CMath.cos (theta / 2)
  let s := CMath.sin (theta / 2)
  ofEntries 4 fun row col =>
    if row = col then { real := c, imag := 0 }
    else if row + col = 3 then { real := 0, imag := -s }
    else Amplitude.zero

end QuantumGate
end Tmfqs
