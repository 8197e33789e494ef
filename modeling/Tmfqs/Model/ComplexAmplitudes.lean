import Mathlib.LinearAlgebra.UnitaryGroup
import Tmfqs.Model.GateAction

/-!
# Amplitudes as complex numbers

In exact arithmetic an amplitude is a complex number, and a gate a complex matrix.
-/

namespace Tmfqs

namespace Amplitude

noncomputable def toComplex (a : Amplitude Real) : Complex :=
  { re := a.real
    im := a.imag }

@[simp] theorem toComplex_mk (x y : Real) :
    ({ real := x, imag := y } : Amplitude Real).toComplex = { re := x, im := y } := rfl

theorem toComplex_injective : Function.Injective toComplex := by
  intro a b h
  exact eq_of_parts (congrArg Complex.re h) (congrArg Complex.im h)

@[simp] theorem toComplex_zero : (zero : Amplitude Real).toComplex = 0 := rfl

@[simp] theorem toComplex_add (a b : Amplitude Real) :
    (a.add b).toComplex = a.toComplex + b.toComplex := rfl

@[simp] theorem toComplex_negate (a : Amplitude Real) :
    a.negate.toComplex = -a.toComplex := rfl

@[simp] theorem toComplex_multiply (a b : Amplitude Real) :
    (a.multiply b).toComplex = a.toComplex * b.toComplex := by
  apply Complex.ext
  · simp [toComplex, multiply]
  · simp [toComplex, multiply]

theorem probability_eq_normSq (a : Amplitude Real) :
    a.probability = Complex.normSq a.toComplex := rfl

end Amplitude

/-!
## Gates as matrices
-/

theorem invSqrt2_mul_self : 1 / CMath.sqrt (2 : Real) * (1 / CMath.sqrt 2) = 1 / 2 := by
  rw [div_mul_div_comm, one_mul]
  exact congrArg _ (Real.mul_self_sqrt (by norm_num))

theorem sqrt_two_pow (n : Nat) : Real.sqrt ((2 ^ n : Nat) : Real) = Real.sqrt 2 ^ n := by
  induction n with
  | zero => simp
  | succ n ih =>
      rw [pow_succ, Nat.cast_mul, Real.sqrt_mul (Nat.cast_nonneg _), ih, pow_succ]
      rfl

namespace QuantumGate

noncomputable def toMatrix (gate : QuantumGate Real) :
    Matrix (Fin gate.dimension) (Fin gate.dimension) Complex :=
  fun row col => (gate.entry row col).toComplex

def Unitary (gate : QuantumGate Real) : Prop :=
  gate.toMatrix ∈ Matrix.unitaryGroup (Fin gate.dimension) Complex

theorem unitary_ofEntries {d : Nat} {entries : Nat -> Nat -> Amplitude Real}
    (h : forall row row' : Fin d,
      ∑ col : Fin d, (entries row col).toComplex * star (entries row' col).toComplex =
        if row = row' then 1 else 0) :
    (ofEntries d entries).Unitary := by
  rw [Unitary, Matrix.mem_unitaryGroup_iff]
  apply Matrix.ext
  intro row row'
  rw [Matrix.mul_apply, Matrix.one_apply]
  refine Eq.trans ?_ (h row row')
  apply Finset.sum_congr rfl
  intro col _
  rw [Matrix.star_apply]
  exact congrArg₂ (fun a b : Amplitude Real => a.toComplex * star b.toComplex)
    (entry_ofEntries entries row.isLt col.isLt) (entry_ofEntries entries row'.isLt col.isLt)

theorem unitary_pauliX : (PauliX : QuantumGate Real).Unitary := by
  apply unitary_ofEntries
  intro row row'
  fin_cases row <;> fin_cases row' <;> simp [Complex.ext_iff]

theorem unitary_controlledNot : (ControlledNot : QuantumGate Real).Unitary := by
  apply unitary_ofEntries
  intro row row'
  fin_cases row <;> fin_cases row' <;> simp [Complex.ext_iff, Fin.sum_univ_succ]

theorem unitary_hadamard : (Hadamard : QuantumGate Real).Unitary := by
  apply unitary_ofEntries
  have hsqrt := invSqrt2_mul_self
  intro row row'
  generalize 1 / CMath.sqrt (2 : Real) = x at hsqrt ⊢
  fin_cases row <;> fin_cases row' <;> simp [Complex.ext_iff] <;> linarith

theorem unitary_controlledPhaseShift (theta : Real) : (ControlledPhaseShift theta).Unitary := by
  apply unitary_ofEntries
  have hphase : complexExp { real := 0, imag := theta } =
      { real := CMath.cos theta, imag := CMath.sin theta } := by
    simp [complexExp, CMath.exp]
  have hunit : CMath.cos theta ^ 2 + CMath.sin theta ^ 2 = 1 := Real.cos_sq_add_sin_sq theta
  intro row row'
  rw [hphase]
  fin_cases row <;> fin_cases row' <;> simp [Complex.ext_iff, Fin.sum_univ_succ]
  constructor <;> linarith

end QuantumGate

theorem toComplex_rowProduct_sum (gate : QuantumGate Real) (blockSize row : Nat)
    (localAmps : List (Amplitude Real)) :
    (rowProduct gate blockSize row localAmps).toComplex =
      ∑ col ∈ Finset.range blockSize,
        (gate.entry row col).toComplex * (localAmps.getD col Amplitude.zero).toComplex := by
  have hterm : forall col : Nat,
      (gate.entry row col).toComplex * (localAmps.getD col Amplitude.zero).toComplex =
        ((gate.entry row col).multiply (localAmps.getD col Amplitude.zero)).toComplex :=
    fun col => (Amplitude.toComplex_multiply _ _).symm
  rw [rowProduct_parts, Finset.sum_congr rfl fun col _ => hterm col]
  apply Complex.ext
  · rw [Complex.re_sum]
    rfl
  · rw [Complex.im_sum]
    rfl

theorem toComplex_rowProduct (gate : QuantumGate Real) (row : Fin gate.dimension)
    (localAmps : List (Amplitude Real)) :
    (rowProduct gate gate.dimension row localAmps).toComplex =
      gate.toMatrix.mulVec (fun col => (localAmps.getD col Amplitude.zero).toComplex) row := by
  rw [toComplex_rowProduct_sum, Finset.sum_range, Matrix.mulVec, dotProduct]
  rfl

theorem sum_normSq_mulVec {d : Nat} {U : Matrix (Fin d) (Fin d) Complex}
    (hU : U ∈ Matrix.unitaryGroup (Fin d) Complex) (x : Fin d -> Complex) :
    ∑ row, Complex.normSq (U.mulVec x row) = ∑ col, Complex.normSq (x col) := by
  have hnorm : forall y : Fin d -> Complex,
      ((∑ i, Complex.normSq (y i) : Real) : Complex) = dotProduct (star y) y := by
    intro y
    rw [Complex.ofReal_sum, dotProduct]
    apply Finset.sum_congr rfl
    intro i _
    exact Complex.normSq_eq_conj_mul_self
  have hkeep : dotProduct (star (U.mulVec x)) (U.mulVec x) = dotProduct (star x) x := by
    calc dotProduct (star (U.mulVec x)) (U.mulVec x)
        = dotProduct (Matrix.vecMul (star x) (star U)) (U.mulVec x) := by
          rw [Matrix.star_mulVec, Matrix.star_eq_conjTranspose]
      _ = dotProduct (star x) ((star U).mulVec (U.mulVec x)) :=
          (Matrix.dotProduct_mulVec _ _ _).symm
      _ = dotProduct (star x) x := by
          rw [Matrix.mulVec_mulVec, Matrix.mem_unitaryGroup_iff'.mp hU, Matrix.one_mulVec]
  have hcast : ((∑ row, Complex.normSq (U.mulVec x row) : Real) : Complex) =
      ((∑ col, Complex.normSq (x col) : Real) : Complex) := by
    rw [hnorm, hnorm, hkeep]
  exact Complex.ofReal_injective hcast

end Tmfqs
