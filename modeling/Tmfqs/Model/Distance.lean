import Mathlib.Analysis.CStarAlgebra.Classes
import Mathlib.Analysis.InnerProductSpace.PiL2
import Tmfqs.Model.Probability

/-!
# Distance of state vectors

The Euclidean distance of two vectors of amplitudes.  A step that brings no two amplitudes
further apart, or no two pairs of amplitudes, brings no two vectors further apart.
-/

namespace Tmfqs

open Library PairKernelExecutor

/-!
## Single amplitudes
-/

namespace Amplitude

def gap (a b : Amplitude Real) : Real :=
  (a.real - b.real) ^ 2 + (a.imag - b.imag) ^ 2

theorem gap_self (a : Amplitude Real) : a.gap a = 0 := by
  simp [gap]

theorem gap_nonneg (a b : Amplitude Real) : 0 ≤ a.gap b :=
  add_nonneg (sq_nonneg _) (sq_nonneg _)

theorem gap_eq_dist (a b : Amplitude Real) : a.gap b = dist a.toComplex b.toComplex ^ 2 := by
  rw [Complex.dist_eq, Complex.sq_norm, Complex.normSq_apply, gap]
  simp only [toComplex, Complex.sub_re, Complex.sub_im]
  ring

theorem gap_negate (a b : Amplitude Real) : a.negate.gap b.negate = a.gap b := by
  simp only [gap, negate]
  ring

theorem gap_reflectAmp (mean a b : Amplitude Real) :
    (StateVector.reflectAmp mean a).gap (StateVector.reflectAmp mean b) = a.gap b := by
  simp only [gap, StateVector.reflectAmp]
  ring

theorem gap_affineAmp (scale bias a b : Amplitude Real) :
    (StateVector.affineAmp scale bias a).gap (StateVector.affineAmp scale bias b) =
      scale.probability * a.gap b := by
  simp only [gap, StateVector.affineAmp, probability]
  ring

theorem gap_le {a b : Amplitude Real} {epsilon : Real} (hreal : |a.real - b.real| ≤ epsilon)
    (himag : |a.imag - b.imag| ≤ epsilon) : a.gap b ≤ 2 * epsilon ^ 2 := by
  have hsq : forall x : Real, |x| ≤ epsilon -> x ^ 2 ≤ epsilon ^ 2 := by
    intro x hx
    rw [← sq_abs x]
    exact pow_le_pow_left₀ (abs_nonneg x) hx 2
  have hr := hsq _ hreal
  have hi := hsq _ himag
  rw [gap]
  linarith

end Amplitude

/-!
## Vectors
-/

noncomputable def point (n : Nat) (v : List Real) : EuclideanSpace Complex (Fin (2 ^ n)) :=
  WithLp.toLp 2 fun s => (ampAt v s).toComplex

noncomputable def distance (n : Nat) (x v : List Real) : Real :=
  dist (point n x) (point n v)

section Distance

variable {n : Nat} {x x' v v' : List Real}

theorem distance_eq (n : Nat) (x v : List Real) :
    distance n x v = Real.sqrt (∑ s ∈ Finset.range (2 ^ n), (ampAt x s).gap (ampAt v s)) := by
  rw [distance, EuclideanSpace.dist_eq, Finset.sum_range]
  congr 1
  apply Finset.sum_congr rfl
  intro s _
  exact (Amplitude.gap_eq_dist _ _).symm

theorem distance_le_add (n : Nat) (x y v : List Real) :
    distance n x v ≤ distance n x y + distance n y v :=
  dist_triangle _ _ _

theorem distance_le_of_sum_le
    (h : ∑ s ∈ Finset.range (2 ^ n), (ampAt x' s).gap (ampAt v' s) ≤
      ∑ s ∈ Finset.range (2 ^ n), (ampAt x s).gap (ampAt v s)) :
    distance n x' v' ≤ distance n x v := by
  rw [distance_eq, distance_eq]
  exact Real.sqrt_le_sqrt h

theorem distance_le_of_gap_le
    (h : forall s, s < 2 ^ n -> (ampAt x' s).gap (ampAt v' s) ≤ (ampAt x s).gap (ampAt v s)) :
    distance n x' v' ≤ distance n x v :=
  distance_le_of_sum_le (Finset.sum_le_sum fun s hs => h s (Finset.mem_range.mp hs))

theorem distance_le_of_few {epsilon : Real} (hepsilon : 0 ≤ epsilon) {m : Nat} (S : Finset Nat)
    (hcard : S.card ≤ m)
    (hout : forall s, s < 2 ^ n -> s ∉ S -> ampAt x s = ampAt v s)
    (hin : forall s, s < 2 ^ n -> (ampAt x s).gap (ampAt v s) ≤ 2 * epsilon ^ 2) :
    distance n x v ≤ epsilon * Real.sqrt (2 * m) := by
  have hsum : ∑ s ∈ Finset.range (2 ^ n), (ampAt x s).gap (ampAt v s) ≤
      (2 * m) * epsilon ^ 2 := by
    calc ∑ s ∈ Finset.range (2 ^ n), (ampAt x s).gap (ampAt v s)
        = ∑ s ∈ (Finset.range (2 ^ n)).filter (· ∈ S), (ampAt x s).gap (ampAt v s) := by
          rw [Finset.sum_filter]
          apply Finset.sum_congr rfl
          intro s hs
          by_cases hmem : s ∈ S
          · rw [if_pos hmem]
          · rw [if_neg hmem, hout s (Finset.mem_range.mp hs) hmem, Amplitude.gap_self]
      _ ≤ ∑ _s ∈ (Finset.range (2 ^ n)).filter (· ∈ S), 2 * epsilon ^ 2 :=
          Finset.sum_le_sum fun s hs => hin s (Finset.mem_range.mp (Finset.mem_filter.mp hs).1)
      _ = ((Finset.range (2 ^ n)).filter (· ∈ S)).card * (2 * epsilon ^ 2) := by
          rw [Finset.sum_const, nsmul_eq_mul]
      _ ≤ m * (2 * epsilon ^ 2) := by
          have hfew : ((Finset.range (2 ^ n)).filter (· ∈ S)).card ≤ m :=
            (Finset.card_le_card fun s hs => (Finset.mem_filter.mp hs).2).trans hcard
          have hcast : (((Finset.range (2 ^ n)).filter (· ∈ S)).card : Real) ≤ m := by
            exact_mod_cast hfew
          exact mul_le_mul_of_nonneg_right hcast (by positivity)
      _ = (2 * m) * epsilon ^ 2 := by ring
  rw [distance_eq]
  calc Real.sqrt (∑ s ∈ Finset.range (2 ^ n), (ampAt x s).gap (ampAt v s))
      ≤ Real.sqrt ((2 * m) * epsilon ^ 2) := Real.sqrt_le_sqrt hsum
    _ = epsilon * Real.sqrt (2 * m) := by
        rw [Real.sqrt_mul (by positivity), Real.sqrt_sq hepsilon, mul_comm]

end Distance

/-!
## Pairs of amplitudes
-/

namespace StateVector

variable {n : Nat} {x v : List Real}

/-- The kernel takes no two pairs of amplitudes further apart. -/
def Contracts (kernel : PairKernel Real) : Prop :=
  forall s0 s1 a0 a1 b0 b1,
    (kernel s0 s1 a0 a1).2.1.gap (kernel s0 s1 b0 b1).2.1 +
        (kernel s0 s1 a0 a1).2.2.gap (kernel s0 s1 b0 b1).2.2 ≤
      a0.gap b0 + a1.gap b1

theorem distance_pairStep_le {kernel : PairKernel Real} (hkernel : Contracts kernel)
    (hx : x.length = 2 * 2 ^ n) (hv : v.length = 2 * 2 ^ n) {p : Nat × Nat} (h1 : p.1 < 2 ^ n)
    (h2 : p.2 < 2 ^ n) (hne : p.1 ≠ p.2) :
    distance n (pairStep kernel x p) (pairStep kernel v p) ≤ distance n x v := by
  apply distance_le_of_sum_le
  have hat : forall w : List Real, w.length = 2 * 2 ^ n -> forall s,
      ampAt (pairStep kernel w p) s =
        if s = p.2 then (kernel p.1 p.2 (ampAt w p.1) (ampAt w p.2)).2.2
        else if s = p.1 then (kernel p.1 p.2 (ampAt w p.1) (ampAt w p.2)).2.1 else ampAt w s := by
    intro w hw s
    rw [pairStep, ampAt_setAmp s _ (by rw [length_setAmp]; omega), ampAt_setAmp s _ (by omega)]
  have hsplit : forall f : Nat -> Real, ∑ s ∈ Finset.range (2 ^ n), f s =
      f p.1 + (f p.2 + ∑ s ∈ ((Finset.range (2 ^ n)).erase p.1).erase p.2, f s) := by
    intro f
    rw [Finset.add_sum_erase _ f (Finset.mem_erase.mpr ⟨Ne.symm hne, Finset.mem_range.mpr h2⟩),
      Finset.add_sum_erase _ f (Finset.mem_range.mpr h1)]
  have hrest : ∑ s ∈ ((Finset.range (2 ^ n)).erase p.1).erase p.2,
        (ampAt (pairStep kernel x p) s).gap (ampAt (pairStep kernel v p) s) =
      ∑ s ∈ ((Finset.range (2 ^ n)).erase p.1).erase p.2, (ampAt x s).gap (ampAt v s) := by
    apply Finset.sum_congr rfl
    intro s hs
    have hs2 := Finset.ne_of_mem_erase hs
    have hs1 := Finset.ne_of_mem_erase (Finset.mem_of_mem_erase hs)
    rw [hat x hx, hat v hv, if_neg hs2, if_neg hs1, if_neg hs2, if_neg hs1]
  have hpair := hkernel p.1 p.2 (ampAt x p.1) (ampAt x p.2) (ampAt v p.1) (ampAt v p.2)
  rw [hsplit, hsplit fun s => (ampAt x s).gap (ampAt v s), hrest, hat x hx, hat v hv, hat x hx,
    hat v hv, if_neg hne, if_pos rfl, if_neg hne, if_pos rfl, if_pos rfl, if_pos rfl]
  linarith

theorem contracts_hadamardPair : Contracts hadamardPair := by
  intro s0 s1 a0 a1 b0 b1
  rw [hadamardPair_snd, hadamardPair_snd]
  simp only [Amplitude.gap]
  apply le_of_eq
  linear_combination
    2 * ((a0.real - b0.real) ^ 2 + (a0.imag - b0.imag) ^ 2 + (a1.real - b1.real) ^ 2 +
      (a1.imag - b1.imag) ^ 2) * invSqrt2_mul_self

theorem contracts_pauliXPair : Contracts pauliXPair := by
  intro s0 s1 a0 a1 b0 b1
  rw [pauliXPair_snd, pauliXPair_snd]
  exact le_of_eq (add_comm _ _)

theorem contracts_controlledNotPair (controlMask : Nat) :
    Contracts (controlledNotPair controlMask) := by
  intro s0 s1 a0 a1 b0 b1
  rw [controlledNotPair_snd, controlledNotPair_snd]
  split
  · exact le_refl _
  · exact le_of_eq (add_comm _ _)

theorem contracts_controlledPhaseShiftPair (controlMask : Nat) (theta : Real) :
    Contracts (controlledPhaseShiftPair controlMask theta) := by
  intro s0 s1 a0 a1 b0 b1
  have hunit : CMath.cos theta ^ 2 + CMath.sin theta ^ 2 = 1 := Real.cos_sq_add_sin_sq theta
  rw [controlledPhaseShiftPair_snd, controlledPhaseShiftPair_snd]
  split
  · exact le_refl _
  · simp only [Amplitude.gap]
    apply le_of_eq
    linear_combination ((a1.real - b1.real) ^ 2 + (a1.imag - b1.imag) ^ 2) * hunit

end StateVector

end Tmfqs
