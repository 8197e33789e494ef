import Mathlib.Algebra.Field.GeomSum
import Mathlib.RingTheory.RootsOfUnity.PrimitiveRoots

/-!
# Fourier sums of periodic functions

The powers of a root of unity add up to zero along every frequency that the order does not
divide.  So the Fourier sum of a function that repeats itself vanishes away from the
multiples of the number of its periods.
-/

namespace Tmfqs
namespace Library

open Finset

theorem sum_range_blocks {M : Type} [AddCommMonoid M] (p m : Nat) (g : Nat -> M) :
    ∑ x ∈ range (p * m), g x = ∑ j ∈ range m, ∑ o ∈ range p, g (p * j + o) := by
  induction m with
  | zero =>
      rfl
  | succ m ih =>
      rw [Nat.mul_succ, sum_range_add, ih, sum_range_succ]

section Roots

variable {K : Type} [Field K] {zeta : K} {p m : Nat}

theorem sum_powers (hroot : IsPrimitiveRoot zeta m) (y : Nat) :
    ∑ j ∈ range m, zeta ^ (j * y) = if m ∣ y then (m : K) else 0 := by
  have hpow : forall j, zeta ^ (j * y) = (zeta ^ y) ^ j := by
    intro j
    rw [← pow_mul, Nat.mul_comm]
  rw [sum_congr rfl fun j _ => hpow j]
  by_cases hdvd : m ∣ y
  · rw [if_pos hdvd, (hroot.pow_eq_one_iff_dvd y).mpr hdvd]
    simp
  · have hne : zeta ^ y ≠ 1 := fun h => hdvd ((hroot.pow_eq_one_iff_dvd y).mp h)
    have hlast : (zeta ^ y) ^ m = 1 := by
      rw [← pow_mul, Nat.mul_comm, pow_mul, hroot.pow_eq_one, one_pow]
    rw [if_neg hdvd, geom_sum_eq hne, hlast, sub_self, zero_div]

omit [Field K] in
theorem periodic_mul {f : Nat -> K} (hf : forall x, f (x + p) = f x) (j o : Nat) :
    f (p * j + o) = f o := by
  induction j with
  | zero =>
      rw [Nat.mul_zero, Nat.zero_add]
  | succ j ih =>
      rw [← ih, ← hf (p * j + o)]
      congr 1
      ring

theorem sum_periodic (hp : 0 < p) (hm : 0 < m) (hroot : IsPrimitiveRoot zeta (p * m))
    {f : Nat -> K} (hf : forall x, f (x + p) = f x) (y : Nat) :
    ∑ x ∈ range (p * m), zeta ^ (x * y) * f x =
      (∑ o ∈ range p, zeta ^ (o * y) * f o) * if m ∣ y then (m : K) else 0 := by
  have hroot' : IsPrimitiveRoot (zeta ^ p) m := hroot.pow (Nat.mul_pos hp hm) rfl
  have hblock : forall j o, zeta ^ ((p * j + o) * y) * f (p * j + o) =
      zeta ^ (o * y) * f o * (zeta ^ p) ^ (j * y) := by
    intro j o
    rw [periodic_mul hf, ← pow_mul, Nat.add_mul, pow_add, Nat.mul_assoc]
    ring
  rw [sum_range_blocks, sum_congr rfl fun j _ => sum_congr rfl fun o _ => hblock j o]
  calc ∑ j ∈ range m, ∑ o ∈ range p, zeta ^ (o * y) * f o * (zeta ^ p) ^ (j * y)
      = ∑ j ∈ range m, (∑ o ∈ range p, zeta ^ (o * y) * f o) * (zeta ^ p) ^ (j * y) := by
        apply sum_congr rfl
        intro j _
        rw [sum_mul]
    _ = (∑ o ∈ range p, zeta ^ (o * y) * f o) * ∑ j ∈ range m, (zeta ^ p) ^ (j * y) := by
        rw [mul_sum]
    _ = (∑ o ∈ range p, zeta ^ (o * y) * f o) * if m ∣ y then (m : K) else 0 := by
        rw [sum_powers hroot']

end Roots

end Library
end Tmfqs
