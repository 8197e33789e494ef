import Mathlib.Data.Nat.Bitwise
import Mathlib.Algebra.BigOperators.Group.Finset.Sigma

/-!
# Scattering the bits of an index

`scatter ps x` moves bit `i` of `x` to position `ps[i]`, and `gather ps s` reads
those positions back.  Two lists that together name every position below `n`
split the indices below `2 ^ n` into pairs of smaller indices, each index
exactly once.
-/

namespace Tmfqs
namespace Library

def scatter : List Nat -> Nat -> Nat
  | [], _ => 0
  | p :: ps, x => (if x.testBit 0 then 2 ^ p else 0) ||| scatter ps (x / 2)

/-- Read the bits at the positions `ps`, the first one least significant. -/
def gather : List Nat -> Nat -> Nat
  | [], _ => 0
  | p :: ps, s => Nat.bit (s.testBit p) (gather ps s)

theorem testBit_scatter (ps : List Nat) (x q : Nat) :
    (scatter ps x).testBit q = true <->
      exists i, ps[i]? = some q ∧ x.testBit i = true := by
  induction ps generalizing x with
  | nil =>
      simp [scatter]
  | cons p ps ih =>
      rw [scatter, Nat.testBit_or, Bool.or_eq_true, ih]
      constructor
      · rintro (hhead | ⟨i, hget, hbit⟩)
        · cases hx : x.testBit 0 with
          | false =>
              simp [hx] at hhead
          | true =>
              have hpq : p = q := by
                simpa [hx, Nat.testBit_two_pow] using hhead
              exact ⟨0, by simp [hpq], hx⟩
        · refine ⟨i + 1, by simpa using hget, ?_⟩
          rwa [Nat.testBit_succ]
      · rintro ⟨i, hget, hbit⟩
        cases i with
        | zero =>
            have hpq : p = q := by simpa using hget
            apply Or.inl
            simp [hbit, hpq]
        | succ i =>
            apply Or.inr
            rw [Nat.testBit_succ] at hbit
            exact ⟨i, by simpa using hget, hbit⟩

theorem testBit_scatter_of_not_mem {ps : List Nat} {q : Nat} (x : Nat)
    (h : q ∉ ps) : (scatter ps x).testBit q = false := by
  cases hbit : (scatter ps x).testBit q with
  | false => rfl
  | true =>
      rcases (testBit_scatter ps x q).mp hbit with ⟨i, hget, _⟩
      exact absurd (List.mem_of_getElem? hget) h

theorem testBit_gather (ps : List Nat) (s i : Nat) :
    (gather ps s).testBit i =
      match ps[i]? with
      | some p => s.testBit p
      | none => false := by
  induction ps generalizing i with
  | nil =>
      simp [gather]
  | cons p ps ih =>
      cases i with
      | zero =>
          simp [gather]
      | succ i =>
          rw [gather, Nat.testBit_bit_succ, ih]
          simp

theorem gather_append (ps qs : List Nat) (s : Nat) :
    gather (ps ++ qs) s = gather ps s + 2 ^ ps.length * gather qs s := by
  induction ps with
  | nil =>
      simp [gather]
  | cons p ps ih =>
      rw [List.cons_append, gather, gather, ih, Nat.bit_val, Nat.bit_val, List.length_cons,
        Nat.pow_succ, Nat.mul_add, Nat.mul_comm (2 ^ ps.length) 2, Nat.mul_assoc]
      omega

theorem gather_congr {ps : List Nat} {s s' : Nat}
    (h : forall p, p ∈ ps -> s.testBit p = s'.testBit p) : gather ps s = gather ps s' := by
  induction ps with
  | nil => rfl
  | cons p ps ih =>
      rw [gather, gather, h p List.mem_cons_self,
        ih fun q hq => h q (List.mem_cons_of_mem p hq)]

theorem gather_lt (ps : List Nat) (s : Nat) : gather ps s < 2 ^ ps.length := by
  apply Nat.lt_pow_two_of_testBit
  intro i hi
  rw [testBit_gather, List.getElem?_eq_none hi]

theorem scatter_lt {ps : List Nat} {n : Nat} (x : Nat)
    (h : forall p, p ∈ ps -> p < n) : scatter ps x < 2 ^ n := by
  apply Nat.lt_pow_two_of_testBit
  intro i hi
  apply testBit_scatter_of_not_mem
  intro hmem
  exact absurd (h i hmem) (by omega)

theorem gather_scatter_or {ps : List Nat} (hnodup : ps.Nodup) {x y : Nat}
    (hx : x < 2 ^ ps.length) (hy : forall p, p ∈ ps -> y.testBit p = false) :
    gather ps (scatter ps x ||| y) = x := by
  apply Nat.eq_of_testBit_eq
  intro i
  rw [testBit_gather]
  cases hget : ps[i]? with
  | none =>
      have hi : ps.length ≤ i := by simpa using hget
      have hlt : x < 2 ^ i := Nat.lt_of_lt_of_le hx (Nat.pow_le_pow_right (by decide) hi)
      simp [Nat.testBit_lt_two_pow hlt]
  | some p =>
      have hzero : y.testBit p = false := hy p (List.mem_of_getElem? hget)
      show (scatter ps x ||| y).testBit p = x.testBit i
      rw [Nat.testBit_or, hzero, Bool.or_false]
      cases hbit : x.testBit i with
      | true =>
          exact (testBit_scatter ps x p).mpr ⟨i, hget, hbit⟩
      | false =>
          cases hscat : (scatter ps x).testBit p with
          | false => rfl
          | true =>
              rcases (testBit_scatter ps x p).mp hscat with ⟨j, hj, hjbit⟩
              obtain ⟨hilt, hival⟩ := List.getElem?_eq_some_iff.mp hget
              obtain ⟨hjlt, hjval⟩ := List.getElem?_eq_some_iff.mp hj
              have hij : j = i :=
                (List.Nodup.getElem_inj_iff hnodup).mp (by rw [hival, hjval])
              rw [hij, hbit] at hjbit
              cases hjbit

/-- Two lists of distinct positions that together name every position below `n` once. -/
structure Splits (ps qs : List Nat) (n : Nat) : Prop where
  nodupLeft : ps.Nodup
  nodupRight : qs.Nodup
  disjoint : forall p, p ∈ ps -> p ∉ qs
  cover : forall p, p < n <-> p ∈ ps ∨ p ∈ qs

namespace Splits

variable {ps qs : List Nat} {n : Nat}

theorem swap (h : Splits ps qs n) : Splits qs ps n where
  nodupLeft := h.nodupRight
  nodupRight := h.nodupLeft
  disjoint := fun p hq hp => h.disjoint p hp hq
  cover := fun p => (h.cover p).trans Or.comm

theorem join_lt (h : Splits ps qs n) (x y : Nat) :
    scatter ps x ||| scatter qs y < 2 ^ n :=
  Nat.or_lt_two_pow
    (scatter_lt x (fun p hp => (h.cover p).mpr (Or.inl hp)))
    (scatter_lt y (fun p hp => (h.cover p).mpr (Or.inr hp)))

theorem gather_left (h : Splits ps qs n) {x : Nat} (y : Nat)
    (hx : x < 2 ^ ps.length) :
    gather ps (scatter ps x ||| scatter qs y) = x :=
  gather_scatter_or h.nodupLeft hx
    (fun p hp => testBit_scatter_of_not_mem y (h.disjoint p hp))

theorem gather_right (h : Splits ps qs n) (x : Nat) {y : Nat}
    (hy : y < 2 ^ qs.length) :
    gather qs (scatter ps x ||| scatter qs y) = y := by
  rw [Nat.or_comm]
  exact h.swap.gather_left x hy

theorem join_gather (h : Splits ps qs n) {s : Nat} (hs : s < 2 ^ n) :
    scatter ps (gather ps s) ||| scatter qs (gather qs s) = s := by
  have hbits : forall (l : List Nat) (q : Nat),
      (scatter l (gather l s)).testBit q = true <-> q ∈ l ∧ s.testBit q = true := by
    intro l q
    rw [testBit_scatter]
    constructor
    · rintro ⟨i, hget, hbit⟩
      rw [testBit_gather, hget] at hbit
      exact ⟨List.mem_of_getElem? hget, hbit⟩
    · rintro ⟨hmem, hbit⟩
      obtain ⟨i, hget⟩ := List.mem_iff_getElem?.mp hmem
      refine ⟨i, hget, ?_⟩
      rw [testBit_gather, hget]
      exact hbit
  apply Nat.eq_of_testBit_eq
  intro q
  rw [Bool.eq_iff_iff, Nat.testBit_or, Bool.or_eq_true, hbits, hbits]
  constructor
  · rintro (⟨_, hbit⟩ | ⟨_, hbit⟩) <;> exact hbit
  · intro hbit
    have hq : q < n := by
      by_contra hge
      have hlt : s < 2 ^ q :=
        Nat.lt_of_lt_of_le hs (Nat.pow_le_pow_right (by decide) (by omega))
      rw [Nat.testBit_lt_two_pow hlt] at hbit
      cases hbit
    rcases (h.cover q).mp hq with hp | hq'
    · exact Or.inl ⟨hp, hbit⟩
    · exact Or.inr ⟨hq', hbit⟩

theorem sum_range {M : Type} [AddCommMonoid M] (h : Splits ps qs n) (f : Nat -> M) :
    ∑ s ∈ Finset.range (2 ^ n), f s =
      ∑ x ∈ Finset.range (2 ^ ps.length), ∑ y ∈ Finset.range (2 ^ qs.length),
        f (scatter ps x ||| scatter qs y) := by
  rw [← Finset.sum_product']
  refine Finset.sum_bij' (fun s _ => (gather ps s, gather qs s))
    (fun xy _ => scatter ps xy.1 ||| scatter qs xy.2) ?_ ?_ ?_ ?_ ?_
  · intro s _
    simp [gather_lt]
  · intro xy _
    exact Finset.mem_range.mpr (h.join_lt xy.1 xy.2)
  · intro s hs
    exact h.join_gather (Finset.mem_range.mp hs)
  · rintro ⟨x, y⟩ hxy
    rw [Finset.mem_product, Finset.mem_range, Finset.mem_range] at hxy
    exact Prod.ext (h.gather_left y hxy.1) (h.gather_right x hxy.2)
  · intro s hs
    rw [h.join_gather (Finset.mem_range.mp hs)]

end Splits

end Library
end Tmfqs
