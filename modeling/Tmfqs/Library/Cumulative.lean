import Mathlib.Order.Lattice
import Mathlib.Algebra.BigOperators.Group.List.Basic

/-!
# Searching cumulative sums

A loop that adds up weights and stops at the first partial sum that reaches a
threshold, over any ordered additive monoid.
-/

namespace Tmfqs
namespace Library

variable {R : Type} [AddMonoid R] [LinearOrder R]

/--
Add up `weights` from `cumulative` on.  Returns the position where the partial
sum first reaches `threshold`, if any, and the sum at which the loop stopped.
-/
def searchCumulative (threshold : R) : R -> List R -> Option Nat × R
  | cumulative, [] => (none, cumulative)
  | cumulative, weight :: rest =>
      if threshold ≤ cumulative + weight then
        (some 0, cumulative + weight)
      else
        ((searchCumulative threshold (cumulative + weight) rest).1.map (· + 1),
          (searchCumulative threshold (cumulative + weight) rest).2)

theorem searchCumulative_append (threshold : R) (xs ys : List R) :
    forall cumulative, searchCumulative threshold cumulative (xs ++ ys) =
      match searchCumulative threshold cumulative xs with
      | (some i, total) => (some i, total)
      | (none, total) =>
          ((searchCumulative threshold total ys).1.map (· + xs.length),
            (searchCumulative threshold total ys).2) := by
  induction xs with
  | nil =>
      intro cumulative
      simp [searchCumulative]
  | cons weight rest ih =>
      intro cumulative
      rw [List.cons_append, searchCumulative, searchCumulative]
      by_cases h : threshold ≤ cumulative + weight
      · simp only [if_pos h]
      · simp only [if_neg h, ih]
        rcases searchCumulative threshold (cumulative + weight) rest with ⟨_ | i, total⟩
        · simp only [Option.map_none, Option.map_map, List.length_cons]
          congr 2
        · rfl

/-- The search stops exactly at the first partial sum not below the threshold. -/
theorem searchCumulative_eq_some_iff {threshold : R} {weights : List R} {i : Nat} :
    forall {cumulative : R}, (searchCumulative threshold cumulative weights).1 = some i <->
      i < weights.length ∧ threshold ≤ cumulative + (weights.take (i + 1)).sum ∧
        forall j, j < i -> cumulative + (weights.take (j + 1)).sum < threshold := by
  induction weights generalizing i with
  | nil =>
      intro cumulative
      simp [searchCumulative]
  | cons weight rest ih =>
      intro cumulative
      rw [searchCumulative]
      by_cases h : threshold ≤ cumulative + weight
      · rw [if_pos h]
        constructor
        · intro hi
          have hi' : 0 = i := by simpa using hi
          subst hi'
          refine ⟨by simp, by simpa using h, by simp⟩
        · rintro ⟨_, _, hbefore⟩
          cases i with
          | zero => rfl
          | succ i =>
              have hfirst := hbefore 0 (Nat.succ_pos i)
              simp only [List.take_succ_cons, List.take_zero, List.sum_cons, List.sum_nil,
                add_zero] at hfirst
              exact absurd h (not_le.mpr hfirst)
      · rw [if_neg h]
        cases i with
        | zero =>
            simp only [Option.map_eq_some_iff]
            constructor
            · rintro ⟨j, _, hj⟩
              exact absurd hj (Nat.succ_ne_zero j)
            · rintro ⟨_, hreach, _⟩
              simp only [List.take_succ_cons, List.take_zero, List.sum_cons,
                List.sum_nil, add_zero] at hreach
              exact absurd hreach h
        | succ i =>
            have hstep : (searchCumulative threshold (cumulative + weight) rest).1.map (· + 1) =
                some (i + 1) <->
                  (searchCumulative threshold (cumulative + weight) rest).1 = some i := by
              simp
            rw [hstep, ih]
            simp only [List.length_cons, Nat.add_lt_add_iff_right, List.take_succ_cons,
              List.sum_cons, ← add_assoc]
            constructor
            · rintro ⟨hi, hreach, hbefore⟩
              refine ⟨hi, hreach, ?_⟩
              intro j hj
              cases j with
              | zero => simpa using h
              | succ j => exact hbefore j (Nat.lt_of_succ_lt_succ hj)
            · rintro ⟨hi, hreach, hbefore⟩
              exact ⟨hi, hreach, fun j hj => hbefore (j + 1) (Nat.succ_lt_succ hj)⟩

theorem exists_searchCumulative {threshold : R} {weights : List R} (hne : weights ≠ []) :
    forall {cumulative : R}, threshold ≤ cumulative + weights.sum ->
      exists i, (searchCumulative threshold cumulative weights).1 = some i := by
  induction weights with
  | nil => exact absurd rfl hne
  | cons weight rest ih =>
      intro cumulative h
      rw [searchCumulative]
      by_cases hle : threshold ≤ cumulative + weight
      · rw [if_pos hle]
        exact ⟨0, rfl⟩
      · rw [if_neg hle]
        rw [List.sum_cons, ← add_assoc] at h
        have hrest : rest ≠ [] := by
          rintro rfl
          rw [List.sum_nil, add_zero] at h
          exact hle h
        obtain ⟨i, hi⟩ := ih hrest h
        exact ⟨i + 1, by rw [hi]; rfl⟩

end Library
end Tmfqs
