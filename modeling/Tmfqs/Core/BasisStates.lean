import Mathlib.Data.List.Sort
import Mathlib.Data.List.Nodup
import Mathlib.Algebra.Field.Defs
import Tmfqs.Core.Types

/-!
# Selected basis states

`std::sort` followed by `std::unique`, and the amplitude shared by the states
selected this way.
-/

namespace Tmfqs

/-- `std::unique`: keep the first of every run of equal neighbours. -/
def unique : List Nat -> List Nat
  | [] => []
  | [state] => [state]
  | state :: next :: rest =>
      if state = next then unique (next :: rest)
      else state :: unique (next :: rest)

/-- The states of a superposition, in increasing order and without repetition. -/
def selectedStates (basisStates : List Nat) : List Nat :=
  unique (basisStates.mergeSort (fun a b => decide (a ≤ b)))

theorem mem_unique (s : Nat) : forall states : List Nat, s ∈ unique states <-> s ∈ states
  | [] => Iff.rfl
  | [_] => Iff.rfl
  | state :: next :: rest => by
      rw [unique]
      by_cases h : state = next
      · subst h
        rw [if_pos rfl, mem_unique s (state :: rest)]
        simp
      · rw [if_neg h, List.mem_cons, mem_unique s (next :: rest)]
        exact List.mem_cons.symm

theorem pairwise_unique : forall states : List Nat,
    states.Pairwise (· ≤ ·) -> (unique states).Pairwise (· < ·)
  | [], _ => List.Pairwise.nil
  | [state], _ => List.pairwise_singleton _ state
  | state :: next :: rest, h => by
      have htail := pairwise_unique (next :: rest) (List.pairwise_cons.mp h).2
      rw [unique]
      by_cases heq : state = next
      · rw [if_pos heq]
        exact htail
      · rw [if_neg heq]
        refine List.pairwise_cons.mpr ⟨?_, htail⟩
        intro s hs
        have hle := (List.pairwise_cons.mp h).1
        have hnext := (List.pairwise_cons.mp (List.pairwise_cons.mp h).2).1
        have hstate : state ≤ next := hle next List.mem_cons_self
        rcases List.mem_cons.mp ((mem_unique s (next :: rest)).mp hs) with rfl | hrest
        · omega
        · have hs' := hnext s hrest
          omega

@[simp] theorem mem_selectedStates {basisStates : List Nat} {s : Nat} :
    s ∈ selectedStates basisStates <-> s ∈ basisStates := by
  rw [selectedStates, mem_unique, List.mem_mergeSort]

theorem pairwise_selectedStates (basisStates : List Nat) :
    (selectedStates basisStates).Pairwise (· < ·) := by
  apply pairwise_unique
  have hsorted := @List.pairwise_mergeSort Nat (fun a b => decide (a ≤ b))
    (by intro a b c; simp; omega) (by intro a b; simp; omega) basisStates
  simpa using hsorted

theorem nodup_selectedStates (basisStates : List Nat) :
    (selectedStates basisStates).Nodup :=
  (pairwise_selectedStates basisStates).imp (fun h => Nat.ne_of_lt h)

theorem selectedStates_ne_nil {basisStates : List Nat} (h : basisStates ≠ []) :
    selectedStates basisStates ≠ [] := by
  obtain ⟨s, hs⟩ := List.exists_mem_of_ne_nil _ h
  exact List.ne_nil_of_mem (mem_selectedStates.mpr hs)

def uniformAmplitude {R : Type} [Field R] [CMath R] (count : Nat) : Amplitude R :=
  { real := 1 / CMath.sqrt (count : R), imag := 0 }

end Tmfqs
