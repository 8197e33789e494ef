import Mathlib.Data.List.Dedup
import Mathlib.Data.List.Pairwise

/-!
# Recency lists

The distinct elements of a list of requests, the last requested first.  A store that keeps the
`n` most recently requested elements moves a requested one to the front and drops the oldest
one when it is full.
-/

namespace Tmfqs
namespace Library

variable {α : Type} [DecidableEq α]

/-- The distinct requested elements, the last requested one first. -/
def recent (requests : List α) : List α :=
  requests.dedup.reverse

/-!
## Requesting one more element
-/

@[simp] theorem recent_nil : recent ([] : List α) = [] := rfl

@[simp] theorem mem_recent {requests : List α} {a : α} :
    a ∈ recent requests <-> a ∈ requests := by
  rw [recent, List.mem_reverse, List.mem_dedup]

theorem dedup_concat (requests : List α) (a : α) :
    (requests ++ [a]).dedup = requests.dedup.erase a ++ [a] := by
  induction requests with
  | nil => rfl
  | cons b rest ih =>
      rw [List.cons_append]
      by_cases hb : b ∈ rest
      · rw [List.dedup_cons_of_mem (List.mem_append_left [a] hb), List.dedup_cons_of_mem hb]
        exact ih
      · rw [List.dedup_cons_of_notMem hb]
        by_cases hab : b = a
        · subst hab
          have hlast : b ∈ rest ++ [b] := List.mem_append_right rest (List.mem_singleton_self b)
          have hfresh : b ∉ rest.dedup := fun hmem => hb (List.mem_dedup.mp hmem)
          rw [List.dedup_cons_of_mem hlast, ih, List.erase_cons_head, List.erase_of_not_mem hfresh]
        · have hfresh : b ∉ rest ++ [a] := by
            intro hmem
            rcases List.mem_append.mp hmem with hrest | hlast
            · exact hb hrest
            · exact hab (List.mem_singleton.mp hlast)
          have hne : ¬ (b == a) = true := fun heq => hab (eq_of_beq heq)
          rw [List.dedup_cons_of_notMem hfresh, ih, List.erase_cons_tail hne, List.cons_append]

theorem recent_concat (requests : List α) (a : α) :
    recent (requests ++ [a]) = a :: (recent requests).erase a := by
  have hperm : (requests.dedup.erase a).reverse = requests.dedup.reverse.erase a := by
    have hnodup := List.nodup_dedup requests
    rw [hnodup.erase_eq_filter, (List.nodup_reverse.mpr hnodup).erase_eq_filter,
      List.filter_reverse]
  rw [recent, dedup_concat, List.reverse_append, List.reverse_singleton, List.singleton_append,
    hperm, recent]

theorem head?_recent (requests : List α) : (recent requests).head? = requests.getLast? := by
  rcases List.eq_nil_or_concat requests with hnil | ⟨rest, a, hconcat⟩
  · rw [hnil]
    rfl
  · rw [hconcat, List.concat_eq_append, recent_concat, List.head?_cons, List.getLast?_concat]

/-!
## The most recent ones
-/

theorem take_erase_of_mem (a : α) (l : List α) :
    forall n, a ∈ l.take (n + 1) -> (l.erase a).take n = (l.take (n + 1)).erase a := by
  induction l with
  | nil =>
      intro n h
      cases h
  | cons b rest ih =>
      intro n h
      rw [List.take_succ_cons] at h ⊢
      by_cases hab : b = a
      · subst hab
        rw [List.erase_cons_head, List.erase_cons_head]
      · have hne : ¬ (b == a) = true := fun heq => hab (eq_of_beq heq)
        rw [List.erase_cons_tail hne, List.erase_cons_tail hne]
        rcases List.mem_cons.mp h with heq | hrest
        · exact absurd heq.symm hab
        · cases n with
          | zero => cases hrest
          | succ m => rw [List.take_succ_cons, ih m hrest]

theorem take_erase_of_not_mem (a : α) (l : List α) :
    forall n, a ∉ l.take n -> (l.erase a).take n = l.take n := by
  induction l with
  | nil =>
      intro n _
      rfl
  | cons b rest ih =>
      intro n h
      cases n with
      | zero => rfl
      | succ m =>
          rw [List.take_succ_cons] at h
          have hne : ¬ (b == a) = true := by
            intro heq
            rw [eq_of_beq heq] at h
            exact h List.mem_cons_self
          have hrest : a ∉ rest.take m := fun hmem => h (List.mem_cons_of_mem b hmem)
          rw [List.erase_cons_tail hne, List.take_succ_cons, List.take_succ_cons, ih m hrest]

omit [DecidableEq α] in
theorem eq_last_of_oldest {time : α -> Nat} {l : List α} {a w : α}
    (h : (l ++ [a]).Pairwise fun b c => time c < time b) (hw : w ∈ l ++ [a])
    (hold : time w ≤ time a) : w = a := by
  rcases List.mem_append.mp hw with hmem | hmem
  · have hlt := (List.pairwise_append.mp h).2.2 w hmem a (List.mem_singleton_self a)
    exact absurd hold (Nat.not_le.mpr hlt)
  · exact List.mem_singleton.mp hmem

/-!
## Replacing the oldest one
-/

/--
Of `n` kept elements only the oldest has to leave when one that is not kept is requested: kept
are again the `n` most recent ones.
-/
theorem take_front {n : Nat} {order : List α} {time : α -> Nat} {a : α} {victim : Option α}
    (hn : 0 < n) (hnodup : order.Nodup)
    (haged : (order.take n).Pairwise fun b c => time c < time b)
    (hevicts : forall w, victim = some w -> a ∉ order.take n ∧ n ≤ order.length ∧
      w ∈ order.take n ∧ forall b, b ∈ order.take n -> time w ≤ time b)
    (hkeeps : victim = none -> a ∈ order.take n ∨ order.length < n) :
    exists rest, (a :: order.erase a).take n = a :: rest ∧ rest.Sublist (order.take n) ∧
      forall b, b ∈ rest <-> b ≠ a ∧ b ∈ order.take n ∧ victim ≠ some b := by
  obtain ⟨m, rfl⟩ : exists m, n = m + 1 := ⟨n - 1, by omega⟩
  rw [List.take_succ_cons]
  by_cases hmem : a ∈ order.take (m + 1)
  · have hnone : victim = none := by
      cases hvictim : victim with
      | none => rfl
      | some w => exact absurd hmem (hevicts w hvictim).1
    have htake : (order.take (m + 1)).Nodup := hnodup.sublist (List.take_sublist _ _)
    refine ⟨_, by rw [take_erase_of_mem a order m hmem], List.erase_sublist, ?_⟩
    intro b
    rw [htake.mem_erase_iff, hnone]
    simp
  · have hsub : (order.take m).Sublist (order.take (m + 1)) :=
      List.take_sublist_take_left (Nat.le_succ m)
    have hfresh : a ∉ order.take m := fun h => hmem (hsub.mem h)
    refine ⟨_, by rw [take_erase_of_not_mem a order m hfresh], hsub, ?_⟩
    intro b
    cases hvictim : victim with
    | none =>
        have hroom : order.length < m + 1 := by
          rcases hkeeps hvictim with h | h
          · exact absurd h hmem
          · exact h
        have hsame : order.take (m + 1) = order.take m := by
          rw [List.take_of_length_le (Nat.le_of_lt_succ hroom),
            List.take_of_length_le (Nat.le_of_lt hroom)]
        rw [hsame]
        constructor
        · intro hb
          exact ⟨fun heq => hfresh (heq ▸ hb), hb, by simp⟩
        · intro hb
          exact hb.2.1
    | some w =>
        obtain ⟨_, hfull, hw, hold⟩ := hevicts w hvictim
        have hlast : order.take (m + 1) = order.take m ++ [order[m]] :=
          List.take_succ_eq_append_getElem hfull
        have hmemlast : order[m] ∈ order.take (m + 1) := by
          rw [hlast]
          exact List.mem_append_right _ (List.mem_singleton_self _)
        have hoften : order[m] ∉ order.take m := by
          have htake : (order.take (m + 1)).Nodup := hnodup.sublist (List.take_sublist _ _)
          rw [hlast] at htake
          intro hin
          exact (List.nodup_append.mp htake).2.2 _ hin _ (List.mem_singleton_self _) rfl
        have holdest := hold order[m] hmemlast
        rw [hlast] at haged hw
        have heq : w = order[m] := eq_last_of_oldest haged hw holdest
        rw [hlast, heq]
        constructor
        · intro hb
          refine ⟨fun hba => hfresh (hba ▸ hb), List.mem_append_left _ hb, ?_⟩
          intro hvb
          rw [Option.some.inj hvb] at hoften
          exact hoften hb
        · rintro ⟨_, hb, hne⟩
          rcases List.mem_append.mp hb with hin | hin
          · exact hin
          · exact absurd (congrArg some (List.mem_singleton.mp hin).symm) hne

end Library
end Tmfqs
