import Tmfqs.Library.Interrupted

/-!
# An object with a standby

Every call is made on an object and on its standby.  While the calls on the object return,
their values count; from the first exception on the standby answers alone.  What a call on
the object returns, the pair returns as well.
-/

namespace Tmfqs
namespace Library

variable {ε σ τ α : Type}

structure Standby (σ τ : Type) where
  standby : τ
  live : Option σ

namespace Standby

def alone (y : Call ε τ α) : Call ε (Standby σ τ) α :=
  fun g => ((y g.standby).1, { standby := (y g.standby).2, live := none })

def guard (x : Call ε σ α) (y : Call ε τ α) : Call ε (Standby σ τ) α :=
  fun g =>
    match g.live with
    | none => alone y g
    | some s =>
        match x s with
        | (.ok a, s') => (.ok a, { standby := (y g.standby).2, live := some s' })
        | (.error _, _) => alone y g

def Live (s : σ) (g : Standby σ τ) : Prop :=
  g.live = some s

/-- What holds of the standby, and of the object while it is live. -/
def Both (S : τ -> Prop) (T : σ -> Prop) (g : Standby σ τ) : Prop :=
  S g.standby ∧ forall s, Live s g -> T s

section Cases

variable {x : Call ε σ α} {y : Call ε τ α} {g : Standby σ τ} {s s' : σ}

theorem guard_of_none (h : g.live = none) : guard x y g = alone y g := by
  rw [guard, h]

theorem guard_of_ok {a : α} (h : Live s g) (hx : x s = (.ok a, s')) :
    guard x y g = (.ok a, { standby := (y g.standby).2, live := some s' }) := by
  rw [guard, h]
  simp only [hx]

theorem guard_of_error {e : ε} (h : Live s g) (hx : x s = (.error e, s')) :
    guard x y g = alone y g := by
  rw [guard, h]
  simp only [hx]

end Cases

theorem followed_guard (x : Call ε σ α) (y : Call ε τ α) : Call.Followed Live x (guard x y) := by
  intro s g hlive
  unfold Call.FollowedAt Call.Post
  rcases hx : x s with ⟨result, s'⟩
  cases result with
  | ok a => exact ⟨_, guard_of_ok hlive hx, rfl⟩
  | error e => trivial

section Post

variable {x : Call ε σ α} {y : Call ε τ α} {g : Standby σ τ} {A : α -> Prop} {E : ε -> Prop}
  {S : τ -> Prop} {T : σ -> Prop}

theorem post_alone
    (hy : Call.Post y g.standby (fun a t => A a ∧ S t) (fun e t => E e ∧ S t)) :
    Call.Post (alone y) g (fun a g' => A a ∧ Both S T g') (fun e g' => E e ∧ Both S T g') := by
  have hnone : forall t : τ, S t -> Both S T ({ standby := t, live := none } : Standby σ τ) := by
    intro t ht
    refine ⟨ht, ?_⟩
    intro s hs
    cases hs
  unfold Call.Post alone at *
  rcases hrun : y g.standby with ⟨result, t⟩
  rw [hrun] at hy
  cases result with
  | ok a => exact ⟨hy.1, hnone t hy.2⟩
  | error e => exact ⟨hy.1, hnone t hy.2⟩

/-- What is true of the values of both calls is true of the pair, which throws as its standby. -/
theorem post_guard
    (hy : Call.Post y g.standby (fun a t => A a ∧ S t) (fun e t => E e ∧ S t))
    (hx : forall s, Live s g -> Call.Post x s (fun a s' => A a ∧ T s') (fun _ _ => True)) :
    Call.Post (guard x y) g (fun a g' => A a ∧ Both S T g') (fun e g' => E e ∧ Both S T g') := by
  have hstandby : S (y g.standby).2 := by
    unfold Call.Post at hy
    rcases hrun : y g.standby with ⟨result, t⟩
    rw [hrun] at hy
    cases result with
    | ok a => exact hy.2
    | error e => exact hy.2
  cases hlive : g.live with
  | none =>
      unfold Call.Post
      rw [guard_of_none hlive]
      exact post_alone hy
  | some s =>
      have hs := hx s hlive
      unfold Call.Post at hs ⊢
      rcases hrun : x s with ⟨result, s'⟩
      rw [hrun] at hs
      cases result with
      | ok a =>
          rw [guard_of_ok hlive hrun]
          refine ⟨hs.1, hstandby, ?_⟩
          intro s1 hs1
          cases hs1
          exact hs.2
      | error e =>
          rw [guard_of_error hlive hrun]
          exact post_alone hy

end Post

end Standby

end Library
end Tmfqs
