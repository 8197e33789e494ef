import Tmfqs.Library.Loop

/-!
# What a call does not look at

A call ignores a change of the object when it runs the same with and without it: the outcome
is the same, and the change is still there at the end.
-/

namespace Tmfqs
namespace Library
namespace Call

variable {ε σ τ α β ι : Type}

/-- Running from `f s` is running from `s`, with `f` applied to the state reached. -/
def Ignores (f : σ -> σ) (x : Call ε σ α) : Prop :=
  forall s, x (f s) = ((x s).1, f (x s).2)

def beside (f : σ -> σ) (t : σ × τ) : σ × τ :=
  (f t.1, t.2)

variable {f : σ -> σ} {x : Call ε σ α}

theorem ignores_pure (a : α) : Ignores f (pure a : Call ε σ α) :=
  fun _ => rfl

theorem ignores_throw (e : ε) : Ignores f (throw e : Call ε σ α) :=
  fun _ => rfl

theorem ignores_modify {g : σ -> σ} (h : forall s, g (f s) = f (g s)) :
    Ignores f (modify g : Call ε σ PUnit) := by
  intro s
  rw [modify_apply, modify_apply, h]

theorem Ignores.bind {g : α -> Call ε σ β} (hx : Ignores f x) (hg : forall a, Ignores f (g a)) :
    Ignores f (x >>= g) := by
  intro s
  rw [bind_apply, bind_apply, hx s]
  rcases x s with ⟨r, s'⟩
  cases r with
  | ok a => exact hg a s'
  | error e => rfl

theorem ignores_get_bind {g : σ -> Call ε σ α} (hread : forall s, g (f s) = g s)
    (hg : forall s, Ignores f (g s)) : Ignores f (get >>= g) := by
  intro s
  change g (f s) (f s) = _
  rw [hread]
  exact hg s s

theorem Ignores.ite {p : Prop} [Decidable p] {y : Call ε σ α} (hx : Ignores f x)
    (hy : Ignores f y) : Ignores f (if p then x else y) := by
  split
  · exact hx
  · exact hy

theorem ignores_focus {f : τ -> τ} {view : τ -> σ} {put : τ -> σ -> τ} (x : Call ε σ α)
    (hview : forall t, view (f t) = view t) (hput : forall t s, put (f t) s = f (put t s)) :
    Ignores f (Call.focus view put x) := by
  intro t
  rw [focus_apply, focus_apply, hview, hput]

theorem Ignores.onObject (hx : Ignores f x) :
    Ignores (beside (τ := τ) f) (Call.onObject x) := by
  rintro ⟨s, a⟩
  change ((x (f s)).1, ((x (f s)).2, a)) = _
  rw [hx s]
  rfl

theorem Ignores.withLocal {init_ : τ} {x : Call ε (σ × τ) α} (hx : Ignores (beside f) x) :
    Ignores f (Call.withLocal init_ x) := by
  intro s
  have hrun := hx (s, init_)
  change ((x (beside f (s, init_))).1, (x (beside f (s, init_))).2.1) = _
  rw [hrun]
  rfl

/-!
## Loops
-/

theorem Ignores.forM {g : ι -> Call ε σ PUnit} (l : List ι) (hg : forall i, Ignores f (g i)) :
    Ignores f (l.forM g) := by
  induction l with
  | nil => exact ignores_pure _
  | cons i rest ih => exact Ignores.bind (hg i) (fun _ => ih)

theorem Ignores.foldlM {g : β -> ι -> Call ε σ β} (l : List ι)
    (hg : forall b i, Ignores f (g b i)) (b : β) : Ignores f (l.foldlM g b) := by
  induction l generalizing b with
  | nil => exact ignores_pure b
  | cons i rest ih =>
      rw [List.foldlM_cons]
      exact (hg b i).bind ih

theorem Ignores.strideFrom {body : Nat -> Call ε σ PUnit} (hbody : forall i, Ignores f (body i))
    (wrap : Nat -> Nat) (never : ε) (limit stride : Nat) :
    forall fuel base, Ignores f (Call.strideFrom wrap never limit stride body fuel base)
  | 0, base => by
      unfold Call.strideFrom
      exact Ignores.ite (ignores_throw never) (ignores_pure _)
  | fuel + 1, base => by
      unfold Call.strideFrom
      apply Ignores.ite
      · apply (hbody base).bind
        intro _
        exact Ignores.strideFrom hbody wrap never limit stride fuel _
      · exact ignores_pure _

theorem Ignores.strideLoop {body : Nat -> Call ε σ PUnit} (hbody : forall i, Ignores f (body i))
    (wrap : Nat -> Nat) (never : ε) (limit stride : Nat) :
    Ignores f (Call.strideLoop wrap never limit stride body) :=
  Ignores.strideFrom hbody wrap never limit stride _ _

end Call
end Library
end Tmfqs
