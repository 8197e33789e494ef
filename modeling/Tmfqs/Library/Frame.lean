import Tmfqs.Library.Call

/-!
# What a call keeps

A view of the object that a call leaves as it was, whether the call returns or throws,
and an invariant that a call keeps when it returns.
-/

namespace Tmfqs
namespace Library
namespace Call

variable {ε σ τ α β γ δ ι : Type}

theorem Post.state {x : Call ε σ α} {s : σ} {I : σ -> Prop}
    (h : Post x s (fun _ s' => I s') (fun _ s' => I s')) : I (x s).2 := by
  unfold Post at h
  rcases hrun : x s with ⟨r, s'⟩
  rw [hrun] at h
  cases r with
  | ok a => exact h
  | error e => exact h

/-- The view has the same value after the call. -/
def Keeps (view : σ -> γ) (x : Call ε σ α) : Prop :=
  forall s, view (x s).2 = view s

section Rules

variable {view : σ -> γ} {x : Call ε σ α}

theorem keeps_pure (a : α) : Keeps view (pure a : Call ε σ α) :=
  fun _ => rfl

theorem keeps_throw (e : ε) : Keeps view (throw e : Call ε σ α) :=
  fun _ => rfl

theorem keeps_get : Keeps view (get : Call ε σ σ) :=
  fun _ => rfl

theorem keeps_modify {f : σ -> σ} (h : forall s, view (f s) = view s) :
    Keeps view (modify f : Call ε σ PUnit) :=
  h

theorem Keeps.bind {f : α -> Call ε σ β} (hx : Keeps view x) (hf : forall a, Keeps view (f a)) :
    Keeps view (x >>= f) := by
  intro s
  have hkeep := hx s
  rw [bind_apply]
  rcases hrun : x s with ⟨r, s'⟩
  rw [hrun] at hkeep
  cases r with
  | ok a => exact (hf a s').trans hkeep
  | error e => exact hkeep

theorem Keeps.ite {p : Prop} [Decidable p] {y : Call ε σ α} (hx : Keeps view x)
    (hy : Keeps view y) : Keeps view (if p then x else y) := by
  split
  · exact hx
  · exact hy

/-- A call on a component keeps what depends on a kept view of the component. -/
theorem Keeps.focus {component : τ -> σ} {put : τ -> σ -> τ} {whole : τ -> δ}
    (hx : Keeps view x)
    (hput : forall t s, view s = view (component t) -> whole (put t s) = whole t) :
    Keeps whole (Call.focus component put x) := by
  intro t
  rw [focus_apply]
  exact hput t _ (hx (component t))

theorem Keeps.forM {f : ι -> Call ε σ PUnit} (l : List ι) (hf : forall i, Keeps view (f i)) :
    Keeps view (l.forM f) := by
  induction l with
  | nil => exact keeps_pure _
  | cons i rest ih => exact Keeps.bind (hf i) (fun _ => ih)

theorem Keeps.post {s : σ} {c : γ} (hx : Keeps view x) (hc : view s = c) :
    Post x s (fun _ s' => view s' = c) (fun _ s' => view s' = c) := by
  have hkeep := (hx s).trans hc
  rw [Post]
  rcases hrun : x s with ⟨r, s'⟩
  rw [hrun] at hkeep
  cases r with
  | ok a => exact hkeep
  | error e => exact hkeep

end Rules

/-!
## Invariants

From a state that meets the invariant the call returns in one that does, or throws as
`E` allows.
-/

def Maintains (I : σ -> Prop) (E : ε -> σ -> Prop) (x : Call ε σ α) : Prop :=
  forall s, I s -> Post x s (fun _ s' => I s') E

section Invariants

variable {I : σ -> Prop} {E : ε -> σ -> Prop} {x : Call ε σ α}

theorem maintains_pure (a : α) : Maintains I E (pure a : Call ε σ α) :=
  fun _ hs => hs

theorem maintains_modify {f : σ -> σ} (h : forall s, I s -> I (f s)) :
    Maintains I E (modify f : Call ε σ PUnit) :=
  h

theorem Maintains.bind {f : α -> Call ε σ β} (hx : Maintains I E x)
    (hf : forall a, Maintains I E (f a)) : Maintains I E (x >>= f) :=
  fun s hs => (hx s hs).bind fun a s' hs' => hf a s' hs'

theorem maintains_get_bind {f : σ -> Call ε σ β}
    (h : forall s, I s -> Post (f s) s (fun _ s' => I s') E) : Maintains I E (get >>= f) :=
  h

theorem Maintains.ite {p : Prop} [Decidable p] {y : Call ε σ α} (hx : p -> Maintains I E x)
    (hy : ¬ p -> Maintains I E y) : Maintains I E (if p then x else y) := by
  split
  · rename_i hp
    exact hx hp
  · rename_i hp
    exact hy hp

theorem Maintains.forM {f : ι -> Call ε σ PUnit} {l : List ι}
    (hf : forall i, i ∈ l -> Maintains I E (f i)) : Maintains I E (l.forM f) := by
  induction l with
  | nil => exact maintains_pure _
  | cons i rest ih =>
      exact (hf i List.mem_cons_self).bind fun _ =>
        ih fun j hj => hf j (List.mem_cons_of_mem i hj)

theorem Maintains.foldlM {f : β -> ι -> Call ε σ β} {l : List ι}
    (hf : forall b i, i ∈ l -> Maintains I E (f b i)) (b : β) :
    Maintains I E (l.foldlM f b) := by
  induction l generalizing b with
  | nil => exact maintains_pure b
  | cons i rest ih =>
      rw [List.foldlM_cons]
      exact (hf b i List.mem_cons_self).bind fun b' =>
        ih (fun b j hj => hf b j (List.mem_cons_of_mem i hj)) b'

theorem Maintains.mapM {f : ι -> Call ε σ β} {l : List ι}
    (hf : forall i, i ∈ l -> Maintains I E (f i)) : Maintains I E (l.mapM f) := by
  induction l with
  | nil =>
      rw [List.mapM_nil]
      exact maintains_pure []
  | cons i rest ih =>
      rw [List.mapM_cons]
      apply (hf i List.mem_cons_self).bind
      intro b
      apply (ih fun j hj => hf j (List.mem_cons_of_mem i hj)).bind
      intro bs
      exact maintains_pure (b :: bs)

theorem Maintains.onObject (hx : Maintains I E x) :
    Maintains (fun t : σ × τ => I t.1) (fun e t => E e t.1) (onObject x) :=
  fun t ht => post_onObject_iff.mpr (hx t.1 ht)

theorem Maintains.withLocal {init_ : τ} {x : Call ε (σ × τ) α}
    (hx : Maintains (fun t : σ × τ => I t.1) (fun e t => E e t.1) x) :
    Maintains I E (withLocal init_ x) :=
  fun s hs => post_withLocal_iff.mpr (hx (s, init_) hs)

end Invariants

/-!
## Calls on objects that carry their invariant
-/

section Restricted

variable {I : σ -> Prop} {x : Call ε (τ × σ) α}

/-- A call that keeps an invariant of one component, on components that have it. -/
def restrict (x : Call ε (τ × σ) α)
    (h : Maintains (fun t => I t.2) (fun _ t => I t.2) x) : Call ε (τ × { s // I s }) α :=
  fun t =>
    let r := x (t.1, t.2.1)
    (r.1, r.2.1, ⟨r.2.2, (h (t.1, t.2.1) t.2.2).state⟩)

theorem post_restrict_iff (h : Maintains (fun t => I t.2) (fun _ t => I t.2) x)
    {t : τ × { s // I s }} {Q : α -> τ × σ -> Prop} {E : ε -> τ × σ -> Prop} :
    Post (restrict x h) t (fun a t' => Q a (t'.1, t'.2.1)) (fun e t' => E e (t'.1, t'.2.1)) <->
      Post x (t.1, t.2.1) Q E := by
  have hstate := (h (t.1, t.2.1) t.2.2).state
  rcases hrun : x (t.1, t.2.1) with ⟨r, s⟩
  rw [hrun] at hstate
  have hrestrict : restrict x h t = (r, s.1, ⟨s.2, hstate⟩) := by
    unfold restrict
    simp only [hrun]
  unfold Post
  rw [hrestrict, hrun]
  cases r <;> exact Iff.rfl

end Restricted

end Call
end Library
end Tmfqs
