import Mathlib.Logic.Basic
import Mathlib.Data.List.Basic

/-!
# Calls with state and exceptions

A call on an object either returns or throws, and the object keeps the state it
had reached in both cases.  This module develops such computations over
arbitrary state and exception types, with a two-sided postcondition: one for
returning and one for throwing.
-/

namespace Tmfqs
namespace Library

/-- A call on an object with state `σ`: the reached state survives an exception. -/
def Call (ε σ α : Type) : Type :=
  σ -> Except ε α × σ

namespace Call

variable {ε σ τ α β ι : Type}

instance : Monad (Call ε σ) where
  pure a := fun s => (.ok a, s)
  bind x f := fun s =>
    match x s with
    | (.ok a, s') => f a s'
    | (.error e, s') => (.error e, s')

instance : MonadStateOf σ (Call ε σ) where
  get := fun s => (.ok s, s)
  set s' := fun _ => (.ok ⟨⟩, s')
  modifyGet f := fun s => (.ok (f s).1, (f s).2)

instance : MonadExceptOf ε (Call ε σ) where
  throw e := fun s => (.error e, s)
  tryCatch x handler := fun s =>
    match x s with
    | (.ok a, s') => (.ok a, s')
    | (.error e, s') => handler e s'

/-- Run a call on one component of a larger object. -/
def focus (view : τ -> σ) (put : τ -> σ -> τ) (x : Call ε σ α) : Call ε τ α :=
  fun t =>
    match x (view t) with
    | (r, s') => (r, put t s')

/-- Run a call with a local variable that starts as `init` and is dropped at the end. -/
def withLocal (init_ : τ) (x : Call ε (σ × τ) α) : Call ε σ α :=
  fun s =>
    match x (s, init_) with
    | (r, t) => (r, t.1)

/-- A call on the object from inside `withLocal`. -/
def onObject (x : Call ε σ α) : Call ε (σ × τ) α :=
  focus Prod.fst (fun t s => (s, t.2)) x

/-!
## Symbolic execution
-/

@[simp] theorem pure_apply (a : α) (s : σ) :
    (pure a : Call ε σ α) s = (.ok a, s) := rfl

theorem bind_apply (x : Call ε σ α) (f : α -> Call ε σ β) (s : σ) :
    (x >>= f) s =
      match x s with
      | (.ok a, s') => f a s'
      | (.error e, s') => (.error e, s') := rfl

theorem bind_ok {x : Call ε σ α} {s s' : σ} {a : α}
    (h : x s = (.ok a, s')) (f : α -> Call ε σ β) :
    (x >>= f) s = f a s' := by
  rw [bind_apply, h]

theorem bind_error {x : Call ε σ α} {s s' : σ} {e : ε}
    (h : x s = (.error e, s')) (f : α -> Call ε σ β) :
    (x >>= f) s = (.error e, s') := by
  rw [bind_apply, h]

theorem fst_bind_error {x : Call ε σ α} {s : σ} {e : ε}
    (h : (x s).1 = .error e) (f : α -> Call ε σ β) :
    ((x >>= f) s).1 = .error e := by
  rw [bind_apply]
  rcases hrun : x s with ⟨r, s'⟩
  rw [hrun] at h
  cases h
  rfl

@[simp] theorem get_apply (s : σ) :
    (get : Call ε σ σ) s = (.ok s, s) := rfl

@[simp] theorem set_apply (s s' : σ) :
    (set s' : Call ε σ PUnit) s = (.ok ⟨⟩, s') := rfl

@[simp] theorem modify_apply (f : σ -> σ) (s : σ) :
    (modify f : Call ε σ PUnit) s = (.ok ⟨⟩, f s) := rfl

@[simp] theorem throw_apply (e : ε) (s : σ) :
    (throw e : Call ε σ α) s = (.error e, s) := rfl

theorem focus_apply (view : τ -> σ) (put : τ -> σ -> τ)
    (x : Call ε σ α) (t : τ) :
    focus view put x t = ((x (view t)).1, put t (x (view t)).2) := rfl

instance : LawfulMonad (Call ε σ) :=
  LawfulMonad.mk' (Call ε σ)
    (by
      intro α x
      funext s
      change (x >>= fun a => pure (id a)) s = x s
      rw [bind_apply]
      rcases x s with ⟨r, s'⟩
      cases r <;> rfl)
    (by
      intros
      rfl)
    (by
      intro α β γ x f g
      funext s
      simp only [bind_apply]
      rcases x s with ⟨r, s'⟩
      cases r <;> rfl)

/-!
## Postconditions
-/

/-- Every outcome of `x` from `s` meets the condition of its kind. -/
def Post (x : Call ε σ α) (s : σ)
    (Q : α -> σ -> Prop) (E : ε -> σ -> Prop) : Prop :=
  match x s with
  | (.ok a, s') => Q a s'
  | (.error e, s') => E e s'

variable {x : Call ε σ α} {s s' : σ} {Q Q' : α -> σ -> Prop}
  {E E' : ε -> σ -> Prop}

theorem post_of_ok {a : α} (h : x s = (.ok a, s')) (hq : Q a s') :
    Post x s Q E := by
  simpa [Post, h] using hq

theorem post_of_error {e : ε} (h : x s = (.error e, s')) (he : E e s') :
    Post x s Q E := by
  simpa [Post, h] using he

theorem post_of_forall (hq : forall a s', Q a s') (he : forall e s', E e s') :
    Post x s Q E := by
  unfold Post
  rcases x s with ⟨r, s'⟩
  cases r with
  | ok a => exact hq a s'
  | error e => exact he e s'

theorem Post.imp (h : Post x s Q E)
    (hq : forall a s', Q a s' -> Q' a s')
    (he : forall e s', E e s' -> E' e s') :
    Post x s Q' E' := by
  unfold Post at *
  rcases hx : x s with ⟨r, s'⟩
  rw [hx] at h
  cases r with
  | ok a => exact hq a s' h
  | error e => exact he e s' h

theorem Post.mono (h : Post x s Q E)
    (hq : forall a s', Q a s' -> Q' a s') :
    Post x s Q' E :=
  h.imp hq (fun _ _ he => he)

theorem Post.and (h : Post x s Q E) (h' : Post x s Q' E') :
    Post x s (fun a s' => Q a s' ∧ Q' a s') (fun e s' => E e s' ∧ E' e s') := by
  unfold Post at *
  rcases hx : x s with ⟨r, s'⟩
  rw [hx] at h h'
  cases r with
  | ok a => exact ⟨h, h'⟩
  | error e => exact ⟨h, h'⟩

/-- A call that never throws returns, and its result meets the postcondition. -/
theorem Post.exists_ok (h : Post x s Q (fun _ _ => False)) :
    exists a s', x s = (.ok a, s') ∧ Q a s' := by
  unfold Post at h
  rcases hx : x s with ⟨r, s'⟩
  rw [hx] at h
  cases r with
  | ok a => exact ⟨a, s', rfl, h⟩
  | error e => exact h.elim

@[simp] theorem post_pure (a : α) :
    Post (pure a : Call ε σ α) s Q E <-> Q a s := Iff.rfl

@[simp] theorem post_throw (e : ε) :
    Post (throw e : Call ε σ α) s Q E <-> E e s := Iff.rfl

@[simp] theorem post_get {Q : σ -> σ -> Prop} :
    Post (get : Call ε σ σ) s Q E <-> Q s s := Iff.rfl

@[simp] theorem post_modify {Q : PUnit -> σ -> Prop} (f : σ -> σ) :
    Post (modify f : Call ε σ PUnit) s Q E <-> Q ⟨⟩ (f s) := Iff.rfl

theorem post_bind_iff {f : α -> Call ε σ β} {Q : β -> σ -> Prop} :
    Post (x >>= f) s Q E <->
      Post x s (fun a s' => Post (f a) s' Q E) E := by
  unfold Post
  rw [bind_apply]
  rcases x s with ⟨r, s'⟩
  cases r <;> exact Iff.rfl

theorem Post.bind {f : α -> Call ε σ β} {Q : β -> σ -> Prop}
    {M : α -> σ -> Prop}
    (h : Post x s M E)
    (hf : forall a s', M a s' -> Post (f a) s' Q E) :
    Post (x >>= f) s Q E :=
  post_bind_iff.mpr (h.mono hf)

theorem post_focus_iff {view : τ -> σ} {put : τ -> σ -> τ} {t : τ}
    {Q : α -> τ -> Prop} {E : ε -> τ -> Prop} :
    Post (focus view put x) t Q E <->
      Post x (view t) (fun a s' => Q a (put t s')) (fun e s' => E e (put t s')) := by
  unfold Post focus
  rcases x (view t) with ⟨r, s'⟩
  cases r <;> exact Iff.rfl

theorem post_withLocal_iff {init_ : τ} {x : Call ε (σ × τ) α} {s : σ}
    {Q : α -> σ -> Prop} {E : ε -> σ -> Prop} :
    Post (withLocal init_ x) s Q E <->
      Post x (s, init_) (fun a t => Q a t.1) (fun e t => E e t.1) := by
  unfold Post withLocal
  rcases x (s, init_) with ⟨r, t⟩
  cases r <;> exact Iff.rfl

theorem post_onObject_iff {x : Call ε σ α} {t : σ × τ}
    {Q : α -> σ × τ -> Prop} {E : ε -> σ × τ -> Prop} :
    Post (onObject x) t Q E <->
      Post x t.1 (fun a s => Q a (s, t.2)) (fun e s => E e (s, t.2)) :=
  post_focus_iff

/-!
## Loops

The invariant of a loop speaks about the elements already visited and those
still ahead.
-/

theorem post_foldlM {l : List ι} {f : α -> ι -> Call ε σ α}
    (I : List ι -> List ι -> α -> σ -> Prop)
    (hstep : forall pre i rest a s, l = pre ++ i :: rest ->
      I pre (i :: rest) a s ->
      Post (f a i) s (fun a' s' => I (pre ++ [i]) rest a' s') E)
    {a : α} (h : I [] l a s) :
    Post (l.foldlM f a) s (fun a' s' => I l [] a' s') E := by
  suffices hgen : forall rest pre a s, l = pre ++ rest -> I pre rest a s ->
      Post (rest.foldlM f a) s (fun a' s' => I l [] a' s') E from
    hgen l [] a s rfl h
  intro rest
  induction rest with
  | nil =>
      intro pre a s hl hI
      have hpre : pre = l := by simpa using hl.symm
      subst hpre
      simpa [List.foldlM_nil] using hI
  | cons i rest ih =>
      intro pre a s hl hI
      rw [List.foldlM_cons]
      refine (hstep pre i rest a s hl hI).bind ?_
      intro a' s' hI'
      exact ih (pre ++ [i]) a' s' (by simpa using hl) hI'

theorem post_forM {l : List ι} {f : ι -> Call ε σ PUnit}
    (I : List ι -> List ι -> σ -> Prop)
    (hstep : forall pre i rest s, l = pre ++ i :: rest ->
      I pre (i :: rest) s ->
      Post (f i) s (fun _ s' => I (pre ++ [i]) rest s') E)
    (h : I [] l s) :
    Post (l.forM f) s (fun _ s' => I l [] s') E := by
  suffices hgen : forall rest pre s, l = pre ++ rest -> I pre rest s ->
      Post (rest.forM f) s (fun _ s' => I l [] s') E from
    hgen l [] s rfl h
  intro rest
  induction rest with
  | nil =>
      intro pre s hl hI
      have hpre : pre = l := by simpa using hl.symm
      subst hpre
      exact hI
  | cons i rest ih =>
      intro pre s hl hI
      refine (hstep pre i rest s hl hI).bind ?_
      intro _ s' hI'
      exact ih (pre ++ [i]) s' (by simpa using hl) hI'

theorem post_forM_range {n : Nat} {f : Nat -> Call ε σ PUnit}
    (I : Nat -> σ -> Prop)
    (hstep : forall i s, i < n -> I i s ->
      Post (f i) s (fun _ s' => I (i + 1) s') E)
    (h : I 0 s) :
    Post ((List.range n).forM f) s (fun _ s' => I n s') E := by
  have hloop := post_forM (l := List.range n) (f := f) (E := E) (s := s)
    (fun pre _ s => I pre.length s)
    (by
      intro pre i rest s hl hI
      have hi : i = pre.length := by
        have hget := congrArg (fun xs => xs[pre.length]?) hl
        simp at hget
        obtain ⟨hlt, hval⟩ := List.getElem?_eq_some_iff.mp hget
        simpa using hval.symm
      have hlt : i < n := by
        have hlen := congrArg List.length hl
        simp at hlen
        omega
      subst hi
      simpa using hstep _ s hlt hI)
    h
  simpa using hloop

theorem post_foldlM_range {n : Nat} {f : α -> Nat -> Call ε σ α}
    (I : Nat -> α -> σ -> Prop)
    (hstep : forall i a s, i < n -> I i a s ->
      Post (f a i) s (fun a' s' => I (i + 1) a' s') E)
    {a : α} (h : I 0 a s) :
    Post ((List.range n).foldlM f a) s (fun a' s' => I n a' s') E := by
  have hloop := post_foldlM (l := List.range n) (f := f) (E := E) (s := s)
    (fun pre _ a s => I pre.length a s)
    (by
      intro pre i rest a s hl hI
      have hget := congrArg (fun xs => xs[pre.length]?) hl
      simp at hget
      obtain ⟨hlt, hval⟩ := List.getElem?_eq_some_iff.mp hget
      have hi : i = pre.length := by simpa using hval.symm
      have hlt' : i < n := by
        rw [hi]
        simpa using hlt
      subst hi
      simpa using hstep _ a s hlt' hI)
    h
  simpa using hloop

/-!
## Simulation

Two calls on objects of different types simulate each other when related states
give the same outcome and related states again.
-/

/-- `x` and `y` give the same outcome from related states. -/
def Simulates (R : σ -> τ -> Prop) (x : Call ε σ α) (y : Call ε τ α) : Prop :=
  forall s t, R s t ->
    Post x s
      (fun a s' => exists t', y t = (.ok a, t') ∧ R s' t')
      (fun e s' => exists t', y t = (.error e, t') ∧ R s' t')

variable {R : σ -> τ -> Prop}

theorem simulates_pure (a : α) :
    Simulates R (pure a : Call ε σ α) (pure a) :=
  fun _ t hR => ⟨t, rfl, hR⟩

theorem Simulates.bind {x : Call ε σ α} {y : Call ε τ α}
    {f : α -> Call ε σ β} {g : α -> Call ε τ β}
    (h : Simulates R x y) (hf : forall a, Simulates R (f a) (g a)) :
    Simulates R (x >>= f) (y >>= g) := by
  intro s t hR
  refine post_bind_iff.mpr ((h s t hR).imp ?_ ?_)
  · rintro a s' ⟨t', hy, hR'⟩
    rw [bind_ok hy]
    exact hf a s' t' hR'
  · rintro e s' ⟨t', hy, hR'⟩
    exact ⟨t', bind_error hy g, hR'⟩

theorem Simulates.mapM {f : ι -> Call ε σ α} {g : ι -> Call ε τ α} (l : List ι)
    (h : forall i, i ∈ l -> Simulates R (f i) (g i)) :
    Simulates R (l.mapM f) (l.mapM g) := by
  induction l with
  | nil => exact simulates_pure []
  | cons i rest ih =>
      rw [List.mapM_cons, List.mapM_cons]
      refine (h i List.mem_cons_self).bind ?_
      intro a
      refine (ih (fun j hj => h j (List.mem_cons_of_mem i hj))).bind ?_
      intro as
      exact simulates_pure (a :: as)

theorem Simulates.forM {f : ι -> Call ε σ PUnit} {g : ι -> Call ε τ PUnit}
    (l : List ι) (h : forall i, i ∈ l -> Simulates R (f i) (g i)) :
    Simulates R (l.forM f) (l.forM g) := by
  induction l with
  | nil => exact simulates_pure PUnit.unit
  | cons i rest ih =>
      refine (h i List.mem_cons_self).bind ?_
      intro _
      exact ih (fun j hj => h j (List.mem_cons_of_mem i hj))

end Call
end Library
end Tmfqs
