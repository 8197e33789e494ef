import Tmfqs.Library.Trace

/-!
# Interrupted loops

A loop that throws has done the rounds before the one that threw.  When the rounds touch
disjoint parts of the state, every part is then as before the loop or as after all of it.
A run goes on after an exception from one of the states the exception may have left, and a
run that returns is one that never met an exception.
-/

namespace Tmfqs
namespace Library

variable {ε σ ι κ α β τ ω ρ : Type}

/-!
## Old or new
-/

/-- Whatever is read of `mid` is read of `old` or of `new`. -/
def OldOrNew (read : α -> κ -> β) (old new mid : α) : Prop :=
  forall k, read mid k = read old k ∨ read mid k = read new k

section Steps

variable {read : α -> κ -> β} {old new mid : α}

theorem oldOrNew_old (old new : α) : OldOrNew read old new old :=
  fun _ => Or.inl rfl

theorem oldOrNew_new (old new : α) : OldOrNew read old new new :=
  fun _ => Or.inr rfl

theorem OldOrNew.between {left right : α} (hleft : OldOrNew read old new left)
    (hright : OldOrNew read old new right) (h : OldOrNew read left right mid) :
    OldOrNew read old new mid := by
  intro k
  rcases h k with hmid | hmid
  · rw [hmid]
    exact hleft k
  · rw [hmid]
    exact hright k

variable {step : α -> ι -> α} (foot : ι -> κ -> Prop) {I : α -> Prop}
  (hkeep : forall i a, I a -> I (step a i))
  (hstep : forall i a k, I a -> ¬ foot i k -> read (step a i) k = read a k)
include hkeep

theorem foldl_invariant (l : List ι) {a : α} (ha : I a) : I (l.foldl step a) := by
  induction l generalizing a with
  | nil => exact ha
  | cons i rest ih => exact ih (hkeep i a ha)

include hstep

theorem foldl_untouched {l : List ι} {k : κ} (hfoot : forall i, i ∈ l -> ¬ foot i k) {a : α}
    (ha : I a) : read (l.foldl step a) k = read a k := by
  induction l generalizing a with
  | nil => rfl
  | cons i rest ih =>
      rw [List.foldl_cons, ih (fun j hj => hfoot j (List.mem_cons_of_mem i hj)) (hkeep i a ha),
        hstep i a k ha (hfoot i List.mem_cons_self)]

/-- After some of the steps everything is as before the first or as after the last. -/
theorem oldOrNew_foldl {done todo : List ι}
    (hdisjoint : forall i, i ∈ done -> forall j, j ∈ todo -> forall k, foot i k -> ¬ foot j k)
    {a : α} (ha : I a) :
    OldOrNew read a ((done ++ todo).foldl step a) (done.foldl step a) := by
  intro k
  by_cases htouched : exists i, i ∈ done ∧ foot i k
  · right
    rcases htouched with ⟨i, hi, hik⟩
    rw [List.foldl_append]
    exact (foldl_untouched foot hkeep hstep (fun j hj => hdisjoint i hi j hj k hik)
      (foldl_invariant hkeep done ha)).symm
  · left
    exact foldl_untouched foot hkeep hstep (fun i hi hik => htouched ⟨i, hi, hik⟩) ha

end Steps

/-!
## Loops
-/

namespace Call

theorem post_forM_advances {l : List ι} {f : ι -> Call ε σ PUnit} {step : α -> ι -> α}
    (I E : α -> σ -> Prop)
    (hround : forall i, i ∈ l -> forall a s, I a s ->
      Post (f i) s (fun _ s' => I (step a i) s') (fun _ s' => E a s'))
    {a : α} {s : σ} (h : I a s) :
    Post (l.forM f) s (fun _ s' => I (l.foldl step a) s')
      (fun _ s' => exists done todo, l = done ++ todo ∧ E (done.foldl step a) s') := by
  induction l generalizing a s with
  | nil => exact h
  | cons i rest ih =>
      change Post (f i >>= fun _ => rest.forM f) s _ _
      rw [post_bind_iff]
      refine (hround i List.mem_cons_self a s h).imp ?_ ?_
      · intro _ s' hI
        refine (ih (fun j hj => hround j (List.mem_cons_of_mem i hj)) hI).imp
          (fun _ _ hend => hend) ?_
        rintro _ s'' ⟨done, todo, hrest, hE⟩
        exact ⟨i :: done, todo, congrArg (i :: ·) hrest, hE⟩
      · intro _ s' hE
        exact ⟨[], i :: rest, rfl, hE⟩

end Call

/-!
## Runs with exceptions

What is left after an exception need not be determined by the operation, so the
specification of a run is a relation.
-/

/-- A run of steps from one state to another, one for every operation and its outcome. -/
inductive StepsTo (step : τ -> ω -> ρ -> τ -> Prop) : τ -> List ω -> List ρ -> τ -> Prop where
  | nil (t : τ) : StepsTo step t [] [] t
  | cons {t t1 t2 : τ} {op : ω} {r : ρ} {ops : List ω} {rs : List ρ} (first : step t op r t1)
      (rest : StepsTo step t1 ops rs t2) : StepsTo step t (op :: ops) (r :: rs) t2

/-- When every operation makes a step of the specification, so does every run. -/
theorem trace_stepsTo {exec : ω -> Call ε σ α} {step : τ -> ω -> Except ε α -> τ -> Prop}
    {Rep : τ -> σ -> Prop} {P : ω -> σ -> Prop}
    (hstep : forall op t s, Rep t s -> P op s ->
      exists t', step t op (exec op s).1 t' ∧ Rep t' (exec op s).2) {ops : List ω} :
    forall {t : τ} {s : σ}, Rep t s -> Along exec P ops s ->
      exists t', StepsTo step t ops (outcomes exec ops s) t' ∧ Rep t' (reached exec ops s) := by
  induction ops with
  | nil =>
      intro t s hRep _
      exact ⟨t, StepsTo.nil t, hRep⟩
  | cons op rest ih =>
      intro t s hRep hP
      rcases hstep op t s hRep hP.1 with ⟨t1, hfirst, hRep1⟩
      rcases ih hRep1 hP.2 with ⟨t2, hrest, hend⟩
      exact ⟨t2, StepsTo.cons hfirst hrest, hend⟩

/-!
## Runs that return

One call is followed by another on a different object if what the first returns the second
returns as well.  Nothing is said about a first call that throws.
-/

namespace Call

variable {rel : σ -> τ -> Prop}

/-- From `s` and `t`, the second call returns what the first returns, in a related state. -/
def FollowedAt (rel : σ -> τ -> Prop) (x : Call ε σ α) (y : Call ε τ α) (s : σ) (t : τ) : Prop :=
  Post x s (fun a s' => exists t', y t = (.ok a, t') ∧ rel s' t') (fun _ _ => True)

def Followed (rel : σ -> τ -> Prop) (x : Call ε σ α) (y : Call ε τ α) : Prop :=
  forall s t, rel s t -> FollowedAt rel x y s t

theorem followed_pure (a : α) : Followed rel (pure a : Call ε σ α) (pure a) :=
  fun _ t h => ⟨t, rfl, h⟩

theorem followed_throw (e : ε) (y : Call ε τ α) : Followed rel (throw e : Call ε σ α) y :=
  fun _ _ _ => trivial

theorem followed_modify {f : σ -> σ} {g : τ -> τ} (h : forall s t, rel s t -> rel (f s) (g t)) :
    Followed rel (modify f : Call ε σ PUnit) (modify g) :=
  fun s t hst => ⟨g t, rfl, h s t hst⟩

theorem Followed.bind {x : Call ε σ α} {y : Call ε τ α} {f : α -> Call ε σ β}
    {g : α -> Call ε τ β} (h : Followed rel x y) (hf : forall a, Followed rel (f a) (g a)) :
    Followed rel (x >>= f) (y >>= g) := by
  intro s t hst
  refine post_bind_iff.mpr (Post.imp (h s t hst) ?_ (fun _ _ _ => trivial))
  rintro a s' ⟨t', hy, hst'⟩
  refine Post.mono (hf a s' t' hst') ?_
  rintro b s'' ⟨t'', hg, hst''⟩
  exact ⟨t'', (bind_ok hy g).trans hg, hst''⟩

theorem followed_get_bind {f : σ -> Call ε σ β} {g : τ -> Call ε τ β}
    (h : forall s t, rel s t -> FollowedAt rel (f s) (g t) s t) :
    Followed rel (get >>= f) (get >>= g) :=
  h

theorem Followed.ite {p : Prop} [Decidable p] {x x' : Call ε σ α} {y y' : Call ε τ α}
    (h : Followed rel x y) (h' : Followed rel x' y') :
    Followed rel (if p then x else x') (if p then y else y') := by
  split
  · exact h
  · exact h'

theorem Followed.unless {p : Prop} [Decidable p] {e : ε} {x : Call ε σ α} {y : Call ε τ α}
    {f : β -> Call ε σ α} {g : β -> Call ε τ α} (h : Followed rel x y) :
    Followed rel (if p then (throw e >>= f) else x) (if p then (throw e >>= g) else y) :=
  Followed.ite (fun _ _ _ => trivial) h

theorem Followed.forM {f : ι -> Call ε σ PUnit} {g : ι -> Call ε τ PUnit} {l : List ι}
    (h : forall i, i ∈ l -> Followed rel (f i) (g i)) : Followed rel (l.forM f) (l.forM g) := by
  induction l with
  | nil => exact followed_pure PUnit.unit
  | cons i rest ih =>
      exact (h i List.mem_cons_self).bind fun _ =>
        ih fun j hj => h j (List.mem_cons_of_mem i hj)

theorem Followed.focus {σ' τ' : Type} {whole : σ' -> τ' -> Prop} {view : σ' -> σ}
    {put : σ' -> σ -> σ'} {view' : τ' -> τ} {put' : τ' -> τ -> τ'} {x : Call ε σ α}
    {y : Call ε τ α} (h : Followed rel x y)
    (hview : forall s t, whole s t -> rel (view s) (view' t))
    (hput : forall s t s' t', whole s t -> rel s' t' -> whole (put s s') (put' t t')) :
    Followed whole (focus view put x) (focus view' put' y) := by
  intro s t hst
  rw [FollowedAt, post_focus_iff]
  refine Post.mono (h _ _ (hview s t hst)) ?_
  rintro a s' ⟨t', hy, hst'⟩
  refine ⟨put' t t', ?_, hput s t s' t' hst hst'⟩
  rw [focus_apply, hy]

end Call

/-- The values of a run before its first exception. -/
def returned : List (Except ε α) -> List α
  | .ok a :: rest => a :: returned rest
  | _ => []

theorem returned_prefix {rel : σ -> τ -> Prop} {exec : ω -> Call ε σ α} {exec' : ω -> Call ε τ α}
    {ops : List ω} (hstep : forall op, op ∈ ops -> Call.Followed rel (exec op) (exec' op)) :
    forall {s : σ} {t : τ}, rel s t ->
      returned (outcomes exec ops s) <+: returned (outcomes exec' ops t) := by
  induction ops with
  | nil =>
      intro s t _
      exact List.prefix_rfl
  | cons op rest ih =>
      intro s t h
      have hfirst := hstep op List.mem_cons_self s t h
      unfold Call.FollowedAt Call.Post at hfirst
      rw [outcomes_cons, outcomes_cons]
      rcases hrun : exec op s with ⟨result, s'⟩
      rw [hrun] at hfirst
      cases result with
      | error e => exact List.nil_prefix
      | ok a =>
          rcases hfirst with ⟨t', hrun', h'⟩
          rw [hrun']
          exact List.cons_prefix_cons.mpr
            ⟨rfl, ih (fun op' hop' => hstep op' (List.mem_cons_of_mem op hop')) h'⟩

end Library
end Tmfqs
