import Tmfqs.Library.Call

/-!
# Runs of operations

A run issues operations one after the other on one object and goes on after an
exception, as a caller that catches it would.  The rules below carry an
invariant, or a refinement between two objects, from one operation to a run.
-/

namespace Tmfqs
namespace Library

variable {ε κ σ τ α ω : Type}

/-- Outcomes of all operations of a run, and the state it ends in. -/
def trace (exec : ω -> Call ε σ α) : List ω -> σ -> List (Except ε α) × σ
  | [], s => ([], s)
  | op :: rest, s =>
      ((exec op s).1 :: (trace exec rest (exec op s).2).1,
        (trace exec rest (exec op s).2).2)

def outcomes (exec : ω -> Call ε σ α) (ops : List ω) (s : σ) : List (Except ε α) :=
  (trace exec ops s).1

def reached (exec : ω -> Call ε σ α) (ops : List ω) (s : σ) : σ :=
  (trace exec ops s).2

/-- Every operation of the run meets `P` in the state it is issued in. -/
def Along (exec : ω -> Call ε σ α) (P : ω -> σ -> Prop) : List ω -> σ -> Prop
  | [], _ => True
  | op :: rest, s => P op s ∧ Along exec P rest (exec op s).2

section Equations

variable (exec : ω -> Call ε σ α)

@[simp] theorem outcomes_nil (s : σ) : outcomes exec [] s = [] := rfl

@[simp] theorem outcomes_cons (op : ω) (rest : List ω) (s : σ) :
    outcomes exec (op :: rest) s =
      (exec op s).1 :: outcomes exec rest (exec op s).2 := rfl

@[simp] theorem reached_nil (s : σ) : reached exec [] s = s := rfl

@[simp] theorem reached_cons (op : ω) (rest : List ω) (s : σ) :
    reached exec (op :: rest) s = reached exec rest (exec op s).2 := rfl

theorem along_append {P : ω -> σ -> Prop} (xs ys : List ω) :
    forall s, Along exec P (xs ++ ys) s <->
      Along exec P xs s ∧ Along exec P ys (reached exec xs s) := by
  induction xs with
  | nil =>
      intro s
      exact (iff_of_eq (true_and _)).symm
  | cons op rest ih =>
      intro s
      simp only [List.cons_append, Along, ih, reached_cons, and_assoc]

end Equations

variable {exec : ω -> Call ε σ α}

theorem reached_invariant {P : ω -> σ -> Prop} {I : σ -> Prop}
    (hstep : forall op s, I s -> P op s -> I (exec op s).2) {ops : List ω} :
    forall {s : σ}, I s -> Along exec P ops s -> I (reached exec ops s) := by
  induction ops with
  | nil =>
      intro s hI _
      exact hI
  | cons op rest ih =>
      intro s hI hP
      exact ih (hstep op s hI hP.1) hP.2

theorem along_of_invariant {P : ω -> σ -> Prop} {I : σ -> Prop} {ops : List ω}
    (hstep : forall op s, op ∈ ops -> I s -> P op s ∧ I (exec op s).2) :
    forall {s : σ}, I s -> Along exec P ops s := by
  induction ops with
  | nil =>
      intro s _
      trivial
  | cons op rest ih =>
      intro s hI
      have h := hstep op s List.mem_cons_self hI
      exact ⟨h.1, ih (fun op' s' hop => hstep op' s' (List.mem_cons_of_mem op hop)) h.2⟩

/-- Two conditions that agree on an invariant agree along every run from it. -/
theorem along_iff {P Q : ω -> σ -> Prop} {I : σ -> Prop} {ops : List ω}
    (hstep : forall op s, op ∈ ops -> I s ->
      (P op s <-> Q op s) ∧ (P op s -> I (exec op s).2)) :
    forall {s : σ}, I s -> (Along exec P ops s <-> Along exec Q ops s) := by
  induction ops with
  | nil =>
      intro s _
      exact Iff.rfl
  | cons op rest ih =>
      intro s hI
      obtain ⟨hiff, hnext⟩ := hstep op s List.mem_cons_self hI
      have hrest := fun hP => ih (fun op' s' hop => hstep op' s' (List.mem_cons_of_mem op hop))
        (hnext hP)
      constructor
      · rintro ⟨hP, hafter⟩
        exact ⟨hiff.mp hP, (hrest hP).mp hafter⟩
      · rintro ⟨hQ, hafter⟩
        exact ⟨hiff.mpr hQ, (hrest (hiff.mpr hQ)).mpr hafter⟩

theorem forall_mem_outcomes {P : ω -> σ -> Prop} {Q : Except ε α -> Prop}
    (hstep : forall op s, P op s -> Q (exec op s).1) {ops : List ω} :
    forall {s : σ}, Along exec P ops s -> forall x, x ∈ outcomes exec ops s -> Q x := by
  induction ops with
  | nil =>
      intro s _ x hx
      cases hx
  | cons op rest ih =>
      intro s hP x hx
      rcases List.mem_cons.mp hx with rfl | hrest
      · exact hstep op s hP.1
      · exact ih hP.2 x hrest

theorem Call.post_forM_along {f : ω -> Call ε σ PUnit} {P : ω -> σ -> Prop}
    {E : ε -> σ -> Prop} {l : List ω} (I : List ω -> σ -> Prop)
    (hstep : forall pre i s, i ∈ l -> I pre s -> P i s ->
      Call.Post (f i) s (fun _ s' => I (pre ++ [i]) s') E)
    {s : σ} (h : I [] s) (hP : Along f P l s) :
    Call.Post (l.forM f) s (fun _ s' => I l s') E := by
  refine (Call.post_forM (fun pre rest s => I pre s ∧ Along f P rest s) ?_ ⟨h, hP⟩).mono
    (fun _ _ hl => hl.1)
  rintro pre i rest s hl ⟨hI, hi, hrest⟩
  have hround := hstep pre i s (hl ▸ List.mem_append_right pre List.mem_cons_self) hI hi
  unfold Call.Post at hround ⊢
  rcases hx : f i s with ⟨r, s'⟩
  rw [hx] at hround hrest
  cases r with
  | ok a => exact ⟨hround, hrest⟩
  | error e => exact hround

/-!
## Refinement
-/

/-- One operation of `exec` does what `spec` does, up to the detail of its exception. -/
def Refines (kind : ε -> κ) (Rep : τ -> σ -> Prop)
    (x : Call ε σ α) (y : Call κ τ α) (t : τ) (s : σ) : Prop :=
  ((x s).1).mapError kind = (y t).1 ∧ Rep (y t).2 (x s).2

theorem Call.Post.refines {kind : ε -> κ} {Rep : τ -> σ -> Prop}
    {x : Call ε σ α} {y : Call κ τ α} {t : τ} {s : σ}
    (h : Call.Post x s
      (fun a s' => exists t', y t = (.ok a, t') ∧ Rep t' s')
      (fun e s' => exists t', y t = (.error (kind e), t') ∧ Rep t' s')) :
    Refines kind Rep x y t s := by
  unfold Call.Post at h
  unfold Refines
  rcases hx : x s with ⟨r, s'⟩
  rw [hx] at h
  cases r with
  | ok a =>
      obtain ⟨t', hy, hRep⟩ := h
      rw [hy]
      exact ⟨rfl, hRep⟩
  | error e =>
      obtain ⟨t', hy, hRep⟩ := h
      rw [hy]
      exact ⟨rfl, hRep⟩

theorem trace_refines {kind : ε -> κ} {Rep : τ -> σ -> Prop} {spec : ω -> Call κ τ α}
    {P : ω -> τ -> Prop}
    (hstep : forall op t s, Rep t s -> P op t -> Refines kind Rep (exec op) (spec op) t s) :
    forall {ops : List ω} {t : τ} {s : σ}, Rep t s -> Along spec P ops t ->
      (outcomes exec ops s).map (Except.mapError kind) = outcomes spec ops t ∧
        Rep (reached spec ops t) (reached exec ops s) := by
  intro ops
  induction ops with
  | nil =>
      intro t s hRep _
      exact ⟨rfl, hRep⟩
  | cons op rest ih =>
      intro t s hRep hP
      obtain ⟨hout, hnext⟩ := hstep op t s hRep hP.1
      obtain ⟨houts, hend⟩ := ih hnext hP.2
      refine ⟨?_, hend⟩
      rw [outcomes_cons, outcomes_cons, List.map_cons, hout, houts]

end Library
end Tmfqs
