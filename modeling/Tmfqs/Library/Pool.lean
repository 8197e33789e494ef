import Mathlib.Data.List.Forall2
import Tmfqs.Library.Trace

/-!
# Pools of objects with copies

A program holds several objects of one class, calls operations on them, and makes
copies of them.  A refinement of one object that copying keeps is a refinement of
the whole pool.
-/

namespace Tmfqs
namespace Library

variable {ε κ σ τ α ω : Type}

inductive PoolOp (ω : Type) where
  | on (object : Nat) (op : ω)
  | copyConstruct (source : Nat)
  | copyAssign (target source : Nat)

namespace PoolOp

/--
One operation on the pool.  A new copy goes to the end of the pool, assigning an
object to itself does nothing, and naming an object that is not there throws `missing`.
-/
def run (exec : ω -> Call ε σ α) (copy : σ -> σ) (done : α) (missing : ε) :
    PoolOp ω -> Call ε (List σ) α
  | on object op => fun pool =>
      match pool[object]? with
      | some s => ((exec op s).1, pool.set object (exec op s).2)
      | none => (.error missing, pool)
  | copyConstruct source => fun pool =>
      match pool[source]? with
      | some s => (.ok done, pool ++ [copy s])
      | none => (.error missing, pool)
  | copyAssign target source => fun pool =>
      match pool[source]? with
      | some s => (.ok done, if target = source then pool else pool.set target (copy s))
      | none => (.error missing, pool)

/-- The operation names objects of the pool, and a call meets `P`. -/
def Meets (P : ω -> σ -> Prop) : PoolOp ω -> List σ -> Prop
  | on object op, pool => exists s, pool[object]? = some s ∧ P op s
  | copyConstruct source, pool => source < pool.length
  | copyAssign target source, pool => target < pool.length ∧ source < pool.length

end PoolOp

section Refinement

variable {kind : ε -> κ} {Rep : τ -> σ -> Prop} {exec : ω -> Call ε σ α} {spec : ω -> Call κ τ α}
  {copy : σ -> σ} {copySpec : τ -> τ} {done : α} {missing : ε} {P : ω -> τ -> Prop}

theorem forall2_getElem? {R : τ -> σ -> Prop} {ts : List τ} {ss : List σ}
    (h : List.Forall₂ R ts ss) (i : Nat) :
    (exists t s, ts[i]? = some t ∧ ss[i]? = some s ∧ R t s) ∨ ts[i]? = none ∧ ss[i]? = none := by
  induction h generalizing i with
  | nil => exact Or.inr ⟨rfl, rfl⟩
  | cons hhead _ ih =>
      cases i with
      | zero => exact Or.inl ⟨_, _, rfl, rfl, hhead⟩
      | succ i => simpa using ih i

theorem forall2_set {R : τ -> σ -> Prop} {ts : List τ} {ss : List σ} {t : τ} {s : σ}
    (h : List.Forall₂ R ts ss) (hts : R t s) (i : Nat) :
    List.Forall₂ R (ts.set i t) (ss.set i s) := by
  induction h generalizing i with
  | nil => exact List.Forall₂.nil
  | cons hhead htail ih =>
      cases i with
      | zero => exact List.Forall₂.cons hts htail
      | succ i => exact List.Forall₂.cons hhead (ih i)

theorem pool_refines
    (hstep : forall op t s, Rep t s -> P op t -> Refines kind Rep (exec op) (spec op) t s)
    (hcopy : forall t s, Rep t s -> Rep (copySpec t) (copy s)) {op : PoolOp ω} {ts : List τ}
    {ss : List σ} (h : List.Forall₂ Rep ts ss) (hmeets : op.Meets P ts) :
    Refines kind (List.Forall₂ Rep) (op.run exec copy done missing)
      (op.run spec copySpec done (kind missing)) ts ss := by
  cases op with
  | on object op =>
      obtain ⟨t, ht, hP⟩ := hmeets
      rcases forall2_getElem? h object with ⟨t', s, ht', hs, hRep⟩ | ⟨hnone, _⟩
      · rw [ht] at ht'
        cases ht'
        obtain ⟨hout, hnext⟩ := hstep op t s hRep hP
        simp only [Refines, PoolOp.run, ht, hs]
        exact ⟨hout, forall2_set h hnext object⟩
      · rw [ht] at hnone
        cases hnone
  | copyConstruct source =>
      rcases forall2_getElem? h source with ⟨t, s, ht, hs, hRep⟩ | ⟨ht, hs⟩
      · simp only [Refines, PoolOp.run, ht, hs]
        exact ⟨rfl, List.rel_append h (List.Forall₂.cons (hcopy t s hRep) List.Forall₂.nil)⟩
      · simp only [Refines, PoolOp.run, ht, hs]
        exact ⟨rfl, h⟩
  | copyAssign target source =>
      rcases forall2_getElem? h source with ⟨t, s, ht, hs, hRep⟩ | ⟨ht, hs⟩
      · simp only [Refines, PoolOp.run, ht, hs]
        refine ⟨rfl, ?_⟩
        by_cases hself : target = source
        · rw [if_pos hself, if_pos hself]
          exact h
        · rw [if_neg hself, if_neg hself]
          exact forall2_set h (hcopy t s hRep) target
      · simp only [Refines, PoolOp.run, ht, hs]
        exact ⟨rfl, h⟩

end Refinement

end Library
end Tmfqs
