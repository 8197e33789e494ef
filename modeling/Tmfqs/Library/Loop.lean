import Mathlib.Tactic.Ring
import Tmfqs.Library.Call

/-!
# Counting loops

A loop `for(base = 0; base < limit; base += stride)` whose counter has a finite
width.  Under a bound that excludes wrapping such a loop is a traversal of a
list, and nested loops over products of ranges are one loop.
-/

namespace Tmfqs
namespace Library
namespace Call

variable {ε σ ι : Type}

/-- Rounds of a strided loop, or an exception when the counter never gets there. -/
def strideFrom (wrap : Nat -> Nat) (never : ε) (limit stride : Nat)
    (body : Nat -> Call ε σ PUnit) : Nat -> Nat -> Call ε σ PUnit
  | fuel, base =>
      if base < limit then
        match fuel with
        | 0 => throw never
        | fuel + 1 => do
            body base
            strideFrom wrap never limit stride body fuel (wrap (base + stride))
      else
        pure ⟨⟩

/--
The loop `for(base = 0; base < limit; base += stride)` on a counter cut by `wrap`.
The counter takes fewer than `limit + 1` values below `limit`, so a loop that has
not ended after that many rounds never ends.
-/
def strideLoop (wrap : Nat -> Nat) (never : ε) (limit stride : Nat)
    (body : Nat -> Call ε σ PUnit) : Call ε σ PUnit :=
  strideFrom wrap never limit stride body (limit + 1) 0

theorem strideFrom_eq {wrap : Nat -> Nat} (never : ε) {stride rounds : Nat}
    (body : Nat -> Call ε σ PUnit) (hstride : 0 < stride)
    (hwrap : forall x, x ≤ rounds * stride -> wrap x = x) :
    forall (todo done fuel : Nat), done + todo = rounds -> todo ≤ fuel ->
      strideFrom wrap never (rounds * stride) stride body fuel (done * stride) =
        (List.range' done todo).forM fun i => body (i * stride)
  | 0, done, fuel, hsum, _ => by
      have hdone : ¬ done * stride < rounds * stride := by
        rw [← hsum]
        simp
      unfold strideFrom
      rw [if_neg hdone]
      rfl
  | todo + 1, done, 0, _, hfuel => by omega
  | todo + 1, done, fuel + 1, hsum, hfuel => by
      have hdone : done * stride < rounds * stride :=
        Nat.mul_lt_mul_of_pos_right (by omega) hstride
      have hnext : wrap (done * stride + stride) = (done + 1) * stride := by
        rw [← Nat.succ_mul]
        exact hwrap _ (Nat.mul_le_mul_right stride (by omega))
      unfold strideFrom
      rw [if_pos hdone, hnext, List.range'_succ]
      change (body (done * stride) >>= fun _ => _) = (body (done * stride) >>= fun _ => _)
      rw [strideFrom_eq never body hstride hwrap todo (done + 1) fuel (by omega) (by omega)]

theorem strideLoop_eq {wrap : Nat -> Nat} (never : ε) {stride : Nat} (rounds : Nat)
    (body : Nat -> Call ε σ PUnit) (hstride : 0 < stride)
    (hwrap : forall x, x ≤ rounds * stride -> wrap x = x) :
    strideLoop wrap never (rounds * stride) stride body =
      (List.range rounds).forM fun i => body (i * stride) := by
  have hle : rounds ≤ rounds * stride := Nat.le_mul_of_pos_right rounds hstride
  have hloop := strideFrom_eq never body hstride hwrap rounds 0 (rounds * stride + 1)
    (by omega) (by omega)
  rw [Nat.zero_mul] at hloop
  rw [strideLoop, hloop, List.range_eq_range']

/-!
## Traversals
-/

theorem forM_append (f : ι -> Call ε σ PUnit) (xs ys : List ι) :
    (xs ++ ys).forM f = (do xs.forM f; ys.forM f) := by
  induction xs with
  | nil => rfl
  | cons x rest ih =>
      change (f x >>= fun _ => (rest ++ ys).forM f) =
        ((f x >>= fun _ => rest.forM f) >>= fun _ => ys.forM f)
      rw [ih, bind_assoc]

theorem forM_map {κ : Type} (g : κ -> ι) (f : ι -> Call ε σ PUnit) (xs : List κ) :
    (xs.map g).forM f = xs.forM fun x => f (g x) := by
  induction xs with
  | nil => rfl
  | cons x rest ih =>
      change (f (g x) >>= fun _ => (rest.map g).forM f) = _
      rw [ih]
      rfl

theorem forM_congr {f g : ι -> Call ε σ PUnit} {xs : List ι}
    (h : forall x, x ∈ xs -> f x = g x) : xs.forM f = xs.forM g := by
  induction xs with
  | nil => rfl
  | cons x rest ih =>
      change (f x >>= fun _ => rest.forM f) = (g x >>= fun _ => rest.forM g)
      rw [h x List.mem_cons_self, ih (fun y hy => h y (List.mem_cons_of_mem x hy))]

theorem forM_eq_pure {f : ι -> Call ε σ PUnit} :
    forall {xs : List ι}, (forall x, x ∈ xs -> f x = pure ⟨⟩) -> xs.forM f = pure ⟨⟩
  | [], _ => rfl
  | x :: rest, h => by
      change (f x >>= fun _ => rest.forM f) = _
      have htail : rest.forM f = pure ⟨⟩ :=
        forM_eq_pure fun y hy => h y (List.mem_cons_of_mem x hy)
      rw [h x List.mem_cons_self, htail]
      rfl

theorem mapM_eq_pure {κ : Type} {f : ι -> Call ε σ κ} {g : ι -> κ} :
    forall {xs : List ι}, (forall x, x ∈ xs -> f x = pure (g x)) -> xs.mapM f = pure (xs.map g)
  | [], _ => rfl
  | x :: rest, h => by
      have hrest : rest.mapM f = pure (rest.map g) :=
        mapM_eq_pure (fun y hy => h y (List.mem_cons_of_mem x hy))
      rw [List.mapM_cons, h x List.mem_cons_self, hrest]
      rfl

theorem forM_range_mul (f : Nat -> Call ε σ PUnit) (b : Nat) :
    forall a : Nat, (List.range (a * b)).forM f =
      (List.range a).forM fun i => (List.range b).forM fun j => f (i * b + j)
  | 0 => by simp
  | a + 1 => by
      have hsplit : List.range ((a + 1) * b) =
          List.range (a * b) ++ (List.range b).map (a * b + ·) := by
        rw [Nat.succ_mul, List.range_add]
      rw [hsplit, forM_append, forM_map, forM_range_mul f b a, List.range_succ, forM_append]
      congr 1
      funext _
      change _ = ((List.range b).forM (fun j => f (a * b + j)) >>= fun _ => pure PUnit.unit)
      rw [bind_pure_unit]

end Call
end Library
end Tmfqs
