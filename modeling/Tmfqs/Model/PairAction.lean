import Tmfqs.Model.StateVector

/-!
# What a pair kernel does to a state vector

The pairs of a traversal are disjoint, so every amplitude of the result comes from
one run of the kernel on the two original amplitudes of its pair.
-/

namespace Tmfqs

open PairKernelExecutor

namespace StateVector

variable {R : Type} [Field R] {kernel : PairKernel R} {v : List R}

/-!
## Disjoint pairs
-/

def Disjoint (p q : Nat × Nat) : Prop :=
  p.1 ≠ q.1 ∧ p.1 ≠ q.2 ∧ p.2 ≠ q.1 ∧ p.2 ≠ q.2

theorem ampAt_pairStep {p : Nat × Nat} (s : Nat) (h0 : 2 * p.1 + 1 < v.length)
    (h1 : 2 * p.2 + 1 < v.length) :
    ampAt (pairStep kernel v p) s =
      if s = p.2 then (kernel p.1 p.2 (ampAt v p.1) (ampAt v p.2)).2.2
      else if s = p.1 then (kernel p.1 p.2 (ampAt v p.1) (ampAt v p.2)).2.1
      else ampAt v s := by
  rw [pairStep, ampAt_setAmp s _ (by rw [length_setAmp]; exact h1), ampAt_setAmp s _ h0]

theorem ampAt_foldl_of_not_mem (s : Nat) :
    forall (pairs : List (Nat × Nat)) (v : List R),
      (forall p, p ∈ pairs -> 2 * p.1 + 1 < v.length ∧ 2 * p.2 + 1 < v.length) ->
      (forall p, p ∈ pairs -> s ≠ p.1 ∧ s ≠ p.2) ->
      ampAt (pairs.foldl (pairStep kernel) v) s = ampAt v s
  | [], _, _, _ => rfl
  | p :: rest, v, hlt, hs => by
      have hp := hlt p List.mem_cons_self
      have hsp := hs p List.mem_cons_self
      rw [List.foldl_cons, ampAt_foldl_of_not_mem s rest _ (by
          rw [length_pairStep]
          exact fun q hq => hlt q (List.mem_cons_of_mem p hq))
          (fun q hq => hs q (List.mem_cons_of_mem p hq)),
        ampAt_pairStep s hp.1 hp.2, if_neg hsp.2, if_neg hsp.1]

theorem ampAt_foldl_pairStep {q : Nat × Nat} :
    forall (pairs : List (Nat × Nat)) (v : List R),
      (forall p, p ∈ pairs -> 2 * p.1 + 1 < v.length ∧ 2 * p.2 + 1 < v.length) ->
      pairs.Pairwise Disjoint -> q ∈ pairs -> q.1 ≠ q.2 ->
      ampAt (pairs.foldl (pairStep kernel) v) q.1 =
          (kernel q.1 q.2 (ampAt v q.1) (ampAt v q.2)).2.1 ∧
        ampAt (pairs.foldl (pairStep kernel) v) q.2 =
          (kernel q.1 q.2 (ampAt v q.1) (ampAt v q.2)).2.2
  | [], _, _, _, hq, _ => absurd hq List.not_mem_nil
  | p :: rest, v, hlt, hdisjoint, hq, hne => by
      have hp := hlt p List.mem_cons_self
      have hlt' : forall r, r ∈ rest -> 2 * r.1 + 1 < (pairStep kernel v p).length ∧
          2 * r.2 + 1 < (pairStep kernel v p).length := by
        rw [length_pairStep]
        exact fun r hr => hlt r (List.mem_cons_of_mem p hr)
      obtain ⟨hhead, htail⟩ := List.pairwise_cons.mp hdisjoint
      rw [List.foldl_cons]
      rcases List.mem_cons.mp hq with rfl | hrest
      · rw [ampAt_foldl_of_not_mem q.1 rest _ hlt' (fun r hr => ⟨(hhead r hr).1, (hhead r hr).2.1⟩),
          ampAt_foldl_of_not_mem q.2 rest _ hlt'
            (fun r hr => ⟨(hhead r hr).2.2.1, (hhead r hr).2.2.2⟩),
          ampAt_pairStep q.1 hp.1 hp.2, ampAt_pairStep q.2 hp.1 hp.2, if_neg hne, if_pos rfl,
          if_pos rfl]
        exact ⟨rfl, rfl⟩
      · have hqp := hhead q hrest
        obtain ⟨h1, h2⟩ := ampAt_foldl_pairStep rest (pairStep kernel v p) hlt' htail hrest hne
        rw [h1, h2, ampAt_pairStep q.1 hp.1 hp.2, ampAt_pairStep q.2 hp.1 hp.2,
          if_neg (Ne.symm hqp.2.2.1), if_neg (Ne.symm hqp.1), if_neg (Ne.symm hqp.2.2.2),
          if_neg (Ne.symm hqp.2.1)]
        exact ⟨rfl, rfl⟩

/-!
## The pairs of one bit
-/

section Bits

variable {n bit : Nat}

theorem lowState_div (t : Nat) : lowState bit t / 2 ^ bit = 2 * (t / 2 ^ bit) := by
  have hpow : t / 2 ^ bit * 2 ^ (bit + 1) = 2 ^ bit * (2 * (t / 2 ^ bit)) := by
    rw [Nat.pow_succ]
    ring
  rw [lowState, hpow, Nat.mul_add_div (Nat.two_pow_pos bit),
    Nat.div_eq_of_lt (Nat.mod_lt t (Nat.two_pow_pos bit)), Nat.add_zero]

theorem testBit_lowState (t : Nat) : (lowState bit t).testBit bit = false := by
  rw [Nat.testBit_eq_decide_div_mod_eq, lowState_div, Nat.mul_mod_right]
  rfl

theorem testBit_highState (t : Nat) : (lowState bit t + 2 ^ bit).testBit bit = true := by
  rw [Nat.testBit_eq_decide_div_mod_eq, Nat.add_div_right _ (Nat.two_pow_pos bit), lowState_div]
  simp

theorem lowState_lt_lowState {t u : Nat} (h : t < u) : lowState bit t < lowState bit u := by
  have hpos : 0 < 2 ^ bit := Nat.two_pow_pos bit
  have ht := Nat.mod_lt t hpos
  have htu : t / 2 ^ bit ≤ u / 2 ^ bit := Nat.div_le_div_right (Nat.le_of_lt h)
  have ht' := Nat.div_add_mod t (2 ^ bit)
  have hu' := Nat.div_add_mod u (2 ^ bit)
  have hpow : 2 ^ (bit + 1) = 2 * 2 ^ bit := by rw [Nat.pow_succ, Nat.mul_comm]
  unfold lowState
  rcases Nat.lt_or_eq_of_le htu with hlt | heq
  · have hblock : (t / 2 ^ bit + 1) * 2 ^ (bit + 1) ≤ u / 2 ^ bit * 2 ^ (bit + 1) :=
      Nat.mul_le_mul_right _ hlt
    rw [Nat.succ_mul] at hblock
    omega
  · rw [heq] at ht' ⊢
    omega

theorem exists_lowState (hbit : bit < n) {s : Nat} (hs : s < 2 ^ n) :
    exists t, t < 2 ^ (n - 1) ∧
      s = if s.testBit bit then lowState bit t + 2 ^ bit else lowState bit t := by
  have hpos : 0 < 2 ^ bit := Nat.two_pow_pos bit
  have hpow : 2 ^ (bit + 1) = 2 ^ bit * 2 := Nat.pow_succ _ _
  have hpairs : 2 ^ (n - 1) = 2 ^ (n - bit - 1) * 2 ^ bit := two_pow_split (by omega)
  have hstates : 2 ^ n = 2 ^ (n - bit - 1) * 2 ^ (bit + 1) := two_pow_split (by omega)
  have hmod := Nat.mod_lt s hpos
  have hgroup : s / 2 ^ (bit + 1) < 2 ^ (n - bit - 1) := by
    rw [Nat.div_lt_iff_lt_mul (Nat.two_pow_pos _), ← hstates]
    exact hs
  refine ⟨s / 2 ^ (bit + 1) * 2 ^ bit + s % 2 ^ bit, ?_, ?_⟩
  · have hblock : (s / 2 ^ (bit + 1) + 1) * 2 ^ bit ≤ 2 ^ (n - bit - 1) * 2 ^ bit :=
      Nat.mul_le_mul_right _ hgroup
    rw [Nat.succ_mul] at hblock
    omega
  · have hhalf : s / 2 ^ bit / 2 = s / 2 ^ (bit + 1) := by
      rw [Nat.div_div_eq_div_mul, ← hpow]
    have hsplit := Nat.div_add_mod s (2 ^ bit)
    have hsplit' := Nat.div_add_mod (s / 2 ^ bit) 2
    rw [lowState_eq _ hmod, Nat.testBit_eq_decide_div_mod_eq]
    rw [hhalf] at hsplit'
    have hexpand : 2 ^ bit * (s / 2 ^ bit) =
        s / 2 ^ (bit + 1) * 2 ^ (bit + 1) + 2 ^ bit * (s / 2 ^ bit % 2) := by
      calc
        2 ^ bit * (s / 2 ^ bit) =
            2 ^ bit * (2 * (s / 2 ^ (bit + 1)) + s / 2 ^ bit % 2) := by rw [hsplit']
        _ = s / 2 ^ (bit + 1) * 2 ^ (bit + 1) + 2 ^ bit * (s / 2 ^ bit % 2) := by
            rw [hpow]
            ring
    rcases Nat.mod_two_eq_zero_or_one (s / 2 ^ bit) with hzero | hone
    · rw [hzero] at hexpand ⊢
      simp only [decide_eq_true_eq]
      rw [if_neg (by decide)]
      omega
    · rw [hone] at hexpand ⊢
      simp only [decide_eq_true_eq]
      rw [if_pos trivial]
      omega

theorem pairwise_pairList : (pairList n bit).Pairwise Disjoint := by
  rw [pairList, List.pairwise_map]
  refine List.Pairwise.imp ?_ List.pairwise_lt_range
  intro t u htu
  have hlow : lowState bit t < lowState bit u := lowState_lt_lowState htu
  have hcross : forall x y, lowState bit x ≠ lowState bit y + 2 ^ bit := by
    intro x y heq
    have hx : (lowState bit x).testBit bit = false := testBit_lowState x
    rw [heq, testBit_highState] at hx
    cases hx
  refine ⟨Nat.ne_of_lt hlow, hcross t u, fun heq => hcross u t heq.symm, ?_⟩
  simp only
  omega

theorem lowState_add_lt (hbit : bit < n) {t : Nat} (ht : t < 2 ^ (n - 1)) :
    lowState bit t + 2 ^ bit < 2 ^ n := by
  have hmod := Nat.mod_lt t (Nat.two_pow_pos bit)
  have hpow : 2 ^ (bit + 1) = 2 * 2 ^ bit := by rw [Nat.pow_succ, Nat.mul_comm]
  have hpairs : 2 ^ (n - 1) = 2 ^ (n - bit - 1) * 2 ^ bit := two_pow_split (by omega)
  have hstates : 2 ^ n = 2 ^ (n - bit - 1) * 2 ^ (bit + 1) := two_pow_split (by omega)
  have hdiv : t / 2 ^ bit < 2 ^ (n - bit - 1) := by
    rw [Nat.div_lt_iff_lt_mul (Nat.two_pow_pos bit), ← hpairs]
    exact ht
  have hgroup : (t / 2 ^ bit + 1) * 2 ^ (bit + 1) ≤ 2 ^ (n - bit - 1) * 2 ^ (bit + 1) :=
    Nat.mul_le_mul_right _ hdiv
  rw [Nat.succ_mul] at hgroup
  unfold lowState
  omega

theorem mem_pairList {p : Nat × Nat} (hbit : bit < n) (hp : p ∈ pairList n bit) :
    p.1 < 2 ^ n ∧ p.2 < 2 ^ n ∧ p.2 = p.1 + 2 ^ bit := by
  obtain ⟨t, ht, rfl⟩ := List.mem_map.mp hp
  have hhigh := lowState_add_lt hbit (List.mem_range.mp ht)
  exact ⟨Nat.lt_of_le_of_lt (Nat.le_add_right _ _) hhigh, hhigh, rfl⟩

theorem ampAt_pairKernel (kernel : PairKernel R) (hbit : bit < n) (hv : v.length = 2 * 2 ^ n)
    {t : Nat} (ht : t < 2 ^ (n - 1)) :
    ampAt (pairKernel kernel n bit v) (lowState bit t) =
        (kernel (lowState bit t) (lowState bit t + 2 ^ bit) (ampAt v (lowState bit t))
          (ampAt v (lowState bit t + 2 ^ bit))).2.1 ∧
      ampAt (pairKernel kernel n bit v) (lowState bit t + 2 ^ bit) =
        (kernel (lowState bit t) (lowState bit t + 2 ^ bit) (ampAt v (lowState bit t))
          (ampAt v (lowState bit t + 2 ^ bit))).2.2 := by
  have hpos : 0 < 2 ^ bit := Nat.two_pow_pos bit
  have hlt : forall p, p ∈ pairList n bit -> 2 * p.1 + 1 < v.length ∧ 2 * p.2 + 1 < v.length := by
    intro p hp
    obtain ⟨h1, h2, _⟩ := mem_pairList hbit hp
    omega
  have hmem : (lowState bit t, lowState bit t + 2 ^ bit) ∈ pairList n bit :=
    List.mem_map.mpr ⟨t, List.mem_range.mpr ht, rfl⟩
  exact ampAt_foldl_pairStep (pairList n bit) v hlt pairwise_pairList hmem (by simp only; omega)

theorem eq_of_pairs {w : List R} (hbit : bit < n) (hv : v.length = 2 * 2 ^ n)
    (hw : w.length = 2 * 2 ^ n)
    (h : forall t, t < 2 ^ (n - 1) -> ampAt v (lowState bit t) = ampAt w (lowState bit t) ∧
      ampAt v (lowState bit t + 2 ^ bit) = ampAt w (lowState bit t + 2 ^ bit)) : v = w := by
  apply eq_of_ampAt hv hw
  intro s hs
  obtain ⟨t, ht, hst⟩ := exists_lowState hbit hs
  cases hb : s.testBit bit with
  | true =>
      rw [hb, if_pos rfl] at hst
      rw [hst]
      exact (h t ht).2
  | false =>
      rw [hb, if_neg Bool.false_ne_true] at hst
      rw [hst]
      exact (h t ht).1

end Bits

end StateVector

end Tmfqs
