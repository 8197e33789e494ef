import Tmfqs.Model.ComplexAmplitudes

/-!
# Gates on the bits of a state

Each amplitude after a named gate, in terms of the amplitudes of the state and of its
partner, the state with the target bit flipped.
-/

namespace Tmfqs

open Library PairKernelExecutor

/-!
## Flipped bits
-/

theorem testBit_xor_two_pow (s bit i : Nat) :
    (s ^^^ 2 ^ bit).testBit i = if i = bit then !s.testBit i else s.testBit i := by
  rw [Nat.testBit_xor, Nat.testBit_two_pow]
  by_cases h : i = bit
  · rw [if_pos h, decide_eq_true h.symm, Bool.xor_true]
  · rw [if_neg h, decide_eq_false (Ne.symm h), Bool.xor_false]

theorem xor_two_pow_lt {n bit s : Nat} (hbit : bit < n) (hs : s < 2 ^ n) :
    s ^^^ 2 ^ bit < 2 ^ n :=
  Nat.xor_lt_two_pow hs (Nat.pow_lt_pow_right (by decide) hbit)

theorem lowState_xor (bit t : Nat) : lowState bit t ^^^ 2 ^ bit = lowState bit t + 2 ^ bit := by
  rw [← lowState_or]
  apply Nat.eq_of_testBit_eq
  intro i
  rw [testBit_xor_two_pow, Nat.testBit_or, Nat.testBit_two_pow]
  by_cases h : i = bit
  · subst h
    simp [StateVector.testBit_lowState]
  · simp [h, Ne.symm h]

theorem highState_xor (bit t : Nat) : (lowState bit t + 2 ^ bit) ^^^ 2 ^ bit = lowState bit t := by
  rw [← lowState_xor, Nat.xor_assoc, Nat.xor_self, Nat.xor_zero]

theorem mod_two_pow_succ (s i : Nat) :
    s % 2 ^ (i + 1) = s % 2 ^ i + 2 ^ i * (s.testBit i).toNat := by
  rw [Nat.pow_succ, Nat.mod_mul, Nat.testBit_eq_decide_div_mod_eq]
  rcases Nat.mod_two_eq_zero_or_one (s / 2 ^ i) with h | h
  · simp [h]
  · simp [h]

theorem xor_two_pow_mod (s bit : Nat) : (s ^^^ 2 ^ bit) % 2 ^ bit = s % 2 ^ bit := by
  rw [Nat.xor_mod_two_pow, Nat.mod_self, Nat.xor_zero]

namespace StateVector

variable {R : Type} [Field R] [LinearOrder R] [CMath R] {n bit : Nat} {v : List R}

omit [LinearOrder R] [CMath R] in
theorem ampAt_pairKernel_bit (kernel : PairKernel R) (hbit : bit < n)
    (hv : v.length = 2 * 2 ^ n) {s : Nat} (hs : s < 2 ^ n) :
    ampAt (pairKernel kernel n bit v) s =
      if s.testBit bit then
        (kernel (s ^^^ 2 ^ bit) s (ampAt v (s ^^^ 2 ^ bit)) (ampAt v s)).2.2
      else
        (kernel s (s ^^^ 2 ^ bit) (ampAt v s) (ampAt v (s ^^^ 2 ^ bit))).2.1 := by
  obtain ⟨t, ht, hst⟩ := exists_lowState hbit hs
  obtain ⟨hlow, hhigh⟩ := ampAt_pairKernel kernel hbit hv ht
  cases hset : s.testBit bit with
  | true =>
      rw [hset, if_pos rfl] at hst
      rw [if_pos rfl, hst, highState_xor, hhigh]
  | false =>
      rw [hset, if_neg Bool.false_ne_true] at hst
      rw [if_neg Bool.false_ne_true, hst, lowState_xor, hlow]

def controlledFlip (control target s : Nat) : Nat :=
  if s.testBit control then s ^^^ 2 ^ target else s

theorem controlledFlip_lt {control target s : Nat} (ht : target < n) (hs : s < 2 ^ n) :
    controlledFlip control target s < 2 ^ n := by
  rw [controlledFlip]
  split
  · exact xor_two_pow_lt ht hs
  · exact hs

omit [CMath R] in
theorem ampAt_controlledNot {c q : Nat} (hc : c < n) (hq : q < n) (hne : c ≠ q)
    (hv : v.length = 2 * 2 ^ n) {s : Nat} (hs : s < 2 ^ n) :
    ampAt (controlledNot n c q v) s =
      ampAt v (controlledFlip (n - c - 1) (n - q - 1) s) := by
  have hbits : n - c - 1 ≠ n - q - 1 := by omega
  have hpartner : (s ^^^ 2 ^ (n - q - 1)).testBit (n - c - 1) = s.testBit (n - c - 1) := by
    rw [testBit_xor_two_pow, if_neg hbits]
  rw [controlledNot, ampAt_pairKernel_bit _ (by omega) hv hs, controlledNotPair_snd,
    controlledNotPair_snd, controlledFlip]
  simp only [and_two_pow_eq_zero_iff, hpartner]
  cases s.testBit (n - c - 1) <;> cases s.testBit (n - q - 1) <;> rfl

theorem ampAt_controlledPhaseShift {c q : Nat} (hc : c < n) (hq : q < n) (hne : c ≠ q)
    (theta : R) (hv : v.length = 2 * 2 ^ n) {s : Nat} (hs : s < 2 ^ n) :
    ampAt (controlledPhaseShift n c q theta v) s =
      if s.testBit (n - q - 1) ∧ s.testBit (n - c - 1) then
        Amplitude.multiply { real := CMath.cos theta, imag := CMath.sin theta } (ampAt v s)
      else
        ampAt v s := by
  have hbits : n - c - 1 ≠ n - q - 1 := by omega
  have hpartner : (s ^^^ 2 ^ (n - q - 1)).testBit (n - c - 1) = s.testBit (n - c - 1) := by
    rw [testBit_xor_two_pow, if_neg hbits]
  rw [controlledPhaseShift, ampAt_pairKernel_bit _ (by omega) hv hs,
    controlledPhaseShiftPair_snd, controlledPhaseShiftPair_snd]
  simp only [and_two_pow_eq_zero_iff]
  cases s.testBit (n - c - 1) <;> cases s.testBit (n - q - 1) <;> rfl

/-!
## Exchanged bits
-/

def swapBits (a b s : Nat) : Nat :=
  if s.testBit a = s.testBit b then s else s ^^^ 2 ^ a ^^^ 2 ^ b

theorem testBit_swapBits (a b s i : Nat) :
    (swapBits a b s).testBit i = s.testBit (if i = a then b else if i = b then a else i) := by
  rw [swapBits]
  by_cases hsame : s.testBit a = s.testBit b
  · rw [if_pos hsame]
    split_ifs with ha hb
    · rw [ha, hsame]
    · rw [hb, hsame]
    · rfl
  · have hflip : s.testBit b = !s.testBit a := Bool.eq_not_of_ne (Ne.symm hsame)
    have hne : a ≠ b := fun h => hsame (h ▸ rfl)
    rw [if_neg hsame, testBit_xor_two_pow, testBit_xor_two_pow]
    by_cases hia : i = a
    · rw [if_neg (hia ▸ hne), if_pos hia, if_pos hia, hia, hflip]
    · rw [if_neg hia, if_neg hia]
      by_cases hib : i = b
      · rw [if_pos hib, if_pos hib, hib, hflip, Bool.not_not]
      · rw [if_neg hib, if_neg hib]

theorem swapBits_lt {a b s : Nat} (ha : a < n) (hb : b < n) (hs : s < 2 ^ n) :
    swapBits a b s < 2 ^ n := by
  rw [swapBits]
  split
  · exact hs
  · exact xor_two_pow_lt hb (xor_two_pow_lt ha hs)

theorem controlledFlip_three {a b : Nat} (hne : a ≠ b) (s : Nat) :
    controlledFlip a b (controlledFlip b a (controlledFlip a b s)) = swapBits a b s := by
  have hother : forall x, (x ^^^ 2 ^ b).testBit a = x.testBit a := by
    intro x
    rw [testBit_xor_two_pow, if_neg hne]
  have hself : forall x i, (x ^^^ 2 ^ i).testBit i = !x.testBit i := by
    intro x i
    rw [testBit_xor_two_pow, if_pos rfl]
  have hcancel : s ^^^ 2 ^ b ^^^ 2 ^ b = s := by
    rw [Nat.xor_assoc, Nat.xor_self, Nat.xor_zero]
  have hcomm : s ^^^ 2 ^ b ^^^ 2 ^ a = s ^^^ 2 ^ a ^^^ 2 ^ b := by
    rw [Nat.xor_assoc, Nat.xor_comm (2 ^ b), ← Nat.xor_assoc]
  cases ha : s.testBit a <;> cases hb : s.testBit b <;>
    simp [controlledFlip, swapBits, ha, hb, hother, hself, hcancel, hcomm]

omit [CMath R] in
theorem ampAt_swap {a b : Nat} (ha : a < n) (hb : b < n) (hne : a ≠ b)
    (hv : v.length = 2 * 2 ^ n) {s : Nat} (hs : s < 2 ^ n) :
    ampAt (swap n a b v) s = ampAt v (swapBits (n - a - 1) (n - b - 1) s) := by
  have hbits : n - a - 1 ≠ n - b - 1 := by omega
  have hlen : forall {c q : Nat} {w : List R}, w.length = 2 * 2 ^ n ->
      (controlledNot n c q w).length = 2 * 2 ^ n :=
    fun hw => (length_pairKernel _ n _ _).trans hw
  have hs1 : controlledFlip (n - a - 1) (n - b - 1) s < 2 ^ n := controlledFlip_lt (by omega) hs
  rw [swap, ampAt_controlledNot ha hb hne (hlen (hlen hv)) hs,
    ampAt_controlledNot hb ha (Ne.symm hne) (hlen hv) hs1,
    ampAt_controlledNot ha hb hne hv (controlledFlip_lt (by omega) hs1),
    controlledFlip_three hbits]

/-!
## Complex amplitudes
-/

section Complex

variable {v : List Real}

noncomputable def complexAt (v : List Real) (s : Nat) : Complex :=
  (ampAt v s).toComplex

theorem complexAt_hadamard {q : Nat} (hq : q < n) (hv : v.length = 2 * 2 ^ n) {s : Nat}
    (hs : s < 2 ^ n) :
    complexAt (hadamard n q v) s =
      (complexAt v (s ^^^ 2 ^ (n - q - 1)) +
          (if s.testBit (n - q - 1) then -1 else 1) * complexAt v s) *
        ((1 / Real.sqrt 2 : Real) : Complex) := by
  rw [complexAt, hadamard, ampAt_pairKernel_bit _ (by omega) hv hs, hadamardPair_snd,
    hadamardPair_snd]
  have hsqrt : 1 / Real.sqrt 2 = 1 / CMath.sqrt (2 : Real) := rfl
  rw [hsqrt]
  generalize 1 / CMath.sqrt (2 : Real) = x
  cases s.testBit (n - q - 1) with
  | true =>
      apply Complex.ext
      · simp [complexAt, Amplitude.toComplex, -mul_eq_mul_right_iff]
        ring
      · simp [complexAt, Amplitude.toComplex, -mul_eq_mul_right_iff]
        ring
  | false =>
      apply Complex.ext
      · simp [complexAt, Amplitude.toComplex, -mul_eq_mul_right_iff]
        ring
      · simp [complexAt, Amplitude.toComplex, -mul_eq_mul_right_iff]
        ring

theorem complexAt_controlledPhaseShift {c q : Nat} (hc : c < n) (hq : q < n) (hne : c ≠ q)
    (theta : Real) (hv : v.length = 2 * 2 ^ n) {s : Nat} (hs : s < 2 ^ n) :
    complexAt (controlledPhaseShift n c q theta v) s =
      (if s.testBit (n - q - 1) ∧ s.testBit (n - c - 1) then
        Complex.exp (theta * Complex.I) else 1) * complexAt v s := by
  have hphase : ({ real := CMath.cos theta, imag := CMath.sin theta } :
      Amplitude Real).toComplex = Complex.exp (theta * Complex.I) := by
    rw [Amplitude.toComplex_mk, Complex.exp_mul_I]
    apply Complex.ext
    · simp [CMath.cos, Complex.cos_ofReal_re]
    · simp [CMath.sin, Complex.sin_ofReal_re]
  rw [complexAt, ampAt_controlledPhaseShift hc hq hne theta hv hs]
  split
  · rw [Amplitude.toComplex_multiply, hphase]
    rfl
  · rw [one_mul]
    rfl

end Complex

end StateVector

end Tmfqs
