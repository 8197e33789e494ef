import Mathlib.RingTheory.RootsOfUnity.Complex
import Tmfqs.Library.PeriodicSums
import Tmfqs.Sim.CircuitProbability
import Tmfqs.Sim.FourierTransform
import Tmfqs.Sim.ReturnedRuns
import Tmfqs.State.Measurement
import Tmfqs.State.StateFactories

/-!
# The period of a pattern

The example program `qftG` prepares the states `8 x + x % 2`, transforms them and measures.
The pattern repeats itself every sixteen states, so what is measured is a multiple of a
sixteenth of the number of states.
-/

namespace Tmfqs

open Library StateVector Circuit

namespace QftPattern

/-!
## The program
-/

/-- The loop of `chooseInputStates` from `x` on, for less than `fuel` rounds. -/
def chooseFrom (totalStates : Nat) : Nat -> Nat -> Option (List Nat)
  | 0, _ => none
  | fuel + 1, x =>
      let y := u64 (u64 (8 * x) + x % 2)
      if y ≥ totalStates then
        some []
      else
        (chooseFrom totalStates fuel (u64 (x + 1))).map (y :: ·)

def chooseInputStates (totalStates : Nat) : Option (List Nat) :=
  chooseFrom totalStates (totalStates + 1) 0

def sanitizeStates (input : List Nat) (totalStates : Nat) : List Nat :=
  selectedStates (input.filter fun state => decide (state < totalStates))

/-- No states when the function returns `false`. -/
def buildInputStates (totalStates : Nat) : Option (List Nat) := do
  let input <- chooseInputStates totalStates
  let selectedStatesOut := sanitizeStates input totalStates
  if selectedStatesOut.isEmpty then
    none
  else
    some selectedStatesOut

/-!
## The states of the pattern
-/

def patternState (x : Nat) : Nat :=
  8 * x + x % 2

/-- The pattern repeats itself after sixteen states. -/
def InPattern (s : Nat) : Prop :=
  s % 16 = 0 ∨ s % 16 = 9

instance (s : Nat) : Decidable (InPattern s) :=
  inferInstanceAs (Decidable (s % 16 = 0 ∨ s % 16 = 9))

section States

variable {n : Nat}

theorem patternState_lt_iff (n x : Nat) : patternState x < 2 ^ n <-> x < 2 ^ (n - 3) := by
  rw [patternState]
  by_cases hn : 3 ≤ n
  · have hpow : 2 ^ n = 8 * 2 ^ (n - 3) := by
      calc 2 ^ n = 2 ^ (3 + (n - 3)) := by rw [Nat.add_sub_cancel' hn]
        _ = 8 * 2 ^ (n - 3) := by rw [pow_add]; rfl
    omega
  · have hzero : n - 3 = 0 := by omega
    have hlt : 2 ^ n < 2 ^ 3 := Nat.pow_lt_pow_right (by decide) (by omega)
    have hpos := Nat.two_pow_pos n
    rw [hzero]
    omega

theorem chooseFrom_eq (hn : n ≤ 31) : forall fuel x, x ≤ 2 ^ (n - 3) -> 2 ^ (n - 3) < x + fuel ->
    chooseFrom (2 ^ n) fuel x = some ((List.range' x (2 ^ (n - 3) - x)).map patternState) := by
  have hsize : 2 ^ (n - 3) ≤ 2 ^ 28 := Nat.pow_le_pow_right (by decide) (by omega)
  intro fuel
  induction fuel with
  | zero =>
      intro x hx hfuel
      omega
  | succ fuel ih =>
      intro x hx hfuel
      have hy : u64 (u64 (8 * x) + x % 2) = patternState x := by
        rw [patternState, u64_of_lt (show 8 * x < 2 ^ 64 by omega), u64_of_lt (by omega)]
      have hnext : u64 (x + 1) = x + 1 := u64_of_lt (by omega)
      have hiff := patternState_lt_iff n x
      rw [chooseFrom, hy, hnext]
      by_cases hlast : x = 2 ^ (n - 3)
      · rw [if_pos (by omega), hlast, Nat.sub_self]
        rfl
      · rw [if_neg (by omega), ih (x + 1) (by omega) (by omega),
          show 2 ^ (n - 3) - x = 2 ^ (n - 3) - (x + 1) + 1 by omega, List.range'_succ]
        rfl

theorem chooseInputStates_eq (hn : n ≤ 31) :
    chooseInputStates (2 ^ n) = some ((List.range (2 ^ (n - 3))).map patternState) := by
  have hle : 2 ^ (n - 3) ≤ 2 ^ n := Nat.pow_le_pow_right (by decide) (by omega)
  rw [chooseInputStates, chooseFrom_eq hn _ 0 (Nat.zero_le _) (by omega), Nat.sub_zero,
    List.range_eq_range']

theorem mem_patternStates {s : Nat} :
    s ∈ (List.range (2 ^ (n - 3))).map patternState <-> s < 2 ^ n ∧ InPattern s := by
  rw [List.mem_map, InPattern]
  constructor
  · rintro ⟨x, hx, rfl⟩
    refine ⟨(patternState_lt_iff n x).mpr (List.mem_range.mp hx), ?_⟩
    rw [patternState]
    cases Nat.mod_two_eq_zero_or_one x with
    | inl heven =>
        left
        omega
    | inr hodd =>
        right
        omega
  · rintro ⟨hs, hpattern⟩
    have hstate : patternState (s / 8) = s := by
      rw [patternState]
      omega
    refine ⟨s / 8, List.mem_range.mpr ?_, hstate⟩
    rw [← patternState_lt_iff n, hstate]
    exact hs

theorem nodup_patternStates : ((List.range (2 ^ (n - 3))).map patternState).Nodup := by
  refine List.Nodup.map ?_ List.nodup_range
  intro x y hxy
  rw [patternState, patternState] at hxy
  omega

theorem buildInputStates_eq (hn : n ≤ 31) :
    exists states, buildInputStates (2 ^ n) = some states ∧ states ≠ [] ∧
      (forall s, s ∈ states <-> s < 2 ^ n ∧ InPattern s) ∧
      (selectedStates states).length = 2 ^ (n - 3) := by
  obtain ⟨states, hstates⟩ : exists states, states =
    sanitizeStates ((List.range (2 ^ (n - 3))).map patternState) (2 ^ n) := ⟨_, rfl⟩
  have hmem : forall s, s ∈ states <-> s < 2 ^ n ∧ InPattern s := by
    intro s
    rw [hstates, sanitizeStates, mem_selectedStates, List.mem_filter, mem_patternStates,
      decide_eq_true_eq]
    exact ⟨fun h => h.1, fun h => ⟨h, h.1⟩⟩
  have hzero : 0 ∈ states := (hmem 0).mpr ⟨Nat.two_pow_pos n, Or.inl rfl⟩
  have hne : states ≠ [] := List.ne_nil_of_mem hzero
  have hperm : (selectedStates states).Perm ((List.range (2 ^ (n - 3))).map patternState) := by
    rw [List.perm_ext_iff_of_nodup (nodup_selectedStates states) nodup_patternStates]
    intro s
    rw [mem_selectedStates, hmem, mem_patternStates]
  refine ⟨states, ?_, hne, hmem, ?_⟩
  · simp only [buildInputStates, chooseInputStates_eq hn, Option.bind_eq_bind, Option.bind_some,
      ← hstates]
    rw [if_neg]
    rwa [List.isEmpty_iff]
  · rw [hperm.length_eq, List.length_map, List.length_range]

end States

/-!
## The spectrum of the pattern
-/

section Spectrum

variable {n : Nat}

noncomputable def firstRoot (N : Nat) : Complex :=
  Complex.exp (2 * Real.pi * Complex.I / N)

theorem exp_eq_firstRoot_pow (N x y : Nat) :
    Complex.exp (2 * Real.pi * Complex.I * x * y / (N : Nat)) = firstRoot N ^ (x * y) := by
  rw [firstRoot, ← Complex.exp_nat_mul]
  congr 1
  push_cast
  ring

theorem normSq_one_add_root (N k : Nat) :
    Complex.normSq (1 + firstRoot N ^ k) = 2 + 2 * Real.cos (2 * Real.pi * k / N) := by
  have hpow : firstRoot N ^ k = Complex.exp ((2 * Real.pi * k / N : Real) * Complex.I) := by
    rw [firstRoot, ← Complex.exp_nat_mul]
    congr 1
    push_cast
    ring
  have hsq := Real.sin_sq_add_cos_sq (2 * Real.pi * k / N)
  rw [hpow, Complex.normSq_apply, Complex.add_re, Complex.add_im, Complex.one_re, Complex.one_im,
    Complex.exp_ofReal_mul_I_re, Complex.exp_ofReal_mul_I_im]
  linear_combination hsq

def indicator (s : Nat) : Complex :=
  if InPattern s then 1 else 0

theorem indicator_periodic (s : Nat) : indicator (s + 16) = indicator s := by
  have hiff : InPattern (s + 16) <-> InPattern s := by
    rw [InPattern, InPattern, Nat.add_mod_right]
  rw [indicator, indicator]
  exact if_congr hiff rfl rfl

theorem sum_indicator (N y : Nat) :
    ∑ o ∈ Finset.range 16, firstRoot N ^ (o * y) * indicator o = 1 + firstRoot N ^ (9 * y) := by
  have hone : forall o, InPattern o -> firstRoot N ^ (o * y) * indicator o =
      firstRoot N ^ (o * y) := by
    intro o ho
    rw [indicator, if_pos ho, mul_one]
  rw [Finset.sum_eq_add 0 9 (by decide), hone 0 (by decide), hone 9 (by decide), Nat.zero_mul,
    pow_zero]
  · intro o ho hne
    have hlt := Finset.mem_range.mp ho
    rw [indicator, if_neg, mul_zero]
    rw [InPattern]
    omega
  · intro h
    exact absurd (Finset.mem_range.mpr (by decide)) h
  · intro h
    exact absurd (Finset.mem_range.mpr (by decide)) h

noncomputable def spectrum (n y : Nat) : Complex :=
  ∑ x ∈ Finset.range (2 ^ n), firstRoot (2 ^ n) ^ (x * y) * indicator x

theorem spectrum_of_lt (hn : n < 4) (y : Nat) : spectrum n y = 1 := by
  have hsmall : 2 ^ n ≤ 2 ^ 3 := Nat.pow_le_pow_right (by decide) (by omega)
  rw [spectrum, Finset.sum_eq_single 0]
  · have hzero : InPattern 0 := Or.inl rfl
    rw [indicator, if_pos hzero, Nat.zero_mul, pow_zero, mul_one]
  · intro x hx hne
    have hlt := Finset.mem_range.mp hx
    rw [indicator, if_neg, mul_zero]
    rw [InPattern]
    omega
  · intro h
    exact absurd (Finset.mem_range.mpr (Nat.two_pow_pos n)) h

theorem spectrum_of_ge (hn : 4 ≤ n) (y : Nat) :
    spectrum n y = (1 + firstRoot (2 ^ n) ^ (9 * y)) *
      if 2 ^ (n - 4) ∣ y then ((2 ^ (n - 4) : Nat) : Complex) else 0 := by
  have hpow : 2 ^ n = 16 * 2 ^ (n - 4) := by
    calc 2 ^ n = 2 ^ (4 + (n - 4)) := by rw [Nat.add_sub_cancel' hn]
      _ = 16 * 2 ^ (n - 4) := by rw [pow_add]; rfl
  have hroot : IsPrimitiveRoot (firstRoot (2 ^ n)) (16 * 2 ^ (n - 4)) := by
    rw [← hpow]
    exact Complex.isPrimitiveRoot_exp _ (Nat.two_pow_pos n).ne'
  rw [← sum_indicator, ← sum_periodic (by decide) (Nat.two_pow_pos _) hroot indicator_periodic,
    ← hpow, spectrum]

end Spectrum

/-!
## What is measured
-/

noncomputable def patternProbability (n k : Nat) : Real :=
  if n < 4 then
    1 / 2 ^ n
  else if 2 ^ (n - 4) ∣ k then
    (1 + Real.cos (18 * Real.pi * k / 2 ^ n)) / 16
  else
    0

section Distribution

variable {n : Nat} {states : List Nat}
  (hmem : forall s, s ∈ states <-> s < 2 ^ n ∧ InPattern s)
  (hcount : (selectedStates states).length = 2 ^ (n - 3))
include hmem hcount

theorem complexAt_pattern {s : Nat} (hs : s < 2 ^ n) :
    complexAt (uniform n states : List Real) s =
      ((1 / Real.sqrt ((2 ^ (n - 3) : Nat) : Real) : Real) : Complex) * indicator s := by
  rw [complexAt, ampAt_uniform (fun t ht => ((hmem t).mp ht).1), indicator, hcount]
  by_cases hpattern : InPattern s
  · rw [if_pos ((hmem s).mpr ⟨hs, hpattern⟩), if_pos hpattern, mul_one]
    rfl
  · rw [if_neg (fun h => hpattern ((hmem s).mp h).2), if_neg hpattern, mul_zero]
    exact Amplitude.toComplex_zero

theorem prob_transformed (hn : n ≤ 31) {y : Nat} (hy : y < 2 ^ n) :
    prob (Operation.applyAll n (qftOperations n) (uniform n states)) y =
      patternProbability n y := by
  have hsum : ∑ x ∈ Finset.range (2 ^ n),
      Complex.exp (2 * Real.pi * Complex.I * x * y / (2 ^ n : Nat)) *
        complexAt (uniform n states) x =
      ((1 / Real.sqrt ((2 ^ (n - 3) : Nat) : Real) : Real) : Complex) * spectrum n y := by
    rw [spectrum, Finset.mul_sum]
    apply Finset.sum_congr rfl
    intro x hx
    rw [complexAt_pattern hmem hcount (Finset.mem_range.mp hx), exp_eq_firstRoot_pow]
    ring
  have hsq : forall k : Nat, Complex.normSq ((1 / Real.sqrt (k : Real) : Real) : Complex) =
      1 / k := by
    intro k
    rw [Complex.normSq_ofReal, div_mul_div_comm, Real.mul_self_sqrt (Nat.cast_nonneg k), one_mul]
  rw [prob, Amplitude.probability_eq_normSq]
  change Complex.normSq (complexAt _ y) = _
  rw [FourierTransform.complexAt_qftOperations hn (length_uniform n states) hy, hsum,
    Complex.normSq_mul, Complex.normSq_mul, hsq, hsq, patternProbability]
  by_cases hsmall : n < 4
  · rw [if_pos hsmall, spectrum_of_lt hsmall, show n - 3 = 0 by omega]
    simp
  · have hge : 4 ≤ n := by omega
    have hpow : (2 : Real) ^ n = 16 * 2 ^ (n - 4) := by
      rw [← Nat.add_sub_cancel' hge, pow_add, Nat.add_sub_cancel_left]
      norm_num
    have hpow' : (2 : Real) ^ (n - 3) = 2 * 2 ^ (n - 4) := by
      rw [show n - 3 = 1 + (n - 4) by omega, pow_add, pow_one]
    have hpos : (2 : Real) ^ (n - 4) ≠ 0 := by positivity
    rw [if_neg hsmall, spectrum_of_ge hge, Complex.normSq_mul, normSq_one_add_root]
    by_cases hdvd : 2 ^ (n - 4) ∣ y
    · rw [if_pos hdvd, if_pos hdvd, Complex.normSq_natCast]
      push_cast
      rw [hpow, hpow', show 2 * Real.pi * (9 * y) = 18 * Real.pi * y by ring]
      field_simp
    · rw [if_neg hdvd, if_neg hdvd, map_zero, mul_zero, mul_zero, mul_zero]

end Distribution

/-- Half of the states and what lies outside the sixteenths are never measured. -/
theorem multiple_of_patternProbability_pos {n k : Nat} (hn : 4 ≤ n) (hk : k < 2 ^ n)
    (hpos : 0 < patternProbability n k) : exists t, t < 16 ∧ t ≠ 8 ∧ k = 2 ^ (n - 4) * t := by
  have hpow : 2 ^ n = 2 ^ (n - 4) * 16 := by
    calc 2 ^ n = 2 ^ (n - 4 + 4) := by rw [Nat.sub_add_cancel hn]
      _ = 2 ^ (n - 4) * 16 := by rw [pow_add]; rfl
  rw [patternProbability, if_neg (by omega)] at hpos
  by_cases hdvd : 2 ^ (n - 4) ∣ k
  · rcases hdvd with ⟨t, rfl⟩
    rw [hpow] at hk
    refine ⟨t, Nat.lt_of_mul_lt_mul_left hk, ?_, rfl⟩
    rintro rfl
    have hreal : (2 : Real) ^ n = 2 ^ (n - 4) * 16 := by exact_mod_cast hpow
    have hangle : 18 * Real.pi * ((2 ^ (n - 4) * 8 : Nat) : Real) / 2 ^ n =
        Real.pi + (4 : Nat) * (2 * Real.pi) := by
      rw [hreal]
      push_cast
      field_simp
      ring
    rw [if_pos (Nat.dvd_mul_right _ _), hangle, Real.cos_add_nat_mul_two_pi, Real.cos_pi] at hpos
    norm_num at hpos
  · rw [if_neg hdvd] at hpos
    exact absurd hpos (lt_irrefl 0)

theorem patternProbability_zero_pos (n : Nat) : 0 < patternProbability n 0 := by
  rw [patternProbability]
  by_cases hn : n < 4
  · rw [if_pos hn]
    positivity
  · rw [if_neg hn, if_pos (Nat.dvd_zero _)]
    simp

theorem unitary_qftOperations {n : Nat} :
    forall op, op ∈ (qftOperations n : List (Operation Real)) -> op.Unitary := by
  intro op hop
  rcases List.mem_append.mp hop with hlayer | hswap
  · rcases List.mem_flatMap.mp hlayer with ⟨target, _, hop'⟩
    rcases List.mem_cons.mp hop' with rfl | hphase
    · trivial
    · rcases List.mem_map.mp hphase with ⟨control, _, rfl⟩
      trivial
  · rcases List.mem_map.mp hswap with ⟨left, _, rfl⟩
    trivial

/--
The program measures a state with the chance of its distribution.  From four qubits on the
result is a multiple of a sixteenth of the number of states, and never a half of it.
-/
theorem measured_periods {n : Nat} (hn : n ≤ 31) {rnd : Real} (hrnd : 0 ≤ rnd) (hrnd' : rnd < 1) :
    exists states circuit finalState k, buildInputStates (2 ^ n) = some states ∧
      makeQft n = .ok circuit ∧
      Simulator.run (DenseStateBackend.make : DenseStateBackend Real) circuit
        (QuantumState.uniformSubset n states) = .ok finalState ∧
      (finalState.measure DenseStateBackend.make rnd).1 = .ok k ∧
      k < 2 ^ n ∧ 0 < patternProbability n k ∧
      ∑ t ∈ Finset.range k, patternProbability n t ≤ rnd ∧
      rnd ≤ ∑ t ∈ Finset.range (k + 1), patternProbability n t ∧
      (4 ≤ n -> exists t, t < 16 ∧ t ≠ 8 ∧ k = 2 ^ (n - 4) * t) := by
  rcases buildInputStates_eq hn with ⟨states, hbuild, hne, hmem, hcount⟩
  have hlt : forall s, s ∈ states -> s < 2 ^ n := fun s hs => ((hmem s).mp hs).1
  have hinput : (QuantumState.uniformSubset n states : QuantumState Real _).Denotes n
      (uniform n states) := QuantumState.Denotes.uniformSubset hn hne hlt
  rcases hinput.materialize with ⟨r, d, hr, hlazy⟩
  rcases Call.Post.exists_ok
    (Simulator.does_runBatch rfl FourierTransform.valid_qftOperations hlazy) with
    ⟨_, r', hbatch, hlazy'⟩
  obtain ⟨v, hv⟩ : exists v, v = Operation.applyAll n (qftOperations n)
    (uniform n states : List Real) := ⟨_, rfl⟩
  have hprob : forall t, t < 2 ^ n -> prob v t = patternProbability n t := by
    intro t ht
    rw [hv]
    exact prob_transformed hmem hcount hn ht
  have hlength : v.length = 2 * 2 ^ n := by
    rw [hv, Operation.length_applyAll hn FourierTransform.valid_qftOperations
      (length_uniform n states)]
  have htotal : totalProbability v = 1 := by
    rw [hv, Operation.totalProbability_applyAll hn FourierTransform.valid_qftOperations
      unitary_qftOperations (length_uniform n states), totalProbability_uniform hne hlt]
  have hfollows : FollowsDistribution v rnd (sample rnd v) := by
    rw [sample_follows_iff hlength htotal hrnd hrnd']
    rintro ⟨_, hzero⟩
    rw [hprob 0 (Nat.two_pow_pos n)] at hzero
    exact absurd hzero (patternProbability_zero_pos n).ne'
  rcases hfollows with ⟨k, hk, hlt', hpos, hbelow, habove⟩
  have hk' : k < 2 ^ n := by omega
  have hsum : forall i, i ≤ 2 ^ n -> ∑ t ∈ Finset.range i, prob v t =
      ∑ t ∈ Finset.range i, patternProbability n t := by
    intro i hi
    apply Finset.sum_congr rfl
    intro t ht
    exact hprob t (by have := Finset.mem_range.mp ht; omega)
  have hmeasure : (QuantumRegister.measure rnd r').1 = .ok k := by
    have hanswers := QuantumRegister.answers_measure hlazy' hrnd hrnd'
    rw [← hv, hk] at hanswers
    exact QuantumState.ok_of_answers hanswers
  rw [hprob k hk'] at hpos
  rw [hsum k hk'.le] at hbelow
  rw [hsum (k + 1) hk'] at habove
  refine ⟨states, _, QuantumState.fromRegister r', k, hbuild, makeQft_eq (by omega),
    Simulator.run_of_stages rfl hr hbatch, hmeasure, hk', hpos, hbelow, habove, ?_⟩
  intro hge
  exact multiple_of_patternProbability_pos hge hk' hpos

theorem measured_periods_five :
    exists states circuit finalState k, buildInputStates (2 ^ 5) = some states ∧
      makeQft 5 = .ok circuit ∧
      Simulator.run (DenseStateBackend.make : DenseStateBackend Real) circuit
        (QuantumState.uniformSubset 5 states) = .ok finalState ∧
      (finalState.measure DenseStateBackend.make (1 / 2 : Real)).1 = .ok k ∧
      k < 2 ^ 5 ∧ 0 < patternProbability 5 k ∧
      ∑ t ∈ Finset.range k, patternProbability 5 t ≤ 1 / 2 ∧
      1 / 2 ≤ ∑ t ∈ Finset.range (k + 1), patternProbability 5 t ∧
      (4 ≤ 5 -> exists t, t < 16 ∧ t ≠ 8 ∧ k = 2 ^ (5 - 4) * t) :=
  measured_periods (by decide) (by norm_num) (by norm_num)

end QftPattern

end Tmfqs
