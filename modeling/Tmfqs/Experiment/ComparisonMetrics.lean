import Mathlib.Algebra.Order.BigOperators.Group.Finset
import Mathlib.Analysis.Real.Sqrt
import Tmfqs.Experiment.Comparison
import Tmfqs.State.DenseStates

/-!
# Coherence of the error metrics

All metrics of a comparison come from one loop.  What each of them stands for is kept by
every round, and the relations between them follow from that.
-/

namespace Tmfqs

open Library

namespace StateComparison

/-!
## Maxima collected in a loop
-/

section Maxima

variable {err : Nat -> Real} {k worst : Nat} {M : Real}

/-- `M` bounds the first `k` errors and is zero or one of them. -/
structure RunningMax (err : Nat -> Real) (k : Nat) (M : Real) : Prop where
  nonneg : 0 ≤ M
  le : forall i, i < k -> err i ≤ M
  attained : M = 0 ∨ exists i, i < k ∧ err i = M

/-- The maximum moreover is first attained at `worst`. -/
structure FirstMax (err : Nat -> Real) (k : Nat) (M : Real) (worst : Nat) : Prop where
  nonneg : 0 ≤ M
  le : forall i, i < k -> err i ≤ M
  before : forall i, i < worst -> err i < M
  attained : k = 0 ∧ M = 0 ∧ worst = 0 ∨ worst < k ∧ err worst = M

theorem RunningMax.start (err : Nat -> Real) : RunningMax err 0 0 :=
  ⟨le_refl 0, fun _ hi => absurd hi (Nat.not_lt_zero _), Or.inl rfl⟩

theorem RunningMax.step (h : RunningMax err k M) : RunningMax err (k + 1) (max M (err k)) := by
  refine ⟨le_max_of_le_left h.nonneg, ?_, ?_⟩
  · intro i hi
    rcases Nat.lt_succ_iff_lt_or_eq.mp hi with hlt | heq
    · exact le_max_of_le_left (h.le i hlt)
    · rw [heq]
      exact le_max_right M (err k)
  · rcases le_total (err k) M with hle | hle
    · rw [max_eq_left hle]
      rcases h.attained with hzero | ⟨i, hi, heq⟩
      · exact Or.inl hzero
      · exact Or.inr ⟨i, Nat.lt_succ_of_lt hi, heq⟩
    · rw [max_eq_right hle]
      exact Or.inr ⟨k, Nat.lt_succ_self k, rfl⟩

theorem RunningMax.eq_zero_iff (h : RunningMax err k M) (herr : forall i, 0 ≤ err i) :
    M = 0 <-> forall i, i < k -> err i = 0 := by
  constructor
  · intro hzero i hi
    exact le_antisymm (hzero ▸ h.le i hi) (herr i)
  · intro hall
    rcases h.attained with hzero | ⟨i, hi, heq⟩
    · exact hzero
    · rw [← heq]
      exact hall i hi

theorem FirstMax.start (err : Nat -> Real) : FirstMax err 0 0 0 :=
  ⟨le_refl 0, fun _ hi => absurd hi (Nat.not_lt_zero _),
    fun _ hi => absurd hi (Nat.not_lt_zero _), Or.inl ⟨rfl, rfl, rfl⟩⟩

theorem FirstMax.step (h : FirstMax err k M worst) (herr : 0 ≤ err k) :
    FirstMax err (k + 1) (if err k > M then err k else M) (if err k > M then k else worst) := by
  by_cases hlt : M < err k
  · rw [if_pos hlt, if_pos hlt]
    refine ⟨herr, ?_, ?_, Or.inr ⟨Nat.lt_succ_self k, rfl⟩⟩
    · intro i hi
      rcases Nat.lt_succ_iff_lt_or_eq.mp hi with hik | heq
      · exact (h.le i hik).trans hlt.le
      · rw [heq]
    · intro i hi
      exact lt_of_le_of_lt (h.le i hi) hlt
  · rw [if_neg hlt, if_neg hlt]
    have hle : err k ≤ M := not_lt.mp hlt
    refine ⟨h.nonneg, ?_, h.before, ?_⟩
    · intro i hi
      rcases Nat.lt_succ_iff_lt_or_eq.mp hi with hik | heq
      · exact h.le i hik
      · rw [heq]
        exact hle
    · right
      rcases h.attained with ⟨hk, hM, hworst⟩ | ⟨hworst, heq⟩
      · -- the first error does not improve on zero, so it is zero
        subst hk hworst
        rw [hM] at hle ⊢
        exact ⟨Nat.one_pos, le_antisymm hle herr⟩
      · exact ⟨Nat.lt_succ_of_lt hworst, heq⟩

theorem FirstMax.running (h : FirstMax err k M worst) : RunningMax err k M := by
  refine ⟨h.nonneg, h.le, ?_⟩
  rcases h.attained with ⟨_, hM, _⟩ | ⟨hworst, heq⟩
  · exact Or.inl hM
  · exact Or.inr ⟨worst, hworst, heq⟩

end Maxima

/-!
## Errors of one amplitude
-/

section Errors

variable (ref got : Amplitude Real)

theorem diffSq_nonneg : 0 ≤ diffSq ref got :=
  add_nonneg (mul_self_nonneg _) (mul_self_nonneg _)

theorem absError_nonneg : 0 ≤ absError ref got :=
  Real.sqrt_nonneg _

theorem absError_sq : absError ref got ^ 2 = diffSq ref got :=
  Real.sq_sqrt (diffSq_nonneg ref got)

theorem componentError_nonneg : 0 ≤ componentError ref got :=
  le_max_of_le_left (abs_nonneg _)

theorem diffSq_eq_zero_iff : diffSq ref got = 0 <-> ref = got := by
  rw [diffSq, mul_self_add_mul_self_eq_zero, sub_eq_zero, sub_eq_zero]
  constructor
  · rintro ⟨hreal, himag⟩
    exact Amplitude.eq_of_parts hreal.symm himag.symm
  · intro heq
    rw [heq]
    exact ⟨rfl, rfl⟩

theorem absError_eq_zero_iff : absError ref got = 0 <-> ref = got := by
  rw [← diffSq_eq_zero_iff, ← absError_sq, sq_eq_zero_iff]

theorem componentError_le_absError : componentError ref got ≤ absError ref got := by
  have hreal : (got.real - ref.real) ^ 2 ≤ diffSq ref got := by
    rw [diffSq]
    nlinarith [mul_self_nonneg (got.imag - ref.imag)]
  have himag : (got.imag - ref.imag) ^ 2 ≤ diffSq ref got := by
    rw [diffSq]
    nlinarith [mul_self_nonneg (got.real - ref.real)]
  exact max_le (Real.abs_le_sqrt hreal) (Real.abs_le_sqrt himag)

theorem absError_le_componentError : absError ref got ≤ Real.sqrt 2 * componentError ref got := by
  have hreal : (got.real - ref.real) ^ 2 ≤ componentError ref got ^ 2 := by
    rw [← sq_abs (got.real - ref.real)]
    exact pow_le_pow_left₀ (abs_nonneg _) (le_max_left _ _) 2
  have himag : (got.imag - ref.imag) ^ 2 ≤ componentError ref got ^ 2 := by
    rw [← sq_abs (got.imag - ref.imag)]
    exact pow_le_pow_left₀ (abs_nonneg _) (le_max_right _ _) 2
  have hle : diffSq ref got ≤ 2 * componentError ref got ^ 2 := by
    rw [diffSq]
    nlinarith
  calc absError ref got = Real.sqrt (diffSq ref got) := rfl
    _ ≤ Real.sqrt (2 * componentError ref got ^ 2) := Real.sqrt_le_sqrt hle
    _ = Real.sqrt 2 * componentError ref got := by
        rw [Real.sqrt_mul (by norm_num), Real.sqrt_sq (componentError_nonneg ref got)]

theorem componentError_eq_zero_iff : componentError ref got = 0 <-> ref = got := by
  constructor
  · intro hzero
    have hle := absError_le_componentError ref got
    rw [hzero, mul_zero] at hle
    exact (absError_eq_zero_iff ref got).mp (le_antisymm hle (absError_nonneg ref got))
  · intro heq
    have hle := componentError_le_absError ref got
    rw [(absError_eq_zero_iff ref got).mpr heq] at hle
    exact le_antisymm hle (componentError_nonneg ref got)

end Errors

/-!
## The loop
-/

section Loop

variable (ref got : Nat -> Amplitude Real)

noncomputable def sums (k : Nat) : ComparisonSums Real :=
  (List.range k).foldl (fun acc state => compareAmplitudes acc state (ref state) (got state)) start

theorem sums_succ (k : Nat) :
    sums ref got (k + 1) = compareAmplitudes (sums ref got k) k (ref k) (got k) := by
  rw [sums, List.range_succ, List.foldl_append]
  rfl

/-- What the metrics and sums stand for after the first `k` states. -/
structure Collected (k : Nat) (acc : ComparisonSums Real) : Prop where
  equal : acc.metrics.bitwiseEqual = true <-> forall s, s < k -> ref s = got s
  amplitude : FirstMax (fun s => absError (ref s) (got s)) k acc.metrics.maxAbsAmplitudeError
    acc.metrics.worstState
  component : RunningMax (fun s => componentError (ref s) (got s)) k
    acc.metrics.maxAbsComponentError
  probability : RunningMax (fun s => probabilityError (ref s) (got s)) k
    acc.metrics.maxAbsProbabilityError
  diffNormSq : acc.diffNormSq = ∑ s ∈ Finset.range k, diffSq (ref s) (got s)
  refNormSq : acc.refNormSq = ∑ s ∈ Finset.range k, (ref s).probability
  refTotal : acc.refTotalProbability = ∑ s ∈ Finset.range k, (ref s).probability
  gotTotal : acc.gotTotalProbability = ∑ s ∈ Finset.range k, (got s).probability

theorem Collected.start : Collected ref got 0 start where
  equal := ⟨fun _ _ hs => absurd hs (Nat.not_lt_zero _), fun _ => rfl⟩
  amplitude := FirstMax.start _
  component := RunningMax.start _
  probability := RunningMax.start _
  diffNormSq := rfl
  refNormSq := rfl
  refTotal := rfl
  gotTotal := rfl

variable {ref got} {k : Nat} {acc : ComparisonSums Real}

theorem Collected.step (h : Collected ref got k acc) :
    Collected ref got (k + 1) (compareAmplitudes acc k (ref k) (got k)) where
  equal := by
    have hdiffers : (ref k).real ≠ (got k).real ∨ (ref k).imag ≠ (got k).imag <->
        ref k ≠ got k := by
      constructor
      · rintro (hreal | himag) heq
        · exact hreal (heq ▸ rfl)
        · exact himag (heq ▸ rfl)
      · intro hne
        by_contra hsame
        rw [not_or, not_not, not_not] at hsame
        exact hne (Amplitude.eq_of_parts hsame.1 hsame.2)
    rw [compareAmplitudes]
    by_cases heq : ref k = got k
    · rw [if_neg (fun hne => hdiffers.mp hne heq), h.equal]
      constructor
      · intro hall s hs
        rcases Nat.lt_succ_iff_lt_or_eq.mp hs with hlt | hlast
        · exact hall s hlt
        · rw [hlast]
          exact heq
      · intro hall s hs
        exact hall s (Nat.lt_succ_of_lt hs)
    · rw [if_pos (hdiffers.mpr heq)]
      constructor
      · intro hfalse
        cases hfalse
      · intro hall
        exact absurd (hall k (Nat.lt_succ_self k)) heq
  amplitude := h.amplitude.step (absError_nonneg _ _)
  component := h.component.step
  probability := h.probability.step
  diffNormSq := by
    rw [Finset.sum_range_succ, ← h.diffNormSq]
    rfl
  refNormSq := by
    rw [Finset.sum_range_succ, ← h.refNormSq]
    rfl
  refTotal := by
    rw [Finset.sum_range_succ, ← h.refTotal]
    rfl
  gotTotal := by
    rw [Finset.sum_range_succ, ← h.gotTotal]
    rfl

theorem collected_sums (k : Nat) : Collected ref got k (sums ref got k) := by
  induction k with
  | zero => exact Collected.start ref got
  | succ k ih =>
      rw [sums_succ]
      exact ih.step

end Loop

/-!
## The metrics of a whole comparison
-/

section Metrics

noncomputable def norm (N : Nat) (ref : Nat -> Amplitude Real) : Real :=
  Real.sqrt (∑ s ∈ Finset.range N, (ref s).probability)

/--
The relations between the metrics.  A reference without weight has no relative error:
`relL2` is zero for it by definition.
-/
structure Coherent (N : Nat) (ref got : Nat -> Amplitude Real) (m : StateComparison Real) :
    Prop where
  equal_iff : m.bitwiseEqual = true <-> forall s, s < N -> ref s = got s
  amplitude_iff : m.bitwiseEqual = true <-> m.maxAbsAmplitudeError = 0
  component_iff : m.bitwiseEqual = true <-> m.maxAbsComponentError = 0
  rmse_iff : m.bitwiseEqual = true <-> m.rmseAmplitude = 0
  relL2_iff : norm N ref ≠ 0 -> (m.bitwiseEqual = true <-> m.relL2 = 0)
  relL2_weightless : norm N ref = 0 -> m.relL2 = 0
  worst_lt : m.worstState < N
  worst_attains : absError (ref m.worstState) (got m.worstState) = m.maxAbsAmplitudeError
  amplitude_bound : forall s, s < N -> absError (ref s) (got s) ≤ m.maxAbsAmplitudeError
  worst_first : forall s, s < m.worstState -> absError (ref s) (got s) < m.maxAbsAmplitudeError
  component_le_amplitude : m.maxAbsComponentError ≤ m.maxAbsAmplitudeError
  amplitude_le_component : m.maxAbsAmplitudeError ≤ Real.sqrt 2 * m.maxAbsComponentError
  rmse_le_amplitude : m.rmseAmplitude ≤ m.maxAbsAmplitudeError
  amplitude_le_rmse : m.maxAbsAmplitudeError ≤ Real.sqrt N * m.rmseAmplitude
  relL2_norm : norm N ref ≠ 0 -> m.relL2 * norm N ref = Real.sqrt N * m.rmseAmplitude
  totalProbability_le : m.totalProbabilityDiff ≤ N * m.maxAbsProbabilityError

variable {ref got : Nat -> Amplitude Real} {N : Nat} {acc : ComparisonSums Real}

theorem Collected.diffNormSq_nonneg (h : Collected ref got N acc) : 0 ≤ acc.diffNormSq := by
  rw [h.diffNormSq]
  exact Finset.sum_nonneg fun s _ => diffSq_nonneg _ _

theorem Collected.diffNormSq_eq_zero_iff (h : Collected ref got N acc) :
    acc.diffNormSq = 0 <-> forall s, s < N -> ref s = got s := by
  rw [h.diffNormSq, Finset.sum_eq_zero_iff_of_nonneg fun s _ => diffSq_nonneg _ _]
  constructor
  · intro hall s hs
    exact (diffSq_eq_zero_iff _ _).mp (hall s (Finset.mem_range.mpr hs))
  · intro hall s hs
    exact (diffSq_eq_zero_iff _ _).mpr (hall s (Finset.mem_range.mp hs))

theorem Collected.norm_eq (h : Collected ref got N acc) : norm N ref = Real.sqrt acc.refNormSq := by
  rw [norm, h.refNormSq]

theorem Collected.refNormSq_nonneg (h : Collected ref got N acc) : 0 ≤ acc.refNormSq := by
  rw [h.refNormSq]
  exact Finset.sum_nonneg fun s _ => add_nonneg (mul_self_nonneg _) (mul_self_nonneg _)

theorem Collected.norm_eq_zero_iff (h : Collected ref got N acc) :
    norm N ref = 0 <-> acc.refNormSq = 0 := by
  rw [h.norm_eq, Real.sqrt_eq_zero h.refNormSq_nonneg]

theorem Collected.diffNormSq_le (h : Collected ref got N acc) :
    acc.diffNormSq ≤ N * acc.metrics.maxAbsAmplitudeError ^ 2 := by
  rw [h.diffNormSq]
  calc ∑ s ∈ Finset.range N, diffSq (ref s) (got s)
      ≤ ∑ _s ∈ Finset.range N, acc.metrics.maxAbsAmplitudeError ^ 2 := by
        apply Finset.sum_le_sum
        intro s hs
        rw [← absError_sq]
        exact pow_le_pow_left₀ (absError_nonneg _ _)
          (h.amplitude.le s (Finset.mem_range.mp hs)) 2
    _ = N * acc.metrics.maxAbsAmplitudeError ^ 2 := by
        rw [Finset.sum_const, Finset.card_range, nsmul_eq_mul]

theorem Collected.le_diffNormSq (h : Collected ref got N acc) :
    acc.metrics.maxAbsAmplitudeError ^ 2 ≤ acc.diffNormSq := by
  rcases h.amplitude.running.attained with hzero | ⟨s, hs, heq⟩
  · rw [hzero, zero_pow two_ne_zero]
    exact h.diffNormSq_nonneg
  · rw [← heq, absError_sq, h.diffNormSq]
    exact Finset.single_le_sum (f := fun s => diffSq (ref s) (got s))
      (fun s _ => diffSq_nonneg _ _) (Finset.mem_range.mpr hs)

theorem Collected.component_le (h : Collected ref got N acc) :
    acc.metrics.maxAbsComponentError ≤ acc.metrics.maxAbsAmplitudeError := by
  rcases h.component.attained with hzero | ⟨s, hs, heq⟩
  · rw [hzero]
    exact h.amplitude.nonneg
  · rw [← heq]
    exact (componentError_le_absError _ _).trans (h.amplitude.le s hs)

theorem Collected.le_component (h : Collected ref got N acc) :
    acc.metrics.maxAbsAmplitudeError ≤ Real.sqrt 2 * acc.metrics.maxAbsComponentError := by
  rcases h.amplitude.running.attained with hzero | ⟨s, hs, heq⟩
  · rw [hzero]
    exact mul_nonneg (Real.sqrt_nonneg 2) h.component.nonneg
  · rw [← heq]
    exact (absError_le_componentError _ _).trans
      (mul_le_mul_of_nonneg_left (h.component.le s hs) (Real.sqrt_nonneg 2))

theorem Collected.totalProbability_le (h : Collected ref got N acc) :
    |acc.gotTotalProbability - acc.refTotalProbability| ≤
      N * acc.metrics.maxAbsProbabilityError := by
  rw [h.gotTotal, h.refTotal, ← Finset.sum_sub_distrib]
  calc |∑ s ∈ Finset.range N, ((got s).probability - (ref s).probability)|
      ≤ ∑ s ∈ Finset.range N, |(got s).probability - (ref s).probability| :=
        Finset.abs_sum_le_sum_abs _ _
    _ ≤ ∑ _s ∈ Finset.range N, acc.metrics.maxAbsProbabilityError := by
        apply Finset.sum_le_sum
        intro s hs
        exact h.probability.le s (Finset.mem_range.mp hs)
    _ = N * acc.metrics.maxAbsProbabilityError := by
        rw [Finset.sum_const, Finset.card_range, nsmul_eq_mul]

theorem Collected.coherent (h : Collected ref got N acc) (hN : 0 < N) :
    Coherent N ref got (finish N acc) := by
  have hpos : (0 : Real) < N := Nat.cast_pos.mpr hN
  have hrmse : Real.sqrt N * Real.sqrt (acc.diffNormSq / N) = Real.sqrt acc.diffNormSq := by
    rw [← Real.sqrt_mul hpos.le, mul_div_cancel₀ _ hpos.ne']
  have hequal : (finish N acc).bitwiseEqual = true <-> acc.diffNormSq = 0 :=
    h.equal.trans h.diffNormSq_eq_zero_iff.symm
  have hrelL2 : acc.refNormSq ≠ 0 ->
      (finish N acc).relL2 = Real.sqrt (acc.diffNormSq / acc.refNormSq) :=
    fun hne => if_neg hne
  have hworst : acc.metrics.worstState < N ∧
      absError (ref acc.metrics.worstState) (got acc.metrics.worstState) =
        acc.metrics.maxAbsAmplitudeError := by
    rcases h.amplitude.attained with ⟨hzero, _⟩ | hattained
    · exact absurd hzero hN.ne'
    · exact hattained
  exact
    { equal_iff := h.equal
      amplitude_iff := by
        apply hequal.trans
        constructor
        · intro hzero
          have hle := h.le_diffNormSq
          rw [hzero] at hle
          exact pow_eq_zero_iff two_ne_zero |>.mp (le_antisymm hle (sq_nonneg _))
        · intro hzero
          have hle := h.diffNormSq_le
          have hmax : acc.metrics.maxAbsAmplitudeError = 0 := hzero
          rw [hmax, zero_pow two_ne_zero, mul_zero] at hle
          exact le_antisymm hle h.diffNormSq_nonneg
      component_iff := by
        rw [show (finish N acc).bitwiseEqual = acc.metrics.bitwiseEqual from rfl, h.equal,
          show (finish N acc).maxAbsComponentError = acc.metrics.maxAbsComponentError from rfl,
          h.component.eq_zero_iff fun s => componentError_nonneg _ _]
        simp only [componentError_eq_zero_iff]
      rmse_iff := by
        apply hequal.trans
        rw [show (finish N acc).rmseAmplitude = Real.sqrt (acc.diffNormSq / N) from rfl,
          Real.sqrt_eq_zero (div_nonneg h.diffNormSq_nonneg hpos.le), div_eq_zero_iff,
          or_iff_left hpos.ne']
      relL2_iff := by
        intro hweight
        have hne : acc.refNormSq ≠ 0 := fun hzero => hweight (h.norm_eq_zero_iff.mpr hzero)
        apply hequal.trans
        rw [hrelL2 hne, Real.sqrt_eq_zero (div_nonneg h.diffNormSq_nonneg h.refNormSq_nonneg),
          div_eq_zero_iff, or_iff_left hne]
      relL2_weightless := fun hzero => if_pos (h.norm_eq_zero_iff.mp hzero)
      worst_lt := hworst.1
      worst_attains := hworst.2
      amplitude_bound := h.amplitude.le
      worst_first := h.amplitude.before
      component_le_amplitude := h.component_le
      amplitude_le_component := h.le_component
      rmse_le_amplitude := by
        apply Real.sqrt_le_iff.mpr
        refine ⟨h.amplitude.nonneg, ?_⟩
        rw [div_le_iff₀ hpos, mul_comm]
        exact h.diffNormSq_le
      amplitude_le_rmse := by
        rw [show (finish N acc).rmseAmplitude = Real.sqrt (acc.diffNormSq / N) from rfl, hrmse]
        exact Real.le_sqrt_of_sq_le h.le_diffNormSq
      relL2_norm := by
        intro hweight
        have hne : acc.refNormSq ≠ 0 := fun hzero => hweight (h.norm_eq_zero_iff.mpr hzero)
        rw [show (finish N acc).rmseAmplitude = Real.sqrt (acc.diffNormSq / N) from rfl, hrmse,
          hrelL2 hne, h.norm_eq, ← Real.sqrt_mul (div_nonneg h.diffNormSq_nonneg
            h.refNormSq_nonneg), div_mul_cancel₀ _ hne]
      totalProbability_le := h.totalProbability_le }

end Metrics

/-!
## The loop over two states
-/

section Run

variable {β γ : Type} [IStateBackend Real β] [IStateBackend Real γ] {dense denseRef : β}
  {denseGot : γ} {ref got : Nat -> Amplitude Real} {q : QuantumState Real β}
  {q' : QuantumState Real γ}

/-- Asked for its amplitudes one after the other, the state gives those of `ref`. -/
def AnswersInTurn (dense : β) (ref : Nat -> Amplitude Real) :
    List Nat -> QuantumState Real β -> Prop
  | [], _ => True
  | s :: rest, q =>
      (QuantumState.amplitude dense s q).1 = .ok (ref s) ∧
        AnswersInTurn dense ref rest (QuantumState.amplitude dense s q).2

theorem answersInTurn_of_kept {I : QuantumState Real β -> Prop} {states : List Nat}
    (hI : I q)
    (hkept : forall q s, I q -> s ∈ states -> (QuantumState.amplitude dense s q).1 = .ok (ref s) ∧
      I (QuantumState.amplitude dense s q).2) : AnswersInTurn dense ref states q := by
  induction states generalizing q with
  | nil => trivial
  | cons s rest ih =>
      have hs := hkept q s hI List.mem_cons_self
      exact ⟨hs.1, ih hs.2 fun q s' hq hs' => hkept q s' hq (List.mem_cons_of_mem s hs')⟩

theorem compareState_eq {s : Nat} {a b : Amplitude Real} (acc : ComparisonSums Real)
    (href : (QuantumState.amplitude denseRef s q).1 = .ok a)
    (hgot : (QuantumState.amplitude denseGot s q').1 = .ok b) :
    compareState denseRef denseGot acc s (q, q') =
      (.ok (compareAmplitudes acc s a b), ((QuantumState.amplitude denseRef s q).2,
        (QuantumState.amplitude denseGot s q').2)) := by
  have hfirst : Call.onObject (QuantumState.amplitude denseRef s) (q, q') =
      (.ok a, ((QuantumState.amplitude denseRef s q).2, q')) := by
    rw [Call.onObject, Call.focus_apply, href]
  have hsecond : Call.focus Prod.snd
      (fun (t : QuantumState Real β × QuantumState Real γ) q => (t.1, q))
      (QuantumState.amplitude denseGot s) ((QuantumState.amplitude denseRef s q).2, q') =
      (.ok b, ((QuantumState.amplitude denseRef s q).2,
        (QuantumState.amplitude denseGot s q').2)) := by
    rw [Call.focus_apply, hgot]
  rw [compareState, Call.bind_ok hfirst, Call.bind_ok hsecond]
  rfl

theorem foldlM_compareState {states : List Nat} (acc : ComparisonSums Real)
    (href : AnswersInTurn denseRef ref states q) (hgot : AnswersInTurn denseGot got states q') :
    exists t, states.foldlM (compareState denseRef denseGot) acc (q, q') =
      (.ok (states.foldl (fun acc s => compareAmplitudes acc s (ref s) (got s)) acc), t) := by
  induction states generalizing acc q q' with
  | nil => exact ⟨(q, q'), rfl⟩
  | cons s rest ih =>
      rw [List.foldlM_cons, Call.bind_ok (compareState_eq acc href.1 hgot.1)]
      exact ih _ href.2 hgot.2

theorem compareStates_run (hn : q.qubits ≤ 63) (hsame : q'.qubits = q.qubits)
    (href : AnswersInTurn denseRef ref (List.range (2 ^ q.qubits)) q)
    (hgot : AnswersInTurn denseGot got (List.range (2 ^ q.qubits)) q') :
    exists t, compareStates denseRef denseGot (q, q') =
      (.ok (finish (2 ^ q.qubits) (sums ref got (2 ^ q.qubits))), t) := by
  rcases foldlM_compareState start href hgot with ⟨t, ht⟩
  refine ⟨t, ?_⟩
  rw [compareStates, Call.bind_ok (Call.get_apply (q, q'))]
  simp only [hsame, checkedStateCount_eq hn, pure_bind, ne_eq, not_true_eq_false, if_false]
  rw [Call.bind_ok ht]
  rfl

/-- The metrics of two states with equally many amplitudes are coherent. -/
theorem compareStates_coherent (hn : q.qubits ≤ 63) (hsame : q'.qubits = q.qubits)
    (href : AnswersInTurn denseRef ref (List.range (2 ^ q.qubits)) q)
    (hgot : AnswersInTurn denseGot got (List.range (2 ^ q.qubits)) q') :
    exists m t, compareStates denseRef denseGot (q, q') = (.ok m, t) ∧
      Coherent (2 ^ q.qubits) ref got m := by
  rcases compareStates_run hn hsame href hgot with ⟨t, ht⟩
  exact ⟨_, t, ht, (collected_sums _).coherent (Nat.two_pow_pos _)⟩

end Run

/-!
## States that keep their amplitudes
-/

section Kept

variable {β : Type} [IStateBackend Real β] {n : Nat} {data : List Real}

/-- The state of `n` qubits that keeps the amplitudes of a vector. -/
def kept (β : Type) (n : Nat) (data : List Real) : QuantumState Real β :=
  { qubits := n
    kind := .amplitudes data }

theorem amplitude_kept (dense : β) (hn : n ≤ 63) {s : Nat} (hs : s < 2 ^ n) :
    QuantumState.amplitude dense s (kept β n data) = (.ok (ampAt data s), kept β n data) := by
  rw [QuantumState.amplitude_in_range hn hs]
  rfl

theorem answersInTurn_kept (dense : β) (hn : n ≤ 63) :
    AnswersInTurn dense (ampAt data) (List.range (2 ^ n)) (kept β n data) := by
  apply answersInTurn_of_kept (I := fun q => q = kept β n data) rfl
  intro q s hq hs
  rw [hq, amplitude_kept dense hn (List.mem_range.mp hs)]
  exact ⟨rfl, rfl⟩

def zeroReference : QuantumState Real (DenseStateBackend Real) :=
  kept _ 0 [0, 0]

def unitCandidate : QuantumState Real (DenseStateBackend Real) :=
  kept _ 0 [1, 0]

theorem answersInTurn_zeroReference :
    AnswersInTurn DenseStateBackend.make (ampAt [0, 0]) (List.range (2 ^ 0)) zeroReference :=
  answersInTurn_kept _ (Nat.zero_le 63)

theorem answersInTurn_unitCandidate :
    AnswersInTurn DenseStateBackend.make (ampAt [1, 0]) (List.range (2 ^ 0)) unitCandidate :=
  answersInTurn_kept _ (Nat.zero_le 63)

theorem compareStates_coherent_four :
    exists m t, compareStates DenseStateBackend.make DenseStateBackend.make
        (kept (DenseStateBackend Real) 2 [1, 0, 0, 2, 3, 0, -1, 1],
          kept (DenseStateBackend Real) 2 [1, 0, 1 / 2, 2, 0, 3, -1, 0]) = (.ok m, t) ∧
      Coherent (2 ^ 2) (ampAt [1, 0, 0, 2, 3, 0, -1, 1]) (ampAt [1, 0, 1 / 2, 2, 0, 3, -1, 0]) m :=
  compareStates_coherent (show 2 ≤ 63 by decide) rfl (answersInTurn_kept _ (by decide))
    (answersInTurn_kept _ (by decide))

/-- A reference without weight hides every difference from `relL2`. -/
theorem weightless_reference_looks_equal :
    exists m t, compareStates DenseStateBackend.make DenseStateBackend.make
        (zeroReference, unitCandidate) = (.ok m, t) ∧
      m.relL2 = 0 ∧ m.bitwiseEqual = false ∧ m.rmseAmplitude ≠ 0 ∧
      ¬ (m.bitwiseEqual = true <-> m.relL2 = 0) ∧
      m.relL2 * norm (2 ^ 0) (ampAt [0, 0]) ≠
        Real.sqrt ((2 ^ 0 : Nat) : Real) * m.rmseAmplitude := by
  have hsame : unitCandidate.qubits = zeroReference.qubits := rfl
  rcases compareStates_run (Nat.zero_le 63) hsame answersInTurn_zeroReference
    answersInTurn_unitCandidate with ⟨t, ht⟩
  have hm : Coherent (2 ^ 0) (ampAt [0, 0]) (ampAt [1, 0]) _ :=
    (collected_sums (2 ^ 0)).coherent (Nat.two_pow_pos 0)
  refine ⟨_, t, ht, ?_⟩
  have hnorm : norm (2 ^ 0) (ampAt ([0, 0] : List Real)) = 0 := by
    have hsum : ∑ s ∈ Finset.range (2 ^ 0), (ampAt ([0, 0] : List Real) s).probability =
        0 * 0 + 0 * 0 := Finset.sum_range_one _
    rw [norm, hsum, mul_zero, add_zero, Real.sqrt_zero]
  have hrel := hm.relL2_weightless hnorm
  have hdiffers : ¬ forall s, s < 2 ^ 0 -> ampAt ([0, 0] : List Real) s = ampAt [1, 0] s := by
    intro hall
    have hreal : (0 : Real) = 1 := congrArg Amplitude.real (hall 0 (Nat.two_pow_pos 0))
    exact zero_ne_one hreal
  have hequal := mt hm.equal_iff.mp hdiffers
  have hrmse := mt hm.rmse_iff.mpr hequal
  refine ⟨hrel, Bool.eq_false_iff.mpr hequal, hrmse, fun hiff => hequal (hiff.mpr hrel), ?_⟩
  rw [hnorm, mul_zero]
  intro hzero
  rcases mul_eq_zero.mp hzero.symm with hroot | hroot
  · rw [pow_zero, Nat.cast_one, Real.sqrt_one] at hroot
    exact one_ne_zero hroot
  · exact hrmse hroot

end Kept

end StateComparison

end Tmfqs
