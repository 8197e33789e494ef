import Tmfqs.Register.OperationBatches
import Tmfqs.State.QuantumState
import Tmfqs.Storage.BackendRefinement

/-!
# Measurement

All four samplers run the same search through the cumulative probabilities.  What it
finds follows the distribution except when the drawn number is zero and so is the
probability of the first state.
-/

namespace Tmfqs

open Library QuantumRegister

def prob {R : Type} [Field R] (v : List R) (s : Nat) : R :=
  (ampAt v s).probability

theorem prob_nonneg (v : List Real) (s : Nat) : 0 ≤ prob v s :=
  add_nonneg (mul_self_nonneg _) (mul_self_nonneg _)

/--
The sampler returns a state of positive probability in whose part of the unit
interval the drawn number lies.
-/
def FollowsDistribution (v : List Real) (rnd : Real) (out : Except ExcKind Nat) : Prop :=
  exists s, out = .ok s ∧ 2 * s < v.length ∧ 0 < prob v s ∧
    ∑ t ∈ Finset.range s, prob v t ≤ rnd ∧ rnd ≤ ∑ t ∈ Finset.range (s + 1), prob v t

section Search

variable {v : List Real} {N : Nat}

theorem probabilities_eq (hv : v.length = 2 * N) :
    (amplitudesOf v).map Amplitude.probability = (List.range N).map (prob v) := by
  have hN : v.length / 2 = N := by omega
  rw [amplitudesOf_eq_map, hN, List.map_map]
  rfl

theorem sum_take_probabilities (hv : v.length = 2 * N) {k : Nat} (hk : k ≤ N) :
    (((amplitudesOf v).map Amplitude.probability).take k).sum =
      ∑ t ∈ Finset.range k, prob v t := by
  rw [probabilities_eq hv, ← List.map_take, List.take_range, Nat.min_eq_left hk]
  rfl

theorem search_eq_some_iff (hv : v.length = 2 * N) {rnd : Real} {i : Nat} :
    (searchCumulative rnd 0 ((amplitudesOf v).map Amplitude.probability)).1 = some i <->
      i < N ∧ rnd ≤ ∑ t ∈ Finset.range (i + 1), prob v t ∧
        forall j, j < i -> ∑ t ∈ Finset.range (j + 1), prob v t < rnd := by
  have hlen : ((amplitudesOf v).map Amplitude.probability).length = N := by
    rw [List.length_map, length_amplitudesOf]
    omega
  rw [searchCumulative_eq_some_iff, hlen]
  constructor
  · rintro ⟨hi, hle, hlt⟩
    rw [zero_add, sum_take_probabilities hv hi] at hle
    refine ⟨hi, hle, ?_⟩
    intro j hj
    have hj' := hlt j hj
    rwa [zero_add, sum_take_probabilities hv (by omega)] at hj'
  · rintro ⟨hi, hle, hlt⟩
    refine ⟨hi, ?_, ?_⟩
    · rw [zero_add, sum_take_probabilities hv hi]
      exact hle
    · intro j hj
      rw [zero_add, sum_take_probabilities hv (by omega)]
      exact hlt j hj

theorem exists_search (hv : v.length = 2 * N) (hN : 0 < N) {rnd : Real}
    (hrnd : rnd ≤ StateVector.totalProbability v) :
    exists i, (searchCumulative rnd 0 ((amplitudesOf v).map Amplitude.probability)).1 = some i := by
  apply exists_searchCumulative
  · rw [probabilities_eq hv]
    simp
    omega
  · rw [zero_add, sum_amplitudesOf hv, ← StateVector.totalProbability_eq hv]
    exact hrnd

/-- The search follows the distribution unless it stops at once on an impossible state. -/
theorem sample_follows_iff (hv : v.length = 2 * N) (htotal : StateVector.totalProbability v = 1)
    {rnd : Real} (hrnd : 0 ≤ rnd) (hrnd' : rnd < 1) :
    FollowsDistribution v rnd (StateVector.sample rnd v) <-> ¬ (rnd = 0 ∧ prob v 0 = 0) := by
  have hN : 0 < N := by
    by_contra hzero
    have hnil : v = [] := List.eq_nil_of_length_eq_zero (by omega)
    rw [hnil] at htotal
    simp [StateVector.totalProbability, amplitudesOf] at htotal
  have hin := StateVector.drawn_in_range hrnd hrnd'
  obtain ⟨i, hi⟩ := exists_search hv hN (hrnd'.le.trans htotal.ge)
  have hsample : StateVector.sample rnd v = .ok i := by
    rw [StateVector.sample, if_neg hin, hi]
  obtain ⟨hlt, hle, hbefore⟩ := (search_eq_some_iff hv).mp hi
  rw [hsample]
  constructor
  · rintro ⟨s, hs, _, hpos, _, _⟩ ⟨hzero, hprob⟩
    have hs' : i = s := Except.ok.inj hs
    subst hs'
    cases i with
    | zero => exact absurd hprob hpos.ne'
    | succ i =>
        have hsum := hbefore 0 (by omega)
        rw [Finset.sum_range_one, hprob, hzero] at hsum
        exact lt_irrefl _ hsum
  · intro hcond
    refine ⟨i, rfl, by omega, ?_, ?_, hle⟩
    · by_contra hpos
      have hprob : prob v i = 0 := le_antisymm (not_lt.mp hpos) (prob_nonneg v i)
      rw [Finset.sum_range_succ, hprob, add_zero] at hle
      cases i with
      | zero =>
          rw [Finset.sum_range_zero] at hle
          exact hcond ⟨le_antisymm hle hrnd, hprob⟩
      | succ i => exact absurd (hbefore i (by omega)) (not_lt.mpr hle)
    · cases i with
      | zero =>
          rw [Finset.sum_range_zero]
          exact hrnd
      | succ i => exact (hbefore i (by omega)).le

end Search

/-!
## The samplers
-/

/--
The ways a state vector is measured: the outcome `out` of a sampler on an object that
shows the vector `v`.
-/
inductive Measures {B : Type} (P : CodecPolicy Real B) (rnd : Real) :
    List Real -> Except ExcKind Nat -> Prop where
  | dense {ops : List (BackendOp Real)} {v : List Real} (hne : ops ≠ [])
      (hvalid : BackendOp.ValidRun none ops)
      (hv : (DenseStateBackend.exportAmplitudes
        (reached BackendOp.run ops DenseStateBackend.make)).1 = .ok v) :
      Measures P rnd v ((DenseStateBackend.sampleMeasurement rnd
        (reached BackendOp.run ops DenseStateBackend.make)).1.mapError Exc.kind)
  | compressed {ops : List (BackendOp Real)} {v : List Real} (hne : ops ≠ [])
      (hvalid : BackendOp.ValidRun none ops)
      (hfits : forall op, op ∈ ops -> forall n, op.size = some n ->
        ChunkLayout.Fits (2 ^ n) P.chunkStates)
      (hv : (CompressedStateBackend.exportAmplitudes
        (reached BackendOp.run ops (CompressedStateBackend.make P))).1 = .ok v) :
      Measures P rnd v ((CompressedStateBackend.sampleMeasurement rnd
        (reached BackendOp.run ops (CompressedStateBackend.make P))).1.mapError Exc.kind)
  | denseRegister {n : Nat} {v₀ v : List Real} {r : DenseRegister Real}
      (hr : Constructed DenseStateBackend.make n v₀ r) {ops : List (RegisterOp Real)}
      (hvalid : forall op, op ∈ ops -> op.Valid n)
      (hv : (amplitudes (reached RegisterOp.run ops r)).1 = .ok v) :
      Measures P rnd v ((measure rnd (reached RegisterOp.run ops r)).1.mapError Exc.kind)
  | compressedRegister {n : Nat} {v₀ v : List Real}
      {r : QuantumRegister Real (CompressedStateBackend P)}
      (hr : Constructed (CompressedStateBackend.make P) n v₀ r)
      (hfits : ChunkLayout.Fits (2 ^ n) P.chunkStates) {ops : List (RegisterOp Real)}
      (hvalid : forall op, op ∈ ops -> op.Valid n)
      (hv : (amplitudes (reached RegisterOp.run ops r)).1 = .ok v) :
      Measures P rnd v ((measure rnd (reached RegisterOp.run ops r)).1.mapError Exc.kind)
  | state {n : Nat} {v : List Real} (hn : n ≤ 63) (hv : v.length = 2 * 2 ^ n) :
      Measures P rnd v ((QuantumState.measure DenseStateBackend.make rnd
        ({ qubits := n, kind := .amplitudes v } :
          QuantumState Real (DenseStateBackend Real))).1.mapError Exc.kind)

theorem mapError_ok {α : Type} {x : Except Exc α} {a : α} (h : x = .ok a) :
    x.mapError Exc.kind = .ok a := by
  rw [h]
  rfl

theorem sample_of_rep {β : Type} [IStateBackend Real β] {sv : StoresVector (R := Real) β} {n d : Nat}
    {w v : List Real} {b : β} (h : sv.Rep n w d b)
    (hv : (IStateBackend.exportAmplitudes b).1 = .ok v) (rnd : Real) :
    v.length = 2 * 2 ^ n ∧
      (IStateBackend.sampleMeasurement rnd b).1.mapError Exc.kind = StateVector.sample rnd v := by
  have hexport := (sv.exportAmplitudes h).outcome
  rw [mapError_ok hv] at hexport
  cases hexport
  exact ⟨(sv.bound h).2.2, (sv.sampleMeasurement h).outcome⟩

theorem sample_of_lazy {β : Type} [IStateBackend Real β] {sv : StoresVector (R := Real) β}
    {n d : Nat} {w v : List Real} {r : QuantumRegister Real β} (h : Lazy sv n w d r)
    (hv : (amplitudes r).1 = .ok v) {rnd : Real} (hrnd : 0 ≤ rnd) (hrnd' : rnd < 1) :
    v.length = 2 * 2 ^ n ∧
      (measure rnd r).1.mapError Exc.kind = StateVector.sample rnd v := by
  have hexport := (answers_amplitudes h).outcome
  rw [mapError_ok hv] at hexport
  cases hexport
  exact ⟨h.length, (answers_measure h hrnd hrnd').outcome⟩

theorem QuantumState.measure_amplitudes {β : Type} [IStateBackend Real β] (dense : β) {n : Nat}
    {v : List Real} (hn : n ≤ 63) (hv : v.length = 2 * 2 ^ n) {rnd : Real} (hrnd : 0 ≤ rnd)
    (hrnd' : rnd < 1) :
    (QuantumState.measure dense rnd
      ({ qubits := n, kind := .amplitudes v } : QuantumState Real β)).1.mapError Exc.kind =
        StateVector.sample rnd v := by
  have hin := StateVector.drawn_in_range hrnd hrnd'
  rw [StateVector.sample, if_neg hin, probabilities_eq hv, QuantumState.measure,
    Call.bind_apply, Call.get_apply]
  simp only
  rw [checkedStateCount_eq hn, pure_bind,
    show (fun state => (ampAt v state).probability) = prob v from rfl]
  cases (searchCumulative rnd 0 ((List.range (2 ^ n)).map (prob v))).1 with
  | none => rfl
  | some i => rfl

theorem Measures.eq_sample {B : Type} {P : CodecPolicy Real B} (hP : P.Lossless) {rnd : Real}
    {v : List Real} {out : Except ExcKind Nat} (h : Measures P rnd v out) (hrnd : 0 ≤ rnd)
    (hrnd' : rnd < 1) :
    (exists n, v.length = 2 * 2 ^ n) ∧ out = StateVector.sample rnd v := by
  cases h with
  | dense hne hvalid hv =>
      obtain ⟨n, w, d, hrep⟩ := DenseStateBackend.storesVector.exists_rep_reached hne hvalid
        (fun _ _ _ _ => trivial) DenseStateBackend.make
      obtain ⟨hlen, hout⟩ := sample_of_rep hrep hv rnd
      exact ⟨⟨n, hlen⟩, hout⟩
  | compressed hne hvalid hfits hv =>
      obtain ⟨n, w, d, hrep⟩ := (CompressedStateBackend.storesVector hP).exists_rep_reached hne
        hvalid hfits (CompressedStateBackend.make P)
      obtain ⟨hlen, hout⟩ := sample_of_rep hrep hv rnd
      exact ⟨⟨n, hlen⟩, hout⟩
  | @denseRegister n _ _ _ hr ops hvalid hv =>
      have hlazy : Lazy DenseStateBackend.storesVector n _ 0 _ := hr.lazy trivial
      obtain ⟨_, hend⟩ := trace_eq_eager DenseRegister.endsUnmatched hlazy hvalid
      obtain ⟨hlen, hout⟩ := sample_of_lazy hend hv hrnd hrnd'
      exact ⟨⟨_, hlen⟩, hout⟩
  | @compressedRegister n _ _ _ hr hfits ops hvalid hv =>
      have hlazy : Lazy (CompressedStateBackend.storesVector hP) n _ 0 _ := hr.lazy hfits
      obtain ⟨_, hend⟩ := trace_eq_eager (CompressedStateBackend.endsUnmatched hP) hlazy hvalid
      obtain ⟨hlen, hout⟩ := sample_of_lazy hend hv hrnd hrnd'
      exact ⟨⟨_, hlen⟩, hout⟩
  | state hn hv => exact ⟨⟨_, hv⟩, QuantumState.measure_amplitudes _ hn hv hrnd hrnd'⟩

/--
On a normalised vector every sampler follows the distribution, except when zero is drawn
and the first state has probability zero.
-/
theorem measure_follows_iff {B : Type} {P : CodecPolicy Real B} (hP : P.Lossless) {rnd : Real}
    {v : List Real} {out : Except ExcKind Nat} (h : Measures P rnd v out)
    (htotal : StateVector.totalProbability v = 1) (hrnd : 0 ≤ rnd) (hrnd' : rnd < 1) :
    FollowsDistribution v rnd out <-> ¬ (rnd = 0 ∧ prob v 0 = 0) := by
  obtain ⟨⟨n, hv⟩, rfl⟩ := h.eq_sample hP hrnd hrnd'
  exact sample_follows_iff hv htotal hrnd hrnd'

theorem totalProbability_second : StateVector.totalProbability [(0 : Real), 0, 1, 0] = 1 := by
  norm_num [StateVector.totalProbability, amplitudesOf, Amplitude.probability]

theorem measure_follows_iff_half :
    exists out, Measures plainCodec (1 / 2) [0, 0, 1, 0] out ∧
      (FollowsDistribution [0, 0, 1, 0] (1 / 2) out <->
        ¬ ((1 / 2 : Real) = 0 ∧ prob [(0 : Real), 0, 1, 0] 0 = 0)) := by
  refine ⟨_, Measures.state (n := 1) (by decide) rfl, ?_⟩
  exact measure_follows_iff lossless_plainCodec
    (Measures.state (n := 1) (by decide) rfl) totalProbability_second (by norm_num) (by norm_num)

/-- Drawing zero: every sampler returns the first state, which is impossible here. -/
theorem measure_returns_impossible_state :
    StateVector.totalProbability [(0 : Real), 0, 1, 0] = 1 ∧
      prob [(0 : Real), 0, 1, 0] 0 = 0 ∧
      (exists out, Measures plainCodec 0 [0, 0, 1, 0] out) ∧
      forall out, Measures plainCodec 0 [0, 0, 1, 0] out ->
        out = .ok 0 ∧ ¬ FollowsDistribution [0, 0, 1, 0] 0 out := by
  have hprob : prob [(0 : Real), 0, 1, 0] 0 = 0 := by
    simp [prob, ampAt, readAmp, Amplitude.probability]
  refine ⟨totalProbability_second, hprob, ⟨_, Measures.state (n := 1) (by decide) rfl⟩, ?_⟩
  intro out hout
  obtain ⟨⟨n, hv⟩, rfl⟩ :=
    hout.eq_sample lossless_plainCodec le_rfl zero_lt_one
  refine ⟨?_, ?_⟩
  · simp [StateVector.sample, amplitudesOf, searchCumulative, Amplitude.probability]
  · rw [sample_follows_iff hv totalProbability_second le_rfl zero_lt_one]
    exact fun hcond => hcond ⟨rfl, hprob⟩

end Tmfqs
