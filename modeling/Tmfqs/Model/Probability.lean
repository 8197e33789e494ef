import Tmfqs.Model.ComplexAmplitudes
import Tmfqs.Model.VectorSums

/-!
# Total probability

No operation of a circuit changes the total probability of a vector.
-/

namespace Tmfqs

open Library PairKernelExecutor

namespace StateVector

variable {n : Nat} {v : List Real}

theorem totalProbability_phaseFlip (hv : v.length = 2 * 2 ^ n) {s : Nat} (hs : s < 2 ^ n) :
    totalProbability (phaseFlip v s) = totalProbability v := by
  have hsame : (ampAt v s).negate.probability = (ampAt v s).probability := by
    simp [Amplitude.negate, Amplitude.probability]
  rw [phaseFlip, totalProbability_setAmp hv hs, hsame, sub_add_cancel]

/-!
## Pair kernels
-/

def KeepsProbability (kernel : PairKernel Real) : Prop :=
  forall s0 s1 a0 a1,
    (kernel s0 s1 a0 a1).2.1.probability + (kernel s0 s1 a0 a1).2.2.probability =
      a0.probability + a1.probability

theorem totalProbability_pairStep {kernel : PairKernel Real} (hkernel : KeepsProbability kernel)
    {N : Nat} (hv : v.length = 2 * N) {p : Nat × Nat} (h1 : p.1 < N) (h2 : p.2 < N)
    (hne : p.1 ≠ p.2) :
    totalProbability (pairStep kernel v p) = totalProbability v := by
  have hpair := hkernel p.1 p.2 (ampAt v p.1) (ampAt v p.2)
  rw [pairStep, totalProbability_setAmp ((length_setAmp v _ _).trans hv) h2,
    totalProbability_setAmp hv h1, ampAt_setAmp p.2 _ (by omega), if_neg (Ne.symm hne)]
  linarith

theorem totalProbability_pairKernel {kernel : PairKernel Real}
    (hkernel : KeepsProbability kernel) {bit : Nat} (hbit : bit < n)
    (hv : v.length = 2 * 2 ^ n) :
    totalProbability (pairKernel kernel n bit v) = totalProbability v := by
  have hrun : forall (pairs : List (Nat × Nat)),
      (forall p, p ∈ pairs -> p.1 < 2 ^ n ∧ p.2 < 2 ^ n ∧ p.1 ≠ p.2) ->
      forall w : List Real, w.length = 2 * 2 ^ n ->
        totalProbability (pairs.foldl (pairStep kernel) w) = totalProbability w := by
    intro pairs
    induction pairs with
    | nil =>
        intro _ w _
        rfl
    | cons p rest ih =>
        intro hlt w hw
        obtain ⟨h1, h2, hne⟩ := hlt p List.mem_cons_self
        rw [List.foldl_cons, ih (fun q hq => hlt q (List.mem_cons_of_mem p hq)) _
          ((length_pairStep kernel w p).trans hw),
          totalProbability_pairStep hkernel hw h1 h2 hne]
  refine hrun (pairList n bit) ?_ v hv
  intro p hp
  obtain ⟨h1, h2, hp2⟩ := mem_pairList hbit hp
  have hpos : 0 < 2 ^ bit := Nat.two_pow_pos bit
  exact ⟨h1, h2, by omega⟩

theorem keepsProbability_hadamardPair : KeepsProbability hadamardPair := by
  intro s0 s1 a0 a1
  rw [hadamardPair_snd]
  simp only [Amplitude.probability]
  linear_combination
    2 * (a0.real ^ 2 + a0.imag ^ 2 + a1.real ^ 2 + a1.imag ^ 2) * invSqrt2_mul_self

theorem keepsProbability_pauliXPair : KeepsProbability pauliXPair := by
  intro s0 s1 a0 a1
  rw [pauliXPair_snd, add_comm]

theorem keepsProbability_controlledNotPair (controlMask : Nat) :
    KeepsProbability (controlledNotPair controlMask) := by
  intro s0 s1 a0 a1
  rw [controlledNotPair_snd]
  split
  · rfl
  · exact add_comm _ _

theorem keepsProbability_controlledPhaseShiftPair (controlMask : Nat) (theta : Real) :
    KeepsProbability (controlledPhaseShiftPair controlMask theta) := by
  intro s0 s1 a0 a1
  have hunit : CMath.cos theta ^ 2 + CMath.sin theta ^ 2 = 1 := Real.cos_sq_add_sin_sq theta
  rw [controlledPhaseShiftPair_snd]
  split
  · rfl
  · simp only [Amplitude.probability]
    linear_combination (a1.real ^ 2 + a1.imag ^ 2) * hunit

/-!
## Unitary gates
-/

theorem sum_blocks {qubits : List Nat} {d : Nat} (h : ValidTargets qubits n d)
    (f : Nat -> Real) :
    ∑ s ∈ Finset.range (2 ^ n), f s =
      ∑ block ∈ Finset.range (2 ^ (n - qubits.length)), ∑ row ∈ Finset.range d,
        f (blockState qubits n block row) := by
  have hlen : (targetBits qubits n).reverse.length = qubits.length := by simp [targetBits]
  rw [(splits_otherBits h).sum_range f, length_otherBits h, hlen, h.dimension]
  rfl

theorem totalProbability_blockGate {gate : QuantumGate Real} {qubits : List Nat} (hn : n ≤ 31)
    (h : ValidTargets qubits n gate.dimension) (hunitary : gate.Unitary)
    (hv : v.length = 2 * 2 ^ n) :
    totalProbability (blockGate gate qubits n v) = totalProbability v := by
  rw [totalProbability_eq (length_blockGate hn h hv), totalProbability_eq hv,
    sum_blocks h fun s => (ampAt (blockGate gate qubits n v) s).probability,
    sum_blocks h fun s => (ampAt v s).probability]
  apply Finset.sum_congr rfl
  intro block hblock
  have hblock' := Finset.mem_range.mp hblock
  rw [Finset.sum_range, Finset.sum_range]
  calc ∑ row : Fin gate.dimension,
        (ampAt (blockGate gate qubits n v) (blockState qubits n block row)).probability
      = ∑ row : Fin gate.dimension, Complex.normSq
          (gate.toMatrix.mulVec
            (fun col => (ampAt v (blockState qubits n block col)).toComplex) row) := by
        apply Finset.sum_congr rfl
        intro row _
        have hrow : row.val < 2 ^ qubits.length := by
          rw [← h.dimension]
          exact row.isLt
        have hamps : (fun col : Fin gate.dimension =>
            (ampAt v (blockState qubits n block col)).toComplex) =
            fun col : Fin gate.dimension => (((blockIndices qubits n block).map (ampAt v)).getD col
              Amplitude.zero).toComplex := by
          funext col
          rw [getD_blockAmps qubits block (by rw [← h.dimension]; exact col.isLt)]
        rw [ampAt_blockGate hn h hv hblock' hrow, Amplitude.probability_eq_normSq, blockProduct,
          ← h.dimension, toComplex_rowProduct, hamps]
    _ = ∑ row : Fin gate.dimension,
          (ampAt v (blockState qubits n block row)).probability :=
        sum_normSq_mulVec hunitary _

/-!
## Inversion about the mean
-/

theorem totalProbability_reflect_mean (hv : v.length = 2 * 2 ^ n) :
    totalProbability (reflect (mean n v) v) = totalProbability v := by
  have hN : ((2 ^ n : Nat) : Real) ≠ 0 := by
    exact_mod_cast (Nat.two_pow_pos n).ne'
  have hreal : ∑ s ∈ Finset.range (2 ^ n), (ampAt v s).real =
      (mean n v).real * ((2 ^ n : Nat) : Real) := by
    rw [mean, amplitudeSum_eq hv, div_mul_cancel₀ _ hN]
  have himag : ∑ s ∈ Finset.range (2 ^ n), (ampAt v s).imag =
      (mean n v).imag * ((2 ^ n : Nat) : Real) := by
    rw [mean, amplitudeSum_eq hv, div_mul_cancel₀ _ hN]
  generalize mean n v = m at hreal himag ⊢
  rw [totalProbability_eq ((length_reflect m v).trans hv), totalProbability_eq hv, reflect,
    sum_mapAmplitudes hv _ Amplitude.probability]
  have hamp : forall a : Amplitude Real, (reflectAmp m a).probability =
      4 * (m.real ^ 2 + m.imag ^ 2) - 4 * m.real * a.real - 4 * m.imag * a.imag +
        a.probability := by
    intro a
    simp only [reflectAmp, Amplitude.probability]
    ring
  simp only [hamp, Finset.sum_add_distrib, Finset.sum_sub_distrib, Finset.sum_const,
    Finset.card_range, nsmul_eq_mul, ← Finset.mul_sum, hreal, himag]
  ring

/-!
## Uniform superpositions
-/

theorem probability_uniformAmplitude (count : Nat) :
    (uniformAmplitude count : Amplitude Real).probability = 1 / count := by
  have hpos : (0 : Real) ≤ count := Nat.cast_nonneg count
  change 1 / Real.sqrt count * (1 / Real.sqrt count) + 0 * 0 = 1 / (count : Real)
  rw [div_mul_div_comm, Real.mul_self_sqrt hpos]
  ring

theorem totalProbability_uniform {states : List Nat} (hne : states ≠ [])
    (hlt : forall s, s ∈ states -> s < 2 ^ n) :
    totalProbability (uniform n states : List Real) = 1 := by
  have hcount : (selectedStates states).length ≠ 0 := by
    intro h
    exact selectedStates_ne_nil hne (List.length_eq_zero_iff.mp h)
  have hselected : (Finset.range (2 ^ n)).filter (fun s => s ∈ states) =
      (selectedStates states).toFinset := by
    ext s
    rw [Finset.mem_filter, Finset.mem_range, List.mem_toFinset, mem_selectedStates]
    exact ⟨fun h => h.2, fun h => ⟨hlt s h, h⟩⟩
  have hcard := List.toFinset_card_of_nodup (nodup_selectedStates states)
  have hzero : (Amplitude.zero : Amplitude Real).probability = 0 := by
    simp [Amplitude.zero, Amplitude.probability]
  rw [totalProbability_eq (length_uniform n states)]
  simp only [ampAt_uniform hlt, apply_ite Amplitude.probability, hzero,
    probability_uniformAmplitude]
  rw [← Finset.sum_filter, hselected, Finset.sum_const, hcard, nsmul_eq_mul,
    mul_one_div_cancel (by exact_mod_cast hcount)]

end StateVector

end Tmfqs
