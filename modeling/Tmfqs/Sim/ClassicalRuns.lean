import Tmfqs.Model.FactoryGates
import Tmfqs.Sim.ReturnedRuns
import Tmfqs.State.SameBehaviour

/-!
# Circuits of classical gates

A circuit of NOT, CNOT, Toffoli and swap operations moves every basis state to the one its
evaluation on bits gives.  So the simulator computes reversible circuits: a measurement
finds the result of the evaluation, unless exactly zero is drawn.
-/

namespace Tmfqs

open Library StateVector QuantumGate

/-!
## The Toffoli gate
-/

def doublyControlledFlip (first second target s : Nat) : Nat :=
  if s.testBit first = true ∧ s.testBit second = true then s ^^^ 2 ^ target else s

namespace StateVector

variable {n : Nat} {v : List Real}

theorem ampAt_blockGate_exchange {gate : QuantumGate Real} {swapped : Nat -> Nat}
    {qubits : List Nat} (hexchanges : Exchanges gate swapped) (hn : n ≤ 31)
    (h : ValidTargets qubits n gate.dimension) (hv : v.length = 2 * 2 ^ n) {s : Nat}
    (hs : s < 2 ^ n) :
    ampAt (blockGate gate qubits n v) s =
      ampAt v (replaceBits n (swapped (rowIndex n qubits s)) qubits s) := by
  rcases exists_block_of_state h hs with ⟨_, _, hrow, _, _⟩
  rw [← h.dimension] at hrow
  have hswapped := hexchanges.lt _ hrow
  apply Amplitude.toComplex_injective
  rw [complexAt_blockGate hn h hv hs, embeddedProduct, ← h.dimension,
    Finset.sum_eq_single (swapped (rowIndex n qubits s))]
  · rw [hexchanges.entry _ _ hrow hswapped, if_pos rfl, one_mul]
  · intro c hc hne
    rw [hexchanges.entry _ _ hrow (Finset.mem_range.mp hc), if_neg hne, zero_mul]
  · intro hmem
    exact absurd (Finset.mem_range.mpr hswapped) hmem

theorem writeBit_self {bit s : Nat} {value : Bool} (h : s.testBit bit = value) :
    writeBit bit value s = s := by
  rw [writeBit, if_pos h]

theorem replaceBits_rowIndex {d : Nat} {qubits : List Nat} (h : ValidTargets qubits n d) {s : Nat}
    (hs : s < 2 ^ n) : replaceBits n (rowIndex n qubits s) qubits s = s := by
  rcases exists_block_of_state h hs with ⟨block, _, hrow, hstate, hreplace⟩
  rw [hreplace _ hrow]
  exact hstate.symm

theorem replaceBits_toffoli {a b c : Nat} (h : ValidTargets [a, b, c] n 8) {s : Nat}
    (hs : s < 2 ^ n) :
    replaceBits n (exchange 6 7 (rowIndex n [a, b, c] s)) [a, b, c] s =
      doublyControlledFlip (n - 1 - a) (n - 1 - b) (n - 1 - c) s := by
  have hrow : rowIndex n [a, b, c] s = (s.testBit (n - 1 - a)).toNat * 4 +
      ((s.testBit (n - 1 - b)).toNat * 2 + ((s.testBit (n - 1 - c)).toNat * 1 + 0)) := rfl
  have hle (bit : Nat) : (s.testBit bit).toNat ≤ 1 := Bool.toNat_le _
  by_cases hboth : s.testBit (n - 1 - a) = true ∧ s.testBit (n - 1 - b) = true
  · have hflipped (i : Nat) (hi : i ≠ n - 1 - c) :
        (s ^^^ 2 ^ (n - 1 - c)).testBit i = s.testBit i := by
      rw [testBit_xor_two_pow, if_neg hi]
    have hin := h.inRange
    have hnodup := h.nodup
    simp only [List.mem_cons, List.not_mem_nil, or_false, forall_eq_or_imp, forall_eq] at hin
    simp only [List.nodup_cons, List.mem_cons, List.not_mem_nil, or_false, not_or] at hnodup
    have ha : n - 1 - a ≠ n - 1 - c := by
      omega
    have hb : n - 1 - b ≠ n - 1 - c := by
      omega
    have hwrites (value : Bool) (hvalue : s.testBit (n - 1 - c) = !value) :
        writeBit (n - 1 - a) true (writeBit (n - 1 - b) true (writeBit (n - 1 - c) value s)) =
          s ^^^ 2 ^ (n - 1 - c) := by
      have htarget : writeBit (n - 1 - c) value s = s ^^^ 2 ^ (n - 1 - c) := by
        rw [writeBit, if_neg]
        rw [hvalue]
        exact Bool.not_ne_self value
      rw [htarget, writeBit_self ((hflipped _ hb).trans hboth.2),
        writeBit_self ((hflipped _ ha).trans hboth.1)]
    have hreplace (row : Nat) : replaceBits n row [a, b, c] s = writeBit (n - 1 - a) (row.testBit 2)
        (writeBit (n - 1 - b) (row.testBit 1) (writeBit (n - 1 - c) (row.testBit 0) s)) := rfl
    rw [doublyControlledFlip, if_pos hboth, hrow, hboth.1, hboth.2]
    cases hc : s.testBit (n - 1 - c) with
    | false =>
        have hseven : Nat.testBit 7 2 = true ∧ Nat.testBit 7 1 = true ∧ Nat.testBit 7 0 = true := by
          decide
        change replaceBits n 7 [a, b, c] s = _
        rw [hreplace, hseven.1, hseven.2.1, hseven.2.2, hwrites true hc]
    | true =>
        have hsix : Nat.testBit 6 2 = true ∧ Nat.testBit 6 1 = true ∧ Nat.testBit 6 0 = false := by
          decide
        change replaceBits n 6 [a, b, c] s = _
        rw [hreplace, hsix.1, hsix.2.1, hsix.2.2, hwrites false hc]
  · have hsame : exchange 6 7 (rowIndex n [a, b, c] s) = rowIndex n [a, b, c] s := by
      have hsmall : rowIndex n [a, b, c] s < 6 := by
        rw [hrow]
        rcases not_and_or.mp hboth with hclear | hclear
        · rw [Bool.eq_false_of_not_eq_true hclear]
          have hb := hle (n - 1 - b)
          have hc := hle (n - 1 - c)
          simp only [Bool.toNat_false]
          omega
        · rw [Bool.eq_false_of_not_eq_true hclear]
          have ha := hle (n - 1 - a)
          have hc := hle (n - 1 - c)
          simp only [Bool.toNat_false]
          omega
      rw [exchange, if_neg (by omega), if_neg (by omega)]
    rw [hsame, replaceBits_rowIndex h hs, doublyControlledFlip, if_neg hboth]

/-- The Toffoli gate reads each state from the one with the target bit flipped. -/
theorem ampAt_toffoli {a b c : Nat} (hn : n ≤ 31) (h : ValidTargets [a, b, c] n 8)
    (hv : v.length = 2 * 2 ^ n) {s : Nat} (hs : s < 2 ^ n) :
    ampAt (blockGate Toffoli [a, b, c] n v) s =
      ampAt v (doublyControlledFlip (n - 1 - a) (n - 1 - b) (n - 1 - c) s) := by
  rw [ampAt_blockGate_exchange exchanges_toffoli hn h hv hs, replaceBits_toffoli h hs]

theorem ampAt_pauliX {q : Nat} (hq : q < n) (hv : v.length = 2 * 2 ^ n) {s : Nat}
    (hs : s < 2 ^ n) : ampAt (pauliX n q v) s = ampAt v (s ^^^ 2 ^ (n - q - 1)) := by
  rw [pauliX, ampAt_pairKernel_bit _ (by omega) hv hs, pauliXPair_snd, pauliXPair_snd]
  split_ifs <;> rfl

end StateVector

/-!
## Classical operations
-/

/-- The operation moves the basis states as a function on their bits. -/
inductive Operation.Classical (n : Nat) : Operation Real -> (Nat -> Nat) -> Prop where
  | pauliX {q : Nat} (hq : q < n) : Classical n (.pauliX q) fun s => s ^^^ 2 ^ (n - q - 1)
  | controlledNot {c q : Nat} (h : c < n ∧ q < n ∧ c ≠ q) :
      Classical n (.controlledNot c q) (controlledFlip (n - c - 1) (n - q - 1))
  | swap {a b : Nat} (h : a < n ∧ b < n ∧ a ≠ b) :
      Classical n (.swap a b) (swapBits (n - a - 1) (n - b - 1))
  | toffoli {a b c : Nat} (h : ValidTargets [a, b, c] n 8) :
      Classical n (.matrixGate Toffoli [a, b, c])
        (doublyControlledFlip (n - 1 - a) (n - 1 - b) (n - 1 - c))

namespace Operation

variable {n : Nat} {op : Operation Real} {f : Nat -> Nat}

theorem Classical.valid (h : op.Classical n f) : op.Valid n := by
  cases h with
  | pauliX hq => exact hq
  | controlledNot h => exact h
  | swap h => exact h
  | toffoli h => exact h

theorem xor_xor_self (s bit : Nat) : s ^^^ bit ^^^ bit = s := by
  rw [Nat.xor_assoc, Nat.xor_self, Nat.xor_zero]

theorem Classical.involution (h : op.Classical n f) (s : Nat) : f (f s) = s := by
  cases h with
  | pauliX hq => exact xor_xor_self s _
  | @controlledNot c q h =>
      have hbit : (s ^^^ 2 ^ (n - q - 1)).testBit (n - c - 1) = s.testBit (n - c - 1) := by
        rw [testBit_xor_two_pow, if_neg (by omega)]
      by_cases hset : s.testBit (n - c - 1) = true
      · rw [controlledFlip, controlledFlip, if_pos hset, hbit, if_pos hset, xor_xor_self]
      · rw [controlledFlip, controlledFlip, if_neg hset, if_neg hset]
  | @swap a b h =>
      apply Nat.eq_of_testBit_eq
      intro i
      rw [testBit_swapBits, testBit_swapBits]
      congr 1
      split_ifs <;> omega
  | @toffoli a b c h =>
      have hin := h.inRange
      have hnodup := h.nodup
      simp only [List.mem_cons, List.not_mem_nil, or_false, forall_eq_or_imp, forall_eq] at hin
      simp only [List.nodup_cons, List.mem_cons, List.not_mem_nil, or_false, not_or] at hnodup
      have hbit (i : Nat) (hi : i ≠ n - 1 - c) :
          (s ^^^ 2 ^ (n - 1 - c)).testBit i = s.testBit i := by
        rw [testBit_xor_two_pow, if_neg hi]
      by_cases hset : s.testBit (n - 1 - a) = true ∧ s.testBit (n - 1 - b) = true
      · rw [doublyControlledFlip, doublyControlledFlip, if_pos hset, hbit _ (by omega),
          hbit _ (by omega), if_pos hset, xor_xor_self]
      · rw [doublyControlledFlip, doublyControlledFlip, if_neg hset, if_neg hset]

theorem Classical.lt (h : op.Classical n f) {s : Nat} (hs : s < 2 ^ n) : f s < 2 ^ n := by
  cases h with
  | pauliX hq => exact xor_two_pow_lt (by omega) hs
  | controlledNot h => exact controlledFlip_lt (by omega) hs
  | swap h => exact swapBits_lt (by omega) (by omega) hs
  | @toffoli a b c h =>
      have hc : c < n := h.inRange c (by simp)
      rw [doublyControlledFlip]
      split_ifs
      · exact xor_two_pow_lt (by omega) hs
      · exact hs

theorem Classical.ampAt_apply (h : op.Classical n f) (hn : n ≤ 31) {v : List Real}
    (hv : v.length = 2 * 2 ^ n) {s : Nat} (hs : s < 2 ^ n) :
    ampAt (op.apply n v) s = ampAt v (f s) := by
  cases h with
  | pauliX hq => exact ampAt_pauliX hq hv hs
  | controlledNot h => exact ampAt_controlledNot h.1 h.2.1 h.2.2 hv hs
  | swap h => exact ampAt_swap h.1 h.2.1 h.2.2 hv hs
  | toffoli h => exact ampAt_toffoli hn h hv hs

theorem Classical.apply_basis (h : op.Classical n f) (hn : n ≤ 31) {s : Nat} (hs : s < 2 ^ n)
    (amp : Amplitude Real) : op.apply n (basis n s amp) = basis n (f s) amp := by
  have hlen := length_basis n s amp
  apply eq_of_ampAt (length_apply hn hlen h.valid) (length_basis n (f s) amp)
  intro t ht
  have hiff : f t = s <-> t = f s := by
    constructor
    · rintro rfl
      exact (h.involution t).symm
    · rintro rfl
      exact h.involution s
  rw [h.ampAt_apply hn hlen ht, ampAt_basis hs, ampAt_basis (h.lt hs), if_congr hiff rfl rfl]

end Operation

def evaluateBits (fs : List (Nat -> Nat)) (s : Nat) : Nat :=
  fs.foldl (fun state f => f state) s

namespace Simulator

variable {n : Nat}

theorem applyAll_basis (hn : n ≤ 31) {ops : List (Operation Real)} {fs : List (Nat -> Nat)}
    (h : List.Forall₂ (Operation.Classical n) ops fs) (amp : Amplitude Real) :
    forall s, s < 2 ^ n -> evaluateBits fs s < 2 ^ n ∧
      Operation.applyAll n ops (basis n s amp) = basis n (evaluateBits fs s) amp := by
  induction h with
  | nil =>
      intro s hs
      exact ⟨hs, rfl⟩
  | @cons op f ops fs hop _ ih =>
      intro s hs
      rw [Operation.applyAll_cons, hop.apply_basis hn hs]
      exact ih (f s) (hop.lt hs)

theorem valid_of_classical {ops : List (Operation Real)} {fs : List (Nat -> Nat)}
    (h : List.Forall₂ (Operation.Classical n) ops fs) : forall op, op ∈ ops -> op.Valid n := by
  induction h with
  | nil =>
      intro op hop
      cases hop
  | cons hop _ ih =>
      intro op' hop'
      rcases List.mem_cons.mp hop' with rfl | hrest
      · exact hop.valid
      · exact ih op' hrest

theorem sample_zero_draw {v : List Real} (hv : v.length = 2 * 2 ^ n) :
    StateVector.sample 0 v = .ok 0 := by
  have hsearch : (searchCumulative 0 0
      ((amplitudesOf v).map Amplitude.probability)).1 = some 0 := by
    refine (search_eq_some_iff hv).mpr ⟨Nat.two_pow_pos n, ?_, ?_⟩
    · exact Finset.sum_nonneg fun t _ => prob_nonneg v t
    · intro j hj
      exact absurd hj (Nat.not_lt_zero j)
  rw [StateVector.sample, if_neg (drawn_in_range le_rfl one_pos), hsearch]

theorem sample_basis {s : Nat} (hs : s < 2 ^ n) {amp : Amplitude Real}
    (hamp : amp.probability = 1) {rnd : Real} (hrnd : 0 ≤ rnd) (hrnd' : rnd < 1) :
    StateVector.sample rnd (basis n s amp) = .ok (if 0 < rnd then s else 0) := by
  by_cases hpos : 0 < rnd
  · rw [if_pos hpos, QuantumState.sample_basis_iff hs amp hrnd hrnd', hamp]
    exact ⟨hrnd'.le, Or.inr hpos⟩
  · rw [if_neg hpos, le_antisymm (not_lt.mp hpos) hrnd]
    exact sample_zero_draw (length_basis n s amp)

/--
After a circuit of classical operations from a basis state the amplitudes are those of the
state of the evaluation, and every draw above zero measures that state. A draw of zero
measures the first state.
-/
theorem classical_run_measures (hn : n ≤ 31) {circuit : Circuit Real}
    (hqubits : circuit.qubits = n) {fs : List (Nat -> Nat)}
    (hclassical : List.Forall₂ (Operation.Classical n) circuit.operations fs) {s : Nat}
    (hs : s < 2 ^ n) {rnd : Real} (hrnd : 0 ≤ rnd) (hrnd' : rnd < 1) :
    exists final, run (DenseStateBackend.make : DenseStateBackend Real) circuit
        { qubits := n, kind := .basis s } = .ok final ∧
      evaluateBits fs s < 2 ^ n ∧
      (final.amplitudes DenseStateBackend.make).1 =
        .ok (basis n (evaluateBits fs s) { real := 1, imag := 0 }) ∧
      (final.measure DenseStateBackend.make rnd).1 =
        .ok (if 0 < rnd then evaluateBits fs s else 0) := by
  have hvalid := valid_of_classical hclassical
  have hstart := QuantumState.Denotes.basis (R := Real) hn hs
  rcases hstart.materialize with ⟨r, d, hr, hlazy⟩
  rcases Call.Post.exists_ok (does_runBatch rfl hvalid hlazy) with ⟨_, r', hbatch, hlazy'⟩
  rcases applyAll_basis hn hclassical { real := 1, imag := 0 } s hs with ⟨hlt, hbasis⟩
  rw [hbasis] at hlazy'
  have hprobability : ({ real := 1, imag := 0 } : Amplitude Real).probability = 1 := by
    norm_num [Amplitude.probability]
  have hmeasure := QuantumRegister.answers_measure hlazy' hrnd hrnd'
  rw [sample_basis hlt hprobability hrnd hrnd'] at hmeasure
  have hmeasured := QuantumState.ok_of_answers hmeasure
  exact ⟨QuantumState.fromRegister r', run_of_stages hqubits hr hbatch, hlt,
    (QuantumState.Denotes.register hlazy').amplitudes_eq, hmeasured⟩

/-- A NOT and a Toffoli operation set the third bit when the second is set. -/
theorem classical_run_measures_and :
    exists final, run (DenseStateBackend.make : DenseStateBackend Real)
        { qubits := 3, operations := [.pauliX 0, .matrixGate Toffoli [0, 1, 2]] }
        { qubits := 3, kind := .basis 2 } = .ok final ∧
      evaluateBits [fun s => s ^^^ 2 ^ 2, doublyControlledFlip 2 1 0] 2 < 2 ^ 3 ∧
      (final.amplitudes DenseStateBackend.make).1 =
        .ok (basis 3 (evaluateBits [fun s => s ^^^ 2 ^ 2, doublyControlledFlip 2 1 0] 2)
          { real := 1, imag := 0 }) ∧
      (final.measure DenseStateBackend.make (1 / 2 : Real)).1 =
        .ok (if (0 : Real) < 1 / 2 then
          evaluateBits [fun s => s ^^^ 2 ^ 2, doublyControlledFlip 2 1 0] 2 else 0) := by
  have htoffoli : ValidTargets [0, 1, 2] 3 8 := ⟨rfl, by decide, by decide⟩
  exact classical_run_measures (by decide) rfl
    (.cons (.pauliX (show 0 < 3 by decide)) (.cons (.toffoli htoffoli) .nil))
    (by decide) (by norm_num) (by norm_num)

end Simulator

end Tmfqs
