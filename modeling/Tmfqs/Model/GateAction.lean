import Mathlib.Algebra.BigOperators.Ring.Finset
import Tmfqs.Model.PairAction

/-!
# Gates with a kernel of their own

The block engine, given the matrix of a named gate, computes what the kernel of
that gate computes.
-/

namespace Tmfqs

open Library PairKernelExecutor

/-!
## Rows of a gate
-/

section Rows

variable {R : Type} [Field R]

theorem rowProduct_parts (gate : QuantumGate R) (blockSize row : Nat)
    (localAmps : List (Amplitude R)) :
    rowProduct gate blockSize row localAmps =
      { real := ∑ col ∈ Finset.range blockSize,
          (Amplitude.multiply (gate.entry row col) (localAmps.getD col Amplitude.zero)).real
        imag := ∑ col ∈ Finset.range blockSize,
          (Amplitude.multiply (gate.entry row col) (localAmps.getD col Amplitude.zero)).imag } := by
  unfold rowProduct
  induction blockSize with
  | zero => rfl
  | succ size ih =>
      rw [List.range_succ, List.foldl_append, ih, List.foldl_cons, List.foldl_nil,
        Finset.sum_range_succ, Finset.sum_range_succ]
      rfl

theorem rowProduct_single {gate : QuantumGate R} {blockSize row c : Nat}
    {localAmps : List (Amplitude R)} (hc : c < blockSize)
    (h : forall col, col < blockSize -> col ≠ c -> gate.entry row col = Amplitude.zero) :
    rowProduct gate blockSize row localAmps =
      Amplitude.multiply (gate.entry row c) (localAmps.getD c Amplitude.zero) := by
  have hzero : forall a : Amplitude R, Amplitude.multiply Amplitude.zero a = Amplitude.zero := by
    intro a
    simp [Amplitude.multiply, Amplitude.zero]
  rw [rowProduct_parts]
  apply Amplitude.eq_of_parts
  · refine Finset.sum_eq_single_of_mem c (Finset.mem_range.mpr hc) ?_
    intro col hcol hne
    rw [h col (Finset.mem_range.mp hcol) hne, hzero]
    rfl
  · refine Finset.sum_eq_single_of_mem c (Finset.mem_range.mpr hc) ?_
    intro col hcol hne
    rw [h col (Finset.mem_range.mp hcol) hne, hzero]
    rfl

theorem multiply_one (a : Amplitude R) :
    ({ real := 1, imag := 0 } : Amplitude R).multiply a = a := by
  apply Amplitude.eq_of_parts <;> simp [Amplitude.multiply]

end Rows

/-!
## Bits of a block state
-/

section Bits

variable {qubits : List Nat} {n d : Nat}

theorem testBit_blockState (h : ValidTargets qubits n d) (block : Nat) {row i : Nat}
    (hrow : row < 2 ^ qubits.length) (hi : i < qubits.length) :
    (blockState qubits n block row).testBit (n - qubits.getD i 0 - 1) =
      row.testBit (qubits.length - 1 - i) := by
  have hlen : (targetBits qubits n).reverse.length = qubits.length := by simp [targetBits]
  have hrow' : row < 2 ^ (targetBits qubits n).reverse.length := by rwa [hlen]
  have hgather := (splits_otherBits h).gather_right block hrow'
  have hbit := testBit_gather (targetBits qubits n).reverse (blockState qubits n block row)
    (qubits.length - 1 - i)
  have hget : (targetBits qubits n).reverse[qubits.length - 1 - i]? =
      some (n - qubits.getD i 0 - 1) := by
    have hlt : qubits.length - 1 - i < (targetBits qubits n).length := by
      simp only [targetBits, List.length_map]
      omega
    have hidx : (targetBits qubits n).length - 1 - (qubits.length - 1 - i) = i := by
      simp only [targetBits, List.length_map]
      omega
    rw [List.getElem?_reverse hlt, hidx, targetBits, List.getElem?_map,
      List.getElem?_eq_getElem hi, List.getD_eq_getElem?_getD, List.getElem?_eq_getElem hi]
    rfl
  rw [hget, blockState, hgather] at hbit
  exact hbit.symm

theorem lowState_or (bit t : Nat) : lowState bit t ||| 2 ^ bit = lowState bit t + 2 ^ bit := by
  have hmod := Nat.mod_lt t (Nat.two_pow_pos bit)
  have hpow : 2 ^ (bit + 1) = 2 * 2 ^ bit := by rw [Nat.pow_succ, Nat.mul_comm]
  have hlow : lowState bit t = 2 ^ (bit + 1) * (t / 2 ^ bit) ||| t % 2 ^ bit := by
    rw [lowState, Nat.mul_comm, Nat.two_pow_add_eq_or_of_lt (by omega)]
  rw [hlow, Nat.or_assoc, Nat.or_two_pow_eq_add_of_lt hmod,
    ← Nat.two_pow_add_eq_or_of_lt (by omega), ← Nat.two_pow_add_eq_or_of_lt (by omega),
    Nat.add_assoc]

theorem and_two_pow_eq_zero_iff (s bit : Nat) : s &&& 2 ^ bit = 0 <-> s.testBit bit = false := by
  rw [Nat.and_two_pow]
  cases s.testBit bit with
  | false => simp
  | true => simp

end Bits

/-!
## The engine on single blocks
-/

section Engine

variable {R : Type} [Field R] [LinearOrder R] [CMath R] {gate : QuantumGate R} {n : Nat}
  {v : List R}

omit [CMath R] in
theorem ampAt_blockGate {qubits : List Nat} (hn : n ≤ 31)
    (h : ValidTargets qubits n gate.dimension) (hv : v.length = 2 * 2 ^ n) {block row : Nat}
    (hblock : block < 2 ^ (n - qubits.length)) (hrow : row < 2 ^ qubits.length) :
    ampAt (StateVector.blockGate gate qubits n v) (blockState qubits n block row) =
      blockProduct gate qubits n block row v := by
  obtain ⟨_, v', hrun, _, hamps⟩ := (post_gateApplyEngine "" hn h hv).exists_ok
  rw [StateVector.blockGate, hrun]
  exact hamps block row hblock hrow

omit [LinearOrder R] [CMath R] in
theorem getD_blockAmps (qubits : List Nat) (block : Nat) {row : Nat}
    (hrow : row < 2 ^ qubits.length) :
    ((blockIndices qubits n block).map (ampAt v)).getD row Amplitude.zero =
      ampAt v (blockState qubits n block row) := by
  rw [blockIndices, List.map_map, List.getD_eq_getElem?_getD, List.getElem?_map,
    List.getElem?_range hrow]
  rfl

theorem exists_pair_block {q : Nat} (hq : q < n) {t : Nat} (ht : t < 2 ^ (n - 1)) :
    exists block, block < 2 ^ (n - 1) ∧
      lowState (n - q - 1) t = blockState [q] n block 0 ∧
      lowState (n - q - 1) t + 2 ^ (n - q - 1) = blockState [q] n block 1 := by
  have hvalid : ValidTargets [q] n 2 := ValidTargets.one hq rfl
  have hhigh := StateVector.lowState_add_lt (show n - q - 1 < n by omega) ht
  have hlow : lowState (n - q - 1) t < 2 ^ n := Nat.lt_of_le_of_lt (Nat.le_add_right _ _) hhigh
  obtain ⟨block, row, hblock, hrow, heq⟩ := exists_blockState hvalid hlow
  have hbit := testBit_blockState hvalid block hrow (i := 0) (by simp)
  rw [← heq] at hbit
  have hzero : row = 0 := by
    have hrow2 : row < 2 := hrow
    have hclear : row.testBit 0 = false :=
      hbit.symm.trans (StateVector.testBit_lowState t)
    rw [Nat.testBit_zero] at hclear
    simp only [decide_eq_false_iff_not] at hclear
    omega
  subst hzero
  refine ⟨block, hblock, heq, ?_⟩
  rw [← lowState_or, heq]
  simp [blockState, targetBits, scatter]

omit [CMath R] in
theorem ampAt_blockGate_one (gate : QuantumGate R) {q : Nat} (hn : n ≤ 31) (hq : q < n) (hdim : gate.dimension = 2)
    (hv : v.length = 2 * 2 ^ n) {t : Nat} (ht : t < 2 ^ (n - 1)) :
    ampAt (StateVector.blockGate gate [q] n v) (lowState (n - q - 1) t) =
        rowProduct gate 2 0 [ampAt v (lowState (n - q - 1) t),
          ampAt v (lowState (n - q - 1) t + 2 ^ (n - q - 1))] ∧
      ampAt (StateVector.blockGate gate [q] n v) (lowState (n - q - 1) t + 2 ^ (n - q - 1)) =
        rowProduct gate 2 1 [ampAt v (lowState (n - q - 1) t),
          ampAt v (lowState (n - q - 1) t + 2 ^ (n - q - 1))] := by
  have hvalid : ValidTargets [q] n gate.dimension := ValidTargets.one hq hdim
  obtain ⟨block, hblock, hlo, hhi⟩ := exists_pair_block hq ht
  have hrange : List.range 2 = [0, 1] := rfl
  have hamps : (blockIndices [q] n block).map (ampAt v) =
      [ampAt v (blockState [q] n block 0), ampAt v (blockState [q] n block 1)] := by
    simp [blockIndices, hrange]
  rw [hhi, hlo, ampAt_blockGate hn hvalid hv hblock (by simp),
    ampAt_blockGate hn hvalid hv hblock (by simp), blockProduct, blockProduct, hamps]
  exact ⟨rfl, rfl⟩

/-- The rows of a two-qubit block: the control picks the pair, the target the state in it. -/
theorem exists_quad_block {c q : Nat} (hc : c < n) (hq : q < n) (hne : c ≠ q) {t : Nat}
    (ht : t < 2 ^ (n - 1)) :
    exists block control, block < 2 ^ (n - 2) ∧ control < 2 ∧
      lowState (n - q - 1) t = blockState [c, q] n block (2 * control) ∧
      lowState (n - q - 1) t + 2 ^ (n - q - 1) = blockState [c, q] n block (2 * control + 1) ∧
      (lowState (n - q - 1) t &&& 2 ^ (n - c - 1) = 0 <-> control = 0) ∧
      (lowState (n - q - 1) t + 2 ^ (n - q - 1) &&& 2 ^ (n - c - 1) = 0 <-> control = 0) := by
  have hvalid : ValidTargets [c, q] n 4 := ValidTargets.two hc hq hne rfl
  have hhigh := StateVector.lowState_add_lt (show n - q - 1 < n by omega) ht
  have hlow : lowState (n - q - 1) t < 2 ^ n := Nat.lt_of_le_of_lt (Nat.le_add_right _ _) hhigh
  obtain ⟨block, row, hblock, hrow, heq⟩ := exists_blockState hvalid hlow
  have hrow4 : row < 4 := hrow
  have htarget := testBit_blockState hvalid block hrow (i := 1) (by simp)
  rw [← heq] at htarget
  have heven : row % 2 = 0 := by
    have hclear : row.testBit 0 = false :=
      htarget.symm.trans (StateVector.testBit_lowState t)
    rw [Nat.testBit_zero] at hclear
    simp only [decide_eq_false_iff_not] at hclear
    omega
  obtain ⟨control, rfl⟩ : exists control, row = 2 * control := ⟨row / 2, by omega⟩
  have hcontrol : control < 2 := by omega
  have hodd : lowState (n - q - 1) t + 2 ^ (n - q - 1) =
      blockState [c, q] n block (2 * control + 1) := by
    rw [← lowState_or, heq]
    simp [blockState, targetBits, scatter, Nat.or_assoc, Nat.or_comm (2 ^ (n - q - 1)),
      Nat.add_mod, Nat.mul_add_div]
  have hbit : forall r, r < 2 -> ((blockState [c, q] n block (2 * control + r)) &&&
      2 ^ (n - c - 1) = 0 <-> control = 0) := by
    intro r hr
    have hrow' : 2 * control + r < 2 ^ [c, q].length := by
      change 2 * control + r < 4
      omega
    have hctl := testBit_blockState hvalid block hrow' (i := 0) (by simp)
    rw [and_two_pow_eq_zero_iff]
    change (blockState [c, q] n block (2 * control + r)).testBit (n - c - 1) = _ at hctl
    have hone : ([c, q].length - 1 - 0) = 1 := rfl
    rw [hctl, hone, Nat.testBit_eq_decide_div_mod_eq]
    simp only [decide_eq_false_iff_not]
    omega
  refine ⟨block, control, hblock, hcontrol, heq, hodd, ?_, ?_⟩
  · rw [heq]
    exact hbit 0 (by decide)
  · rw [hodd]
    exact hbit 1 (by decide)

omit [CMath R] in
theorem ampAt_blockGate_two (gate : QuantumGate R) {c q : Nat} (hn : n ≤ 31) (hc : c < n) (hq : q < n) (hne : c ≠ q)
    (hdim : gate.dimension = 4) (hv : v.length = 2 * 2 ^ n) {block row : Nat}
    (hblock : block < 2 ^ (n - 2)) (hrow : row < 4) :
    exists amps : List (Amplitude R),
      (forall r, r < 4 -> amps.getD r Amplitude.zero = ampAt v (blockState [c, q] n block r)) ∧
      ampAt (StateVector.blockGate gate [c, q] n v) (blockState [c, q] n block row) =
        rowProduct gate 4 row amps := by
  have hvalid : ValidTargets [c, q] n gate.dimension := ValidTargets.two hc hq hne hdim
  exact ⟨_, fun r hr => getD_blockAmps [c, q] block hr,
    ampAt_blockGate hn hvalid hv hblock hrow⟩

/-!
## The named gates
-/

theorem blockGate_hadamard {q : Nat} (hn : n ≤ 31) (hq : q < n) (hv : v.length = 2 * 2 ^ n)
    (hdim : gate.dimension = 2)
    (hentries : forall row col, row < 2 -> col < 2 ->
      gate.entry row col = (QuantumGate.Hadamard : QuantumGate R).entry row col) :
    StateVector.blockGate gate [q] n v = StateVector.hadamard n q v := by
  have hvalid : ValidTargets [q] n gate.dimension := ValidTargets.one hq hdim
  have hbit : n - q - 1 < n := by omega
  refine StateVector.eq_of_pairs hbit (StateVector.length_blockGate hn hvalid hv)
    ((StateVector.length_pairKernel _ n _ v).trans hv) ?_
  intro t ht
  obtain ⟨hlo, hhi⟩ := ampAt_blockGate_one gate hn hq hdim hv ht
  obtain ⟨hlo', hhi'⟩ := StateVector.ampAt_pairKernel hadamardPair hbit hv ht
  rw [hlo, hhi, StateVector.hadamard, hlo', hhi', hadamardPair_snd, rowProduct_pair,
    rowProduct_pair, hentries 0 0 (by decide) (by decide), hentries 0 1 (by decide) (by decide),
    hentries 1 0 (by decide) (by decide), hentries 1 1 (by decide) (by decide)]
  simp only [QuantumGate.Hadamard]
  rw [QuantumGate.entry_ofEntries _ (by decide) (by decide),
    QuantumGate.entry_ofEntries _ (by decide) (by decide),
    QuantumGate.entry_ofEntries _ (by decide) (by decide),
    QuantumGate.entry_ofEntries _ (by decide) (by decide)]
  constructor
  · apply Amplitude.eq_of_parts
    · simp
      ring
    · simp
      ring
  · apply Amplitude.eq_of_parts
    · simp
      ring
    · simp
      ring

omit [CMath R] in
theorem blockGate_pauliX {q : Nat} (hn : n ≤ 31) (hq : q < n) (hv : v.length = 2 * 2 ^ n)
    (hdim : gate.dimension = 2)
    (hentries : forall row col, row < 2 -> col < 2 ->
      gate.entry row col = (QuantumGate.PauliX : QuantumGate R).entry row col) :
    StateVector.blockGate gate [q] n v = StateVector.pauliX n q v := by
  have hvalid : ValidTargets [q] n gate.dimension := ValidTargets.one hq hdim
  have hbit : n - q - 1 < n := by omega
  refine StateVector.eq_of_pairs hbit (StateVector.length_blockGate hn hvalid hv)
    ((StateVector.length_pairKernel _ n _ v).trans hv) ?_
  intro t ht
  obtain ⟨hlo, hhi⟩ := ampAt_blockGate_one gate hn hq hdim hv ht
  obtain ⟨hlo', hhi'⟩ := StateVector.ampAt_pairKernel pauliXPair hbit hv ht
  rw [hlo, hhi, StateVector.pauliX, hlo', hhi', pauliXPair_snd, rowProduct_pair,
    rowProduct_pair, hentries 0 0 (by decide) (by decide), hentries 0 1 (by decide) (by decide),
    hentries 1 0 (by decide) (by decide), hentries 1 1 (by decide) (by decide)]
  simp only [QuantumGate.PauliX]
  rw [QuantumGate.entry_ofEntries _ (by decide) (by decide),
    QuantumGate.entry_ofEntries _ (by decide) (by decide),
    QuantumGate.entry_ofEntries _ (by decide) (by decide),
    QuantumGate.entry_ofEntries _ (by decide) (by decide)]
  constructor
  · apply Amplitude.eq_of_parts <;> simp [Amplitude.zero]
  · apply Amplitude.eq_of_parts <;> simp [Amplitude.zero]

omit [CMath R] in
theorem blockGate_controlledNot {c q : Nat} (hn : n ≤ 31) (hc : c < n) (hq : q < n) (hne : c ≠ q)
    (hv : v.length = 2 * 2 ^ n) (hdim : gate.dimension = 4)
    (hentries : forall row col, row < 4 -> col < 4 ->
      gate.entry row col = (QuantumGate.ControlledNot : QuantumGate R).entry row col) :
    StateVector.blockGate gate [c, q] n v = StateVector.controlledNot n c q v := by
  have hvalid : ValidTargets [c, q] n gate.dimension := ValidTargets.two hc hq hne hdim
  have hbit : n - q - 1 < n := by omega
  refine StateVector.eq_of_pairs hbit (StateVector.length_blockGate hn hvalid hv)
    ((StateVector.length_pairKernel _ n _ v).trans hv) ?_
  intro t ht
  obtain ⟨block, control, hblock, hcontrol, hlo, hhi, hmask, _⟩ := exists_quad_block hc hq hne ht
  obtain ⟨hlo', hhi'⟩ := StateVector.ampAt_pairKernel
    (controlledNotPair (2 ^ (n - c - 1))) hbit hv ht
  rw [StateVector.controlledNot, hlo', hhi', controlledNotPair_snd]
  -- row `r` of the matrix has its one entry in column `pick r`
  have hrow : forall row pick, row < 4 -> pick < 4 ->
      (forall col, col < 4 -> gate.entry row col =
        if col = pick then ({ real := 1, imag := 0 } : Amplitude R) else Amplitude.zero) ->
      ampAt (StateVector.blockGate gate [c, q] n v) (blockState [c, q] n block row) =
        ampAt v (blockState [c, q] n block pick) := by
    intro row pick hrow hpick hone
    obtain ⟨amps, hamps, hprod⟩ := ampAt_blockGate_two gate hn hc hq hne hdim hv
      hblock hrow
    rw [hprod, rowProduct_single hpick (fun col hcol hcp => by rw [hone col hcol, if_neg hcp]),
      hone pick hpick, if_pos rfl, multiply_one, hamps pick hpick]
  have hentry : forall row col, row < 4 -> col < 4 -> gate.entry row col =
      if (row = 0 ∧ col = 0) ∨ (row = 1 ∧ col = 1) ∨ (row = 2 ∧ col = 3) ∨ (row = 3 ∧ col = 2) then
        ({ real := 1, imag := 0 } : Amplitude R)
      else Amplitude.zero := by
    intro row col hrow hcol
    rw [hentries row col hrow hcol, QuantumGate.ControlledNot,
      QuantumGate.entry_ofEntries _ hrow hcol]
  by_cases hzero : control = 0
  · subst hzero
    rw [if_pos (hmask.mpr rfl), hlo, hrow 0 0 (by decide) (by decide) (by
      intro col hcol
      rw [hentry 0 col (by decide) hcol]
      simp), ← hlo, hhi, hrow 1 1 (by decide) (by decide) (by
      intro col hcol
      rw [hentry 1 col (by decide) hcol]
      simp)]
    exact ⟨rfl, rfl⟩
  · have hone : control = 1 := by omega
    subst hone
    rw [if_neg (fun h => hzero (hmask.mp h)), hhi, hlo, hrow 2 3 (by decide) (by decide) (by
      intro col hcol
      rw [hentry 2 col (by decide) hcol]
      simp), hrow 3 2 (by decide) (by decide) (by
      intro col hcol
      rw [hentry 3 col (by decide) hcol]
      simp)]
    exact ⟨rfl, rfl⟩

theorem blockGate_controlledPhaseShift {c q : Nat} (theta : R) (hn : n ≤ 31) (hc : c < n)
    (hq : q < n) (hne : c ≠ q) (hv : v.length = 2 * 2 ^ n) (hdim : gate.dimension = 4)
    (hoff : forall row col, row < 4 -> col < 4 -> row ≠ col ->
      gate.entry row col = Amplitude.zero)
    (hone : forall row, row < 3 -> gate.entry row row = { real := 1, imag := 0 })
    (hphase : gate.entry 3 3 = { real := CMath.cos theta, imag := CMath.sin theta }) :
    StateVector.blockGate gate [c, q] n v =
      StateVector.controlledPhaseShift n c q theta v := by
  have hvalid : ValidTargets [c, q] n gate.dimension := ValidTargets.two hc hq hne hdim
  have hbit : n - q - 1 < n := by omega
  refine StateVector.eq_of_pairs hbit (StateVector.length_blockGate hn hvalid hv)
    ((StateVector.length_pairKernel _ n _ v).trans hv) ?_
  intro t ht
  obtain ⟨block, control, hblock, hcontrol, hlo, hhi, _, hmask⟩ := exists_quad_block hc hq hne ht
  obtain ⟨hlo', hhi'⟩ := StateVector.ampAt_pairKernel
    (controlledPhaseShiftPair (2 ^ (n - c - 1)) theta) hbit hv ht
  rw [StateVector.controlledPhaseShift, hlo', hhi', controlledPhaseShiftPair_snd]
  have hrow : forall row, row < 4 ->
      ampAt (StateVector.blockGate gate [c, q] n v) (blockState [c, q] n block row) =
        (gate.entry row row).multiply (ampAt v (blockState [c, q] n block row)) := by
    intro row hrow
    obtain ⟨amps, hamps, hprod⟩ := ampAt_blockGate_two gate hn hc hq hne hdim hv
      hblock hrow
    rw [hprod, rowProduct_single hrow (fun col hcol hcr => hoff row col hrow hcol (Ne.symm hcr)),
      hamps row hrow]
  by_cases hzero : control = 0
  · subst hzero
    rw [if_pos (hmask.mpr rfl), hhi, hlo, hrow _ (by decide), hrow _ (by decide),
      hone _ (by decide), hone _ (by decide), multiply_one, multiply_one]
    exact ⟨rfl, rfl⟩
  · have hset : control = 1 := by omega
    subst hset
    rw [if_neg (fun h => hzero (hmask.mp h)), hhi, hlo, hrow _ (by decide), hrow _ (by decide),
      hone _ (by decide), hphase, multiply_one]
    exact ⟨rfl, rfl⟩

end Engine

end Tmfqs
