import Mathlib.Tactic.Ring
import Tmfqs.Storage.GateBlockApply

/-!
# What the block gate engine computes

The three branches of `applyGateByBlocks` run one and the same program.  On an
amplitude buffer that program leaves in every state the product of the gate row
with the amplitudes its block had before the call.
-/

namespace Tmfqs

open Library

def targetBits (qubits : List Nat) (numQubits : Nat) : List Nat :=
  qubits.map fun qubit => numQubits - qubit - 1

def otherBits (qubits : List Nat) (numQubits : Nat) : List Nat :=
  (List.range numQubits).filter fun bit => bit ∉ targetBits qubits numQubits

def blockState (qubits : List Nat) (numQubits block row : Nat) : Nat :=
  scatter (otherBits qubits numQubits) block |||
    scatter (targetBits qubits numQubits).reverse row

def blockIndices (qubits : List Nat) (numQubits block : Nat) : List Nat :=
  (List.range (2 ^ qubits.length)).map (blockState qubits numQubits block)

section Bits

variable {qubits : List Nat} {n d : Nat}

theorem targetBits_nodup (h : ValidTargets qubits n d) :
    (targetBits qubits n).Nodup := by
  apply List.Nodup.map_on _ h.nodup
  intro q hq r hr heq
  have hq' := h.inRange q hq
  have hr' := h.inRange r hr
  omega

theorem mem_targetBits_lt (h : ValidTargets qubits n d) {p : Nat}
    (hp : p ∈ targetBits qubits n) : p < n := by
  rcases List.mem_map.mp hp with ⟨q, hq, rfl⟩
  have hq' := h.inRange q hq
  omega

theorem splits_otherBits (h : ValidTargets qubits n d) :
    Splits (otherBits qubits n) (targetBits qubits n).reverse n where
  nodupLeft := List.Nodup.filter _ List.nodup_range
  nodupRight := List.nodup_reverse.mpr (targetBits_nodup h)
  disjoint := by
    intro p hp
    simp only [otherBits, List.mem_filter, decide_eq_true_eq] at hp
    simpa using hp.2
  cover := by
    intro p
    simp only [otherBits, List.mem_filter, List.mem_range, decide_eq_true_eq,
      List.mem_reverse]
    constructor
    · intro hp
      by_cases hmem : p ∈ targetBits qubits n
      · exact Or.inr hmem
      · exact Or.inl ⟨hp, hmem⟩
    · rintro (⟨hp, _⟩ | hp)
      · exact hp
      · exact mem_targetBits_lt h hp

theorem length_otherBits (h : ValidTargets qubits n d) :
    (otherBits qubits n).length = n - qubits.length := by
  have hsplit := splits_otherBits h
  have hperm : (otherBits qubits n ++ (targetBits qubits n).reverse).Perm
      (List.range n) := by
    apply (List.perm_ext_iff_of_nodup _ List.nodup_range).mpr
    · intro p
      rw [List.mem_append, List.mem_range]
      exact (hsplit.cover p).symm
    · exact List.nodup_append.mpr
        ⟨hsplit.nodupLeft, hsplit.nodupRight, by
          intro p hp q hq heq
          exact hsplit.disjoint p hp (heq ▸ hq)⟩
  have hlen := hperm.length_eq
  simp [targetBits] at hlen
  omega

theorem blockState_lt (h : ValidTargets qubits n d) (block row : Nat) :
    blockState qubits n block row < 2 ^ n :=
  (splits_otherBits h).join_lt block row

theorem blockState_inj (h : ValidTargets qubits n d) {block block' row row' : Nat}
    (hblock : block < 2 ^ (n - qubits.length))
    (hblock' : block' < 2 ^ (n - qubits.length))
    (hrow : row < 2 ^ qubits.length) (hrow' : row' < 2 ^ qubits.length)
    (heq : blockState qubits n block row = blockState qubits n block' row') :
    block = block' ∧ row = row' := by
  have hsplit := splits_otherBits h
  rw [← length_otherBits h] at hblock hblock'
  have hlen : (targetBits qubits n).reverse.length = qubits.length := by
    simp [targetBits]
  rw [← hlen] at hrow hrow'
  constructor
  · rw [← hsplit.gather_left row hblock, ← hsplit.gather_left row' hblock']
    exact congrArg _ heq
  · rw [← hsplit.gather_right block hrow, ← hsplit.gather_right block' hrow']
    exact congrArg _ heq

theorem exists_blockState (h : ValidTargets qubits n d) {s : Nat} (hs : s < 2 ^ n) :
    exists block row, block < 2 ^ (n - qubits.length) ∧ row < 2 ^ qubits.length ∧
      s = blockState qubits n block row := by
  have hsplit := splits_otherBits h
  refine ⟨gather (otherBits qubits n) s, gather (targetBits qubits n).reverse s, ?_, ?_, ?_⟩
  · rw [← length_otherBits h]
    exact gather_lt _ s
  · have hlt := gather_lt (targetBits qubits n).reverse s
    simpa [targetBits] using hlt
  · exact (hsplit.join_gather hs).symm

end Bits

/-!
## One program for the three branches
-/

section Program

variable {R : Type} [Field R] [DecidableEq R] {σ : Type}

omit [DecidableEq R] in
theorem rowProduct_pair (gate : QuantumGate R) (row : Nat) (a0 a1 : Amplitude R) :
    rowProduct gate 2 row [a0, a1] =
      { real := (gate.entry row 0).real * a0.real - (gate.entry row 0).imag * a0.imag +
          (gate.entry row 1).real * a1.real - (gate.entry row 1).imag * a1.imag
        imag := (gate.entry row 0).real * a0.imag + (gate.entry row 0).imag * a0.real +
          (gate.entry row 1).real * a1.imag + (gate.entry row 1).imag * a1.real } := by
  have hrange : List.range 2 = [0, 1] := rfl
  apply Amplitude.eq_of_parts
  · simp [rowProduct, hrange, Amplitude.zero]
    ring
  · simp [rowProduct, hrange, Amplitude.zero]
    ring

theorem makeGateBlockLayout_eq {qubits : List Nat} {n d : Nat} (hn : n ≤ 31)
    (h : ValidTargets qubits n d) :
    (makeGateBlockLayout qubits n : Call σ GateBlockLayout) = pure
      { numQubits := n
        activeQubits := qubits.length
        numBlocks := 2 ^ (n - qubits.length)
        blockSize := 2 ^ qubits.length
        targetPositions := targetBits qubits n
        targetMasks := (targetBits qubits n).map fun bit => u32 (1 <<< bit)
        nonTargetPositions := otherBits qubits n
        blockOffsets := (List.range (2 ^ qubits.length)).map
          (scatter (targetBits qubits n).reverse) } := by
  have hlen := h.length_le
  have hk : u32 qubits.length = qubits.length := u32_of_lt (by omega)
  have hoffsets :
      blockOffset qubits.length ((targetBits qubits n).map fun bit => u32 (1 <<< bit)) =
        scatter (targetBits qubits n).reverse := by
    funext idx
    have hbits := blockOffset_eq (targetBits qubits n)
      (fun p hp => by have hlt := mem_targetBits_lt h hp; omega) idx
    simpa [targetBits] using hbits
  have htargets : (qubits.map fun qubit => n - qubit - 1) = targetBits qubits n := rfl
  rw [makeGateBlockLayout, hk, checkedStateCount_eq (by omega), checkedStateCount_eq (by omega)]
  simp only [pure_bind]
  rw [u32_of_lt (two_pow_lt_u32 (by omega)), u32_of_lt (two_pow_lt_u32 (by omega)),
    htargets, hoffsets]
  rfl

theorem applyBlock_pair (gate : QuantumGate R) (s0 s1 : Nat)
    (loadAmplitude : Nat -> Call σ (Amplitude R))
    (storeAmplitude : Nat -> Amplitude R -> Call σ PUnit) :
    applyBlock gate [s0, s1] loadAmplitude storeAmplitude = (do
      let a0 <- loadAmplitude s0
      let a1 <- loadAmplitude s1
      if (a0.real = 0 ∧ a0.imag = 0) ∧ (a1.real = 0 ∧ a1.imag = 0) then
        pure ⟨⟩
      else
        storeAmplitude s0 (rowProduct gate 2 0 [a0, a1])
        storeAmplitude s1 (rowProduct gate 2 1 [a0, a1])) := by
  have hrange : List.range 2 = [0, 1] := rfl
  simp [applyBlock, List.mapM_cons, allZero, hrange, List.forM_cons]

theorem gateApplyEngine_eq (scopeName : String) (gate : QuantumGate R)
    {qubits : List Nat} {n : Nat} (hn : n ≤ 31)
    (h : ValidTargets qubits n gate.dimension)
    (loadAmplitude : Nat -> Call σ (Amplitude R))
    (storeAmplitude : Nat -> Amplitude R -> Call σ PUnit) :
    GateApplyEngine.apply scopeName gate qubits n loadAmplitude storeAmplitude =
      (List.range (2 ^ (n - qubits.length))).forM fun block =>
        applyBlock gate (blockIndices qubits n block) loadAmplitude storeAmplitude := by
  have hother : forall p, p ∈ otherBits qubits n -> p < 32 := by
    intro p hp
    have hlt := ((splits_otherBits h).cover p).mpr (Or.inl hp)
    omega
  have hdim : ¬ gate.dimension < 2 ^ qubits.length := by
    rw [h.dimension]
    exact Nat.lt_irrefl _
  rw [GateApplyEngine.apply, validateGateTargets_ok scopeName hn h,
    makeGateBlockLayout_eq hn h]
  simp only [pure_bind, applyGateByBlocks, composeBaseStateFromBlock_eq _ hother]
  rw [if_neg hdim]
  by_cases hone : qubits.length = 1
  · rw [if_pos hone]
    obtain ⟨q, rfl⟩ := List.length_eq_one_iff.mp hone
    have hq : n - q - 1 < 32 := by omega
    have hmask : u32 (1 <<< (n - q - 1)) = 2 ^ (n - q - 1) := by
      rw [Nat.one_shiftLeft, u32_of_lt (Nat.pow_lt_pow_right (by decide) hq)]
    have hrange : List.range 2 = [0, 1] := rfl
    congr 1
    funext block
    have hindices : blockIndices [q] n block =
        [scatter (otherBits [q] n) block,
          scatter (otherBits [q] n) block ||| 2 ^ (n - q - 1)] := by
      simp [blockIndices, blockState, targetBits, hrange, scatter]
    rw [hindices, applyBlock_pair]
    simp only [rowProduct_pair, targetBits, List.map_cons, List.map_nil,
      List.getD_cons_zero, hmask]
  · rw [if_neg hone]
    by_cases htwo : qubits.length = 2
    · rw [if_pos htwo]
      obtain ⟨q, r, rfl⟩ := List.length_eq_two.mp htwo
      have hmask : forall x, u32 (1 <<< (n - x - 1)) = 2 ^ (n - x - 1) := by
        intro x
        rw [Nat.one_shiftLeft,
          u32_of_lt (Nat.pow_lt_pow_right (by decide) (by omega))]
      have hrange : List.range 4 = [0, 1, 2, 3] := rfl
      have hthree : Nat.testBit 3 0 = true := rfl
      congr 1
      funext block
      have hindices : blockIndices [q, r] n block =
          [scatter (otherBits [q, r] n) block,
            scatter (otherBits [q, r] n) block ||| 2 ^ (n - r - 1),
            scatter (otherBits [q, r] n) block ||| 2 ^ (n - q - 1),
            scatter (otherBits [q, r] n) block ||| 2 ^ (n - q - 1) |||
              2 ^ (n - r - 1)] := by
        simp [blockIndices, blockState, targetBits, hrange, scatter, Nat.or_assoc,
          Nat.or_comm (2 ^ (n - r - 1))]
      rw [hindices]
      simp only [targetBits, List.map_cons, List.map_nil,
        List.getD_cons_zero, List.getD_cons_succ, hmask]
    · rw [if_neg htwo]
      congr 1
      funext block
      simp only [blockIndices, List.map_map, Function.comp_def]
      rfl

end Program

/-!
## The engine on an amplitude buffer
-/

section Vector

variable {R : Type} [Field R] [DecidableEq R]

def loadState (state : Nat) : Call (List R) (Amplitude R) := do
  let v <- get
  pure (ampAt v state)

def storeState (state : Nat) (amp : Amplitude R) : Call (List R) PUnit :=
  modify fun v => setAmp v state amp

omit [DecidableEq R] in
theorem mapM_loadState (v : List R) (indices : List Nat) :
    (indices.mapM loadState) v = (.ok (indices.map (ampAt v)), v) := by
  induction indices with
  | nil => rfl
  | cons s rest ih =>
      have hload : loadState s v = (.ok (ampAt v s), v) := rfl
      rw [List.mapM_cons, Call.bind_ok hload, Call.bind_ok ih]
      rfl

omit [DecidableEq R] in
theorem rowProduct_of_zero (gate : QuantumGate R) (blockSize row : Nat)
    {localAmps : List (Amplitude R)}
    (h : forall col, localAmps.getD col Amplitude.zero = Amplitude.zero) :
    rowProduct gate blockSize row localAmps = Amplitude.zero := by
  unfold rowProduct
  induction List.range blockSize with
  | nil => rfl
  | cons col rest ih =>
      rw [List.foldl_cons, h col]
      simpa [Amplitude.zero] using ih

theorem getD_of_allZero {localAmps : List (Amplitude R)}
    (h : allZero localAmps = true) (col : Nat) :
    localAmps.getD col Amplitude.zero = Amplitude.zero := by
  rw [List.getD_eq_getElem?_getD]
  cases hget : localAmps[col]? with
  | none => rfl
  | some a =>
      have ha := List.all_eq_true.mp h a (List.mem_of_getElem? hget)
      rw [decide_eq_true_eq] at ha
      exact Amplitude.eq_of_parts ha.1 ha.2

/-- What one block leaves behind: its rows, and all other states as they were. -/
structure BlockDone (gate : QuantumGate R) (indices : List Nat) (v v' : List R) : Prop where
  length : v'.length = v.length
  row : forall row, row < indices.length ->
    ampAt v' (indices.getD row 0) =
      rowProduct gate indices.length row (indices.map (ampAt v))
  frame : forall s, s ∉ indices -> ampAt v' s = ampAt v s

theorem post_applyBlock (gate : QuantumGate R) {indices : List Nat} {v : List R}
    (hnodup : indices.Nodup)
    (hrange : forall s, s ∈ indices -> 2 * s + 1 < v.length) :
    Call.Post (applyBlock gate indices loadState storeState) v
      (fun _ v' => BlockDone gate indices v v') (fun _ _ => False) := by
  have hmem : forall row, row < indices.length -> indices.getD row 0 ∈ indices := by
    intro row hrow
    rw [List.getD_eq_getElem?_getD, List.getElem?_eq_getElem hrow]
    exact List.getElem_mem hrow
  rw [applyBlock, Call.post_bind_iff]
  refine Call.post_of_ok (mapM_loadState v indices) ?_
  by_cases hzero : allZero (indices.map (ampAt v)) = true
  · rw [if_pos hzero]
    refine ⟨rfl, ?_, fun _ _ => rfl⟩
    intro row hrow
    rw [rowProduct_of_zero gate _ row (getD_of_allZero hzero)]
    have hget := getD_of_allZero hzero row
    rw [List.getD_eq_getElem?_getD, List.getElem?_map,
      List.getElem?_eq_getElem hrow] at hget
    rw [List.getD_eq_getElem?_getD, List.getElem?_eq_getElem hrow]
    exact hget
  · rw [if_neg hzero]
    have hloop := Call.post_forM_range (E := fun _ _ => False) (s := v)
      (n := indices.length)
      (f := fun row => storeState (indices.getD row 0)
        (rowProduct gate indices.length row (indices.map (ampAt v))))
      (fun done v' => v'.length = v.length ∧
        (forall row, row < done -> ampAt v' (indices.getD row 0) =
          rowProduct gate indices.length row (indices.map (ampAt v))) ∧
        forall s, s ∉ indices -> ampAt v' s = ampAt v s)
      (by
        rintro i v' hi ⟨hlen, hrows, hframe⟩
        have hlt : 2 * indices.getD i 0 + 1 < v'.length := by
          rw [hlen]
          exact hrange _ (hmem i hi)
        simp only [storeState, Call.post_modify]
        refine ⟨by simpa using hlen, ?_, ?_⟩
        · intro row hrow
          rw [ampAt_setAmp _ _ hlt]
          by_cases heq : row = i
          · subst heq
            rw [if_pos rfl]
          · have hne : indices.getD row 0 ≠ indices.getD i 0 := by
              have hrow' : row < indices.length := by omega
              rw [List.getD_eq_getElem?_getD, List.getD_eq_getElem?_getD,
                List.getElem?_eq_getElem hrow', List.getElem?_eq_getElem hi]
              intro hval
              exact heq ((List.Nodup.getElem_inj_iff hnodup).mp hval)
            rw [if_neg hne]
            exact hrows row (by omega)
        · intro s hs
          have hne : s ≠ indices.getD i 0 := by
            intro heq
            exact hs (heq ▸ hmem i hi)
          rw [ampAt_setAmp _ _ hlt, if_neg hne]
          exact hframe s hs)
      ⟨rfl, fun row hrow => absurd hrow (Nat.not_lt_zero row), fun _ _ => rfl⟩
    exact hloop.mono (fun _ _ h => ⟨h.1, h.2.1, h.2.2⟩)

def blockProduct (gate : QuantumGate R) (qubits : List Nat) (n block row : Nat)
    (v : List R) : Amplitude R :=
  rowProduct gate (2 ^ qubits.length) row ((blockIndices qubits n block).map (ampAt v))

variable {qubits : List Nat} {n : Nat} {gate : QuantumGate R}

theorem getD_blockIndices (block : Nat) {row : Nat} (hrow : row < 2 ^ qubits.length) :
    (blockIndices qubits n block).getD row 0 = blockState qubits n block row := by
  simp [blockIndices, List.getD_eq_getElem?_getD, hrow]

omit [Field R] [DecidableEq R] in
theorem blockIndices_nodup (h : ValidTargets qubits n gate.dimension) {block : Nat}
    (hblock : block < 2 ^ (n - qubits.length)) : (blockIndices qubits n block).Nodup := by
  apply List.Nodup.map_on _ List.nodup_range
  intro row hrow row' hrow' heq
  exact (blockState_inj h hblock hblock (List.mem_range.mp hrow)
    (List.mem_range.mp hrow') heq).2

omit [Field R] [DecidableEq R] in
theorem blockState_not_mem (h : ValidTargets qubits n gate.dimension)
    {block block' row : Nat}
    (hblock : block < 2 ^ (n - qubits.length))
    (hblock' : block' < 2 ^ (n - qubits.length))
    (hrow : row < 2 ^ qubits.length) (hne : block ≠ block') :
    blockState qubits n block row ∉ blockIndices qubits n block' := by
  intro hmem
  rcases List.mem_map.mp hmem with ⟨row', hrow', heq⟩
  exact hne (blockState_inj h hblock' hblock (List.mem_range.mp hrow') hrow heq).1.symm

theorem post_gateApplyEngine (scopeName : String) (hn : n ≤ 31)
    (h : ValidTargets qubits n gate.dimension) {v : List R}
    (hv : v.length = 2 * 2 ^ n) :
    Call.Post (GateApplyEngine.apply scopeName gate qubits n loadState storeState) v
      (fun _ v' => v'.length = v.length ∧
        forall block row, block < 2 ^ (n - qubits.length) -> row < 2 ^ qubits.length ->
          ampAt v' (blockState qubits n block row) = blockProduct gate qubits n block row v)
      (fun _ _ => False) := by
  rw [gateApplyEngine_eq scopeName gate hn h]
  have hindices : forall block, (blockIndices qubits n block).length = 2 ^ qubits.length := by
    intro block
    simp [blockIndices]
  have hloop := Call.post_forM_range (E := fun _ _ => False) (s := v)
    (n := 2 ^ (n - qubits.length))
    (f := fun block => applyBlock gate (blockIndices qubits n block) loadState storeState)
    (fun done v' => v'.length = v.length ∧
      forall block row, block < 2 ^ (n - qubits.length) -> row < 2 ^ qubits.length ->
        ampAt v' (blockState qubits n block row) =
          if block < done then blockProduct gate qubits n block row v
          else ampAt v (blockState qubits n block row))
    (by
      rintro i v' hi ⟨hlen, hblocks⟩
      have hrange : forall s, s ∈ blockIndices qubits n i -> 2 * s + 1 < v'.length := by
        intro s hs
        rcases List.mem_map.mp hs with ⟨row, _, rfl⟩
        have hlt := blockState_lt h i row
        omega
      refine (post_applyBlock gate (blockIndices_nodup h hi) hrange).mono ?_
      intro _ v'' hdone
      refine ⟨hdone.length.trans hlen, ?_⟩
      intro block row hblock hrow
      by_cases heq : block = i
      · subst heq
        rw [if_pos (Nat.lt_succ_self block)]
        have hsame : (blockIndices qubits n block).map (ampAt v') =
            (blockIndices qubits n block).map (ampAt v) := by
          apply List.map_congr_left
          intro s hs
          rcases List.mem_map.mp hs with ⟨row', hrow', rfl⟩
          rw [hblocks block row' hblock (List.mem_range.mp hrow'),
            if_neg (Nat.lt_irrefl block)]
        have hrowDone := hdone.row row (by rw [hindices]; exact hrow)
        rw [getD_blockIndices block hrow, hindices, hsame] at hrowDone
        exact hrowDone
      · rw [hdone.frame _ (blockState_not_mem h hblock hi hrow heq),
          hblocks block row hblock hrow]
        have hiff : block < i <-> block < i + 1 := by omega
        simp only [hiff])
    ⟨rfl, fun block row _ _ => by rw [if_neg (Nat.not_lt_zero block)]⟩
  refine hloop.mono ?_
  rintro _ v' ⟨hlen, hblocks⟩
  refine ⟨hlen, ?_⟩
  intro block row hblock hrow
  rw [hblocks block row hblock hrow, if_pos hblock]

end Vector

end Tmfqs
