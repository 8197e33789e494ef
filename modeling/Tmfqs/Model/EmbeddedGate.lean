import Tmfqs.Model.BitAction

/-!
# The embedded matrix of a gate

A gate on a list of qubits mixes the states that differ in the listed qubits only.
The row of a state and the states of its block are written out bit by bit here, and
the block engine is shown to compute the product with the embedded matrix.
-/

namespace Tmfqs

open Library

/-!
## Rows and replaced bits
-/

/-- The row of a state: its bits at the listed qubits, the first one most significant. -/
def rowIndex (n : Nat) : List Nat -> Nat -> Nat
  | [], _ => 0
  | q :: rest, s => (s.testBit (n - 1 - q)).toNat * 2 ^ rest.length + rowIndex n rest s

def writeBit (bit : Nat) (value : Bool) (s : Nat) : Nat :=
  if s.testBit bit = value then s else s ^^^ 2 ^ bit

def replaceBits (n c : Nat) : List Nat -> Nat -> Nat
  | [], s => s
  | q :: rest, s => writeBit (n - 1 - q) (c.testBit rest.length) (replaceBits n c rest s)

theorem testBit_writeBit (bit : Nat) (value : Bool) (s i : Nat) :
    (writeBit bit value s).testBit i = if i = bit then value else s.testBit i := by
  rw [writeBit]
  by_cases hsame : s.testBit bit = value
  · rw [if_pos hsame]
    by_cases hi : i = bit
    · rw [if_pos hi, hi, hsame]
    · rw [if_neg hi]
  · rw [if_neg hsame, testBit_xor_two_pow]
    by_cases hi : i = bit
    · rw [if_pos hi, if_pos hi, hi]
      exact (Bool.eq_not_of_ne fun h => hsame h.symm).symm
    · rw [if_neg hi, if_neg hi]

theorem writeBit_lt {n bit s : Nat} (value : Bool) (hbit : bit < n) (hs : s < 2 ^ n) :
    writeBit bit value s < 2 ^ n := by
  rw [writeBit]
  split
  · exact hs
  · exact xor_two_pow_lt hbit hs

section Rows

variable {n d : Nat} {qubits : List Nat}

theorem rowIndex_eq_gather (n : Nat) (qubits : List Nat) (s : Nat) :
    rowIndex n qubits s = gather (targetBits qubits n).reverse s := by
  induction qubits with
  | nil => rfl
  | cons q rest ih =>
      have hbit : n - q - 1 = n - 1 - q := by omega
      have hlen : (targetBits rest n).reverse.length = rest.length := by simp [targetBits]
      have hcons : (targetBits (q :: rest) n).reverse =
          (targetBits rest n).reverse ++ [n - 1 - q] := by
        simp [targetBits, hbit]
      rw [rowIndex, ih, hcons, gather_append, hlen]
      simp only [gather, Nat.bit_val]
      ring

theorem testBit_replaceBits_of_not_mem (c s i : Nat) (h : i ∉ targetBits qubits n) :
    (replaceBits n c qubits s).testBit i = s.testBit i := by
  induction qubits with
  | nil => rfl
  | cons q rest ih =>
      have hsplit : i ≠ n - q - 1 ∧ i ∉ targetBits rest n := by
        simpa [targetBits] using h
      rw [replaceBits, testBit_writeBit, if_neg (by have := hsplit.left; omega),
        ih hsplit.right]

theorem replaceBits_lt (c : Nat) {s : Nat} (hrange : forall q, q ∈ qubits -> q < n)
    (hs : s < 2 ^ n) : replaceBits n c qubits s < 2 ^ n := by
  induction qubits with
  | nil => exact hs
  | cons q rest ih =>
      have hq := hrange q List.mem_cons_self
      exact writeBit_lt _ (by omega) (ih fun r hr => hrange r (List.mem_cons_of_mem q hr))

theorem rowIndex_replaceBits (s : Nat) (hrange : forall q, q ∈ qubits -> q < n)
    (hnodup : qubits.Nodup) :
    forall c, c < 2 ^ qubits.length -> rowIndex n qubits (replaceBits n c qubits s) = c := by
  have hbits : forall (l : List Nat) (x y : Nat),
      (forall q, q ∈ l -> x.testBit (n - 1 - q) = y.testBit (n - 1 - q)) ->
      rowIndex n l x = rowIndex n l y := by
    intro l x y
    induction l with
    | nil =>
        intro _
        rfl
    | cons q rest ih =>
        intro h
        rw [rowIndex, rowIndex, h q List.mem_cons_self,
          ih fun r hr => h r (List.mem_cons_of_mem q hr)]
  have hmod : forall (l : List Nat), (forall q, q ∈ l -> q < n) -> l.Nodup -> forall c,
      rowIndex n l (replaceBits n c l s) = c % 2 ^ l.length := by
    intro l
    induction l with
    | nil =>
        intro _ _ c
        rw [List.length_nil, pow_zero, Nat.mod_one]
        rfl
    | cons q rest ih =>
        intro hlt hdistinct c
        rcases List.nodup_cons.mp hdistinct with ⟨hnot, hrest⟩
        have hq := hlt q List.mem_cons_self
        have hkeep : rowIndex n rest (replaceBits n c (q :: rest) s) =
            rowIndex n rest (replaceBits n c rest s) := by
          apply hbits
          intro r hr
          have hrn := hlt r (List.mem_cons_of_mem q hr)
          have hqr : q ≠ r := fun heq => hnot (heq ▸ hr)
          rw [replaceBits, testBit_writeBit, if_neg (by omega)]
        rw [rowIndex, hkeep, ih (fun r hr => hlt r (List.mem_cons_of_mem q hr)) hrest,
          replaceBits, testBit_writeBit, if_pos rfl, List.length_cons, mod_two_pow_succ]
        ring
  intro c hc
  rw [hmod qubits hrange hnodup c, Nat.mod_eq_of_lt hc]

theorem exists_block_of_state (h : ValidTargets qubits n d) {s : Nat} (hs : s < 2 ^ n) :
    exists block, block < 2 ^ (n - qubits.length) ∧ rowIndex n qubits s < 2 ^ qubits.length ∧
      s = blockState qubits n block (rowIndex n qubits s) ∧
      forall c, c < 2 ^ qubits.length ->
        replaceBits n c qubits s = blockState qubits n block c := by
  have hsplit := splits_otherBits h
  have hlen : (targetBits qubits n).reverse.length = qubits.length := by simp [targetBits]
  have hjoin : forall x, x < 2 ^ n ->
      x = blockState qubits n (gather (otherBits qubits n) x) (rowIndex n qubits x) := by
    intro x hx
    rw [rowIndex_eq_gather]
    exact (hsplit.join_gather hx).symm
  exists gather (otherBits qubits n) s
  constructor
  · rw [← length_otherBits h]
    exact gather_lt _ s
  constructor
  · rw [rowIndex_eq_gather, ← hlen]
    exact gather_lt _ s
  constructor
  · exact hjoin s hs
  · intro c hc
    have hother : gather (otherBits qubits n) (replaceBits n c qubits s) =
        gather (otherBits qubits n) s := by
      apply gather_congr
      intro p hp
      apply testBit_replaceBits_of_not_mem
      intro hmem
      exact hsplit.disjoint p hp (List.mem_reverse.mpr hmem)
    have hblock := hjoin _ (replaceBits_lt c h.inRange hs)
    rwa [hother, rowIndex_replaceBits s h.inRange h.nodup c hc] at hblock

end Rows

/-!
## The product with the embedded matrix
-/

section Product

variable {n : Nat} {gate : QuantumGate Real} {qubits : List Nat} {v : List Real}

/-- The entries of the embedded matrix times the vector, at one state. -/
noncomputable def embeddedProduct (gate : QuantumGate Real) (qubits : List Nat) (n : Nat)
    (v : List Real) (s : Nat) : Complex :=
  ∑ c ∈ Finset.range (2 ^ qubits.length),
    (gate.entry (rowIndex n qubits s) c).toComplex *
      (ampAt v (replaceBits n c qubits s)).toComplex

theorem toComplex_blockGate (hn : n ≤ 31) (h : ValidTargets qubits n gate.dimension)
    (hv : v.length = 2 * 2 ^ n) {block row : Nat} (hblock : block < 2 ^ (n - qubits.length))
    (hrow : row < 2 ^ qubits.length) :
    (ampAt (StateVector.blockGate gate qubits n v) (blockState qubits n block row)).toComplex =
      ∑ c ∈ Finset.range (2 ^ qubits.length),
        (gate.entry row c).toComplex * (ampAt v (blockState qubits n block c)).toComplex := by
  rw [ampAt_blockGate hn h hv hblock hrow, blockProduct, toComplex_rowProduct_sum]
  apply Finset.sum_congr rfl
  intro c hc
  rw [getD_blockAmps qubits block (Finset.mem_range.mp hc)]

/-- Every amplitude after the block engine is its entry of the embedded product. -/
theorem complexAt_blockGate (hn : n ≤ 31) (h : ValidTargets qubits n gate.dimension)
    (hv : v.length = 2 * 2 ^ n) {s : Nat} (hs : s < 2 ^ n) :
    (ampAt (StateVector.blockGate gate qubits n v) s).toComplex =
      embeddedProduct gate qubits n v s := by
  rcases exists_block_of_state h hs with ⟨block, hblock, hrow, hstate, hreplace⟩
  have hamp := toComplex_blockGate hn h hv hblock hrow
  rw [← hstate] at hamp
  rw [hamp, embeddedProduct]
  apply Finset.sum_congr rfl
  intro c hc
  rw [hreplace c (Finset.mem_range.mp hc)]

end Product

/-!
## The swap gate
-/

section Swap

variable {n : Nat} {v : List Real}

theorem swapBits_eq_writeBit (a b s : Nat) :
    StateVector.swapBits a b s = writeBit a (s.testBit b) (writeBit b (s.testBit a) s) := by
  apply Nat.eq_of_testBit_eq
  intro i
  rw [StateVector.testBit_swapBits, testBit_writeBit, testBit_writeBit]
  split_ifs <;> rfl

theorem blockGate_swap {a b : Nat} (hn : n ≤ 31) (ha : a < n) (hb : b < n) (hne : a ≠ b)
    (hv : v.length = 2 * 2 ^ n) :
    StateVector.blockGate QuantumGate.Swap [a, b] n v = StateVector.swap n a b v := by
  have hvalid : ValidTargets [a, b] n (QuantumGate.Swap : QuantumGate Real).dimension :=
    ValidTargets.two ha hb hne rfl
  have hlen : (StateVector.swap n a b v).length = 2 * 2 ^ n := by
    rw [StateVector.swap, StateVector.controlledNot, StateVector.controlledNot,
      StateVector.controlledNot, StateVector.length_pairKernel, StateVector.length_pairKernel,
      StateVector.length_pairKernel, hv]
  apply eq_of_ampAt (StateVector.length_blockGate hn hvalid hv) hlen
  intro s hs
  apply Amplitude.toComplex_injective
  rw [complexAt_blockGate hn hvalid hv hs, StateVector.ampAt_swap ha hb hne hv hs,
    embeddedProduct, swapBits_eq_writeBit]
  have hbits : forall q, n - q - 1 = n - 1 - q := by
    intro q
    omega
  have hentry : forall row col, row < 4 -> col < 4 ->
      (QuantumGate.Swap : QuantumGate Real).entry row col =
        if (row = 0 ∧ col = 0) ∨ (row = 1 ∧ col = 2) ∨ (row = 2 ∧ col = 1) ∨
            (row = 3 ∧ col = 3) then
          ({ real := 1, imag := 0 } : Amplitude Real)
        else Amplitude.zero :=
    fun row col hrow hcol => QuantumGate.entry_ofEntries _ hrow hcol
  have hone : ({ real := 1, imag := 0 } : Amplitude Real).toComplex = 1 := rfl
  have h1 : (1 : Nat).testBit 1 = false := by decide
  have h2 : (2 : Nat).testBit 1 = true ∧ (2 : Nat).testBit 0 = false := by decide
  have h3 : (3 : Nat).testBit 1 = true ∧ (3 : Nat).testBit 0 = true := by decide
  have hrange : Finset.range (2 ^ [a, b].length) = {0, 1, 2, 3} := rfl
  rw [hrange, hbits a, hbits b]
  -- one row for each value of the two bits, with its one entry in the exchanged column
  cases hsa : s.testBit (n - 1 - a) <;> cases hsb : s.testBit (n - 1 - b) <;>
    simp [rowIndex, replaceBits, hsa, hsb, hentry, hone, h1, h2, h3]

end Swap

/-!
## The three branches
-/

section Branches

variable {R : Type} [Field R] [DecidableEq R] {σ : Type}

/-- The branch of `applyGateByBlocks` for three and more qubits. -/
def generalBranch (gate : QuantumGate R) (layout : GateBlockLayout)
    (loadAmplitude : Nat -> Call σ (Amplitude R))
    (storeAmplitude : Nat -> Amplitude R -> Call σ PUnit) : Call σ PUnit :=
  (List.range layout.numBlocks).forM fun block =>
    let baseState := composeBaseStateFromBlock block layout.nonTargetPositions
    applyBlock gate (layout.blockOffsets.map fun offset => baseState ||| offset)
      loadAmplitude storeAmplitude

theorem gateApplyEngine_eq_general (scopeName : String) {gate : QuantumGate R}
    {qubits : List Nat} {n : Nat} (hn : n ≤ 31) (h : ValidTargets qubits n gate.dimension)
    (loadAmplitude : Nat -> Call σ (Amplitude R))
    (storeAmplitude : Nat -> Amplitude R -> Call σ PUnit) :
    GateApplyEngine.apply scopeName gate qubits n loadAmplitude storeAmplitude = (do
      let layout <- makeGateBlockLayout qubits n
      generalBranch gate layout loadAmplitude storeAmplitude) := by
  have hother : forall p, p ∈ otherBits qubits n -> p < 32 := by
    intro p hp
    have hlt := ((splits_otherBits h).cover p).mpr (Or.inl hp)
    omega
  rw [gateApplyEngine_eq scopeName gate hn h, makeGateBlockLayout_eq hn h, pure_bind,
    generalBranch]
  congr 1
  funext block
  simp only [blockIndices, composeBaseStateFromBlock_eq block hother, List.map_map,
    Function.comp_def]
  rfl

end Branches

/--
The engine on a plain amplitude array multiplies it by the embedded matrix, and all its
branches compute what the general one does.
-/
theorem gateApplyEngine_embeds (scopeName : String) {n : Nat} (hn : n ≤ 31)
    {qubits : List Nat} (hrange : forall q, q ∈ qubits -> q < n) (hnodup : qubits.Nodup)
    {gate : QuantumGate Real} (hdim : gate.dimension = 2 ^ qubits.length)
    {a : List Real} (ha : a.length = 2 * 2 ^ n) :
    (exists a', GateApplyEngine.apply scopeName gate qubits n loadState storeState a =
        (.ok ⟨⟩, a') ∧
      a'.length = 2 * 2 ^ n ∧
      forall s, s < 2 ^ n ->
        (ampAt a' s).toComplex =
          ∑ c ∈ Finset.range (2 ^ qubits.length),
            (gate.entry (rowIndex n qubits s) c).toComplex *
              (ampAt a (replaceBits n c qubits s)).toComplex) ∧
      GateApplyEngine.apply scopeName gate qubits n loadState storeState a =
        (do
          let layout <- makeGateBlockLayout qubits n
          generalBranch gate layout loadState storeState) a := by
  have htargets : ValidTargets qubits n gate.dimension :=
    { dimension := hdim
      inRange := hrange
      nodup := hnodup }
  constructor
  · rcases (post_gateApplyEngine scopeName hn htargets ha).exists_ok with ⟨_, a', hrun, hlen, _⟩
    have hvector : StateVector.blockGate gate qubits n a = a' := by
      rw [StateVector.blockGate, gateApplyEngine_eq "" gate hn htargets,
        ← gateApplyEngine_eq scopeName gate hn htargets, hrun]
    exists a'
    constructor
    · exact hrun
    constructor
    · exact hlen.trans ha
    · intro s hs
      have hamp := complexAt_blockGate hn htargets ha hs
      rwa [hvector] at hamp
  · rw [gateApplyEngine_eq_general scopeName hn htargets]

theorem gateApplyEngine_embeds_pauliX :
    (exists a', GateApplyEngine.apply "" QuantumGate.PauliX [1] 2 loadState storeState
        [(1 : Real), 0, 2, 0, 3, 0, 4, 0] = (.ok ⟨⟩, a') ∧
      a'.length = 2 * 2 ^ 2 ∧
      forall s, s < 2 ^ 2 ->
        (ampAt a' s).toComplex =
          ∑ c ∈ Finset.range (2 ^ [1].length),
            ((QuantumGate.PauliX : QuantumGate Real).entry (rowIndex 2 [1] s) c).toComplex *
              (ampAt [(1 : Real), 0, 2, 0, 3, 0, 4, 0] (replaceBits 2 c [1] s)).toComplex) ∧
      GateApplyEngine.apply "" QuantumGate.PauliX [1] 2 loadState storeState
          [(1 : Real), 0, 2, 0, 3, 0, 4, 0] =
        (do
          let layout <- makeGateBlockLayout [1] 2
          generalBranch QuantumGate.PauliX layout loadState storeState)
          [(1 : Real), 0, 2, 0, 3, 0, 4, 0] := by
  apply gateApplyEngine_embeds "" (by decide)
  · intro q hq
    rw [List.mem_singleton.mp hq]
    decide
  · exact List.nodup_singleton 1
  · rfl
  · rfl

end Tmfqs
