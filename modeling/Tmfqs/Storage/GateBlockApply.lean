import Tmfqs.Core.Amplitudes
import Tmfqs.Core.Validation
import Tmfqs.Gates.QuantumGate
import Tmfqs.Library.Scatter

/-!
# Block gate engine

`applyGateByBlocks` multiplies a gate matrix into the amplitudes of every block
of states that differ only in the target qubits.  The engine reads and writes
amplitudes through callbacks, so that both backends share it; the reused
workspace buffers are overwritten in every block and appear here as local lists.
-/

namespace Tmfqs

/-- Precomputed index mapping for block-based gate application. -/
structure GateBlockLayout where
  numQubits : Nat
  activeQubits : Nat
  numBlocks : Nat
  blockSize : Nat
  targetPositions : List Nat
  targetMasks : List Nat
  nonTargetPositions : List Nat
  blockOffsets : List Nat

def composeBaseStateFrom (block : Nat) : Nat -> List Nat -> Nat -> Nat
  | _, [], baseState => baseState
  | idx, position :: rest, baseState =>
      composeBaseStateFrom block (idx + 1) rest
        (baseState ||| u32 (((block >>> idx) &&& 1) <<< position))

/-- Builds the non-target bits for a block index. -/
def composeBaseStateFromBlock (block : Nat) (nonTargetPositions : List Nat) : Nat :=
  composeBaseStateFrom block 0 nonTargetPositions 0

/-- Offset of one row: the masks of the targets whose bit is set in `idx`. -/
def blockOffset (activeQubits : Nat) (targetMasks : List Nat) (idx : Nat) : Nat :=
  (List.range activeQubits).foldl
    (fun offset bit =>
      if (idx >>> (activeQubits - bit - 1)) &&& 1 ≠ 0 then
        offset ||| targetMasks.getD bit 0
      else offset)
    0

variable {σ : Type}

def makeGateBlockLayout (qubits : List Nat) (numQubits : Nat) :
    Call σ GateBlockLayout := do
  let activeQubits := u32 qubits.length
  let numBlocks <- checkedStateCount (numQubits - activeQubits)
  let blockSize <- checkedStateCount activeQubits
  let targetPositions := qubits.map fun qubit => numQubits - qubit - 1
  let targetMasks := targetPositions.map fun targetBit => u32 (1 <<< targetBit)
  pure
    { numQubits := numQubits
      activeQubits := activeQubits
      numBlocks := u32 numBlocks
      blockSize := u32 blockSize
      targetPositions := targetPositions
      targetMasks := targetMasks
      nonTargetPositions :=
        (List.range numQubits).filter fun bit => bit ∉ targetPositions
      blockOffsets :=
        (List.range (u32 blockSize)).map (blockOffset activeQubits targetMasks) }

variable {R : Type} [Field R] [DecidableEq R]

/-- One output amplitude: the accumulation loop over the columns of a row. -/
def rowProduct (gate : QuantumGate R) (blockSize row : Nat)
    (localAmps : List (Amplitude R)) : Amplitude R :=
  (List.range blockSize).foldl
    (fun newAmp col =>
      let g := gate.entry row col
      let a := localAmps.getD col Amplitude.zero
      { real := newAmp.real + (g.real * a.real - g.imag * a.imag)
        imag := newAmp.imag + (g.real * a.imag + g.imag * a.real) })
    Amplitude.zero

def allZero (localAmps : List (Amplitude R)) : Bool :=
  localAmps.all fun a => a.real = 0 ∧ a.imag = 0

/-- Load one block, and store its product with the gate unless it is zero. -/
def applyBlock (gate : QuantumGate R) (stateIndices : List Nat)
    (loadAmplitude : Nat -> Call σ (Amplitude R))
    (storeAmplitude : Nat -> Amplitude R -> Call σ PUnit) : Call σ PUnit := do
  let localAmps <- stateIndices.mapM loadAmplitude
  if allZero localAmps then
    pure ⟨⟩
  else
    (List.range stateIndices.length).forM fun row =>
      storeAmplitude (stateIndices.getD row 0)
        (rowProduct gate stateIndices.length row localAmps)

def applyGateByBlocks (gate : QuantumGate R) (layout : GateBlockLayout)
    (loadAmplitude : Nat -> Call σ (Amplitude R))
    (storeAmplitude : Nat -> Amplitude R -> Call σ PUnit) : Call σ PUnit := do
  if gate.dimension < layout.blockSize then
    throw (outOfRange "QuantumGate row index out of range")
  if layout.activeQubits = 1 then
    let q0Mask := layout.targetMasks.getD 0 0
    (List.range layout.numBlocks).forM fun block => do
      let baseState := composeBaseStateFromBlock block layout.nonTargetPositions
      let state0 := baseState
      let state1 := baseState ||| q0Mask
      let a0 <- loadAmplitude state0
      let a1 <- loadAmplitude state1
      if (a0.real = 0 ∧ a0.imag = 0) ∧ (a1.real = 0 ∧ a1.imag = 0) then
        pure ⟨⟩
      else
        let g00 := gate.entry 0 0
        let g01 := gate.entry 0 1
        let g10 := gate.entry 1 0
        let g11 := gate.entry 1 1
        storeAmplitude state0
          { real := g00.real * a0.real - g00.imag * a0.imag + g01.real * a1.real -
              g01.imag * a1.imag
            imag := g00.real * a0.imag + g00.imag * a0.real + g01.real * a1.imag +
              g01.imag * a1.real }
        storeAmplitude state1
          { real := g10.real * a0.real - g10.imag * a0.imag + g11.real * a1.real -
              g11.imag * a1.imag
            imag := g10.real * a0.imag + g10.imag * a0.real + g11.real * a1.imag +
              g11.imag * a1.real }
  else if layout.activeQubits = 2 then
    let q0Mask := layout.targetMasks.getD 0 0
    let q1Mask := layout.targetMasks.getD 1 0
    (List.range layout.numBlocks).forM fun block =>
      let baseState := composeBaseStateFromBlock block layout.nonTargetPositions
      applyBlock gate
        [baseState, baseState ||| q1Mask, baseState ||| q0Mask,
          baseState ||| q0Mask ||| q1Mask]
        loadAmplitude storeAmplitude
  else
    (List.range layout.numBlocks).forM fun block =>
      let baseState := composeBaseStateFromBlock block layout.nonTargetPositions
      applyBlock gate (layout.blockOffsets.map fun offset => baseState ||| offset)
        loadAmplitude storeAmplitude

def GateApplyEngine.apply (scopeName : String) (gate : QuantumGate R)
    (qubits : List Nat) (numQubits : Nat)
    (loadAmplitude : Nat -> Call σ (Amplitude R))
    (storeAmplitude : Nat -> Amplitude R -> Call σ PUnit) : Call σ PUnit := do
  validateGateTargets scopeName qubits numQubits gate.dimension
  let layout <- makeGateBlockLayout qubits numQubits
  applyGateByBlocks gate layout loadAmplitude storeAmplitude

/-!
## Block index arithmetic

The base state of a block scatters the block index over the non-target bits, and
the offset of a row scatters the row index over the target bits, the last target
first.
-/

open Library

theorem composeBaseStateFrom_eq (block : Nat) (positions : List Nat) :
    forall (idx baseState : Nat), (forall p, p ∈ positions -> p < 32) ->
      composeBaseStateFrom block idx positions baseState =
        baseState ||| scatter positions (block >>> idx) := by
  induction positions with
  | nil =>
      intro idx baseState _
      simp [composeBaseStateFrom, scatter]
  | cons p rest ih =>
      intro idx baseState hpos
      have hp : p < 32 := hpos p List.mem_cons_self
      have hbit : u32 (((block >>> idx) &&& 1) <<< p) =
          if (block >>> idx).testBit 0 then 2 ^ p else 0 := by
        rw [Nat.and_one_is_mod, Nat.testBit_zero]
        rcases Nat.mod_two_eq_zero_or_one (block >>> idx) with hmod | hmod
        · simp [hmod, u32]
        · have hlt : 2 ^ p < 2 ^ 32 := Nat.pow_lt_pow_right (by decide) hp
          simp [hmod, Nat.one_shiftLeft, u32_of_lt hlt]
      have hshift : block >>> (idx + 1) = (block >>> idx) / 2 := by
        rw [Nat.shiftRight_succ]
      rw [composeBaseStateFrom, ih (idx + 1) _ (fun q hq => hpos q (List.mem_cons_of_mem p hq)),
        hbit, hshift, scatter, Nat.or_assoc]

theorem composeBaseStateFromBlock_eq (block : Nat) {positions : List Nat}
    (h : forall p, p ∈ positions -> p < 32) :
    composeBaseStateFromBlock block positions = scatter positions block := by
  rw [composeBaseStateFromBlock, composeBaseStateFrom_eq block positions 0 0 h]
  simp

theorem testBit_foldl_or {ι : Type} (l : List ι) (c : ι -> Bool) (m : ι -> Nat)
    (q : Nat) : forall start : Nat,
    (l.foldl (fun acc i => if c i then acc ||| m i else acc) start).testBit q =
      (start.testBit q || l.any fun i => c i && (m i).testBit q) := by
  induction l with
  | nil =>
      intro start
      simp
  | cons i rest ih =>
      intro start
      rw [List.foldl_cons, ih, List.any_cons]
      cases hc : c i with
      | true => simp [Nat.testBit_or, Bool.or_assoc]
      | false => simp

theorem blockOffset_eq (positions : List Nat) (h : forall p, p ∈ positions -> p < 32)
    (idx : Nat) :
    blockOffset positions.length (positions.map fun bit => u32 (1 <<< bit)) idx =
      scatter positions.reverse idx := by
  have hfold : blockOffset positions.length
      (positions.map fun bit => u32 (1 <<< bit)) idx =
      (List.range positions.length).foldl
        (fun acc bit =>
          if idx.testBit (positions.length - bit - 1) then
            acc ||| (positions.map fun bit => u32 (1 <<< bit)).getD bit 0
          else acc) 0 := by
    unfold blockOffset
    congr 1
    funext acc bit
    simp [Nat.testBit, Nat.and_comm]
  rw [hfold]
  apply Nat.eq_of_testBit_eq
  intro q
  rw [testBit_foldl_or, Nat.zero_testBit, Bool.false_or, Bool.eq_iff_iff,
    testBit_scatter, List.any_eq_true]
  have hmask : forall bit p, positions[bit]? = some p ->
      (positions.map fun bit => u32 (1 <<< bit)).getD bit 0 = 2 ^ p := by
    intro bit p hget
    have hp : p < 32 := h p (List.mem_of_getElem? hget)
    have hlt : 2 ^ p < 2 ^ 32 := Nat.pow_lt_pow_right (by decide) hp
    simp [List.getD_eq_getElem?_getD, hget, Nat.one_shiftLeft, u32_of_lt hlt]
  constructor
  · rintro ⟨bit, hbit, hboth⟩
    rw [List.mem_range] at hbit
    rw [Bool.and_eq_true] at hboth
    have hget : positions[bit]? = some positions[bit] := List.getElem?_eq_getElem hbit
    rw [hmask bit _ hget, Nat.testBit_two_pow, decide_eq_true_eq] at hboth
    refine ⟨positions.length - bit - 1, ?_, hboth.1⟩
    rw [List.getElem?_reverse (by omega)]
    have hidx : positions.length - 1 - (positions.length - bit - 1) = bit := by omega
    rw [hidx, hget, hboth.2]
  · rintro ⟨i, hget, hbit⟩
    have hi : i < positions.length := by
      have hlt := (List.getElem?_eq_some_iff.mp hget).1
      simpa using hlt
    rw [List.getElem?_reverse hi] at hget
    refine ⟨positions.length - 1 - i, List.mem_range.mpr (by omega), ?_⟩
    have hidx : positions.length - (positions.length - 1 - i) - 1 = i := by omega
    rw [hidx, hmask _ _ hget, hbit]
    simp

end Tmfqs
