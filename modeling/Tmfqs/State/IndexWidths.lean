import Tmfqs.Storage.GateBlockEngine
import Tmfqs.State.DenseStates
import Tmfqs.State.StateRegisters

/-!
# Widths of the state indices

`checkedStateCount` accepts 63 qubits, while the backends, the masks and the loops count
states in 32 bits.  What the narrower width is sufficient for, and when it is.
-/

namespace Tmfqs

open Library QuantumRegister PairKernelExecutor

variable {R : Type} [Field R] [LinearOrder R] [CMath R] {n s : Nat}

/-!
## Registers in a basis state
-/

section Basis

variable {β : Type} [IStateBackend R β]

def makeBasis (R : Type) [Field R] [LinearOrder R] {β : Type} [IStateBackend R β] (selected : β)
    (n s : Nat) : Except Exc (QuantumRegister R β) :=
  construct selected (initBasis selected n s { real := 1, imag := 0 })

/-- The register is built, and it answers one for its state and zero for all others. -/
def ReadsBasis (n s : Nat) (made : Except Exc (QuantumRegister R β)) : Prop :=
  exists r, made = .ok r ∧ forall t, t < 2 ^ n ->
    (QuantumRegister.amplitude t r).1 =
      .ok (if t = s then { real := 1, imag := 0 } else Amplitude.zero)

theorem readsBasis_of_le (sv : StoresVector (R := R) β) (selected : β) (hn : n ≤ 31)
    (hsize : sv.Size n) (hs : s < 2 ^ n) : ReadsBasis n s (makeBasis R selected n s) := by
  rcases post_construct (does_initBasis selected hn hsize hs
    ({ real := 1, imag := 0 } : Amplitude R)) with ⟨r, hr, hlazy⟩
  refine ⟨r, hr, ?_⟩
  intro t ht
  rw [QuantumState.ok_of_answers (answers_amplitude hlazy ht), StateVector.ampAt_basis hs]

omit [CMath R] in
theorem makeBasis_of_fails (selected : β) (hn : n ≤ 63)
    (hfails : Fails (IStateBackend.initBasis (R := R) n s { real := 1, imag := 0 }) selected) :
    exists e, makeBasis R selected n s = .error e := by
  unfold makeBasis construct
  rw [initBasis, Call.bind_ok (initializeBackend_eq selected hn _), onBackend, Call.focus_apply]
  unfold Fails Call.Post at hfails
  simp only
  rcases hrun : IStateBackend.initBasis (R := R) n s { real := 1, imag := 0 } selected with ⟨r, b⟩
  rw [hrun] at hfails
  cases r with
  | ok a => exact hfails.elim
  | error e => exact ⟨e, rfl⟩

end Basis

/-!
## Sufficient widths
-/

def LegalChunkStates (n k : Nat) : Prop :=
  ChunkLayout.Fits (2 ^ n) k

/-- The layout of the block engine has the block numbers, masks and states meant. -/
structure ExactBlocks (qubits : List Nat) (n : Nat) (layout : GateBlockLayout) : Prop where
  numBlocks : layout.numBlocks = 2 ^ (n - qubits.length)
  blockSize : layout.blockSize = 2 ^ qubits.length
  targetMasks : layout.targetMasks = (targetBits qubits n).map fun bit => 2 ^ bit
  blockOffsets : layout.blockOffsets =
    (List.range (2 ^ qubits.length)).map (scatter (targetBits qubits n).reverse)
  baseState : forall block, composeBaseStateFromBlock block layout.nonTargetPositions =
    scatter (otherBits qubits n) block

/--
What is computed in 32 bits for a register of `n` qubits in the state `s` has its
mathematical value.
-/
structure WidthsSuffice (R : Type) [Field R] [LinearOrder R] [CMath R] (n s : Nat) : Prop where
  dense : ReadsBasis n s (makeBasis R (DenseStateBackend.make : DenseStateBackend R) n s)
  compressed : forall {B : Type} (P : CodecPolicy R B), P.Lossless ->
    LegalChunkStates n P.chunkStates ->
      ReadsBasis n s (makeBasis R (CompressedStateBackend.make P) n s)
  masks : forall q, q < n -> qubitMaskFromMsbIndex q n = 2 ^ (n - q - 1)
  pairs : forall q, q < n -> forall {σ : Type} (pairFn : Nat -> Nat -> Call σ PUnit),
    runFallback (u32 (2 ^ n)) (qubitMaskFromMsbIndex q n) pairFn =
      (pairList n (n - q - 1)).forM fun p => pairFn p.1 p.2
  blocks : forall qubits d, ValidTargets qubits n d -> exists layout,
    (makeGateBlockLayout qubits n : Call Unit GateBlockLayout) = pure layout ∧
      ExactBlocks qubits n layout

theorem qubitMask_eq (hn : n ≤ 31) {q : Nat} (hq : q < n) :
    qubitMaskFromMsbIndex q n = 2 ^ (n - q - 1) := by
  rw [qubitMaskFromMsbIndex, Nat.one_shiftLeft, u32_of_lt (two_pow_lt_u32 (by omega))]

theorem exists_blockLayout (hn : n ≤ 31) {qubits : List Nat} {d : Nat}
    (h : ValidTargets qubits n d) : exists layout,
      (makeGateBlockLayout qubits n : Call Unit GateBlockLayout) = pure layout ∧
        ExactBlocks qubits n layout := by
  have hmasks : ((targetBits qubits n).map fun bit => u32 (1 <<< bit)) =
      (targetBits qubits n).map fun bit => 2 ^ bit := by
    apply List.map_congr_left
    intro bit hbit
    have hlt := mem_targetBits_lt h hbit
    rw [Nat.one_shiftLeft, u32_of_lt (two_pow_lt_u32 (by omega))]
  have hother : forall p, p ∈ otherBits qubits n -> p < 32 := by
    intro p hp
    have hlt := ((splits_otherBits h).cover p).mpr (Or.inl hp)
    omega
  exact ⟨_, makeGateBlockLayout_eq hn h,
    { numBlocks := rfl
      blockSize := rfl
      targetMasks := hmasks
      blockOffsets := rfl
      baseState := fun block => composeBaseStateFromBlock_eq block hother }⟩

theorem widthsSuffice_of_le (hn : n ≤ 31) (hs : s < 2 ^ n) : WidthsSuffice R n s where
  dense := readsBasis_of_le DenseStateBackend.storesVector _ hn trivial hs
  compressed := fun P hP hlegal =>
    readsBasis_of_le (CompressedStateBackend.storesVector hP) _ hn hlegal hs
  masks := fun _ hq => qubitMask_eq hn hq
  pairs := by
    intro q hq σ pairFn
    rw [u32_of_lt (two_pow_lt_u32 (by omega)), qubitMask_eq hn hq]
    exact runFallback_eq hn (by omega) pairFn
  blocks := fun _ _ h => exists_blockLayout hn h

theorem not_widthsSuffice_of_large (hlarge : 31 < n) (hn : n ≤ 63) : ¬ WidthsSuffice R n s := by
  intro h
  rcases h.dense with ⟨r, hr, _⟩
  have hfails : Fails (IStateBackend.initBasis (R := R) n s { real := 1, imag := 0 })
      (DenseStateBackend.make : DenseStateBackend R) :=
    DenseStateBackend.fails_initBasis_large _ hlarge hn s _
  rcases makeBasis_of_fails DenseStateBackend.make hn hfails with ⟨e, he⟩
  rw [hr] at he
  cases he

/-- The accepted sizes whose indices fit are those of at most 31 qubits. -/
theorem widthsSuffice_iff (hn : n ≤ 63) (hs : s < 2 ^ n) : WidthsSuffice R n s <-> n ≤ 31 := by
  constructor
  · intro h
    by_contra hlarge
    exact not_widthsSuffice_of_large (Nat.not_le.mp hlarge) hn h
  · intro hle
    exact widthsSuffice_of_le hle hs

theorem widthsSuffice_three : WidthsSuffice Real 3 5 <-> 3 ≤ 31 :=
  widthsSuffice_iff (by decide) (by decide)

/-- With 32 qubits the number of states narrows to zero and every state is out of range. -/
theorem widths_exceeded :
    (checkedStateCount 32 : Call Unit Nat) = pure (2 ^ 32) ∧ u32 (2 ^ 32) = 0 ∧
      (exists e, makeBasis Real (DenseStateBackend.make : DenseStateBackend Real) 32 0 =
        .error e) ∧
      (exists e, makeBasis Real (CompressedStateBackend.make
        (CodecPolicy.elementwise (id : Real -> Real) 8 2 (by decide) (by decide))) 32 0 =
          .error e) ∧
      ¬ WidthsSuffice Real 32 0 :=
  ⟨checkedStateCount_eq (by decide), rfl,
    makeBasis_of_fails _ (by decide)
      (DenseStateBackend.fails_initBasis_large _ (by decide) (by decide) 0 _),
    makeBasis_of_fails _ (by decide)
      (CompressedStateBackend.fails_initBasis_large _ (by decide) (by decide) 0 _),
    not_widthsSuffice_of_large (by decide) (by decide)⟩

end Tmfqs
