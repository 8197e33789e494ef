import Mathlib.Data.List.TakeWhile
import Tmfqs.Library.Loop
import Tmfqs.Storage.ChunkLayout

/-!
# Traversals of the state pairs of one qubit

The three loops of `storage/common/pair_kernel_executor.h`.  The last section
shows that they visit the same pairs of states in the same order.
-/

namespace Tmfqs

open Library

variable {σ : Type}

inductive PairKernelMode where
  | fallback
  | intraChunk
  | interChunk
deriving DecidableEq, Repr

namespace PairKernelExecutor

def selectMode (layout : ChunkLayout) (targetMask : Nat) : PairKernelMode :=
  let statesPerChunk := layout.statesPerChunk
  if statesPerChunk = 0 ∨ statesPerChunk &&& (statesPerChunk - 1) ≠ 0 then
    .fallback
  else if targetMask < statesPerChunk then
    .intraChunk
  else if targetMask % statesPerChunk = 0 then
    .interChunk
  else
    .fallback

/-- Both loop counters are `unsigned int`. -/
def runFallback (numStates targetMask : Nat)
    (pairFn : Nat -> Nat -> Call σ PUnit) : Call σ PUnit :=
  let stride := u32 (targetMask <<< 1)
  Call.strideLoop u32 noReturn numStates stride fun base =>
    (List.range targetMask).forM fun offset =>
      let state0 := u32 (base + offset)
      pairFn state0 (u32 (state0 + targetMask))

def runIntraChunk (layout : ChunkLayout) (targetMask : Nat)
    (pairFn : Nat -> Nat -> Nat -> Nat -> Nat -> Call σ PUnit) : Call σ PUnit :=
  let localMask := targetMask
  let stride := u64 (localMask <<< 1)
  (List.range layout.chunkCount).forM fun chunkIndex => do
    let elemCount <- layout.chunkElemCount chunkIndex
    let statesInChunk := elemCount / 2
    let chunkBaseState <- layout.chunkStateBegin chunkIndex
    Call.strideLoop u64 noReturn statesInChunk stride fun base =>
      -- the inner loop breaks at the first pair that leaves the chunk
      ((List.range localMask).takeWhile fun offset =>
          u64 (u64 (base + offset) + localMask) < statesInChunk).forM fun offset =>
        let local0 := u64 (base + offset)
        let local1 := u64 (local0 + localMask)
        pairFn chunkIndex local0 local1
          (u64 (chunkBaseState + local0)) (u64 (chunkBaseState + local1))

def runInterChunk (layout : ChunkLayout) (targetMask : Nat)
    (pairFn : Nat -> Nat -> Nat -> Nat -> Nat -> Call σ PUnit) : Call σ PUnit :=
  let chunkDelta := targetMask / layout.statesPerChunk
  let chunkStride := u64 (chunkDelta <<< 1)
  let chunkCount := layout.chunkCount
  Call.strideLoop u64 noReturn chunkCount chunkStride fun groupBase =>
    ((List.range chunkDelta).takeWhile fun groupOffset =>
        u64 (u64 (groupBase + groupOffset) + chunkDelta) < chunkCount).forM fun groupOffset => do
      let chunk0 := u64 (groupBase + groupOffset)
      let chunk1 := u64 (chunk0 + chunkDelta)
      let elems0 <- layout.chunkElemCount chunk0
      let elems1 <- layout.chunkElemCount chunk1
      let statesInPair := min (elems0 / 2) (elems1 / 2)
      let chunk0BaseState <- layout.chunkStateBegin chunk0
      let chunk1BaseState <- layout.chunkStateBegin chunk1
      (List.range statesInPair).forM fun localState =>
        pairFn chunk0 chunk1 localState
          (u64 (chunk0BaseState + localState)) (u64 (chunk1BaseState + localState))

/-!
## The pairs of one bit
-/

def lowState (b t : Nat) : Nat :=
  t / 2 ^ b * 2 ^ (b + 1) + t % 2 ^ b

/-- All pairs of states that differ in bit `b` only, in increasing order. -/
def pairList (n b : Nat) : List (Nat × Nat) :=
  (List.range (2 ^ (n - 1))).map fun t => (lowState b t, lowState b t + 2 ^ b)

theorem lowState_eq {b : Nat} (group : Nat) {offset : Nat} (h : offset < 2 ^ b) :
    lowState b (group * 2 ^ b + offset) = group * 2 ^ (b + 1) + offset := by
  have hpos : 0 < 2 ^ b := Nat.two_pow_pos b
  have hdiv : (group * 2 ^ b + offset) / 2 ^ b = group := by
    rw [Nat.mul_comm, Nat.mul_add_div hpos, Nat.div_eq_of_lt h, Nat.add_zero]
  have hmod : (group * 2 ^ b + offset) % 2 ^ b = offset := by
    rw [Nat.mul_comm, Nat.mul_add_mod, Nat.mod_eq_of_lt h]
  rw [lowState, hdiv, hmod]

theorem two_pow_split {a b c : Nat} (h : a + b = c) : 2 ^ c = 2 ^ a * 2 ^ b := by
  rw [← h, Nat.pow_add]

section Traversals

variable {n b c : Nat} (hn : n ≤ 31) (hb : b < n)
include hn hb

theorem runFallback_eq (pairFn : Nat -> Nat -> Call σ PUnit) :
    runFallback (2 ^ n) (2 ^ b) pairFn =
      (pairList n b).forM fun p => pairFn p.1 p.2 := by
  have hstates : 2 ^ n = 2 ^ (n - b - 1) * 2 ^ (b + 1) := two_pow_split (by omega)
  have hpairs : 2 ^ (n - 1) = 2 ^ (n - b - 1) * 2 ^ b := two_pow_split (by omega)
  have hlimit : 2 ^ n < 2 ^ 32 := Nat.pow_lt_pow_right (by decide) (by omega)
  have hmask : 2 ^ (b + 1) ≤ 2 ^ n := Nat.pow_le_pow_right (by decide) hb
  have hstride : u32 (2 ^ b <<< 1) = 2 ^ (b + 1) := by
    rw [Nat.shiftLeft_eq, ← Nat.pow_add, u32_of_lt (by omega)]
  rw [runFallback, hstride, hstates,
    Call.strideLoop_eq noReturn (2 ^ (n - b - 1)) _ (Nat.two_pow_pos _)
      (fun x hx => u32_of_lt (by omega)),
    pairList, Call.forM_map, hpairs, Call.forM_range_mul]
  apply Call.forM_congr
  intro group hgroup
  apply Call.forM_congr
  intro offset hoffset
  have hgroup' : (group + 1) * 2 ^ (b + 1) ≤ 2 ^ (n - b - 1) * 2 ^ (b + 1) :=
    Nat.mul_le_mul_right _ (List.mem_range.mp hgroup)
  have hoffset' := List.mem_range.mp hoffset
  have hpow : 2 ^ (b + 1) = 2 * 2 ^ b := by rw [Nat.pow_succ, Nat.mul_comm]
  rw [Nat.succ_mul] at hgroup'
  simp only
  rw [lowState_eq group hoffset', u32_of_lt (x := group * 2 ^ (b + 1) + offset) (by omega),
    u32_of_lt (by omega)]

theorem runIntraChunk_eq {layout : ChunkLayout}
    (h : layout.Exact (2 ^ n) (2 ^ c)) (hc : b < c)
    (pairFn : Nat -> Nat -> Nat -> Nat -> Nat -> Call σ PUnit) :
    runIntraChunk layout (2 ^ b) pairFn =
      (pairList n b).forM fun p =>
        pairFn (p.1 / 2 ^ c) (p.1 % 2 ^ c) (p.2 % 2 ^ c) p.1 p.2 := by
  obtain ⟨m, hm⟩ : exists m, m = min c n := ⟨_, rfl⟩
  have hpow : 2 ^ (b + 1) = 2 * 2 ^ b := by rw [Nat.pow_succ, Nat.mul_comm]
  have hstates : 2 ^ m = 2 ^ (m - b - 1) * 2 ^ (b + 1) := two_pow_split (by omega)
  have hpairs : 2 ^ (n - 1) = 2 ^ (n - m) * (2 ^ (m - b - 1) * 2 ^ b) := by
    rw [← Nat.pow_add]
    exact two_pow_split (by omega)
  have hall : 2 ^ n = 2 ^ (n - m) * 2 ^ m := two_pow_split (by omega)
  have hmc : 2 ^ m ≤ 2 ^ c := Nat.pow_le_pow_right (by decide) (by omega)
  have hmn : 2 ^ m ≤ 2 ^ n := Nat.pow_le_pow_right (by decide) (by omega)
  have hlimit : 2 ^ n < 2 ^ 32 := Nat.pow_lt_pow_right (by decide) (by omega)
  have hbase : forall chunk, chunk < 2 ^ (n - m) -> chunk * 2 ^ c = chunk * 2 ^ m := by
    intro chunk hchunk
    by_cases hcn : c ≤ n
    · rw [hm, Nat.min_eq_left hcn]
    · have hzero : n - m = 0 := by omega
      rw [hzero] at hchunk
      have hchunk0 : chunk = 0 := by omega
      rw [hchunk0, Nat.zero_mul, Nat.zero_mul]
  have hcount : layout.chunkCount = 2 ^ (n - m) := by
    apply Nat.le_antisymm
    · rw [← Nat.not_lt, h.lt_chunkCount_iff, Nat.not_lt]
      calc
        2 ^ n = 2 ^ (n - m) * 2 ^ m := hall
        _ ≤ 2 ^ (n - m) * 2 ^ c := Nat.mul_le_mul_left _ hmc
    · have hpos : 0 < 2 ^ (n - m) := Nat.two_pow_pos _
      have hlast : 2 ^ (n - m) - 1 < layout.chunkCount := by
        rw [h.lt_chunkCount_iff, hbase _ (by omega), hall]
        exact Nat.mul_lt_mul_of_pos_right (by omega) (Nat.two_pow_pos m)
      omega
  have hfull : forall chunk, chunk < 2 ^ (n - m) -> layout.statesIn chunk = 2 ^ m := by
    intro chunk hchunk
    have hnext : (chunk + 1) * 2 ^ m ≤ 2 ^ (n - m) * 2 ^ m :=
      Nat.mul_le_mul_right _ hchunk
    rw [Nat.succ_mul] at hnext
    rw [h.statesIn_eq, hbase chunk hchunk]
    by_cases hcn : c ≤ n
    · have hmc' : m = c := by omega
      subst hmc'
      omega
    · have hmn' : m = n := by omega
      subst hmn'
      have hzero : chunk = 0 := by
        rw [Nat.sub_self] at hchunk
        omega
      subst hzero
      omega
  have hstride : u64 (2 ^ b <<< 1) = 2 ^ (b + 1) := by
    rw [Nat.shiftLeft_eq, ← Nat.pow_add, u64_of_lt]
    exact Nat.pow_lt_pow_right (by decide) (by omega)
  rw [runIntraChunk, hstride, hcount, pairList, Call.forM_map, hpairs, Call.forM_range_mul]
  apply Call.forM_congr
  intro chunk hchunk
  have hchunk' := List.mem_range.mp hchunk
  have hnext : (chunk + 1) * 2 ^ m ≤ 2 ^ (n - m) * 2 ^ m := Nat.mul_le_mul_right _ hchunk'
  rw [Nat.succ_mul] at hnext
  rw [h.chunkElemCount_eq (by omega), h.chunkStateBegin_eq (by omega)]
  simp only [pure_bind, hfull chunk hchunk', hbase chunk hchunk',
    Nat.mul_div_cancel_left _ (show 0 < 2 by decide)]
  rw [hstates, Call.strideLoop_eq noReturn (2 ^ (m - b - 1)) _ (Nat.two_pow_pos _)
      (fun x hx => u64_of_lt (by omega)),
    Call.forM_range_mul]
  apply Call.forM_congr
  intro group hgroup
  have hgroup' : (group + 1) * 2 ^ (b + 1) ≤ 2 ^ (m - b - 1) * 2 ^ (b + 1) :=
    Nat.mul_le_mul_right _ (List.mem_range.mp hgroup)
  rw [Nat.succ_mul] at hgroup'
  have hstay : (List.range (2 ^ b)).takeWhile (fun offset =>
      u64 (u64 (group * 2 ^ (b + 1) + offset) + 2 ^ b) < 2 ^ (m - b - 1) * 2 ^ (b + 1)) =
      List.range (2 ^ b) := by
    rw [List.takeWhile_eq_self_iff]
    intro offset hoffset
    have hoffset' := List.mem_range.mp hoffset
    rw [u64_of_lt (x := group * 2 ^ (b + 1) + offset) (by omega), u64_of_lt (by omega)]
    simp
    omega
  rw [hstay]
  apply Call.forM_congr
  intro offset hoffset
  have hoffset' := List.mem_range.mp hoffset
  have hlow : lowState b (chunk * (2 ^ (m - b - 1) * 2 ^ b) + (group * 2 ^ b + offset)) =
      chunk * 2 ^ m + (group * 2 ^ (b + 1) + offset) := by
    have hidx : chunk * (2 ^ (m - b - 1) * 2 ^ b) + (group * 2 ^ b + offset) =
        (chunk * 2 ^ (m - b - 1) + group) * 2 ^ b + offset := by
      ring
    rw [hidx, lowState_eq _ hoffset', hstates]
    ring
  have hlocal1 : group * 2 ^ (b + 1) + offset + 2 ^ b < 2 ^ c := by omega
  have hdiv : (chunk * 2 ^ m + (group * 2 ^ (b + 1) + offset)) / 2 ^ c = chunk := by
    rw [← hbase chunk hchunk', Nat.mul_comm, Nat.mul_add_div (Nat.two_pow_pos c),
      Nat.div_eq_of_lt (by omega), Nat.add_zero]
  have hmod0 : (chunk * 2 ^ m + (group * 2 ^ (b + 1) + offset)) % 2 ^ c =
      group * 2 ^ (b + 1) + offset := by
    rw [← hbase chunk hchunk', Nat.mul_comm, Nat.mul_add_mod, Nat.mod_eq_of_lt (by omega)]
  have hmod1 : (chunk * 2 ^ m + (group * 2 ^ (b + 1) + offset) + 2 ^ b) % 2 ^ c =
      group * 2 ^ (b + 1) + offset + 2 ^ b := by
    rw [← hbase chunk hchunk', Nat.add_assoc, Nat.mul_comm, Nat.mul_add_mod,
      Nat.mod_eq_of_lt hlocal1]
  rw [hlow, hdiv, hmod0, hmod1, ← hstates,
    u64_of_lt (x := group * 2 ^ (b + 1) + offset) (by omega),
    u64_of_lt (x := group * 2 ^ (b + 1) + offset + 2 ^ b) (by omega),
    u64_of_lt (by omega), u64_of_lt (by omega), Nat.add_assoc (chunk * 2 ^ m)]

theorem runInterChunk_eq {layout : ChunkLayout}
    (h : layout.Exact (2 ^ n) (2 ^ c)) (hc : c ≤ b)
    (pairFn : Nat -> Nat -> Nat -> Nat -> Nat -> Call σ PUnit) :
    runInterChunk layout (2 ^ b) pairFn =
      (pairList n b).forM fun p =>
        pairFn (p.1 / 2 ^ c) (p.2 / 2 ^ c) (p.1 % 2 ^ c) p.1 p.2 := by
  have hdelta : 2 ^ b / 2 ^ c = 2 ^ (b - c) := Nat.pow_div hc (by decide)
  have hpow : 2 ^ (b - c + 1) = 2 * 2 ^ (b - c) := by rw [Nat.pow_succ, Nat.mul_comm]
  have hchunks : 2 ^ (n - c) = 2 ^ (n - b - 1) * 2 ^ (b - c + 1) := two_pow_split (by omega)
  have hpairs : 2 ^ (n - 1) = 2 ^ (n - b - 1) * (2 ^ (b - c) * 2 ^ c) := by
    rw [← Nat.pow_add]
    exact two_pow_split (by omega)
  have hall : 2 ^ n = 2 ^ (n - c) * 2 ^ c := two_pow_split (by omega)
  have hlimit : 2 ^ n < 2 ^ 32 := Nat.pow_lt_pow_right (by decide) (by omega)
  have hcn : 2 ^ (n - c) ≤ 2 ^ n := Nat.pow_le_pow_right (by decide) (by omega)
  have hcount : layout.chunkCount = 2 ^ (n - c) := by
    rw [h.chunkCount_eq, hall, Nat.add_sub_assoc (Nat.two_pow_pos c), Nat.mul_comm,
      Nat.mul_add_div (Nat.two_pow_pos c), Nat.div_eq_of_lt (by have := Nat.two_pow_pos c; omega),
      Nat.add_zero]
  have hfull : forall chunk, chunk < 2 ^ (n - c) -> layout.statesIn chunk = 2 ^ c := by
    intro chunk hchunk
    have hnext : (chunk + 1) * 2 ^ c ≤ 2 ^ (n - c) * 2 ^ c := Nat.mul_le_mul_right _ hchunk
    rw [Nat.succ_mul] at hnext
    rw [h.statesIn_eq, hall]
    omega
  have hstride : u64 (2 ^ (b - c) <<< 1) = 2 ^ (b - c + 1) := by
    rw [Nat.shiftLeft_eq, ← Nat.pow_add, u64_of_lt]
    exact Nat.pow_lt_pow_right (by decide) (by omega)
  rw [runInterChunk, h.statesPerChunk_eq, hdelta, hstride, hcount]
  simp only
  rw [hchunks, Call.strideLoop_eq noReturn (2 ^ (n - b - 1)) _ (Nat.two_pow_pos _)
      (fun x hx => u64_of_lt (by omega)),
    pairList, Call.forM_map, hpairs, Call.forM_range_mul]
  apply Call.forM_congr
  intro group hgroup
  have hgroup' : (group + 1) * 2 ^ (b - c + 1) ≤ 2 ^ (n - b - 1) * 2 ^ (b - c + 1) :=
    Nat.mul_le_mul_right _ (List.mem_range.mp hgroup)
  rw [Nat.succ_mul] at hgroup'
  have hstay : (List.range (2 ^ (b - c))).takeWhile (fun groupOffset =>
      u64 (u64 (group * 2 ^ (b - c + 1) + groupOffset) + 2 ^ (b - c)) <
        2 ^ (n - b - 1) * 2 ^ (b - c + 1)) = List.range (2 ^ (b - c)) := by
    rw [List.takeWhile_eq_self_iff]
    intro offset hoffset
    have hoffset' := List.mem_range.mp hoffset
    rw [u64_of_lt (x := group * 2 ^ (b - c + 1) + offset) (by omega), u64_of_lt (by omega)]
    simp
    omega
  rw [hstay, Call.forM_range_mul]
  apply Call.forM_congr
  intro offset hoffset
  have hoffset' := List.mem_range.mp hoffset
  obtain ⟨chunk0, hchunk0⟩ : exists chunk0, chunk0 = group * 2 ^ (b - c + 1) + offset := ⟨_, rfl⟩
  have hchunk1 : chunk0 + 2 ^ (b - c) < 2 ^ (n - c) := by omega
  have hnext : (chunk0 + 2 ^ (b - c) + 1) * 2 ^ c ≤ 2 ^ (n - c) * 2 ^ c :=
    Nat.mul_le_mul_right _ hchunk1
  have hexpand : (chunk0 + 2 ^ (b - c) + 1) * 2 ^ c = chunk0 * 2 ^ c + 2 ^ b + 2 ^ c := by
    rw [two_pow_split (show b - c + c = b by omega)]
    ring
  have hbase1 : (chunk0 + 2 ^ (b - c)) * 2 ^ c = chunk0 * 2 ^ c + 2 ^ b := by
    rw [two_pow_split (show b - c + c = b by omega)]
    ring
  rw [← hchunk0, u64_of_lt (x := chunk0) (by omega),
    u64_of_lt (x := chunk0 + 2 ^ (b - c)) (by omega),
    h.chunkElemCount_eq (by omega), h.chunkElemCount_eq (by omega),
    h.chunkStateBegin_eq (by omega), h.chunkStateBegin_eq (by omega)]
  simp only [pure_bind, hfull chunk0 (by omega), hfull _ hchunk1,
    Nat.mul_div_cancel_left _ (show 0 < 2 by decide), Nat.min_self]
  apply Call.forM_congr
  intro localState hlocal
  have hlocal' := List.mem_range.mp hlocal
  have hpos : 0 < 2 ^ b := Nat.two_pow_pos b
  have hlow : lowState b (group * (2 ^ (b - c) * 2 ^ c) + (offset * 2 ^ c + localState)) =
      chunk0 * 2 ^ c + localState := by
    have hb' : 2 ^ b = 2 ^ (b - c) * 2 ^ c := two_pow_split (by omega)
    have hin : offset * 2 ^ c + localState < 2 ^ b := by
      have hrow : (offset + 1) * 2 ^ c ≤ 2 ^ (b - c) * 2 ^ c :=
        Nat.mul_le_mul_right _ hoffset'
      rw [Nat.succ_mul] at hrow
      omega
    rw [← hb', lowState_eq group hin, hchunk0,
      two_pow_split (show (b - c + 1) + c = b + 1 by omega)]
    ring
  have hdiv0 : (chunk0 * 2 ^ c + localState) / 2 ^ c = chunk0 := by
    rw [Nat.mul_comm, Nat.mul_add_div (Nat.two_pow_pos c), Nat.div_eq_of_lt hlocal',
      Nat.add_zero]
  have hmod0 : (chunk0 * 2 ^ c + localState) % 2 ^ c = localState := by
    rw [Nat.mul_comm, Nat.mul_add_mod, Nat.mod_eq_of_lt hlocal']
  have hstate1 : chunk0 * 2 ^ c + localState + 2 ^ b =
      (chunk0 + 2 ^ (b - c)) * 2 ^ c + localState := by
    rw [hbase1]
    omega
  have hdiv1 : (chunk0 * 2 ^ c + localState + 2 ^ b) / 2 ^ c = chunk0 + 2 ^ (b - c) := by
    rw [hstate1, Nat.mul_comm, Nat.mul_add_div (Nat.two_pow_pos c), Nat.div_eq_of_lt hlocal',
      Nat.add_zero]
  rw [hlow, hdiv0, hdiv1, hmod0, ← hstate1, u64_of_lt (x := chunk0 * 2 ^ c + localState) (by omega),
    u64_of_lt (by omega)]

end Traversals

/-- A power of two above the mask keeps every pair in one chunk; one below it
splits every pair. -/
theorem selectMode_eq {layout : ChunkLayout} {N c b : Nat}
    (h : layout.Exact N (2 ^ c)) :
    selectMode layout (2 ^ b) = if b < c then .intraChunk else .interChunk := by
  have hpos : 0 < 2 ^ c := Nat.two_pow_pos c
  have hpower : ¬ (2 ^ c = 0 ∨ 2 ^ c &&& (2 ^ c - 1) ≠ 0) := by
    have hand : 2 ^ c &&& (2 ^ c - 1) = 0 := by
      rw [Nat.and_two_pow_sub_one_eq_mod, Nat.mod_self]
    simp [hand]
  rw [selectMode, h.statesPerChunk_eq, if_neg hpower]
  by_cases hc : b < c
  · rw [if_pos (Nat.pow_lt_pow_right (by decide) hc), if_pos hc]
  · have hmod : 2 ^ b % 2 ^ c = 0 :=
      Nat.mod_eq_zero_of_dvd (Nat.pow_dvd_pow 2 (by omega))
    have hlt : ¬ 2 ^ b < 2 ^ c := Nat.not_lt.mpr (Nat.pow_le_pow_right (by decide) (by omega))
    rw [if_neg hlt, if_pos hmod, if_neg hc]

theorem lt_of_intraChunk {layout : ChunkLayout} {N c b : Nat} (h : layout.Exact N (2 ^ c))
    (hmode : selectMode layout (2 ^ b) = .intraChunk) : b < c := by
  rw [selectMode_eq h] at hmode
  by_contra hc
  rw [if_neg hc] at hmode
  cases hmode

theorem le_of_interChunk {layout : ChunkLayout} {N c b : Nat} (h : layout.Exact N (2 ^ c))
    (hmode : selectMode layout (2 ^ b) = .interChunk) : c ≤ b := by
  rw [selectMode_eq h] at hmode
  by_contra hc
  rw [if_pos (Nat.lt_of_not_le hc)] at hmode
  cases hmode

theorem exists_power_of_mode {layout : ChunkLayout} {mask : Nat} (hk : 0 < layout.statesPerChunk)
    (hmode : selectMode layout mask ≠ .fallback) : exists c, layout.statesPerChunk = 2 ^ c := by
  by_contra hno
  have hguard : layout.statesPerChunk = 0 ∨
      layout.statesPerChunk &&& (layout.statesPerChunk - 1) ≠ 0 := by
    refine Or.inr (fun hand => hno ?_)
    exact (Nat.and_sub_one_eq_zero_iff_isPowerOfTwo (by omega)).mp hand
  rw [selectMode, if_pos hguard] at hmode
  exact hmode rfl

theorem exists_power_of_exact {layout : ChunkLayout} {N k mask : Nat} (h : layout.Exact N k)
    (hmode : selectMode layout mask ≠ .fallback) : exists c, k = 2 ^ c := by
  have hk := h.statesPerChunk_eq
  rw [← hk]
  exact exists_power_of_mode (by rw [hk]; exact h.chunkPos) hmode

end PairKernelExecutor

end Tmfqs
