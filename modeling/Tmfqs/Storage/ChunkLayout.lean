import Tmfqs.Core.Types

/-!
# Chunk layouts

How a state vector is cut into chunks of `statesPerChunk` states, from
`storage/common/chunk_layout.h`.  All fields are `size_t`.
-/

namespace Tmfqs

variable {σ : Type}

/-- Locates one basis state inside chunked storage. -/
structure ChunkRef where
  chunkIndex : Nat
  elemOffset : Nat
deriving DecidableEq, Repr

structure ChunkLayout where
  totalStates : Nat
  totalElems : Nat
  statesPerChunk : Nat
  elemsPerChunk : Nat
  chunkCount : Nat
deriving DecidableEq, Repr

namespace ChunkLayout

def empty : ChunkLayout :=
  { totalStates := 0
    totalElems := 0
    statesPerChunk := 0
    elemsPerChunk := 0
    chunkCount := 0 }

/-- The fields computed by the constructor body. -/
def ofSizes (totalStates statesPerChunk : Nat) : ChunkLayout :=
  let totalElems := u64 (totalStates * 2)
  let elemsPerChunk := u64 (statesPerChunk * 2)
  { totalStates := totalStates
    totalElems := totalElems
    statesPerChunk := statesPerChunk
    elemsPerChunk := elemsPerChunk
    chunkCount :=
      if totalElems = 0 then 0
      else u64 (totalElems + elemsPerChunk - 1) / elemsPerChunk }

/-- The constructor `ChunkLayout(totalStates, statesPerChunk)`. -/
def make (totalStates statesPerChunk : Nat) : Call σ ChunkLayout :=
  if statesPerChunk = 0 then
    throw (invalidArgument "ChunkLayout: statesPerChunk must be >= 1")
  else
    pure (ofSizes totalStates statesPerChunk)

def chunkElemCount (layout : ChunkLayout) (chunkIndex : Nat) : Call σ Nat :=
  if chunkIndex ≥ layout.chunkCount then
    throw (outOfRange "ChunkLayout: chunk index out of range")
  else
    let chunkBegin := u64 (chunkIndex * layout.elemsPerChunk)
    pure (min layout.elemsPerChunk (u64 (layout.totalElems + 2 ^ 64 - chunkBegin)))

def chunkStateBegin (layout : ChunkLayout) (chunkIndex : Nat) : Call σ Nat :=
  if chunkIndex ≥ layout.chunkCount then
    throw (outOfRange "ChunkLayout: chunk index out of range")
  else
    pure (u64 (chunkIndex * layout.statesPerChunk))

def stateRef (layout : ChunkLayout) (state : Nat) : ChunkRef :=
  { chunkIndex := state / layout.statesPerChunk
    elemOffset := u64 (state % layout.statesPerChunk * 2) }

/-!
## Layouts without wrapping

While rounding `totalElems` up to whole chunks does not wrap, the chunks cut the
states into consecutive intervals.
-/

/-- Number of states in one chunk: all chunks are full except the last. -/
def statesIn (layout : ChunkLayout) (chunkIndex : Nat) : Nat :=
  min layout.statesPerChunk (layout.totalStates - chunkIndex * layout.statesPerChunk)

/-- The rounding up in the constructor stays below `2 ^ 64`. -/
def Fits (totalStates statesPerChunk : Nat) : Prop :=
  2 * totalStates + 2 * statesPerChunk - 1 < 2 ^ 64

instance (totalStates statesPerChunk : Nat) : Decidable (Fits totalStates statesPerChunk) :=
  inferInstanceAs (Decidable (_ < _))

/-- A layout whose constructor did not wrap. -/
structure Exact (layout : ChunkLayout) (totalStates statesPerChunk : Nat) : Prop where
  fits : Fits totalStates statesPerChunk
  statesPos : 0 < totalStates
  chunkPos : 0 < statesPerChunk
  totalStates_eq : layout.totalStates = totalStates
  totalElems_eq : layout.totalElems = 2 * totalStates
  statesPerChunk_eq : layout.statesPerChunk = statesPerChunk
  elemsPerChunk_eq : layout.elemsPerChunk = 2 * statesPerChunk
  chunkCount_eq : layout.chunkCount = (totalStates + statesPerChunk - 1) / statesPerChunk

theorem half_round_up (a b : Nat) (hb : 0 < b) :
    (2 * a + 2 * b - 1) / (2 * b) = (a + b - 1) / b := by
  rw [← Nat.div_div_eq_div_mul]
  congr 1
  omega

theorem make_eq {totalStates statesPerChunk : Nat} (hchunk : 0 < statesPerChunk) :
    (make totalStates statesPerChunk : Call σ ChunkLayout) =
      pure (ofSizes totalStates statesPerChunk) := by
  rw [make, if_neg (by omega)]

theorem exact_ofSizes {totalStates statesPerChunk : Nat}
    (hstates : 0 < totalStates) (hchunk : 0 < statesPerChunk)
    (hfits : Fits totalStates statesPerChunk) :
    (ofSizes totalStates statesPerChunk).Exact totalStates statesPerChunk := by
  have hlt : 2 * totalStates + 2 * statesPerChunk - 1 < 2 ^ 64 := hfits
  have htotal : u64 (totalStates * 2) = 2 * totalStates := by
    rw [u64_of_lt (by omega)]
    omega
  have helems : u64 (statesPerChunk * 2) = 2 * statesPerChunk := by
    rw [u64_of_lt (by omega)]
    omega
  have hcount : (ofSizes totalStates statesPerChunk).chunkCount =
      (totalStates + statesPerChunk - 1) / statesPerChunk := by
    simp only [ofSizes, htotal, helems]
    rw [if_neg (by omega), u64_of_lt hlt, half_round_up _ _ hchunk]
  exact
    { fits := hfits
      statesPos := hstates
      chunkPos := hchunk
      totalStates_eq := rfl
      totalElems_eq := htotal
      statesPerChunk_eq := rfl
      elemsPerChunk_eq := helems
      chunkCount_eq := hcount }

theorem chunkCount_of_not_fits {totalStates statesPerChunk : Nat}
    (hstates : 0 < totalStates) (hstates' : totalStates ≤ 2 ^ 32)
    (hchunk : 2 * statesPerChunk < 2 ^ 64)
    (hfits : ¬ Fits totalStates statesPerChunk) :
    (ofSizes totalStates statesPerChunk).chunkCount = 0 := by
  unfold Fits at hfits
  have htotal : u64 (totalStates * 2) = 2 * totalStates := by
    rw [u64_of_lt (by omega)]
    omega
  have helems : u64 (statesPerChunk * 2) = 2 * statesPerChunk := by
    rw [u64_of_lt (by omega)]
    omega
  simp only [ofSizes, htotal, helems]
  rw [if_neg (by omega), u64]
  apply Nat.div_eq_of_lt
  omega

namespace Exact

variable {layout : ChunkLayout} {N k : Nat} (h : layout.Exact N k)
include h

theorem lt_chunkCount_iff (c : Nat) : c < layout.chunkCount <-> c * k < N := by
  have hk := h.chunkPos
  rw [h.chunkCount_eq, Nat.lt_iff_add_one_le, Nat.le_div_iff_mul_le hk, Nat.succ_mul]
  omega

theorem chunkCount_pos : 0 < layout.chunkCount := by
  rw [h.lt_chunkCount_iff, Nat.zero_mul]
  exact h.statesPos

theorem statesIn_eq (c : Nat) : layout.statesIn c = min k (N - c * k) := by
  rw [statesIn, h.statesPerChunk_eq, h.totalStates_eq]

theorem statesIn_pos {c : Nat} (hc : c < layout.chunkCount) : 0 < layout.statesIn c := by
  have hlt := (h.lt_chunkCount_iff c).mp hc
  have hk := h.chunkPos
  rw [h.statesIn_eq]
  omega

theorem chunkElemCount_eq {c : Nat} (hc : c < layout.chunkCount) :
    (layout.chunkElemCount c : Call σ Nat) = pure (2 * layout.statesIn c) := by
  have hlt := (h.lt_chunkCount_iff c).mp hc
  have hk := h.chunkPos
  have hfits := h.fits
  unfold Fits at hfits
  have hbegin : c * (2 * k) = 2 * (c * k) := by
    rw [Nat.mul_left_comm]
  have hwrap : u64 (2 * N + 2 ^ 64 - 2 * (c * k)) = 2 * N - 2 * (c * k) := by
    rw [u64]
    omega
  have hmin : min (2 * k) (2 * N - 2 * (c * k)) = 2 * min k (N - c * k) := by
    omega
  rw [chunkElemCount, if_neg (by omega), h.statesIn_eq, h.elemsPerChunk_eq,
    h.totalElems_eq, hbegin]
  simp only [u64_of_lt (show 2 * (c * k) < 2 ^ 64 by omega), hwrap, hmin]

theorem chunkStateBegin_eq {c : Nat} (hc : c < layout.chunkCount) :
    (layout.chunkStateBegin c : Call σ Nat) = pure (c * k) := by
  have hlt := (h.lt_chunkCount_iff c).mp hc
  have hfits := h.fits
  unfold Fits at hfits
  rw [chunkStateBegin, if_neg (by omega), h.statesPerChunk_eq, u64_of_lt (by omega)]

theorem stateRef_eq {s : Nat} :
    layout.stateRef s = { chunkIndex := s / k, elemOffset := 2 * (s % k) } := by
  have hmod := Nat.mod_lt s h.chunkPos
  have hfits := h.fits
  unfold Fits at hfits
  rw [stateRef, h.statesPerChunk_eq, u64_of_lt (by omega), Nat.mul_comm]

theorem div_lt_chunkCount {s : Nat} (hs : s < N) : s / k < layout.chunkCount := by
  rw [h.lt_chunkCount_iff]
  exact Nat.lt_of_le_of_lt (Nat.div_mul_le_self s k) hs

theorem mod_lt_statesIn {s : Nat} (hs : s < N) : s % k < layout.statesIn (s / k) := by
  have hmod := Nat.mod_lt s h.chunkPos
  have hdiv : s / k * k + s % k = s := Nat.div_add_mod' s k
  rw [h.statesIn_eq]
  omega

end Exact

end ChunkLayout

end Tmfqs
