import Tmfqs.Storage.ChunkLayout
import Tmfqs.Storage.CodecConfig

/-!
# Chunk sizes the codecs accept

What makes the addresses of a layout safe, and for which of the accepted chunk sizes
they are.
-/

namespace Tmfqs

namespace ChunkLayout

/-!
## States of the first chunks
-/

theorem Exact.sum_statesIn {layout : ChunkLayout} {N k : Nat} (h : layout.Exact N k) (m : Nat) :
    ((List.range m).map layout.statesIn).sum = min (m * k) N := by
  induction m with
  | zero => simp
  | succ m ih =>
      rw [List.range_succ, List.map_append, List.sum_append, ih, Nat.succ_mul]
      simp only [List.map_cons, List.map_nil, List.sum_cons, List.sum_nil, h.statesIn_eq]
      omega

theorem Exact.sum_all_statesIn {layout : ChunkLayout} {N k : Nat} (h : layout.Exact N k) :
    ((List.range layout.chunkCount).map layout.statesIn).sum = N := by
  have hlast : ¬ layout.chunkCount < layout.chunkCount := Nat.lt_irrefl _
  rw [h.lt_chunkCount_iff, Nat.not_lt] at hlast
  rw [h.sum_statesIn, Nat.min_eq_right hlast]

/-!
## Safe addresses
-/

/--
Nothing the constructor computes for `N` states in chunks of `k` wraps or divides by
zero, and the states lie apart in chunks that make up all elements.
-/
structure SafelyAddressed (N k : Nat) : Prop where
  division : (ofSizes N k).statesPerChunk ≠ 0 ∧ (ofSizes N k).elemsPerChunk ≠ 0
  products : N * 2 < 2 ^ 64 ∧ k * 2 < 2 ^ 64
  roundUp : (ofSizes N k).totalElems + (ofSizes N k).elemsPerChunk < 2 ^ 64
  inChunk : forall s, s < N ->
    ((ofSizes N k).stateRef s).chunkIndex < (ofSizes N k).chunkCount ∧
      exists elemCount,
        (ofSizes N k).chunkElemCount ((ofSizes N k).stateRef s).chunkIndex =
            (pure elemCount : Call Unit Nat) ∧
          ((ofSizes N k).stateRef s).elemOffset + 1 < elemCount
  disjoint : forall s t, s < N -> t < N -> s ≠ t ->
    ((ofSizes N k).stateRef s).chunkIndex = ((ofSizes N k).stateRef t).chunkIndex ->
      ((ofSizes N k).stateRef s).elemOffset + 1 < ((ofSizes N k).stateRef t).elemOffset ∨
        ((ofSizes N k).stateRef t).elemOffset + 1 < ((ofSizes N k).stateRef s).elemOffset
  total : exists elemCount : Nat -> Nat,
    (forall c, c < (ofSizes N k).chunkCount ->
      (ofSizes N k).chunkElemCount c = (pure (elemCount c) : Call Unit Nat)) ∧
      ((List.range (ofSizes N k).chunkCount).map elemCount).sum = 2 * N

variable {N k : Nat}

theorem safelyAddressed_of_lt (hN : 0 < N) (hk : 0 < k) (hlt : N + k < 2 ^ 63) :
    SafelyAddressed N k := by
  have h : (ofSizes N k).Exact N k := exact_ofSizes hN hk (by unfold Fits; omega)
  exact
    { division := by
        rw [h.statesPerChunk_eq, h.elemsPerChunk_eq]
        omega
      products := by omega
      roundUp := by
        rw [h.totalElems_eq, h.elemsPerChunk_eq]
        omega
      inChunk := by
        intro s hs
        rw [h.stateRef_eq]
        refine ⟨h.div_lt_chunkCount hs, _, h.chunkElemCount_eq (h.div_lt_chunkCount hs), ?_⟩
        have hmod := h.mod_lt_statesIn hs
        simp only
        omega
      disjoint := by
        intro s t _ _ hne hchunk
        rw [h.stateRef_eq, h.stateRef_eq] at hchunk ⊢
        simp only at hchunk ⊢
        have hs := Nat.div_add_mod s k
        have ht := Nat.div_add_mod t k
        rw [hchunk] at hs
        omega
      total := by
        refine ⟨fun c => 2 * (ofSizes N k).statesIn c, fun c hc => h.chunkElemCount_eq hc, ?_⟩
        have hsum := h.sum_all_statesIn
        rw [List.sum_map_mul_left, hsum] }

theorem safelyAddressed_iff (hN : 0 < N) (hk : 0 < k) :
    SafelyAddressed N k <-> N + k < 2 ^ 63 := by
  constructor
  · intro h
    have hroundUp : u64 (N * 2) + u64 (k * 2) < 2 ^ 64 := h.roundUp
    rw [u64_of_lt h.products.1, u64_of_lt h.products.2] at hroundUp
    omega
  · exact safelyAddressed_of_lt hN hk

end ChunkLayout

/-!
## Accepted chunk sizes
-/

section Accepted

variable {R : Type} [Field R] [LinearOrder R]

def AcceptedChunkStates (cfg : RegisterConfig (CodecSettings R)) (k : Nat) : Prop :=
  Accepts (BloscCodec.validateConfig cfg) ∧ cfg.settings.blosc.chunkStates = k ∨
    Accepts (ZfpCodec.validateConfig cfg) ∧ cfg.settings.zfp.chunkStates = k

theorem AcceptedChunkStates.pos {cfg : RegisterConfig (CodecSettings R)} {k : Nat}
    (h : AcceptedChunkStates cfg k) : 0 < k := by
  rcases h with ⟨haccepted, rfl⟩ | ⟨haccepted, rfl⟩
  · exact ((BloscCodec.accepts_iff cfg).mp haccepted).1
  · exact ((ZfpCodec.accepts_iff cfg).mp haccepted).2.2.2.1

theorem accepted_safelyAddressed_iff {cfg : RegisterConfig (CodecSettings R)} {n k : Nat}
    (haccepted : AcceptedChunkStates cfg k) :
    ChunkLayout.SafelyAddressed (2 ^ n) k <-> 2 ^ n + k < 2 ^ 63 :=
  ChunkLayout.safelyAddressed_iff (Nat.two_pow_pos n) haccepted.pos

theorem default_safelyAddressed_iff :
    ChunkLayout.SafelyAddressed (2 ^ 31) 32768 <-> 2 ^ 31 + 32768 < 2 ^ 63 :=
  accepted_safelyAddressed_iff (R := Rat) (Or.inl ⟨(default_accepted .blosc 0).1, rfl⟩)

def withChunkStates (bloscStates zfpStates : Nat) : RegisterConfig (CodecSettings Rat) :=
  { strategy := .blosc
    autoThresholdBytes := 0
    settings :=
      { blosc := { chunkStates := bloscStates }
        zfp := { CodecSettings.default.zfp with chunkStates := zfpStates } } }

/--
The doubled chunk size wraps to zero in the validation and in the layout alike, which
then divides by it; just below, rounding up leaves a layout without chunks.
-/
theorem accepted_chunks_wrap :
    Accepts (BloscCodec.validateConfig (withChunkStates (2 ^ 63) 1)) ∧
      (ChunkLayout.ofSizes (2 ^ 1) (2 ^ 63)).elemsPerChunk = 0 ∧
      ¬ ChunkLayout.SafelyAddressed (2 ^ 1) (2 ^ 63) ∧
      Accepts (ZfpCodec.validateConfig (withChunkStates 1 (2 ^ 63 - 1))) ∧
      (ChunkLayout.ofSizes (2 ^ 1) (2 ^ 63 - 1)).chunkCount = 0 ∧
      ¬ ChunkLayout.SafelyAddressed (2 ^ 1) (2 ^ 63 - 1) := by
  have hdefault := default_accepted (R := Rat) .blosc 0
  rw [BloscCodec.accepts_iff, ZfpCodec.accepts_iff] at hdefault
  rcases hdefault with ⟨⟨_, hclevel, hnthreads, hslots, _⟩, hrate, hprecision, haccuracy, _, hrest⟩
  have hblosc : Accepts (BloscCodec.validateConfig (withChunkStates (2 ^ 63) 1)) := by
    have hpayload : 8 * u64 (2 * 2 ^ 63) < 2 ^ 31 := by decide
    exact (BloscCodec.accepts_iff _).mpr
      ⟨Nat.one_le_two_pow, hclevel, hnthreads, hslots, hpayload⟩
  have hzfp : Accepts (ZfpCodec.validateConfig (withChunkStates 1 (2 ^ 63 - 1))) := by
    have hchunk : 1 ≤ 2 ^ 63 - 1 := by decide
    exact (ZfpCodec.accepts_iff _).mpr ⟨hrate, hprecision, haccuracy, hchunk, hrest⟩
  refine ⟨hblosc, rfl, ?_, hzfp, rfl, ?_⟩
  · rw [ChunkLayout.safelyAddressed_iff (by decide) (by decide)]
    decide
  · rw [ChunkLayout.safelyAddressed_iff (by decide) (by decide)]
    decide

end Accepted

end Tmfqs
