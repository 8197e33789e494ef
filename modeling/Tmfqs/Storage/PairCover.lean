import Tmfqs.Storage.CompressedTraversals

/-!
# The pairs a traversal visits

The three traversals call their callbacks on one list of pairs each.  Whatever the mode,
the list covers the pairs of the bit exactly, and what it passes about chunks agrees with
the layout.
-/

namespace Tmfqs

open Library

namespace PairKernelExecutor

/-- One call of the callback: what is passed depends on the traversal. -/
inductive PairVisit where
  | fallback (state0 state1 : Nat)
  | intraChunk (chunkIndex local0 local1 state0 state1 : Nat)
  | interChunk (chunk0 chunk1 localState state0 state1 : Nat)
deriving DecidableEq, Repr

namespace PairVisit

def states : PairVisit -> Nat × Nat
  | .fallback state0 state1 => (state0, state1)
  | .intraChunk _ _ _ state0 state1 => (state0, state1)
  | .interChunk _ _ _ state0 state1 => (state0, state1)

/-- What the visit says about chunks is where the layout keeps the two states. -/
def Located (layout : ChunkLayout) : PairVisit -> Prop
  | .fallback _ _ => True
  | .intraChunk chunkIndex local0 local1 state0 state1 =>
      layout.stateRef state0 = { chunkIndex := chunkIndex, elemOffset := 2 * local0 } ∧
        layout.stateRef state1 = { chunkIndex := chunkIndex, elemOffset := 2 * local1 }
  | .interChunk chunk0 chunk1 localState state0 state1 =>
      layout.stateRef state0 = { chunkIndex := chunk0, elemOffset := 2 * localState } ∧
        layout.stateRef state1 = { chunkIndex := chunk1, elemOffset := 2 * localState }

def ofPair (statesPerChunk : Nat) : PairKernelMode -> Nat × Nat -> PairVisit
  | .fallback, p => .fallback p.1 p.2
  | .intraChunk, p =>
      .intraChunk (p.1 / statesPerChunk) (p.1 % statesPerChunk) (p.2 % statesPerChunk) p.1 p.2
  | .interChunk, p =>
      .interChunk (p.1 / statesPerChunk) (p.2 / statesPerChunk) (p.1 % statesPerChunk) p.1 p.2

@[simp] theorem states_ofPair (k : Nat) (mode : PairKernelMode) (p : Nat × Nat) :
    (ofPair k mode p).states = p := by
  cases mode with
  | _ => rfl

end PairVisit

/-- The traversal `selectMode` chooses, with one callback for all modes. -/
def traverse {σ : Type} (layout : ChunkLayout) (numStates targetMask : Nat)
    (visit : PairVisit -> Call σ PUnit) : Call σ PUnit :=
  match selectMode layout targetMask with
  | .fallback =>
      runFallback numStates targetMask fun state0 state1 => visit (.fallback state0 state1)
  | .intraChunk =>
      runIntraChunk layout targetMask fun chunkIndex local0 local1 state0 state1 =>
        visit (.intraChunk chunkIndex local0 local1 state0 state1)
  | .interChunk =>
      runInterChunk layout targetMask fun chunk0 chunk1 localState state0 state1 =>
        visit (.interChunk chunk0 chunk1 localState state0 state1)

/-- The visits make up an exact cover of the pairs of bit `b`. -/
structure ExactCover (n b : Nat) (layout : ChunkLayout) (visits : List PairVisit) : Prop where
  mem_iff : forall p, p ∈ visits.map PairVisit.states <->
    p.1 < 2 ^ n ∧ p.1.testBit b = false ∧ p.2 = p.1 + 2 ^ b
  once : (visits.map PairVisit.states).Nodup
  located : forall visit, visit ∈ visits -> visit.Located layout
  apart : forall chunk0 chunk1 localState state0 state1,
    .interChunk chunk0 chunk1 localState state0 state1 ∈ visits -> chunk0 ≠ chunk1
  together : forall chunk0 chunk1 localState state0 state1
      chunk0' chunk1' localState' state0' state1',
    .interChunk chunk0 chunk1 localState state0 state1 ∈ visits ->
    .interChunk chunk0' chunk1' localState' state0' state1' ∈ visits ->
      (chunk0 = chunk0' <-> chunk1 = chunk1')

/-!
## The pairs of a bit
-/

section Pairs

variable {n b : Nat}

theorem mem_pairList_iff (hb : b < n) (p : Nat × Nat) :
    p ∈ pairList n b <-> p.1 < 2 ^ n ∧ p.1.testBit b = false ∧ p.2 = p.1 + 2 ^ b := by
  constructor
  · intro hp
    obtain ⟨hlow, _, hhigh⟩ := StateVector.mem_pairList hb hp
    obtain ⟨t, _, rfl⟩ := List.mem_map.mp hp
    exact ⟨hlow, StateVector.testBit_lowState t, hhigh⟩
  · rintro ⟨hlt, hclear, hhigh⟩
    obtain ⟨t, ht, hs⟩ := StateVector.exists_lowState hb hlt
    rw [hclear, if_neg (by decide)] at hs
    apply List.mem_map.mpr
    refine ⟨t, List.mem_range.mpr ht, ?_⟩
    exact Prod.ext hs.symm (by rw [hhigh, hs])

theorem nodup_pairList (n b : Nat) : (pairList n b).Nodup := by
  apply StateVector.pairwise_pairList.imp
  intro p q hdisjoint heq
  exact hdisjoint.1 (congrArg Prod.fst heq)

end Pairs

/-!
## The visits of one mode
-/

section Visits

variable {n b k : Nat}

theorem states_visits (mode : PairKernelMode) :
    ((pairList n b).map (PairVisit.ofPair k mode)).map PairVisit.states = pairList n b := by
  rw [List.map_map]
  exact List.map_id'' (PairVisit.states_ofPair k mode) _

theorem exact_of_mode (hn : n ≤ 31) (hk : 0 < k) (hwrap : 2 * k < 2 ^ 64)
    (hmode : selectMode (ChunkLayout.ofSizes (2 ^ n) k) (2 ^ b) ≠ .fallback) :
    exists c, k = 2 ^ c ∧ (ChunkLayout.ofSizes (2 ^ n) k).Exact (2 ^ n) (2 ^ c) := by
  obtain ⟨c, hc⟩ := exists_power_of_mode hk hmode
  have hpower : k = 2 ^ c := hc
  refine ⟨c, hpower, ?_⟩
  subst hpower
  have hc62 : c ≤ 62 := by
    by_contra hlarge
    have hle : 2 ^ 63 ≤ 2 ^ c := Nat.pow_le_pow_right (by decide) (by omega)
    omega
  have hchunk : 2 ^ c ≤ 2 ^ 62 := Nat.pow_le_pow_right (by decide) hc62
  have hstates : 2 ^ n ≤ 2 ^ 31 := Nat.pow_le_pow_right (by decide) hn
  exact ChunkLayout.exact_ofSizes (Nat.two_pow_pos n) hk (by unfold ChunkLayout.Fits; omega)

variable (hn : n ≤ 31) (hb : b < n)
include hn hb

theorem traverse_eq (hk : 0 < k) (hwrap : 2 * k < 2 ^ 64) {σ : Type}
    (visit : PairVisit -> Call σ PUnit) :
    traverse (ChunkLayout.ofSizes (2 ^ n) k) (2 ^ n) (2 ^ b) visit =
      ((pairList n b).map (PairVisit.ofPair k
        (selectMode (ChunkLayout.ofSizes (2 ^ n) k) (2 ^ b)))).forM visit := by
  rw [traverse, Call.forM_map]
  cases hmode : selectMode (ChunkLayout.ofSizes (2 ^ n) k) (2 ^ b) with
  | fallback => exact runFallback_eq hn hb _
  | intraChunk =>
      obtain ⟨c, rfl, hexact⟩ := exact_of_mode hn hk hwrap (by rw [hmode]; decide)
      exact runIntraChunk_eq hn hb hexact (lt_of_intraChunk hexact hmode) _
  | interChunk =>
      obtain ⟨c, rfl, hexact⟩ := exact_of_mode hn hk hwrap (by rw [hmode]; decide)
      exact runInterChunk_eq hn hb hexact (le_of_interChunk hexact hmode) _

theorem located_ofPair (hk : 0 < k) (hwrap : 2 * k < 2 ^ 64) {p : Nat × Nat}
    (hp : p ∈ pairList n b) :
    (PairVisit.ofPair k (selectMode (ChunkLayout.ofSizes (2 ^ n) k) (2 ^ b)) p).Located
      (ChunkLayout.ofSizes (2 ^ n) k) := by
  cases hmode : selectMode (ChunkLayout.ofSizes (2 ^ n) k) (2 ^ b) with
  | fallback => exact trivial
  | intraChunk =>
      obtain ⟨c, rfl, hexact⟩ := exact_of_mode hn hk hwrap (by rw [hmode]; decide)
      have hsame := CompressedStateBackend.div_eq_of_mem_pairList hp
        (lt_of_intraChunk hexact hmode)
      refine ⟨hexact.stateRef_eq, ?_⟩
      rw [hexact.stateRef_eq, hsame]
  | interChunk =>
      obtain ⟨c, rfl, hexact⟩ := exact_of_mode hn hk hwrap (by rw [hmode]; decide)
      have hlocal := (CompressedStateBackend.chunks_of_mem_pairList hb hp
        (le_of_interChunk hexact hmode)).2
      refine ⟨hexact.stateRef_eq, ?_⟩
      rw [hexact.stateRef_eq, hlocal]

theorem exists_chunkDelta (hk : 0 < k) (hwrap : 2 * k < 2 ^ 64) :
    exists delta, 0 < delta ∧ forall chunk0 chunk1 localState state0 state1,
      .interChunk chunk0 chunk1 localState state0 state1 ∈
        (pairList n b).map (PairVisit.ofPair k
          (selectMode (ChunkLayout.ofSizes (2 ^ n) k) (2 ^ b))) ->
      chunk1 = chunk0 + delta := by
  cases hmode : selectMode (ChunkLayout.ofSizes (2 ^ n) k) (2 ^ b) with
  | interChunk =>
      obtain ⟨c, rfl, hexact⟩ := exact_of_mode hn hk hwrap (by rw [hmode]; decide)
      refine ⟨2 ^ (b - c), Nat.two_pow_pos _, ?_⟩
      intro chunk0 chunk1 localState state0 state1 hmem
      obtain ⟨p, hp, heq⟩ := List.mem_map.mp hmem
      have hchunks := (CompressedStateBackend.chunks_of_mem_pairList hb hp
        (le_of_interChunk hexact hmode)).1
      cases heq
      exact hchunks
  | _ =>
      -- the other traversals pass no second chunk
      refine ⟨1, Nat.one_pos, ?_⟩
      intro chunk0 chunk1 localState state0 state1 hmem
      obtain ⟨p, _, heq⟩ := List.mem_map.mp hmem
      cases heq

theorem exactCover_visits (hk : 0 < k) (hwrap : 2 * k < 2 ^ 64) :
    ExactCover n b (ChunkLayout.ofSizes (2 ^ n) k) ((pairList n b).map (PairVisit.ofPair k
      (selectMode (ChunkLayout.ofSizes (2 ^ n) k) (2 ^ b)))) := by
  have hstates := states_visits (n := n) (b := b) (k := k)
    (selectMode (ChunkLayout.ofSizes (2 ^ n) k) (2 ^ b))
  obtain ⟨delta, hpos, hdelta⟩ := exists_chunkDelta hn hb hk hwrap
  exact
    { mem_iff := by
        intro p
        rw [hstates]
        exact mem_pairList_iff hb p
      once := by
        rw [hstates]
        exact nodup_pairList n b
      located := by
        intro visit hvisit
        obtain ⟨p, hp, rfl⟩ := List.mem_map.mp hvisit
        exact located_ofPair hn hb hk hwrap hp
      apart := by
        intro chunk0 chunk1 localState state0 state1 hmem
        have h := hdelta _ _ _ _ _ hmem
        omega
      together := by
        intro _ _ _ _ _ _ _ _ _ _ hmem hmem'
        have h := hdelta _ _ _ _ _ hmem
        have h' := hdelta _ _ _ _ _ hmem'
        omega }

/--
The chosen traversal calls the callback on the visits of an exact cover, one after the
other, whatever the callback does.
-/
theorem traverse_covers (hk : 1 ≤ k) (hwrap : 2 * k < 2 ^ 64) :
    exists visits, ExactCover n b (ChunkLayout.ofSizes (2 ^ n) k) visits ∧
      forall {σ : Type} (visit : PairVisit -> Call σ PUnit),
        traverse (ChunkLayout.ofSizes (2 ^ n) k) (2 ^ n) (2 ^ b) visit = visits.forM visit :=
  ⟨_, exactCover_visits hn hb hk hwrap, fun visit => traverse_eq hn hb hk hwrap visit⟩

end Visits

theorem traverse_covers_short_chunks :
    exists visits, ExactCover 5 3 (ChunkLayout.ofSizes (2 ^ 5) 4) visits ∧
      forall {σ : Type} (visit : PairVisit -> Call σ PUnit),
        traverse (ChunkLayout.ofSizes (2 ^ 5) 4) (2 ^ 5) (2 ^ 3) visit = visits.forM visit :=
  traverse_covers (by decide) (by decide) (by decide) (by decide)

end PairKernelExecutor

end Tmfqs
