import Mathlib.Data.Finset.Card
import Tmfqs.Storage.CompressedSound

/-!
# Reading through the cache

Reading an amplitude of a chunk that is not cached brings the chunk in, which may evict
another one.  A cache with fewer slots than chunks always has a chunk to bring in, and
bringing in chunks evicts every cached one sooner or later.
-/

namespace Tmfqs

open Library

namespace ChunkCache

variable {R : Type} {c c' : ChunkCache R}

/-!
## Counting slots
-/

theorem Coherent.exists_uncached (hc : c.Coherent none)
    (hcap : c.capacity < c.chunkToSlot.length) :
    exists k, k < c.chunkToSlot.length ∧ c.slotOf k = none := by
  by_contra hall
  have hcached : forall k, k < c.chunkToSlot.length -> exists i, c.slotOf k = some i := by
    intro k hk
    cases hslot : c.slotOf k with
    | none => exact absurd ⟨k, hk, hslot⟩ hall
    | some i => exact ⟨i, rfl⟩
  have hmaps : forall k, k ∈ Finset.range c.chunkToSlot.length ->
      (c.slotOf k).getD 0 ∈ Finset.range c.slots.length := by
    intro k hk
    rcases hcached k (Finset.mem_range.mp hk) with ⟨i, hi⟩
    rw [hi]
    exact Finset.mem_range.mpr (hc.carried hi).1
  have hcard : (Finset.range c.slots.length).card < (Finset.range c.chunkToSlot.length).card := by
    rw [Finset.card_range, Finset.card_range]
    exact Nat.lt_of_le_of_lt hc.size hcap
  rcases Finset.exists_ne_map_eq_of_card_lt_of_maps_to hcard hmaps with
    ⟨j, hj, k, hk, hne, heq⟩
  rcases hcached j (Finset.mem_range.mp hj) with ⟨i, hi⟩
  rcases hcached k (Finset.mem_range.mp hk) with ⟨i', hi'⟩
  rw [hi, hi'] at heq
  have hii : i = i' := heq
  subst hii
  exact hne (hc.slotOf_inj hi hi')

theorem Coherent.slots_lt_chunks (hc : c.Coherent none) {k : Nat}
    (hk : k < c.chunkToSlot.length) (hnone : c.slotOf k = none) :
    c.slots.length < c.chunkToSlot.length := by
  by_contra hle
  have hcarried : forall i, i < c.slots.length ->
      exists j, (c.slot i).chunkIndex = some j ∧ c.slotOf j = some i :=
    fun i hi => hc.mapped hi (by simp)
  have hmaps : forall i, i ∈ Finset.range c.slots.length ->
      ((c.slot i).chunkIndex).getD 0 ∈ (Finset.range c.chunkToSlot.length).erase k := by
    intro i hi
    rcases hcarried i (Finset.mem_range.mp hi) with ⟨j, hindex, hslot⟩
    rw [hindex]
    refine Finset.mem_erase.mpr ⟨?_, Finset.mem_range.mpr (c.slotOf_lt hslot)⟩
    intro heq
    change j = k at heq
    rw [heq, hnone] at hslot
    cases hslot
  have hcard : ((Finset.range c.chunkToSlot.length).erase k).card <
      (Finset.range c.slots.length).card := by
    rw [Finset.card_erase_of_mem (Finset.mem_range.mpr hk), Finset.card_range, Finset.card_range]
    omega
  rcases Finset.exists_ne_map_eq_of_card_lt_of_maps_to hcard hmaps with
    ⟨i, hi, i', hi', hne, heq⟩
  rcases hcarried i (Finset.mem_range.mp hi) with ⟨j, hindex, hslot⟩
  rcases hcarried i' (Finset.mem_range.mp hi') with ⟨j', hindex', hslot'⟩
  rw [hindex, hindex'] at heq
  have hjj : j = j' := heq
  subst hjj
  rw [hslot] at hslot'
  exact hne (Option.some.inj hslot')

theorem Acquired.isDirty {k : Nat} {handle : SlotHandle}
    {victim : Option Nat} (h : Acquired c c' k handle victim) {j : Nat} (hj : victim ≠ some j) :
    c'.isDirty j = c.isDirty j := by
  by_cases hjk : j = k
  · rw [hjk, ChunkCache.isDirty, h.entrySelf]
    rfl
  · rw [ChunkCache.isDirty, h.entry hjk, if_neg hj, ChunkCache.isDirty]

def olderSlots (c : ChunkCache R) (i : Nat) : Finset Nat :=
  (Finset.range c.slots.length).filter fun j => (c.slot j).touch < (c.slot i).touch

/-- How many chunks have to be brought in before slot `i` is the victim. -/
def readsLeft (c : ChunkCache R) (i : Nat) : Nat :=
  (c.capacity - c.slots.length) + (c.olderSlots i).card

/-- Every chunk that is brought in makes slot `i` the next victim or one step older. -/
theorem Acquired.readsLeft_lt {k w i : Nat} {handle : SlotHandle} {victim : Option Nat}
    (h : Acquired c c' k handle victim) (hc : c.Coherent none) (hnone : c.slotOf k = none)
    (hw : c.slotOf w = some i) (hvictim : victim ≠ some w) :
    c'.slotOf w = some i ∧ c'.slot i = c.slot i ∧ c'.readsLeft i < c.readsLeft i := by
  have hwk : w ≠ k := by
    intro heq
    rw [heq, hnone] at hw
    cases hw
  have hw' : c'.slotOf w = some i := by
    rw [h.slotOf w hwk, if_neg hvictim, hw]
  have hne : i ≠ handle.slotIndex := by
    intro heq
    rw [heq] at hw'
    exact hwk (h.coherent.slotOf_inj hw' h.live)
  have hslot := h.slot i hne
  refine ⟨hw', hslot, ?_⟩
  obtain ⟨hi, _, _⟩ := hc.carried hw
  have htouch := hc.touched hi (by simp)
  -- the slot brought in is the newest, and all others are as they were
  have hsub : forall j, j ∈ c'.olderSlots i -> j ∈ c.olderSlots i ∧ j ≠ handle.slotIndex := by
    intro j hj
    obtain ⟨hlt, holder⟩ := Finset.mem_filter.mp hj
    have hjh : j ≠ handle.slotIndex := by
      intro heq
      rw [heq, h.newest, h.counter, hslot] at holder
      omega
    rw [h.slot j hjh, hslot] at holder
    refine ⟨Finset.mem_filter.mpr ⟨?_, holder⟩, hjh⟩
    rw [Finset.mem_range] at hlt ⊢
    by_contra hge
    obtain ⟨l, hindex, _⟩ := h.coherent.mapped hlt (by simp)
    have hbeyond : c.slots[j]? = none := List.getElem?_eq_none (Nat.not_lt.mp hge)
    rw [h.slot j hjh, ChunkCache.slot, List.getD_eq_getElem?_getD, hbeyond] at hindex
    cases hindex
  have hcapacity := h.shape.capacity
  have hslots := h.slots
  unfold readsLeft
  cases victim with
  | none =>
      have hroom : c.slots.length < c.capacity := by
        rcases h.keeps rfl with hcached | hroom
        · exact absurd hnone hcached
        · exact hroom
      rw [if_pos ⟨hnone, hroom⟩] at hslots
      have hle : (c'.olderSlots i).card ≤ (c.olderSlots i).card :=
        Finset.card_le_card fun j hj => (hsub j hj).1
      omega
  | some v =>
      obtain ⟨_, hfull, hv⟩ := h.evicts v rfl
      rw [if_neg (fun hgrows => hfull hgrows.2)] at hslots
      obtain ⟨hlt, _, _⟩ := hc.carried hv
      have hle := h.oldest v i rfl hi
      have hmem : handle.slotIndex ∈ c.olderSlots i := by
        refine Finset.mem_filter.mpr ⟨Finset.mem_range.mpr hlt, ?_⟩
        refine lt_of_le_of_ne hle ?_
        intro heq
        exact hne (hc.distinct hi hlt (by simp) (by simp) heq.symm)
      have hcard : (c'.olderSlots i).card < (c.olderSlots i).card := by
        apply Finset.card_lt_card
        refine ⟨fun j hj => (hsub j hj).1, ?_⟩
        intro hback
        exact (hsub _ (hback hmem)).2 rfl
      omega

end ChunkCache

/-!
## Reading an amplitude
-/

namespace CompressedStateBackend

open ChunkCache

variable {R B : Type} [Field R] {P : CodecPolicy R B} {round : List R -> List R}
  {hR : P.Rounds round} {n : Nat} {X S : Nat -> List R} {b b' : CompressedStateBackend P}

/-- Chunk `k`, not cached before, has been brought in, and chunk `victim` evicted. -/
structure Fetched (hR : P.Rounds round) (X S : Nat -> List R) (k : Nat) (victim : Option Nat)
    (b b' : CompressedStateBackend P) : Prop where
  rest : b' = { b with cache := b'.cache, store := b'.store }
  uncached : b.cache.slotOf k = none
  acquired : exists handle, Acquired b.cache b'.cache k handle victim
  after : AfterRoom (ChunkVector.chunkStore hR b.layout.chunkCount) b.cache b'.cache b'.store X S
    victim

section

omit [Field R]

theorem Fetched.layout {k : Nat} {victim : Option Nat} (h : Fetched hR X S k victim b b') :
    b'.layout = b.layout := by
  rw [h.rest]

theorem Contains.fetched_none (h : Contains hR n X S b) {k : Nat}
    (hf : Fetched hR X S k none b b') : Contains hR n X S b' := by
  rcases hf.acquired with ⟨handle, hacq⟩
  rw [hf.rest]
  exact Contains.moved h.shaped h.length (fun _ => rfl) hacq.coherent hacq.shape hf.after

theorem Contains.fetched_some (h : Contains hR n X S b) {k w : Nat}
    (hf : Fetched hR X S k (some w) b b') :
    Contains hR n (readAfterEvict (ChunkVector.chunkStore hR b.layout.chunkCount) b.cache X S w)
      (storedAfterFlush (ChunkVector.chunkStore hR b.layout.chunkCount) b.cache X S w) b' := by
  rcases hf.acquired with ⟨handle, hacq⟩
  rw [hf.rest]
  exact Contains.moved h.shaped h.length (length_readAfterEvict h.content.length w)
    hacq.coherent hacq.shape hf.after

end

theorem Contains.findAmplitude (h : Contains hR n X S b) {s : Nat} (hs : s < 2 ^ n) :
    Call.Post (CompressedStateBackend.findAmplitude s) b
      (fun a b' => a = readAmp (X (s / P.chunkStates)) (2 * (s % P.chunkStates)) ∧
        (b.cache.slotOf (s / P.chunkStates) ≠ none ∧ b' = b ∨
          exists victim, Fetched hR X S (s / P.chunkStates) victim b b'))
      (fun _ _ => False) := by
  have href := h.shaped.layout.stateRef_eq (s := s)
  have hk : s / P.chunkStates < b.layout.chunkCount := h.shaped.layout.div_lt_chunkCount hs
  have hkey : s / P.chunkStates < b.cache.chunkToSlot.length := h.shaped.cacheChunks ▸ hk
  rw [CompressedStateBackend.findAmplitude, Call.post_bind_iff, Call.post_get]
  simp only [href, findBuffer_eq]
  cases hslot : b.cache.slotOf (s / P.chunkStates) with
  | some i =>
      rw [entry_eq hslot]
      refine ⟨?_, Or.inl ⟨by simp, rfl⟩⟩
      rw [h.content.buffer hslot]
  | none =>
      have hentry : b.cache.entry (s / P.chunkStates) = none := by
        rw [entry, hslot]
        rfl
      rw [hentry]
      simp only [Option.map_none]
      rw [Call.post_bind_iff, acquireChunk, onCached, Call.post_focus_iff]
      refine (post_acquire h.shaped.coherent h.content hkey (fun hf => hf.elim)).imp ?_
        (fun _ _ he => he.1)
      rintro handle ⟨c, s'⟩ ⟨victim, hacq, hbuffer, hafter⟩
      rw [Call.post_bind_iff, Call.post_get, Call.post_pure]
      refine ⟨?_, Or.inr ⟨victim, rfl, hslot, ⟨handle, hacq⟩, hafter⟩⟩
      rw [slotData, hbuffer]

theorem Contains.amplitude (h : Contains hR n X S b) {s : Nat} (hs : s < 2 ^ n) :
    Call.Post (CompressedStateBackend.amplitude s) b
      (fun a b' => a = readAmp (X (s / P.chunkStates)) (2 * (s % P.chunkStates)) ∧
        (b.cache.slotOf (s / P.chunkStates) ≠ none ∧ b' = b ∨
          exists victim, Fetched hR X S (s / P.chunkStates) victim b b'))
      (fun _ _ => False) := by
  rw [CompressedStateBackend.amplitude, Call.post_bind_iff]
  refine Call.post_of_ok (ensureInitialized_eq h.shaped _) ?_
  rw [Call.post_bind_iff, Call.post_get, validateStateIndex_eq h.shaped hs, pure_bind]
  exact h.findAmplitude hs

end CompressedStateBackend

end Tmfqs
