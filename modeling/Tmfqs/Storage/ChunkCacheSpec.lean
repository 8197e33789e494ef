import Mathlib.Logic.Function.Basic
import Tmfqs.Storage.ChunkCacheInvariant

/-!
# What the operations of the chunk cache do

The callbacks of a backend are described by what they store for each chunk.
Together with the cached buffers this gives every chunk a content, and each cache
operation is described by its effect on the contents.
-/

namespace Tmfqs

open Library

def Slot.clean {R : Type} (slot : Slot R) : Slot R :=
  { slot with dirty := false }

namespace ChunkCache

variable {R σ : Type}

/-!
## Chunk stores
-/

/--
A backend state as a store of chunks.  `Stored s k x` says that chunk `k` loads as
`x`, `Sized s k n` that it has `n` elements, `round x` is what a chunk stored as
`x` loads as, and `throws` is whether the callbacks may fail.
-/
structure ChunkStore (cb : ChunkCallbacks R σ) where
  Stored : σ -> Nat -> List R -> Prop
  Sized : σ -> Nat -> Nat -> Prop
  round : List R -> List R
  throws : Prop
  pos : forall {s k n}, Sized s k n -> 0 < n
  length_round : forall x, (round x).length = x.length
  elemCount : forall {s k n}, Sized s k n ->
    Call.Post (cb.elemCount k) s
      (fun m s' => m = n ∧ (forall j x, Stored s j x -> Stored s' j x) ∧
        forall j l, Sized s j l -> Sized s' j l)
      (fun _ s' => throws ∧ (forall j x, Stored s j x -> Stored s' j x) ∧
        forall j l, Sized s j l -> Sized s' j l)
  loadChunk : forall {s k x} buffer, Sized s k x.length -> Stored s k x ->
    Call.Post (cb.loadChunk k x.length) (buffer, s)
      (fun _ t => t.1 = x ∧ (forall j y, Stored s j y -> Stored t.2 j y) ∧
        forall j l, Sized s j l -> Sized t.2 j l)
      (fun _ t => throws ∧ (forall j y, Stored s j y -> Stored t.2 j y) ∧
        forall j l, Sized s j l -> Sized t.2 j l)
  storeChunk : forall {s k x}, Sized s k x.length ->
    Call.Post (cb.storeChunk k x x.length) s
      (fun _ s' => Stored s' k (round x) ∧
        (forall j y, j ≠ k -> Stored s j y -> Stored s' j y) ∧
        forall j l, Sized s j l -> Sized s' j l)
      (fun _ s' => throws ∧
        (forall j y, j ≠ k -> Stored s j y -> Stored s' j y) ∧
        forall j l, Sized s j l -> Sized s' j l)

variable [Zero R] {cb : ChunkCallbacks R σ} (st : ChunkStore cb)

/--
Every chunk `k` reads as `X k` and, unless its slot is dirty, is stored as `S k`.
-/
structure Content (c : ChunkCache R) (s : σ) (X S : Nat -> List R) : Prop where
  sized : forall k, k < c.chunkToSlot.length -> st.Sized s k (X k).length
  length : forall k, (S k).length = (X k).length
  cached : forall k buffer dirty, c.entry k = some (buffer, dirty) ->
    buffer = X k ∧ (dirty = false -> st.Stored s k (S k))
  stored : forall k, k < c.chunkToSlot.length -> c.entry k = none ->
    X k = S k ∧ st.Stored s k (S k)

section Frames

variable {st} {c c' : ChunkCache R} {s s' : σ} {X S : Nat -> List R}

section

omit [Zero R]

theorem Content.keep (h : Content st c s X S)
    (hstored : forall j x, st.Stored s j x -> st.Stored s' j x)
    (hsized : forall j l, st.Sized s j l -> st.Sized s' j l) :
    Content st c s' X S where
  sized k hk := hsized k _ (h.sized k hk)
  length := h.length
  cached k buffer dirty hk :=
    ⟨(h.cached k buffer dirty hk).1, fun hclean => hstored k _ ((h.cached k buffer dirty hk).2 hclean)⟩
  stored k hk hnone := ⟨(h.stored k hk hnone).1, hstored k _ (h.stored k hk hnone).2⟩

theorem Content.congr (h : Content st c s X S)
    (hlen : c'.chunkToSlot.length = c.chunkToSlot.length)
    (hentry : forall k, c'.entry k = c.entry k) : Content st c' s X S where
  sized k hk := h.sized k (hlen ▸ hk)
  length := h.length
  cached k buffer dirty hk := h.cached k buffer dirty (hentry k ▸ hk)
  stored k hk hnone := h.stored k (hlen ▸ hk) (hentry k ▸ hnone)

theorem entry_eq {k i : Nat} (hk : c.slotOf k = some i) :
    c.entry k = some ((c.slot i).buffer, (c.slot i).dirty) := by
  rw [entry, hk]
  rfl

theorem Content.buffer (h : Content st c s X S) {k i : Nat} (hk : c.slotOf k = some i) :
    (c.slot i).buffer = X k :=
  (h.cached k _ _ (entry_eq hk)).1

theorem entry_modifySlot (hc : c.Coherent none) {k i : Nat} (hk : c.slotOf k = some i)
    (f : Slot R -> Slot R) (j : Nat) :
    (c.modifySlot i f).entry j =
      if j = k then some ((f (c.slot i)).buffer, (f (c.slot i)).dirty) else c.entry j := by
  have hi := (hc.carried hk).1
  by_cases hjk : j = k
  · subst hjk
    rw [if_pos rfl, entry_eq (c := c.modifySlot i f) hk, c.slot_modifySlot hi, if_pos rfl]
  · rw [if_neg hjk]
    cases hj : c.slotOf j with
    | none =>
        rw [entry, entry, slotOf_modifySlot, hj]
        rfl
    | some l =>
        have hli : l ≠ i := by
          intro heq
          subst heq
          exact hjk (hc.slotOf_inj hj hk)
        rw [entry_eq (c := c.modifySlot i f) hj, entry_eq hj, c.slot_modifySlot hi, if_neg hli]

end

end Frames

/-!
## Flushing
-/

def isDirty (c : ChunkCache R) (k : Nat) : Bool :=
  (c.entry k).any Prod.snd

def storedAfterFlush (c : ChunkCache R) (X S : Nat -> List R) (k : Nat) : Nat -> List R :=
  Function.update S k (if c.isDirty k then st.round (X k) else S k)

def readAfterEvict (c : ChunkCache R) (X S : Nat -> List R) (k : Nat) : Nat -> List R :=
  Function.update X k (storedAfterFlush st c X S k k)

omit [Zero R] in
theorem isDirty_eq {c : ChunkCache R} {k i : Nat} (hk : c.slotOf k = some i) :
    c.isDirty k = (c.slot i).dirty := by
  rw [isDirty, entry_eq hk]
  rfl

variable {st}

section

omit [Zero R]

theorem length_storedAfterFlush {c : ChunkCache R} {X S : Nat -> List R}
    (h : forall j, (S j).length = (X j).length) (k j : Nat) :
    (storedAfterFlush st c X S k j).length = (X j).length := by
  by_cases hjk : j = k
  · subst hjk
    rw [storedAfterFlush, Function.update_self]
    split
    · exact st.length_round _
    · exact h j
  · rw [storedAfterFlush, Function.update_of_ne hjk]
    exact h j

theorem length_readAfterEvict {c : ChunkCache R} {X S : Nat -> List R}
    (h : forall j, (S j).length = (X j).length) (k j : Nat) :
    (readAfterEvict st c X S k j).length = (X j).length := by
  by_cases hjk : j = k
  · subst hjk
    rw [readAfterEvict, Function.update_self]
    exact length_storedAfterFlush h j j
  · rw [readAfterEvict, Function.update_of_ne hjk]

theorem post_flushSlot {c : ChunkCache R} {s : σ} {X S : Nat -> List R} {i k : Nat}
    (hc : c.Coherent none) (h : Content st c s X S) (hk : c.slotOf k = some i) :
    Call.Post (flushSlot cb i) (c, s)
      (fun _ t => t.1 = c.modifySlot i Slot.clean ∧
        Content st t.1 t.2 X (storedAfterFlush st c X S k))
      (fun _ t => st.throws ∧ t.1 = c ∧ Content st c t.2 X S) := by
  obtain ⟨hi, hindex, _⟩ := hc.carried hk
  have hkey := c.slotOf_lt hk
  have hbuffer := h.buffer hk
  have hsized := h.sized k hkey
  rw [flushSlot, Call.post_bind_iff, Call.post_get]
  simp only [hindex]
  cases hdirty : (c.slot i).dirty with
  | false =>
      have hself : c.modifySlot i Slot.clean = c := by
        apply modifySlot_self
        unfold Slot.clean
        rw [← hdirty]
      rw [if_neg Bool.false_ne_true, Call.post_pure, hself, storedAfterFlush, isDirty_eq hk,
        hdirty, if_neg Bool.false_ne_true, Function.update_eq_self]
      exact ⟨rfl, h⟩
  | true =>
      rw [if_pos rfl, Call.post_bind_iff, onStore, Call.post_focus_iff]
      refine (st.elemCount hsized).imp ?_ ?_
      · rintro m s1 ⟨rfl, hkeep, hsizes⟩
        have h1 : Content st c s1 X S := h.keep hkeep hsizes
        rw [hbuffer, if_neg (fun hne => hne rfl), Call.post_bind_iff, onStore,
          Call.post_focus_iff]
        refine (st.storeChunk (h1.sized k hkey)).imp ?_ ?_
        · rintro _ s2 ⟨hnew, hothers, hsizes2⟩
          rw [onCache, Call.post_modify]
          refine ⟨rfl, ?_⟩
          change Content st (c.modifySlot i Slot.clean) s2 X _
          have hentry := entry_modifySlot hc hk Slot.clean
          exact
            { sized := fun j hj => hsizes2 j _ (h1.sized j hj)
              length := length_storedAfterFlush h1.length k
              cached := by
                intro j buffer dirty hj
                rw [hentry] at hj
                by_cases hjk : j = k
                · subst hjk
                  rw [if_pos rfl] at hj
                  cases hj
                  refine ⟨hbuffer, fun _ => ?_⟩
                  rw [storedAfterFlush, Function.update_self, isDirty_eq hk, hdirty, if_pos rfl]
                  exact hnew
                · rw [if_neg hjk] at hj
                  obtain ⟨hbuf, hclean⟩ := h1.cached j buffer dirty hj
                  refine ⟨hbuf, fun hd => ?_⟩
                  rw [storedAfterFlush, Function.update_of_ne hjk]
                  exact hothers j _ hjk (hclean hd)
              stored := by
                intro j hj hnone
                rw [hentry] at hnone
                by_cases hjk : j = k
                · rw [if_pos hjk] at hnone
                  cases hnone
                · rw [if_neg hjk] at hnone
                  obtain ⟨heq, hst⟩ := h1.stored j hj hnone
                  rw [storedAfterFlush, Function.update_of_ne hjk]
                  exact ⟨heq, hothers j _ hjk hst⟩ }
        · rintro _ s2 ⟨hthrows, hothers, hsizes2⟩
          refine ⟨hthrows, rfl, ?_⟩
          exact
            { sized := fun j hj => hsizes2 j _ (h1.sized j hj)
              length := h1.length
              cached := by
                intro j buffer dirty hj
                obtain ⟨hbuf, hclean⟩ := h1.cached j buffer dirty hj
                refine ⟨hbuf, fun hd => ?_⟩
                have hjk : j ≠ k := by
                  intro heq
                  subst heq
                  rw [entry_eq hk, hdirty, hd] at hj
                  cases hj
                exact hothers j _ hjk (hclean hd)
              stored := by
                intro j hj hnone
                have hjk : j ≠ k := by
                  intro heq
                  subst heq
                  rw [entry_eq hk] at hnone
                  cases hnone
                obtain ⟨heq, hst⟩ := h1.stored j hj hnone
                exact ⟨heq, hothers j _ hjk hst⟩ }
      · rintro _ s1 ⟨hthrows, hkeep, hsizes⟩
        exact ⟨hthrows, rfl, h.keep hkeep hsizes⟩

end

/-!
## Making room
-/

/-- The cache after slot `i` has been freed, by evicting chunk `victim` if any. -/
structure RoomMade (c c' : ChunkCache R) (victim : Option Nat) (i : Nat) : Prop where
  coherent : c'.Coherent (some i)
  shape : SameShape c c'
  lt : i < c'.slots.length
  slots : c'.slots.length =
    if c.slots.length < c.capacity then c.slots.length + 1 else c.slots.length
  reserved : c'.reserved =
    if c.slots.length < c.capacity ∧ c.reserved ≤ c.slots.length then
      max 1 (2 * c.slots.length)
    else c.reserved
  storage : c'.storage =
    if c.slots.length < c.capacity ∧ c.reserved ≤ c.slots.length then c.storage + 1
    else c.storage
  counter : c'.touchCounter = c.touchCounter
  slot : forall j, j ≠ i -> c'.slot j = c.slot j
  slotOf : forall j, c'.slotOf j = if victim = some j then none else c.slotOf j
  full : forall w, victim = some w -> ¬ c.slots.length < c.capacity ∧ c.slotOf w = some i
  oldest : forall w j, victim = some w -> j < c.slots.length ->
    (c.slot i).touch ≤ (c.slot j).touch
  roomy : victim = none -> c.slots.length < c.capacity

def AfterRoom (st : ChunkStore cb) (c c' : ChunkCache R) (s' : σ) (X S : Nat -> List R) :
    Option Nat -> Prop
  | none => Content st c' s' X S
  | some w => Content st c' s' (readAfterEvict st c X S w) (storedAfterFlush st c X S w)

section

omit [Zero R]

theorem RoomMade.entry {c c' : ChunkCache R} {victim : Option Nat} {i : Nat}
    (h : RoomMade c c' victim i) (j : Nat) :
    c'.entry j = if victim = some j then none else c.entry j := by
  rw [ChunkCache.entry, h.slotOf]
  by_cases hv : victim = some j
  · rw [if_pos hv, if_pos hv]
    rfl
  · rw [if_neg hv, if_neg hv, ChunkCache.entry]
    cases hj : c.slotOf j with
    | none => rfl
    | some l =>
        have hj' : c'.slotOf j = some l := by
          rw [h.slotOf, if_neg hv, hj]
        have hne : l ≠ i := by
          intro heq
          exact (h.coherent.carried hj').2.2 (congrArg some heq)
        simp only [Option.map_some, h.slot l hne]

theorem post_evictSlot {c : ChunkCache R} {s : σ} {X S : Nat -> List R} {i k : Nat}
    (hc : c.Coherent none) (h : Content st c s X S) (hk : c.slotOf k = some i) :
    Call.Post (evictSlot cb i) (c, s)
      (fun _ t => t.1.Coherent (some i) ∧ SameShape c t.1 ∧
        t.1.slots.length = c.slots.length ∧ t.1.reserved = c.reserved ∧
        t.1.storage = c.storage ∧ t.1.touchCounter = c.touchCounter ∧
        (forall j, j ≠ i -> t.1.slot j = c.slot j) ∧
        (forall j, t.1.slotOf j = if j = k then none else c.slotOf j) ∧
        Content st t.1 t.2 (readAfterEvict st c X S k) (storedAfterFlush st c X S k))
      (fun _ t => st.throws ∧ t.1 = c ∧ Content st c t.2 X S) := by
  obtain ⟨hi, hindex, _⟩ := hc.carried hk
  have hkey := c.slotOf_lt hk
  rw [evictSlot, Call.post_bind_iff, Call.post_get]
  simp only [hindex]
  rw [Call.post_bind_iff]
  refine (post_flushSlot hc h hk).imp ?_ (fun _ _ he => he)
  rintro _ ⟨_, s1⟩ ⟨rfl, h1⟩
  rw [Call.post_bind_iff]
  have hc1 : (c.modifySlot i Slot.clean).Coherent none := hc.modifySlot hi rfl rfl
  have hk1 : (c.modifySlot i Slot.clean).slotOf k = some i := hk
  have hi1 : i < ((c.modifySlot i Slot.clean).mapChunk k none).slots.length :=
    (hc1.carried hk1).1
  rw [onCache, Call.post_modify, onCache, Call.post_modify]
  have hslotOf : forall j, (((c.modifySlot i Slot.clean).mapChunk k none).modifySlot i fun slot =>
      { slot with
        chunkIndex := none
        dirty := false
        touch := 0 }).slotOf j = if j = k then none else c.slotOf j :=
    fun j => (c.modifySlot i Slot.clean).slotOf_mapChunk hkey none j
  have hslot : forall j, j ≠ i ->
      (((c.modifySlot i Slot.clean).mapChunk k none).modifySlot i fun slot =>
        { slot with
          chunkIndex := none
          dirty := false
          touch := 0 }).slot j = c.slot j := by
    intro j hj
    rw [slot_modifySlot _ hi1, if_neg hj, slot_mapChunk, c.slot_modifySlot hi, if_neg hj]
  have hentry : forall j, (((c.modifySlot i Slot.clean).mapChunk k none).modifySlot i fun slot =>
      { slot with
        chunkIndex := none
        dirty := false
        touch := 0 }).entry j = if j = k then none else c.entry j := by
    intro j
    rw [entry, hslotOf]
    by_cases hjk : j = k
    · rw [if_pos hjk, if_pos hjk]
      rfl
    · rw [if_neg hjk, if_neg hjk, entry]
      cases hj : c.slotOf j with
      | none => rfl
      | some l =>
          have hli : l ≠ i := by
            intro heq
            subst heq
            exact hjk (hc.slotOf_inj hj hk)
          simp only [Option.map_some, hslot l hli]
  refine ⟨hc1.unmap hk1, ⟨rfl, ?_⟩, ?_, rfl, rfl, rfl, hslot, hslotOf, ?_⟩
  · exact (c.modifySlot i Slot.clean).length_mapChunk k none
  · rw [slots_length_modifySlot]
    exact c.slots_length_modifySlot i Slot.clean
  · have hclean := entry_modifySlot hc hk Slot.clean
    exact
      { sized := by
          intro j hj
          have hj' : j < c.chunkToSlot.length := by
            simpa [modifySlot, mapChunk] using hj
          rw [length_readAfterEvict h.length]
          exact h1.sized j hj'
        length := by
          intro j
          rw [length_readAfterEvict h.length, length_storedAfterFlush h.length]
        cached := by
          intro j buffer dirty hj
          rw [hentry] at hj
          by_cases hjk : j = k
          · rw [if_pos hjk] at hj
            cases hj
          · rw [if_neg hjk] at hj
            have hj1 : (c.modifySlot i Slot.clean).entry j = some (buffer, dirty) := by
              rw [hclean, if_neg hjk]
              exact hj
            rw [readAfterEvict, Function.update_of_ne hjk]
            exact h1.cached j buffer dirty hj1
        stored := by
          intro j hj hnone
          have hj' : j < c.chunkToSlot.length := by
            simpa [modifySlot, mapChunk] using hj
          by_cases hjk : j = k
          · subst hjk
            refine ⟨by rw [readAfterEvict, Function.update_self], ?_⟩
            have hj1 : (c.modifySlot i Slot.clean).entry j =
                some ((c.slot i).buffer, false) := by
              rw [hclean, if_pos rfl]
              rfl
            exact (h1.cached j _ _ hj1).2 rfl
          · rw [hentry, if_neg hjk] at hnone
            have hj1 : (c.modifySlot i Slot.clean).entry j = none := by
              rw [hclean, if_neg hjk]
              exact hnone
            rw [readAfterEvict, Function.update_of_ne hjk]
            exact h1.stored j hj' hj1 }

theorem post_makeRoom {c : ChunkCache R} {s : σ} {X S : Nat -> List R}
    (hc : c.Coherent none) (h : Content st c s X S) :
    Call.Post (makeRoom cb) (c, s)
      (fun i t => exists victim, RoomMade c t.1 victim i ∧ AfterRoom st c t.1 t.2 X S victim)
      (fun _ t => st.throws ∧ t.1 = c ∧ Content st c t.2 X S) := by
  rw [makeRoom, Call.post_bind_iff, Call.post_get]
  by_cases hroom : c.slots.length < c.capacity
  · simp only [hroom, if_true]
    rw [Call.post_bind_iff, onCache, Call.post_modify, Call.post_pure]
    have hpush : RoomMade c c.pushSlot none c.slots.length :=
      { coherent := hc.pushSlot hroom
        shape := ⟨rfl, rfl⟩
        lt := by simp [pushSlot]
        slots := by simp [pushSlot, hroom]
        reserved := by
          by_cases hres : c.slots.length < c.reserved
          · rw [if_neg (by omega)]
            simp [pushSlot, hres]
          · rw [if_pos ⟨hroom, by omega⟩]
            simp [pushSlot, hres]
        storage := by
          by_cases hres : c.slots.length < c.reserved
          · rw [if_neg (by omega)]
            simp [pushSlot, hres]
          · rw [if_pos ⟨hroom, by omega⟩]
            simp [pushSlot, hres]
        counter := rfl
        slot := fun j _ => c.slot_pushSlot j
        slotOf := by simp [pushSlot, slotOf]
        full := by simp
        oldest := by simp
        roomy := fun _ => hroom }
    refine ⟨none, hpush, ?_⟩
    refine h.congr rfl ?_
    intro k
    rw [hpush.entry, if_neg (by simp)]
  · simp only [hroom, if_false]
    have hpos := hc.positive
    have hlt : c.selectEvictionSlot < c.slots.length :=
      selectEvictionSlot_lt (by omega)
    obtain ⟨k, hindex, hk⟩ := hc.mapped hlt (by simp)
    rw [Call.post_bind_iff]
    refine (post_evictSlot hc h hk).imp ?_ (fun _ _ he => he)
    rintro _ ⟨c', s'⟩ ⟨hcoherent, hshape, hslots, hreserved, hstorage, hcounter, hslot, hslotOf,
      hcontent⟩
    rw [Call.post_pure]
    refine ⟨some k, ?_, hcontent⟩
    exact
      { coherent := hcoherent
        shape := hshape
        lt := hslots ▸ hlt
        slots := by rw [if_neg hroom]; exact hslots
        reserved := by rw [if_neg (fun hand => hroom hand.1)]; exact hreserved
        storage := by rw [if_neg (fun hand => hroom hand.1)]; exact hstorage
        counter := hcounter
        slot := hslot
        slotOf := by
          intro j
          rw [hslotOf]
          by_cases hjk : j = k
          · rw [if_pos hjk, if_pos (congrArg some hjk.symm)]
          · rw [if_neg hjk, if_neg (fun heq => hjk (Option.some.inj heq).symm)]
        full := by
          intro w hw
          have hkw := Option.some.inj hw
          subst hkw
          exact ⟨hroom, hk⟩
        oldest := fun _ j _ hj => touch_selectEvictionSlot_le hj
        roomy := by simp }

end

/-!
## Acquiring
-/

/-- The cache after chunk `k` has been brought into slot `i`. -/
structure Filled (c c' : ChunkCache R) (k i : Nat) (buffer : List R) : Prop where
  shape : SameShape c c'
  slots : c'.slots.length = c.slots.length
  reserved : c'.reserved = c.reserved
  storage : c'.storage = c.storage
  counter : c'.touchCounter = c.touchCounter + 1
  slot : forall j, c'.slot j = if j = i then
    { chunkIndex := some k, buffer := buffer, dirty := false, touch := c.touchCounter + 1 }
    else c.slot j
  slotOf : forall j, c'.slotOf j = if j = k then some i else c.slotOf j

theorem post_fillSlot {c : ChunkCache R} {s : σ} {X S : Nat -> List R} {i k : Nat}
    (hi : i < c.slots.length) (hkey : k < c.chunkToSlot.length)
    (h : Content st c s X S) (hk : c.slotOf k = none) :
    Call.Post (fillSlot cb k i) (c, s)
      (fun handle t => Filled c t.1 k i (X k) ∧
        handle = t.1.makeSlotHandle i k ∧
        (forall j x, st.Stored s j x -> st.Stored t.2 j x) ∧
        forall j l, st.Sized s j l -> st.Sized t.2 j l)
      (fun _ _ => st.throws) := by
  have hnone : c.entry k = none := by
    rw [entry, hk]
    rfl
  obtain ⟨hread, hstored⟩ := h.stored k hkey hnone
  have hsized := h.sized k hkey
  have hpos := st.pos hsized
  rw [fillSlot, Call.post_bind_iff, onCache, Call.post_modify, Call.post_bind_iff, onStore,
    Call.post_focus_iff]
  refine (st.elemCount hsized).imp ?_ (fun _ _ he => he.1)
  rintro n s1 ⟨rfl, hkeep1, hsizes1⟩
  rw [if_neg (by omega), Call.post_bind_iff, onCache, Call.post_modify, Call.post_bind_iff,
    loadSlot, Call.post_focus_iff]
  rw [← hread] at hstored
  refine (st.loadChunk _ (hsizes1 k _ hsized) (hkeep1 k _ hstored)).imp ?_ (fun _ _ he => he.1)
  rintro _ ⟨buffer, s2⟩ ⟨hbuffer, hkeep2, hsizes2⟩
  simp only at hbuffer
  subst hbuffer
  rw [Call.post_bind_iff, onCache, Call.post_modify, Call.post_bind_iff, Call.post_get,
    Call.post_pure]
  refine ⟨?_, rfl, fun j x hj => hkeep2 j x (hkeep1 j x hj),
    fun j l hj => hsizes2 j l (hsizes1 j l hj)⟩
  have hassign : forall j, (c.assignSlot i k).slot j = if j = i then
      { chunkIndex := some k, buffer := (c.slot i).buffer, dirty := false,
        touch := c.touchCounter + 1 }
      else c.slot j :=
    fun j => c.slot_modifySlot hi _ j
  have hi1 : i < (c.assignSlot i k).slots.length := by
    have hlen := c.slots_length_modifySlot i fun slot =>
      { slot with
        chunkIndex := some k
        dirty := false
        touch := c.touchCounter + 1 }
    exact hlen ▸ hi
  have hresize : exists b, (c.assignSlot i k).resizeBuffer i (X k).length =
      (c.assignSlot i k).setBuffer i b := by
    unfold resizeBuffer
    split
    · exact ⟨_, rfl⟩
    · exact ⟨((c.assignSlot i k).slot i).buffer,
        (modifySlot_self (c.assignSlot i k) rfl).symm⟩
  obtain ⟨b, hb⟩ := hresize
  have hi2 : i < ((c.assignSlot i k).setBuffer i b).slots.length := by
    rw [setBuffer, slots_length_modifySlot]
    exact hi1
  rw [hb]
  refine
    { shape := ⟨rfl, ?_⟩
      slots := ?_
      reserved := rfl
      storage := rfl
      counter := rfl
      slot := ?_
      slotOf := ?_ }
  · exact length_mapChunk _ k _
  · change ((((c.assignSlot i k).setBuffer i b).setBuffer i (X k)).mapChunk k
      (some i)).slots.length = c.slots.length
    rw [mapChunk, setBuffer, slots_length_modifySlot, setBuffer, slots_length_modifySlot,
      assignSlot]
    exact c.slots_length_modifySlot i _
  · intro j
    change (((c.assignSlot i k).setBuffer i b).setBuffer i (X k)).slot j = _
    rw [setBuffer, slot_modifySlot _ hi2, setBuffer, slot_modifySlot _ hi1,
      slot_modifySlot _ hi1, hassign, hassign]
    by_cases hji : j = i
    · simp only [hji, if_true]
    · simp only [hji, if_false]
  · intro j
    exact slotOf_mapChunk _ hkey (some i) j

/-- A chunk that is not cached needs a new slot. -/
def Grows (c : ChunkCache R) (k : Nat) : Prop :=
  c.slotOf k = none ∧ c.slots.length < c.capacity

instance (c : ChunkCache R) (k : Nat) : Decidable (c.Grows k) :=
  inferInstanceAs (Decidable (_ ∧ _))

/-- A new slot needs a new memory block, which moves all slots. -/
def Moves (c : ChunkCache R) (k : Nat) : Prop :=
  c.Grows k ∧ c.reserved ≤ c.slots.length

instance (c : ChunkCache R) (k : Nat) : Decidable (c.Moves k) :=
  inferInstanceAs (Decidable (_ ∧ _))

/-- The cache after a successful `acquire` of chunk `k` that evicted `victim`. -/
structure Acquired (c c' : ChunkCache R) (k : Nat) (handle : SlotHandle)
    (victim : Option Nat) : Prop where
  coherent : c'.Coherent none
  shape : SameShape c c'
  chunkIndex : handle.chunkIndex = k
  live : c'.slotOf k = some handle.slotIndex
  denotes : c'.denotesDirty handle
  newest : (c'.slot handle.slotIndex).touch = c'.touchCounter
  counter : c'.touchCounter = c.touchCounter + 1
  slots : c'.slots.length = if c.Grows k then c.slots.length + 1 else c.slots.length
  reserved : c'.reserved = if c.Moves k then max 1 (2 * c.slots.length) else c.reserved
  storage : c'.storage = if c.Moves k then c.storage + 1 else c.storage
  entrySelf : c'.entry k = some ((c'.slot handle.slotIndex).buffer, c.isDirty k)
  slotOf : forall j, j ≠ k -> c'.slotOf j = if victim = some j then none else c.slotOf j
  slot : forall i, i ≠ handle.slotIndex -> c'.slot i = c.slot i
  evicts : forall w, victim = some w ->
    c.slotOf k = none ∧ ¬ c.slots.length < c.capacity ∧ c.slotOf w = some handle.slotIndex
  oldest : forall w j, victim = some w -> j < c.slots.length ->
    (c.slot handle.slotIndex).touch ≤ (c.slot j).touch
  keeps : victim = none -> c.slotOf k ≠ none ∨ c.slots.length < c.capacity

section

omit [Zero R]

theorem Acquired.entry {c c' : ChunkCache R} {k : Nat} {handle : SlotHandle}
    {victim : Option Nat} (h : Acquired c c' k handle victim) {j : Nat} (hj : j ≠ k) :
    c'.entry j = if victim = some j then none else c.entry j := by
  rw [ChunkCache.entry, h.slotOf j hj]
  by_cases hv : victim = some j
  · rw [if_pos hv, if_pos hv]
    rfl
  · rw [if_neg hv, if_neg hv, ChunkCache.entry]
    cases hslot : c.slotOf j with
    | none => rfl
    | some l =>
        have hj' : c'.slotOf j = some l := by
          rw [h.slotOf j hj, if_neg hv, hslot]
        have hne : l ≠ handle.slotIndex := by
          intro heq
          rw [heq] at hj'
          exact hj (h.coherent.slotOf_inj hj' h.live)
        simp only [Option.map_some, h.slot l hne]

theorem isDirty_of_none {c : ChunkCache R} {k : Nat} (hk : c.slotOf k = none) :
    c.isDirty k = false := by
  rw [isDirty, ChunkCache.entry, hk]
  rfl

theorem acquired_touchSlot {c : ChunkCache R} {k i : Nat} (hc : c.Coherent none)
    (hk : c.slotOf k = some i) :
    Acquired c (c.touchSlot i) k (c.makeSlotHandle i k) none := by
  have hi := (hc.carried hk).1
  have hslot : forall j, (c.touchSlot i).slot j =
      if j = i then { c.slot i with touch := c.touchCounter + 1 } else c.slot j :=
    fun j => c.slot_modifySlot hi _ j
  have hlen : (c.touchSlot i).slots.length = c.slots.length := c.slots_length_modifySlot i _
  have hgrows : ¬ c.Grows k := by
    rintro ⟨hnone, _⟩
    rw [hk] at hnone
    cases hnone
  have hmoves : ¬ c.Moves k := fun h => hgrows h.1
  exact
    { coherent := hc.touchSlot hi
      shape := ⟨rfl, rfl⟩
      chunkIndex := rfl
      live := hk
      denotes := rfl
      newest := by
        change ((c.touchSlot i).slot i).touch = c.touchCounter + 1
        rw [hslot, if_pos rfl]
      counter := rfl
      slots := by rw [if_neg hgrows, hlen]
      reserved := by
        rw [if_neg hmoves]
        rfl
      storage := by
        rw [if_neg hmoves]
        rfl
      entrySelf := by
        have hk' : (c.touchSlot i).slotOf k = some i := hk
        change _ = some (((c.touchSlot i).slot i).buffer, c.isDirty k)
        rw [entry_eq hk', isDirty_eq hk, hslot, if_pos rfl]
      slotOf := by
        intro j _
        rw [if_neg (by simp)]
        rfl
      slot := by
        intro j hj
        change j ≠ i at hj
        rw [hslot, if_neg hj]
      evicts := by simp
      oldest := by simp
      keeps := by
        intro _
        rw [hk]
        exact Or.inl (by simp) }

theorem RoomMade.filled {c c1 c' : ChunkCache R} {k i : Nat} {victim : Option Nat}
    {buffer : List R} (hroom : RoomMade c c1 victim i) (hfill : Filled c1 c' k i buffer)
    (hk : c.slotOf k = none) :
    Acquired c c' k (c'.makeSlotHandle i k) victim := by
  have hk1 : c1.slotOf k = none := by
    rw [hroom.slotOf, hk, ite_self]
  have hcoherent : c'.Coherent none :=
    hroom.coherent.place hroom.lt hk1 hfill.shape.capacity hfill.slots hfill.counter
      hfill.slot hfill.slotOf
  have hlive : c'.slotOf k = some i := by
    rw [hfill.slotOf, if_pos rfl]
  have hgrows : c.Grows k <-> c.slots.length < c.capacity :=
    ⟨fun h => h.2, fun h => ⟨hk, h⟩⟩
  have hmoves : c.Moves k <-> c.slots.length < c.capacity ∧ c.reserved ≤ c.slots.length := by
    rw [Moves, hgrows]
  exact
    { coherent := hcoherent
      shape := hroom.shape.trans hfill.shape
      chunkIndex := rfl
      live := hlive
      denotes := rfl
      newest := by
        change (c'.slot i).touch = c'.touchCounter
        rw [hfill.slot, if_pos rfl, hfill.counter]
      counter := by rw [hfill.counter, hroom.counter]
      slots := by simp only [hfill.slots, hroom.slots, hgrows]
      reserved := by simp only [hfill.reserved, hroom.reserved, hmoves]
      storage := by simp only [hfill.storage, hroom.storage, hmoves]
      entrySelf := by
        change _ = some ((c'.slot i).buffer, c.isDirty k)
        rw [entry_eq hlive, isDirty_of_none hk, hfill.slot, if_pos rfl]
      slotOf := by
        intro j hj
        rw [hfill.slotOf, if_neg hj, hroom.slotOf]
      slot := by
        intro j hj
        change j ≠ i at hj
        rw [hfill.slot, if_neg hj, hroom.slot j hj]
      evicts := fun w hw => ⟨hk, hroom.full w hw⟩
      oldest := fun w j hw hj => hroom.oldest w j hw hj
      keeps := fun hv => Or.inr (hroom.roomy hv) }

end

/-- Once room has been made for chunk `k`, bringing it in does not throw. -/
def FillsRoom (cb : ChunkCallbacks R σ) (k : Nat) (t : ChunkCache R × σ) : Prop :=
  t.1.slotOf k = none -> forall i t1, makeRoom cb t = (.ok i, t1) ->
    exists handle t2, fillSlot cb k i t1 = (.ok handle, t2)

theorem post_acquire {c : ChunkCache R} {s : σ} {X S : Nat -> List R} {k : Nat}
    (hc : c.Coherent none) (h : Content st c s X S) (hk : k < c.chunkToSlot.length)
    (hfills : st.throws -> FillsRoom cb k (c, s)) :
    Call.Post (acquire cb k) (c, s)
      (fun handle t => exists victim, Acquired c t.1 k handle victim ∧
        (t.1.slot handle.slotIndex).buffer = X k ∧ AfterRoom st c t.1 t.2 X S victim)
      (fun _ t => st.throws ∧ t.1 = c ∧ Content st c t.2 X S) := by
  rw [acquire, Call.post_bind_iff, Call.post_get]
  simp only [show ¬ k ≥ c.chunkToSlot.length by omega, if_false]
  rw [show c.chunkToSlot.getD k none = c.slotOf k from rfl]
  cases hslot : c.slotOf k with
  | some i =>
      have hacq := acquired_touchSlot hc hslot
      have hi := (hc.carried hslot).1
      simp only
      rw [Call.post_bind_iff, onCache, Call.post_modify, Call.post_pure]
      have hbuffer : ((c.touchSlot i).slot i).buffer = X k := by
        have hmod := c.slot_modifySlot hi
          (fun slot => { slot with touch := c.touchCounter + 1 }) i
        rw [if_pos rfl] at hmod
        change ((c.modifySlot i _).slot i).buffer = X k
        rw [hmod]
        exact h.buffer hslot
      refine ⟨none, hacq, hbuffer, ?_⟩
      refine h.congr rfl ?_
      intro j
      by_cases hj : j = k
      · subst hj
        rw [hacq.entrySelf, entry_eq hslot, isDirty_eq hslot]
        change some (((c.touchSlot i).slot i).buffer, _) = _
        rw [hbuffer, h.buffer hslot]
      · rw [hacq.entry hj, if_neg (by simp)]
  | none =>
      have hnone : c.entry k = none := by
        rw [entry, hslot]
        rfl
      simp only
      rw [Call.post_bind_iff]
      have hmake := post_makeRoom hc h
      unfold Call.Post at hmake ⊢
      rcases hrun : makeRoom cb (c, s) with ⟨r, c1, s1⟩
      rw [hrun] at hmake
      cases r with
      | error e => exact hmake
      | ok i =>
          obtain ⟨victim, hroom, hcontent⟩ := hmake
          have hv : victim ≠ some k := by
            intro hv
            have hw := (hroom.full k hv).2
            rw [hslot] at hw
            cases hw
          have hslot1 : c1.slotOf k = none := by
            rw [hroom.slotOf, hslot, ite_self]
          have hkey1 : k < c1.chunkToSlot.length := hroom.shape.chunks ▸ hk
          -- the contents `X1` and `S1` after making room agree with `X` at `k`
          obtain ⟨X1, S1, h1, hX1, hafter⟩ : exists X1 S1, Content st c1 s1 X1 S1 ∧ X1 k = X k ∧
              forall c' s', Content st c' s' X1 S1 -> AfterRoom st c c' s' X S victim := by
            cases victim with
            | none => exact ⟨X, S, hcontent, rfl, fun _ _ h => h⟩
            | some w =>
                have hkw : k ≠ w := fun heq => hv (congrArg some heq.symm)
                refine ⟨_, _, hcontent, ?_, fun _ _ h => h⟩
                rw [readAfterEvict, Function.update_of_ne hkw]
          have hfill := post_fillSlot hroom.lt hkey1 h1 hslot1
          change Call.Post (fillSlot cb k i) (c1, s1) _ _
          unfold Call.Post at hfill ⊢
          rcases hrun2 : fillSlot cb k i (c1, s1) with ⟨r2, c2, s2⟩
          rw [hrun2] at hfill
          cases r2 with
          | error e =>
              obtain ⟨handle, t2, hok⟩ := hfills hfill hslot i (c1, s1) hrun
              rw [hrun2] at hok
              cases hok
          | ok handle =>
              obtain ⟨hfilled, hhandle, hkeep, hsizes⟩ := hfill
              have hacq := hroom.filled hfilled hslot
              rw [← hhandle] at hacq
              have hbuffer : (c2.slot handle.slotIndex).buffer = X k := by
                rw [hhandle]
                change (c2.slot i).buffer = X k
                rw [hfilled.slot, if_pos rfl]
                exact hX1
              refine ⟨victim, hacq, hbuffer, hafter c2 s2 ?_⟩
              have hentry : forall j, j ≠ k -> c2.entry j = c1.entry j := by
                intro j hj
                rw [hacq.entry hj, hroom.entry]
              have hnone1 : c1.entry k = none := by
                rw [entry, hslot1]
                rfl
              have hk1 := h1.stored k hkey1 hnone1
              exact
                { sized := fun j hj => hsizes j _ (h1.sized j (hfilled.shape.chunks ▸ hj))
                  length := h1.length
                  cached := by
                    intro j buffer dirty hj
                    by_cases hjk : j = k
                    · subst hjk
                      rw [hacq.entrySelf, hbuffer, ← hX1] at hj
                      cases hj
                      exact ⟨rfl, fun _ => hkeep j _ hk1.2⟩
                    · rw [hentry j hjk] at hj
                      obtain ⟨hbuf, hclean⟩ := h1.cached j buffer dirty hj
                      exact ⟨hbuf, fun hd => hkeep j _ (hclean hd)⟩
                  stored := by
                    intro j hj hnonej
                    by_cases hjk : j = k
                    · subst hjk
                      rw [hacq.entrySelf] at hnonej
                      cases hnonej
                    · rw [hentry j hjk] at hnonej
                      obtain ⟨heq, hst⟩ := h1.stored j (hfilled.shape.chunks ▸ hj) hnonej
                      exact ⟨heq, hkeep j _ hst⟩ }

/-!
## The most recent chunk stays
-/

omit [Zero R] in
theorem Acquired.victim_ne {c c1 c2 : ChunkCache R} {j k : Nat} {hj hk : SlotHandle}
    {v w : Option Nat} (h1 : Acquired c c1 j hj v) (h2 : Acquired c1 c2 k hk w)
    (htwo : 2 ≤ c.capacity) : w ≠ some j := by
  intro hw
  obtain ⟨_, hfull, hslot⟩ := h2.evicts j hw
  rw [h1.live] at hslot
  have hidx : hj.slotIndex = hk.slotIndex := Option.some.inj hslot
  have hcap := h1.shape.capacity
  have hlt := (h1.coherent.carried h1.live).1
  -- the slot of `j` carries the newest touch, so every other slot is at least as new
  obtain ⟨i, hi, hne⟩ : exists i, i < c1.slots.length ∧ i ≠ hj.slotIndex := by
    by_cases hzero : hj.slotIndex = 0
    · exact ⟨1, by omega, by omega⟩
    · exact ⟨0, by omega, fun heq => hzero heq.symm⟩
  have hle := h2.oldest j i hw hi
  rw [← hidx, h1.newest] at hle
  have hge := h1.coherent.touched hi (by simp)
  have heq : (c1.slot i).touch = (c1.slot hj.slotIndex).touch := by
    rw [h1.newest]
    omega
  exact hne (h1.coherent.distinct hi hlt (by simp) (by simp) heq)

/-!
## Flushing all slots
-/

/-- The cache after a flush: only dirty flags differ. -/
structure FlushedTo (c c' : ChunkCache R) : Prop where
  coherent : c'.Coherent none
  shape : SameShape c c'
  slots : c'.slots.length = c.slots.length
  reserved : c'.reserved = c.reserved
  storage : c'.storage = c.storage
  slotOf : forall k, c'.slotOf k = c.slotOf k
  buffer : forall i, (c'.slot i).buffer = (c.slot i).buffer

omit [Zero R] in
theorem FlushedTo.step {c c1 : ChunkCache R} {i : Nat} (h : FlushedTo c c1)
    (hi : i < c1.slots.length) : FlushedTo c (c1.modifySlot i Slot.clean) where
  coherent := h.coherent.modifySlot hi rfl rfl
  shape := h.shape.trans ⟨rfl, rfl⟩
  slots := (c1.slots_length_modifySlot i _).trans h.slots
  reserved := h.reserved
  storage := h.storage
  slotOf := h.slotOf
  buffer := by
    intro j
    rw [c1.slot_modifySlot hi, ← h.buffer j]
    split
    · rename_i heq
      rw [heq]
      rfl
    · rfl

omit [Zero R] in
theorem post_flushAll {c : ChunkCache R} {s : σ} {X S : Nat -> List R}
    (hc : c.Coherent none) (h : Content st c s X S) :
    Call.Post (flushAll cb) (c, s)
      (fun _ t => FlushedTo c t.1 ∧ (forall i, i < c.slots.length -> (t.1.slot i).dirty = false) ∧
        exists S', Content st t.1 t.2 X S' ∧
          forall k, S' k = if c.isDirty k then st.round (X k) else S k)
      (fun _ t => st.throws ∧ FlushedTo c t.1 ∧ exists S', Content st t.1 t.2 X S' ∧
        forall k, S' k = st.round (X k) ∨ S' k = S k) := by
  rw [flushAll, Call.post_bind_iff, Call.post_get]
  have hstart : FlushedTo c c := ⟨hc, SameShape.refl c, rfl, rfl, rfl, fun _ => rfl, fun _ => rfl⟩
  refine (Call.post_forM_range
    (E := fun _ t => st.throws ∧ FlushedTo c t.1 ∧ exists S', Content st t.1 t.2 X S' ∧
      forall k, S' k = st.round (X k) ∨ S' k = S k)
    (fun done t => FlushedTo c t.1 ∧
      (forall i, i < done -> (t.1.slot i).dirty = false) ∧
      (forall i, done ≤ i -> (t.1.slot i).dirty = (c.slot i).dirty) ∧
      exists S', Content st t.1 t.2 X S' ∧ forall k, S' k =
        if c.isDirty k ∧ (exists i, i < done ∧ c.slotOf k = some i) then st.round (X k) else S k)
    ?_ ⟨hstart, by simp, fun _ _ => rfl, S, h, ?_⟩).imp ?_ (fun _ _ he => he)
  · rintro i ⟨c1, s1⟩ hi ⟨hflushed, hdone, htodo, S1, h1, hS1⟩
    have hi1 : i < c1.slots.length := hflushed.slots ▸ hi
    obtain ⟨k, _, hk⟩ := hflushed.coherent.mapped hi1 (by simp)
    have hk' : c.slotOf k = some i := by
      rw [← hflushed.slotOf]
      exact hk
    refine (post_flushSlot hflushed.coherent h1 hk).imp ?_ ?_
    · rintro _ ⟨c2, s2⟩ ⟨rfl, h2⟩
      refine ⟨hflushed.step hi1, ?_, ?_, _, h2, ?_⟩
      · intro j hj
        rw [c1.slot_modifySlot hi1]
        by_cases hji : j = i
        · rw [if_pos hji]
          rfl
        · rw [if_neg hji]
          exact hdone j (by omega)
      · intro j hj
        rw [c1.slot_modifySlot hi1, if_neg (by omega)]
        exact htodo j (by omega)
      · intro j
        have hdirty : c1.isDirty k = c.isDirty k := by
          rw [isDirty_eq hk, isDirty_eq hk']
          exact htodo i (Nat.le_refl i)
        by_cases hjk : j = k
        · subst hjk
          rw [storedAfterFlush, Function.update_self, hdirty]
          by_cases hd : c.isDirty j
          · rw [if_pos hd, if_pos ⟨hd, i, by omega, hk'⟩]
          · have hnot : ¬ (c.isDirty j ∧ exists l, l < i ∧ c.slotOf j = some l) :=
              fun hand => hd hand.1
            have hnot' : ¬ (c.isDirty j ∧ exists l, l < i + 1 ∧ c.slotOf j = some l) :=
              fun hand => hd hand.1
            rw [if_neg hd, if_neg hnot', hS1, if_neg hnot]
        · rw [storedAfterFlush, Function.update_of_ne hjk, hS1]
          have hiff : (exists l, l < i ∧ c.slotOf j = some l) <->
              exists l, l < i + 1 ∧ c.slotOf j = some l := by
            constructor
            · rintro ⟨l, hl, hlj⟩
              exact ⟨l, by omega, hlj⟩
            · rintro ⟨l, hl, hlj⟩
              refine ⟨l, ?_, hlj⟩
              have hli : l ≠ i := by
                intro heq
                subst heq
                exact hjk (hc.slotOf_inj hlj hk')
              omega
          simp only [hiff]
    · rintro _ ⟨c2, s2⟩ ⟨hthrows, rfl, h2⟩
      refine ⟨hthrows, hflushed, S1, h2, ?_⟩
      intro j
      rw [hS1]
      split
      · exact Or.inl rfl
      · exact Or.inr rfl
  · intro k
    rw [if_neg]
    rintro ⟨_, i, hi, _⟩
    exact Nat.not_lt_zero i hi
  · rintro _ ⟨c1, s1⟩ ⟨hflushed, hdone, _, S1, h1, hS1⟩
    refine ⟨hflushed, hdone, S1, h1, ?_⟩
    intro k
    rw [hS1]
    by_cases hd : c.isDirty k
    · cases hk : c.slotOf k with
      | none =>
          rw [isDirty_of_none hk] at hd
          cases hd
      | some i => rw [if_pos ⟨hd, i, (hc.carried hk).1, rfl⟩, if_pos hd]
    · rw [if_neg hd, if_neg (fun hand => hd hand.1)]

/-!
## Writing through a handle
-/

/-- The handle still names the slot of its chunk. -/
def Live (c : ChunkCache R) (handle : SlotHandle) : Prop :=
  c.slotOf handle.chunkIndex = some handle.slotIndex

section

omit [Zero R]

theorem Acquired.isLive {c c' : ChunkCache R} {k : Nat} {handle : SlotHandle}
    {victim : Option Nat} (h : Acquired c c' k handle victim) : c'.Live handle := by
  rw [Live, h.chunkIndex]
  exact h.live

theorem entry_write {c : ChunkCache R} {handle : SlotHandle} (f : List R -> List R)
    (hc : c.Coherent none) (hlive : c.Live handle) (hdenotes : c.denotesDirty handle) (j : Nat) :
    ((c.writeData handle f).setDirty handle).entry j =
      if j = handle.chunkIndex then some (f (c.slot handle.slotIndex).buffer, true)
      else c.entry j := by
  have hi := (hc.carried hlive).1
  have hwrite : (c.writeData handle f).Coherent none := hc.modifySlot hi rfl rfl
  have hdenotes' : (c.writeData handle f).denotesDirty handle := hdenotes
  rw [setDirty, if_pos hdenotes']
  have hslot : (c.writeData handle f).slot handle.slotIndex =
      { c.slot handle.slotIndex with buffer := f (c.slot handle.slotIndex).buffer } := by
    rw [writeData, c.slot_modifySlot hi, if_pos rfl]
  have hlive' : (c.writeData handle f).slotOf handle.chunkIndex = some handle.slotIndex := hlive
  rw [entry_modifySlot hwrite hlive']
  by_cases hj : j = handle.chunkIndex
  · rw [if_pos hj, if_pos hj, hslot]
  · rw [if_neg hj, if_neg hj, writeData, entry_modifySlot hc hlive, if_neg hj]

theorem Content.write {c : ChunkCache R} {s : σ} {X S : Nat -> List R} {handle : SlotHandle}
    {f : List R -> List R} (hc : c.Coherent none) (h : Content st c s X S)
    (hlive : c.Live handle) (hdenotes : c.denotesDirty handle)
    (hlen : forall x, (f x).length = x.length) :
    Content st ((c.writeData handle f).setDirty handle) s
      (Function.update X handle.chunkIndex (f (X handle.chunkIndex))) S := by
  have hdenotes' : (c.writeData handle f).denotesDirty handle := hdenotes
  have hentry : forall j, ((c.writeData handle f).setDirty handle).entry j =
      if j = handle.chunkIndex then some (f (X handle.chunkIndex), true) else c.entry j := by
    intro j
    rw [entry_write f hc hlive hdenotes, h.buffer hlive]
  have hchunks : ((c.writeData handle f).setDirty handle).chunkToSlot.length =
      c.chunkToSlot.length := by
    rw [setDirty, if_pos hdenotes']
    rfl
  have hlength : forall j, (Function.update X handle.chunkIndex
      (f (X handle.chunkIndex)) j).length = (X j).length := by
    intro j
    by_cases hj : j = handle.chunkIndex
    · rw [hj, Function.update_self, hlen]
    · rw [Function.update_of_ne hj]
  exact
    { sized := by
        intro j hj
        rw [hlength]
        exact h.sized j (hchunks ▸ hj)
      length := by
        intro j
        rw [hlength]
        exact h.length j
      cached := by
        intro j buffer dirty hj
        rw [hentry] at hj
        by_cases hjk : j = handle.chunkIndex
        · rw [if_pos hjk] at hj
          cases hj
          refine ⟨?_, by simp⟩
          rw [hjk, Function.update_self]
        · rw [if_neg hjk] at hj
          rw [Function.update_of_ne hjk]
          exact h.cached j buffer dirty hj
      stored := by
        intro j hj hnone
        rw [hentry] at hnone
        by_cases hjk : j = handle.chunkIndex
        · rw [if_pos hjk] at hnone
          cases hnone
        · rw [if_neg hjk] at hnone
          rw [Function.update_of_ne hjk]
          exact h.stored j (hchunks ▸ hj) hnone }

theorem writeData_self {c : ChunkCache R} {handle : SlotHandle} {f : List R -> List R}
    (h : f (c.slot handle.slotIndex).buffer = (c.slot handle.slotIndex).buffer) :
    c.writeData handle f = c := by
  apply modifySlot_self
  simp only [h]

theorem writeData_writeData (c : ChunkCache R) {h h' : SlotHandle}
    (hidx : h'.slotIndex = h.slotIndex) (f g : List R -> List R) :
    (c.writeData h f).writeData h' g = c.writeData h fun buffer => g (f buffer) := by
  have hslots : ((c.slots.modify h.slotIndex fun slot => { slot with buffer := f slot.buffer }).modify
      h.slotIndex fun slot => { slot with buffer := g slot.buffer }) =
      c.slots.modify h.slotIndex fun slot => { slot with buffer := g (f slot.buffer) } := by
    apply List.ext_getElem?
    intro j
    simp only [List.getElem?_modify]
    cases c.slots[j]? with
    | none => rfl
    | some slot => by_cases hj : h.slotIndex = j <;> simp [hj]
  rw [writeData, writeData, hidx]
  unfold modifySlot
  rw [hslots]
  rfl

theorem setDirty_writeData (c : ChunkCache R) (h h' : SlotHandle) (f : List R -> List R) :
    (c.writeData h f).setDirty h' = (c.setDirty h').writeData h f := by
  by_cases hd : c.denotesDirty h'
  · have hd' : (c.writeData h f).denotesDirty h' := hd
    have hslots : ((c.slots.modify h.slotIndex fun slot =>
        { slot with buffer := f slot.buffer }).modify h'.slotIndex fun slot =>
          { slot with dirty := true }) =
        ((c.slots.modify h'.slotIndex fun slot => { slot with dirty := true }).modify
          h.slotIndex fun slot => { slot with buffer := f slot.buffer }) := by
      apply List.ext_getElem?
      intro j
      simp only [List.getElem?_modify]
      cases c.slots[j]? with
      | none => rfl
      | some slot =>
          by_cases hj : h.slotIndex = j <;> by_cases hj' : h'.slotIndex = j <;> simp [hj, hj']
    rw [setDirty, if_pos hd', setDirty, if_pos hd, writeData, writeData]
    unfold modifySlot
    rw [hslots]
  · have hd' : ¬ (c.writeData h f).denotesDirty h' := hd
    rw [setDirty, if_neg hd', setDirty, if_neg hd]

theorem Acquired.hit {c c' : ChunkCache R} {k i : Nat} {handle : SlotHandle}
    {victim : Option Nat} (h : Acquired c c' k handle victim) (hc : c.Coherent none)
    (hk : c.slotOf k = some i) : handle.slotIndex = i := by
  obtain ⟨hi, hindex, _⟩ := hc.carried hk
  by_contra hne
  have hgrows : ¬ c.Grows k := by
    rintro ⟨hnone, _⟩
    rw [hk] at hnone
    cases hnone
  have hlen : c'.slots.length = c.slots.length := by
    rw [h.slots, if_neg hgrows]
  obtain ⟨j, hj, hlive⟩ := h.coherent.mapped (hlen.symm ▸ hi) (by simp)
  rw [h.slot i (Ne.symm hne), hindex] at hj
  cases hj
  rw [h.live] at hlive
  exact hne (Option.some.inj hlive)

end

/-- A chunk is acquired for two uses in a row: the second does not move the slots. -/
def SecondStays (c : ChunkCache R) (first second : Nat) : Prop :=
  first = second ∨ c.slotOf second ≠ none ∨
    ¬ (if c.Grows first then c.slots.length + 1 else c.slots.length) < c.capacity ∨
    (if c.Grows first then c.slots.length + 1 else c.slots.length) <
      (if c.Moves first then max 1 (2 * c.slots.length) else c.reserved)

instance (c : ChunkCache R) (first second : Nat) : Decidable (c.SecondStays first second) :=
  inferInstanceAs (Decidable (_ ∨ _ ∨ _ ∨ _))

omit [Zero R] in
theorem Acquired.moves_iff {c c' : ChunkCache R} {j k : Nat} {handle : SlotHandle}
    {victim : Option Nat} (h : Acquired c c' j handle victim) :
    c'.Moves k <-> ¬ c.SecondStays j k := by
  unfold Moves Grows SecondStays
  rw [h.slots, h.reserved, h.shape.capacity]
  by_cases hjk : j = k
  · subst hjk
    have hlive : c'.slotOf j ≠ none := by
      rw [h.live]
      simp
    simp [hlive]
  · rw [h.slotOf k (fun heq => hjk heq.symm)]
    by_cases hv : victim = some k
    · obtain ⟨_, hfull, hslot⟩ := h.evicts k hv
      have hgrows : ¬ c.Grows j := fun hg => hfull hg.2
      have hne : c.slotOf k ≠ none := by
        rw [hslot]
        simp
      rw [if_pos hv, if_neg hgrows]
      constructor
      · rintro ⟨⟨_, hlt⟩, _⟩
        exact absurd hlt hfull
      · intro hstays
        exact absurd (Or.inr (Or.inl hne)) hstays
    · rw [if_neg hv]
      constructor
      · rintro ⟨⟨hnone, hlt⟩, hfull⟩
        rintro (heq | hlive | hcap | hres)
        · exact hjk heq
        · exact hlive hnone
        · exact hcap hlt
        · omega
      · intro hstays
        simp only [not_or, not_not] at hstays
        exact ⟨⟨hstays.2.1, hstays.2.2.1⟩, by omega⟩

end ChunkCache

end Tmfqs
