import Tmfqs.Library.Recency
import Tmfqs.Storage.CacheFailures

/-!
# The chunk cache as a write-back cache

A run of `acquire`, writes through the handle it returned last, and `flushAll`, on a configured
cache over a lossless store that does not throw.  The cached chunks are the most recently
acquired ones, and what a chunk holds changes by writes to it only.
-/

namespace Tmfqs

open Library

variable {R σ : Type}

/-- What a client does to the data behind a handle; the size of the buffer is fixed. -/
structure BufferWrite (R : Type) where
  write : List R -> List R
  length_write : forall x, (write x).length = x.length

inductive CacheUse (R : Type) where
  | acquire (chunkIndex : Nat)
  | write (f : BufferWrite R)
  | flushAll

/-- The cache, the backend state and the handle the last successful `acquire` returned. -/
structure CacheSession (R σ : Type) where
  cache : ChunkCache R
  store : σ
  handle : Option SlotHandle

namespace CacheUse

def run [Zero R] (cb : ChunkCallbacks R σ) : CacheUse R -> CacheSession R σ -> CacheSession R σ
  | acquire k, u =>
      match ChunkCache.acquire cb k (u.cache, u.store) with
      | (.ok handle, t) => { cache := t.1, store := t.2, handle := some handle }
      | (.error _, t) => { cache := t.1, store := t.2, handle := u.handle }
  | write f, u =>
      match u.handle with
      | some handle => { u with cache := (u.cache.writeData handle f.write).setDirty handle }
      | none => u
  | flushAll, u =>
      { u with
        cache := (ChunkCache.flushAll cb (u.cache, u.store)).2.1
        store := (ChunkCache.flushAll cb (u.cache, u.store)).2.2 }

/-- The chunks that are acquired, in order; beyond the last chunk `acquire` throws. -/
def acquired (chunkCount : Nat) (uses : List (CacheUse R)) : List Nat :=
  uses.filterMap fun
    | acquire k => if k < chunkCount then some k else none
    | _ => none

end CacheUse

def CacheSession.configured (capacity chunkCount : Nat) (c : ChunkCache R) (s : σ) :
    CacheSession R σ :=
  { cache := (ChunkCache.configure capacity chunkCount c).2
    store := s
    handle := none }

def CacheSession.runAll [Zero R] (cb : ChunkCallbacks R σ) (uses : List (CacheUse R))
    (u : CacheSession R σ) : CacheSession R σ :=
  uses.foldl (fun u use => use.run cb u) u

namespace ChunkCache

/-!
## What a chunk holds
-/

def decoded [Zero R] (cb : ChunkCallbacks R σ) (s : σ) (k : Nat) : List R :=
  match cb.elemCount k s with
  | (.ok n, s') => (cb.loadChunk k n (List.replicate n 0, s')).2.1
  | (.error _, _) => []

/-- The buffer of the chunk's slot, or else the decoded store. -/
def logical [Zero R] (cb : ChunkCallbacks R σ) (t : ChunkCache R × σ) (k : Nat) : List R :=
  match t.1.findBuffer k with
  | some buffer => buffer
  | none => decoded cb t.2 k

variable [Zero R] {cb : ChunkCallbacks R σ} {st : ChunkStore cb} {X : Nat -> List R}

theorem decoded_eq (hthrows : ¬ st.throws) {s : σ} {k : Nat} {x : List R}
    (hsized : st.Sized s k x.length) (hstored : st.Stored s k x) : decoded cb s k = x := by
  have hcount := st.elemCount hsized
  unfold Call.Post at hcount
  rw [decoded]
  rcases hrun : cb.elemCount k s with ⟨r, s1⟩
  rw [hrun] at hcount
  cases r with
  | error e => exact absurd hcount.1 hthrows
  | ok n =>
      obtain ⟨rfl, hkeep, hsizes⟩ := hcount
      have hload := st.loadChunk (List.replicate x.length 0) (hsizes k _ hsized) (hkeep k x hstored)
      unfold Call.Post at hload
      change (cb.loadChunk k x.length (List.replicate x.length 0, s1)).2.1 = x
      rcases hrun2 : cb.loadChunk k x.length (List.replicate x.length 0, s1) with ⟨r2, t⟩
      rw [hrun2] at hload
      cases r2 with
      | error e => exact absurd hload.1 hthrows
      | ok u => exact hload.1

theorem Whole.logical (hthrows : ¬ st.throws) {t : ChunkCache R × σ} (h : Whole st X t) {k : Nat}
    (hk : k < t.1.chunkToSlot.length) : logical cb t k = X k := by
  rw [ChunkCache.logical, findBuffer_eq]
  cases hentry : t.1.entry k with
  | none => exact decoded_eq hthrows (h.2.sized k hk) (h.2.stored k hk hentry).2
  | some pair => exact (h.2.cached k pair.1 pair.2 hentry).1

theorem Whole.decoded (hthrows : ¬ st.throws) {t : ChunkCache R × σ} (h : Whole st X t) {k : Nat}
    (hk : k < t.1.chunkToSlot.length) (hclean : t.1.isDirty k = false) :
    decoded cb t.2 k = X k := by
  apply decoded_eq hthrows (h.2.sized k hk)
  cases hentry : t.1.entry k with
  | none => exact (h.2.stored k hk hentry).2
  | some pair =>
      rw [isDirty, hentry] at hclean
      exact (h.2.cached k pair.1 pair.2 hentry).2 hclean

/-!
## Times of the last touch
-/

def lastTouch (c : ChunkCache R) (k : Nat) : Nat :=
  match c.slotOf k with
  | some i => (c.slot i).touch
  | none => 0

section

omit [Zero R]

theorem lastTouch_eq {c : ChunkCache R} {k i : Nat} (h : c.slotOf k = some i) :
    c.lastTouch k = (c.slot i).touch := by
  rw [lastTouch, h]

theorem Coherent.lastTouch_le {c : ChunkCache R} (h : c.Coherent none) {k : Nat}
    (hk : c.slotOf k ≠ none) : c.lastTouch k ≤ c.touchCounter := by
  cases hslot : c.slotOf k with
  | none => exact absurd hslot hk
  | some i =>
      rw [lastTouch_eq hslot]
      exact h.touched (h.carried hslot).1 (by simp)

theorem Acquired.lastTouch_self {c c' : ChunkCache R} {k : Nat} {handle : SlotHandle}
    {victim : Option Nat} (h : Acquired c c' k handle victim) :
    c'.lastTouch k = c.touchCounter + 1 := by
  rw [lastTouch_eq h.live, h.newest, h.counter]

theorem Acquired.lastTouch {c c' : ChunkCache R} {k : Nat} {handle : SlotHandle}
    {victim : Option Nat} (h : Acquired c c' k handle victim) {j : Nat} (hj : j ≠ k)
    (hvictim : victim ≠ some j) : c'.lastTouch j = c.lastTouch j := by
  have hslot := h.slotOf j hj
  rw [if_neg hvictim] at hslot
  cases hcached : c.slotOf j with
  | none =>
      rw [hcached] at hslot
      rw [ChunkCache.lastTouch, ChunkCache.lastTouch, hslot, hcached]
  | some i =>
      rw [hcached] at hslot
      have hne : i ≠ handle.slotIndex := by
        intro heq
        rw [heq] at hslot
        exact hj (h.coherent.slotOf_inj hslot h.live)
      rw [lastTouch_eq hslot, lastTouch_eq hcached, h.slot i hne]

end

/-- The touch times of all slots, and the counter they come from. -/
def touches (t : ChunkCache R × σ) : List Nat × Nat :=
  (t.1.slots.map Slot.touch, t.1.touchCounter)

section

omit [Zero R]

theorem slot_touch (c : ChunkCache R) (i : Nat) :
    (c.slot i).touch = (c.slots.map Slot.touch).getD i 0 := by
  rw [slot, List.getD_eq_getElem?_getD, List.getD_eq_getElem?_getD, List.getElem?_map]
  cases c.slots[i]? <;> rfl

theorem touches_modifySlot (c : ChunkCache R) (i : Nat) {f : Slot R -> Slot R}
    (hf : forall slot, (f slot).touch = slot.touch) (s : σ) :
    touches (c.modifySlot i f, s) = touches (c, s) := by
  have hmap : (c.slots.modify i f).map Slot.touch = c.slots.map Slot.touch := by
    apply List.ext_getElem?
    intro j
    rw [List.getElem?_map, List.getElem?_map, List.getElem?_modify]
    cases c.slots[j]? with
    | none => rfl
    | some slot =>
        by_cases hij : i = j
        · simp [hij, hf]
        · simp [hij]
  unfold touches modifySlot
  rw [hmap]

theorem keeps_touches_onStore {α : Type} (x : Call σ α) :
    Call.Keeps (touches (R := R)) (onStore x) :=
  fun _ => rfl

theorem keeps_touches_flushSlot (i : Nat) : Call.Keeps touches (flushSlot cb i) := by
  rw [flushSlot]
  apply Call.Keeps.bind Call.keeps_get
  rintro ⟨c, s⟩
  have hstore : forall (k n : Nat),
      Call.Keeps (touches (R := R)) (do
        onStore (cb.storeChunk k (c.slot i).buffer n)
        onCache fun c => c.modifySlot i fun slot => { slot with dirty := false }) := by
    intro k n
    apply Call.Keeps.bind (keeps_touches_onStore _)
    intro _
    exact Call.keeps_modify fun t =>
      touches_modifySlot t.1 i (f := fun slot => { slot with dirty := false }) (fun _ => rfl) t.2
  cases hindex : (c.slot i).chunkIndex with
  | none =>
      simp only [hindex]
      exact Call.keeps_pure _
  | some k =>
      simp only [hindex]
      apply Call.Keeps.ite
      · apply Call.Keeps.bind (keeps_touches_onStore _)
        intro n
        apply Call.Keeps.ite
        · exact Call.Keeps.bind (Call.keeps_throw _) fun _ => hstore k n
        · exact hstore k n
      · exact Call.keeps_pure _

theorem keeps_touches_flushAll (cb : ChunkCallbacks R σ) : Call.Keeps touches (flushAll cb) := by
  rw [flushAll]
  apply Call.Keeps.bind Call.keeps_get
  rintro ⟨c, s⟩
  exact Call.Keeps.forM _ keeps_touches_flushSlot

end

/-!
## The order of the cached chunks
-/

/--
The cache holds the first chunks of `order`, which lists the acquired chunks with the most
recently acquired one first, and the contents are `X`.
-/
structure LeastRecent (st : ChunkStore cb) (capacity chunkCount : Nat) (X : Nat -> List R)
    (order : List Nat) (u : CacheSession R σ) : Prop where
  whole : Whole st X (u.cache, u.store)
  capacity_eq : u.cache.capacity = capacity
  chunks_eq : u.cache.chunkToSlot.length = chunkCount
  reserved : capacity ≤ u.cache.reserved
  slots : u.cache.slots.length = min capacity order.length
  cached : forall k, u.cache.slotOf k ≠ none <-> k ∈ order.take capacity
  once : order.Nodup
  aged : (order.take capacity).Pairwise fun j k => u.cache.lastTouch k < u.cache.lastTouch j
  handle : forall handle, u.handle = some handle ->
    u.cache.Live handle ∧ u.cache.denotesDirty handle
  returned : u.handle.map SlotHandle.chunkIndex = order.head?

variable {capacity chunkCount : Nat} {order : List Nat} {u : CacheSession R σ}

section

omit [Zero R]

theorem LeastRecent.exists_rest (h : LeastRecent st capacity chunkCount X order u)
    {c' : ChunkCache R} {k : Nat} {handle : SlotHandle} {victim : Option Nat}
    (hacq : Acquired u.cache c' k handle victim) :
    exists rest, (k :: order.erase k).take capacity = k :: rest ∧
      rest.Sublist (order.take capacity) ∧
      forall j, j ∈ rest <-> j ≠ k ∧ j ∈ order.take capacity ∧ victim ≠ some j := by
  have hcoherent := h.whole.1
  have hslots := h.slots
  have hcapacity := h.capacity_eq
  have hpositive := hcoherent.positive
  apply take_front (hcapacity ▸ hpositive) h.once h.aged
  · intro w hw
    obtain ⟨hnone, hfull, hslot⟩ := hacq.evicts w hw
    refine ⟨?_, by omega, ?_, ?_⟩
    · intro hmem
      exact (h.cached k).mpr hmem hnone
    · apply (h.cached w).mp
      rw [hslot]
      simp
    · intro j hj
      have hcached := (h.cached j).mpr hj
      cases hslotj : u.cache.slotOf j with
      | none => exact absurd hslotj hcached
      | some i =>
          rw [lastTouch_eq hslot, lastTouch_eq hslotj]
          exact hacq.oldest w i hw (hcoherent.carried hslotj).1
  · intro hnone
    rcases hacq.keeps hnone with hhit | hroom
    · exact Or.inl ((h.cached k).mp hhit)
    · right
      omega

theorem LeastRecent.not_moves (h : LeastRecent st capacity chunkCount X order u) (k : Nat) :
    ¬ u.cache.Moves k := by
  rintro ⟨⟨_, hroom⟩, hfull⟩
  have hcapacity := h.capacity_eq
  have hreserved := h.reserved
  omega

theorem LeastRecent.acquired (hround : forall x, st.round x = x)
    (h : LeastRecent st capacity chunkCount X order u) {t : ChunkCache R × σ} {k : Nat}
    {handle : SlotHandle} {victim : Option Nat} (hacq : Acquired u.cache t.1 k handle victim)
    (hafter : AfterRoom st u.cache t.1 t.2 X X victim) :
    LeastRecent st capacity chunkCount X (k :: order.erase k)
      { cache := t.1, store := t.2, handle := some handle } := by
  obtain ⟨rest, htake, hsub, hrest⟩ := h.exists_rest hacq
  have hcoherent := h.whole.1
  have hcapacity := h.capacity_eq
  have hslots := h.slots
  have hcached : forall j, t.1.slotOf j ≠ none <-> j = k ∨ j ∈ rest := by
    intro j
    by_cases hj : j = k
    · rw [hj, hacq.live]
      simp
    · rw [hacq.slotOf j hj, hrest]
      by_cases hv : victim = some j
      · rw [if_pos hv]
        simp [hj, hv]
      · rw [if_neg hv, h.cached j]
        simp [hj, hv]
  have htouch : forall j, j ∈ rest ->
      t.1.lastTouch j = u.cache.lastTouch j ∧ u.cache.lastTouch j < t.1.lastTouch k := by
    intro j hj
    obtain ⟨hne, hmem, hv⟩ := (hrest j).mp hj
    refine ⟨hacq.lastTouch hne hv, ?_⟩
    rw [hacq.lastTouch_self]
    exact Nat.lt_succ_of_le (hcoherent.lastTouch_le ((h.cached j).mpr hmem))
  refine
    { whole := ⟨hacq.coherent, hafter.whole hround⟩
      capacity_eq := hacq.shape.capacity.trans hcapacity
      chunks_eq := hacq.shape.chunks.trans h.chunks_eq
      reserved := ?_
      slots := ?_
      cached := ?_
      once := ?_
      aged := ?_
      handle := ?_
      returned := ?_ }
  · change capacity ≤ t.1.reserved
    rw [hacq.reserved, if_neg (h.not_moves k)]
    exact h.reserved
  · change t.1.slots.length = _
    rw [hacq.slots, List.length_cons]
    by_cases hgrows : u.cache.Grows k
    · obtain ⟨hnone, hroom⟩ := hgrows
      have hfresh : k ∉ order := by
        intro hmem
        have hall : order.take capacity = order := List.take_of_length_le (by omega)
        exact (h.cached k).mpr (hall.symm ▸ hmem) hnone
      rw [if_pos ⟨hnone, hroom⟩, List.erase_of_not_mem hfresh]
      omega
    · rw [if_neg hgrows, hslots]
      by_cases hmem : k ∈ order
      · have hpos := List.length_pos_of_mem hmem
        rw [List.length_erase_of_mem hmem]
        omega
      · have hnone : u.cache.slotOf k = none := by
          by_contra hhit
          exact hmem (List.mem_of_mem_take ((h.cached k).mp hhit))
        have hfull : ¬ u.cache.slots.length < u.cache.capacity := fun hroom => hgrows ⟨hnone, hroom⟩
        rw [List.erase_of_not_mem hmem]
        omega
  · intro j
    change t.1.slotOf j ≠ none <-> _
    rw [hcached, htake, List.mem_cons]
  · rw [List.nodup_cons]
    exact ⟨fun hmem => (h.once.mem_erase_iff.mp hmem).1 rfl, h.once.erase k⟩
  · rw [htake, List.pairwise_cons]
    constructor
    · intro j hj
      change t.1.lastTouch j < t.1.lastTouch k
      rw [(htouch j hj).1]
      exact (htouch j hj).2
    · refine (h.aged.sublist hsub).imp_of_mem ?_
      intro i j hi hj hlt
      change t.1.lastTouch j < t.1.lastTouch i
      rw [(htouch j hj).1, (htouch i hi).1]
      exact hlt
  · intro _ heq
    cases heq
    exact ⟨hacq.isLive, hacq.denotes⟩
  · exact congrArg some hacq.chunkIndex

theorem LeastRecent.same (h : LeastRecent st capacity chunkCount X order u)
    {X' : Nat -> List R} {c' : ChunkCache R} {s' : σ} (hwhole : Whole st X' (c', s'))
    (hshape : SameShape u.cache c') (hreserved : c'.reserved = u.cache.reserved)
    (hstorage : c'.storage = u.cache.storage) (hslotOf : forall k, c'.slotOf k = u.cache.slotOf k)
    (htouches : touches (c', s') = touches (u.cache, u.store)) :
    LeastRecent st capacity chunkCount X' order { u with cache := c', store := s' } := by
  have hmap : c'.slots.map Slot.touch = u.cache.slots.map Slot.touch := congrArg Prod.fst htouches
  have hlast : forall k, c'.lastTouch k = u.cache.lastTouch k := by
    intro k
    rw [lastTouch, lastTouch, hslotOf]
    cases u.cache.slotOf k with
    | none => rfl
    | some i =>
        change (c'.slot i).touch = (u.cache.slot i).touch
        rw [slot_touch, slot_touch, hmap]
  refine
    { whole := hwhole
      capacity_eq := hshape.capacity.trans h.capacity_eq
      chunks_eq := hshape.chunks.trans h.chunks_eq
      reserved := ?_
      slots := ?_
      cached := ?_
      once := h.once
      aged := ?_
      handle := ?_
      returned := h.returned }
  · exact hreserved ▸ h.reserved
  · have hlen := congrArg List.length hmap
    rw [List.length_map, List.length_map] at hlen
    exact hlen.trans h.slots
  · intro k
    change c'.slotOf k ≠ none <-> _
    rw [hslotOf]
    exact h.cached k
  · refine h.aged.imp ?_
    intro j k hlt
    change c'.lastTouch k < c'.lastTouch j
    rw [hlast, hlast]
    exact hlt
  · intro handle heq
    obtain ⟨hlive, hdenotes⟩ := h.handle handle heq
    constructor
    · change c'.slotOf handle.chunkIndex = some handle.slotIndex
      rw [hslotOf]
      exact hlive
    · change handle.storage = c'.storage
      rw [hstorage]
      exact hdenotes

end

/-!
## One operation
-/

theorem LeastRecent.acquire (hround : forall x, st.round x = x) (hthrows : ¬ st.throws)
    (h : LeastRecent st capacity chunkCount X order u) {k : Nat} (hk : k < chunkCount) :
    exists handle t victim, ChunkCache.acquire cb k (u.cache, u.store) = (.ok handle, t) ∧
      Acquired u.cache t.1 k handle victim ∧ (t.1.slot handle.slotIndex).buffer = X k ∧
      LeastRecent st capacity chunkCount X (k :: order.erase k)
        { cache := t.1, store := t.2, handle := some handle } := by
  have hpost := post_acquire h.whole.1 h.whole.2 (h.chunks_eq.symm ▸ hk)
    (fun hfail => absurd hfail hthrows)
  obtain ⟨handle, t, hrun, victim, hacq, hbuffer, hafter⟩ :=
    (hpost.imp (fun _ _ hq => hq) (fun _ _ he => absurd he.1 hthrows)).exists_ok
  exact ⟨handle, t, victim, hrun, hacq, hbuffer, h.acquired hround hacq hafter⟩

omit [Zero R] in
theorem LeastRecent.write (h : LeastRecent st capacity chunkCount X order u) {handle : SlotHandle}
    (hhandle : u.handle = some handle) (f : BufferWrite R) :
    LeastRecent st capacity chunkCount
      (Function.update X handle.chunkIndex (f.write (X handle.chunkIndex))) order
      { u with cache := (u.cache.writeData handle f.write).setDirty handle } := by
  obtain ⟨hlive, hdenotes⟩ := h.handle handle hhandle
  have hwrite := h.whole.write hlive hdenotes f.length_write
  have hdenotes' : (u.cache.writeData handle f.write).denotesDirty handle := hdenotes
  rw [setDirty, if_pos hdenotes'] at hwrite ⊢
  apply h.same hwrite ⟨rfl, rfl⟩ rfl rfl (fun _ => rfl)
  calc touches (((u.cache.writeData handle f.write).modifySlot handle.slotIndex
          fun slot => { slot with dirty := true }), u.store)
      = touches (u.cache.writeData handle f.write, u.store) :=
        touches_modifySlot _ _ (f := fun slot => { slot with dirty := true }) (fun _ => rfl) _
    _ = touches (u.cache, u.store) :=
        touches_modifySlot _ _ (f := fun slot => { slot with buffer := f.write slot.buffer })
          (fun _ => rfl) _

omit [Zero R] in
theorem LeastRecent.flushAll (hround : forall x, st.round x = x) (hthrows : ¬ st.throws)
    (h : LeastRecent st capacity chunkCount X order u) :
    exists t, ChunkCache.flushAll cb (u.cache, u.store) = (.ok (), t) ∧
      (forall slot, slot ∈ t.1.slots -> slot.dirty = false) ∧
      LeastRecent st capacity chunkCount X order { u with cache := t.1, store := t.2 } := by
  have hpost := post_flushAll h.whole.1 h.whole.2
  obtain ⟨_, t, hrun, hflushed, hclean, S', hcontent, hS'⟩ :=
    (hpost.imp (fun _ _ hq => hq) (fun _ _ he => absurd he.1 hthrows)).exists_ok
  have hwhole := h.whole.flushAll hround
  have htouches := keeps_touches_flushAll cb (u.cache, u.store)
  rw [hrun] at hwhole htouches
  refine ⟨t, hrun, ?_, h.same hwhole hflushed.shape hflushed.reserved hflushed.storage
    hflushed.slotOf htouches⟩
  intro slot hmem
  obtain ⟨i, hi, hget⟩ := List.getElem_of_mem hmem
  have hslot : t.1.slot i = slot := by
    rw [ChunkCache.slot, List.getD_eq_getElem?_getD, List.getElem?_eq_getElem hi, hget]
    rfl
  rw [← hslot]
  exact hclean i (hflushed.slots ▸ hi)

/-!
## Runs
-/

/--
How a write-back cache of the last acquired chunks answers once the chunks `acquired` have
been acquired.
-/
structure WriteBack (cb : ChunkCallbacks R σ) (capacity chunkCount : Nat) (acquired : List Nat)
    (u : CacheSession R σ) : Prop where
  cached : forall k, u.cache.slotOf k ≠ none <-> k ∈ (recent acquired).take capacity
  slots : u.cache.slots.length = min capacity (recent acquired).length
  represented : u.cache.Represented
  returned : u.handle.map SlotHandle.chunkIndex = acquired.getLast?
  counter : u.cache.touchCounter = acquired.length
  acquires : forall k, k < chunkCount -> exists handle t,
    acquire cb k (u.cache, u.store) = (.ok handle, t) ∧ handle.chunkIndex = k ∧
      t.1.slotOf k = some handle.slotIndex ∧
      (t.1.slot handle.slotIndex).buffer = logical cb (u.cache, u.store) k ∧
      forall j, j < chunkCount -> logical cb t j = logical cb (u.cache, u.store) j
  writes : forall handle (f : BufferWrite R), u.handle = some handle ->
    let c := (u.cache.writeData handle f.write).setDirty handle
    c.isDirty handle.chunkIndex = true ∧
      forall j, j < chunkCount -> logical cb (c, u.store) j =
        if j = handle.chunkIndex then f.write (logical cb (u.cache, u.store) j)
        else logical cb (u.cache, u.store) j
  flushes : exists t, flushAll cb (u.cache, u.store) = (.ok (), t) ∧
    (forall slot, slot ∈ t.1.slots -> slot.dirty = false) ∧
    forall j, j < chunkCount -> decoded cb t.2 j = logical cb t j ∧
      logical cb t j = logical cb (u.cache, u.store) j
  pairs : 2 ≤ capacity -> forall j k, j < chunkCount -> k < chunkCount -> j ≠ k ->
    exists handlej tj handlek tk,
      acquire cb j (u.cache, u.store) = (.ok handlej, tj) ∧ acquire cb k tj = (.ok handlek, tk) ∧
      tk.1.slotOf j = some handlej.slotIndex ∧
      tk.1.slot handlej.slotIndex = tj.1.slot handlej.slotIndex ∧ tk.1.denotesDirty handlej

theorem LeastRecent.logical (hthrows : ¬ st.throws)
    (h : LeastRecent st capacity chunkCount X order u) {k : Nat} (hk : k < chunkCount) :
    logical cb (u.cache, u.store) k = X k :=
  h.whole.logical hthrows (h.chunks_eq.symm ▸ hk)

/-- With two slots a chunk stays where it is while the next one is acquired. -/
theorem LeastRecent.pairs (hround : forall x, st.round x = x) (hthrows : ¬ st.throws)
    (h : LeastRecent st capacity chunkCount X order u) (htwo : 2 ≤ capacity) {j k : Nat}
    (hj : j < chunkCount) (hk : k < chunkCount) (hne : j ≠ k) :
    exists handlej tj handlek tk,
      ChunkCache.acquire cb j (u.cache, u.store) = (.ok handlej, tj) ∧
      ChunkCache.acquire cb k tj = (.ok handlek, tk) ∧
      tk.1.slotOf j = some handlej.slotIndex ∧
      tk.1.slot handlej.slotIndex = tj.1.slot handlej.slotIndex ∧
      tk.1.denotesDirty handlej := by
  obtain ⟨handlej, tj, v, hrunj, hacqj, _, hnext⟩ := h.acquire hround hthrows hj
  obtain ⟨handlek, tk, w, hrunk, hacqk, _, _⟩ := hnext.acquire hround hthrows hk
  have hstays : tk.1.slotOf j = some handlej.slotIndex := by
    rw [hacqk.slotOf j hne, if_neg (hacqj.victim_ne hacqk (h.capacity_eq.symm ▸ htwo))]
    exact hacqj.live
  refine ⟨handlej, tj, handlek, tk, hrunj, hrunk, hstays, ?_, ?_⟩
  · apply hacqk.slot
    intro heq
    rw [heq] at hstays
    exact hne (hacqk.coherent.slotOf_inj hstays hacqk.live)
  · have hstorage := hacqk.storage
    rw [if_neg (hnext.not_moves k)] at hstorage
    change handlej.storage = tk.1.storage
    rw [hstorage]
    exact hacqj.denotes

theorem LeastRecent.writeBack (hround : forall x, st.round x = x) (hthrows : ¬ st.throws)
    {acquired : List Nat} (h : LeastRecent st capacity chunkCount X (recent acquired) u)
    (hcounter : u.cache.touchCounter = acquired.length) :
    WriteBack cb capacity chunkCount acquired u where
  cached := h.cached
  slots := h.slots
  represented := h.whole.1.represented
  returned := by rw [h.returned, head?_recent]
  counter := hcounter
  acquires := by
    intro k hk
    obtain ⟨handle, t, victim, hrun, hacq, hbuffer, hnext⟩ := h.acquire hround hthrows hk
    refine ⟨handle, t, hrun, hacq.chunkIndex, hacq.live, ?_, ?_⟩
    · rw [hbuffer, h.logical hthrows hk]
    · intro j hj
      rw [h.logical hthrows hj]
      exact hnext.logical hthrows hj
  writes := by
    intro handle f hhandle c
    have hnext := h.write hhandle f
    obtain ⟨hlive, hdenotes⟩ := h.handle handle hhandle
    constructor
    · rw [isDirty, entry_write f.write h.whole.1 hlive hdenotes, if_pos rfl]
      rfl
    · intro j hj
      rw [h.logical hthrows hj]
      refine (hnext.logical hthrows hj).trans ?_
      by_cases hjk : j = handle.chunkIndex
      · rw [if_pos hjk, hjk, Function.update_self]
      · rw [if_neg hjk, Function.update_of_ne hjk]
  flushes := by
    obtain ⟨t, hrun, hclean, hnext⟩ := h.flushAll hround hthrows
    refine ⟨t, hrun, hclean, ?_⟩
    intro j hj
    have hlogical : ChunkCache.logical cb t j = X j := hnext.logical hthrows hj
    have hnot : t.1.isDirty j = false := by
      cases hslot : t.1.slotOf j with
      | none => exact isDirty_of_none hslot
      | some i =>
          have hi := (hnext.whole.1.carried hslot).1
          rw [isDirty_eq hslot, slot, List.getD_eq_getElem?_getD, List.getElem?_eq_getElem hi]
          exact hclean _ (List.getElem_mem hi)
    rw [hlogical, h.logical hthrows hj]
    exact ⟨hnext.whole.decoded hthrows (hnext.chunks_eq.symm ▸ hj) hnot, rfl⟩
  pairs := fun htwo _ _ hj hk hne => h.pairs hround hthrows htwo hj hk hne

theorem LeastRecent.run (hround : forall x, st.round x = x) (hthrows : ¬ st.throws)
    {acquired : List Nat} (h : LeastRecent st capacity chunkCount X (recent acquired) u)
    (hcounter : u.cache.touchCounter = acquired.length) (use : CacheUse R) :
    exists X', LeastRecent st capacity chunkCount X'
        (recent (acquired ++ CacheUse.acquired chunkCount [use])) (use.run cb u) ∧
      (use.run cb u).cache.touchCounter =
        (acquired ++ CacheUse.acquired chunkCount [use]).length := by
  cases use with
  | acquire k =>
      by_cases hk : k < chunkCount
      · obtain ⟨handle, t, victim, hrun, hacq, _, hnext⟩ := h.acquire hround hthrows hk
        have hacquired : CacheUse.acquired chunkCount [CacheUse.acquire (R := R) k] = [k] := by
          simp [CacheUse.acquired, hk]
        have hcounter' := hacq.counter
        rw [CacheUse.run, hrun, hacquired, recent_concat, List.length_append]
        refine ⟨X, hnext, ?_⟩
        change t.1.touchCounter = acquired.length + 1
        rw [hcounter', hcounter]
      · have hacquired : CacheUse.acquired chunkCount [CacheUse.acquire (R := R) k] = [] := by
          simp [CacheUse.acquired, hk]
        have hout : ¬ k < u.cache.chunkToSlot.length := h.chunks_eq.symm ▸ hk
        rw [CacheUse.run, acquire_outOfRange (t := (u.cache, u.store)) hout, hacquired,
          List.append_nil]
        exact ⟨X, h, hcounter⟩
  | write f =>
      rw [show CacheUse.acquired chunkCount [CacheUse.write f] = [] from rfl, List.append_nil]
      rcases Option.eq_none_or_eq_some u.handle with hhandle | ⟨handle, hhandle⟩
      · rw [CacheUse.run, hhandle]
        exact ⟨X, h, hcounter⟩
      · have hdenotes : (u.cache.writeData handle f.write).denotesDirty handle :=
          (h.handle handle hhandle).2
        have hstep : (CacheUse.write f).run cb u =
            { u with cache := (u.cache.writeData handle f.write).setDirty handle } := by
          rw [CacheUse.run, hhandle]
        rw [hstep]
        refine ⟨_, h.write hhandle f, ?_⟩
        change ((u.cache.writeData handle f.write).setDirty handle).touchCounter = _
        rw [setDirty, if_pos hdenotes]
        exact hcounter
  | flushAll =>
      obtain ⟨t, hrun, _, hnext⟩ := h.flushAll hround hthrows
      have htouches := keeps_touches_flushAll cb (u.cache, u.store)
      rw [hrun] at htouches
      rw [show CacheUse.acquired chunkCount [CacheUse.flushAll (R := R)] = [] from rfl,
        List.append_nil, CacheUse.run, hrun]
      have hsame : t.1.touchCounter = u.cache.touchCounter := congrArg Prod.snd htouches
      exact ⟨X, hnext, hsame.trans hcounter⟩

theorem LeastRecent.runAll (hround : forall x, st.round x = x) (hthrows : ¬ st.throws)
    (uses : List (CacheUse R)) :
    forall {acquired : List Nat} {X : Nat -> List R} {u : CacheSession R σ},
      LeastRecent st capacity chunkCount X (recent acquired) u ->
      u.cache.touchCounter = acquired.length ->
      WriteBack cb capacity chunkCount (acquired ++ CacheUse.acquired chunkCount uses)
        (u.runAll cb uses) := by
  induction uses with
  | nil =>
      intro acquired X u h hcounter
      rw [show CacheUse.acquired chunkCount ([] : List (CacheUse R)) = [] from rfl,
        List.append_nil]
      exact h.writeBack hround hthrows hcounter
  | cons use uses ih =>
      intro acquired X u h hcounter
      obtain ⟨X', hnext, hcounter'⟩ := h.run hround hthrows hcounter use
      have hsplit : CacheUse.acquired chunkCount (use :: uses) =
          CacheUse.acquired chunkCount [use] ++ CacheUse.acquired chunkCount uses :=
        List.filterMap_append (l := [use])
      rw [hsplit, ← List.append_assoc]
      exact ih hnext hcounter'

omit [Zero R] in
theorem leastRecent_configured {capacity chunkCount : Nat} (hcapacity : 1 ≤ capacity)
    (c : ChunkCache R) {s : σ}
    (hstored : forall k, k < chunkCount -> st.Sized s k (X k).length ∧ st.Stored s k (X k)) :
    LeastRecent st capacity chunkCount X (recent [])
      (CacheSession.configured capacity chunkCount c s) := by
  obtain ⟨c', hrun, hcoherent, hcap, hchunks, hreserved, hentry, hslots⟩ :=
    Coherent.of_configure capacity chunkCount c (Nat.ne_of_gt hcapacity)
  have hsession : CacheSession.configured capacity chunkCount c s =
      { cache := c', store := s, handle := none } := by
    rw [CacheSession.configured, hrun]
  rw [hsession]
  exact
    { whole := hcoherent.whole hentry fun k hk => hstored k (hchunks ▸ hk)
      capacity_eq := hcap
      chunks_eq := hchunks
      reserved := hreserved
      slots := by
        change c'.slots.length = min capacity (recent ([] : List Nat)).length
        rw [hslots, recent_nil, List.length_nil, List.length_nil, Nat.min_zero]
      cached := by
        intro k
        have hnone := hentry k
        rw [entry, Option.map_eq_none_iff] at hnone
        change c'.slotOf k ≠ none <-> _
        rw [hnone]
        simp
      once := List.nodup_nil
      aged := by
        rw [recent_nil, List.take_nil]
        exact List.Pairwise.nil
      handle := by
        intro handle hhandle
        cases hhandle
      returned := rfl }

/--
The cache is a write-back cache of the last acquired chunks, whatever is done with it once it
has been configured.
-/
theorem configured_writeBack (st : ChunkStore cb) (hround : forall x, st.round x = x)
    (hthrows : ¬ st.throws) {capacity chunkCount : Nat} (hcapacity : 1 ≤ capacity)
    (c : ChunkCache R) {s : σ} {X : Nat -> List R}
    (hstored : forall k, k < chunkCount -> st.Sized s k (X k).length ∧ st.Stored s k (X k))
    (uses : List (CacheUse R)) :
    WriteBack cb capacity chunkCount (CacheUse.acquired chunkCount uses)
      ((CacheSession.configured capacity chunkCount c s).runAll cb uses) := by
  have hcounter : (CacheSession.configured capacity chunkCount c s).cache.touchCounter =
      ([] : List Nat).length := by
    rw [CacheSession.configured, configure, if_neg (Nat.ne_of_gt hcapacity)]
    rfl
  exact (leastRecent_configured hcapacity c hstored).runAll hround hthrows uses hcounter

/-!
## Three chunks in two slots
-/

def keepingCodec : CodecPolicy Nat Nat :=
  CodecPolicy.elementwise id 1 2 Nat.one_pos Nat.one_lt_two

theorem lossless_keepingCodec : keepingCodec.Lossless :=
  CodecPolicy.lossless_elementwise _ _

/-- The chunks `[1]`, `[2]` and `[3]`. -/
def threeChunks : ChunkVector keepingCodec :=
  { chunks :=
      [{ compressed := [1], elemCount := 1 }, { compressed := [2], elemCount := 1 },
        { compressed := [3], elemCount := 1 }]
    codec := () }

def pushedOut : List (CacheUse Nat) :=
  [.acquire 0, .write { write := List.map fun _ => 9, length_write := fun _ => List.length_map _ },
    .acquire 1, .acquire 2, .flushAll, .acquire 0]

theorem stored_threeChunks (k : Nat) (hk : k < 3) :
    (ChunkVector.chunkStore lossless_keepingCodec 3).Sized threeChunks k [k + 1].length ∧
      (ChunkVector.chunkStore lossless_keepingCodec 3).Stored threeChunks k [k + 1] := by
  match k, hk with
  | 0, hk => exact ⟨⟨rfl, hk, rfl, Nat.one_pos⟩, hk, rfl, fun _ _ => rfl⟩
  | 1, hk => exact ⟨⟨rfl, hk, rfl, Nat.one_pos⟩, hk, rfl, fun _ _ => rfl⟩
  | 2, hk => exact ⟨⟨rfl, hk, rfl, Nat.one_pos⟩, hk, rfl, fun _ _ => rfl⟩

/-- After the run chunks 0 and 2 are cached, and chunk 0 holds what was written to it. -/
theorem configured_writeBack_pushedOut :
    let cb := ChunkVector.callbacks keepingCodec
    let u := (CacheSession.configured 2 3 ChunkCache.empty threeChunks).runAll cb pushedOut
    WriteBack cb 2 3 [0, 1, 2, 0] u ∧ (recent [0, 1, 2, 0]).take 2 = [0, 2] ∧
      logical cb (u.cache, u.store) 0 = [9] :=
  ⟨configured_writeBack (ChunkVector.chunkStore lossless_keepingCodec 3) (fun _ => rfl) id
    (Nat.le_succ 1) ChunkCache.empty stored_threeChunks pushedOut, by decide, rfl⟩

end ChunkCache

end Tmfqs
