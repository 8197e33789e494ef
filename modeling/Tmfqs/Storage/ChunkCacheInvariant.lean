import Mathlib.Tactic.Common
import Tmfqs.Storage.ChunkCache

/-!
# The invariant of the chunk cache

Slots and reverse map describe the same finite map from chunks to slots, and no
two slots were touched at the same time.  While a chunk is being brought in one
slot is free.
-/

namespace Tmfqs

open Library

namespace ChunkCache

variable {R σ : Type}

/-!
## Reading the finite map
-/

def slotOf (c : ChunkCache R) (chunkIndex : Nat) : Option Nat :=
  c.chunkToSlot.getD chunkIndex none

def entry (c : ChunkCache R) (chunkIndex : Nat) : Option (List R × Bool) :=
  (c.slotOf chunkIndex).map fun i => ((c.slot i).buffer, (c.slot i).dirty)

theorem findBuffer_eq (c : ChunkCache R) (k : Nat) :
    c.findBuffer k = (c.entry k).map Prod.fst := by
  unfold findBuffer entry slotOf
  cases c.chunkToSlot.getD k none <;> rfl

section Accessors

variable (c : ChunkCache R)

theorem slot_modifySlot {i : Nat} (hi : i < c.slots.length) (f : Slot R -> Slot R) (j : Nat) :
    (c.modifySlot i f).slot j = if j = i then f (c.slot i) else c.slot j := by
  unfold modifySlot slot
  by_cases h : j = i
  · subst h
    simp [List.getD_eq_getElem?_getD, hi]
  · have hne : i ≠ j := fun heq => h heq.symm
    rw [if_neg h]
    simp [List.getD_eq_getElem?_getD, hne]

theorem modifySlot_self {i : Nat} {f : Slot R -> Slot R} (h : f (c.slot i) = c.slot i) :
    c.modifySlot i f = c := by
  have hslots : c.slots.modify i f = c.slots := by
    apply List.ext_getElem?
    intro j
    rw [List.getElem?_modify]
    by_cases hij : i = j
    · subst hij
      rw [slot, List.getD_eq_getElem?_getD] at h
      cases hget : c.slots[i]? with
      | none => simp
      | some s =>
          rw [hget] at h
          simpa using h
    · simp [hij]
  rw [modifySlot, hslots]

@[simp] theorem slots_length_modifySlot (i : Nat) (f : Slot R -> Slot R) :
    (c.modifySlot i f).slots.length = c.slots.length := by
  simp [modifySlot]

@[simp] theorem slotOf_modifySlot (i : Nat) (f : Slot R -> Slot R) (k : Nat) :
    (c.modifySlot i f).slotOf k = c.slotOf k := rfl

theorem slotOf_mapChunk {k : Nat} (hk : k < c.chunkToSlot.length) (o : Option Nat) (j : Nat) :
    (c.mapChunk k o).slotOf j = if j = k then o else c.slotOf j := by
  unfold mapChunk slotOf
  by_cases h : j = k
  · subst h
    simp [List.getD_eq_getElem?_getD, hk]
  · rw [if_neg h]
    simp [List.getD_eq_getElem?_getD, List.getElem?_set_ne (fun heq => h heq.symm)]

@[simp] theorem slot_mapChunk (k : Nat) (o : Option Nat) (i : Nat) :
    (c.mapChunk k o).slot i = c.slot i := rfl

@[simp] theorem length_mapChunk (k : Nat) (o : Option Nat) :
    (c.mapChunk k o).chunkToSlot.length = c.chunkToSlot.length := by
  simp [mapChunk]

theorem slotOf_lt {k i : Nat} (h : c.slotOf k = some i) : k < c.chunkToSlot.length := by
  by_contra hk
  have hnone : c.chunkToSlot[k]? = none := List.getElem?_eq_none (Nat.not_lt.mp hk)
  rw [slotOf, List.getD_eq_getElem?_getD, hnone] at h
  cases h

theorem slot_pushSlot (i : Nat) : c.pushSlot.slot i = c.slot i := by
  unfold pushSlot slot
  simp only [List.getD_eq_getElem?_getD]
  rcases Nat.lt_trichotomy i c.slots.length with hlt | heq | hgt
  · rw [List.getElem?_append_left hlt]
  · subst heq
    rw [List.getElem?_append_right (Nat.le_refl _), List.getElem?_eq_none (Nat.le_refl _)]
    simp
  · have hlong : c.slots.length + 1 ≤ i := hgt
    rw [List.getElem?_eq_none (by simpa using hlong), List.getElem?_eq_none (by omega)]

end Accessors

/-!
## Coherence
-/

/--
Slots and reverse map agree, except that slot `free` carries no chunk, and the
touch times of the other slots are distinct.
-/
structure Coherent (c : ChunkCache R) (free : Option Nat) : Prop where
  positive : 0 < c.capacity
  size : c.slots.length ≤ c.capacity
  carried : forall {k i}, c.slotOf k = some i ->
    i < c.slots.length ∧ (c.slot i).chunkIndex = some k ∧ some i ≠ free
  mapped : forall {i}, i < c.slots.length -> some i ≠ free ->
    exists k, (c.slot i).chunkIndex = some k ∧ c.slotOf k = some i
  touched : forall {i}, i < c.slots.length -> some i ≠ free ->
    (c.slot i).touch ≤ c.touchCounter
  distinct : forall {i j}, i < c.slots.length -> j < c.slots.length ->
    some i ≠ free -> some j ≠ free -> (c.slot i).touch = (c.slot j).touch -> i = j

/-- The parts of a cache no operation but `configure` changes. -/
structure SameShape (c c' : ChunkCache R) : Prop where
  capacity : c'.capacity = c.capacity
  chunks : c'.chunkToSlot.length = c.chunkToSlot.length

theorem SameShape.refl (c : ChunkCache R) : SameShape c c := ⟨rfl, rfl⟩

theorem SameShape.trans {c c' c'' : ChunkCache R} (h : SameShape c c')
    (h' : SameShape c' c'') : SameShape c c'' :=
  ⟨h'.capacity.trans h.capacity, h'.chunks.trans h.chunks⟩

namespace Coherent

variable {c : ChunkCache R}

theorem slotOf_inj (h : c.Coherent none) {j k i : Nat}
    (hj : c.slotOf j = some i) (hk : c.slotOf k = some i) : j = k := by
  have hcarries := (h.carried hj).2.1
  rw [(h.carried hk).2.1] at hcarries
  exact (Option.some.inj hcarries).symm

theorem of_empty (hpositive : 0 < c.capacity) (hslots : c.slots = [])
    (hnone : forall k, c.slotOf k = none) : c.Coherent none where
  positive := hpositive
  size := by
    rw [hslots]
    exact Nat.zero_le _
  carried := by
    intro k i hk
    rw [hnone] at hk
    cases hk
  mapped := by
    intro i hi
    rw [hslots] at hi
    exact absurd hi (Nat.not_lt_zero i)
  touched := by
    intro i hi
    rw [hslots] at hi
    exact absurd hi (Nat.not_lt_zero i)
  distinct := by
    intro i j hi
    rw [hslots] at hi
    exact absurd hi (Nat.not_lt_zero i)

theorem getD_replicate_none (count k : Nat) :
    (List.replicate count (none : Option Nat)).getD k none = none := by
  rw [List.getD_eq_getElem?_getD, List.getElem?_replicate]
  by_cases hk : k < count <;> simp [hk]

theorem of_configure (capacity chunkCount : Nat) (c : ChunkCache R) (h : capacity ≠ 0) :
    exists c', configure capacity chunkCount c = (.ok (), c') ∧ c'.Coherent none ∧
      c'.capacity = capacity ∧ c'.chunkToSlot.length = chunkCount ∧
      capacity ≤ c'.reserved ∧ (forall k, c'.entry k = none) ∧ c'.slots = [] := by
  have hslot := getD_replicate_none chunkCount
  refine ⟨_, by rw [configure, if_neg h]; rfl, ?_, rfl, by simp, by simp, ?_, rfl⟩
  · exact of_empty (Nat.pos_of_ne_zero h) rfl hslot
  · intro k
    rw [entry, slotOf, hslot]
    rfl

theorem clear (h : c.Coherent none) : c.clear.Coherent none :=
  of_empty h.positive rfl (getD_replicate_none _)

theorem copy (h : c.Coherent none) : c.copy.Coherent none where
  positive := h.positive
  size := h.size
  carried hk := h.carried hk
  mapped hi hfree := h.mapped hi hfree
  touched hi hfree := h.touched hi hfree
  distinct hi hj hfi hfj heq := h.distinct hi hj hfi hfj heq

theorem touchSlot (h : c.Coherent none) {i : Nat} (hi : i < c.slots.length) :
    (c.touchSlot i).Coherent none := by
  have hslot : forall j, (c.touchSlot i).slot j =
      if j = i then { c.slot i with touch := c.touchCounter + 1 } else c.slot j :=
    fun j => c.slot_modifySlot hi _ j
  have hlen : (c.touchSlot i).slots.length = c.slots.length := c.slots_length_modifySlot i _
  have hindex : forall j, ((c.touchSlot i).slot j).chunkIndex = (c.slot j).chunkIndex := by
    intro j
    rw [hslot]
    split
    · rename_i heq
      rw [heq]
    · rfl
  have htouch : forall j, j < c.slots.length -> (c.slot j).touch ≤ c.touchCounter :=
    fun j hj => h.touched hj (by simp)
  refine
    { positive := h.positive
      size := by rw [hlen]; exact h.size
      carried := ?_
      mapped := ?_
      touched := ?_
      distinct := ?_ }
  · intro k j hk
    rw [hlen, hindex]
    exact h.carried hk
  · intro j hj hfree
    rw [hindex]
    exact h.mapped (hlen ▸ hj) hfree
  · intro j hj _
    have hle := htouch j (hlen ▸ hj)
    rw [hslot]
    split
    · exact Nat.le_refl _
    · exact Nat.le_succ_of_le hle
  · intro j j' hj hj' hfree hfree' heq
    have hle := htouch j (hlen ▸ hj)
    have hle' := htouch j' (hlen ▸ hj')
    rw [hslot, hslot] at heq
    by_cases hji : j = i
    · by_cases hji' : j' = i
      · rw [hji, hji']
      · rw [if_pos hji, if_neg hji'] at heq
        simp only at heq
        omega
    · by_cases hji' : j' = i
      · rw [if_neg hji, if_pos hji'] at heq
        simp only at heq
        omega
      · rw [if_neg hji, if_neg hji'] at heq
        exact h.distinct (hlen ▸ hj) (hlen ▸ hj') hfree hfree' heq

theorem modifySlot (h : c.Coherent none) {i : Nat} (hi : i < c.slots.length)
    {f : Slot R -> Slot R} (hindex : (f (c.slot i)).chunkIndex = (c.slot i).chunkIndex)
    (htouch : (f (c.slot i)).touch = (c.slot i).touch) :
    (c.modifySlot i f).Coherent none := by
  have hindex' : forall j, ((c.modifySlot i f).slot j).chunkIndex = (c.slot j).chunkIndex := by
    intro j
    rw [c.slot_modifySlot hi]
    split
    · rename_i heq
      rw [hindex, heq]
    · rfl
  have htouch' : forall j, ((c.modifySlot i f).slot j).touch = (c.slot j).touch := by
    intro j
    rw [c.slot_modifySlot hi]
    split
    · rename_i heq
      rw [htouch, heq]
    · rfl
  have hlen := c.slots_length_modifySlot i f
  refine
    { positive := h.positive
      size := by rw [hlen]; exact h.size
      carried := ?_
      mapped := ?_
      touched := ?_
      distinct := ?_ }
  · intro k j hk
    rw [hlen, hindex']
    exact h.carried hk
  · intro j hj hfree
    rw [hindex']
    exact h.mapped (hlen ▸ hj) hfree
  · intro j hj hfree
    rw [htouch']
    exact h.touched (hlen ▸ hj) hfree
  · intro j j' hj hj' hfree hfree' heq
    rw [htouch', htouch'] at heq
    exact h.distinct (hlen ▸ hj) (hlen ▸ hj') hfree hfree' heq

theorem pushSlot (h : c.Coherent none) (hroom : c.slots.length < c.capacity) :
    c.pushSlot.Coherent (some c.slots.length) := by
  have hlen : c.pushSlot.slots.length = c.slots.length + 1 := by
    simp [ChunkCache.pushSlot]
  have hold : forall i, i < c.pushSlot.slots.length -> some i ≠ some c.slots.length ->
      i < c.slots.length := by
    intro i hi hne
    have hne' : i ≠ c.slots.length := fun heq => hne (congrArg some heq)
    omega
  refine
    { positive := h.positive
      size := by rw [hlen]; exact hroom
      carried := ?_
      mapped := ?_
      touched := ?_
      distinct := ?_ }
  · intro k i hk
    obtain ⟨hi, hindex, _⟩ := h.carried hk
    refine ⟨by omega, by rw [c.slot_pushSlot]; exact hindex, ?_⟩
    simp only [ne_eq, Option.some.injEq]
    omega
  · intro i hi hfree
    rw [c.slot_pushSlot]
    exact h.mapped (hold i hi hfree) (by simp)
  · intro i hi hfree
    rw [c.slot_pushSlot]
    exact h.touched (hold i hi hfree) (by simp)
  · intro i j hi hj hfi hfj heq
    rw [c.slot_pushSlot, c.slot_pushSlot] at heq
    exact h.distinct (hold i hi hfi) (hold j hj hfj) (by simp) (by simp) heq

theorem unmap (h : c.Coherent none) {i k : Nat} (hk : c.slotOf k = some i) :
    ((c.mapChunk k none).modifySlot i fun slot =>
      { slot with
        chunkIndex := none
        dirty := false
        touch := 0 }).Coherent (some i) := by
  have hi : i < (c.mapChunk k none).slots.length := (h.carried hk).1
  have hkey := c.slotOf_lt hk
  have hslot : forall j, some j ≠ some i ->
      (((c.mapChunk k none).modifySlot i fun slot =>
        { slot with
          chunkIndex := none
          dirty := false
          touch := 0 }).slot j) = c.slot j := by
    intro j hj
    rw [(c.mapChunk k none).slot_modifySlot hi,
      if_neg (fun heq => hj (congrArg some heq)), slot_mapChunk]
  have hmap : forall j, ((c.mapChunk k none).modifySlot i fun slot =>
      { slot with
        chunkIndex := none
        dirty := false
        touch := 0 }).slotOf j = if j = k then none else c.slotOf j :=
    fun j => c.slotOf_mapChunk hkey none j
  have hlen := (c.mapChunk k none).slots_length_modifySlot i fun slot =>
    { slot with
      chunkIndex := none
      dirty := false
      touch := 0 }
  refine
    { positive := h.positive
      size := by rw [hlen]; exact h.size
      carried := ?_
      mapped := ?_
      touched := ?_
      distinct := ?_ }
  · intro j l hj
    rw [hmap] at hj
    by_cases hjk : j = k
    · rw [if_pos hjk] at hj
      cases hj
    · rw [if_neg hjk] at hj
      have hne : some l ≠ some i := by
        intro heq
        have hli := Option.some.inj heq
        subst hli
        exact hjk (h.slotOf_inj hj hk)
      refine ⟨?_, ?_, hne⟩
      · rw [hlen]
        exact (h.carried hj).1
      · rw [hslot l hne]
        exact (h.carried hj).2.1
  · intro l hl hne
    obtain ⟨j, hindex, hj⟩ := h.mapped (i := l) (hlen ▸ hl) (by simp)
    refine ⟨j, by rw [hslot l hne]; exact hindex, ?_⟩
    rw [hmap, if_neg]
    · exact hj
    · intro heq
      subst heq
      exact hne (hj ▸ hk)
  · intro l hl hne
    rw [hslot l hne]
    exact h.touched (hlen ▸ hl) (by simp)
  · intro l l' hl hl' hne hne' heq
    rw [hslot l hne, hslot l' hne'] at heq
    exact h.distinct (hlen ▸ hl) (hlen ▸ hl') (by simp) (by simp) heq

theorem place {i k : Nat} {buffer : List R} {c' : ChunkCache R}
    (h : c.Coherent (some i)) (hi : i < c.slots.length) (hk : c.slotOf k = none)
    (hcap : c'.capacity = c.capacity) (hlen : c'.slots.length = c.slots.length)
    (hcounter : c'.touchCounter = c.touchCounter + 1)
    (hslot : forall j, c'.slot j = if j = i then
      { chunkIndex := some k, buffer := buffer, dirty := false, touch := c.touchCounter + 1 }
      else c.slot j)
    (hmap : forall j, c'.slotOf j = if j = k then some i else c.slotOf j) :
    c'.Coherent none := by
  have hfree : forall {j}, j ≠ i -> some j ≠ some i := fun hne heq => hne (Option.some.inj heq)
  refine
    { positive := hcap ▸ h.positive
      size := by rw [hlen, hcap]; exact h.size
      carried := ?_
      mapped := ?_
      touched := ?_
      distinct := ?_ }
  · intro j l hj
    rw [hmap] at hj
    by_cases hjk : j = k
    · rw [if_pos hjk] at hj
      have hil := Option.some.inj hj
      subst hil
      refine ⟨hlen ▸ hi, ?_, by simp⟩
      rw [hslot, if_pos rfl, hjk]
    · rw [if_neg hjk] at hj
      obtain ⟨hl, hindex, hne⟩ := h.carried hj
      refine ⟨hlen ▸ hl, ?_, by simp⟩
      rw [hslot, if_neg (fun heq => hne (congrArg some heq))]
      exact hindex
  · intro l hl _
    by_cases hli : l = i
    · refine ⟨k, by rw [hslot, if_pos hli], ?_⟩
      rw [hmap, if_pos rfl, hli]
    · obtain ⟨j, hindex, hj⟩ := h.mapped (i := l) (hlen ▸ hl) (hfree hli)
      refine ⟨j, by rw [hslot, if_neg hli]; exact hindex, ?_⟩
      rw [hmap, if_neg]
      · exact hj
      · intro heq
        rw [heq, hk] at hj
        cases hj
  · intro l hl _
    rw [hslot, hcounter]
    by_cases hli : l = i
    · rw [if_pos hli]
    · rw [if_neg hli]
      exact Nat.le_succ_of_le (h.touched (hlen ▸ hl) (hfree hli))
  · intro l l' hl hl' _ _ heq
    rw [hslot, hslot] at heq
    by_cases hli : l = i
    · by_cases hli' : l' = i
      · rw [hli, hli']
      · have hle := h.touched (i := l') (hlen ▸ hl') (hfree hli')
        rw [if_pos hli, if_neg hli'] at heq
        simp only at heq
        omega
    · by_cases hli' : l' = i
      · have hle := h.touched (i := l) (hlen ▸ hl) (hfree hli)
        rw [if_neg hli, if_pos hli'] at heq
        simp only at heq
        omega
      · rw [if_neg hli, if_neg hli'] at heq
        exact h.distinct (hlen ▸ hl) (hlen ▸ hl') (hfree hli) (hfree hli') heq

end Coherent

/-!
## The least recently used slot
-/

theorem foldl_least_touch (touch : Nat -> Nat) (l : List Nat) :
    forall best : Nat × Nat, best.2 = touch best.1 ->
      ((l.foldl (fun (best : Nat × Nat) idx =>
        if touch idx < best.2 then (idx, touch idx) else best) best).1 = best.1 ∨
        (l.foldl (fun (best : Nat × Nat) idx =>
          if touch idx < best.2 then (idx, touch idx) else best) best).1 ∈ l) ∧
      touch (l.foldl (fun (best : Nat × Nat) idx =>
        if touch idx < best.2 then (idx, touch idx) else best) best).1 ≤ touch best.1 ∧
      forall idx, idx ∈ l -> touch (l.foldl (fun (best : Nat × Nat) idx =>
        if touch idx < best.2 then (idx, touch idx) else best) best).1 ≤ touch idx := by
  induction l with
  | nil =>
      intro best _
      exact ⟨Or.inl rfl, Nat.le_refl _, by simp⟩
  | cons head rest ih =>
      intro best hbest
      rw [List.foldl_cons]
      by_cases hlt : touch head < best.2
      · rw [if_pos hlt]
        obtain ⟨hmem, hle, hall⟩ := ih (head, touch head) rfl
        refine ⟨Or.inr ?_, by rw [← hbest]; exact Nat.le_trans hle (Nat.le_of_lt hlt), ?_⟩
        · rcases hmem with heq | hin
          · rw [heq]
            exact List.mem_cons_self
          · exact List.mem_cons_of_mem head hin
        · intro idx hidx
          rcases List.mem_cons.mp hidx with rfl | hin
          · exact hle
          · exact hall idx hin
      · rw [if_neg hlt]
        obtain ⟨hmem, hle, hall⟩ := ih best hbest
        refine ⟨?_, hle, ?_⟩
        · rcases hmem with heq | hin
          · exact Or.inl heq
          · exact Or.inr (List.mem_cons_of_mem head hin)
        · intro idx hidx
          rcases List.mem_cons.mp hidx with rfl | hin
          · rw [hbest, Nat.not_lt] at hlt
            exact Nat.le_trans hle hlt
          · exact hall idx hin

theorem selectEvictionSlot_lt {c : ChunkCache R} (h : 0 < c.slots.length) :
    c.selectEvictionSlot < c.slots.length := by
  rcases (foldl_least_touch (fun i => (c.slot i).touch)
    (List.range' 1 (c.slots.length - 1)) (0, (c.slot 0).touch) rfl).1 with heq | hmem
  · rw [selectEvictionSlot, heq]
    exact h
  · rw [List.mem_range'_1] at hmem
    rw [selectEvictionSlot]
    omega

theorem touch_selectEvictionSlot_le {c : ChunkCache R} {i : Nat} (hi : i < c.slots.length) :
    (c.slot c.selectEvictionSlot).touch ≤ (c.slot i).touch := by
  obtain ⟨_, hfirst, hall⟩ := foldl_least_touch (fun i => (c.slot i).touch)
    (List.range' 1 (c.slots.length - 1)) (0, (c.slot 0).touch) rfl
  rcases Nat.eq_zero_or_pos i with hzero | hpos
  · subst hzero
    exact hfirst
  · apply hall i
    rw [List.mem_range'_1]
    omega

end ChunkCache

end Tmfqs
