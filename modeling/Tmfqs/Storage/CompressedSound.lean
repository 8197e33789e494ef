import Tmfqs.Library.Frame
import Tmfqs.Storage.CompressedInit
import Tmfqs.Storage.CompressedQueries
import Tmfqs.Storage.CompressedTraversals

/-!
# Sound compressed backends

An initialised backend whose codec never fails stays sound: every chunk has a
content of its size, in its slot or in the store.  Soundness leaves open what the
contents are, so it does not depend on where a write ends up and survives copies.
-/

namespace Tmfqs

open Library ChunkCache

/-!
## Adjusting a slot
-/

/-- A change of a slot that keeps its chunk, its touch time and its size, and a dirty flag. -/
structure Slot.Adjusts {R : Type} (f : Slot R -> Slot R) : Prop where
  chunkIndex : forall slot, (f slot).chunkIndex = slot.chunkIndex
  touch : forall slot, (f slot).touch = slot.touch
  length : forall slot, (f slot).buffer.length = slot.buffer.length
  dirty : forall slot, (f slot).dirty = false -> slot.dirty = false

theorem Slot.adjusts_write {R : Type} {f : List R -> List R}
    (hf : forall buffer, (f buffer).length = buffer.length) :
    Slot.Adjusts fun slot : Slot R => { slot with buffer := f slot.buffer } where
  chunkIndex _ := rfl
  touch _ := rfl
  length slot := hf slot.buffer
  dirty _ h := h

theorem Slot.adjusts_dirty {R : Type} :
    Slot.Adjusts fun slot : Slot R => { slot with dirty := true } where
  chunkIndex _ := rfl
  touch _ := rfl
  length _ := rfl
  dirty _ h := by cases h

namespace ChunkCache

variable {R σ : Type} {cb : ChunkCallbacks R σ} {st : ChunkStore cb}

theorem modifySlot_of_le (c : ChunkCache R) {i : Nat} (hi : c.slots.length ≤ i)
    (f : Slot R -> Slot R) : c.modifySlot i f = c := by
  have hslots : c.slots.modify i f = c.slots := by
    apply List.ext_getElem?
    intro j
    rw [List.getElem?_modify]
    by_cases hij : i = j
    · subst hij
      rw [List.getElem?_eq_none hi]
      rfl
    · simp [hij]
  rw [modifySlot, hslots]

theorem Coherent.adjust {c : ChunkCache R} (hc : c.Coherent none) (i : Nat)
    {f : Slot R -> Slot R} (hf : Slot.Adjusts f) : (c.modifySlot i f).Coherent none := by
  rcases Nat.lt_or_ge i c.slots.length with hi | hi
  · exact hc.modifySlot hi (hf.chunkIndex _) (hf.touch _)
  · rw [c.modifySlot_of_le hi]
    exact hc

theorem Content.adjust {c : ChunkCache R} {s : σ} {X S : Nat -> List R} (hc : c.Coherent none)
    (h : Content st c s X S) (i : Nat) {f : Slot R -> Slot R} (hf : Slot.Adjusts f) :
    exists X' : Nat -> List R, (forall j, (X' j).length = (X j).length) ∧
      Content st (c.modifySlot i f) s X' S := by
  rcases Nat.lt_or_ge i c.slots.length with hi | hi
  · rcases hc.mapped hi (by simp) with ⟨k, _, hk⟩
    have hentry := entry_modifySlot hc hk f
    have hbuffer := h.buffer hk
    have hlength : forall j, (Function.update X k (f (c.slot i)).buffer j).length =
        (X j).length := by
      intro j
      by_cases hjk : j = k
      · rw [hjk, Function.update_self, hf.length, hbuffer]
      · rw [Function.update_of_ne hjk]
    refine ⟨_, hlength, ?_⟩
    exact
      { sized := by
          intro j hj
          rw [hlength]
          exact h.sized j hj
        length := by
          intro j
          rw [hlength]
          exact h.length j
        cached := by
          intro j buffer dirty hj
          rw [hentry] at hj
          by_cases hjk : j = k
          · subst hjk
            rw [if_pos rfl] at hj
            cases hj
            rw [Function.update_self]
            exact ⟨rfl, fun hclean => (h.cached j _ _ (entry_eq hk)).2 (hf.dirty _ hclean)⟩
          · rw [if_neg hjk] at hj
            rw [Function.update_of_ne hjk]
            exact h.cached j buffer dirty hj
        stored := by
          intro j hj hnone
          rw [hentry] at hnone
          by_cases hjk : j = k
          · rw [if_pos hjk] at hnone
            cases hnone
          · rw [if_neg hjk] at hnone
            rw [Function.update_of_ne hjk]
            exact h.stored j hj hnone }
  · rw [c.modifySlot_of_le hi]
    exact ⟨X, fun _ => rfl, h⟩

end ChunkCache

namespace CompressedStateBackend

variable {R B : Type} [Field R] {P : CodecPolicy R B} {round : List R -> List R}
  {hR : P.Rounds round} {n : Nat} {b : CompressedStateBackend P}

def Sound (hR : P.Rounds round) (n : Nat) (b : CompressedStateBackend P) : Prop :=
  exists X S, Contains hR n X S b

section

omit [Field R]

theorem Sound.shaped (h : Sound hR n b) : b.Shaped n := by
  rcases h with ⟨X, S, hX⟩
  exact hX.shaped

theorem Contains.sound {X S : Nat -> List R} (h : Contains hR n X S b) : Sound hR n b :=
  ⟨X, S, h⟩

theorem Sound.chunk_lt (h : Sound hR n b) {k : Nat} (hk : k * P.chunkStates < 2 ^ n) :
    k < b.layout.chunkCount :=
  (h.shaped.layout.lt_chunkCount_iff k).mpr hk

end

/-- The call returns, and a sound backend stays sound. -/
abbrev Safe {α : Type} (hR : P.Rounds round) (n : Nat) (x : Call (CompressedStateBackend P) α) :
    Prop :=
  Call.Maintains (Sound hR n) (fun _ _ => False) x

omit [Field R] in
theorem Contains.moved (h : b.Shaped n) {c : ChunkCache R} {s : ChunkVector P}
    {X X' S : Nat -> List R}
    (hlength : forall k, k < b.layout.chunkCount -> (X k).length = 2 * b.layout.statesIn k)
    (hsame : forall k, (X' k).length = (X k).length) (hc : c.Coherent none)
    (hshape : SameShape b.cache c)
    (hcontent : Content (ChunkVector.chunkStore hR b.layout.chunkCount) c s X' S) :
    Contains hR n X' S { b with cache := c, store := s } := by
  have hpos := h.layout.chunkCount_pos
  have hchunks : c.chunkToSlot.length = b.layout.chunkCount :=
    hshape.chunks.trans h.cacheChunks
  exact
    { shaped := h.recached hshape hc (hcontent.sized 0 (hchunks ▸ hpos)).1
      length := fun k hk => (hsame k).trans (hlength k hk)
      content := hcontent }

/-!
## Accesses
-/

section

omit [Field R]

theorem sound_adjust (h : Sound hR n b) (i : Nat) {f : Slot R -> Slot R}
    (hf : Slot.Adjusts f) : Sound hR n { b with cache := b.cache.modifySlot i f } := by
  rcases h with ⟨X, S, hX⟩
  rcases hX.content.adjust hX.shaped.coherent i hf with ⟨X', hlength, hcontent⟩
  exact (Contains.moved hX.shaped hX.length hlength (hX.shaped.coherent.adjust i hf) ⟨rfl, rfl⟩
    hcontent).sound

theorem safe_writeData (handle : SlotHandle) {f : List R -> List R}
    (hf : forall buffer, (f buffer).length = buffer.length) :
    Safe hR n (modifyCache fun c => c.writeData handle f) :=
  Call.maintains_modify fun _ h => sound_adjust h handle.slotIndex (Slot.adjusts_write hf)

theorem safe_setDirty (handle : SlotHandle) : Safe hR n (modifyCache fun c => c.setDirty handle) := by
  apply Call.maintains_modify
  intro b h
  change Sound hR n { b with cache := b.cache.setDirty handle }
  by_cases hd : b.cache.denotesDirty handle
  · have hcache : b.cache.setDirty handle =
        b.cache.modifySlot handle.slotIndex fun slot => { slot with dirty := true } := by
      rw [setDirty, if_pos hd]
    rw [hcache]
    exact sound_adjust h handle.slotIndex Slot.adjusts_dirty
  · rw [setDirty, if_neg hd]
    exact h

end

/-- Chunk `k` was acquired in a sound backend, whatever it holds. -/
structure Fetches (hR : P.Rounds round) (n : Nat) (b : CompressedStateBackend P) (k : Nat)
    (handle : SlotHandle) (b' : CompressedStateBackend P) : Prop where
  sound : Sound hR n b'
  layout : b'.layout = b.layout
  acquired : exists victim, Acquired b.cache b'.cache k handle victim

theorem Sound.post_acquireChunk (h : Sound hR n b) {k : Nat} (hk : k < b.layout.chunkCount) :
    Call.Post (acquireChunk k) b (fun handle b' => Fetches hR n b k handle b')
      (fun _ _ => False) := by
  rcases h with ⟨X, S, hX⟩
  have hkey : k < b.cache.chunkToSlot.length := hX.shaped.cacheChunks ▸ hk
  rw [acquireChunk, onCached, Call.post_focus_iff]
  refine (post_acquire hX.shaped.coherent hX.content hkey (fun hf => hf.elim)).imp ?_
    (fun _ _ he => he.1)
  rintro handle ⟨c, s⟩ ⟨victim, hacq, _, hafter⟩
  refine ⟨?_, rfl, victim, hacq⟩
  cases victim with
  | none =>
      exact (Contains.moved hX.shaped hX.length (fun _ => rfl) hacq.coherent hacq.shape
        hafter).sound
  | some w =>
      exact (Contains.moved hX.shaped hX.length (length_readAfterEvict hX.content.length w)
        hacq.coherent hacq.shape hafter).sound

theorem safe_acquireChunk {k : Nat} (hk : k * P.chunkStates < 2 ^ n) :
    Safe hR n (acquireChunk k) :=
  fun _ h => (h.post_acquireChunk (h.chunk_lt hk)).imp (fun _ _ hf => hf.sound) fun _ _ he => he

omit [Field R] in
theorem safe_flushCache : Safe hR n (flushCache : Call (CompressedStateBackend P) Unit) := by
  rintro b ⟨X, S, hX⟩
  rw [flushCache, onCached, Call.post_focus_iff]
  refine (post_flushAll hX.shaped.coherent hX.content).imp ?_ (fun _ _ he => he.1)
  rintro _ ⟨c, s⟩ ⟨hflushed, _, S', hcontent, _⟩
  exact (Contains.moved hX.shaped hX.length (fun _ => rfl) hflushed.coherent hflushed.shape
    hcontent).sound

omit [Field R] in
theorem safe_flushCacheIfNeeded :
    Safe hR n (flushCacheIfNeeded : Call (CompressedStateBackend P) Unit) := by
  apply Call.maintains_get_bind
  intro b h
  split
  · exact safe_flushCache b h
  · exact h

theorem safe_acquireAmplitudeRef {state : Nat} (hs : state < 2 ^ n) :
    Safe hR n (acquireAmplitudeRef state) := by
  apply Call.maintains_get_bind
  intro b h
  have href := h.shaped.layout.stateRef_eq (s := state)
  simp only [href]
  have hk : state / P.chunkStates * P.chunkStates < 2 ^ n :=
    Nat.lt_of_le_of_lt (Nat.div_mul_le_self state P.chunkStates) hs
  exact (safe_acquireChunk hk).bind (fun _ => Call.maintains_pure _) b h

theorem safe_readAmplitudeMutable {state : Nat} (hs : state < 2 ^ n) :
    Safe hR n (readAmplitudeMutable state) := by
  apply (safe_acquireAmplitudeRef hs).bind
  intro ref
  exact Call.maintains_get_bind fun _ h => h

theorem safe_writeAmplitudeMutable {state : Nat} (hs : state < 2 ^ n) (amp : Amplitude R) :
    Safe hR n (writeAmplitudeMutable state amp) := by
  apply (safe_acquireAmplitudeRef hs).bind
  intro ref
  apply (safe_writeData ref.slot fun buffer => length_writeAmp buffer ref.elemOffset amp).bind
  intro _
  exact safe_setDirty ref.slot

theorem safe_findAmplitude {state : Nat} (hs : state < 2 ^ n) :
    Safe hR n (findAmplitude state) := by
  apply Call.maintains_get_bind
  intro b h
  have href := h.shaped.layout.stateRef_eq (s := state)
  have hk : state / P.chunkStates * P.chunkStates < 2 ^ n :=
    Nat.lt_of_le_of_lt (Nat.div_mul_le_self state P.chunkStates) hs
  simp only [href]
  split
  · exact h
  · refine (safe_acquireChunk hk).bind (fun slot => ?_) b h
    exact Call.maintains_get_bind fun _ h' => h'

omit [Field R] in
theorem safe_mutate (operation : String) {mutateFn : Call (CompressedStateBackend P) Unit}
    (hfn : Safe hR n mutateFn) : Safe hR n (mutate operation mutateFn) := by
  intro b h
  rw [mutate, Call.post_bind_iff]
  refine Call.post_of_ok (ensureInitialized_eq h.shaped operation) ?_
  exact (hfn.bind fun _ => safe_flushCacheIfNeeded) b h

end CompressedStateBackend

end Tmfqs
