import Tmfqs.Storage.Chunking
import Tmfqs.Storage.CompressedStateBackend

/-!
# State vectors in a compressed backend

With a lossless codec an initialised backend holds a state vector: every chunk is
the interval of the vector it stands for, in the cache or in the store.  This
module follows the vector through the accesses the entry points are built from.
-/

namespace Tmfqs

open Library ChunkCache

namespace CompressedStateBackend

variable {R B : Type} [Field R] {P : CodecPolicy R B}

/-- Size fields, layout and cache of a backend initialised for `n` qubits. -/
structure Shaped (b : CompressedStateBackend P) (n : Nat) : Prop where
  qubits : n ≤ 31
  numQubits : b.numQubits = n
  numStates : b.numStates = 2 ^ n
  layout : b.layout.Exact (2 ^ n) P.chunkStates
  chunks : b.store.chunks.length = b.layout.chunkCount
  cacheChunks : b.cache.chunkToSlot.length = b.layout.chunkCount
  capacity : b.cache.capacity = min P.cacheSlots b.layout.chunkCount
  coherent : b.cache.Coherent none

omit [Field R] in
theorem Shaped.recached {b : CompressedStateBackend P} {n : Nat} (h : b.Shaped n)
    {c : ChunkCache R} {s : ChunkVector P} (hshape : SameShape b.cache c)
    (hc : c.Coherent none) (hs : s.chunks.length = b.layout.chunkCount) :
    Shaped { b with cache := c, store := s } n where
  qubits := h.qubits
  numQubits := h.numQubits
  numStates := h.numStates
  layout := h.layout
  chunks := hs
  cacheChunks := hshape.chunks.trans h.cacheChunks
  capacity := hshape.capacity.trans h.capacity
  coherent := hc

omit [Field R] in
theorem Shaped.batched {b : CompressedStateBackend P} {n : Nat} (h : b.Shaped n)
    (depth : Nat) : Shaped { b with batchDepth := depth } n where
  qubits := h.qubits
  numQubits := h.numQubits
  numStates := h.numStates
  layout := h.layout
  chunks := h.chunks
  cacheChunks := h.cacheChunks
  capacity := h.capacity
  coherent := h.coherent

/-- The slot vector never has to move: what `configure` reserves is still reserved. -/
def Roomy (b : CompressedStateBackend P) : Prop :=
  b.cache.capacity ≤ b.cache.reserved

omit [Field R] in
theorem Roomy.not_moves {b : CompressedStateBackend P} (h : b.Roomy) (k : Nat) :
    ¬ b.cache.Moves k := by
  rintro ⟨⟨_, hlt⟩, hle⟩
  unfold Roomy at h
  omega

/-- What accesses to chunks leave alone. -/
structure SameFrame (b b' : CompressedStateBackend P) : Prop where
  numQubits : b'.numQubits = b.numQubits
  numStates : b'.numStates = b.numStates
  layout : b'.layout = b.layout
  batchDepth : b'.batchDepth = b.batchDepth
  roomy : b.Roomy -> b'.Roomy

omit [Field R] in
theorem SameFrame.refl (b : CompressedStateBackend P) : SameFrame b b :=
  ⟨rfl, rfl, rfl, rfl, id⟩

omit [Field R] in
theorem SameFrame.trans {b b' b'' : CompressedStateBackend P} (h : SameFrame b b')
    (h' : SameFrame b' b'') : SameFrame b b'' :=
  ⟨h'.numQubits.trans h.numQubits, h'.numStates.trans h.numStates,
    h'.layout.trans h.layout, h'.batchDepth.trans h.batchDepth, fun hb => h'.roomy (h.roomy hb)⟩

/-- Every chunk `k` of the backend is `X k`. -/
structure HoldsChunks (hP : P.Lossless) (n : Nat) (X : Nat -> List R)
    (b : CompressedStateBackend P) : Prop where
  shaped : b.Shaped n
  length : forall k, (X k).length = 2 * b.layout.statesIn k
  content : Content (ChunkVector.chunkStore hP b.layout.chunkCount) b.cache b.store X X

/-- The backend holds the state vector `v` of `n` qubits. -/
structure Holds (hP : P.Lossless) (n : Nat) (v : List R) (b : CompressedStateBackend P) :
    Prop where
  length : v.length = 2 * 2 ^ n
  chunks : HoldsChunks hP n (chunkOf P.chunkStates v) b

section Content

variable {hP : P.Lossless} {c c' : ChunkCache R} {s : ChunkVector P} {X : Nat -> List R}
  {count : Nat}

omit [Field R] in
theorem storedAfterFlush_lossless (k : Nat) :
    storedAfterFlush (ChunkVector.chunkStore hP count) c X X k = X := by
  have hsame : (if c.isDirty k then (ChunkVector.chunkStore hP count).round (X k) else X k) =
      X k := by
    split
    · rfl
    · rfl
  rw [storedAfterFlush, hsame, Function.update_eq_self]

omit [Field R] in
theorem content_of_afterRoom {victim : Option Nat}
    (h : AfterRoom (ChunkVector.chunkStore hP count) c c' s X X victim) :
    Content (ChunkVector.chunkStore hP count) c' s X X := by
  cases victim with
  | none => exact h
  | some w =>
      rw [AfterRoom, readAfterEvict, storedAfterFlush_lossless, Function.update_eq_self] at h
      exact h

end Content

section Access

variable {hP : P.Lossless} {n : Nat} {X : Nat -> List R} {v : List R}
  {b : CompressedStateBackend P}

section

omit [Field R]

theorem HoldsChunks.elemCount (h : HoldsChunks hP n X b) {k : Nat}
    (hk : k < b.layout.chunkCount) :
    (b.store.chunk k).elemCount = 2 * b.layout.statesIn k := by
  rw [← h.length k]
  exact (h.content.sized k (h.shaped.cacheChunks ▸ hk)).2.2.1

theorem HoldsChunks.batched (h : HoldsChunks hP n X b) (depth : Nat) :
    HoldsChunks hP n X { b with batchDepth := depth } where
  shaped := h.shaped.batched depth
  length := h.length
  content := h.content

theorem HoldsChunks.congr {X' : Nat -> List R} (h : HoldsChunks hP n X b)
    (heq : forall k, X' k = X k) : HoldsChunks hP n X' b := by
  have hX : X' = X := funext heq
  rw [hX]
  exact h

theorem Holds.chunk_lt (h : Holds hP n v b) {state : Nat} (hs : state < 2 ^ n) :
    state / P.chunkStates < b.layout.chunkCount :=
  h.chunks.shaped.layout.div_lt_chunkCount hs

end

/-!
## Acquiring a chunk
-/

/-- The outcome of acquiring chunk `k` in a backend with the chunks `X`. -/
structure Acquires (hP : P.Lossless) (n : Nat) (X : Nat -> List R)
    (b : CompressedStateBackend P) (k : Nat) (handle : SlotHandle)
    (b' : CompressedStateBackend P) : Prop where
  holds : HoldsChunks hP n X b'
  frame : SameFrame b b'
  acquired : exists victim, Acquired b.cache b'.cache k handle victim
  data : b'.slotData handle = X k

section

omit [Field R]

theorem Acquires.chunkIndex {k : Nat} {handle : SlotHandle} {b' : CompressedStateBackend P}
    (h : Acquires hP n X b k handle b') : handle.chunkIndex = k := by
  obtain ⟨_, hacq⟩ := h.acquired
  exact hacq.chunkIndex

theorem Acquires.live {k : Nat} {handle : SlotHandle} {b' : CompressedStateBackend P}
    (h : Acquires hP n X b k handle b') : b'.cache.Live handle := by
  obtain ⟨_, hacq⟩ := h.acquired
  exact hacq.isLive

theorem Acquires.denotes {k : Nat} {handle : SlotHandle} {b' : CompressedStateBackend P}
    (h : Acquires hP n X b k handle b') : b'.cache.denotesDirty handle := by
  obtain ⟨_, hacq⟩ := h.acquired
  exact hacq.denotes

end

theorem post_acquireChunk (h : HoldsChunks hP n X b) {k : Nat}
    (hk : k < b.layout.chunkCount) :
    Call.Post (acquireChunk k) b (fun handle b' => Acquires hP n X b k handle b')
      (fun _ _ => False) := by
  have hkey : k < b.cache.chunkToSlot.length := h.shaped.cacheChunks ▸ hk
  rw [acquireChunk, onCached, Call.post_focus_iff]
  refine (post_acquire h.shaped.coherent h.content hkey (fun hf => hf.elim)).imp ?_
    (fun _ _ he => he.1)
  rintro handle ⟨c', s'⟩ ⟨victim, hacq, hbuffer, hafter⟩
  have hcontent := content_of_afterRoom hafter
  have hpos := h.shaped.layout.chunkCount_pos
  have hchunks : c'.chunkToSlot.length = b.layout.chunkCount :=
    hacq.shape.chunks.trans h.shaped.cacheChunks
  have hroomy : b.Roomy -> c'.capacity ≤ c'.reserved := by
    intro hb
    rw [hacq.reserved, if_neg (hb.not_moves k), hacq.shape.capacity]
    exact hb
  exact
    { holds :=
        { shaped := h.shaped.recached hacq.shape hacq.coherent
            (hcontent.sized 0 (hchunks ▸ hpos)).1
          length := h.length
          content := hcontent }
      frame := ⟨rfl, rfl, rfl, rfl, hroomy⟩
      acquired := ⟨victim, hacq⟩
      data := hbuffer }

theorem post_acquireAmplitudeRef (h : HoldsChunks hP n X b) {state : Nat} (hs : state < 2 ^ n) :
    Call.Post (acquireAmplitudeRef state) b
      (fun ref b' => Acquires hP n X b (state / P.chunkStates) ref.slot b' ∧
        ref.elemOffset = 2 * (state % P.chunkStates))
      (fun _ _ => False) := by
  have href := h.shaped.layout.stateRef_eq (s := state)
  rw [acquireAmplitudeRef, Call.post_bind_iff, Call.post_get]
  simp only [href]
  rw [Call.post_bind_iff]
  refine (post_acquireChunk h (h.shaped.layout.div_lt_chunkCount hs)).mono ?_
  intro slot b' hacq
  exact ⟨hacq, rfl⟩

theorem post_readAmplitudeMutable (h : Holds hP n v b) {state : Nat} (hs : state < 2 ^ n) :
    Call.Post (readAmplitudeMutable state) b
      (fun a b' => a = ampAt v state ∧ Holds hP n v b' ∧ SameFrame b b')
      (fun _ _ => False) := by
  rw [readAmplitudeMutable, Call.post_bind_iff]
  refine (post_acquireAmplitudeRef h.chunks hs).mono ?_
  rintro ref b' ⟨hacq, hoffset⟩
  rw [Call.post_bind_iff, Call.post_get, Call.post_pure]
  refine ⟨?_, ⟨h.length, hacq.holds⟩, hacq.frame⟩
  rw [hacq.data, hoffset, readAmp_chunkOf P.chunkStates_pos]

/-!
## Writing through a handle
-/

omit [Field R] in
theorem HoldsChunks.write (h : HoldsChunks hP n X b) {handle : SlotHandle}
    {f : List R -> List R} (hlive : b.cache.Live handle)
    (hdenotes : b.cache.denotesDirty handle) (hlen : forall x, (f x).length = x.length) :
    HoldsChunks hP n (Function.update X handle.chunkIndex (f (X handle.chunkIndex)))
        { b with cache := (b.cache.writeData handle f).setDirty handle } ∧
      SameFrame b { b with cache := (b.cache.writeData handle f).setDirty handle } := by
  have hi := (h.shaped.coherent.carried hlive).1
  have hwrite : (b.cache.writeData handle f).Coherent none :=
    h.shaped.coherent.modifySlot hi rfl rfl
  have hdenotes' : (b.cache.writeData handle f).denotesDirty handle := hdenotes
  have hi' : handle.slotIndex < (b.cache.writeData handle f).slots.length :=
    (hwrite.carried (k := handle.chunkIndex) hlive).1
  have hcache : ((b.cache.writeData handle f).setDirty handle) =
      (b.cache.writeData handle f).modifySlot handle.slotIndex
        fun slot => { slot with dirty := true } := by
    rw [setDirty, if_pos hdenotes']
  refine ⟨?_, ?_⟩
  · exact
      { shaped := by
          rw [hcache]
          exact h.shaped.recached ⟨rfl, rfl⟩ (hwrite.modifySlot hi' rfl rfl) h.shaped.chunks
        length := by
          intro k
          by_cases hk : k = handle.chunkIndex
          · rw [hk, Function.update_self, hlen]
            exact h.length _
          · rw [Function.update_of_ne hk]
            exact h.length k
        content := by
          have hcontent := h.content.write h.shaped.coherent hlive hdenotes hlen
          have hX : Content (ChunkVector.chunkStore hP b.layout.chunkCount)
              ((b.cache.writeData handle f).setDirty handle) b.store
              (Function.update X handle.chunkIndex (f (X handle.chunkIndex)))
              (Function.update X handle.chunkIndex (f (X handle.chunkIndex))) := by
            have hentry : ((b.cache.writeData handle f).setDirty handle).entry
                handle.chunkIndex = some (f (X handle.chunkIndex), true) := by
              have hlive' : ((b.cache.writeData handle f).setDirty handle).slotOf
                  handle.chunkIndex = some handle.slotIndex := by
                rw [hcache]
                exact hlive
              have hbuffer := hcontent.buffer hlive'
              rw [entry_eq hlive', hbuffer, Function.update_self, hcache,
                slot_modifySlot _ hi', if_pos rfl]
            exact
              { sized := hcontent.sized
                length := fun _ => rfl
                cached := by
                  intro k buffer dirty hk
                  refine ⟨(hcontent.cached k buffer dirty hk).1, fun hd => ?_⟩
                  have hne : k ≠ handle.chunkIndex := by
                    intro heq
                    rw [heq, hentry] at hk
                    cases hk
                    cases hd
                  rw [Function.update_of_ne hne]
                  exact (hcontent.cached k buffer dirty hk).2 hd
                stored := by
                  intro k hk hnone
                  have hne : k ≠ handle.chunkIndex := by
                    intro heq
                    rw [heq, hentry] at hnone
                    cases hnone
                  rw [Function.update_of_ne hne]
                  exact ⟨rfl, (hcontent.stored k hk hnone).2⟩ }
          exact hX }
  · refine ⟨rfl, rfl, rfl, rfl, fun hb => ?_⟩
    have hb' : b.cache.capacity ≤ b.cache.reserved := hb
    change ((b.cache.writeData handle f).setDirty handle).capacity ≤
      ((b.cache.writeData handle f).setDirty handle).reserved
    rw [hcache]
    exact hb'

theorem post_writeAmplitudeMutable (h : Holds hP n v b) {state : Nat} (hs : state < 2 ^ n)
    (amp : Amplitude R) :
    Call.Post (writeAmplitudeMutable state amp) b
      (fun _ b' => Holds hP n (setAmp v state amp) b' ∧ SameFrame b b')
      (fun _ _ => False) := by
  rw [writeAmplitudeMutable, Call.post_bind_iff]
  refine (post_acquireAmplitudeRef h.chunks hs).mono ?_
  rintro ref b' ⟨hacq, hoffset⟩
  rw [Call.post_bind_iff, modifyCache, Call.post_modify, modifyCache, Call.post_modify]
  obtain ⟨hholds, hframe⟩ := hacq.holds.write hacq.live hacq.denotes
    (f := fun buffer => writeAmp buffer ref.elemOffset amp)
    (fun x => length_writeAmp x ref.elemOffset amp)
  refine ⟨⟨by rw [length_setAmp]; exact h.length, ?_⟩, hacq.frame.trans hframe⟩
  rw [chunkOf_setAmp P.chunkStates_pos, ← hoffset, ← hacq.chunkIndex]
  exact hholds

/-!
## Flushing
-/

omit [Field R] in
theorem post_flushCache (h : HoldsChunks hP n X b) :
    Call.Post flushCache b (fun _ b' => HoldsChunks hP n X b' ∧ SameFrame b b')
      (fun _ _ => False) := by
  rw [flushCache, onCached, Call.post_focus_iff]
  refine (post_flushAll h.shaped.coherent h.content).imp ?_ (fun _ _ he => he.1)
  rintro _ ⟨c', s'⟩ ⟨hflushed, _, S', hcontent, hS'⟩
  have hX : S' = X := by
    funext k
    rw [hS']
    split
    · rfl
    · rfl
  subst hX
  have hpos := h.shaped.layout.chunkCount_pos
  have hchunks : c'.chunkToSlot.length = b.layout.chunkCount :=
    hflushed.shape.chunks.trans h.shaped.cacheChunks
  refine ⟨?_, rfl, rfl, rfl, rfl, ?_⟩
  · exact
      { shaped := h.shaped.recached hflushed.shape hflushed.coherent
          (hcontent.sized 0 (hchunks ▸ hpos)).1
        length := h.length
        content := hcontent }
  · intro hb
    have hb' : b.cache.capacity ≤ b.cache.reserved := hb
    change c'.capacity ≤ c'.reserved
    rw [hflushed.shape.capacity, hflushed.reserved]
    exact hb'

omit [Field R] in
theorem post_flushCacheIfNeeded (h : HoldsChunks hP n X b) :
    Call.Post flushCacheIfNeeded b (fun _ b' => HoldsChunks hP n X b' ∧ SameFrame b b')
      (fun _ _ => False) := by
  rw [flushCacheIfNeeded, Call.post_bind_iff, Call.post_get]
  split
  · exact post_flushCache h
  · exact ⟨h, SameFrame.refl b⟩

/-!
## Entry points
-/

section

omit [Field R]

theorem ensureInitialized_eq (h : b.Shaped n) (operation : String) :
    ensureInitialized operation b = (.ok (), b) := by
  have hinit : b.numStates > 0 ∧ !b.store.chunks.isEmpty := by
    constructor
    · rw [h.numStates]
      exact Nat.two_pow_pos n
    · have hpos := h.layout.chunkCount_pos
      rw [← h.chunks] at hpos
      cases hchunks : b.store.chunks with
      | nil =>
          rw [hchunks] at hpos
          exact absurd hpos (Nat.lt_irrefl 0)
      | cons _ _ => rfl
  rw [ensureInitialized, Call.bind_ok (Call.get_apply b), ensureBackendInitialized,
    if_pos (decide_eq_true hinit), Call.pure_apply]

theorem validateStateIndex_eq (h : b.Shaped n) {state : Nat} (hs : state < 2 ^ n)
    (scopeName : String) :
    (validateStateIndex scopeName state b.numStates : Call (CompressedStateBackend P) Unit) =
      pure () := by
  rw [h.numStates, validateStateIndex_ok scopeName h.qubits hs]

/-- A mutation that leaves the vector `v'` behind, wrapped as an entry point. -/
theorem post_mutate {v' : List R} (h : Holds hP n v b) (operation : String)
    {mutateFn : Call (CompressedStateBackend P) Unit}
    (hfn : Call.Post mutateFn b (fun _ b' => Holds hP n v' b' ∧ SameFrame b b')
      (fun _ _ => False)) :
    Call.Post (mutate operation mutateFn) b (fun _ b' => Holds hP n v' b' ∧ SameFrame b b')
      (fun _ _ => False) := by
  rw [mutate, Call.post_bind_iff]
  refine Call.post_of_ok (ensureInitialized_eq h.chunks.shaped operation) ?_
  rw [Call.post_bind_iff]
  refine hfn.mono ?_
  rintro _ b1 ⟨h1, hframe⟩
  refine (post_flushCacheIfNeeded h1.chunks).mono ?_
  rintro _ b2 ⟨h2, hframe'⟩
  exact ⟨⟨h1.length, h2⟩, hframe.trans hframe'⟩

end

end Access

end CompressedStateBackend

end Tmfqs
