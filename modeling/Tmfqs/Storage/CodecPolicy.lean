import Tmfqs.Storage.ChunkCacheSpec

/-!
# Codec policies and compressed chunks

The template parameter of `CompressedStateBackend`, with the settings it takes
from the configuration, and the chunks it stores.  What a codec keeps of its
input is a property of the policy.
-/

namespace Tmfqs

open Library

/--
A codec over buffers of `R` with compressed data over `B`.  The bounds are those
`validateConfig` enforces in the constructor of either codec.
-/
structure CodecPolicy (R B : Type) where
  backendName : String
  chunkStates : Nat
  cacheSlots : Nat
  State : Type
  initial : State
  clone : State -> State
  compress : List R -> Call (List B × State) Unit
  decompress : List B -> Nat -> Call (List R × State) Unit
  chunkStates_pos : 1 ≤ chunkStates
  cacheSlots_ge_two : 2 ≤ cacheSlots

variable {R B : Type}

structure ChunkStorage (B : Type) where
  compressed : List B
  elemCount : Nat
deriving DecidableEq, Repr

def ChunkStorage.empty : ChunkStorage B :=
  { compressed := []
    elemCount := 0 }

/-- The chunks of a backend together with its codec. -/
structure ChunkVector (P : CodecPolicy R B) where
  chunks : List (ChunkStorage B)
  codec : P.State

namespace ChunkVector

variable {P : CodecPolicy R B}

def chunk (s : ChunkVector P) (chunkIndex : Nat) : ChunkStorage B :=
  s.chunks.getD chunkIndex ChunkStorage.empty

def onCompressed {α : Type} (chunkIndex : Nat) (x : Call (List B × P.State) α) :
    Call (ChunkVector P) α :=
  Call.focus (fun s => ((s.chunk chunkIndex).compressed, s.codec))
    (fun s t =>
      { chunks := s.chunks.modify chunkIndex fun chunk => { chunk with compressed := t.1 }
        codec := t.2 }) x

def onBuffer {α : Type} (x : Call (List R × P.State) α) : Call (List R × ChunkVector P) α :=
  Call.focus (fun t => (t.1, t.2.codec)) (fun t u => (u.1, { t.2 with codec := u.2 })) x

def chunkElemCount (chunkIndex : Nat) : Call (ChunkVector P) Nat := do
  let s <- get
  pure (s.chunk chunkIndex).elemCount

def loadChunk (chunkIndex elemCount : Nat) : Call (List R × ChunkVector P) Unit := do
  let (_, s) <- get
  if (s.chunk chunkIndex).elemCount ≠ elemCount then
    throw (logicError (P.backendName ++ ": chunk size mismatch while loading"))
  onBuffer (P.decompress (s.chunk chunkIndex).compressed elemCount)

def storeChunk (chunkIndex : Nat) (buffer : List R) (elemCount : Nat) :
    Call (ChunkVector P) Unit := do
  let s <- get
  if (s.chunk chunkIndex).elemCount ≠ elemCount then
    throw (logicError (P.backendName ++ ": chunk size mismatch while storing"))
  onCompressed chunkIndex (P.compress (buffer.take elemCount))

def callbacks (P : CodecPolicy R B) : ChunkCallbacks R (ChunkVector P) where
  loadChunk := loadChunk
  storeChunk := storeChunk
  elemCount := chunkElemCount

end ChunkVector

/-!
## What a codec keeps
-/

namespace CodecPolicy

/-- The compressed data decompresses to `x`, whatever the codec did before. -/
def Decodes (P : CodecPolicy R B) (compressed : List B) (x : List R) : Prop :=
  forall codec buffer,
    Call.Post (P.decompress compressed x.length) (buffer, codec)
      (fun _ t => t.1 = x) (fun _ _ => False)

/-- A codec that never fails and turns a nonempty chunk `x` into `round x`. -/
structure Rounds (P : CodecPolicy R B) (round : List R -> List R) : Prop where
  length : forall x, (round x).length = x.length
  roundTrip : forall x codec out, x ≠ [] ->
    Call.Post (P.compress x) (out, codec)
      (fun _ t => P.Decodes t.1 (round x)) (fun _ _ => False)

/-- `decompress(compress(x), |x|) = x` for every nonempty chunk `x`. -/
def Lossless (P : CodecPolicy R B) : Prop :=
  P.Rounds id

/-- A codec that keeps every element of a chunk up to `f`. -/
def elementwise (f : R -> R) (chunkStates cacheSlots : Nat) (hchunk : 1 ≤ chunkStates)
    (hslots : 2 ≤ cacheSlots) : CodecPolicy R R where
  backendName := "Elementwise"
  chunkStates := chunkStates
  cacheSlots := cacheSlots
  State := Unit
  initial := ()
  clone codec := codec
  compress x := modify fun t => (x.map f, t.2)
  decompress compressed _ := modify fun t => (compressed, t.2)
  chunkStates_pos := hchunk
  cacheSlots_ge_two := hslots

theorem rounds_elementwise (f : R -> R) {chunkStates cacheSlots : Nat} (hchunk : 1 ≤ chunkStates)
    (hslots : 2 ≤ cacheSlots) :
    (elementwise f chunkStates cacheSlots hchunk hslots).Rounds (List.map f) where
  length x := List.length_map f
  roundTrip x codec out _ := by
    change Call.Post (modify fun t => (x.map f, t.2)) (out, codec) _ _
    rw [Call.post_modify]
    intro codec' buffer
    rfl

theorem lossless_elementwise {chunkStates cacheSlots : Nat} (hchunk : 1 ≤ chunkStates)
    (hslots : 2 ≤ cacheSlots) :
    (elementwise (id : R -> R) chunkStates cacheSlots hchunk hslots).Lossless := by
  have hid : List.map (id : R -> R) = id := funext fun x => List.map_id x
  have h := rounds_elementwise (id : R -> R) hchunk hslots
  rwa [hid] at h

end CodecPolicy

/-!
## Compressed chunks as a store
-/

namespace ChunkVector

variable {P : CodecPolicy R B} {round : List R -> List R}

def Stores (s : ChunkVector P) (k : Nat) (x : List R) : Prop :=
  k < s.chunks.length ∧ (s.chunk k).elemCount = x.length ∧ P.Decodes (s.chunk k).compressed x

/-- Chunk `k` of `count` has `n` elements. -/
def HasSize (count : Nat) (s : ChunkVector P) (k n : Nat) : Prop :=
  s.chunks.length = count ∧ k < count ∧ (s.chunk k).elemCount = n ∧ 0 < n

theorem HasSize.pos {count : Nat} {s : ChunkVector P} {k n : Nat} (h : HasSize count s k n) :
    0 < n :=
  h.2.2.2

theorem chunk_modify (s : ChunkVector P) {k : Nat} (hk : k < s.chunks.length)
    (f : ChunkStorage B -> ChunkStorage B) (codec : P.State) (j : Nat) :
    ({ chunks := s.chunks.modify k f, codec := codec } : ChunkVector P).chunk j =
      if j = k then f (s.chunk k) else s.chunk j := by
  unfold chunk
  by_cases h : j = k
  · subst h
    simp [List.getD_eq_getElem?_getD, hk]
  · have hne : k ≠ j := fun heq => h heq.symm
    rw [if_neg h]
    simp [List.getD_eq_getElem?_getD, hne]

theorem post_onCompressed (hP : P.Rounds round) {s : ChunkVector P} {k : Nat} {x : List R}
    (hk : k < s.chunks.length) (hcount : (s.chunk k).elemCount = x.length) (hne : x ≠ []) :
    Call.Post (onCompressed k (P.compress x)) s
      (fun _ s' => s'.Stores k (round x) ∧ s'.chunks.length = s.chunks.length ∧
        (forall j, (s'.chunk j).elemCount = (s.chunk j).elemCount) ∧
        forall j, j ≠ k -> (s'.chunk j).compressed = (s.chunk j).compressed)
      (fun _ _ => False) := by
  rw [onCompressed, Call.post_focus_iff]
  refine (hP.roundTrip x _ _ hne).mono ?_
  rintro _ ⟨bytes, codec⟩ hdecodes
  have hchunk := s.chunk_modify hk (fun chunk => { chunk with compressed := bytes }) codec
  refine ⟨⟨?_, ?_, ?_⟩, ?_, ?_, ?_⟩
  · simpa using hk
  · rw [hchunk, if_pos rfl, hP.length]
    exact hcount
  · rw [hchunk, if_pos rfl]
    exact hdecodes
  · simp
  · intro j
    rw [hchunk]
    split
    · rename_i heq
      rw [heq]
    · rfl
  · intro j hj
    rw [hchunk, if_neg hj]

theorem storeChunk_eq {s : ChunkVector P} {k : Nat} {x : List R}
    (hcount : (s.chunk k).elemCount = x.length) :
    storeChunk k x x.length s = onCompressed k (P.compress x) s := by
  rw [storeChunk, Call.bind_ok (Call.get_apply s), if_neg (fun hne => hne hcount),
    List.take_length]

theorem post_storeChunk (hP : P.Rounds round) {s : ChunkVector P} {k : Nat} {x : List R}
    (hk : k < s.chunks.length) (hcount : (s.chunk k).elemCount = x.length) (hne : x ≠ []) :
    Call.Post (storeChunk k x x.length) s
      (fun _ s' => s'.Stores k (round x) ∧ s'.chunks.length = s.chunks.length ∧
        (forall j, (s'.chunk j).elemCount = (s.chunk j).elemCount) ∧
        forall j, j ≠ k -> (s'.chunk j).compressed = (s.chunk j).compressed)
      (fun _ _ => False) := by
  have hpost := post_onCompressed hP hk hcount hne
  unfold Call.Post at hpost ⊢
  rw [storeChunk_eq hcount]
  exact hpost

/-- Compressed chunks under a codec that never fails. -/
def chunkStore (hP : P.Rounds round) (count : Nat) :
    ChunkCache.ChunkStore (ChunkVector.callbacks P) where
  Stored := Stores
  Sized := HasSize count
  round := round
  throws := False
  pos := @HasSize.pos R B P count
  length_round := hP.length
  elemCount := by
    intro s k n h
    exact ⟨h.2.2.1, fun _ _ hj => hj, fun _ _ hj => hj⟩
  loadChunk := by
    intro s k x buffer h hstores
    change Call.Post (loadChunk k x.length) (buffer, s) _ _
    rw [loadChunk, Call.post_bind_iff, Call.post_get]
    simp only [hstores.2.1, ne_eq, not_true_eq_false, if_false]
    rw [onBuffer, Call.post_focus_iff]
    refine (hstores.2.2 s.codec buffer).imp ?_ (fun _ _ he => he.elim)
    rintro _ ⟨y, codec⟩ hy
    exact ⟨hy, fun _ _ hj => hj, fun _ _ hj => hj⟩
  storeChunk := by
    intro s k x h
    obtain ⟨hlen, hk, hcount, hpos⟩ := h
    refine (post_storeChunk hP (hlen ▸ hk) hcount (List.ne_nil_of_length_pos hpos)).imp ?_
      (fun _ _ he => he.elim)
    rintro _ s' ⟨hstores, hlen', hcounts, hothers⟩
    refine ⟨hstores, ?_, ?_⟩
    · rintro j y hj ⟨hlt, hcount, hdecodes⟩
      refine ⟨hlen'.symm ▸ hlt, (hcounts j).trans hcount, ?_⟩
      rw [hothers j hj]
      exact hdecodes
    · rintro j l ⟨hlen, hlt, hcount, hpos⟩
      exact ⟨hlen'.trans hlen, hlt, (hcounts j).trans hcount, hpos⟩

end ChunkVector

end Tmfqs
