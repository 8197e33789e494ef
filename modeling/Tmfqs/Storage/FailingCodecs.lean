import Tmfqs.Storage.CodecPolicy

/-!
# Codecs that may fail

A codec that keeps what it is given whenever it does not throw.  What a failed
compression leaves of the compressed data is not known.
-/

namespace Tmfqs

open Library

variable {R B : Type}

namespace CodecPolicy

/-- The compressed data decompresses to `x` unless the codec throws. -/
def DecodesOrThrows (P : CodecPolicy R B) (compressed : List B) (x : List R) : Prop :=
  forall codec buffer,
    Call.Post (P.decompress compressed x.length) (buffer, codec)
      (fun _ t => t.1 = x) (fun _ _ => True)

def LosslessOrThrows (P : CodecPolicy R B) : Prop :=
  forall x codec out, x ≠ [] ->
    Call.Post (P.compress x) (out, codec) (fun _ t => P.DecodesOrThrows t.1 x) (fun _ _ => True)

end CodecPolicy

namespace ChunkVector

variable {P : CodecPolicy R B}

/-- Chunk `k` decompresses to `x` unless the codec throws. -/
def StoresOrThrows (s : ChunkVector P) (k : Nat) (x : List R) : Prop :=
  k < s.chunks.length ∧ (s.chunk k).elemCount = x.length ∧
    P.DecodesOrThrows (s.chunk k).compressed x

theorem post_onCompressed_orThrows (hP : P.LosslessOrThrows) {s : ChunkVector P} {k : Nat}
    {x : List R} (hk : k < s.chunks.length) (hcount : (s.chunk k).elemCount = x.length)
    (hne : x ≠ []) :
    Call.Post (onCompressed k (P.compress x)) s
      (fun _ s' => s'.StoresOrThrows k x ∧ s'.chunks.length = s.chunks.length ∧
        (forall j, (s'.chunk j).elemCount = (s.chunk j).elemCount) ∧
        forall j, j ≠ k -> (s'.chunk j).compressed = (s.chunk j).compressed)
      (fun _ s' => s'.chunks.length = s.chunks.length ∧
        (forall j, (s'.chunk j).elemCount = (s.chunk j).elemCount) ∧
        forall j, j ≠ k -> (s'.chunk j).compressed = (s.chunk j).compressed) := by
  have hframe : forall (bytes : List B) (codec : P.State),
      let s' : ChunkVector P :=
        { chunks := s.chunks.modify k fun chunk => { chunk with compressed := bytes }
          codec := codec }
      s'.chunks.length = s.chunks.length ∧
        (forall j, (s'.chunk j).elemCount = (s.chunk j).elemCount) ∧
        forall j, j ≠ k -> (s'.chunk j).compressed = (s.chunk j).compressed := by
    intro bytes codec
    have hchunk := s.chunk_modify hk (fun chunk => { chunk with compressed := bytes }) codec
    refine ⟨by simp, ?_, ?_⟩
    · intro j
      rw [hchunk]
      split
      · rename_i heq
        rw [heq]
      · rfl
    · intro j hj
      rw [hchunk, if_neg hj]
  rw [onCompressed, Call.post_focus_iff]
  refine (hP x _ _ hne).imp ?_ (fun _ t _ => hframe t.1 t.2)
  rintro _ ⟨bytes, codec⟩ hdecodes
  have hchunk := s.chunk_modify hk (fun chunk => { chunk with compressed := bytes }) codec
  refine ⟨⟨?_, ?_, ?_⟩, hframe bytes codec⟩
  · simpa using hk
  · rw [hchunk, if_pos rfl]
    exact hcount
  · rw [hchunk, if_pos rfl]
    exact hdecodes

/-- Compressed chunks under a codec that may fail. -/
def failingStore (hP : P.LosslessOrThrows) (count : Nat) :
    ChunkCache.ChunkStore (ChunkVector.callbacks P) where
  Stored := StoresOrThrows
  Sized := HasSize count
  round := id
  throws := True
  pos := @HasSize.pos R B P count
  length_round _ := rfl
  elemCount := by
    intro s k n h
    exact ⟨h.2.2.1, fun _ _ hj => hj, fun _ _ hj => hj⟩
  loadChunk := by
    intro s k x buffer h hstores
    change Call.Post (loadChunk k x.length) (buffer, s) _ _
    rw [loadChunk, Call.post_bind_iff, Call.post_get]
    simp only [hstores.2.1, ne_eq, not_true_eq_false, if_false]
    rw [onBuffer, Call.post_focus_iff]
    refine (hstores.2.2 s.codec buffer).imp ?_ ?_
    · rintro _ ⟨y, codec⟩ hy
      exact ⟨hy, fun _ _ hj => hj, fun _ _ hj => hj⟩
    · rintro e ⟨y, codec⟩ _
      exact ⟨trivial, fun _ _ hj => hj, fun _ _ hj => hj⟩
  storeChunk := by
    intro s k x h
    obtain ⟨hlen, hk, hcount, hpos⟩ := h
    have hkeeps : forall s' : ChunkVector P, s'.chunks.length = s.chunks.length ->
        (forall j, (s'.chunk j).elemCount = (s.chunk j).elemCount) ->
        (forall j, j ≠ k -> (s'.chunk j).compressed = (s.chunk j).compressed) ->
        (forall j y, j ≠ k -> StoresOrThrows s j y -> StoresOrThrows s' j y) ∧
          forall j l, HasSize count s j l -> HasSize count s' j l := by
      intro s' hlen' hcounts hothers
      constructor
      · rintro j y hj ⟨hlt, hsize, hdecodes⟩
        refine ⟨hlen'.symm ▸ hlt, (hcounts j).trans hsize, ?_⟩
        rw [hothers j hj]
        exact hdecodes
      · rintro j l ⟨hlen, hlt, hsize, hpos⟩
        exact ⟨hlen'.trans hlen, hlt, (hcounts j).trans hsize, hpos⟩
    have hpost := post_onCompressed_orThrows hP (hlen ▸ hk) hcount (List.ne_nil_of_length_pos hpos)
    change Call.Post (storeChunk k x x.length) s _ _
    unfold Call.Post at hpost ⊢
    rw [storeChunk_eq hcount]
    rcases hrun : onCompressed k (P.compress x) s with ⟨result, s'⟩
    rw [hrun] at hpost
    cases result with
    | ok a => exact ⟨hpost.1, hkeeps s' hpost.2.1 hpost.2.2.1 hpost.2.2.2⟩
    | error e => exact ⟨trivial, hkeeps s' hpost.1 hpost.2.1 hpost.2.2⟩

end ChunkVector

/-!
## A codec that fails on demand
-/

namespace CodecPolicy

/-- The next call of the codec throws when the script says so. -/
def attempt {τ : Type} : Call (τ × List Bool) Unit :=
  fun t =>
    match t.2 with
    | true :: rest => (.error (runtimeError "ScriptedCodec: failed"), (t.1, rest))
    | _ => (.ok (), (t.1, t.2.tail))

/-- Keeps the chunks as they are, and fails as its state is scripted. -/
def scripted (R : Type) (script : List Bool) (chunkStates cacheSlots : Nat)
    (hchunk : 1 ≤ chunkStates) (hslots : 2 ≤ cacheSlots) : CodecPolicy R R where
  backendName := "Scripted"
  chunkStates := chunkStates
  cacheSlots := cacheSlots
  State := List Bool
  initial := script
  clone codec := codec
  compress x := do
    attempt
    modify fun t => (x, t.2)
  decompress compressed _ := do
    attempt
    modify fun t => (compressed, t.2)
  chunkStates_pos := hchunk
  cacheSlots_ge_two := hslots

theorem post_attempt {τ : Type} (t : τ × List Bool) :
    Call.Post attempt t (fun _ t' => t'.1 = t.1) (fun _ _ => True) := by
  unfold Call.Post attempt
  split
  · rename_i heq
    split at heq
    · cases heq
    · cases heq
      rfl
  · trivial

theorem post_attempt_set (x out : List R) (codec : List Bool) :
    Call.Post (attempt >>= fun _ => modify fun t => (x, t.2)) (out, codec)
      (fun _ t => t.1 = x) (fun _ _ => True) := by
  rw [Call.post_bind_iff]
  refine (post_attempt (out, codec)).imp ?_ (fun _ _ _ => trivial)
  intro _ t _
  rw [Call.post_modify]

theorem losslessOrThrows_scripted (script : List Bool) {chunkStates cacheSlots : Nat}
    (hchunk : 1 ≤ chunkStates) (hslots : 2 ≤ cacheSlots) :
    (scripted R script chunkStates cacheSlots hchunk hslots).LosslessOrThrows := by
  intro x codec out _
  refine Call.Post.imp (post_attempt_set x out codec) ?_ (fun _ _ _ => trivial)
  rintro _ ⟨bytes, codec'⟩ hbytes codec'' buffer
  rw [show bytes = x from hbytes]
  exact post_attempt_set x buffer codec''

end CodecPolicy

end Tmfqs
