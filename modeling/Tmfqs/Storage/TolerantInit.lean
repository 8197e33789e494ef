import Tmfqs.Storage.CompressedInit
import Tmfqs.Storage.Tolerance

/-!
# Initialising within a tolerance

Every initialising call stores each chunk once.  When no chunk throws, the backend reads as
the chunks that storing and loading them gives.
-/

namespace Tmfqs

open Library ChunkCache

namespace CompressedStateBackend

variable {R B : Type} [Field R] {P : CodecPolicy R B} {T : Tolerance P} {n : Nat}
  {Y : Nat -> List R} {v : List R} {b : CompressedStateBackend P}

/-- A laid out backend whose first `done` chunks are stored as `Y`, with nothing cached. -/
structure Loading (T : Tolerance P) (n : Nat) (Y : Nat -> List R) (done : Nat)
    (b : CompressedStateBackend P) : Prop where
  framed : b.Framed n
  coherent : b.cache.Coherent none
  depth : b.batchDepth = 0
  uncached : forall k, b.cache.entry k = none
  sizes : forall k, k < b.layout.chunkCount ->
    (b.store.chunk k).elemCount = 2 * b.layout.statesIn k
  stored : forall k, k < done -> (T.store b.layout.chunkCount).Stored b.store k (Y k)

section

omit [Field R]

theorem Filling.loading {Z : Nat -> List R} (h : Filling n Z 0 b) : Loading T n Y 0 b where
  framed :=
    { qubits := h.shaped.qubits
      numQubits := h.shaped.numQubits
      numStates := h.shaped.numStates
      layout := h.shaped.layout
      chunks := h.shaped.chunks
      cacheChunks := h.shaped.cacheChunks
      capacity := h.shaped.capacity
      roomy := h.roomy }
  coherent := h.shaped.coherent
  depth := h.depth
  uncached := h.uncached
  sizes := h.sizes
  stored k hk := absurd hk (Nat.not_lt_zero k)

theorem Loading.store {done : Nat} (h : Loading T n Y done b) (hdone : done < b.layout.chunkCount)
    {x : List R} (hlen : x.length = 2 * b.layout.statesIn done)
    (hx : Y done = (T.store b.layout.chunkCount).round x) :
    Call.Post (onStore (ChunkVector.onCompressed done (P.compress x))) b
      (fun _ b' => Loading T n Y (done + 1) b' ∧ b'.layout = b.layout ∧ b'.cache = b.cache)
      (fun _ _ => True) := by
  have hsizes : forall k, k < b.layout.chunkCount ->
      (T.store b.layout.chunkCount).Sized b.store k (2 * b.layout.statesIn k) := by
    intro k hk
    have hpos := h.framed.layout.statesIn_pos hk
    rw [T.sized]
    exact ⟨h.framed.chunks, hk, h.sizes k hk, by omega⟩
  have hcount : (b.store.chunk done).elemCount = x.length := (h.sizes done hdone).trans hlen.symm
  have hstore := (T.store b.layout.chunkCount).storeChunk (hlen ▸ hsizes done hdone)
  change Call.Post (ChunkVector.storeChunk done x x.length) b.store _ _ at hstore
  rw [onStore, Call.post_focus_iff]
  unfold Call.Post at hstore ⊢
  rw [ChunkVector.storeChunk_eq hcount] at hstore
  change Call.Post _ _ _ _ at hstore
  change Call.Post _ _ _ _
  refine hstore.imp ?_ (fun _ _ _ => trivial)
  rintro _ s' ⟨hdoneStored, hothers, hkeep⟩
  have hafter : forall k, k < b.layout.chunkCount ->
      ChunkVector.HasSize b.layout.chunkCount s' k (2 * b.layout.statesIn k) := by
    intro k hk
    have hsized := hkeep k _ (hsizes k hk)
    rw [T.sized] at hsized
    exact hsized
  refine ⟨?_, rfl, rfl⟩
  exact
    { framed := h.framed.recached ⟨rfl, rfl⟩ h.framed.roomy (hafter done hdone).1
      coherent := h.coherent
      depth := h.depth
      uncached := h.uncached
      sizes := fun k hk => (hafter k hk).2.2.1
      stored := by
        intro k hk
        by_cases hkd : k = done
        · rw [hkd, hx]
          exact hdoneStored
        · exact hothers k _ hkd (h.stored k (by omega)) }

/-- When all chunks are stored the backend reads as the vector they make up. -/
theorem Loading.reads (h : Loading T n Y b.layout.chunkCount b)
    (hlen : forall k, (Y k).length = 2 * b.layout.statesIn k) :
    exists x, ReadsAs T n x b ∧ chunkOf P.chunkStates x = Y := by
  rcases exists_chunkOf_eq h.framed.layout hlen with ⟨x, hx, hchunks⟩
  refine ⟨x, ⟨hx, Y, ?_⟩, hchunks⟩
  rw [hchunks]
  exact
    { framed := h.framed
      length := hlen
      content :=
        { sized := by
            intro k hk
            have hk' : k < b.layout.chunkCount := h.framed.cacheChunks ▸ hk
            have hpos := h.framed.layout.statesIn_pos hk'
            rw [T.sized, hlen]
            exact ⟨h.framed.chunks, hk', h.sizes k hk', by omega⟩
          length := fun _ => rfl
          cached := by
            intro k buffer dirty hk
            rw [h.uncached] at hk
            cases hk
          stored := by
            intro k hk _
            exact ⟨rfl, h.stored k (h.framed.cacheChunks ▸ hk)⟩ }
      settled := fun k _ _ => T.refl (Y k) }

theorem Loading.storeChunk {done : Nat} (h : Loading T n Y done b)
    (hdone : done < b.layout.chunkCount) {x : List R}
    (hlen : x.length = 2 * b.layout.statesIn done)
    (hx : Y done = (T.store b.layout.chunkCount).round x) {elemCount : Nat}
    (helem : elemCount = 2 * b.layout.statesIn done) :
    Call.Post (onStore (ChunkVector.storeChunk done x elemCount)) b
      (fun _ b' => Loading T n Y (done + 1) b' ∧ b'.layout = b.layout ∧ b'.cache = b.cache)
      (fun _ _ => True) := by
  have hstore := h.store hdone hlen hx
  rw [onStore, Call.post_focus_iff] at hstore ⊢
  unfold Call.Post at hstore ⊢
  rw [helem, ← hlen, ChunkVector.storeChunk_eq ((h.sizes done hdone).trans hlen.symm)]
  exact hstore

end

/-- Every chunk of the vector is stored, and none is cached. -/
def Initialised (T : Tolerance P) (n : Nat) (v : List R) (b : CompressedStateBackend P) : Prop :=
  Loading T n (fun k => (T.store b.layout.chunkCount).round (chunkOf P.chunkStates v k))
    b.layout.chunkCount b

omit [Field R] in
theorem Initialised.reads (h : Initialised T n v b) (hv : v.length = 2 * 2 ^ n) :
    exists x, ReadsAs T n x b ∧ forall k, chunkOf P.chunkStates x k =
      (T.store b.layout.chunkCount).round (chunkOf P.chunkStates v k) := by
  rcases Loading.reads h fun k => by
      rw [(T.store b.layout.chunkCount).length_round, length_chunkOf_eq h.framed.layout hv]
    with ⟨x, hx, hchunks⟩
  exact ⟨x, hx, congrFun hchunks⟩

theorem post_initZero_initialised (T : Tolerance P) (b : CompressedStateBackend P) (hn : n ≤ 31)
    (hfits : ChunkLayout.Fits (2 ^ n) P.chunkStates) :
    Call.Post (initZero n) b (fun _ b' => Initialised T n (StateVector.zero n) b')
      (fun _ _ => True) := by
  rw [initZero, Call.post_bind_iff]
  refine (post_configureStorage b hn hfits fun _ => []).imp ?_ (fun _ _ _ => trivial)
  intro _ b1 h1
  rw [Call.post_bind_iff, Call.post_get, storeAll, Call.post_bind_iff, Call.post_get]
  have hlayout := h1.shaped.layout
  have hlen := length_chunkOf_eq hlayout (StateVector.length_zero (R := R) n)
  obtain ⟨Y, hY⟩ : exists Y : Nat -> List R, Y = fun k =>
      (T.store b1.layout.chunkCount).round (chunkOf P.chunkStates (StateVector.zero n) k) :=
    ⟨_, rfl⟩
  have hstart : Loading T n Y 0 b1 := h1.loading
  refine (Call.post_forM_range
    (fun done b' => Loading T n Y done b' ∧ b'.layout = b1.layout) ?_ ⟨hstart, rfl⟩).mono ?_
  · rintro k b2 hk ⟨h2, hlayout2⟩
    rw [h1.shaped.chunks] at hk
    have hzero : List.replicate (b1.store.chunk k).elemCount (0 : R) =
        chunkOf P.chunkStates (StateVector.zero n) k := by
      rw [StateVector.zero, chunkOf_replicate hlayout, h1.sizes k hk]
    rw [hzero]
    refine (h2.storeChunk (hlayout2 ▸ hk) ?_ ?_ ?_).mono ?_
    · rw [hlayout2]
      exact hlen k
    · rw [hlayout2, hY]
    · rw [hlayout2]
      exact h1.sizes k hk
    · rintro _ b3 ⟨h3, hlayout3, _⟩
      exact ⟨h3, hlayout3.trans hlayout2⟩
  · rintro _ b2 ⟨h2, hlayout2⟩
    rw [Initialised, hlayout2, ← hY, ← h1.shaped.chunks]
    exact h2

section Superposition

variable [LinearOrder R] [CMath R] {states : List Nat}

omit [LinearOrder R] in
theorem post_initUniformSuperposition_initialised (T : Tolerance P)
    (b : CompressedStateBackend P) (hn : n ≤ 31)
    (hfits : ChunkLayout.Fits (2 ^ n) P.chunkStates) (hne : states ≠ [])
    (hlt : forall t, t ∈ states -> t < 2 ^ n) :
    Call.Post (initUniformSuperposition n states) b
      (fun _ b' => Initialised T n (StateVector.uniform n states) b') (fun _ _ => True) := by
  have hselected : (selectedStates states).isEmpty = false := by
    simpa using selectedStates_ne_nil hne
  rw [initUniformSuperposition, Call.post_bind_iff]
  refine (post_configureStorage b hn hfits fun _ => []).imp ?_ (fun _ _ _ => trivial)
  intro _ b1 h1
  have hlayout := h1.shaped.layout
  have hlen := length_chunkOf_eq hlayout (StateVector.length_uniform (R := R) n states)
  have hvalid : (states.forM fun state => (validateStateIndex
      "CompressedStateBackend::initUniformSuperposition" state b1.numStates :
        Call (CompressedStateBackend P) Unit)) = pure ⟨⟩ :=
    Call.forM_eq_pure fun s hs => validateStateIndex_eq h1.shaped (hlt s hs) _
  rw [Call.post_bind_iff, Call.post_get, hvalid, pure_bind]
  simp only [hselected]
  change Call.Post (Call.withLocal _ _) _ _ _
  rw [Call.post_withLocal_iff, h1.shaped.chunks]
  obtain ⟨Y, hY⟩ : exists Y : Nat -> List R, Y = fun k => (T.store b1.layout.chunkCount).round
      (chunkOf P.chunkStates (StateVector.uniform n states) k) := ⟨_, rfl⟩
  have hstart : Loading T n Y 0 b1 := h1.loading
  refine (Call.post_forM_range
    (fun done t => Loading T n Y done t.1 ∧ t.1.layout = b1.layout ∧
      t.2 = (selectedStates states).filter fun s => done * P.chunkStates ≤ s)
    ?_ ⟨hstart, rfl, ?_⟩).mono ?_
  · rintro k ⟨b2, pending⟩ hk ⟨h2, hlayout2, hpending⟩
    simp only at h2 hlayout2 hpending
    subst hpending
    rw [h1.sizes k hk, hlayout.chunkStateBegin_eq hk]
    simp only [pure_bind]
    rw [Call.post_bind_iff, Call.post_get]
    simp only [Nat.mul_div_cancel_left _ (show 0 < 2 by decide), fillSelected_chunk hlayout hlt hk]
    rw [Call.post_bind_iff, Call.post_modify, Call.post_onObject_iff]
    refine (h2.storeChunk (hlayout2.symm ▸ hk) ?_ ?_ ?_).mono ?_
    · rw [hlayout2]
      exact hlen k
    · rw [hlayout2, hY]
    · rw [hlayout2]
    · rintro _ b3 ⟨h3, hlayout3, _⟩
      exact ⟨h3, hlayout3.trans hlayout2, rfl⟩
  · rw [Nat.zero_mul]
    symm
    rw [List.filter_eq_self]
    simp
  · rintro _ ⟨b2, pending⟩ ⟨h2, hlayout2, _⟩
    simp only at h2 hlayout2
    rw [Initialised, hlayout2, ← hY]
    exact h2

end Superposition

/-- What loading amplitudes leaves when it returns. -/
structure Loaded (T : Tolerance P) (n : Nat) (v x : List R) (b : CompressedStateBackend P) :
    Prop where
  coherent : b.cache.Coherent none
  depth : b.batchDepth = 0
  counter : b.cache.touchCounter = 0
  reads : ReadsAs T n x b
  rounded : forall k, chunkOf P.chunkStates x k =
    (T.store b.layout.chunkCount).round (chunkOf P.chunkStates v k)

omit [Field R] in
theorem post_loadAmplitudes_loaded (T : Tolerance P) (b : CompressedStateBackend P) (hn : n ≤ 31)
    (hfits : ChunkLayout.Fits (2 ^ n) P.chunkStates) (hv : v.length = 2 * 2 ^ n) :
    Call.Post (loadAmplitudes n v) b (fun _ b' => exists x, Loaded T n v x b')
      (fun _ _ => True) := by
  rw [loadAmplitudes, Call.post_bind_iff]
  refine (post_configureStorage b hn hfits fun _ => []).imp ?_ (fun _ _ he => he.elim)
  intro _ b1 h1
  rw [checkedAmplitudeElementCount_eq (show n ≤ 62 by omega), pure_bind,
    if_neg (not_not.mpr hv)]
  change Call.Post (modifyCache ChunkCache.clear >>= _) _ _ _
  rw [Call.post_bind_iff, modifyCache, Call.post_modify, Call.post_bind_iff, Call.post_get]
  have hlayout := h1.shaped.layout
  obtain ⟨Y, hY⟩ : exists Y : Nat -> List R, Y = fun k =>
      (T.store b1.layout.chunkCount).round (chunkOf P.chunkStates v k) := ⟨_, rfl⟩
  have hstart : Loading T n Y 0 { b1 with cache := b1.cache.clear } := h1.clear.loading
  refine (Call.post_forM_range (fun done b' => Loading T n Y done b' ∧ b'.layout = b1.layout ∧
    b'.cache = b1.cache.clear) ?_ ⟨hstart, rfl, rfl⟩).mono ?_
  · rintro k b2 hk ⟨h2, hlayout2, hcache2⟩
    have hk2 : k < b2.layout.chunkCount := by
      rw [hlayout2, ← h1.shaped.chunks]
      exact hk
    have hslice : (v.drop (k * b1.layout.elemsPerChunk)).take (b1.store.chunk k).elemCount =
        chunkOf P.chunkStates v k := by
      have hmul : k * (2 * P.chunkStates) = 2 * (k * P.chunkStates) := Nat.mul_left_comm k 2 _
      rw [h1.sizes k (hlayout2 ▸ hk2), hlayout.elemsPerChunk_eq, hlayout.statesIn_eq, chunkOf,
        ← List.take_eq_take_iff.mpr]
      rw [List.length_drop, hv, hmul]
      omega
    rw [hslice]
    refine (h2.store hk2 ?_ ?_).imp ?_ (fun _ _ he => he)
    · rw [hlayout2]
      exact length_chunkOf_eq hlayout hv k
    · rw [hlayout2, hY]
    · rintro _ b3 ⟨h3, hlayout3, hcache3⟩
      exact ⟨h3, hlayout3.trans hlayout2, hcache3.trans hcache2⟩
  · rintro _ b2 ⟨h2, hlayout2, hcache2⟩
    have hcounter : b2.cache.touchCounter = 0 := by
      rw [hcache2]
      rfl
    have hinitialised : Initialised T n v b2 := by
      rw [Initialised, hlayout2, ← hY, ← h1.shaped.chunks]
      exact h2
    rcases hinitialised.reads hv with ⟨x, hx, hrounded⟩
    exact ⟨x, h2.coherent, h2.depth, hcounter, hx, hrounded⟩

end CompressedStateBackend

end Tmfqs
