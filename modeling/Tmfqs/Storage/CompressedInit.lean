import Tmfqs.Storage.CompressedHolds

/-!
# Initialising a compressed backend

Every initialising call lays out empty chunks and then stores one chunk after the
other.  What is stored is described for any codec that keeps chunk lengths.
-/

namespace Tmfqs

open Library ChunkCache

namespace CompressedStateBackend

variable {R B : Type} [Field R] {P : CodecPolicy R B} {round : List R -> List R} {n : Nat}
  {Y : Nat -> List R} {b : CompressedStateBackend P}

/-- A laid out backend whose first `done` chunks load as `Y`, with nothing cached. -/
structure Filling (n : Nat) (Y : Nat -> List R) (done : Nat) (b : CompressedStateBackend P) :
    Prop where
  shaped : b.Shaped n
  roomy : b.Roomy
  depth : b.batchDepth = 0
  uncached : forall k, b.cache.entry k = none
  sizes : forall k, k < b.layout.chunkCount ->
    (b.store.chunk k).elemCount = 2 * b.layout.statesIn k
  stores : forall k, k < done -> b.store.Stores k (Y k)

omit [Field R] in
theorem Filling.clear {done : Nat} (h : Filling n Y done b) :
    Filling n Y done { b with cache := b.cache.clear } where
  shaped := h.shaped.recached ⟨rfl, List.length_replicate⟩ h.shaped.coherent.clear h.shaped.chunks
  roomy := h.roomy
  depth := h.depth
  uncached := by
    intro k
    change Option.map _ ((List.replicate b.cache.chunkToSlot.length none).getD k none) = none
    rw [Coherent.getD_replicate_none]
    rfl
  sizes := h.sizes
  stores := h.stores

/-!
## Laying out the chunks
-/

section

omit [Field R]

theorem configureStorage_bind (b : CompressedStateBackend P) (hn : n ≤ 63) :
    configureStorage n b =
      (do
        let b <- get
        let elemCounts <- (List.range b.layout.chunkCount).mapM b.layout.chunkElemCount
        modify fun b =>
          { b with
            store := { b.store with
              chunks := elemCounts.map fun elemCount =>
                { compressed := []
                  elemCount := elemCount } } }
        let b <- get
        Call.focus cache (fun b c => { b with cache := c })
          (ChunkCache.configure b.effectiveCacheSlots b.store.chunks.length)
        modify fun b => { b with batchDepth := 0 } : Call (CompressedStateBackend P) Unit)
        { b with
          numQubits := n
          numStates := u32 (2 ^ n)
          layout := ChunkLayout.ofSizes (u32 (2 ^ n)) P.chunkStates } := by
  rw [configureStorage, Call.bind_apply, Call.modify_apply]
  simp only [checkedStateCount_eq (σ := CompressedStateBackend P) hn, pure_bind,
    ChunkLayout.make_eq (σ := CompressedStateBackend P) P.chunkStates_pos]
  rfl

/-- While the layout does not wrap, the chunks are laid out with an empty cache. -/
theorem post_configureStorage (b : CompressedStateBackend P) (hn : n ≤ 31)
    (hfits : ChunkLayout.Fits (2 ^ n) P.chunkStates) (Y : Nat -> List R) :
    Call.Post (configureStorage n) b (fun _ b' => Filling n Y 0 b') (fun _ _ => False) := by
  have hlayout := ChunkLayout.exact_ofSizes (Nat.two_pow_pos n) P.chunkStates_pos hfits
  obtain ⟨layout, hdef⟩ : exists layout, layout = ChunkLayout.ofSizes (2 ^ n) P.chunkStates :=
    ⟨_, rfl⟩
  rw [← hdef] at hlayout
  have hcounts : ((List.range layout.chunkCount).mapM layout.chunkElemCount :
      Call (CompressedStateBackend P) (List Nat)) =
      pure ((List.range layout.chunkCount).map fun k => 2 * layout.statesIn k) :=
    Call.mapM_eq_pure fun k hk => hlayout.chunkElemCount_eq (List.mem_range.mp hk)
  unfold Call.Post
  rw [configureStorage_bind b (by omega), u32_of_lt (two_pow_lt_u32 hn), ← hdef]
  change Call.Post _ _ _ _
  rw [Call.post_bind_iff, Call.post_get]
  simp only [hcounts, pure_bind]
  rw [Call.post_bind_iff, Call.post_modify, Call.post_bind_iff, Call.post_get,
    Call.post_bind_iff, Call.post_focus_iff]
  have hlen : (List.map (fun elemCount => ({ compressed := [], elemCount := elemCount } :
      ChunkStorage B)) ((List.range layout.chunkCount).map fun k => 2 * layout.statesIn k)).length =
      layout.chunkCount := by
    simp
  have hslots := P.cacheSlots_ge_two
  have hpos := hlayout.chunkCount_pos
  simp only [effectiveCacheSlots, hlen]
  obtain ⟨c', hrun, hcoherent, hcapacity, hchunks, hreserved, hentry, _⟩ :=
    Coherent.of_configure (min P.cacheSlots layout.chunkCount) layout.chunkCount b.cache
      (by omega)
  refine Call.post_of_ok hrun ?_
  rw [Call.post_modify]
  exact
    { shaped :=
        { qubits := hn
          numQubits := rfl
          numStates := rfl
          layout := hlayout
          chunks := hlen
          cacheChunks := hchunks
          capacity := hcapacity
          coherent := hcoherent }
      roomy := by
        change c'.capacity ≤ c'.reserved
        rw [hcapacity]
        exact hreserved
      depth := rfl
      uncached := hentry
      sizes := by
        intro k hk
        change k < layout.chunkCount at hk
        change (ChunkVector.chunk _ k).elemCount = 2 * layout.statesIn k
        simp [ChunkVector.chunk, List.getD_eq_getElem?_getD, hk]
      stores := by
        intro k hk
        exact absurd hk (Nat.not_lt_zero k) }

theorem post_configureStorage_no_chunks (b : CompressedStateBackend P) (hn : n ≤ 63)
    (hcount : (ChunkLayout.ofSizes (u32 (2 ^ n)) P.chunkStates).chunkCount = 0) :
    Call.Post (configureStorage n) b (fun _ _ => False)
      (fun e b' => e.kind = .invalidArgument ∧ b'.store.chunks = [] ∧ b'.cache = b.cache ∧
        b'.batchDepth = b.batchDepth) := by
  unfold Call.Post
  rw [configureStorage_bind b hn]
  change Call.Post _ _ _ _
  rw [Call.post_bind_iff, Call.post_get]
  simp only [hcount, List.range_zero, List.mapM_nil, pure_bind]
  rw [Call.post_bind_iff, Call.post_modify, Call.post_bind_iff, Call.post_get,
    Call.post_bind_iff, Call.post_focus_iff]
  have hcapacity : min P.cacheSlots 0 = 0 := Nat.min_zero _
  simp only [effectiveCacheSlots, List.map_nil, List.length_nil, hcapacity, configure, if_true]
  exact ⟨rfl, trivial, rfl, trivial⟩

theorem configureStorage_of_no_chunks (b : CompressedStateBackend P) (hn : n ≤ 63)
    (hcount : (ChunkLayout.ofSizes (u32 (2 ^ n)) P.chunkStates).chunkCount = 0) :
    Call.Post (configureStorage n) b (fun _ _ => False)
      (fun e _ => e.kind = .invalidArgument) :=
  (post_configureStorage_no_chunks b hn hcount).imp (fun _ _ h => h) (fun _ _ he => he.1)

theorem configureStorage_of_not_fits (b : CompressedStateBackend P) (hn : n ≤ 31)
    (hchunk : 2 * P.chunkStates < 2 ^ 64)
    (hfits : ¬ ChunkLayout.Fits (2 ^ n) P.chunkStates) :
    Call.Post (configureStorage n) b (fun _ _ => False)
      (fun e _ => e.kind = .invalidArgument) := by
  have hlt := two_pow_lt_u32 hn
  apply configureStorage_of_no_chunks b (by omega)
  rw [u32_of_lt hlt]
  exact ChunkLayout.chunkCount_of_not_fits (Nat.two_pow_pos n) (by omega) hchunk hfits

/-- From 32 qubits on the state count is narrowed to zero, and there are no chunks. -/
theorem configureStorage_large (b : CompressedStateBackend P) (hlarge : 32 ≤ n) (hn : n ≤ 63) :
    Call.Post (configureStorage n) b (fun _ _ => False)
      (fun e _ => e.kind = .invalidArgument) := by
  have hzero : u32 (2 ^ n) = 0 := Nat.mod_eq_zero_of_dvd (Nat.pow_dvd_pow 2 hlarge)
  apply configureStorage_of_no_chunks b hn
  rw [hzero]
  rfl

end

/-!
## Storing the chunks
-/

section Storing

variable (hR : P.Rounds round)
include hR

section

omit [Field R]

theorem Filling.store {done : Nat} (h : Filling n (fun k => round (Y k)) done b)
    (hdone : done < b.layout.chunkCount) (hlen : (Y done).length = 2 * b.layout.statesIn done) :
    Call.Post (onStore (ChunkVector.onCompressed done (P.compress (Y done)))) b
      (fun _ b' => Filling n (fun k => round (Y k)) (done + 1) b' ∧ b'.layout = b.layout)
      (fun _ _ => False) := by
  have hpos := h.shaped.layout.statesIn_pos hdone
  have hne : Y done ≠ [] := by
    apply List.ne_nil_of_length_pos
    omega
  have hlt : done < b.store.chunks.length := h.shaped.chunks ▸ hdone
  rw [onStore, Call.post_focus_iff]
  refine (ChunkVector.post_onCompressed hR hlt ((h.sizes done hdone).trans hlen.symm) hne).mono ?_
  rintro _ s' ⟨hstores, hlength, hcounts, hothers⟩
  refine ⟨?_, rfl⟩
  exact
    { shaped := h.shaped.recached ⟨rfl, rfl⟩ h.shaped.coherent (hlength.trans h.shaped.chunks)
      roomy := h.roomy
      depth := h.depth
      uncached := h.uncached
      sizes := fun k hk => (hcounts k).trans (h.sizes k hk)
      stores := by
        intro k hk
        by_cases hkd : k = done
        · subst hkd
          exact hstores
        · obtain ⟨hltk, hcount, hdecodes⟩ := h.stores k (by omega)
          refine ⟨hlength.symm ▸ hltk, (hcounts k).trans hcount, ?_⟩
          rw [hothers k hkd]
          exact hdecodes }

theorem Filling.storeChunk {done : Nat} (h : Filling n (fun k => round (Y k)) done b)
    (hdone : done < b.layout.chunkCount) (hlen : (Y done).length = 2 * b.layout.statesIn done)
    {elemCount : Nat} (helem : elemCount = 2 * b.layout.statesIn done) :
    Call.Post (onStore (ChunkVector.storeChunk done (Y done) elemCount)) b
      (fun _ b' => Filling n (fun k => round (Y k)) (done + 1) b' ∧ b'.layout = b.layout)
      (fun _ _ => False) := by
  have hstore := h.store hR hdone hlen
  rw [onStore, Call.post_focus_iff] at hstore ⊢
  unfold Call.Post at hstore ⊢
  rw [helem, ← hlen, ChunkVector.storeChunk_eq ((h.sizes done hdone).trans hlen.symm)]
  exact hstore

theorem Filling.content (h : Filling n (fun k => round (Y k)) b.layout.chunkCount b)
    (hlen : forall k, (Y k).length = 2 * b.layout.statesIn k) :
    Content (ChunkVector.chunkStore hR b.layout.chunkCount) b.cache b.store
      (fun k => round (Y k)) (fun k => round (Y k)) where
  sized := by
    intro k hk
    have hk' : k < b.layout.chunkCount := h.shaped.cacheChunks ▸ hk
    have hlenk : (round (Y k)).length = 2 * b.layout.statesIn k := (hR.length _).trans (hlen k)
    refine ⟨h.shaped.chunks, hk', ?_, ?_⟩
    · rw [hlenk]
      exact h.sizes k hk'
    · have hpos := h.shaped.layout.statesIn_pos hk'
      omega
  length := fun _ => rfl
  cached := by
    intro k buffer dirty hk
    rw [h.uncached] at hk
    cases hk
  stored := by
    intro k hk _
    exact ⟨rfl, h.stores k (h.shaped.cacheChunks ▸ hk)⟩

theorem post_storeAll (h : Filling n (fun k => round (Y k)) 0 b)
    (hlen : forall k, (Y k).length = 2 * b.layout.statesIn k) {chunkData : Nat -> List R}
    (hdata : forall k, k < b.layout.chunkCount -> chunkData k = Y k) :
    Call.Post (storeAll chunkData) b
      (fun _ b' => Filling n (fun k => round (Y k)) b.layout.chunkCount b' ∧
        b'.layout = b.layout)
      (fun _ _ => False) := by
  rw [storeAll, Call.post_bind_iff, Call.post_get, h.shaped.chunks]
  refine Call.post_forM_range
    (fun done b' => Filling n (fun k => round (Y k)) done b' ∧ b'.layout = b.layout) ?_ ⟨h, rfl⟩
  rintro k b1 hk ⟨h1, hlayout⟩
  rw [hdata k hk]
  rw [← hlayout] at hk
  refine (h1.storeChunk hR hk (hlayout ▸ hlen k) ?_).mono ?_
  · rw [hlayout]
    exact h.sizes k (hlayout ▸ hk)
  · rintro _ b2 ⟨h2, hlayout'⟩
    exact ⟨h2, hlayout'.trans hlayout⟩

end

end Storing

/-!
## Initial vectors
-/

section Vectors

omit [Field R] in
theorem Filling.holds {hP : P.Lossless} {v : List R} (hv : v.length = 2 * 2 ^ n)
    (h : Filling n (chunkOf P.chunkStates v) b.layout.chunkCount b) : Holds hP n v b where
  length := hv
  chunks :=
    { shaped := h.shaped
      length := fun k => length_chunkOf_eq h.shaped.layout hv k
      content := h.content hP (fun k => length_chunkOf_eq h.shaped.layout hv k) }

variable (hR : P.Rounds round)
include hR

def storedChunks (P : CodecPolicy R B) (round : List R -> List R) (v : List R) : Nat -> List R :=
  fun k => round (chunkOf P.chunkStates v k)

/-- Every chunk of the vector has been stored. -/
def Filled (P : CodecPolicy R B) (round : List R -> List R) (n : Nat) (v : List R)
    (b : CompressedStateBackend P) : Prop :=
  Filling n (storedChunks P round v) b.layout.chunkCount b

theorem post_initZero (b : CompressedStateBackend P) (hn : n ≤ 31)
    (hfits : ChunkLayout.Fits (2 ^ n) P.chunkStates) :
    Call.Post (initZero n) b (fun _ b' => Filled P round n (StateVector.zero n) b')
      (fun _ _ => False) := by
  rw [initZero, Call.post_bind_iff]
  refine (post_configureStorage b hn hfits
    (storedChunks P round (StateVector.zero n))).mono ?_
  intro _ b1 h1
  rw [Call.post_bind_iff, Call.post_get]
  have hlayout := h1.shaped.layout
  refine (post_storeAll hR h1 ?_ ?_).mono ?_
  · exact length_chunkOf_eq hlayout (StateVector.length_zero n)
  · intro k hk
    rw [StateVector.zero, chunkOf_replicate hlayout, h1.sizes k hk]
  · rintro _ b2 ⟨h2, hlayout'⟩
    rw [Filled, hlayout']
    exact h2

omit [Field R] in
theorem post_loadAmplitudes (b : CompressedStateBackend P) (hn : n ≤ 31)
    (hfits : ChunkLayout.Fits (2 ^ n) P.chunkStates) {v : List R} (hv : v.length = 2 * 2 ^ n) :
    Call.Post (loadAmplitudes n v) b (fun _ b' => Filled P round n v b')
      (fun _ _ => False) := by
  rw [loadAmplitudes, Call.post_bind_iff]
  refine (post_configureStorage b hn hfits (storedChunks P round v)).mono ?_
  intro _ b1 h1
  rw [checkedAmplitudeElementCount_eq (show n ≤ 62 by omega), pure_bind,
    if_neg (not_not.mpr hv)]
  change Call.Post (modifyCache ChunkCache.clear >>= _) _ _ _
  rw [Call.post_bind_iff, modifyCache, Call.post_modify, Call.post_bind_iff, Call.post_get]
  have hclear := h1.clear
  have hlayout := h1.shaped.layout
  refine (Call.post_forM_range
    (fun done b' => Filling n (storedChunks P round v) done b' ∧ b'.layout = b1.layout)
    ?_ ⟨hclear, rfl⟩).mono ?_
  · rintro k b2 hk ⟨h2, hlayout2⟩
    have hk2 : k < b2.layout.chunkCount := by
      rw [hlayout2, ← h1.shaped.chunks]
      exact hk
    have hslice : (v.drop (k * b1.layout.elemsPerChunk)).take (b1.store.chunk k).elemCount =
        chunkOf P.chunkStates v k := by
      have hmul : k * (2 * P.chunkStates) = 2 * (k * P.chunkStates) := Nat.mul_left_comm k 2 _
      rw [h1.sizes k (hlayout2 ▸ hk2), hlayout.elemsPerChunk_eq, hlayout.statesIn_eq, chunkOf,
        ← List.take_eq_take_iff.mpr]
      rw [List.length_drop, hv, hmul]
      omega
    rw [hslice]
    have hlen : (chunkOf P.chunkStates v k).length = 2 * b2.layout.statesIn k := by
      rw [hlayout2]
      exact length_chunkOf_eq hlayout hv k
    refine (h2.store hR hk2 hlen).mono ?_
    rintro _ b3 ⟨h3, hlayout3⟩
    exact ⟨h3, hlayout3.trans hlayout2⟩
  · rintro _ b2 ⟨h2, hlayout2⟩
    rw [Filled, hlayout2, ← h1.shaped.chunks]
    exact h2

end Vectors

/-!
## Superpositions
-/

section Superposition

theorem fillSelected_spec (ampReal : R) (first last : Nat) :
    forall (pending : List Nat) (denseChunk : List R), pending.Pairwise (· < ·) ->
      (forall s, s ∈ pending -> first ≤ s) -> denseChunk.length = 2 * (last - first) ->
      (fillSelected ampReal first last pending denseChunk).2 =
          pending.filter (fun s => last ≤ s) ∧
        (fillSelected ampReal first last pending denseChunk).1.length = denseChunk.length ∧
        forall i, i < last - first ->
          ampAt (fillSelected ampReal first last pending denseChunk).1 i =
            { real := if first + i ∈ pending then ampReal else (ampAt denseChunk i).real
              imag := (ampAt denseChunk i).imag }
  | [], denseChunk, _, _, _ => by
      refine ⟨rfl, rfl, ?_⟩
      intro i _
      simp [fillSelected]
  | s :: rest, denseChunk, hsorted, hfirst, hlen => by
      obtain ⟨hhead, htail⟩ := List.pairwise_cons.mp hsorted
      have hs := hfirst s List.mem_cons_self
      rw [fillSelected]
      by_cases hlast : s < last
      · rw [if_pos hlast, if_pos hs]
        have hset : (denseChunk.set (2 * (s - first)) ampReal).length = denseChunk.length :=
          List.length_set
        obtain ⟨hrest, hlength, hamps⟩ := fillSelected_spec ampReal first last rest
          (denseChunk.set (2 * (s - first)) ampReal) htail
          (fun t ht => hfirst t (List.mem_cons_of_mem s ht)) (hset.trans hlen)
        refine ⟨?_, hlength.trans hset, ?_⟩
        · rw [hrest, List.filter_cons, if_neg (by simpa using hlast)]
        · intro i hi
          have himag : ¬ 2 * (s - first) = 2 * i + 1 := by omega
          rw [hamps i hi]
          apply Amplitude.eq_of_parts
          · simp only [ampAt, readAmp, List.getD_eq_getElem?_getD, List.getElem?_set,
              List.mem_cons]
            by_cases his : first + i = s
            · have hidx : 2 * (s - first) = 2 * i := by omega
              have hlt : 2 * i < denseChunk.length := by omega
              simp [his, hidx, hlt]
            · have hidx : ¬ 2 * (s - first) = 2 * i := by omega
              simp only [his, hidx, false_or, if_false]
          · simp only [ampAt, readAmp, List.getD_eq_getElem?_getD, List.getElem?_set, himag,
              if_false]
      · rw [if_neg hlast]
        refine ⟨?_, rfl, ?_⟩
        · symm
          rw [List.filter_eq_self]
          intro t ht
          rcases List.mem_cons.mp ht with rfl | ht
          · simpa using hlast
          · have hlt := hhead t ht
            simp only [decide_eq_true_eq]
            omega
        · intro i hi
          have hout : ¬ first + i ∈ s :: rest := by
            intro hmem
            rcases List.mem_cons.mp hmem with heq | hmem
            · omega
            · have hlt := hhead _ hmem
              omega
          rw [if_neg hout]

variable [CMath R] {states : List Nat}

theorem fillSelected_chunk {layout : ChunkLayout} (hlayout : layout.Exact (2 ^ n) P.chunkStates)
    (hlt : forall t, t ∈ states -> t < 2 ^ n) {k : Nat} (hk : k < layout.chunkCount) :
    fillSelected (1 / CMath.sqrt ((selectedStates states).length : R)) (k * P.chunkStates)
        (k * P.chunkStates + layout.statesIn k)
        ((selectedStates states).filter fun s => k * P.chunkStates ≤ s)
        (List.replicate (2 * layout.statesIn k) 0) =
      (chunkOf P.chunkStates (StateVector.uniform n states) k,
        (selectedStates states).filter fun s => (k + 1) * P.chunkStates ≤ s) := by
  have hbegin := (hlayout.lt_chunkCount_iff k).mp hk
  have hstates := hlayout.statesIn_eq k
  obtain ⟨hrest, hlength, hamps⟩ := fillSelected_spec
    (1 / CMath.sqrt ((selectedStates states).length : R)) (k * P.chunkStates)
    (k * P.chunkStates + layout.statesIn k)
    ((selectedStates states).filter fun s => k * P.chunkStates ≤ s)
    (List.replicate (2 * layout.statesIn k) 0)
    ((pairwise_selectedStates states).filter _)
    (by
      intro s hs
      simpa using (List.mem_filter.mp hs).2)
    (by simp)
  apply Prod.ext
  · apply eq_of_ampAt (N := layout.statesIn k)
    · rw [hlength, List.length_replicate]
    · exact length_chunkOf_eq hlayout (StateVector.length_uniform n states) k
    · intro i hi
      have hik : i < P.chunkStates := by omega
      have hzero : ampAt (List.replicate (2 * layout.statesIn k) (0 : R)) i = Amplitude.zero := by
        have hrep : forall j, (List.replicate (2 * layout.statesIn k) (0 : R)).getD j 0 = 0 := by
          intro j
          rw [List.getD_eq_getElem?_getD, List.getElem?_replicate]
          split <;> rfl
        simp only [ampAt, readAmp, hrep]
        rfl
      rw [hamps i (by omega), ampAt_chunkOf P.chunkStates_pos _ _ hik,
        StateVector.ampAt_uniform hlt, hzero]
      have hmem : k * P.chunkStates + i ∈
          (selectedStates states).filter (fun s => k * P.chunkStates ≤ s) <->
            k * P.chunkStates + i ∈ states := by
        rw [List.mem_filter, mem_selectedStates]
        simp
      simp only [hmem]
      split <;> rfl
  · rw [hrest, List.filter_filter]
    apply List.filter_congr
    intro s hs
    have hs' := hlt s (mem_selectedStates.mp hs)
    rw [Nat.succ_mul, Bool.eq_iff_iff]
    simp only [Bool.and_eq_true, decide_eq_true_eq]
    omega

variable (hR : P.Rounds round)
include hR

theorem post_initUniformSuperposition (b : CompressedStateBackend P) (hn : n ≤ 31)
    (hfits : ChunkLayout.Fits (2 ^ n) P.chunkStates) (hne : states ≠ [])
    (hlt : forall t, t ∈ states -> t < 2 ^ n) :
    Call.Post (initUniformSuperposition n states) b
      (fun _ b' => Filled P round n (StateVector.uniform n states) b') (fun _ _ => False) := by
  have hselected : (selectedStates states).isEmpty = false := by
    simpa using selectedStates_ne_nil hne
  rw [initUniformSuperposition, Call.post_bind_iff]
  refine (post_configureStorage b hn hfits
    (storedChunks P round (StateVector.uniform n states))).mono ?_
  intro _ b1 h1
  have hlayout := h1.shaped.layout
  have hvalid : (states.forM fun state => (validateStateIndex
      "CompressedStateBackend::initUniformSuperposition" state b1.numStates :
        Call (CompressedStateBackend P) Unit)) = pure ⟨⟩ :=
    Call.forM_eq_pure fun s hs => validateStateIndex_eq h1.shaped (hlt s hs) _
  rw [Call.post_bind_iff, Call.post_get, hvalid, pure_bind]
  simp only [hselected]
  change Call.Post (Call.withLocal _ _) _ _ _
  rw [Call.post_withLocal_iff, h1.shaped.chunks]
  refine (Call.post_forM_range
    (fun done t => Filling n (storedChunks P round (StateVector.uniform n states)) done t.1 ∧
      t.1.layout = b1.layout ∧
      t.2 = (selectedStates states).filter fun s => done * P.chunkStates ≤ s)
    ?_ ⟨h1, rfl, ?_⟩).mono ?_
  · rintro k ⟨b2, pending⟩ hk ⟨h2, hlayout2, hpending⟩
    simp only at h2 hlayout2 hpending
    subst hpending
    rw [h1.sizes k hk, hlayout.chunkStateBegin_eq hk]
    simp only [pure_bind]
    rw [Call.post_bind_iff, Call.post_get]
    simp only [Nat.mul_div_cancel_left _ (show 0 < 2 by decide), fillSelected_chunk hlayout hlt hk]
    rw [Call.post_bind_iff, Call.post_modify, Call.post_onObject_iff]
    have hk2 : k < b2.layout.chunkCount := hlayout2.symm ▸ hk
    refine (h2.storeChunk hR hk2
      (length_chunkOf_eq h2.shaped.layout (StateVector.length_uniform n states) k)
      (by rw [hlayout2])).mono ?_
    rintro _ b3 ⟨h3, hlayout3⟩
    exact ⟨h3, hlayout3.trans hlayout2, rfl⟩
  · rw [Nat.zero_mul]
    symm
    rw [List.filter_eq_self]
    simp
  · rintro _ ⟨b2, pending⟩ ⟨h2, hlayout2, _⟩
    simp only at h2 hlayout2
    rw [Filled, hlayout2]
    exact h2

end Superposition

end CompressedStateBackend

end Tmfqs
