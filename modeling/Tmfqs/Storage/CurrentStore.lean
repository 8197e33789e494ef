import Tmfqs.Storage.CurrentCalls
import Tmfqs.Storage.LeastRecent
import Tmfqs.Storage.ShownVector

/-!
# The compressed store is current outside a batch

While no batch is open no slot is dirty and the store alone has all amplitudes; inside a batch
the chunks that differ from the store are in dirty slots.  Initialising calls that are rejected
half-way are followed to the states they leave behind.
-/

namespace Tmfqs

open Library ChunkCache

/-- A chunk that was never stored decompresses to the same elements every time. -/
def CodecPolicy.DecodesBlank {R B : Type} (P : CodecPolicy R B) : Prop :=
  forall m, 0 < m -> exists x : List R, x.length = m ∧ P.Decodes [] x

/-- The rejected initialising calls that lay out chunks and store nothing in them. -/
def BackendOp.LeavesBlank {R B : Type} (P : CodecPolicy R B) : BackendOp R -> Prop
  | initUniformSuperposition n states =>
      n ≤ 31 ∧ ChunkLayout.Fits (2 ^ n) P.chunkStates ∧
        ¬ (states ≠ [] ∧ forall s, s ∈ states -> s < 2 ^ n)
  | loadAmplitudes n data =>
      n ≤ 31 ∧ ChunkLayout.Fits (2 ^ n) P.chunkStates ∧ data.length ≠ 2 * 2 ^ n
  | _ => False

namespace CompressedStateBackend

variable {R B : Type} [Field R] {P : CodecPolicy R B} {hP : P.Lossless}
  {b : CompressedStateBackend P} {n : Nat}

/-!
## Laying out chunks
-/

section

omit [Field R]

theorem blank_configureStorage (n : Nat) (b : CompressedStateBackend P) :
    Call.Post (configureStorage n) b
      (fun _ b' => forall k, (b'.store.chunk k).compressed = []) (fun _ _ => True) := by
  have after : forall {α β : Type} {x : Call (CompressedStateBackend P) α}
      {f : α -> Call (CompressedStateBackend P) β} {c : CompressedStateBackend P}
      {Q : β -> CompressedStateBackend P -> Prop},
      (forall a c', Call.Post (f a) c' Q (fun _ _ => True)) ->
      Call.Post (x >>= f) c Q (fun _ _ => True) := by
    intro α β x f c Q h
    rw [Call.post_bind_iff]
    exact Call.post_of_forall h fun _ _ => trivial
  rw [configureStorage]
  apply after
  intro _ _
  apply after
  intro stateCount _
  apply after
  intro _ _
  apply after
  intro layout _
  apply after
  intro _ _
  apply after
  intro elemCounts b1
  rw [Call.post_bind_iff, Call.post_modify, Call.post_bind_iff, Call.post_get,
    Call.post_bind_iff, Call.post_focus_iff]
  apply Call.post_of_forall _ fun _ _ => trivial
  intro _ c k
  change ((elemCounts.map fun elemCount => ({ compressed := [], elemCount := elemCount } :
    ChunkStorage B)).getD k ChunkStorage.empty).compressed = []
  rw [List.getD_eq_getElem?_getD, List.getElem?_map]
  cases elemCounts[k]? with
  | none => rfl
  | some elemCount => rfl

theorem configureStorage_many (b : CompressedStateBackend P) (hn : 63 < n) :
    exists e, configureStorage n b = (.error e, renumber n b) := by
  have hthrows : n > maxSupportedQubitsForStateIndex := hn
  rw [configureStorage, Call.bind_ok (Call.modify_apply _ b), checkedStateCount,
    if_pos hthrows]
  exact ⟨_, rfl⟩

/-- A layout without chunks: too many states for a state index, or a count that wraps. -/
theorem configureStorage_empty (b : CompressedStateBackend P)
    (hchunk : 2 * P.chunkStates < 2 ^ 64) (hn : n ≤ 63)
    (hsize : ¬ (n ≤ 31 ∧ ChunkLayout.Fits (2 ^ n) P.chunkStates)) :
    exists e b', configureStorage n b = (.error e, b') ∧ b'.store.chunks = [] ∧
      b'.cache = b.cache ∧ b'.batchDepth = b.batchDepth := by
  have hcount : (ChunkLayout.ofSizes (u32 (2 ^ n)) P.chunkStates).chunkCount = 0 := by
    by_cases hsmall : n ≤ 31
    · have hlt := two_pow_lt_u32 hsmall
      rw [u32_of_lt hlt]
      exact ChunkLayout.chunkCount_of_not_fits (Nat.two_pow_pos n) (by omega) hchunk
        fun hfits => hsize ⟨hsmall, hfits⟩
    · have hzero : u32 (2 ^ n) = 0 := Nat.mod_eq_zero_of_dvd (Nat.pow_dvd_pow 2 (by omega))
      rw [hzero]
      rfl
  have hpost := post_configureStorage_no_chunks b hn hcount
  unfold Call.Post at hpost
  rcases hrun : configureStorage n b with ⟨r, b'⟩
  rw [hrun] at hpost
  cases r with
  | ok a => exact hpost.elim
  | error e => exact ⟨e, b', rfl, hpost.2⟩

theorem Filling.blank {Y : Nat -> List R} (h : Filling n Y 0 b) (hP : P.DecodesBlank)
    (hblank : forall k, (b.store.chunk k).compressed = []) :
    exists v, v.length = 2 * 2 ^ n ∧ Filled P id n v b := by
  have hlayout := h.shaped.layout
  have hdecodes : forall k, exists x : List R, k < b.layout.chunkCount ->
      x.length = 2 * b.layout.statesIn k ∧ P.Decodes [] x := by
    intro k
    by_cases hk : k < b.layout.chunkCount
    · have hpos := hlayout.statesIn_pos hk
      rcases hP (2 * b.layout.statesIn k) (by omega) with ⟨x, hx⟩
      exact ⟨x, fun _ => hx⟩
    · exact ⟨[], fun hlt => absurd hlt hk⟩
  choose X hX using hdecodes
  have hlength : ((List.range b.layout.chunkCount).flatMap X).length = 2 * 2 ^ n := by
    rw [List.length_flatMap, ← sum_statesIn hlayout]
    congr 1
    apply List.map_congr_left
    intro k hk
    exact (hX k (List.mem_range.mp hk)).1
  refine ⟨_, hlength, ?_⟩
  exact
    { shaped := h.shaped
      roomy := h.roomy
      depth := h.depth
      uncached := h.uncached
      sizes := h.sizes
      stores := by
        intro k hk
        have hchunk : storedChunks P id ((List.range b.layout.chunkCount).flatMap X) k = X k :=
          chunkOf_flatMap hlayout (fun c hc => (hX c hc).1) hk
        rw [hchunk]
        refine ⟨h.shaped.chunks ▸ hk, (h.sizes k hk).trans (hX k hk).1.symm, ?_⟩
        rw [hblank k]
        exact (hX k hk).2 }

end

/-!
## Initialising calls
-/

section Init

variable [LinearOrder R] [CMath R]

section

omit [Field R] [LinearOrder R] [CMath R]

theorem Fresh.upToDate {v : List R} (h : Fresh hP n v b) (hclean : b.NoneDirty) :
    UpToDate hP n b := by
  have hqubits := h.1.chunks.shaped.numQubits
  have hself : renumber n b = b := by
    rw [← hqubits, renumber_self]
  exact
    { represents := by
        rw [hself]
        exact ⟨v, h.1, h.2.1, rfl⟩
      clean := fun _ => hclean
      recorded := Or.inl hqubits }

theorem Filled.upToDate {v : List R} (h : Filled P id n v b) (hv : v.length = 2 * 2 ^ n) :
    UpToDate hP n b := by
  refine (Filled.fresh hP hv h).upToDate ?_
  intro k
  rw [isDirty, h.uncached]
  rfl

theorem Filling.upToDate {Y : Nat -> List R} (h : Filling n Y 0 b) (hdecodes : P.DecodesBlank)
    (hblank : forall k, (b.store.chunk k).compressed = []) : UpToDate hP n b := by
  rcases h.blank hdecodes hblank with ⟨v, hv, hfilled⟩
  exact hfilled.upToDate hv

end

variable (hn : n ≤ 31) (hfits : ChunkLayout.Fits (2 ^ n) P.chunkStates)
include hn hfits

omit [LinearOrder R] [CMath R] in
theorem upToDate_initZero (b : CompressedStateBackend P) :
    Call.Post (initZero n) b (fun _ b' => UpToDate hP n b') (fun _ b' => UpToDate hP n b') :=
  (post_initZero hP b hn hfits).imp
    (fun _ _ h => Filled.upToDate h (StateVector.length_zero n)) (fun _ _ he => he.elim)

omit [LinearOrder R] [CMath R] in
theorem upToDate_initBasis (b : CompressedStateBackend P) (s : Nat) (amp : Amplitude R) :
    Call.Post (initBasis n s amp) b (fun _ b' => UpToDate hP n b')
      (fun _ b' => UpToDate hP n b') := by
  by_cases hs : s < 2 ^ n
  · have hends : EndsFlushed (initBasis n s amp : Call (CompressedStateBackend P) Unit) :=
      EndsFlushed.after (fun _ => EndsFlushed.after (fun _ => EndsFlushed.after (fun _ =>
        EndsFlushed.after (fun _ => endsFlushed_flushCacheIfNeeded) _) _) _) _
    refine ((does_initBasis hP b hn hfits hs amp).and (hends b)).imp ?_
      (fun _ _ he => he.1.elim)
    rintro _ b' ⟨hfresh, hflushed⟩
    exact hfresh.upToDate (clean_of_flushed hfresh.1.chunks.shaped.coherent
      (hflushed hfresh.2.2))
  · rw [initBasis, Call.post_bind_iff]
    refine (post_initZero hP b hn hfits).imp ?_ (fun _ _ he => he.elim)
    intro _ b1 h1
    rw [Call.post_bind_iff, Call.post_get]
    rcases (h1.shaped.rejects_state hs _).bind fun _ => (do
      writeAmplitudeMutable s amp
      flushCacheIfNeeded) with ⟨e, he, _⟩
    exact Call.post_of_error he (Filled.upToDate h1 (StateVector.length_zero n))

omit [LinearOrder R] in
theorem upToDate_initUniformSuperposition (b : CompressedStateBackend P) {states : List Nat}
    (hblank : ¬ (states ≠ [] ∧ forall s, s ∈ states -> s < 2 ^ n) -> P.DecodesBlank) :
    Call.Post (initUniformSuperposition n states) b (fun _ b' => UpToDate hP n b')
      (fun _ b' => UpToDate hP n b') := by
  by_cases hvalid : states ≠ [] ∧ forall s, s ∈ states -> s < 2 ^ n
  · exact (post_initUniformSuperposition hP b hn hfits hvalid.1 hvalid.2).imp
      (fun _ _ h => Filled.upToDate h (StateVector.length_uniform n states))
      (fun _ _ he => he.elim)
  · rw [initUniformSuperposition, Call.post_bind_iff]
    refine ((post_configureStorage b hn hfits (fun _ => [])).and
      (blank_configureStorage n b)).imp ?_ (fun _ _ he => he.1.elim)
    rintro _ b1 ⟨h1, hchunks⟩
    have hlaid : UpToDate hP n b1 := h1.upToDate (hblank hvalid) hchunks
    rw [Call.post_bind_iff, Call.post_get, h1.shaped.numStates]
    by_cases hlt : forall s, s ∈ states -> s < 2 ^ n
    · have hnil : states = [] := by
        by_contra hne
        exact hvalid ⟨hne, hlt⟩
      subst hnil
      have hnone : selectedStates [] = [] := by simp [selectedStates, unique]
      simp only [hnone, List.isEmpty_nil, if_true]
      exact hlaid
    · rcases (rejects_stateIndices (s := b1)
        "CompressedStateBackend::initUniformSuperposition" hn hlt).bind _ with ⟨e, he, _⟩
      exact Call.post_of_error he hlaid

omit [Field R] [LinearOrder R] [CMath R] in
theorem upToDate_loadAmplitudes (b : CompressedStateBackend P) {data : List R}
    (hblank : data.length ≠ 2 * 2 ^ n -> P.DecodesBlank) :
    Call.Post (loadAmplitudes n data) b (fun _ b' => UpToDate hP n b')
      (fun _ b' => UpToDate hP n b') := by
  by_cases hdata : data.length = 2 * 2 ^ n
  · exact (post_loadAmplitudes hP b hn hfits hdata).imp
      (fun _ _ h => Filled.upToDate h hdata) (fun _ _ he => he.elim)
  · rw [loadAmplitudes, Call.post_bind_iff]
    refine ((post_configureStorage b hn hfits (fun _ => [])).and
      (blank_configureStorage n b)).imp ?_ (fun _ _ he => he.1.elim)
    rintro _ b1 ⟨h1, hchunks⟩
    rw [checkedAmplitudeElementCount_eq (show n ≤ 62 by omega), pure_bind, if_pos hdata]
    exact h1.upToDate (hblank hdata) hchunks

end Init

/-!
## Reached backends
-/

/-- No chunks are laid out: nothing was initialised yet, or the last attempt failed. -/
structure Vacant (b : CompressedStateBackend P) : Prop where
  chunks : b.store.chunks = []
  depth : b.batchDepth = 0
  clean : forall slot, slot ∈ b.cache.slots -> slot.dirty = false

omit [Field R] in
theorem NoneDirty.slots (h : b.NoneDirty) (hc : b.cache.Coherent none) :
    forall slot, slot ∈ b.cache.slots -> slot.dirty = false := by
  intro slot hmem
  obtain ⟨i, hi, hget⟩ := List.getElem_of_mem hmem
  have hslot : b.cache.slot i = slot := by
    rw [ChunkCache.slot, List.getD_eq_getElem?_getD, List.getElem?_eq_getElem hi, hget]
    rfl
  obtain ⟨k, _, hk⟩ := hc.mapped hi (by simp)
  rw [← hslot, ← isDirty_eq hk]
  exact h k

section Runs

variable [LinearOrder R] [CMath R] {op : BackendOp R}

theorem Vacant.run (h : b.Vacant) (hsize : op.size = none) : (op.run b).2 = b :=
  run_of_not_initialized (fun hinit => hinit.2 h.chunks) h.depth hsize

/-- Initialised with the store up to date, or without chunks. -/
def Kept (hP : P.Lossless) (b : CompressedStateBackend P) : Prop :=
  (exists n, UpToDate hP n b) ∨ b.Vacant

omit [Field R] [LinearOrder R] [CMath R] in
theorem Kept.clean (h : Kept hP b) (hclosed : b.batchDepth = 0) :
    forall slot, slot ∈ b.cache.slots -> slot.dirty = false := by
  rcases h with ⟨n, hn⟩ | hvacant
  · exact (hn.clean hclosed).slots hn.shaped.coherent
  · exact hvacant.clean

omit [Field R] [LinearOrder R] [CMath R] in
theorem Kept.renumbered (h : Kept hP b) {m : Nat} (hm : 63 < m) :
    Kept hP (renumber m b) := by
  rcases h with ⟨n, hn⟩ | hvacant
  · exact Or.inl ⟨n, hn.renumbered (Or.inr hm)⟩
  · exact Or.inr ⟨hvacant.chunks, hvacant.depth, hvacant.clean⟩

theorem run_of_configure_error {m : Nat} {e : Exc} {b' : CompressedStateBackend P}
    (hsize : op.size = some m) (h : configureStorage m b = (.error e, b')) :
    (op.run b).2 = b' := by
  have hfails : forall {α : Type} (f : Unit -> Call (CompressedStateBackend P) α),
      ((configureStorage m >>= f) b).2 = b' := by
    intro α f
    rw [Call.bind_error h]
  cases op with
  | initZero k =>
      cases hsize
      change (BackendOp.command (initZero m) b).2 = b'
      rw [command_state]
      exact hfails _
  | initBasis k s amp =>
      cases hsize
      change (BackendOp.command (initBasis m s amp) b).2 = b'
      rw [command_state, initBasis, initZero, bind_assoc]
      exact hfails _
  | initUniformSuperposition k states =>
      cases hsize
      change (BackendOp.command (initUniformSuperposition m states) b).2 = b'
      rw [command_state]
      exact hfails _
  | loadAmplitudes k data =>
      cases hsize
      change (BackendOp.command (loadAmplitudes m data) b).2 = b'
      rw [command_state]
      exact hfails _
  | _ => cases hsize

theorem upToDate_init {m : Nat} (hsize : op.size = some m) (hm : m ≤ 31)
    (hfits : ChunkLayout.Fits (2 ^ m) P.chunkStates)
    (hblank : op.LeavesBlank P -> P.DecodesBlank) (b : CompressedStateBackend P) :
    UpToDate hP m (op.run b).2 := by
  cases op with
  | initZero k =>
      cases hsize
      exact UpToDate.command (upToDate_initZero hm hfits b).state
  | initBasis k s amp =>
      cases hsize
      exact UpToDate.command (upToDate_initBasis hm hfits b s amp).state
  | initUniformSuperposition k states =>
      cases hsize
      exact UpToDate.command (upToDate_initUniformSuperposition hm hfits b fun hstates =>
        hblank ⟨hm, hfits, hstates⟩).state
  | loadAmplitudes k data =>
      cases hsize
      exact UpToDate.command (upToDate_loadAmplitudes hm hfits b fun hdata =>
        hblank ⟨hm, hfits, hdata⟩).state
  | _ => cases hsize

theorem Kept.init (h : Kept hP b) (hchunk : 2 * P.chunkStates < 2 ^ 64) {m : Nat}
    (hsize : op.size = some m) (hclosed : b.batchDepth = 0)
    (hblank : op.LeavesBlank P -> P.DecodesBlank) : Kept hP (op.run b).2 := by
  rcases Nat.lt_or_ge 63 m with hmany | hle
  · rcases configureStorage_many b hmany with ⟨e, he⟩
    rw [run_of_configure_error hsize he]
    exact h.renumbered hmany
  · by_cases hlaid : m ≤ 31 ∧ ChunkLayout.Fits (2 ^ m) P.chunkStates
    · exact Or.inl ⟨m, upToDate_init hsize hlaid.1 hlaid.2 hblank b⟩
    · rcases configureStorage_empty b hchunk hle hlaid with ⟨e, b', he, hnone, hcache, hdepth⟩
      rw [run_of_configure_error hsize he]
      refine Or.inr ⟨hnone, hdepth.trans hclosed, ?_⟩
      rw [hcache]
      exact h.clean hclosed

/--
What the sequence of calls is asked for: no initialising call inside a batch, no gate on a bit
beyond the state indices, and no chunk without data that the codec could not decompress.
After a rejected initialisation of more than 63 qubits a gate may have such a bit; some of
these gates are undefined in the source, all of them are left out.
-/
structure Permitted (op : BackendOp R) (b : CompressedStateBackend P) : Prop where
  outsideBatch : op.size ≠ none -> b.batchDepth = 0
  inRange : b.Initialized -> InRange op.qubits b
  decodes : op.LeavesBlank P -> P.DecodesBlank

omit [Field R] [LinearOrder R] [CMath R] in
theorem UpToDate.isInitialized (h : UpToDate hP n b) : b.Initialized := by
  have hshaped := h.shaped
  have hpos := hshaped.layout.chunkCount_pos
  rw [← hshaped.chunks] at hpos
  constructor
  · have hstates : b.numStates = 2 ^ n := hshaped.numStates
    rw [hstates]
    exact Nat.two_pow_pos n
  · exact List.ne_nil_of_length_pos hpos

theorem Kept.run (h : Kept hP b) (hchunk : 2 * P.chunkStates < 2 ^ 64)
    (hop : Permitted op b) : Kept hP (op.run b).2 := by
  cases hsize : op.size with
  | some m =>
      exact h.init hchunk hsize (hop.outsideBatch (by rw [hsize]; simp)) hop.decodes
  | none =>
      rcases h with ⟨n, hn⟩ | hvacant
      · exact Or.inl ⟨n, hn.run hsize (hop.inRange hn.isInitialized)⟩
      · rw [hvacant.run hsize]
        exact Or.inr hvacant

omit [Field R] [LinearOrder R] [CMath R] in
theorem kept_make (hP : P.Lossless) : Kept hP (make P) := by
  refine Or.inr ⟨rfl, rfl, ?_⟩
  intro slot hmem
  have hpos : P.cacheSlots ≠ 0 := by
    have hslots := P.cacheSlots_ge_two
    omega
  have hnone : (make P).cache.slots = [] := by
    rw [make, configure, if_neg hpos]
    rfl
  rw [hnone] at hmem
  cases hmem

end Runs

/-!
## The store and what is read
-/

def decodedChunk (b : CompressedStateBackend P) (k : Nat) : List R :=
  decoded (ChunkVector.callbacks P) b.store k

/-- Chunk `k` as it is read: the buffer of its slot, or else what the store has. -/
def logicalChunk (b : CompressedStateBackend P) (k : Nat) : List R :=
  logical (ChunkVector.callbacks P) (b.cache, b.store) k

/--
While no batch is open nothing is dirty and the store has every chunk as it is read; otherwise
the chunks it has differently are in dirty slots.
-/
structure Current (b : CompressedStateBackend P) : Prop where
  closed : b.batchDepth = 0 ->
    (forall slot, slot ∈ b.cache.slots -> slot.dirty = false) ∧
      forall k, k < b.store.chunks.length -> b.decodedChunk k = b.logicalChunk k
  opened : forall k, k < b.store.chunks.length -> b.decodedChunk k ≠ b.logicalChunk k ->
    exists i, b.cache.slotOf k = some i ∧ (b.cache.slot i).chunkIndex = some k ∧
      (b.cache.slot i).dirty = true
  reads : b.Initialized -> forall s, s < b.numStates ->
    (amplitude s b).1 = .ok (readAmp (b.logicalChunk (b.layout.stateRef s).chunkIndex)
      (b.layout.stateRef s).elemOffset)

section Current

variable [LinearOrder R] [CMath R] {op : BackendOp R}

section

omit [LinearOrder R] [CMath R]

theorem UpToDate.whole (h : UpToDate hP n b) :
    exists X, Whole (ChunkVector.chunkStore hP b.layout.chunkCount) X (b.cache, b.store) ∧
      forall s, s < 2 ^ n ->
        (amplitude s b).1 = .ok (readAmp (X (s / P.chunkStates)) (2 * (s % P.chunkStates))) := by
  rcases h.represents with ⟨v, hv⟩
  refine ⟨chunkOf P.chunkStates v, ⟨h.shaped.coherent, hv.contains.content⟩, ?_⟩
  intro s hs
  have hrun := unnumbered_amplitude s b.numQubits (renumber n b)
  rw [renumber_renumber, renumber_self] at hrun
  obtain ⟨a, b', hamp, ha, _⟩ := (hv.contains.amplitude hs).exists_ok
  rw [hrun, hamp, ha]

theorem UpToDate.current (h : UpToDate hP n b) : b.Current := by
  obtain ⟨X, hwhole, hreads⟩ := h.whole
  have hchunks : b.store.chunks.length = b.layout.chunkCount := h.shaped.chunks
  have hkeys : b.cache.chunkToSlot.length = b.layout.chunkCount := h.shaped.cacheChunks
  have hkey : forall {k : Nat}, k < b.store.chunks.length -> k < b.cache.chunkToSlot.length := by
    intro k hk
    rw [hkeys, ← hchunks]
    exact hk
  have hlogical : forall {k : Nat}, k < b.store.chunks.length -> b.logicalChunk k = X k :=
    fun hk => hwhole.logical id (hkey hk)
  have hdecoded : forall {k : Nat}, k < b.store.chunks.length -> b.cache.isDirty k = false ->
      b.decodedChunk k = b.logicalChunk k := by
    intro k hk hclean
    rw [hlogical hk]
    exact hwhole.decoded id (hkey hk) hclean
  constructor
  · intro hclosed
    exact ⟨(h.clean hclosed).slots hwhole.1, fun k hk => hdecoded hk (h.clean hclosed k)⟩
  · intro k hk hne
    cases hslot : b.cache.slotOf k with
    | none => exact absurd (hdecoded hk (isDirty_of_none hslot)) hne
    | some i =>
        refine ⟨i, rfl, (hwhole.1.carried hslot).2.1, ?_⟩
        by_contra hclean
        apply hne
        apply hdecoded hk
        rw [isDirty_eq hslot]
        exact Bool.eq_false_of_not_eq_true hclean
  · intro _ s hs
    have hstates : b.numStates = 2 ^ n := h.shaped.numStates
    have hlayout : b.layout.Exact (2 ^ n) P.chunkStates := h.shaped.layout
    rw [hstates] at hs
    have hk : s / P.chunkStates < b.store.chunks.length := by
      rw [hchunks]
      exact hlayout.div_lt_chunkCount hs
    rw [hreads s hs, hlayout.stateRef_eq, hlogical hk]

theorem Vacant.current (h : b.Vacant) : b.Current := by
  have hnone : forall k, ¬ k < b.store.chunks.length := by
    intro k
    rw [h.chunks]
    exact Nat.not_lt_zero k
  constructor
  · exact fun _ => ⟨h.clean, fun k hk => absurd hk (hnone k)⟩
  · exact fun k hk => absurd hk (hnone k)
  · intro hinit
    exact absurd h.chunks hinit.2

theorem Kept.current (h : Kept hP b) : b.Current := by
  rcases h with ⟨n, hn⟩ | hvacant
  · exact hn.current
  · exact hvacant.current

end

/--
A codec that gives back what it was given, chunks whose number of elements is representable, and
any sequence of calls that keeps initialisations out of batches.
-/
theorem current_of_run (hP : P.Lossless) (hchunk : 2 * P.chunkStates < 2 ^ 64)
    {ops : List (BackendOp R)} (hops : Along BackendOp.run Permitted ops (make P)) :
    (reached BackendOp.run ops (make P)).Current := by
  have hkept : Kept hP (reached BackendOp.run ops (make P)) :=
    reached_invariant (fun op b hb hop => hb.run hchunk hop) (kept_make hP) hops
  exact hkept.current

/-!
## Runs with valid arguments
-/

section

omit [Field R] [LinearOrder R] [CMath R]

theorem not_leavesBlank_of_validInit (h : op.ValidInit) : ¬ op.LeavesBlank P := by
  cases op with
  | initUniformSuperposition n states => exact fun hblank => hblank.2.2 h.2
  | loadAmplitudes n data => exact fun hblank => hblank.2.2 h.2
  | _ => exact id

theorem Represents.permitted {v : List R} {d : Nat} (h : Represents hP n v d b)
    (hvalid : op.Valid (some (n, d))) : Permitted op b := by
  have hshaped := h.1.chunks.shaped
  unfold BackendOp.Valid at hvalid
  constructor
  · intro hsize
    cases hop : op.size with
    | none => exact absurd hop hsize
    | some m =>
        rw [hop] at hvalid
        exact h.2.2.trans hvalid.2
  · intro _ q _ hq
    rw [hshaped.numQubits] at hq ⊢
    rw [hshaped.numStates]
    exact Nat.pow_lt_pow_right (by decide) (by omega)
  · intro hblank
    cases hop : op.size with
    | none =>
        cases op with
        | initUniformSuperposition m states => cases hop
        | loadAmplitudes m data => cases hop
        | _ => exact hblank.elim
    | some m =>
        rw [hop] at hvalid
        exact absurd hblank (not_leavesBlank_of_validInit hvalid.1)

theorem permitted_make (hvalid : op.ValidInit) : Permitted op (make P) where
  outsideBatch _ := rfl
  inRange hinit := absurd rfl hinit.2
  decodes hblank := absurd hblank (not_leavesBlank_of_validInit hvalid)

end

theorem along_permitted (hP : P.Lossless) {ops : List (BackendOp R)} :
    forall {s : Option (LogicalState R)} {b : CompressedStateBackend P},
      (storesVector hP).Stores s b -> (s = none -> b = make P) ->
      BackendOp.ValidRun (s.map LogicalState.shape) ops ->
      (forall op, op ∈ ops -> forall m, op.size = some m ->
        ChunkLayout.Fits (2 ^ m) P.chunkStates) -> Along BackendOp.run Permitted ops b := by
  induction ops with
  | nil =>
      intro _ _ _ _ _ _
      trivial
  | cons op rest ih =>
      intro s b hstores hmade hvalid hfits
      have hnext := (StoresVector.refines_run (storesVector hP) hstores hvalid.1
        ⟨hfits op List.mem_cons_self, fun _ _ _ _ _ _ _ _ => rfl⟩).2
      refine ⟨?_, ih hnext ?_ ?_ fun op' hop' => hfits op' (List.mem_cons_of_mem op hop')⟩
      · cases s with
        | none =>
            have hfirst := hvalid.1
            unfold BackendOp.Valid at hfirst
            rw [hmade rfl]
            cases hsize : op.size with
            | none =>
                rw [hsize] at hfirst
                exact hfirst.elim
            | some m =>
                rw [hsize] at hfirst
                exact permitted_make hfirst
        | some L => exact Represents.permitted hstores hvalid.1
      · intro hnone
        have hfirst := hvalid.1
        unfold BackendOp.Valid at hfirst
        unfold BackendOp.spec at hnone
        cases hsize : op.size with
        | none =>
            rw [hsize] at hfirst hnone
            cases s with
            | none => exact hfirst.elim
            | some L => cases hnone
        | some m =>
            rw [hsize] at hnone
            cases hnone
      · rw [BackendOp.shape_spec]
        exact hvalid.2

/-- Inside a batch on two chunks of one qubit, and after it. -/
theorem current_of_run_batch :
    let P : CodecPolicy Real Real := CodecPolicy.elementwise id 1 2 (Nat.le_refl 1) (Nat.le_refl 2)
    let ops : List (BackendOp Real) :=
      [.initBasis 1 0 { real := 1, imag := 0 }, .beginOperationBatch, .applyPauliX 0, .amplitude 1]
    (reached BackendOp.run ops (make P)).Current ∧
      (reached BackendOp.run (ops ++ [.endOperationBatch]) (make P)).Current := by
  intro P ops
  have hP : P.Lossless := CodecPolicy.lossless_elementwise _ _
  have hstores : (storesVector hP).Stores (none : Option (LogicalState Real)) (make P) := trivial
  have hvalid : BackendOp.ValidRun none (ops ++ [.endOperationBatch]) :=
    ⟨⟨by decide, by decide⟩, trivial, show 0 < 1 by decide, show 1 < 2 ^ 1 by decide,
      show 0 < 1 by decide, trivial⟩
  have hfits : forall op, op ∈ ops ++ [.endOperationBatch] -> forall m, op.size = some m ->
      ChunkLayout.Fits (2 ^ m) P.chunkStates := by
    intro op hop m hsize
    simp only [ops, List.cons_append, List.nil_append, List.mem_cons, List.not_mem_nil,
      or_false] at hop
    rcases hop with rfl | rfl | rfl | rfl | rfl
    · cases hsize
      decide
    · cases hsize
    · cases hsize
    · cases hsize
    · cases hsize
  have halong := along_permitted hP hstores (fun _ => rfl) hvalid hfits
  exact ⟨current_of_run hP (by decide) ((along_append BackendOp.run ops _ (make P)).mp halong).1,
    current_of_run hP (by decide) halong⟩

end Current

end CompressedStateBackend

end Tmfqs
