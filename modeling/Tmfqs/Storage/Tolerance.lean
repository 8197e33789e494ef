import Tmfqs.Storage.CompressedKernels
import Tmfqs.Storage.LeastRecent
import Tmfqs.Storage.ShownVector

/-!
# Access to chunks that may change or fail

A codec may change a chunk within a tolerance, and it may throw.  Acquiring a chunk then
changes at most one other chunk, the evicted one, and an acquisition that throws leaves
every chunk readable.
-/

namespace Tmfqs

open Library ChunkCache

namespace ChunkCache

variable {R σ : Type} [Zero R] {cb : ChunkCallbacks R σ} {st : ChunkStore cb}

/-!
## A chunk that cannot be brought in
-/

omit [Zero R] in
theorem entry_of_free {c c' : ChunkCache R} {i : Nat} (hfree : forall j, c.slotOf j ≠ some i)
    (hslotOf : forall j, c'.slotOf j = c.slotOf j)
    (hslot : forall l, l ≠ i -> c'.slot l = c.slot l) (j : Nat) : c'.entry j = c.entry j := by
  rw [entry, entry, hslotOf]
  cases hj : c.slotOf j with
  | none => rfl
  | some l =>
      have hl : l ≠ i := by
        intro heq
        exact hfree j (heq ▸ hj)
      rw [Option.map_some, Option.map_some, hslot l hl]

/-- The cache and the store after bringing in a chunk has failed. -/
structure Abandoned (st : ChunkStore cb) (c : ChunkCache R) (X S : Nat -> List R)
    (t : ChunkCache R × σ) : Prop where
  shape : SameShape c t.1
  reserved : t.1.reserved = c.reserved
  counter : t.1.touchCounter = c.touchCounter + 1
  entry : forall j, t.1.entry j = c.entry j
  content : Content st t.1 t.2 X S
  corrupt : ¬ t.1.Represented

theorem post_fillSlot_fails {c : ChunkCache R} {s : σ} {X S : Nat -> List R} {i k : Nat}
    (hi : i < c.slots.length) (hfree : forall j, c.slotOf j ≠ some i)
    (hkey : k < c.chunkToSlot.length) (h : Content st c s X S) (hk : c.slotOf k = none) :
    Call.Post (fillSlot cb k i) (c, s) (fun _ _ => True) (fun _ t => Abandoned st c X S t) := by
  have hnone : c.entry k = none := by
    rw [entry, hk]
    rfl
  obtain ⟨hread, hstored⟩ := h.stored k hkey hnone
  have hsized := h.sized k hkey
  have hpos := st.pos hsized
  have hassign : forall l, l ≠ i -> (c.assignSlot i k).slot l = c.slot l := by
    intro l hl
    have hmod := c.slot_modifySlot hi (fun slot =>
      { slot with
        chunkIndex := some k
        dirty := false
        touch := c.touchCounter + 1 }) l
    rw [if_neg hl] at hmod
    exact hmod
  have habandoned : forall (c' : ChunkCache R) (s' : σ), SameShape c c' ->
      c'.reserved = c.reserved -> c'.touchCounter = c.touchCounter + 1 ->
      (forall j, c'.slotOf j = c.slotOf j) -> (forall l, l ≠ i -> c'.slot l = c.slot l) ->
      (forall j x, st.Stored s j x -> st.Stored s' j x) ->
      (forall j l, st.Sized s j l -> st.Sized s' j l) ->
      i < c'.slots.length -> (c'.slot i).chunkIndex = some k -> Abandoned st c X S (c', s') := by
    intro c' s' hshape hreserved hcounter hslotOf hslot hkeep hsizes hlt hindex
    have hentry := entry_of_free hfree hslotOf hslot
    refine ⟨hshape, hreserved, hcounter, hentry, ?_, ?_⟩
    · exact (h.keep hkeep hsizes).congr hshape.chunks hentry
    · intro hrep
      have hmapped := (hrep.carries k i).mp ⟨hlt, hindex⟩
      rw [hslotOf, hk] at hmapped
      cases hmapped
  -- where the slot stands is known already, the rest follows the callbacks
  have hfollows : Call.Post (fillSlot cb k i) (c, s) (fun _ _ => True)
      (fun _ t => SameShape c t.1 ∧ t.1.reserved = c.reserved ∧
        t.1.touchCounter = c.touchCounter + 1 ∧ (forall j, t.1.slotOf j = c.slotOf j) ∧
        (forall l, l ≠ i -> t.1.slot l = c.slot l) ∧
        (forall j x, st.Stored s j x -> st.Stored t.2 j x) ∧
        forall j l, st.Sized s j l -> st.Sized t.2 j l) := by
    rw [fillSlot, Call.post_bind_iff, onCache, Call.post_modify, Call.post_bind_iff, onStore,
      Call.post_focus_iff]
    refine (st.elemCount hsized).imp ?_ ?_
    · rintro n s1 ⟨rfl, hkeep1, hsizes1⟩
      rw [if_neg (by omega), Call.post_bind_iff, onCache, Call.post_modify, Call.post_bind_iff,
        loadSlot, Call.post_focus_iff]
      rw [← hread] at hstored
      refine (st.loadChunk _ (hsizes1 k _ hsized) (hkeep1 k _ hstored)).imp ?_ ?_
      · intro _ t _
        rw [Call.post_bind_iff, onCache, Call.post_modify, Call.post_bind_iff, Call.post_get,
          Call.post_pure]
        trivial
      · rintro e ⟨y, s2⟩ ⟨_, hkeep2, hsizes2⟩
        have hresize : forall j, ((c.assignSlot i k).resizeBuffer i (X k).length).slotOf j =
            c.slotOf j := slotOf_resizeBuffer (c.assignSlot i k) i (X k).length
        have hlen1 : (c.assignSlot i k).slots.length = c.slots.length :=
          c.slots_length_modifySlot i _
        have hslot1 : forall l, l ≠ i ->
            ((c.assignSlot i k).resizeBuffer i (X k).length).slot l = c.slot l := by
          intro l hl
          unfold resizeBuffer
          split
          · rw [setBuffer, slot_modifySlot _ (hlen1.symm ▸ hi), if_neg hl]
            exact hassign l hl
          · exact hassign l hl
        have hfields : ((c.assignSlot i k).resizeBuffer i (X k).length).capacity = c.capacity ∧
            ((c.assignSlot i k).resizeBuffer i (X k).length).chunkToSlot = c.chunkToSlot ∧
            ((c.assignSlot i k).resizeBuffer i (X k).length).reserved = c.reserved ∧
            ((c.assignSlot i k).resizeBuffer i (X k).length).touchCounter =
              c.touchCounter + 1 := by
          unfold resizeBuffer
          split
          · exact ⟨rfl, rfl, rfl, rfl⟩
          · exact ⟨rfl, rfl, rfl, rfl⟩
        obtain ⟨hcapacity, hchunks, hreserved, hcounter⟩ := hfields
        refine ⟨⟨hcapacity, congrArg List.length hchunks⟩, hreserved, hcounter, hresize, ?_,
          fun j x hj => hkeep2 j x (hkeep1 j x hj), fun j l hj => hsizes2 j l (hsizes1 j l hj)⟩
        intro l hl
        have hlen2 := slots_length_resizeBuffer (c.assignSlot i k) i (X k).length
        change (((c.assignSlot i k).resizeBuffer i (X k).length).setBuffer i y).slot l = c.slot l
        rw [setBuffer, slot_modifySlot _ (by omega), if_neg hl, hslot1 l hl]
    · rintro e s1 ⟨_, hkeep1, hsizes1⟩
      exact ⟨⟨rfl, rfl⟩, rfl, rfl, fun _ => rfl, hassign, hkeep1, hsizes1⟩
  have hstands : Call.Post (fillSlot cb k i) (c, s) (fun _ _ => True)
      (fun _ t => i < t.1.slots.length ∧ (t.1.slot i).chunkIndex = some k) :=
    (post_fillSlot_throws hi k).imp (fun _ _ _ => trivial) fun _ _ he => ⟨he.2.1, he.2.2.1⟩
  refine (hstands.and hfollows).imp (fun _ _ _ => trivial) ?_
  rintro e ⟨c', s'⟩ ⟨⟨hlt, hindex⟩, hshape, hreserved, hcounter, hslotOf, hslot, hkeep, hsizes⟩
  exact habandoned c' s' hshape hreserved hcounter hslotOf hslot hkeep hsizes hlt hindex

/-!
## Acquiring and flushing
-/

theorem acquire_of_some {t : ChunkCache R × σ} {k i : Nat} (hk : k < t.1.chunkToSlot.length)
    (hi : t.1.slotOf k = some i) :
    ChunkCache.acquire cb k t =
      (.ok (t.1.makeSlotHandle i k), (t.1.touchSlot i, t.2)) := by
  rw [ChunkCache.acquire, Call.bind_ok (Call.get_apply t)]
  simp only [show ¬ k ≥ t.1.chunkToSlot.length by omega, if_false]
  rw [show t.1.chunkToSlot.getD k none = t.1.slotOf k from rfl, hi]
  rfl

theorem acquire_of_none {t : ChunkCache R × σ} {k : Nat} (hk : k < t.1.chunkToSlot.length)
    (hnone : t.1.slotOf k = none) :
    ChunkCache.acquire cb k t = (makeRoom cb >>= fun i => fillSlot cb k i) t := by
  rw [ChunkCache.acquire, Call.bind_ok (Call.get_apply t)]
  simp only [show ¬ k ≥ t.1.chunkToSlot.length by omega, if_false]
  rw [show t.1.chunkToSlot.getD k none = t.1.slotOf k from rfl, hnone]

theorem fillsRoom_of_acquired {t t' : ChunkCache R × σ} {k : Nat} {handle : SlotHandle}
    (hk : k < t.1.chunkToSlot.length) (hrun : ChunkCache.acquire cb k t = (.ok handle, t')) :
    FillsRoom cb k t := by
  intro hnone i t1 hmake
  rw [acquire_of_none hk hnone, Call.bind_ok hmake] at hrun
  exact ⟨handle, t', hrun⟩

theorem acquire_throws {t t' : ChunkCache R × σ} {k : Nat} {e : Exc}
    (hk : k < t.1.chunkToSlot.length) (hrun : ChunkCache.acquire cb k t = (.error e, t')) :
    t.1.slotOf k = none ∧ (makeRoom cb t = (.error e, t') ∨
      exists i t1, makeRoom cb t = (.ok i, t1) ∧ fillSlot cb k i t1 = (.error e, t')) := by
  cases hslot : t.1.slotOf k with
  | some i =>
      rw [acquire_of_some hk hslot] at hrun
      cases hrun
  | none =>
      refine ⟨rfl, ?_⟩
      rw [acquire_of_none hk hslot, Call.bind_apply] at hrun
      rcases hmake : makeRoom cb t with ⟨r, t1⟩
      rw [hmake] at hrun
      cases r with
      | ok i => exact Or.inr ⟨i, t1, rfl, hrun⟩
      | error e' =>
          cases hrun
          exact Or.inl rfl

omit [Zero R] in
theorem isDirty_congr {c c' : ChunkCache R} {k : Nat} (h : c'.entry k = c.entry k) :
    c'.isDirty k = c.isDirty k := by
  rw [isDirty, isDirty, h]

def StoredClose (close : List R -> List R -> Prop) (c : ChunkCache R) (X S : Nat -> List R) :
    Prop :=
  forall k, k < c.chunkToSlot.length -> c.isDirty k = false -> close (S k) (X k)

omit [Zero R] in
theorem post_flushAll_settled {close : List R -> List R -> Prop}
    (hround : forall x, close (st.round x) x) {c : ChunkCache R} {s : σ} {X S : Nat -> List R}
    (hc : c.Coherent none) (h : Content st c s X S) (hsettled : StoredClose close c X S) :
    Call.Post (flushAll cb) (c, s)
      (fun _ t => FlushedTo c t.1 ∧ exists S', Content st t.1 t.2 X S' ∧ StoredClose close t.1 X S')
      (fun _ t => FlushedTo c t.1 ∧ exists S', Content st t.1 t.2 X S' ∧
        StoredClose close t.1 X S') := by
  rw [flushAll, Call.post_bind_iff, Call.post_get]
  have hstart : FlushedTo c c := ⟨hc, SameShape.refl c, rfl, rfl, rfl, fun _ => rfl, fun _ => rfl⟩
  refine Call.post_forM_range
    (fun _ (t : ChunkCache R × σ) => FlushedTo c t.1 ∧ exists S', Content st t.1 t.2 X S' ∧
      StoredClose close t.1 X S') ?_ ⟨hstart, S, h, hsettled⟩
  rintro i ⟨c1, s1⟩ hi ⟨hflushed, S1, h1, hsettled1⟩
  have hi1 : i < c1.slots.length := hflushed.slots ▸ hi
  obtain ⟨k, _, hk⟩ := hflushed.coherent.mapped hi1 (by simp)
  refine (post_flushSlot hflushed.coherent h1 hk).imp ?_ ?_
  · rintro _ ⟨c2, s2⟩ ⟨hc2, h2⟩
    simp only at hc2
    subst hc2
    refine ⟨hflushed.step hi1, _, h2, ?_⟩
    intro j hj hclean
    by_cases hjk : j = k
    · subst hjk
      rw [storedAfterFlush, Function.update_self]
      cases hdirty : c1.isDirty j with
      | true => exact hround (X j)
      | false => exact hsettled1 j hj hdirty
    · rw [storedAfterFlush, Function.update_of_ne hjk]
      refine hsettled1 j hj ?_
      rw [← hclean]
      refine (isDirty_congr ?_).symm
      rw [entry_modifySlot hflushed.coherent hk, if_neg hjk]
  · rintro _ ⟨c2, s2⟩ ⟨_, hc2, h2⟩
    simp only at hc2
    subst hc2
    exact ⟨hflushed, S1, h2, hsettled1⟩

end ChunkCache

namespace CompressedStateBackend

variable {R B : Type} [Field R] {P : CodecPolicy R B}

/-!
## Tolerances
-/

/-- A store over the chunks of a codec, and what counts as close to a chunk. -/
structure Tolerance (P : CodecPolicy R B) where
  store : Nat -> ChunkStore (ChunkVector.callbacks P)
  sized : forall count, (store count).Sized = ChunkVector.HasSize count
  Close : List R -> List R -> Prop
  refl : forall x, Close x x
  round : forall count x, Close ((store count).round x) x

/-- At most one chunk of the vector changes, within the tolerance. -/
def Tolerance.Moved (T : Tolerance P) (x x' : List R) : Prop :=
  x'.length = x.length ∧ exists w,
    (forall k, k ≠ w -> chunkOf P.chunkStates x' k = chunkOf P.chunkStates x k) ∧
    T.Close (chunkOf P.chunkStates x' w) (chunkOf P.chunkStates x w)

omit [Field R] in
theorem Tolerance.Moved.refl (T : Tolerance P) (x : List R) : T.Moved x x :=
  ⟨rfl, 0, fun _ _ => rfl, T.refl _⟩

/-- How far a vector may have drifted from another one after so many acquisitions. -/
structure Drift (T : Tolerance P) (n : Nat) where
  Within : Nat -> List R -> List R -> Prop
  length : forall {j x v}, Within j x v -> v.length = 2 * 2 ^ n
  moved : forall {j x x' v}, x.length = 2 * 2 ^ n -> Within j x v -> T.Moved x x' ->
    Within (j + 1) x' v

/-- Size fields, layout and reserved slots of a backend initialised for `n` qubits. -/
structure Framed (b : CompressedStateBackend P) (n : Nat) : Prop where
  qubits : n ≤ 31
  numQubits : b.numQubits = n
  numStates : b.numStates = 2 ^ n
  layout : b.layout.Exact (2 ^ n) P.chunkStates
  chunks : b.store.chunks.length = b.layout.chunkCount
  cacheChunks : b.cache.chunkToSlot.length = b.layout.chunkCount
  capacity : b.cache.capacity = min P.cacheSlots b.layout.chunkCount
  roomy : b.Roomy

omit [Field R] in
theorem Framed.shaped {b : CompressedStateBackend P} {n : Nat} (h : b.Framed n)
    (hc : b.cache.Coherent none) : b.Shaped n :=
  ⟨h.qubits, h.numQubits, h.numStates, h.layout, h.chunks, h.cacheChunks, h.capacity, hc⟩

omit [Field R] in
theorem Framed.recached {b : CompressedStateBackend P} {n : Nat} (h : b.Framed n)
    {c : ChunkCache R} {s : ChunkVector P} (hshape : SameShape b.cache c)
    (hroomy : c.capacity ≤ c.reserved) (hs : s.chunks.length = b.layout.chunkCount) :
    Framed { b with cache := c, store := s } n :=
  ⟨h.qubits, h.numQubits, h.numStates, h.layout, hs, hshape.chunks.trans h.cacheChunks,
    hshape.capacity.trans h.capacity, hroomy⟩

/-- Every chunk `k` reads as `X k`, and the clean ones are stored close to that. -/
structure Retains (T : Tolerance P) (n : Nat) (X S : Nat -> List R)
    (b : CompressedStateBackend P) : Prop where
  framed : b.Framed n
  length : forall k, (X k).length = 2 * b.layout.statesIn k
  content : Content (T.store b.layout.chunkCount) b.cache b.store X S
  settled : StoredClose T.Close b.cache X S

/-- The chunks of the backend read as the chunks of `x`. -/
structure ReadsAs (T : Tolerance P) (n : Nat) (x : List R) (b : CompressedStateBackend P) :
    Prop where
  length : x.length = 2 * 2 ^ n
  retains : exists S, Retains T n (chunkOf P.chunkStates x) S b

/-- The backend reads as a vector that has drifted from `v`. -/
def Carries {T : Tolerance P} {n : Nat} (D : Drift T n) (v : List R)
    (b : CompressedStateBackend P) : Prop :=
  b.cache.Coherent none ∧ exists x, ReadsAs T n x b ∧ D.Within b.cache.touchCounter x v

/-- The same after an exception, which may have left the cache corrupt. -/
def Leaves {T : Tolerance P} {n : Nat} (D : Drift T n) (v : List R) (depth : Nat)
    (b : CompressedStateBackend P) : Prop :=
  (b.cache.Represented -> b.cache.Coherent none) ∧ b.batchDepth = depth ∧
    exists x, ReadsAs T n x b ∧ D.Within b.cache.touchCounter x v

section Chunks

variable {layout : ChunkLayout} {N k : Nat} {X : Nat -> List R}

omit [Field R] in
theorem length_flatMap_chunks (h : layout.Exact N k)
    (hX : forall c, (X c).length = 2 * layout.statesIn c) :
    ((List.range layout.chunkCount).flatMap X).length = 2 * N := by
  rw [List.length_flatMap, ← sum_statesIn h]
  congr 1
  exact List.map_congr_left fun c _ => hX c

omit [Field R] in
theorem exists_chunkOf_eq (h : layout.Exact N k)
    (hX : forall c, (X c).length = 2 * layout.statesIn c) :
    exists x : List R, x.length = 2 * N ∧ chunkOf k x = X := by
  have hlength := length_flatMap_chunks h hX
  refine ⟨_, hlength, ?_⟩
  funext c
  by_cases hc : c < layout.chunkCount
  · exact chunkOf_flatMap h (fun c _ => hX c) hc
  · have hend := mt (h.lt_chunkCount_iff c).mpr hc
    have hnone : 2 * layout.statesIn c = 0 := by
      rw [h.statesIn_eq]
      omega
    have hleft := length_chunkOf_eq h hlength c
    rw [hnone] at hleft
    rw [List.eq_nil_of_length_eq_zero hleft,
      List.eq_nil_of_length_eq_zero ((hX c).trans hnone)]

end Chunks

section Access

variable {T : Tolerance P} {n : Nat} {D : Drift T n} {v : List R} {b : CompressedStateBackend P}

section

omit [Field R]

theorem Carries.length (h : Carries D v b) : v.length = 2 * 2 ^ n := by
  rcases h with ⟨_, x, _, hwithin⟩
  exact D.length hwithin

theorem Carries.leaves (h : Carries D v b) : Leaves D v b.batchDepth b :=
  ⟨fun _ => h.1, rfl, h.2⟩

theorem Leaves.carries {depth : Nat} (h : Leaves D v depth b) (hrep : b.cache.Represented) :
    Carries D v b :=
  ⟨h.1 hrep, h.2.2⟩

theorem SameFrame.leaves {b1 b2 : CompressedStateBackend P} (hframe : SameFrame b b1)
    (h : Leaves D v b1.batchDepth b2) : Leaves D v b.batchDepth b2 := by
  rw [← hframe.batchDepth]
  exact h

theorem ReadsAs.framed {x : List R} (h : ReadsAs T n x b) : b.Framed n := by
  rcases h.retains with ⟨S, hretains⟩
  exact hretains.framed

theorem Carries.shaped (h : Carries D v b) : b.Shaped n := by
  rcases h with ⟨hc, x, hx, _⟩
  exact hx.framed.shaped hc

theorem Carries.roomy (h : Carries D v b) : b.Roomy := by
  rcases h with ⟨_, x, hx, _⟩
  exact hx.framed.roomy

theorem Retains.afterRoom {x : List R} {S : Nat -> List R} {c : ChunkCache R} {s : ChunkVector P}
    {victim : Option Nat} (h : Retains T n (chunkOf P.chunkStates x) S b)
    (hx : x.length = 2 * 2 ^ n)
    (hafter : AfterRoom (T.store b.layout.chunkCount) b.cache c s (chunkOf P.chunkStates x) S
      victim)
    (hshape : SameShape b.cache c) (hroomy : c.capacity ≤ c.reserved)
    (hcached : forall w, victim = some w -> b.cache.slotOf w ≠ none)
    (hdirty : forall j, victim ≠ some j -> c.isDirty j = b.cache.isDirty j) :
    exists x' S', x'.length = 2 * 2 ^ n ∧ T.Moved x x' ∧
      Retains T n (chunkOf P.chunkStates x') S' { b with cache := c, store := s } := by
  have hlayout := h.framed.layout
  have hchunks : c.chunkToSlot.length = b.layout.chunkCount :=
    hshape.chunks.trans h.framed.cacheChunks
  have hsize : forall X' S', Content (T.store b.layout.chunkCount) c s X' S' ->
      s.chunks.length = b.layout.chunkCount := by
    intro X' S' hcontent
    have hsized := hcontent.sized 0 (hchunks ▸ hlayout.chunkCount_pos)
    rw [T.sized] at hsized
    exact hsized.1
  cases victim with
  | none =>
      refine ⟨x, S, hx, Tolerance.Moved.refl T x, ?_⟩
      exact
        { framed := h.framed.recached hshape hroomy (hsize _ _ hafter)
          length := h.length
          content := hafter
          settled := by
            intro k hk hclean
            rw [hdirty k (by simp)] at hclean
            exact h.settled k (hshape.chunks ▸ hk) hclean }
  | some w =>
      have hclose : b.cache.isDirty w = false -> T.Close (S w) (chunkOf P.chunkStates x w) := by
        intro hclean
        refine h.settled w ?_ hclean
        cases hw : b.cache.slotOf w with
        | none => exact absurd hw (hcached w rfl)
        | some i => exact b.cache.slotOf_lt hw
      have hlength : forall k,
          (readAfterEvict (T.store b.layout.chunkCount) b.cache (chunkOf P.chunkStates x) S w
            k).length = 2 * b.layout.statesIn k := by
        intro k
        rw [length_readAfterEvict h.content.length, h.length]
      -- the vector whose chunks are what is read now
      obtain ⟨x', hx', hchunk⟩ := exists_chunkOf_eq hlayout hlength
      have hstored : Content (T.store b.layout.chunkCount) c s (chunkOf P.chunkStates x')
          (storedAfterFlush (T.store b.layout.chunkCount) b.cache (chunkOf P.chunkStates x) S w) :=
        hchunk ▸ hafter
      refine ⟨x', storedAfterFlush (T.store b.layout.chunkCount) b.cache
        (chunkOf P.chunkStates x) S w, hx', ⟨hx'.trans hx.symm, w, ?_, ?_⟩, ?_⟩
      · intro k hk
        rw [hchunk, readAfterEvict, Function.update_of_ne hk]
      · rw [hchunk, readAfterEvict, Function.update_self, storedAfterFlush, Function.update_self]
        cases hw : b.cache.isDirty w with
        | true => exact T.round b.layout.chunkCount (chunkOf P.chunkStates x w)
        | false => exact hclose hw
      · exact
          { framed := h.framed.recached hshape hroomy (hsize _ _ hafter)
            length := length_chunkOf_eq hlayout hx'
            content := hstored
            settled := by
              intro k hk hclean
              rw [hchunk]
              by_cases hkw : k = w
              · rw [hkw, readAfterEvict, Function.update_self]
                exact T.refl _
              · rw [hdirty k (fun heq => hkw (Option.some.inj heq).symm)] at hclean
                rw [readAfterEvict, Function.update_of_ne hkw, storedAfterFlush,
                  Function.update_of_ne hkw]
                exact h.settled k (hshape.chunks ▸ hk) hclean }

end

/-- The outcome of acquiring chunk `k` in a backend that reads as drifted from `v`. -/
structure Obtains (D : Drift T n) (v : List R) (b : CompressedStateBackend P) (k : Nat)
    (handle : SlotHandle) (b' : CompressedStateBackend P) : Prop where
  carries : Carries D v b'
  frame : SameFrame b b'
  acquired : exists victim, Acquired b.cache b'.cache k handle victim

theorem Carries.obtains (h : Carries D v b) {k : Nat} {handle : SlotHandle} {c : ChunkCache R}
    {s : ChunkVector P} (hk : k < b.layout.chunkCount)
    (hrun : ChunkCache.acquire (ChunkVector.callbacks P) k (b.cache, b.store) =
      (.ok handle, (c, s))) :
    Obtains D v b k handle { b with cache := c, store := s } := by
  rcases h with ⟨hc, x, ⟨hx, S, hretains⟩, hwithin⟩
  have hkey : k < b.cache.chunkToSlot.length := hretains.framed.cacheChunks ▸ hk
  have hpost := post_acquire hc hretains.content hkey fun _ => fillsRoom_of_acquired hkey hrun
  unfold Call.Post at hpost
  rw [hrun] at hpost
  rcases hpost with ⟨victim, hacq, _, hafter⟩
  have hroomy : c.capacity ≤ c.reserved := by
    rw [hacq.reserved, if_neg (hretains.framed.roomy.not_moves k), hacq.shape.capacity]
    exact hretains.framed.roomy
  have hdirty : forall j, victim ≠ some j -> c.isDirty j = b.cache.isDirty j := by
    intro j hj
    by_cases hjk : j = k
    · rw [hjk, isDirty, hacq.entrySelf]
      rfl
    · exact isDirty_congr (by rw [hacq.entry hjk, if_neg hj])
  have hcached : forall w, victim = some w -> b.cache.slotOf w ≠ none := by
    intro w hw
    rw [(hacq.evicts w hw).2.2]
    simp
  rcases hretains.afterRoom hx hafter hacq.shape hroomy hcached hdirty with
    ⟨x', S', hx', hmoved, hretains'⟩
  refine ⟨⟨hacq.coherent, x', ⟨hx', S', hretains'⟩, ?_⟩, ⟨rfl, rfl, rfl, rfl, fun _ => hroomy⟩,
    victim, hacq⟩
  change D.Within c.touchCounter x' v
  rw [hacq.counter]
  exact D.moved hx hwithin hmoved

/-- Every chunk still reads as before or has moved once when an acquisition throws. -/
theorem Carries.abandons (h : Carries D v b) {k : Nat} {e : Exc} {c : ChunkCache R}
    {s : ChunkVector P} (hk : k < b.layout.chunkCount)
    (hrun : ChunkCache.acquire (ChunkVector.callbacks P) k (b.cache, b.store) =
      (.error e, (c, s))) : Leaves D v b.batchDepth { b with cache := c, store := s } := by
  rcases h with ⟨hc, x, ⟨hx, S, hretains⟩, hwithin⟩
  have hkey : k < b.cache.chunkToSlot.length := hretains.framed.cacheChunks ▸ hk
  rcases acquire_throws hkey hrun with ⟨hnone, hcause⟩
  have hmake := post_makeRoom hc hretains.content
  unfold Call.Post at hmake
  rcases hcause with hroom | ⟨i, ⟨c1, s1⟩, hroom, hfill⟩
  · rw [hroom] at hmake
    rcases hmake with ⟨_, hsame, hcontent⟩
    simp only at hsame
    subst hsame
    have hsized := hcontent.sized k hkey
    rw [T.sized] at hsized
    refine ⟨fun _ => hc, rfl, x, ⟨hx, S, ?_⟩, hwithin⟩
    exact
      { framed := hretains.framed.recached ⟨rfl, rfl⟩ hretains.framed.roomy hsized.1
        length := hretains.length
        content := hcontent
        settled := hretains.settled }
  · rw [hroom] at hmake
    rcases hmake with ⟨victim, hmade, hafter⟩
    have hnone1 : c1.slotOf k = none := by
      rw [hmade.slotOf, hnone, ite_self]
    have hfree : forall j, c1.slotOf j ≠ some i :=
      fun j hj => (hmade.coherent.carried hj).2.2 rfl
    have hkey1 : k < c1.chunkToSlot.length := hmade.shape.chunks ▸ hkey
    have habandoned : exists X1 S1, Abandoned
        (T.store b.layout.chunkCount) c1 X1 S1 (c, s) ∧
        AfterRoom (T.store b.layout.chunkCount) b.cache c s (chunkOf P.chunkStates x) S victim := by
      cases victim with
      | none =>
          have hpost := post_fillSlot_fails hmade.lt hfree hkey1 hafter hnone1
          unfold Call.Post at hpost
          rw [hfill] at hpost
          exact ⟨_, _, hpost, hpost.content⟩
      | some w =>
          have hpost := post_fillSlot_fails hmade.lt hfree hkey1 hafter hnone1
          unfold Call.Post at hpost
          rw [hfill] at hpost
          exact ⟨_, _, hpost, hpost.content⟩
    rcases habandoned with ⟨X1, S1, habandoned, hafter'⟩
    have hmoves : ¬ (b.cache.slots.length < b.cache.capacity ∧
        b.cache.reserved ≤ b.cache.slots.length) := by
      have hroomy : b.cache.capacity ≤ b.cache.reserved := hretains.framed.roomy
      omega
    have hroomy : c.capacity ≤ c.reserved := by
      rw [habandoned.reserved, hmade.reserved, if_neg hmoves, habandoned.shape.capacity,
        hmade.shape.capacity]
      exact hretains.framed.roomy
    have hdirty : forall j, victim ≠ some j -> c.isDirty j = b.cache.isDirty j := by
      intro j hj
      exact isDirty_congr (by rw [habandoned.entry, hmade.entry, if_neg hj])
    have hcached : forall w, victim = some w -> b.cache.slotOf w ≠ none := by
      intro w hw
      rw [(hmade.full w hw).2]
      simp
    rcases hretains.afterRoom hx hafter' (hmade.shape.trans habandoned.shape) hroomy hcached
      hdirty with ⟨x', S', hx', hmoved, hretains'⟩
    refine ⟨fun hrep => absurd hrep habandoned.corrupt, rfl, x', ⟨hx', S', hretains'⟩, ?_⟩
    change D.Within c.touchCounter x' v
    rw [habandoned.counter, hmade.counter]
    exact D.moved hx hwithin hmoved

theorem post_acquireChunk_obtains (h : Carries D v b) {k : Nat} (hk : k < b.layout.chunkCount) :
    Call.Post (acquireChunk k) b (fun handle b' => Obtains D v b k handle b')
      (fun _ b' => Leaves D v b.batchDepth b') := by
  rw [acquireChunk, onCached, Call.post_focus_iff]
  unfold Call.Post
  rcases hrun : ChunkCache.acquire (ChunkVector.callbacks P) k (b.cache, b.store) with ⟨r, c, s⟩
  cases r with
  | ok handle => exact h.obtains hk hrun
  | error e => exact h.abandons hk hrun

theorem post_acquireAmplitudeRef_obtains (h : Carries D v b) {s : Nat} (hs : s < 2 ^ n) :
    Call.Post (acquireAmplitudeRef s) b
      (fun ref b' => Obtains D v b (s / P.chunkStates) ref.slot b' ∧
        ref.elemOffset = 2 * (s % P.chunkStates))
      (fun _ b' => Leaves D v b.batchDepth b') := by
  have href := h.shaped.layout.stateRef_eq (s := s)
  rw [acquireAmplitudeRef, Call.post_bind_iff, Call.post_get]
  simp only [href]
  rw [Call.post_bind_iff]
  refine (post_acquireChunk_obtains h (h.shaped.layout.div_lt_chunkCount hs)).mono ?_
  intro slot b' hacq
  exact ⟨hacq, rfl⟩

omit [Field R] in
theorem Obtains.liveHandle {k : Nat} {handle : SlotHandle} {b' : CompressedStateBackend P}
    (h : Obtains D v b k handle b') : LiveHandle b' k handle := by
  rcases h.acquired with ⟨_, hacq⟩
  exact ⟨hacq.chunkIndex, hacq.isLive, hacq.denotes⟩

omit [Field R] in
theorem Obtains.second {j k : Nat} {first second : SlotHandle}
    {b1 b2 : CompressedStateBackend P} (h1 : Obtains D v b j first b1)
    (h2 : Obtains D v b1 k second b2) (hb : Carries D v b) (hj : j < b.layout.chunkCount)
    (hk : k < b.layout.chunkCount) : LiveHandle b2 j first := by
  have hshaped := hb.shaped
  rcases h1.acquired with ⟨_, hacq1⟩
  rcases h2.acquired with ⟨_, hacq2⟩
  have hslots := P.cacheSlots_ge_two
  have hcapacity := hshaped.capacity
  exact ⟨hacq1.chunkIndex, hacq1.second_live hacq2 (by omega),
    (hacq1.second_denotes_iff hacq2).mpr (hb.roomy.secondStays j k)⟩

/-!
## Flushing
-/

omit [Field R] in
theorem post_flushCache_carries (h : Carries D v b) :
    Call.Post flushCache b (fun _ b' => Carries D v b' ∧ SameFrame b b')
      (fun _ b' => Leaves D v b.batchDepth b') := by
  rcases h with ⟨hc, x, ⟨hx, S, hretains⟩, hwithin⟩
  have hflushed : forall c s, FlushedTo b.cache c ->
      (exists S', Content (T.store b.layout.chunkCount) c s (chunkOf P.chunkStates x) S' ∧
        StoredClose T.Close c (chunkOf P.chunkStates x) S') ->
      c.touchCounter = b.cache.touchCounter ->
      Carries D v { b with cache := c, store := s } ∧
        SameFrame b { b with cache := c, store := s } := by
    rintro c s hflushed ⟨S', hcontent, hsettled⟩ hcounter
    have hroomy : c.capacity ≤ c.reserved := by
      rw [hflushed.shape.capacity, hflushed.reserved]
      exact hretains.framed.roomy
    have hsized := hcontent.sized 0 (by
      rw [hflushed.shape.chunks, hretains.framed.cacheChunks]
      exact hretains.framed.layout.chunkCount_pos)
    rw [T.sized] at hsized
    refine ⟨⟨hflushed.coherent, x, ⟨hx, S', ?_⟩, ?_⟩, rfl, rfl, rfl, rfl, fun _ => hroomy⟩
    · exact
        { framed := hretains.framed.recached hflushed.shape hroomy hsized.1
          length := hretains.length
          content := hcontent
          settled := hsettled }
    · change D.Within c.touchCounter x v
      rw [hcounter]
      exact hwithin
  rw [flushCache, onCached, Call.post_focus_iff]
  have hcounter := (keeps_touches_flushAll (ChunkVector.callbacks P)).post
    (s := (b.cache, b.store)) rfl
  refine ((post_flushAll_settled (T.round b.layout.chunkCount) hc hretains.content
    hretains.settled).and hcounter).imp ?_ ?_
  · rintro _ ⟨c, s⟩ ⟨⟨hto, hS⟩, htouches⟩
    exact hflushed c s hto hS (congrArg Prod.snd htouches)
  · rintro _ ⟨c, s⟩ ⟨⟨hto, hS⟩, htouches⟩
    exact (hflushed c s hto hS (congrArg Prod.snd htouches)).1.leaves

omit [Field R] in
theorem post_flushCacheIfNeeded_carries (h : Carries D v b) :
    Call.Post flushCacheIfNeeded b (fun _ b' => Carries D v b' ∧ SameFrame b b')
      (fun _ b' => Leaves D v b.batchDepth b') := by
  rw [flushCacheIfNeeded, Call.post_bind_iff, Call.post_get]
  split
  · exact post_flushCache_carries h
  · exact ⟨h, SameFrame.refl b⟩

end Access

end CompressedStateBackend

end Tmfqs
