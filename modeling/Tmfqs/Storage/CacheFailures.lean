import Tmfqs.Library.Frame
import Tmfqs.Storage.FailingCodecs

/-!
# Failing callbacks of the chunk cache

What a run of cache operations leaves of the written chunks when the callbacks may
throw.  A store that fails is harmless.  A chunk that cannot be brought in once a
slot is free for it leaves a slot that names the chunk while the reverse map does not.
-/

namespace Tmfqs

open Library

variable {R σ : Type}

/-- The uses of a cache: a write goes through a handle and marks the slot dirty. -/
inductive CacheOp (R : Type) where
  | acquire (chunkIndex : Nat)
  | write (handle : SlotHandle) (f : List R -> List R)
  | flushAll
  | copy

namespace CacheOp

/-- The cache and the backend state after an operation, also when it throws. -/
def apply [Zero R] (cb : ChunkCallbacks R σ) :
    CacheOp R -> ChunkCache R × σ -> ChunkCache R × σ
  | acquire k, t => (ChunkCache.acquire cb k t).2
  | write handle f, t => ((t.1.writeData handle f).setDirty handle, t.2)
  | flushAll, t => (ChunkCache.flushAll cb t).2
  | copy, t => (t.1.copy, t.2)

/-- What was last written to each chunk, where `X` says it for the state before. -/
def written : CacheOp R -> (Nat -> List R) -> Nat -> List R
  | write handle f, X => Function.update X handle.chunkIndex (f (X handle.chunkIndex))
  | _, X => X

/-- A write goes through a handle that still denotes its slot and keeps the chunk size. -/
def Usable : CacheOp R -> ChunkCache R × σ -> Prop
  | write handle f, t =>
      t.1.Live handle ∧ t.1.denotesDirty handle ∧ forall x, (f x).length = x.length
  | _, _ => True

end CacheOp

/-- Every operation of a run meets `Q` in the state it starts from. -/
def EveryStep [Zero R] (cb : ChunkCallbacks R σ) (Q : CacheOp R -> ChunkCache R × σ -> Prop) :
    List (CacheOp R) -> ChunkCache R × σ -> Prop
  | [], _ => True
  | op :: ops, t => Q op t ∧ EveryStep cb Q ops (op.apply cb t)

namespace ChunkCache

/-!
## What the claims of a cache are
-/

/-- A slot carries a chunk exactly when the reverse map names it for the chunk. -/
structure Represented (c : ChunkCache R) : Prop where
  carries : forall k i,
    i < c.slots.length ∧ (c.slot i).chunkIndex = some k <-> c.slotOf k = some i
  once : forall k i j, i < c.slots.length -> j < c.slots.length ->
    (c.slot i).chunkIndex = some k -> (c.slot j).chunkIndex = some k -> i = j

variable [Zero R] {cb : ChunkCallbacks R σ}

/-- Every chunk is found as `X` says, in the cache or else in the store. -/
def Yields (st : ChunkStore cb) (X : Nat -> List R) (t : ChunkCache R × σ) : Prop :=
  forall k, k < t.1.chunkToSlot.length ->
    match t.1.findBuffer k with
    | some buffer => buffer = X k
    | none => st.Stored t.2 k (X k)

/-- The cache is not corrupt and has lost nothing of what was written. -/
def Intact (st : ChunkStore cb) (X : Nat -> List R) (t : ChunkCache R × σ) : Prop :=
  t.1.Represented ∧ Yields st X t

/-- Every state of a run is intact for what has been written up to it. -/
def StaysIntact (st : ChunkStore cb) :
    List (CacheOp R) -> (Nat -> List R) -> ChunkCache R × σ -> Prop
  | [], X, t => Intact st X t
  | op :: ops, X, t => Intact st X t ∧ StaysIntact st ops (op.written X) (op.apply cb t)

/-- The callbacks bring chunk `k` into a slot with the given buffer. -/
def Loads (cb : ChunkCallbacks R σ) (k : Nat) (buffer : List R) (s : σ) : Prop :=
  exists n s1, cb.elemCount k s = (.ok n, s1) ∧ n ≠ 0 ∧
    exists t, cb.loadChunk k n (if buffer.length ≠ n then List.replicate n 0 else buffer, s1) =
      (.ok (), t)

/-- No callback for the acquired chunk fails once a slot is free for it. -/
def BringsIn (cb : ChunkCallbacks R σ) : CacheOp R -> ChunkCache R × σ -> Prop
  | .acquire k, t => k < t.1.chunkToSlot.length -> t.1.slotOf k = none ->
      forall i t1, makeRoom cb t = (.ok i, t1) -> Loads cb k (t1.1.slot i).buffer t1.2
  | _, _ => True

/-!
## Bringing a chunk in
-/

theorem slot_resizeBuffer {c : ChunkCache R} {i : Nat} (hi : i < c.slots.length) (n : Nat) :
    (c.resizeBuffer i n).slot i =
      { c.slot i with
        buffer := if (c.slot i).buffer.length ≠ n then List.replicate n 0 else (c.slot i).buffer }
    := by
  unfold resizeBuffer
  by_cases hn : (c.slot i).buffer.length ≠ n
  · rw [if_pos hn, if_pos hn, setBuffer, c.slot_modifySlot hi, if_pos rfl]
  · rw [if_neg hn, if_neg hn]

theorem slots_length_resizeBuffer (c : ChunkCache R) (i n : Nat) :
    (c.resizeBuffer i n).slots.length = c.slots.length := by
  unfold resizeBuffer
  split
  · exact c.slots_length_modifySlot i _
  · rfl

theorem slotOf_resizeBuffer (c : ChunkCache R) (i n k : Nat) :
    (c.resizeBuffer i n).slotOf k = c.slotOf k := by
  unfold resizeBuffer
  split
  · rfl
  · rfl

/-- A chunk that cannot be brought in stays in the slot without being mapped to it. -/
theorem post_fillSlot_throws {c : ChunkCache R} {s : σ} {i : Nat} (hi : i < c.slots.length)
    (k : Nat) :
    Call.Post (fillSlot cb k i) (c, s)
      (fun _ _ => Loads cb k (c.slot i).buffer s)
      (fun _ t => ¬ Loads cb k (c.slot i).buffer s ∧ i < t.1.slots.length ∧
        (t.1.slot i).chunkIndex = some k ∧ t.1.slotOf k = c.slotOf k) := by
  have hassign : (c.assignSlot i k).slot i =
      { c.slot i with
        chunkIndex := some k
        dirty := false
        touch := c.touchCounter + 1 } := by
    have hmod := c.slot_modifySlot hi (fun slot =>
      { slot with
        chunkIndex := some k
        dirty := false
        touch := c.touchCounter + 1 }) i
    rw [if_pos rfl] at hmod
    exact hmod
  have hlen : (c.assignSlot i k).slots.length = c.slots.length := c.slots_length_modifySlot i _
  rw [fillSlot, Call.post_bind_iff, onCache, Call.post_modify, Call.post_bind_iff, onStore,
    Call.post_focus_iff]
  unfold Call.Post
  rcases hcount : cb.elemCount k s with ⟨r, s1⟩
  cases r with
  | error e =>
      refine ⟨?_, hlen.symm ▸ hi, by rw [hassign], rfl⟩
      rintro ⟨n, s2, heq, _⟩
      rw [hcount] at heq
      cases heq
  | ok n =>
      change Call.Post _ _ _ _
      by_cases hzero : n = 0
      · rw [if_pos hzero]
        refine ⟨?_, hlen.symm ▸ hi, by rw [hassign], rfl⟩
        rintro ⟨m, s2, heq, hm, _⟩
        rw [hcount] at heq
        cases heq
        exact hm hzero
      · have hi1 : i < (c.assignSlot i k).slots.length := hlen.symm ▸ hi
        have hslot := slot_resizeBuffer hi1 n
        have hlen2 := slots_length_resizeBuffer (c.assignSlot i k) i n
        have hi2 : i < ((c.assignSlot i k).resizeBuffer i n).slots.length := by
          rw [hlen2]
          exact hi1
        rw [hassign] at hslot
        rw [if_neg hzero, Call.post_bind_iff, onCache, Call.post_modify, Call.post_bind_iff,
          loadSlot, Call.post_focus_iff]
        simp only [hslot]
        unfold Call.Post
        rcases hload : cb.loadChunk k n (if (c.slot i).buffer.length ≠ n then List.replicate n 0
          else (c.slot i).buffer, s1) with ⟨r, t⟩
        cases r with
        | error e =>
            refine ⟨?_, ?_, ?_, ?_⟩
            · rintro ⟨m, s2, heq, _, t', hok⟩
              rw [hcount] at heq
              cases heq
              rw [hload] at hok
              cases hok
            · rw [setBuffer, slots_length_modifySlot]
              exact hi2
            · rw [setBuffer, slot_modifySlot _ hi2, if_pos rfl, hslot]
            · exact slotOf_resizeBuffer (c.assignSlot i k) i n k
        | ok u => exact ⟨n, s1, hcount, hzero, t, hload⟩

theorem fillsRoom_of_bringsIn {k : Nat} {t : ChunkCache R × σ} {X : Nat -> List R}
    {st : ChunkStore cb} (hc : t.1.Coherent none) (h : Content st t.1 t.2 X X)
    (hk : k < t.1.chunkToSlot.length) (hbrings : BringsIn cb (.acquire k) t) :
    FillsRoom cb k t := by
  intro hnone i t1 hrun
  have hmake := post_makeRoom hc h
  unfold Call.Post at hmake
  rw [hrun] at hmake
  obtain ⟨victim, hroom, _⟩ := hmake
  have hpost := @post_fillSlot_throws _ _ _ cb t1.1 t1.2 i hroom.lt k
  unfold Call.Post at hpost
  rcases hfill : fillSlot cb k i (t1.1, t1.2) with ⟨r, t2⟩
  rw [hfill] at hpost
  cases r with
  | ok handle => exact ⟨handle, t2, rfl⟩
  | error e => exact absurd (hbrings hk hnone i t1 hrun) hpost.1

/-!
## What one operation keeps
-/

/-- A coherent cache in which `X` is read and, where a slot is clean, stored. -/
def Whole (st : ChunkStore cb) (X : Nat -> List R) (t : ChunkCache R × σ) : Prop :=
  t.1.Coherent none ∧ Content st t.1 t.2 X X

variable {st : ChunkStore cb} {X : Nat -> List R} {t : ChunkCache R × σ}

section

omit [Zero R]

theorem Coherent.represented {c : ChunkCache R} (h : c.Coherent none) : c.Represented := by
  have hcarries : forall k i,
      i < c.slots.length ∧ (c.slot i).chunkIndex = some k <-> c.slotOf k = some i := by
    intro k i
    constructor
    · rintro ⟨hi, hindex⟩
      obtain ⟨j, hj, hslot⟩ := h.mapped hi (by simp)
      rw [hindex] at hj
      cases hj
      exact hslot
    · intro hslot
      obtain ⟨hi, hindex, _⟩ := h.carried hslot
      exact ⟨hi, hindex⟩
  refine ⟨hcarries, ?_⟩
  intro k i j hi hj hik hjk
  have hslot := (hcarries k i).mp ⟨hi, hik⟩
  rw [(hcarries k j).mp ⟨hj, hjk⟩] at hslot
  exact (Option.some.inj hslot).symm

theorem Content.yields {c : ChunkCache R} {s : σ} (h : Content st c s X X) :
    Yields st X (c, s) := by
  intro k hk
  change match c.findBuffer k with
    | some buffer => buffer = X k
    | none => st.Stored s k (X k)
  rw [findBuffer_eq]
  cases hentry : c.entry k with
  | none => exact (h.stored k hk hentry).2
  | some pair => exact (h.cached k pair.1 pair.2 hentry).1

theorem Coherent.whole {c : ChunkCache R} {s : σ} (hc : c.Coherent none)
    (hentry : forall k, c.entry k = none)
    (hstored : forall k, k < c.chunkToSlot.length ->
      st.Sized s k (X k).length ∧ st.Stored s k (X k)) : Whole st X (c, s) := by
  refine ⟨hc, ?_⟩
  exact
    { sized := fun k hk => (hstored k hk).1
      length := fun _ => rfl
      cached := by
        intro k buffer dirty hk
        rw [hentry] at hk
        cases hk
      stored := fun k hk _ => ⟨rfl, (hstored k hk).2⟩ }

theorem Whole.intact (h : Whole st X t) : Intact st X t :=
  ⟨h.1.represented, h.2.yields⟩

theorem Content.through {c : ChunkCache R} {s : σ} {S : Nat -> List R}
    (h : Content st c s X S) (hS : forall k, S k = X k ∨ c.isDirty k = true) :
    Content st c s X X where
  sized := h.sized
  length _ := rfl
  cached := by
    intro k buffer dirty hk
    obtain ⟨hbuffer, hclean⟩ := h.cached k buffer dirty hk
    refine ⟨hbuffer, fun hd => ?_⟩
    rcases hS k with hSk | hdirty
    · rw [← hSk]
      exact hclean hd
    · rw [isDirty, hk] at hdirty
      rw [show dirty = true from hdirty] at hd
      cases hd
  stored := by
    intro k hk hnone
    obtain ⟨heq, hstored⟩ := h.stored k hk hnone
    exact ⟨rfl, heq ▸ hstored⟩

/-- Evicting a chunk does not change what it reads as when stored chunks load as they were. -/
theorem AfterRoom.whole {c c' : ChunkCache R} {s' : σ} {victim : Option Nat}
    (hround : forall x, st.round x = x) (h : AfterRoom st c c' s' X X victim) :
    Content st c' s' X X := by
  cases victim with
  | none => exact h
  | some w =>
      have hstored : storedAfterFlush st c X X w = X := by
        rw [storedAfterFlush, hround, ite_self, Function.update_eq_self]
      have hread : readAfterEvict st c X X w = X := by
        rw [readAfterEvict, hstored, Function.update_eq_self]
      rw [AfterRoom, hread, hstored] at h
      exact h

end

theorem acquire_outOfRange {t : ChunkCache R × σ} {k : Nat} (hk : ¬ k < t.1.chunkToSlot.length) :
    ChunkCache.acquire cb k t =
      (.error (outOfRange "ChunkCache: chunk index out of range"), t) := by
  rw [ChunkCache.acquire, Call.bind_apply, Call.get_apply]
  simp only [show k ≥ t.1.chunkToSlot.length by omega, if_true]
  rfl

theorem Whole.acquire (hround : forall x, st.round x = x) (h : Whole st X t) {k : Nat}
    (hbrings : BringsIn cb (.acquire k) t) : Whole st X (ChunkCache.acquire cb k t).2 := by
  obtain ⟨hc, hcontent⟩ := h
  by_cases hk : k < t.1.chunkToSlot.length
  · apply Call.Post.state (I := Whole st X)
    refine (post_acquire hc hcontent hk
      (fun _ => fillsRoom_of_bringsIn hc hcontent hk hbrings)).imp ?_ ?_
    · rintro handle t' ⟨victim, hacq, _, hafter⟩
      exact ⟨hacq.coherent, hafter.whole hround⟩
    · rintro e ⟨c', s'⟩ ⟨_, heq, hcontent'⟩
      have hcc : c' = t.1 := heq
      subst hcc
      exact ⟨hc, hcontent'⟩
  · rw [acquire_outOfRange hk]
    exact ⟨hc, hcontent⟩

section

omit [Zero R]

theorem Whole.flushAll (hround : forall x, st.round x = x) (h : Whole st X t) :
    Whole st X (ChunkCache.flushAll cb t).2 := by
  obtain ⟨hc, hcontent⟩ := h
  apply Call.Post.state (I := Whole st X)
  refine (post_flushAll hc hcontent).imp ?_ ?_
  · rintro _ t' ⟨hflushed, _, S', hcontent', hS'⟩
    refine ⟨hflushed.coherent, hcontent'.through fun k => Or.inl ?_⟩
    rw [hS', hround, ite_self]
  · rintro _ t' ⟨_, hflushed, S', hcontent', hS'⟩
    refine ⟨hflushed.coherent, hcontent'.through fun k => Or.inl ?_⟩
    rcases hS' k with hk | hk
    · rw [hk, hround]
    · exact hk

theorem Whole.write (h : Whole st X t) {handle : SlotHandle} {f : List R -> List R}
    (hlive : t.1.Live handle) (hdenotes : t.1.denotesDirty handle)
    (hlen : forall x, (f x).length = x.length) :
    Whole st (Function.update X handle.chunkIndex (f (X handle.chunkIndex)))
      ((t.1.writeData handle f).setDirty handle, t.2) := by
  obtain ⟨hc, hcontent⟩ := h
  have hi := (hc.carried hlive).1
  have hwrite : (t.1.writeData handle f).Coherent none := hc.modifySlot hi rfl rfl
  have hi' : handle.slotIndex < (t.1.writeData handle f).slots.length :=
    (hwrite.carried (k := handle.chunkIndex) hlive).1
  have hdenotes' : (t.1.writeData handle f).denotesDirty handle := hdenotes
  refine ⟨?_, (hcontent.write hc hlive hdenotes hlen).through ?_⟩
  · change ((t.1.writeData handle f).setDirty handle).Coherent none
    rw [setDirty, if_pos hdenotes']
    exact hwrite.modifySlot hi' rfl rfl
  · intro k
    by_cases hk : k = handle.chunkIndex
    · right
      rw [isDirty, entry_write f hc hlive hdenotes, if_pos hk]
      rfl
    · left
      rw [Function.update_of_ne hk]

theorem Whole.copy (h : Whole st X t) : Whole st X (t.1.copy, t.2) :=
  ⟨h.1.copy, h.2.congr rfl fun _ => rfl⟩

end

theorem Whole.apply (hround : forall x, st.round x = x) (h : Whole st X t) {op : CacheOp R}
    (husable : op.Usable t) (hbrings : BringsIn cb op t) :
    Whole st (op.written X) (op.apply cb t) := by
  cases op with
  | acquire k => exact h.acquire hround hbrings
  | write handle f => exact h.write husable.1 husable.2.1 husable.2.2
  | flushAll => exact h.flushAll hround
  | copy => exact h.copy

theorem Whole.not_represented (h : Whole st X t) {op : CacheOp R} (hfails : ¬ BringsIn cb op t) :
    ¬ (op.apply cb t).1.Represented := by
  obtain ⟨hc, hcontent⟩ := h
  cases op with
  | write handle f => exact absurd trivial hfails
  | flushAll => exact absurd trivial hfails
  | copy => exact absurd trivial hfails
  | acquire k =>
      simp only [BringsIn, not_forall] at hfails
      obtain ⟨hk, hnone, i, t1, hrun, hloads⟩ := hfails
      have hmake := post_makeRoom hc hcontent
      unfold Call.Post at hmake
      rw [hrun] at hmake
      obtain ⟨victim, hroom, _⟩ := hmake
      have hpost := @post_fillSlot_throws _ _ _ cb t1.1 t1.2 i hroom.lt k
      unfold Call.Post at hpost
      rcases t1 with ⟨c1, s1⟩
      rcases hfill : fillSlot cb k i (c1, s1) with ⟨r, t2⟩
      rw [hfill] at hpost
      have hacquire : ChunkCache.acquire cb k t = fillSlot cb k i (c1, s1) := by
        rw [ChunkCache.acquire, Call.bind_apply, Call.get_apply]
        have hmap : t.1.chunkToSlot.getD k none = none := hnone
        simp only [show ¬ k ≥ t.1.chunkToSlot.length by omega, if_false, hmap]
        change (makeRoom cb >>= fun slotIndex => fillSlot cb k slotIndex) t = _
        rw [Call.bind_ok hrun]
      cases r with
      | ok handle => exact absurd hpost hloads
      | error e =>
          obtain ⟨_, hi, hindex, hslot⟩ := hpost
          intro hrep
          change ((ChunkCache.acquire cb k t).2).1.Represented at hrep
          rw [hacquire, hfill] at hrep
          have hmapped := (hrep.carries k i).mp ⟨hi, hindex⟩
          change t2.1.slotOf k = c1.slotOf k at hslot
          rw [hslot, hroom.slotOf, hnone, ite_self] at hmapped
          cases hmapped

/-!
## Runs
-/

theorem Whole.staysIntact_iff (hround : forall x, st.round x = x) (ops : List (CacheOp R)) :
    forall {X : Nat -> List R} {t : ChunkCache R × σ}, Whole st X t ->
      EveryStep cb CacheOp.Usable ops t ->
        (StaysIntact st ops X t <-> EveryStep cb (BringsIn cb) ops t) := by
  induction ops with
  | nil =>
      intro X t h _
      constructor
      · intro _
        trivial
      · intro _
        exact h.intact
  | cons op ops ih =>
      intro X t h husable
      by_cases hbrings : BringsIn cb op t
      · have hrest := ih (h.apply hround husable.1 hbrings) husable.2
        constructor
        · intro hstays
          exact ⟨hbrings, hrest.mp hstays.2⟩
        · intro hsteps
          exact ⟨h.intact, hrest.mpr hsteps.2⟩
      · constructor
        · intro hstays
          have hnext : Intact st (op.written X) (op.apply cb t) := by
            cases ops with
            | nil => exact hstays.2
            | cons op' ops => exact hstays.2.1
          exact absurd hnext.1 (h.not_represented hbrings)
        · intro hsteps
          exact absurd hsteps.1 hbrings

/--
From a configured cache on, nothing is corrupted or lost exactly while no callback for an
acquired chunk fails once a slot is free for it.
-/
theorem configured_staysIntact_iff (st : ChunkStore cb) (hround : forall x, st.round x = x)
    {capacity chunkCount : Nat} {c0 c : ChunkCache R} {s : σ} {X : Nat -> List R}
    {ops : List (CacheOp R)} (hconfigured : configure capacity chunkCount c0 = (.ok (), c))
    (hstored : forall k, k < chunkCount -> st.Sized s k (X k).length ∧ st.Stored s k (X k))
    (husable : EveryStep cb CacheOp.Usable ops (c, s)) :
    StaysIntact st ops X (c, s) <-> EveryStep cb (BringsIn cb) ops (c, s) := by
  have hcap : capacity ≠ 0 := by
    intro hzero
    rw [configure, if_pos hzero] at hconfigured
    cases hconfigured
  obtain ⟨c', hrun, hcoherent, _, hchunks, _, hentry, _⟩ := Coherent.of_configure capacity
    chunkCount c0 hcap
  rw [hconfigured] at hrun
  have hc : c = c' := congrArg Prod.snd hrun
  subst hc
  have hwhole : Whole st X (c, s) :=
    hcoherent.whole hentry fun k hk => hstored k (hchunks ▸ hk)
  exact hwhole.staysIntact_iff hround ops husable

/-!
## Two chunks in two slots
-/

def scriptedCodec (script : List Bool) : CodecPolicy Nat Nat :=
  CodecPolicy.scripted Nat script 1 2 Nat.one_pos Nat.one_lt_two

theorem losslessOrThrows_scriptedCodec (script : List Bool) :
    (scriptedCodec script).LosslessOrThrows :=
  CodecPolicy.losslessOrThrows_scripted script _ _

/-- A freshly configured cache over the chunks `[1]` and `[2]`. -/
def twoChunks (script : List Bool) : ChunkCache Nat × ChunkVector (scriptedCodec script) :=
  ((configure 2 2 ChunkCache.empty).2,
    { chunks := [{ compressed := [1], elemCount := 1 }, { compressed := [2], elemCount := 1 }]
      codec := script })

def oneTwo (k : Nat) : List Nat :=
  [k + 1]

def writeNine (chunkIndex : Nat) : CacheOp Nat :=
  .write { slotIndex := 0, chunkIndex := chunkIndex, storage := 1, elemCount := 1 }
    (List.map fun _ => 9)

theorem stored_twoChunks (script : List Bool) (k : Nat) (hk : k < 2) :
    (ChunkVector.failingStore (losslessOrThrows_scriptedCodec script) 2).Sized
        (twoChunks script).2 k (oneTwo k).length ∧
      (ChunkVector.failingStore (losslessOrThrows_scriptedCodec script) 2).Stored
        (twoChunks script).2 k (oneTwo k) := by
  have hdecodes : forall x : List Nat, (scriptedCodec script).DecodesOrThrows x x :=
    fun x codec buffer => CodecPolicy.post_attempt_set x buffer codec
  match k, hk with
  | 0, _ => exact ⟨⟨rfl, Nat.zero_lt_two, rfl, Nat.one_pos⟩, Nat.zero_lt_two, rfl, hdecodes [1]⟩
  | 1, _ => exact ⟨⟨rfl, Nat.one_lt_two, rfl, Nat.one_pos⟩, Nat.one_lt_two, rfl, hdecodes [2]⟩

/-- A flush that cannot store the written chunk loses nothing. -/
theorem configured_staysIntact_failing_flush :
    StaysIntact (ChunkVector.failingStore (losslessOrThrows_scriptedCodec [false, true]) 2)
      [.acquire 0, writeNine 0, .flushAll] oneTwo (twoChunks [false, true]) := by
  have hconfigured : configure 2 2 ChunkCache.empty =
      (.ok (), (twoChunks [false, true]).1) := rfl
  have husable : EveryStep (ChunkVector.callbacks (scriptedCodec [false, true])) CacheOp.Usable
      [.acquire 0, writeNine 0, .flushAll]
      ((twoChunks [false, true]).1, (twoChunks [false, true]).2) :=
    ⟨trivial, ⟨rfl, rfl, fun x => List.length_map _⟩, trivial, trivial⟩
  refine (configured_staysIntact_iff
    (ChunkVector.failingStore (losslessOrThrows_scriptedCodec [false, true]) 2)
    (fun _ => rfl) hconfigured (stored_twoChunks [false, true]) husable).mpr
      ⟨?_, trivial, trivial, trivial⟩
  intro _ _ i t1 hrun
  cases hrun
  exact ⟨1, _, rfl, Nat.one_ne_zero, _, rfl⟩

/-- Chunk 1 is acquired again after its load has failed, written, and left alone. -/
def retriedLoad : List (CacheOp Nat) :=
  [.acquire 0, .acquire 1, .acquire 1, writeNine 1, .acquire 0]

/-- The store behind `retriedLoad`: the second load fails. -/
def retriedStore : ChunkStore (ChunkVector.callbacks (scriptedCodec [false, true])) :=
  ChunkVector.failingStore (losslessOrThrows_scriptedCodec [false, true]) 2

/-- The cache over the store of `retriedLoad`, with the script that is left. -/
def retried (slots : List (Slot Nat)) (chunkToSlot : List (Option Nat)) (touches : Nat)
    (rest : List Bool) : ChunkCache Nat × ChunkVector (scriptedCodec [false, true]) :=
  ({ capacity := 2
     slots := slots
     reserved := 2
     storage := 1
     chunkToSlot := chunkToSlot
     touchCounter := touches },
    { chunks := [{ compressed := [1], elemCount := 1 }, { compressed := [2], elemCount := 1 }]
      codec := rest })

/-- Slot 1 is left with chunk 1, its second load goes to slot 0, and evicting slot 1 unmaps it. -/
theorem retriedLoad_steps :
    let cb := ChunkVector.callbacks (scriptedCodec [false, true])
    (CacheOp.acquire 0).apply cb (twoChunks [false, true]) =
        retried [⟨some 0, [1], false, 1⟩] [some 0, none] 1 [true] ∧
      (CacheOp.acquire 1).apply cb (retried [⟨some 0, [1], false, 1⟩] [some 0, none] 1 [true]) =
        retried [⟨some 0, [1], false, 1⟩, ⟨some 1, [0], false, 2⟩] [some 0, none] 2 [] ∧
      (CacheOp.acquire 1).apply cb
          (retried [⟨some 0, [1], false, 1⟩, ⟨some 1, [0], false, 2⟩] [some 0, none] 2 []) =
        retried [⟨some 1, [2], false, 3⟩, ⟨some 1, [0], false, 2⟩] [none, some 0] 3 [] ∧
      (writeNine 1).apply cb
          (retried [⟨some 1, [2], false, 3⟩, ⟨some 1, [0], false, 2⟩] [none, some 0] 3 []) =
        retried [⟨some 1, [9], true, 3⟩, ⟨some 1, [0], false, 2⟩] [none, some 0] 3 [] ∧
      (CacheOp.acquire 0).apply cb
          (retried [⟨some 1, [9], true, 3⟩, ⟨some 1, [0], false, 2⟩] [none, some 0] 3 []) =
        retried [⟨some 1, [9], true, 3⟩, ⟨some 0, [1], false, 4⟩] [some 1, none] 4 [] :=
  ⟨rfl, rfl, rfl, rfl, rfl⟩

/--
Chunk 1 cannot be loaded once, then is loaded and written, and the write is gone after the
slot of the failed load has been evicted.
-/
theorem failed_load_loses_write :
    EveryStep (ChunkVector.callbacks (scriptedCodec [false, true])) CacheOp.Usable retriedLoad
        (twoChunks [false, true]) ∧
      ¬ StaysIntact retriedStore retriedLoad oneTwo (twoChunks [false, true]) ∧
      exists t, t = retriedLoad.foldl (fun t op => op.apply (ChunkVector.callbacks _) t)
          (twoChunks [false, true]) ∧
        t.1.findBuffer 1 = none ∧ ¬ retriedStore.Stored t.2 1 [9] := by
  obtain ⟨h1, h2, h3, h4, h5⟩ := retriedLoad_steps
  have hlost : ¬ retriedStore.Stored
      (retried [⟨some 1, [9], true, 3⟩, ⟨some 0, [1], false, 4⟩] [some 1, none] 4 []).2 1 [9] := by
    rintro ⟨_, _, hdecodes⟩
    have hload := hdecodes [] []
    cases hload
  refine ⟨?_, ?_, _, rfl, ?_⟩
  · rw [retriedLoad, EveryStep, EveryStep, EveryStep, EveryStep, EveryStep, h1, h2, h3]
    exact ⟨trivial, trivial, trivial, ⟨rfl, rfl, fun x => List.length_map _⟩, trivial, trivial⟩
  · rw [retriedLoad, StaysIntact, StaysIntact, StaysIntact, StaysIntact, StaysIntact, StaysIntact,
      h1, h2, h3, h4, h5]
    rintro ⟨_, _, _, _, _, _, hyields⟩
    exact hlost (hyields 1 Nat.one_lt_two)
  · rw [retriedLoad, List.foldl_cons, List.foldl_cons, List.foldl_cons, List.foldl_cons,
      List.foldl_cons, List.foldl_nil, h1, h2, h3, h4, h5]
    exact ⟨rfl, hlost⟩

end ChunkCache

end Tmfqs
