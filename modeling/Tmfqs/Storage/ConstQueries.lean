import Tmfqs.Storage.CachedReads
import Tmfqs.Storage.RejectedCalls

/-!
# Const queries

Reading an amplitude may evict a chunk.  A dirty chunk is encoded on the way out and a
clean one is read back from its encoding, so with a lossy codec the chunk may read
differently afterwards.
-/

namespace Tmfqs

open Library ChunkCache

namespace BackendOp

variable {R : Type}

def Reads : BackendOp R -> Prop
  | amplitude _ => True
  | probability _ => True
  | totalProbability => True
  | exportAmplitudes => True
  | forEachAmplitudeChunk => True
  | sampleMeasurement _ => True
  | printNonZeroStates _ => True
  | _ => False

def seenAmplitude [Field R] (chunkStates n : Nat) (X : Nat -> List R) (s : Nat) :
    Except ExcKind (Amplitude R) :=
  if s < 2 ^ n then
    .ok (readAmp (X (s / chunkStates)) (2 * (s % chunkStates)))
  else
    .error .outOfRange

/-- The answer of a const call when every chunk `k` of `count` reads as `X k`. -/
def seen [Field R] [LinearOrder R] (chunkStates n count : Nat) (X : Nat -> List R) :
    BackendOp R -> Except ExcKind (Answer R)
  | amplitude s => (seenAmplitude chunkStates n X s).map .amplitude
  | probability s => ((seenAmplitude chunkStates n X s).map Amplitude.probability).map .value
  | totalProbability => .ok (.value (CompressedStateBackend.seenTotal X count))
  | exportAmplitudes => .ok (.amplitudes (CompressedStateBackend.seenExport X count n))
  | forEachAmplitudeChunk =>
      .ok (.amplitudes ((CompressedStateBackend.seenChunks chunkStates X count).flatMap Prod.snd))
  | sampleMeasurement rnd => (CompressedStateBackend.seenSample rnd X count).map .state
  | printNonZeroStates epsilon => (CompressedStateBackend.seenPrint epsilon X count).map .lines
  | _ => .ok .done

end BackendOp

/-- Every query answers the same whether or not other const calls are made before it. -/
def PureReads {R β : Type} [IStateBackend R β] (b : β) : Prop :=
  forall (calls : List (BackendOp R)) (query : BackendOp R),
    (forall op, op ∈ calls -> op.Reads) -> query.Reads ->
      ((query.run (reached BackendOp.run calls b)).1).mapError Exc.kind =
        ((query.run b).1).mapError Exc.kind

namespace CompressedStateBackend

variable {R B : Type} [Field R] {P : CodecPolicy R B} {round : List R -> List R}
  {hR : P.Rounds round} {n : Nat} {X S : Nat -> List R} {b b' : CompressedStateBackend P}

/--
All chunks fit into the cache, or every cached chunk is what its chunk decodes to once it
has left the cache.
-/
def CacheTransparent (round : List R -> List R) (b : CompressedStateBackend P) : Prop :=
  b.layout.chunkCount ≤ b.cache.capacity ∨
    forall k i, b.cache.slotOf k = some i ->
      if (b.cache.slot i).dirty = true then
        round (b.cache.slot i).buffer = (b.cache.slot i).buffer
      else
        b.store.Stores k (b.cache.slot i).buffer

/-- The same in terms of what the chunks read as and are stored as. -/
def Restful (hR : P.Rounds round) (X S : Nat -> List R) (b : CompressedStateBackend P) : Prop :=
  b.layout.chunkCount ≤ b.cache.capacity ∨
    forall k, b.cache.slotOf k ≠ none ->
      storedAfterFlush (ChunkVector.chunkStore hR b.layout.chunkCount) b.cache X S k k = X k

section

omit [Field R]

theorem storedAfterFlush_self (st : ChunkStore (ChunkVector.callbacks P)) (c : ChunkCache R)
    (X S : Nat -> List R) (k : Nat) :
    storedAfterFlush st c X S k k = if c.isDirty k then st.round (X k) else S k := by
  rw [storedAfterFlush, Function.update_self]

theorem stores_unique {s : ChunkVector P} {k : Nat} {x y : List R} (hx : s.Stores k x)
    (hy : s.Stores k y) : x = y := by
  have hlen : y.length = x.length := hy.2.1.symm.trans hx.2.1
  have hdx := hx.2.2 s.codec []
  have hdy := hy.2.2 s.codec []
  rw [hlen] at hdy
  unfold Call.Post at hdx hdy
  rcases hrun : P.decompress (s.chunk k).compressed x.length ([], s.codec) with ⟨r, t⟩
  rw [hrun] at hdx hdy
  cases r with
  | ok a => exact hdx.symm.trans hdy
  | error e => exact hdx.elim

theorem Contains.restful_iff (h : Contains hR n X S b) :
    Restful hR X S b <-> CacheTransparent round b := by
  have hchunk : forall k i, b.cache.slotOf k = some i ->
      (storedAfterFlush (ChunkVector.chunkStore hR b.layout.chunkCount) b.cache X S k k = X k <->
        if (b.cache.slot i).dirty = true then
          round (b.cache.slot i).buffer = (b.cache.slot i).buffer
        else
          b.store.Stores k (b.cache.slot i).buffer) := by
    intro k i hslot
    have hbuffer := h.content.buffer hslot
    rw [storedAfterFlush_self, isDirty_eq hslot, hbuffer]
    cases hdirty : (b.cache.slot i).dirty with
    | true => exact Iff.rfl
    | false =>
        have hentry := entry_eq (c := b.cache) hslot
        rw [hdirty] at hentry
        have hstored : b.store.Stores k (S k) := (h.content.cached k _ _ hentry).2 rfl
        rw [if_neg Bool.false_ne_true, if_neg Bool.false_ne_true]
        constructor
        · intro heq
          rw [← heq]
          exact hstored
        · intro hX
          exact stores_unique hstored hX
  constructor
  · rintro (hfits | hsame)
    · exact Or.inl hfits
    · exact Or.inr fun k i hslot => (hchunk k i hslot).mp (hsame k (by simp [hslot]))
  · rintro (hfits | hsame)
    · exact Or.inl hfits
    · refine Or.inr fun k hcached => ?_
      cases hslot : b.cache.slotOf k with
      | none => exact absurd hslot hcached
      | some i => exact (hchunk k i hslot).mpr (hsame k i hslot)

end

/-!
## Reading a transparent cache
-/

omit [Field R] in
/-- Bringing in a chunk changes neither what is read nor that it is safe to read on. -/
theorem Restful.fetched (hrest : Restful hR X S b) (h : Contains hR n X S b) {k : Nat}
    {victim : Option Nat} (hk : k < b.layout.chunkCount) (hf : Fetched hR X S k victim b b') :
    exists S', Contains hR n X S' b' ∧ Restful hR X S' b' := by
  rcases hf.acquired with ⟨handle, hacq⟩
  have hkey : k < b.cache.chunkToSlot.length := h.shaped.cacheChunks ▸ hk
  have huncached : b.cache.entry k = none := by
    rw [entry, hf.uncached]
    rfl
  have hread := (h.content.stored k hkey huncached).1
  have hclean := isDirty_of_none hf.uncached
  cases victim with
  | none =>
      refine ⟨S, h.fetched_none hf, ?_⟩
      rcases hrest with hfits | hsame
      · left
        rw [hf.layout, hacq.shape.capacity]
        exact hfits
      · right
        intro j hj
        rw [storedAfterFlush_self, hacq.isDirty (by simp)]
        by_cases hjk : j = k
        · rw [hjk, hclean, if_neg Bool.false_ne_true]
          exact hread.symm
        · rw [hacq.slotOf j hjk, if_neg (by simp)] at hj
          have hkeep := hsame j hj
          rw [storedAfterFlush_self] at hkeep
          exact hkeep
  | some w =>
      obtain ⟨_, hfull, hw⟩ := hacq.evicts w rfl
      rcases hrest with hfits | hsame
      · have hlt := h.shaped.coherent.slots_lt_chunks hkey hf.uncached
        rw [h.shaped.cacheChunks] at hlt
        omega
      · have hstored : storedAfterFlush (ChunkVector.chunkStore hR b.layout.chunkCount) b.cache
            X S w w = X w := hsame w (by simp [hw])
        have hwk : w ≠ k := by
          intro heq
          rw [heq, hf.uncached] at hw
          cases hw
        have hX : readAfterEvict (ChunkVector.chunkStore hR b.layout.chunkCount) b.cache X S w =
            X := by
          rw [readAfterEvict, hstored, Function.update_eq_self]
        have hcontains := h.fetched_some hf
        rw [hX] at hcontains
        refine ⟨_, hcontains, Or.inr ?_⟩
        intro j hj
        have hjw : j ≠ w := by
          intro heq
          apply hj
          rw [heq, hacq.slotOf w hwk, if_pos rfl]
        rw [storedAfterFlush_self,
          hacq.isDirty (fun heq => hjw (Option.some.inj heq).symm), storedAfterFlush,
          Function.update_of_ne hjw]
        by_cases hjk : j = k
        · rw [hjk, hclean, if_neg Bool.false_ne_true]
          exact hread.symm
        · rw [hacq.slotOf j hjk, if_neg (fun heq => hjw (Option.some.inj heq).symm)] at hj
          have hkeep := hsame j hj
          rw [storedAfterFlush_self] at hkeep
          exact hkeep

/-- Every chunk reads as `X` says, now and after any reads. -/
def Quiet (hR : P.Rounds round) (n : Nat) (X : Nat -> List R) (count : Nat)
    (b : CompressedStateBackend P) : Prop :=
  b.layout.chunkCount = count ∧ exists S, Contains hR n X S b ∧ Restful hR X S b

omit [Field R] in
theorem Quiet.codecOnly {count : Nat} (h : Quiet hR n X count b) (hc : CodecOnly b b') :
    Quiet hR n X count b' := by
  rcases h with ⟨hcount, S, hX, hrest⟩
  have hX' := hX.codecOnly hc
  refine ⟨hc.layout ▸ hcount, S, hX', ?_⟩
  have htransparent := hX.restful_iff.mp hrest
  apply hX'.restful_iff.mpr
  rcases htransparent with hfits | hsame
  · left
    rw [hc.layout, hc.cache]
    exact hfits
  · right
    intro k i hslot
    rw [hc.cache] at hslot ⊢
    have hkeep := hsame k i hslot
    split
    · rename_i hdirty
      rw [if_pos hdirty] at hkeep
      exact hkeep
    · rename_i hclean
      rw [if_neg hclean] at hkeep
      have hchunk : b'.store.chunk k = b.store.chunk k := by
        rw [ChunkVector.chunk, ChunkVector.chunk, hc.chunks]
      rcases hkeep with ⟨hk, hcount, hdecodes⟩
      exact ⟨hc.chunks ▸ hk, hchunk.symm ▸ hcount, hchunk.symm ▸ hdecodes⟩

section Answers

variable [LinearOrder R] [CMath R] {count : Nat}

omit [LinearOrder R] [CMath R] in
theorem Quiet.amplitude (h : Quiet hR n X count b) (s : Nat) :
    Answers (CompressedStateBackend.amplitude s) b (BackendOp.seenAmplitude P.chunkStates n X s)
      (Quiet hR n X count) := by
  rcases h with ⟨hcount, S, hX, hrest⟩
  rw [BackendOp.seenAmplitude]
  by_cases hs : s < 2 ^ n
  · rw [if_pos hs]
    refine (hX.amplitude hs).imp ?_ (fun _ _ he => he.elim)
    rintro a b' ⟨rfl, hstep⟩
    refine ⟨rfl, ?_⟩
    rcases hstep with ⟨_, rfl⟩ | ⟨victim, hf⟩
    · exact ⟨hcount, S, hX, hrest⟩
    · refine ⟨?_, hrest.fetched hX (hX.shaped.layout.div_lt_chunkCount hs) hf⟩
      rw [hf.layout]
      exact hcount
  · rw [if_neg hs, Answers, CompressedStateBackend.amplitude, Call.post_bind_iff]
    refine Call.post_of_ok (ensureInitialized_eq hX.shaped _) ?_
    rw [Call.post_bind_iff, Call.post_get, hX.shaped.numStates,
      Tmfqs.validateStateIndex_eq _ hX.shaped.qubits, if_neg hs, Call.post_bind_iff,
      Call.post_throw]
    exact ⟨rfl, hcount, S, hX, hrest⟩

omit [Field R] [LinearOrder R] [CMath R] in
theorem answers_query {α : Type} {wrap : α -> Answer R} {call : Call (CompressedStateBackend P) α}
    {answer : Except ExcKind α} {Q : CompressedStateBackend P -> Prop}
    (h : Answers call b answer Q) :
    Answers (BackendOp.query wrap call) b (answer.map wrap) Q := by
  rw [Answers, BackendOp.query, Call.post_bind_iff]
  refine h.imp ?_ ?_
  · rintro a b' ⟨ha, hQ⟩
    rw [ha]
    exact ⟨rfl, hQ⟩
  · rintro e b' ⟨he, hQ⟩
    rw [he]
    exact ⟨rfl, hQ⟩

omit [LinearOrder R] [CMath R] in
theorem Quiet.probability (h : Quiet hR n X count b) (s : Nat) :
    Answers (CompressedStateBackend.probability s) b
      ((BackendOp.seenAmplitude P.chunkStates n X s).map Amplitude.probability)
      (Quiet hR n X count) := by
  rw [Answers, CompressedStateBackend.probability, Call.post_bind_iff]
  refine (h.amplitude s).imp ?_ ?_
  · rintro a b' ⟨ha, hQ⟩
    rw [ha]
    exact ⟨rfl, hQ⟩
  · rintro e b' ⟨he, hQ⟩
    rw [he]
    exact ⟨rfl, hQ⟩

omit [Field R] [LinearOrder R] [CMath R] in
theorem Quiet.sees {α : Type} {call : Call (CompressedStateBackend P) α}
    {answer : Except ExcKind α} (h : Quiet hR n X count b) (hcall : Answers call b answer (CodecOnly b)) :
    Answers call b answer (Quiet hR n X count) :=
  hcall.imp (fun _ _ ha => ⟨ha.1, h.codecOnly ha.2⟩) (fun _ _ he => ⟨he.1, h.codecOnly he.2⟩)

theorem Quiet.answers (h : Quiet hR n X count b) {op : BackendOp R} (hop : op.Reads) :
    Answers op.run b (op.seen P.chunkStates n count X) (Quiet hR n X count) := by
  have hquiet := h
  rcases h with ⟨rfl, S, hX, _⟩
  cases op with
  | amplitude s => exact answers_query (hquiet.amplitude s)
  | probability s => exact answers_query (hquiet.probability s)
  | totalProbability => exact answers_query (hquiet.sees (totalProbability_sees hX))
  | exportAmplitudes => exact answers_query (hquiet.sees (exportAmplitudes_sees hX))
  | forEachAmplitudeChunk => exact answers_query (hquiet.sees (forEachAmplitudeChunk_sees hX))
  | sampleMeasurement rnd => exact answers_query (hquiet.sees (sampleMeasurement_sees hX rnd))
  | printNonZeroStates epsilon =>
      exact answers_query (hquiet.sees (printNonZeroStates_sees hX epsilon))
  | _ => exact absurd hop id

theorem Quiet.pureReads (h : Quiet hR n X count b) : PureReads b := by
  intro calls query hcalls hquery
  have hreached : Quiet hR n X count (reached BackendOp.run calls b) := by
    apply reached_invariant (P := fun op _ => op.Reads) (I := Quiet hR n X count) ?_ h
    · apply along_of_invariant (I := fun _ => True) ?_ trivial
      intro op b' hop _
      exact ⟨hcalls op hop, trivial⟩
    · intro op b' hb' hop
      apply Call.Post.state (I := Quiet hR n X count)
      exact (hb'.answers hop).imp (fun _ _ ha => ha.2) (fun _ _ he => he.2)
  rw [(hreached.answers hquery).outcome, (h.answers hquery).outcome]

end Answers

/-!
## Reading until a chunk is evicted
-/

section Evictions

variable [LinearOrder R] [CMath R]

theorem Contains.run_amplitude (h : Contains hR n X S b) {s : Nat} (hs : s < 2 ^ n) :
    Call.Post (BackendOp.amplitude s : BackendOp R).run b
      (fun a b' => a = .amplitude (readAmp (X (s / P.chunkStates)) (2 * (s % P.chunkStates))) ∧
        (b.cache.slotOf (s / P.chunkStates) ≠ none ∧ b' = b ∨
          exists victim, Fetched hR X S (s / P.chunkStates) victim b b'))
      (fun _ _ => False) := by
  change Call.Post (CompressedStateBackend.amplitude s >>= fun a =>
    pure (Answer.amplitude a)) b _ _
  rw [Call.post_bind_iff]
  refine (h.amplitude hs).imp ?_ (fun _ _ he => he)
  rintro a b' ⟨rfl, hstep⟩
  exact ⟨rfl, hstep⟩

/-- Reading the first amplitude of a chunk that is not cached brings the chunk in. -/
theorem Contains.fetches (h : Contains hR n X S b) {k : Nat} (hk : k < b.layout.chunkCount)
    (hnone : b.cache.slotOf k = none) :
    exists victim, Fetched hR X S k victim b
      ((BackendOp.amplitude (k * P.chunkStates) : BackendOp R).run b).2 := by
  have hs : k * P.chunkStates < 2 ^ n := (h.shaped.layout.lt_chunkCount_iff k).mp hk
  have hdiv : k * P.chunkStates / P.chunkStates = k := Nat.mul_div_cancel k P.chunkStates_pos
  have hpost := h.run_amplitude hs
  rw [hdiv] at hpost
  apply Call.Post.state (I := fun b' => exists victim, Fetched hR X S k victim b b')
  refine hpost.imp ?_ (fun _ _ he => he.elim)
  rintro a b' ⟨_, hstep⟩
  rcases hstep with ⟨hcached, _⟩ | hf
  · exact absurd hnone hcached
  · exact hf

theorem exists_evicting_reads {w i : Nat} (m : Nat) :
    forall {b : CompressedStateBackend P} {X S : Nat -> List R}, Contains hR n X S b ->
      b.cache.capacity < b.layout.chunkCount -> b.cache.slotOf w = some i ->
      b.cache.readsLeft i < m ->
      exists (calls : List (BackendOp R)) (X' S' : Nat -> List R),
        (forall op, op ∈ calls -> op.Reads) ∧
          Contains hR n X' S' (reached BackendOp.run calls b) ∧
          (reached BackendOp.run calls b).layout = b.layout ∧
          X' w = storedAfterFlush (ChunkVector.chunkStore hR b.layout.chunkCount) b.cache X S w w
    := by
  induction m with
  | zero =>
      intro b X S _ _ _ hleft
      exact absurd hleft (Nat.not_lt_zero _)
  | succ m ih =>
      intro b X S h hcap hslot hleft
      have hchunks := h.shaped.cacheChunks
      rcases h.shaped.coherent.exists_uncached (hchunks.symm ▸ hcap) with ⟨k, hkey, hnone⟩
      have hk : k < b.layout.chunkCount := hchunks ▸ hkey
      rcases h.fetches hk hnone with ⟨victim, hf⟩
      rcases hf.acquired with ⟨handle, hacq⟩
      obtain ⟨b1, hb1⟩ : exists b1, b1 =
          ((BackendOp.amplitude (k * P.chunkStates) : BackendOp R).run b).2 := ⟨_, rfl⟩
      rw [← hb1] at hf hacq
      have hreads : (BackendOp.amplitude (k * P.chunkStates) : BackendOp R).Reads := trivial
      -- either the read evicts `w`, or it leaves the content of `w` alone
      have hnext : forall {X1 S1 : Nat -> List R}, Contains hR n X1 S1 b1 -> victim ≠ some w ->
          X1 w = X w -> S1 w = S w ->
          exists (calls : List (BackendOp R)) (X' S' : Nat -> List R),
            (forall op, op ∈ calls -> op.Reads) ∧
              Contains hR n X' S' (reached BackendOp.run calls b) ∧
              (reached BackendOp.run calls b).layout = b.layout ∧
              X' w = storedAfterFlush (ChunkVector.chunkStore hR b.layout.chunkCount) b.cache
                X S w w := by
        intro X1 S1 h1 hv hX hS
        obtain ⟨hslot1, _, hlt⟩ := hacq.readsLeft_lt h.shaped.coherent hnone hslot hv
        have hcap1 : b1.cache.capacity < b1.layout.chunkCount := by
          rw [hacq.shape.capacity, hf.layout]
          exact hcap
        rcases ih h1 hcap1 hslot1 (by omega) with ⟨calls, X', S', hcalls, hX', hlayout, hw⟩
        refine ⟨.amplitude (k * P.chunkStates) :: calls, X', S', ?_, ?_, ?_, ?_⟩
        · intro op hop
          rcases List.mem_cons.mp hop with rfl | hrest
          · exact hreads
          · exact hcalls op hrest
        · rw [reached_cons, ← hb1]
          exact hX'
        · rw [reached_cons, ← hb1, hlayout, hf.layout]
        · rw [hw, storedAfterFlush_self, storedAfterFlush_self, hacq.isDirty hv, hX, hS]
          rfl
      cases victim with
      | none => exact hnext (h.fetched_none hf) (by simp) rfl rfl
      | some v =>
          by_cases hvw : v = w
          · subst hvw
            have hrun : reached BackendOp.run [.amplitude (k * P.chunkStates)] b = b1 := hb1.symm
            have hcontains := h.fetched_some hf
            rw [← hrun] at hcontains
            refine ⟨[.amplitude (k * P.chunkStates)], _, _, ?_, hcontains, ?_, ?_⟩
            · intro op hop
              rw [List.mem_singleton.mp hop]
              exact hreads
            · rw [hrun, hf.layout]
            · rw [readAfterEvict, Function.update_self]
          · have hwv : w ≠ v := fun heq => hvw heq.symm
            apply hnext (h.fetched_some hf) (fun heq => hvw (Option.some.inj heq))
            · rw [readAfterEvict, Function.update_of_ne hwv]
            · rw [storedAfterFlush, Function.update_of_ne hwv]

theorem Contains.restful_of_pureReads (h : Contains hR n X S b) (hpure : PureReads b) :
    Restful hR X S b := by
  by_contra hnot
  have hcap : b.cache.capacity < b.layout.chunkCount := by
    by_contra hfits
    exact hnot (Or.inl (Nat.not_lt.mp hfits))
  have hchanged : exists w, b.cache.slotOf w ≠ none ∧
      storedAfterFlush (ChunkVector.chunkStore hR b.layout.chunkCount) b.cache X S w w ≠ X w := by
    by_contra hall
    apply hnot
    right
    intro w hw
    by_contra hne
    exact hall ⟨w, hw, hne⟩
  rcases hchanged with ⟨w, hcached, hne⟩
  cases hslot : b.cache.slotOf w with
  | none => exact hcached hslot
  | some i =>
      rcases exists_evicting_reads (b.cache.readsLeft i + 1) h hcap hslot (Nat.lt_succ_self _)
        with ⟨calls, X', S', hcalls, h', hlayout, hX'⟩
      have hw : w < b.layout.chunkCount := h.shaped.cacheChunks ▸ b.cache.slotOf_lt hslot
      have hw' : w < (reached BackendOp.run calls b).layout.chunkCount := hlayout ▸ hw
      have hlen := h.length w hw
      have hlen' := h'.length w hw'
      rw [hlayout] at hlen'
      apply hne
      rw [← hX']
      apply eq_of_ampAt hlen' hlen
      intro t ht
      -- the state `t` of chunk `w`, read before and after
      have hstates := h.shaped.layout.statesIn_eq w
      have htc : t < P.chunkStates := by omega
      have hs : w * P.chunkStates + t < 2 ^ n := by omega
      have hdiv : (w * P.chunkStates + t) / P.chunkStates = w := by
        rw [Nat.add_comm, Nat.add_mul_div_right t w P.chunkStates_pos, Nat.div_eq_of_lt htc,
          Nat.zero_add]
      have hmod : (w * P.chunkStates + t) % P.chunkStates = t := by
        rw [Nat.add_comm, Nat.add_mul_mod_self_right, Nat.mod_eq_of_lt htc]
      have hanswer : forall {Y T : Nat -> List R} {c : CompressedStateBackend P},
          Contains hR n Y T c ->
          (((BackendOp.amplitude (w * P.chunkStates + t) : BackendOp R).run c).1).mapError
            Exc.kind = .ok (.amplitude (ampAt (Y w) t)) := by
        intro Y T c hc
        have hpost := hc.run_amplitude hs
        unfold Call.Post at hpost
        rcases hrun : (BackendOp.amplitude (w * P.chunkStates + t) : BackendOp R).run c with
          ⟨r, c'⟩
        rw [hrun] at hpost
        cases r with
        | ok a =>
            rw [hpost.1, hdiv, hmod]
            rfl
        | error e => exact hpost.elim
      have hsame := hpure calls (.amplitude (w * P.chunkStates + t)) hcalls trivial
      rw [hanswer h', hanswer h] at hsame
      exact Answer.amplitude.inj (Except.ok.inj hsame)

end Evictions

/-!
## Reached backends
-/

section Reached

variable [LinearOrder R] [CMath R]

theorem sound_or_blank (hR : P.Rounds round) (h : CleanlyReached Clean (make P) b) :
    (exists n, Sound hR n b) ∨ b.Idle ∧ b.layout.chunkCount = 0 := by
  induction h with
  | made => exact Or.inr ⟨⟨rfl, rfl⟩, rfl⟩
  | called hb op hop ih =>
      cases hsize : op.size with
      | none =>
          rcases ih with hready | ⟨hidle, hblank⟩
          · rcases hready with ⟨n, hn⟩
            have hn' : (checksArguments hR).Ready n _ := hn
            exact Or.inl ⟨n, ChecksArguments.ready_after hn' hsize⟩
          · right
            rw [hidle.run hsize]
            exact ⟨hidle, hblank⟩
      | some n =>
          rcases hop with hnone | ⟨hvalid, hfits⟩
          · rw [hsize] at hnone
            cases hnone
          · left
            exact ⟨n, (ChecksArguments.ready_init (G := checksArguments hR) _ hsize hvalid
              (hfits n hsize)).1⟩
  | cloned hb ih =>
      rcases ih with hready | hblank
      · rcases hready with ⟨n, hn⟩
        exact Or.inl ⟨n, hn.cloned⟩
      · exact Or.inr hblank

omit [Field R] [LinearOrder R] [CMath R] in
theorem Reads.size {op : BackendOp R} (hop : op.Reads) : op.size = none := by
  cases op with
  | initZero m => exact hop.elim
  | initBasis m s amp => exact hop.elim
  | initUniformSuperposition m states => exact hop.elim
  | loadAmplitudes m data => exact hop.elim
  | _ => rfl

/--
On a reached backend the const calls are pure exactly when the cache holds all chunks or
its chunks survive the codec.
-/
theorem pureReads_iff (hR : P.Rounds round) (h : CleanlyReached Clean (make P) b) :
    PureReads b <-> CacheTransparent round b := by
  rcases sound_or_blank hR h with hready | ⟨hidle, hblank⟩
  · rcases hready with ⟨n, X, S, hX⟩
    constructor
    · intro hpure
      exact hX.restful_iff.mp (hX.restful_of_pureReads hpure)
    · intro htransparent
      have hquiet : Quiet hR n X b.layout.chunkCount b :=
        ⟨rfl, S, hX, hX.restful_iff.mpr htransparent⟩
      exact hquiet.pureReads
  · constructor
    · intro _
      left
      rw [hblank]
      exact Nat.zero_le _
    · intro _ calls query hcalls _
      have hsame : reached BackendOp.run calls b = b := by
        apply reached_invariant (P := fun op _ => op.Reads) (I := fun b' => b' = b) ?_ rfl
        · apply along_of_invariant (I := fun _ => True) ?_ trivial
          intro op b' hop _
          exact ⟨hcalls op hop, trivial⟩
        · intro op b' hb' hop
          rw [hb']
          exact hidle.run (Reads.size hop)
      rw [hsame]

end Reached

/-!
## Two qubits in four chunks
-/

section TwoQubits

def flattening : CodecPolicy Real Real :=
  CodecPolicy.elementwise (fun _ => 0) 1 2 Nat.one_pos Nat.one_lt_two

theorem rounds_flattening : flattening.Rounds (List.map fun _ => 0) :=
  CodecPolicy.rounds_elementwise (fun _ => 0) _ _

/-- The backend after `initBasis` with all weight on the first of `2 ^ n` states. -/
noncomputable def firstState (n : Nat) : CompressedStateBackend flattening :=
  ((BackendOp.initBasis n 0 { real := 1, imag := 0 } : BackendOp Real).run (make flattening)).2

theorem fits_one {n : Nat} (hn : n ≤ 31) : ChunkLayout.Fits (2 ^ n) 1 := by
  have hle : 2 ^ n ≤ 2 ^ 31 := Nat.pow_le_pow_right (by decide) hn
  change 2 * 2 ^ n + 2 * 1 - 1 < 2 ^ 64
  omega

theorem reached_firstState {n : Nat} (hn : n ≤ 31) :
    CleanlyReached Clean (make flattening) (firstState n) := by
  apply CleanlyReached.called CleanlyReached.made
  refine Or.inr ⟨⟨hn, Nat.two_pow_pos n⟩, ?_⟩
  intro k hk
  cases hk
  exact fits_one hn

/-- One qubit: both chunks fit into the cache. -/
theorem pureReads_firstState : PureReads (firstState 1) := by
  refine (pureReads_iff rounds_flattening (reached_firstState (by decide))).mpr (Or.inl ?_)
  have hvalid : (BackendOp.initBasis 1 0 { real := 1, imag := 0 } : BackendOp Real).ValidInit :=
    ⟨by decide, by decide⟩
  have hshaped : (firstState 1).Shaped 1 :=
    Sound.shaped (ChecksArguments.ready_init (G := checksArguments rounds_flattening)
      (make flattening) rfl hvalid (fits_one (by decide))).1
  have hcount : (firstState 1).layout.chunkCount = 2 := hshaped.layout.chunkCount_eq
  rw [hshaped.capacity, hcount]
  exact Nat.le_refl 2

/-- Four chunks of one amplitude, all stored as zero. -/
def flattened (slots : List (Slot Real)) (chunkToSlot : List (Option Nat)) (touches : Nat) :
    CompressedStateBackend flattening :=
  { numQubits := 2
    numStates := 4
    layout :=
      { totalStates := 4
        totalElems := 8
        statesPerChunk := 1
        elemsPerChunk := 2
        chunkCount := 4 }
    store :=
      { chunks := List.replicate 4 { compressed := [0, 0], elemCount := 2 }
        codec := () }
    cache :=
      { capacity := 2
        slots := slots
        reserved := 2
        storage := 1
        chunkToSlot := chunkToSlot
        touchCounter := touches }
    batchDepth := 0 }

theorem firstState_two :
    firstState 2 = flattened [⟨some 0, [1, 0], false, 1⟩] [some 0, none, none, none] 1 := by
  have hzero : initZero 2 (make flattening) =
      (.ok (), flattened [] [none, none, none, none] 0) := rfl
  have hwrite : writeAmplitudeMutable 0 ({ real := 1, imag := 0 } : Amplitude Real)
      (flattened [] [none, none, none, none] 0) =
      (.ok ⟨⟩, flattened [⟨some 0, [1, 0], true, 1⟩] [some 0, none, none, none] 1) := rfl
  have hflush : flushCacheIfNeeded (flattened [⟨some 0, [1, 0], true, 1⟩]
      [some 0, none, none, none] 1) =
      (.ok (), flattened [⟨some 0, [1, 0], false, 1⟩] [some 0, none, none, none] 1) := rfl
  have hrun : (BackendOp.initBasis 2 0 { real := 1, imag := 0 } : BackendOp Real).run
      (make flattening) =
        BackendOp.command (initBasis 2 0 ({ real := 1, imag := 0 } : Amplitude Real))
          (make flattening) := rfl
  have hvalid : (validateStateIndex "CompressedStateBackend::initBasis" 0
      (flattened [] [none, none, none, none] 0).numStates :
        Call (CompressedStateBackend flattening) Unit) = pure () := rfl
  rw [firstState, hrun, command_state, initBasis, Call.bind_ok hzero,
    Call.bind_ok (Call.get_apply _), hvalid, pure_bind, Call.bind_ok hwrite, hflush]

/-- Two qubits: reading two other states evicts the first chunk, whose weight is then gone. -/
theorem reads_change_amplitude :
    CleanlyReached Clean (make flattening) (firstState 2) ∧
      ((BackendOp.amplitude 0 : BackendOp Real).run (firstState 2)).1 =
        .ok (.amplitude { real := 1, imag := 0 }) ∧
      ((BackendOp.amplitude 0 : BackendOp Real).run
          (reached BackendOp.run [.amplitude 1, .amplitude 2] (firstState 2))).1 =
        .ok (.amplitude { real := 0, imag := 0 }) ∧
      ¬ PureReads (firstState 2) := by
  have hfirst : (BackendOp.amplitude 1 : BackendOp Real).run
      (flattened [⟨some 0, [1, 0], false, 1⟩] [some 0, none, none, none] 1) =
      (.ok (.amplitude { real := 0, imag := 0 }),
        flattened [⟨some 0, [1, 0], false, 1⟩, ⟨some 1, [0, 0], false, 2⟩]
          [some 0, some 1, none, none] 2) := rfl
  have hsecond : (BackendOp.amplitude 2 : BackendOp Real).run
      (flattened [⟨some 0, [1, 0], false, 1⟩, ⟨some 1, [0, 0], false, 2⟩]
        [some 0, some 1, none, none] 2) =
      (.ok (.amplitude { real := 0, imag := 0 }),
        flattened [⟨some 2, [0, 0], false, 3⟩, ⟨some 1, [0, 0], false, 2⟩]
          [none, some 1, some 0, none] 3) := rfl
  have hbefore : ((BackendOp.amplitude 0 : BackendOp Real).run (firstState 2)).1 =
      .ok (.amplitude { real := 1, imag := 0 }) := by
    rw [firstState_two]
    rfl
  have hafter : ((BackendOp.amplitude 0 : BackendOp Real).run
      (reached BackendOp.run [.amplitude 1, .amplitude 2] (firstState 2))).1 =
        .ok (.amplitude { real := 0, imag := 0 }) := by
    rw [firstState_two, reached_cons, hfirst, reached_cons, hsecond, reached_nil]
    rfl
  refine ⟨reached_firstState (by decide), hbefore, hafter, ?_⟩
  intro hpure
  have hsame := hpure [.amplitude 1, .amplitude 2] (.amplitude 0) (by simp [BackendOp.Reads])
    trivial
  rw [hbefore, hafter] at hsame
  have hreal := congrArg Amplitude.real (Answer.amplitude.inj (Except.ok.inj hsame))
  exact zero_ne_one hreal

end TwoQubits

end CompressedStateBackend

end Tmfqs
