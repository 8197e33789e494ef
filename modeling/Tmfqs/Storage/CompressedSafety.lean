import Tmfqs.Storage.ArgumentChecks
import Tmfqs.Storage.CompressedMutations
import Tmfqs.Storage.CompressedRefinement
import Tmfqs.Storage.CompressedSound

/-!
# The compressed backend checks its arguments

Every entry point of a sound backend reports unusable arguments before it touches a
chunk, and with usable ones returns and leaves the backend sound.
-/

namespace Tmfqs

open Library ChunkCache PairKernelExecutor

namespace CompressedStateBackend

variable {R B : Type} [Field R] {P : CodecPolicy R B} {round : List R -> List R}
  {hR : P.Rounds round} {n : Nat} {b : CompressedStateBackend P}

/-!
## Pair kernels
-/

omit [Field R] in
theorem chunk_base_lt {state : Nat} (hs : state < 2 ^ n) :
    state / P.chunkStates * P.chunkStates < 2 ^ n :=
  Nat.lt_of_le_of_lt (Nat.div_mul_le_self state P.chunkStates) hs

theorem safe_runOnData (pairFn : PairKernel R) (state0 state1 : Nat) (slot0 : SlotHandle)
    (elem0 : Nat) (slot1 : SlotHandle) (elem1 : Nat) :
    Safe hR n (runOnData pairFn state0 state1 slot0 elem0 slot1 elem1 :
      Call (CompressedStateBackend P) PairMutation) := by
  apply Call.maintains_get_bind
  intro b h
  refine ((safe_writeData slot0 fun buffer => length_writeAmp buffer elem0 _).bind fun _ =>
    (safe_writeData slot1 fun buffer => length_writeAmp buffer elem1 _).bind fun _ =>
      Call.maintains_pure _) b h

omit [Field R] in
theorem safe_markTouched (mutation : PairMutation) (slot0 slot1 : SlotHandle) :
    Safe hR n (markTouched mutation slot0 slot1 : Call (CompressedStateBackend P) PUnit) := by
  have hmark : forall (touched : Bool) (slot : SlotHandle), Safe hR n
      (modifyCache (fun c => if touched then c.setDirty slot else c) :
        Call (CompressedStateBackend P) Unit) := by
    intro touched slot
    cases touched with
    | true => exact safe_setDirty slot
    | false => exact Call.maintains_modify fun _ h => h
  exact (hmark (touchesFirst mutation) slot0).bind fun _ => hmark (touchesSecond mutation) slot1

theorem safe_moveCursor (cursor : Cursor) {k : Nat} (hk : k * P.chunkStates < 2 ^ n) :
    Safe hR n (moveCursor cursor k : Call (CompressedStateBackend P) SlotHandle) := by
  cases cursor with
  | none => exact safe_acquireChunk hk
  | some active =>
      exact Call.Maintains.ite (fun _ => safe_acquireChunk hk) (fun _ => Call.maintains_pure _)

abbrev SafeBeside {τ α : Type} (hR : P.Rounds round) (n : Nat)
    (x : Call (CompressedStateBackend P × τ) α) : Prop :=
  Call.Maintains (fun t => Sound hR n t.1) (fun _ _ => False) x

theorem safe_intraCallback (pairFn : PairKernel R) {k : Nat} (hk : k * P.chunkStates < 2 ^ n)
    (local0 local1 state0 state1 : Nat) :
    SafeBeside hR n (intraCallback pairFn k local0 local1 state0 state1 :
      Call (CompressedStateBackend P × Cursor) PUnit) := by
  apply Call.maintains_get_bind
  intro t h
  refine Call.Maintains.bind (Call.Maintains.onObject (safe_moveCursor t.2 hk)) ?_ t h
  intro slot
  apply Call.Maintains.bind
  · exact Call.maintains_modify fun _ h1 => h1
  intro _
  apply Call.Maintains.bind
  · exact Call.Maintains.onObject (safe_runOnData pairFn state0 state1 slot _ slot _)
  intro mutation
  apply Call.Maintains.ite
  · intro _
    exact Call.Maintains.onObject (safe_setDirty slot)
  · intro _
    exact Call.maintains_pure _

theorem safe_interSlots {k0 k1 : Nat} (hk0 : k0 * P.chunkStates < 2 ^ n)
    (hk1 : k1 * P.chunkStates < 2 ^ n) :
    SafeBeside hR n (interSlots k0 k1 :
      Call (CompressedStateBackend P × Cursor × Cursor) (SlotHandle × SlotHandle)) := by
  apply Call.maintains_get_bind
  intro t h
  refine Call.Maintains.bind (Call.Maintains.onObject (safe_moveCursor t.2.1 hk0)) ?_ t h
  intro slot0
  apply Call.Maintains.bind
  · exact Call.Maintains.onObject (safe_moveCursor t.2.2 hk1)
  intro slot1
  apply Call.Maintains.bind
  · exact Call.maintains_modify fun _ h1 => h1
  intro _
  exact Call.maintains_pure _

theorem safe_interCallback (pairFn : PairKernel R) {k0 k1 : Nat}
    (hk0 : k0 * P.chunkStates < 2 ^ n) (hk1 : k1 * P.chunkStates < 2 ^ n)
    (localState state0 state1 : Nat) :
    SafeBeside hR n (interCallback pairFn k0 k1 localState state0 state1 :
      Call (CompressedStateBackend P × Cursor × Cursor) PUnit) := by
  apply (safe_interSlots hk0 hk1).bind
  intro slots
  apply Call.Maintains.bind
  · exact Call.Maintains.onObject (safe_runOnData pairFn state0 state1 slots.1 _ slots.2 _)
  intro mutation
  exact Call.Maintains.onObject (safe_markTouched mutation slots.1 slots.2)

theorem safe_fallbackCallback (pairFn : PairKernel R) {state0 state1 : Nat}
    (hs0 : state0 < 2 ^ n) (hs1 : state1 < 2 ^ n) :
    Safe hR n (fallbackCallback pairFn state0 state1 :
      Call (CompressedStateBackend P) PUnit) := by
  have hrefs : Safe hR n (fallbackRefs state0 state1 :
      Call (CompressedStateBackend P) (CacheAmplitudeRef × CacheAmplitudeRef)) :=
    (safe_acquireAmplitudeRef hs0).bind fun _ =>
      (safe_acquireAmplitudeRef hs1).bind fun _ => Call.maintains_pure _
  apply hrefs.bind
  intro refs
  apply (safe_runOnData pairFn state0 state1 refs.1.slot _ refs.2.slot _).bind
  intro mutation
  apply Call.Maintains.ite (fun _ => Call.maintains_pure _)
  intro _
  exact Call.Maintains.ite (fun _ => safe_setDirty refs.1.slot)
    (fun _ => safe_markTouched mutation refs.1.slot refs.2.slot)

theorem safe_runPairKernel {bit : Nat} (hbit : bit < n) (pairFn : PairKernel R) :
    Safe hR n (runPairKernel (2 ^ bit) pairFn : Call (CompressedStateBackend P) PUnit) := by
  apply Call.maintains_get_bind
  intro b h
  have hlayout := h.shaped.layout
  have hqubits := h.shaped.qubits
  have hfallback : Safe hR n (runFallback (2 ^ n) (2 ^ bit) (fallbackCallback pairFn) :
      Call (CompressedStateBackend P) PUnit) := by
    rw [runFallback_eq hqubits hbit]
    apply Call.Maintains.forM
    intro p hp
    rcases StateVector.mem_pairList hbit hp with ⟨hs0, hs1, _⟩
    exact safe_fallbackCallback pairFn hs0 hs1
  rw [h.shaped.numStates]
  cases hmode : selectMode b.layout (2 ^ bit) with
  | fallback => exact hfallback b h
  | intraChunk =>
      rcases exists_power_of_exact hlayout (by rw [hmode]; simp) with ⟨c, hc⟩
      rw [hc] at hlayout
      simp only
      rw [runIntraChunk_eq hqubits hbit hlayout (lt_of_intraChunk hlayout hmode), ← hc]
      refine Call.Maintains.withLocal (Call.Maintains.forM ?_) b h
      intro p hp
      rcases StateVector.mem_pairList hbit hp with ⟨hs0, _⟩
      exact safe_intraCallback pairFn (chunk_base_lt hs0) _ _ _ _
  | interChunk =>
      rcases exists_power_of_exact hlayout (by rw [hmode]; simp) with ⟨c, hc⟩
      rw [hc] at hlayout
      simp only
      split
      · rw [runInterChunk_eq hqubits hbit hlayout (le_of_interChunk hlayout hmode), ← hc]
        refine Call.Maintains.withLocal (Call.Maintains.forM ?_) b h
        intro p hp
        rcases StateVector.mem_pairList hbit hp with ⟨hs0, hs1, _⟩
        exact safe_interCallback pairFn (chunk_base_lt hs0) (chunk_base_lt hs1) _ _ _
      · exact hfallback b h

/-!
## Mutations
-/

omit [Field R] in
theorem length_mapPrefix (f : Amplitude R -> Amplitude R) (count : Nat) (buffer : List R) :
    (mapPrefix f count buffer).length = buffer.length := by
  rw [mapPrefix, List.length_append, length_mapAmplitudes, List.length_take, List.length_drop]
  omega

omit [Field R] in
theorem Sound.chunk_base_lt_of_mem (h : Sound hR n b) {k : Nat}
    (hk : k ∈ List.range b.store.chunks.length) : k * P.chunkStates < 2 ^ n := by
  rw [← h.shaped.layout.lt_chunkCount_iff, ← h.shaped.chunks]
  exact List.mem_range.mp hk

theorem safe_mapChunks (f : Amplitude R -> Amplitude R) :
    Safe hR n (mapChunks f : Call (CompressedStateBackend P) Unit) := by
  apply Call.maintains_get_bind
  intro b h
  refine Call.Maintains.forM (fun k hk => ?_) b h
  apply (safe_acquireChunk (h.chunk_base_lt_of_mem hk)).bind
  intro slot
  apply Call.maintains_get_bind
  intro b1 h1
  exact ((safe_writeData slot fun buffer => length_mapPrefix f _ buffer).bind fun _ =>
    safe_setDirty slot) b1 h1

theorem safe_setAmplitude {state : Nat} (hs : state < 2 ^ n) (amp : Amplitude R) :
    Safe hR n (setAmplitude state amp : Call (CompressedStateBackend P) Unit) := by
  apply safe_mutate
  apply Call.maintains_get_bind
  intro b h
  rw [validateStateIndex_eq h.shaped hs, pure_bind]
  exact safe_writeAmplitudeMutable hs amp b h

theorem safe_phaseFlipBasisState {state : Nat} (hs : state < 2 ^ n) :
    Safe hR n (phaseFlipBasisState state : Call (CompressedStateBackend P) Unit) := by
  apply safe_mutate
  apply Call.maintains_get_bind
  intro b h
  rw [validateStateIndex_eq h.shaped hs, pure_bind]
  refine (safe_acquireAmplitudeRef hs).bind (fun ref => ?_) b h
  exact (safe_writeData ref.slot fun buffer => length_writeAmp buffer ref.elemOffset _).bind
    fun _ => safe_setDirty ref.slot

theorem safe_inversionAboutMean :
    Safe hR n (inversionAboutMean : Call (CompressedStateBackend P) Unit) := by
  apply safe_mutate
  apply Call.maintains_get_bind
  intro b h
  refine (Call.Maintains.foldlM (fun sum k hk => ?_) _).bind (fun sum => safe_mapChunks _) b h
  apply (safe_acquireChunk (h.chunk_base_lt_of_mem hk)).bind
  intro slot
  exact Call.maintains_get_bind fun _ h1 => h1

/-!
## Gates
-/

section Gates

variable [LinearOrder R] [CMath R]

omit [LinearOrder R] [CMath R] in
theorem safe_pairKernel (operation : String) {qubit : Nat} (hq : qubit < n) (hn : n ≤ 31)
    (pairFn : PairKernel R) :
    Safe hR n (mutate operation (runPairKernel (qubitMaskFromMsbIndex qubit n) pairFn) :
      Call (CompressedStateBackend P) Unit) := by
  apply safe_mutate
  rw [qubitMaskFromMsbIndex_eq hn]
  exact safe_runPairKernel (by omega) pairFn

omit [Field R] [LinearOrder R] [CMath R] in
theorem post_qubitGate (h : Sound hR n b) (operation scopeName : String) {qubit : Nat}
    (hq : qubit < n) (gate : Nat -> Call (CompressedStateBackend P) Unit)
    (hgate : Safe hR n (gate n)) :
    Call.Post (do
      ensureInitialized operation
      let b <- get
      validateQubitIndex scopeName qubit b.numQubits
      gate b.numQubits) b (fun _ b' => Sound hR n b') (fun _ _ => False) := by
  rw [Call.post_bind_iff]
  refine Call.post_of_ok (ensureInitialized_eq h.shaped operation) ?_
  rw [Call.post_bind_iff, Call.post_get, h.shaped.numQubits, validateQubitIndex_ok _ hq, pure_bind]
  exact hgate b h

omit [Field R] [LinearOrder R] [CMath R] in
theorem post_qubitsGate (h : Sound hR n b) (operation scopeName : String) {q0 q1 : Nat}
    (h0 : q0 < n) (h1 : q1 < n) (hne : q0 ≠ q1) (gate : Nat -> Call (CompressedStateBackend P) Unit)
    (hgate : Safe hR n (gate n)) :
    Call.Post (do
      ensureInitialized operation
      let b <- get
      validateBackendTwoQubits scopeName q0 q1 b.numQubits
      gate b.numQubits) b (fun _ b' => Sound hR n b') (fun _ _ => False) := by
  rw [Call.post_bind_iff]
  refine Call.post_of_ok (ensureInitialized_eq h.shaped operation) ?_
  rw [Call.post_bind_iff, Call.post_get, h.shaped.numQubits,
    validateBackendTwoQubits_ok _ h0 h1 hne, pure_bind]
  exact hgate b h

theorem safe_applyHadamard {qubit : Nat} (hq : qubit < n) :
    Safe hR n (applyHadamard qubit : Call (CompressedStateBackend P) Unit) :=
  fun _ h => post_qubitGate h _ _ hq
    (fun m => mutate "Hadamard" (runPairKernel (qubitMaskFromMsbIndex qubit m) hadamardPair))
    (safe_pairKernel _ hq h.shaped.qubits _)

omit [CMath R] in
theorem safe_applyPauliX {qubit : Nat} (hq : qubit < n) :
    Safe hR n (applyPauliX qubit : Call (CompressedStateBackend P) Unit) :=
  fun _ h => post_qubitGate h _ _ hq
    (fun m => mutate "PauliX" (runPairKernel (qubitMaskFromMsbIndex qubit m) pauliXPair))
    (safe_pairKernel _ hq h.shaped.qubits _)

theorem safe_applyControlledPhaseShift {control target : Nat} (hcontrol : control < n)
    (htarget : target < n) (hne : control ≠ target) (theta : R) :
    Safe hR n (applyControlledPhaseShift control target theta :
      Call (CompressedStateBackend P) Unit) :=
  fun _ h => post_qubitsGate h _ _ hcontrol htarget hne
    (fun m => mutate "controlled phase shift" (runPairKernel (qubitMaskFromMsbIndex target m)
      (controlledPhaseShiftPair (qubitMaskFromMsbIndex control m) theta)))
    (safe_pairKernel _ htarget h.shaped.qubits _)

omit [CMath R] in
theorem safe_applyControlledNot {control target : Nat} (hcontrol : control < n)
    (htarget : target < n) (hne : control ≠ target) :
    Safe hR n (applyControlledNot control target : Call (CompressedStateBackend P) Unit) :=
  fun _ h => post_qubitsGate h _ _ hcontrol htarget hne
    (fun m => mutate "controlled not" (runPairKernel (qubitMaskFromMsbIndex target m)
      (controlledNotPair (qubitMaskFromMsbIndex control m))))
    (safe_pairKernel _ htarget h.shaped.qubits _)

omit [CMath R] in
theorem safe_blocks (operation scopeName : String) {gate : QuantumGate R} {qubits : List Nat}
    (hvalid : ValidTargets qubits n gate.dimension) :
    Safe hR n (mutate operation do
      let b <- get
      GateApplyEngine.apply scopeName gate qubits b.numQubits
        readAmplitudeMutable writeAmplitudeMutable : Call (CompressedStateBackend P) Unit) := by
  apply safe_mutate
  apply Call.maintains_get_bind
  intro b h
  rw [h.shaped.numQubits, gateApplyEngine_eq _ gate h.shaped.qubits hvalid]
  refine Call.Maintains.forM (fun block _ => ?_) b h
  have hlt : forall s, s ∈ blockIndices qubits n block -> s < 2 ^ n := by
    intro s hs
    rw [blockIndices, List.mem_map] at hs
    rcases hs with ⟨row, _, rfl⟩
    exact blockState_lt hvalid block row
  apply (Call.Maintains.mapM fun s hs => safe_readAmplitudeMutable (hlt s hs)).bind
  intro localAmps
  apply Call.Maintains.ite (fun _ => Call.maintains_pure _)
  intro _
  apply Call.Maintains.forM
  intro row hrow
  apply safe_writeAmplitudeMutable
  apply hlt
  have hrow' := List.mem_range.mp hrow
  rw [List.getD_eq_getElem?_getD, List.getElem?_eq_getElem hrow']
  exact List.getElem_mem hrow'

theorem safe_applyGate {gate : QuantumGate R} {qubits : List Nat}
    (hvalid : ValidTargets qubits n gate.dimension) :
    Safe hR n (applyGate gate qubits : Call (CompressedStateBackend P) Unit) := by
  intro b h
  rw [applyGate, Call.post_bind_iff]
  refine Call.post_of_ok (ensureInitialized_eq h.shaped _) ?_
  cases hpath : fastPath gate qubits.length with
  | hadamard =>
      have hlen := fastPath_one (Or.inl hpath)
      exact safe_applyHadamard (hvalid.getD_lt (by omega)) b h
  | pauliX =>
      have hlen := fastPath_one (Or.inr hpath)
      exact safe_applyPauliX (hvalid.getD_lt (by omega)) b h
  | controlledNot =>
      have hlen := fastPath_two (Or.inl hpath)
      exact safe_applyControlledNot (hvalid.getD_lt (by omega)) (hvalid.getD_lt (by omega))
        (hvalid.getD_ne hlen) b h
  | controlledPhaseShift theta =>
      have hlen := fastPath_two (Or.inr ⟨theta, hpath⟩)
      exact safe_applyControlledPhaseShift (hvalid.getD_lt (by omega))
        (hvalid.getD_lt (by omega)) (hvalid.getD_ne hlen) theta b h
  | blocks => exact safe_blocks _ _ hvalid b h

end Gates

/-!
## Batches and queries
-/

section

omit [Field R]

theorem Sound.batched (h : Sound hR n b) (depth : Nat) :
    Sound hR n { b with batchDepth := depth } := by
  rcases h with ⟨X, S, hX⟩
  apply Contains.sound
  exact Contains.moved (b := { b with batchDepth := depth }) (hX.shaped.batched depth) hX.length (fun _ => rfl) hX.shaped.coherent ⟨rfl, rfl⟩ hX.content

theorem Contains.cloned {X S : Nat -> List R} (h : Contains hR n X S b) :
    Contains hR n X S (clone b) := by
  have hstore : Content (ChunkVector.chunkStore hR b.layout.chunkCount) b.cache
      { b.store with codec := P.clone b.store.codec } X S :=
    h.content.keep (fun _ _ hs => hs) (fun _ _ hs => hs)
  have hcontent : Content (ChunkVector.chunkStore hR b.layout.chunkCount) b.cache.copy
      { b.store with codec := P.clone b.store.codec } X S :=
    hstore.congr rfl (fun _ => rfl)
  exact Contains.moved (b := b) h.shaped h.length (fun _ => rfl) h.shaped.coherent.copy
    ⟨rfl, rfl⟩ hcontent

theorem Sound.cloned (h : Sound hR n b) : Sound hR n (clone b) := by
  rcases h with ⟨X, S, hX⟩
  exact hX.cloned.sound

theorem safe_beginOperationBatch :
    Safe hR n (beginOperationBatch : Call (CompressedStateBackend P) Unit) := by
  intro b h
  rw [beginOperationBatch, Call.post_bind_iff]
  refine Call.post_of_ok (ensureInitialized_eq h.shaped _) ?_
  exact h.batched _

theorem post_endOperationBatch (h : Sound hR n b) :
    Call.Post endOperationBatch b (fun _ b' => Sound hR n b')
      (fun e b' => e.kind = .logicError ∧ Sound hR n b') := by
  rw [endOperationBatch, Call.post_bind_iff, Call.post_get]
  by_cases hdepth : b.batchDepth = 0
  · rw [if_pos hdepth]
    exact ⟨rfl, h⟩
  · rw [if_neg hdepth]
    change Call.Post (modify _ >>= fun _ => flushCacheIfNeeded) b _ _
    rw [Call.post_bind_iff, Call.post_modify]
    exact (safe_flushCacheIfNeeded _ (h.batched _)).imp (fun _ _ h' => h') (fun _ _ he => he.elim)

end

theorem safe_amplitude {state : Nat} (hs : state < 2 ^ n) :
    Safe hR n (amplitude state : Call (CompressedStateBackend P) (Amplitude R)) := by
  intro b h
  rw [amplitude, Call.post_bind_iff]
  refine Call.post_of_ok (ensureInitialized_eq h.shaped _) ?_
  rw [Call.post_bind_iff, Call.post_get, validateStateIndex_eq h.shaped hs, pure_bind]
  exact safe_findAmplitude hs b h

omit [Field R] in
theorem Sound.answers {α : Type} {call : Call (CompressedStateBackend P) α}
    {answer : (Nat -> List R) -> Except ExcKind α} (h : Sound hR n b)
    (hcall : forall X S, Contains hR n X S b -> Answers call b (answer X) (CodecOnly b)) :
    Call.Post call b (fun _ b' => Sound hR n b')
      (fun e b' => (exists X, answer X = .error e.kind) ∧ Sound hR n b') := by
  rcases h with ⟨X, S, hX⟩
  refine (hcall X S hX).imp ?_ ?_
  · rintro a b' ⟨_, hcodec⟩
    exact ⟨X, S, hX.codecOnly hcodec⟩
  · rintro e b' ⟨he, hcodec⟩
    exact ⟨⟨X, he⟩, X, S, hX.codecOnly hcodec⟩

/-!
## Initialisation
-/

omit [Field R] in
theorem Filled.sound {v : List R} (hv : v.length = 2 * 2 ^ n) (h : Filled P round n v b) :
    Sound hR n b := by
  have hlength : forall k, (storedChunks P round v k).length = 2 * b.layout.statesIn k := by
    intro k
    rw [storedChunks, hR.length]
    exact length_chunkOf_eq h.shaped.layout hv k
  refine ⟨storedChunks P round v, storedChunks P round v, ?_⟩
  exact
    { shaped := h.shaped
      length := fun k _ => hlength k
      content := Filling.content hR h fun k => length_chunkOf_eq h.shaped.layout hv k }

section Init

variable [LinearOrder R] [CMath R]

theorem init_sound {op : BackendOp R} {m : Nat} (b : CompressedStateBackend P)
    (hsize : op.size = some m) (hvalid : op.ValidInit)
    (hfits : ChunkLayout.Fits (2 ^ m) P.chunkStates) : Does op.run b (Sound hR m) := by
  have command : forall {call : Call (CompressedStateBackend P) Unit},
      Does call b (Sound hR m) -> Does (BackendOp.command (R := R) call) b (Sound hR m) := by
    intro call h
    rw [Does, BackendOp.command, Call.post_bind_iff]
    exact h
  cases op with
  | initZero k =>
      cases hsize
      exact command ((post_initZero hR b hvalid hfits).mono fun _ _ h =>
        Filled.sound (StateVector.length_zero m) h)
  | initBasis k s amp =>
      cases hsize
      apply command
      change Call.Post (initBasis m s amp) b _ _
      rw [initBasis, Call.post_bind_iff]
      refine (post_initZero hR b hvalid.1 hfits).mono ?_
      intro _ b1 h1
      have hsound : Sound hR m b1 := Filled.sound (StateVector.length_zero m) h1
      rw [Call.post_bind_iff, Call.post_get, validateStateIndex_eq h1.shaped hvalid.2, pure_bind]
      exact ((safe_writeAmplitudeMutable hvalid.2 amp).bind fun _ =>
        safe_flushCacheIfNeeded) b1 hsound
  | initUniformSuperposition k states =>
      cases hsize
      exact command ((post_initUniformSuperposition hR b hvalid.1 hfits hvalid.2.1
        hvalid.2.2).mono fun _ _ h => Filled.sound (StateVector.length_uniform m states) h)
  | loadAmplitudes k data =>
      cases hsize
      exact command ((post_loadAmplitudes hR b hvalid.1 hfits hvalid.2).mono fun _ _ h =>
        Filled.sound hvalid.2 h)
  | _ => cases hsize

end Init

/-!
## Unusable arguments
-/

section Rejections

variable [LinearOrder R] [CMath R]

theorem fastPath_dimension {gate : QuantumGate R} {k : Nat} (h : fastPath gate k ≠ .blocks) :
    gate.dimension = 2 ^ k := by
  by_contra hdim
  apply h
  rw [fastPath]
  split
  · rename_i hk
    subst hk
    have hdim' : ¬ gate.dimension = 2 := hdim
    rw [if_neg (by simp [matchesHadamardGate, hdim']), if_neg (by simp [matchesPauliXGate, hdim'])]
  · split
    · rename_i hk
      subst hk
      have hdim' : ¬ gate.dimension = 4 := hdim
      rw [if_neg (by simp [matchesControlledNotGate, hdim'])]
      simp [matchControlledPhaseShiftGate, hdim']
    · rfl

section

omit [Field R] [LinearOrder R] [CMath R]

theorem Shaped.rejects_state (h : b.Shaped n) {state : Nat} (hs : ¬ state < 2 ^ n)
    (scopeName : String) :
    Rejects (validateStateIndex scopeName state b.numStates) b := by
  rw [h.numStates]
  exact rejects_stateIndex scopeName h.qubits hs

theorem Shaped.rejects_mutate (h : b.Shaped n) (operation : String)
    {mutateFn : Call (CompressedStateBackend P) Unit} (hfn : Rejects mutateFn b) :
    Rejects (mutate operation mutateFn) b :=
  Rejects.after (ensureInitialized_eq h operation) (hfn.bind _)

theorem Shaped.rejects_qubitGate (h : b.Shaped n) (operation scopeName : String) {qubit : Nat}
    (hq : ¬ qubit < n) (gate : Nat -> Call (CompressedStateBackend P) Unit) :
    Rejects (do
      ensureInitialized operation
      let b <- get
      validateQubitIndex scopeName qubit b.numQubits
      gate b.numQubits) b := by
  apply Rejects.after (ensureInitialized_eq h operation)
  apply Rejects.after (Call.get_apply b)
  rw [h.numQubits]
  exact (rejects_qubitIndex scopeName hq).bind _

theorem Shaped.rejects_qubitsGate (h : b.Shaped n) (operation scopeName : String) {q0 q1 : Nat}
    (hq : ¬ (q0 < n ∧ q1 < n ∧ q0 ≠ q1)) (gate : Nat -> Call (CompressedStateBackend P) Unit) :
    Rejects (do
      ensureInitialized operation
      let b <- get
      validateBackendTwoQubits scopeName q0 q1 b.numQubits
      gate b.numQubits) b := by
  apply Rejects.after (ensureInitialized_eq h operation)
  apply Rejects.after (Call.get_apply b)
  rw [h.numQubits]
  exact (rejects_twoQubits scopeName hq).bind _

end

theorem Shaped.rejects_applyHadamard (h : b.Shaped n) {qubit : Nat} (hq : ¬ qubit < n) :
    Rejects (applyHadamard qubit) b :=
  h.rejects_qubitGate _ _ hq fun m =>
    mutate "Hadamard" (runPairKernel (qubitMaskFromMsbIndex qubit m) hadamardPair)

omit [CMath R] in
theorem Shaped.rejects_applyPauliX (h : b.Shaped n) {qubit : Nat} (hq : ¬ qubit < n) :
    Rejects (applyPauliX qubit) b :=
  h.rejects_qubitGate _ _ hq fun m =>
    mutate "PauliX" (runPairKernel (qubitMaskFromMsbIndex qubit m) pauliXPair)

theorem Shaped.rejects_applyControlledPhaseShift (h : b.Shaped n) {control target : Nat}
    (hq : ¬ (control < n ∧ target < n ∧ control ≠ target)) (theta : R) :
    Rejects (applyControlledPhaseShift control target theta) b :=
  h.rejects_qubitsGate _ _ hq fun m =>
    mutate "controlled phase shift" (runPairKernel (qubitMaskFromMsbIndex target m)
      (controlledPhaseShiftPair (qubitMaskFromMsbIndex control m) theta))

omit [CMath R] in
theorem Shaped.rejects_applyControlledNot (h : b.Shaped n) {control target : Nat}
    (hq : ¬ (control < n ∧ target < n ∧ control ≠ target)) :
    Rejects (applyControlledNot control target) b :=
  h.rejects_qubitsGate _ _ hq fun m =>
    mutate "controlled not" (runPairKernel (qubitMaskFromMsbIndex target m)
      (controlledNotPair (qubitMaskFromMsbIndex control m)))

theorem Shaped.rejects_applyGate (h : b.Shaped n) {gate : QuantumGate R} {qubits : List Nat}
    (hgate : ¬ ValidTargets qubits n gate.dimension) : Rejects (applyGate gate qubits) b := by
  apply Rejects.after (ensureInitialized_eq h _)
  cases hpath : fastPath gate qubits.length with
  | hadamard =>
      have hdim := fastPath_dimension (by rw [hpath]; simp)
      exact h.rejects_applyHadamard fun hq =>
        hgate (ValidTargets.of_getD_zero (fastPath_one (Or.inl hpath)) hdim hq)
  | pauliX =>
      have hdim := fastPath_dimension (by rw [hpath]; simp)
      exact h.rejects_applyPauliX fun hq =>
        hgate (ValidTargets.of_getD_zero (fastPath_one (Or.inr hpath)) hdim hq)
  | controlledNot =>
      have hdim := fastPath_dimension (by rw [hpath]; simp)
      exact h.rejects_applyControlledNot fun hq =>
        hgate (ValidTargets.of_getD_one (fastPath_two (Or.inl hpath)) hdim hq)
  | controlledPhaseShift theta =>
      have hdim := fastPath_dimension (by rw [hpath]; simp)
      refine h.rejects_applyControlledPhaseShift (fun hq => ?_) theta
      exact hgate (ValidTargets.of_getD_one (fastPath_two (Or.inr ⟨theta, hpath⟩)) hdim hq)
  | blocks =>
      apply h.rejects_mutate
      apply Rejects.after (Call.get_apply b)
      rw [h.numQubits]
      exact rejects_gateApplyEngine _ hgate _ _ b

omit [LinearOrder R] [CMath R] in
theorem Shaped.rejects_amplitude (h : b.Shaped n) {state : Nat} (hs : ¬ state < 2 ^ n) :
    Rejects (amplitude state) b := by
  apply Rejects.after (ensureInitialized_eq h _)
  apply Rejects.after (Call.get_apply b)
  exact (h.rejects_state hs _).bind _

omit [CMath R] in
theorem Shaped.rejects_sampleMeasurement (h : b.Shaped n) {rnd : R}
    (hrnd : ¬ (0 ≤ rnd ∧ rnd < 1)) : Rejects (sampleMeasurement rnd) b := by
  apply Rejects.after (ensureInitialized_eq h _)
  rw [if_pos]
  · exact (rejects_throw rfl b).bind _
  · by_contra hrange
    rw [not_or, not_lt, ge_iff_le, not_le] at hrange
    exact hrnd hrange

omit [CMath R] in
theorem Shaped.rejects_printNonZeroStates (h : b.Shaped n) {epsilon : R} (heps : ¬ 0 ≤ epsilon) :
    Rejects (printNonZeroStates epsilon) b := by
  apply Rejects.after (ensureInitialized_eq h _)
  rw [if_pos (not_le.mp heps)]
  exact (rejects_throw rfl b).bind _

theorem Shaped.rejects (h : b.Shaped n) {op : BackendOp R} (hsize : op.size = none)
    (hop : ¬ op.ArgumentsOk n) : Rejects op.run b := by
  cases op with
  | initZero m => cases hsize
  | initBasis m t amp => cases hsize
  | initUniformSuperposition m states => cases hsize
  | loadAmplitudes m data => cases hsize
  | setAmplitude t amp =>
      apply Rejects.command
      apply h.rejects_mutate
      apply Rejects.after (Call.get_apply b)
      exact (h.rejects_state (fun hs => hop ⟨trivial, hs⟩) _).bind _
  | phaseFlipBasisState t =>
      apply Rejects.command
      apply h.rejects_mutate
      apply Rejects.after (Call.get_apply b)
      exact (h.rejects_state (fun hs => hop ⟨trivial, hs⟩) _).bind _
  | inversionAboutMean => exact (hop ⟨trivial, trivial⟩).elim
  | inversionAboutMeanWith mean => exact (hop ⟨trivial, trivial⟩).elim
  | applyAffineTransform scale bias => exact (hop ⟨trivial, trivial⟩).elim
  | applyHadamard q => exact (h.rejects_applyHadamard fun hq => hop ⟨trivial, hq⟩).command
  | applyPauliX q => exact (h.rejects_applyPauliX fun hq => hop ⟨trivial, hq⟩).command
  | applyControlledPhaseShift c q theta =>
      exact (h.rejects_applyControlledPhaseShift (fun hq => hop ⟨trivial, hq⟩) theta).command
  | applyControlledNot c q =>
      exact (h.rejects_applyControlledNot fun hq => hop ⟨trivial, hq⟩).command
  | applyGate gate qubits => exact (h.rejects_applyGate fun hgate => hop ⟨trivial, hgate⟩).command
  | beginOperationBatch => exact (hop ⟨trivial, trivial⟩).elim
  | endOperationBatch => exact (hop ⟨trivial, Nat.one_pos⟩).elim
  | amplitude t => exact (h.rejects_amplitude fun hs => hop ⟨trivial, hs⟩).query
  | probability t => exact ((h.rejects_amplitude fun hs => hop ⟨trivial, hs⟩).bind _).query
  | totalProbability => exact (hop ⟨trivial, trivial⟩).elim
  | exportAmplitudes => exact (hop ⟨trivial, trivial⟩).elim
  | forEachAmplitudeChunk => exact (hop ⟨trivial, trivial⟩).elim
  | sampleMeasurement rnd => exact (h.rejects_sampleMeasurement hop).query
  | printNonZeroStates epsilon => exact (h.rejects_printNonZeroStates hop).query

end Rejections

/-!
## Usable arguments
-/

section Calls

variable [LinearOrder R] [CMath R]

theorem Sound.call (h : Sound hR n b) {op : BackendOp R} (hsize : op.size = none)
    (hop : op.ArgumentsOk n) :
    Call.Post op.run b (fun _ b' => Sound hR n b')
      (fun e b' => op.MayThrow e.kind ∧ Sound hR n b') := by
  have command : forall {call : Call (CompressedStateBackend P) Unit}, Safe hR n call ->
      Call.Post (BackendOp.command (R := R) call) b (fun _ b' => Sound hR n b')
        (fun e b' => op.MayThrow e.kind ∧ Sound hR n b') := by
    intro call hcall
    rw [BackendOp.command, Call.post_bind_iff]
    exact (hcall b h).imp (fun _ _ h' => h') (fun _ _ he => he.elim)
  have query : forall {α : Type} {wrap : α -> Answer R} {call : Call (CompressedStateBackend P) α}
      {answer : (Nat -> List R) -> Except ExcKind α},
      (forall X S, Contains hR n X S b -> Answers call b (answer X) (CodecOnly b)) ->
      (forall X kind, answer X = .error kind -> op.MayThrow kind) ->
      Call.Post (BackendOp.query wrap call) b (fun _ b' => Sound hR n b')
        (fun e b' => op.MayThrow e.kind ∧ Sound hR n b') := by
    intro α wrap call answer hcall hkind
    rw [BackendOp.query, Call.post_bind_iff]
    refine (h.answers hcall).imp (fun _ _ h' => h') ?_
    rintro e b' ⟨⟨X, he⟩, h'⟩
    exact ⟨hkind X _ he, h'⟩
  cases op with
  | initZero m => cases hsize
  | initBasis m t amp => cases hsize
  | initUniformSuperposition m states => cases hsize
  | loadAmplitudes m data => cases hsize
  | setAmplitude t amp => exact command (safe_setAmplitude hop.2 amp)
  | phaseFlipBasisState t => exact command (safe_phaseFlipBasisState hop.2)
  | inversionAboutMean => exact command safe_inversionAboutMean
  | inversionAboutMeanWith mean => exact command (safe_mutate _ (safe_mapChunks _))
  | applyAffineTransform scale bias => exact command (safe_mutate _ (safe_mapChunks _))
  | applyHadamard q => exact command (safe_applyHadamard hop.2)
  | applyPauliX q => exact command (safe_applyPauliX hop.2)
  | applyControlledPhaseShift c q theta =>
      exact command (safe_applyControlledPhaseShift hop.2.1 hop.2.2.1 hop.2.2.2 theta)
  | applyControlledNot c q =>
      exact command (safe_applyControlledNot hop.2.1 hop.2.2.1 hop.2.2.2)
  | applyGate gate qubits => exact command (safe_applyGate hop.2)
  | beginOperationBatch => exact command safe_beginOperationBatch
  | endOperationBatch =>
      change Call.Post (endOperationBatch >>= _) b _ _
      rw [Call.post_bind_iff]
      exact post_endOperationBatch h
  | amplitude t =>
      change Call.Post (amplitude t >>= _) b _ _
      rw [Call.post_bind_iff]
      exact (safe_amplitude hop.2 b h).imp (fun _ _ h' => h') (fun _ _ he => he.elim)
  | probability t =>
      change Call.Post ((amplitude t >>= _) >>= _) b _ _
      rw [Call.post_bind_iff, Call.post_bind_iff]
      exact (safe_amplitude hop.2 b h).imp (fun _ _ h' => h') (fun _ _ he => he.elim)
  | totalProbability =>
      exact query (fun X S hX => totalProbability_sees hX) (fun X kind he => by cases he)
  | exportAmplitudes =>
      exact query (fun X S hX => exportAmplitudes_sees hX) (fun X kind he => by cases he)
  | forEachAmplitudeChunk =>
      exact query (fun X S hX => forEachAmplitudeChunk_sees hX) (fun X kind he => by cases he)
  | sampleMeasurement rnd =>
      refine query (fun X S hX => sampleMeasurement_sees hX rnd) ?_
      intro X kind he
      have hrange : ¬ (rnd < 0 ∨ rnd ≥ 1) := by
        rintro (hneg | hlarge)
        · exact absurd hop.1 (not_le.mpr hneg)
        · exact absurd hop.2 (not_lt.mpr hlarge)
      rw [seenSample, if_neg hrange] at he
      split at he
      · cases he
      · cases he
        rfl
  | printNonZeroStates epsilon =>
      refine query (fun X S hX => printNonZeroStates_sees hX epsilon) ?_
      intro X kind he
      rw [seenPrint, if_neg (not_lt.mpr hop)] at he
      cases he

def checksArguments (hR : P.Rounds round) :
    ChecksArguments (R := R) (CompressedStateBackend P) where
  Ready := Sound hR
  Size n := ChunkLayout.Fits (2 ^ n) P.chunkStates
  bound h := ⟨h.shaped.qubits, h.shaped.layout.fits⟩
  init b hsize hvalid hfits := init_sound b hsize hvalid hfits
  call h hsize hop := h.call hsize hop
  rejects h hsize hop := h.shaped.rejects hsize hop
  clone h := h.cloned

end Calls

end CompressedStateBackend

end Tmfqs
