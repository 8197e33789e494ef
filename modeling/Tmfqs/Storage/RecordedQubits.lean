import Tmfqs.Library.Ignores
import Tmfqs.Storage.BackendRuns
import Tmfqs.Storage.CompressedStateBackend

/-!
# The recorded number of qubits

A rejected initialisation with more than 63 qubits changes the recorded number of qubits and
nothing else.  Only gates and `exportAmplitudes` look at that number again; every other call
runs as if the initialisation had not been tried.
-/

namespace Tmfqs

open Library PairKernelExecutor

/-- The calls that set the recorded number of qubits or look at it. -/
def BackendOp.ReadsQubits {R : Type} : BackendOp R -> Prop
  | setAmplitude _ _ => False
  | phaseFlipBasisState _ => False
  | inversionAboutMean => False
  | inversionAboutMeanWith _ => False
  | applyAffineTransform _ _ => False
  | beginOperationBatch => False
  | endOperationBatch => False
  | amplitude _ => False
  | probability _ => False
  | totalProbability => False
  | forEachAmplitudeChunk => False
  | sampleMeasurement _ => False
  | printNonZeroStates _ => False
  | _ => True

def BackendOp.qubits {R : Type} : BackendOp R -> List Nat
  | applyHadamard qubit => [qubit]
  | applyPauliX qubit => [qubit]
  | applyControlledPhaseShift control target _ => [control, target]
  | applyControlledNot control target => [control, target]
  | applyGate _ qubits => qubits
  | _ => []

section Checks

variable {σ : Type} {f : σ -> σ}

theorem ignores_validateStateIndex (scopeName : String) (state stateCount : Nat) :
    Call.Ignores f (validateStateIndex scopeName state stateCount) :=
  Call.Ignores.ite (Call.ignores_throw _) (Call.ignores_pure _)

theorem ignores_ensureBackendInitialized (initialized : Bool) (backendName operation : String) :
    Call.Ignores f (ensureBackendInitialized initialized backendName operation) :=
  Call.Ignores.ite (Call.ignores_pure _) (Call.ignores_throw _)

theorem ignores_chunkElemCount (layout : ChunkLayout) (k : Nat) :
    Call.Ignores f (layout.chunkElemCount k) :=
  Call.Ignores.ite (Call.ignores_throw _) (Call.ignores_pure _)

theorem ignores_chunkStateBegin (layout : ChunkLayout) (k : Nat) :
    Call.Ignores f (layout.chunkStateBegin k) :=
  Call.Ignores.ite (Call.ignores_throw _) (Call.ignores_pure _)

end Checks

/-!
## Traversals of pairs
-/

section Traversals

variable {σ : Type} {f : σ -> σ}

theorem ignores_runFallback (numStates targetMask : Nat) {pairFn : Nat -> Nat -> Call σ PUnit}
    (h : forall s0 s1, Call.Ignores f (pairFn s0 s1)) :
    Call.Ignores f (runFallback numStates targetMask pairFn) := by
  apply Call.Ignores.strideLoop
  intro base
  apply Call.Ignores.forM
  intro offset
  exact h _ _

theorem ignores_runIntraChunk (layout : ChunkLayout) (targetMask : Nat)
    {pairFn : Nat -> Nat -> Nat -> Nat -> Nat -> Call σ PUnit}
    (h : forall k l0 l1 s0 s1, Call.Ignores f (pairFn k l0 l1 s0 s1)) :
    Call.Ignores f (runIntraChunk layout targetMask pairFn) := by
  apply Call.Ignores.forM
  intro k
  apply (ignores_chunkElemCount layout k).bind
  intro elemCount
  apply (ignores_chunkStateBegin layout k).bind
  intro chunkBaseState
  apply Call.Ignores.strideLoop
  intro base
  apply Call.Ignores.forM
  intro offset
  exact h _ _ _ _ _

theorem ignores_runInterChunk (layout : ChunkLayout) (targetMask : Nat)
    {pairFn : Nat -> Nat -> Nat -> Nat -> Nat -> Call σ PUnit}
    (h : forall k0 k1 l s0 s1, Call.Ignores f (pairFn k0 k1 l s0 s1)) :
    Call.Ignores f (runInterChunk layout targetMask pairFn) := by
  apply Call.Ignores.strideLoop
  intro groupBase
  apply Call.Ignores.forM
  intro groupOffset
  apply (ignores_chunkElemCount layout _).bind
  intro elems0
  apply (ignores_chunkElemCount layout _).bind
  intro elems1
  apply (ignores_chunkStateBegin layout _).bind
  intro begin0
  apply (ignores_chunkStateBegin layout _).bind
  intro begin1
  apply Call.Ignores.forM
  intro localState
  exact h _ _ _ _ _

end Traversals

namespace CompressedStateBackend

variable {R B : Type} [Field R] {P : CodecPolicy R B}

/-- The backend with another number of qubits recorded. -/
def renumber (n : Nat) (b : CompressedStateBackend P) : CompressedStateBackend P :=
  { b with numQubits := n }

omit [Field R] in
@[simp] theorem renumber_renumber (m n : Nat) (b : CompressedStateBackend P) :
    renumber m (renumber n b) = renumber m b := rfl

omit [Field R] in
@[simp] theorem renumber_self (b : CompressedStateBackend P) : renumber b.numQubits b = b := rfl

/-- The call runs the same whatever number of qubits is recorded. -/
abbrev Unnumbered {α : Type} (x : Call (CompressedStateBackend P) α) : Prop :=
  forall n, Call.Ignores (renumber n) x

section Accesses

variable {n : Nat}

omit [Field R] in
theorem ignores_ensureInitialized (operation : String) :
    Call.Ignores (renumber n)
      (ensureInitialized operation : Call (CompressedStateBackend P) Unit) :=
  Call.ignores_get_bind (fun _ => rfl) fun _ => ignores_ensureBackendInitialized _ _ _

omit [Field R] in
theorem ignores_modifyCache (g : ChunkCache R -> ChunkCache R) :
    Call.Ignores (renumber n) (modifyCache g : Call (CompressedStateBackend P) Unit) :=
  Call.ignores_modify fun _ => rfl

theorem ignores_acquireChunk (k : Nat) :
    Call.Ignores (renumber n) (acquireChunk k : Call (CompressedStateBackend P) SlotHandle) := by
  rw [acquireChunk, onCached]
  exact Call.ignores_focus _ (fun _ => rfl) (fun _ _ => rfl)

omit [Field R] in
theorem ignores_flushCache :
    Call.Ignores (renumber n) (flushCache : Call (CompressedStateBackend P) Unit) := by
  rw [flushCache, onCached]
  exact Call.ignores_focus _ (fun _ => rfl) (fun _ _ => rfl)

omit [Field R] in
theorem ignores_flushCacheIfNeeded :
    Call.Ignores (renumber n) (flushCacheIfNeeded : Call (CompressedStateBackend P) Unit) :=
  Call.ignores_get_bind (fun _ => rfl) fun _ =>
    Call.Ignores.ite ignores_flushCache (Call.ignores_pure _)

theorem ignores_acquireAmplitudeRef (state : Nat) :
    Call.Ignores (renumber n)
      (acquireAmplitudeRef state : Call (CompressedStateBackend P) CacheAmplitudeRef) :=
  Call.ignores_get_bind (fun _ => rfl) fun _ =>
    (ignores_acquireChunk _).bind fun _ => Call.ignores_pure _

theorem ignores_findAmplitude (state : Nat) :
    Call.Ignores (renumber n)
      (findAmplitude state : Call (CompressedStateBackend P) (Amplitude R)) := by
  refine Call.ignores_get_bind (fun _ => rfl) ?_
  intro b
  dsimp only
  split
  · exact Call.ignores_pure _
  · apply (ignores_acquireChunk _).bind
    intro slot
    exact Call.ignores_get_bind (fun _ => rfl) fun _ => Call.ignores_pure _

theorem ignores_writeAmplitudeMutable (state : Nat) (amp : Amplitude R) :
    Call.Ignores (renumber n)
      (writeAmplitudeMutable state amp : Call (CompressedStateBackend P) PUnit) := by
  apply (ignores_acquireAmplitudeRef state).bind
  intro ref
  apply (ignores_modifyCache _).bind
  intro _
  exact ignores_modifyCache _

theorem ignores_mapChunks (g : Amplitude R -> Amplitude R) :
    Call.Ignores (renumber n) (mapChunks g : Call (CompressedStateBackend P) Unit) := by
  refine Call.ignores_get_bind (fun _ => rfl) ?_
  intro b
  apply Call.Ignores.forM
  intro k
  apply (ignores_acquireChunk k).bind
  intro slot
  refine Call.ignores_get_bind (fun _ => rfl) ?_
  intro b1
  apply (ignores_modifyCache _).bind
  intro _
  exact ignores_modifyCache _

omit [Field R] in
theorem Unnumbered.mutate {mutateFn : Call (CompressedStateBackend P) Unit}
    (h : Unnumbered mutateFn) (operation : String) :
    Unnumbered (CompressedStateBackend.mutate operation mutateFn) := by
  intro m
  apply (ignores_ensureInitialized operation).bind
  intro _
  apply (h m).bind
  intro _
  exact ignores_flushCacheIfNeeded

end Accesses

/-!
## Pair kernels
-/

section Kernels

variable {n : Nat}

theorem ignores_runOnData (pairFn : PairKernel R) (state0 state1 : Nat) (slot0 : SlotHandle)
    (elem0 : Nat) (slot1 : SlotHandle) (elem1 : Nat) :
    Call.Ignores (renumber n) (runOnData pairFn state0 state1 slot0 elem0 slot1 elem1 :
      Call (CompressedStateBackend P) PairMutation) := by
  refine Call.ignores_get_bind (fun _ => rfl) ?_
  intro b
  apply (ignores_modifyCache _).bind
  intro _
  apply (ignores_modifyCache _).bind
  intro _
  exact Call.ignores_pure _

theorem ignores_moveCursor (cursor : Cursor) (k : Nat) :
    Call.Ignores (renumber n)
      (moveCursor cursor k : Call (CompressedStateBackend P) SlotHandle) := by
  cases cursor with
  | none => exact ignores_acquireChunk k
  | some active => exact Call.Ignores.ite (ignores_acquireChunk k) (Call.ignores_pure _)

omit [Field R] in
theorem ignores_markTouched (mutation : PairMutation) (slot0 slot1 : SlotHandle) :
    Call.Ignores (renumber n)
      (markTouched mutation slot0 slot1 : Call (CompressedStateBackend P) PUnit) :=
  (ignores_modifyCache _).bind fun _ => ignores_modifyCache _

theorem ignores_intraCallback (pairFn : PairKernel R) (k local0 local1 state0 state1 : Nat) :
    Call.Ignores (Call.beside (renumber n))
      (intraCallback pairFn k local0 local1 state0 state1 :
        Call (CompressedStateBackend P × Cursor) PUnit) := by
  refine Call.ignores_get_bind (fun _ => rfl) ?_
  intro t
  apply (ignores_moveCursor t.2 k).onObject.bind
  intro slot
  refine Call.Ignores.bind (Call.ignores_modify ?_) ?_
  · intro _
    rfl
  intro _
  apply (ignores_runOnData pairFn _ _ slot _ slot _).onObject.bind
  intro mutation
  exact Call.Ignores.ite (ignores_modifyCache _).onObject (Call.ignores_pure _)

theorem ignores_interSlots (k0 k1 : Nat) :
    Call.Ignores (Call.beside (renumber n)) (interSlots k0 k1 :
      Call (CompressedStateBackend P × Cursor × Cursor) (SlotHandle × SlotHandle)) := by
  refine Call.ignores_get_bind (fun _ => rfl) ?_
  intro t
  apply (ignores_moveCursor t.2.1 k0).onObject.bind
  intro slot0
  apply (ignores_moveCursor t.2.2 k1).onObject.bind
  intro slot1
  refine Call.Ignores.bind (Call.ignores_modify ?_) ?_
  · intro _
    rfl
  intro _
  exact Call.ignores_pure _

theorem ignores_interCallback (pairFn : PairKernel R) (k0 k1 localState state0 state1 : Nat) :
    Call.Ignores (Call.beside (renumber n))
      (interCallback pairFn k0 k1 localState state0 state1 :
        Call (CompressedStateBackend P × Cursor × Cursor) PUnit) := by
  apply (ignores_interSlots k0 k1).bind
  intro slots
  apply (ignores_runOnData pairFn _ _ slots.1 _ slots.2 _).onObject.bind
  intro mutation
  exact (ignores_markTouched mutation slots.1 slots.2).onObject

theorem ignores_fallbackCallback (pairFn : PairKernel R) (state0 state1 : Nat) :
    Call.Ignores (renumber n)
      (fallbackCallback pairFn state0 state1 : Call (CompressedStateBackend P) PUnit) := by
  have hrefs : Call.Ignores (renumber n) (fallbackRefs state0 state1 :
      Call (CompressedStateBackend P) (CacheAmplitudeRef × CacheAmplitudeRef)) :=
    (ignores_acquireAmplitudeRef state0).bind fun _ =>
      (ignores_acquireAmplitudeRef state1).bind fun _ => Call.ignores_pure _
  apply hrefs.bind
  intro refs
  apply (ignores_runOnData pairFn _ _ refs.1.slot _ refs.2.slot _).bind
  intro mutation
  exact Call.Ignores.ite (Call.ignores_pure _)
    (Call.Ignores.ite (ignores_modifyCache _) (ignores_markTouched mutation _ _))

/-- The masks of a kernel are given to it: it never asks for the number of qubits. -/
theorem unnumbered_runPairKernel (targetMask : Nat) (pairFn : PairKernel R) :
    Unnumbered (runPairKernel targetMask pairFn : Call (CompressedStateBackend P) PUnit) := by
  intro m
  refine Call.ignores_get_bind (fun _ => rfl) ?_
  intro b
  split
  · apply Call.Ignores.withLocal
    exact ignores_runIntraChunk _ _ fun _ _ _ _ _ => ignores_intraCallback _ _ _ _ _ _
  · apply Call.Ignores.ite
    · apply Call.Ignores.withLocal
      exact ignores_runInterChunk _ _ fun _ _ _ _ _ => ignores_interCallback _ _ _ _ _ _
    · exact ignores_runFallback _ _ fun _ _ => ignores_fallbackCallback _ _ _
  · exact ignores_runFallback _ _ fun _ _ => ignores_fallbackCallback _ _ _

end Kernels

/-!
## Entry points
-/

section EntryPoints

theorem unnumbered_setAmplitude (state : Nat) (amp : Amplitude R) :
    Unnumbered (setAmplitude state amp : Call (CompressedStateBackend P) Unit) := by
  apply Unnumbered.mutate
  intro m
  refine Call.ignores_get_bind (fun _ => rfl) ?_
  intro b
  apply (ignores_validateStateIndex _ _ _).bind
  intro _
  exact ignores_writeAmplitudeMutable state amp

theorem unnumbered_phaseFlipBasisState (state : Nat) :
    Unnumbered (phaseFlipBasisState state : Call (CompressedStateBackend P) Unit) := by
  apply Unnumbered.mutate
  intro m
  refine Call.ignores_get_bind (fun _ => rfl) ?_
  intro b
  apply (ignores_validateStateIndex _ _ _).bind
  intro _
  apply (ignores_acquireAmplitudeRef state).bind
  intro ref
  apply (ignores_modifyCache _).bind
  intro _
  exact ignores_modifyCache _

theorem unnumbered_inversionAboutMean :
    Unnumbered (inversionAboutMean : Call (CompressedStateBackend P) Unit) := by
  apply Unnumbered.mutate
  intro m
  refine Call.ignores_get_bind (fun _ => rfl) ?_
  intro b
  refine (Call.Ignores.foldlM _ ?_ _).bind ?_
  · intro sum k
    apply (ignores_acquireChunk k).bind
    intro slot
    exact Call.ignores_get_bind (fun _ => rfl) fun _ => Call.ignores_pure _
  · intro sum
    exact ignores_mapChunks _

theorem unnumbered_inversionAboutMeanWith (mean : Amplitude R) :
    Unnumbered (inversionAboutMeanWith mean : Call (CompressedStateBackend P) Unit) :=
  Unnumbered.mutate (fun _ => ignores_mapChunks _) _

theorem unnumbered_applyAffineTransform (scale bias : Amplitude R) :
    Unnumbered (applyAffineTransform scale bias : Call (CompressedStateBackend P) Unit) :=
  Unnumbered.mutate (fun _ => ignores_mapChunks _) _

omit [Field R] in
theorem unnumbered_beginOperationBatch :
    Unnumbered (beginOperationBatch : Call (CompressedStateBackend P) Unit) := by
  intro m
  apply (ignores_ensureInitialized _).bind
  intro _
  exact Call.ignores_modify fun _ => rfl

omit [Field R] in
theorem unnumbered_endOperationBatch :
    Unnumbered (endOperationBatch : Call (CompressedStateBackend P) Unit) := by
  intro m
  refine Call.ignores_get_bind (fun _ => rfl) ?_
  intro b
  have hclose : Call.Ignores (renumber m) (do
      modify fun b : CompressedStateBackend P => { b with batchDepth := b.batchDepth - 1 }
      flushCacheIfNeeded) := by
    refine Call.Ignores.bind (Call.ignores_modify ?_) fun _ => ignores_flushCacheIfNeeded
    intro _
    rfl
  split
  · exact (Call.ignores_throw _).bind fun _ => hclose
  · exact hclose

theorem unnumbered_amplitude (state : Nat) :
    Unnumbered (amplitude state : Call (CompressedStateBackend P) (Amplitude R)) := by
  intro m
  apply (ignores_ensureInitialized _).bind
  intro _
  refine Call.ignores_get_bind (fun _ => rfl) ?_
  intro b
  apply (ignores_validateStateIndex _ _ _).bind
  intro _
  exact ignores_findAmplitude state

section

omit [Field R]

theorem ignores_chunkData {m : Nat} (k : Nat) (scratch : List R) :
    Call.Ignores (renumber m)
      (chunkData k scratch : Call (CompressedStateBackend P) (List R × List R)) := by
  refine Call.ignores_get_bind (fun _ => rfl) ?_
  intro b
  split
  · exact Call.ignores_pure _
  · refine Call.Ignores.bind (Call.Ignores.withLocal ?_) fun _ => Call.ignores_pure _
    refine Call.Ignores.bind (Call.ignores_focus _ ?_ ?_) ?_
    · intro _
      rfl
    · intro _ _
      rfl
    · intro _
      exact Call.ignores_get_bind (fun _ => rfl) fun _ => Call.ignores_pure _

theorem ignores_visitChunks {α : Type} {m : Nat} (done : α -> Bool)
    {visitor : α -> Nat -> List R -> Call (CompressedStateBackend P) α}
    (h : forall a k data, Call.Ignores (renumber m) (visitor a k data)) (start : α) :
    Call.Ignores (renumber m) (visitChunks done visitor start) := by
  refine Call.ignores_get_bind (fun _ => rfl) ?_
  intro b
  refine (Call.Ignores.foldlM _ ?_ _).bind fun _ => Call.ignores_pure _
  intro acc k
  apply Call.Ignores.ite (Call.ignores_pure _)
  apply (ignores_chunkData k acc.2).bind
  intro data
  apply (h _ _ _).bind
  intro next
  exact Call.ignores_pure _

theorem unnumbered_forEachAmplitudeChunk :
    Unnumbered (forEachAmplitudeChunk : Call (CompressedStateBackend P) (List (Nat × List R))) := by
  intro m
  apply (ignores_ensureInitialized _).bind
  intro _
  refine Call.ignores_get_bind (fun _ => rfl) ?_
  intro b
  apply ignores_visitChunks
  intro visited k data
  exact (ignores_chunkStateBegin _ _).bind fun _ => Call.ignores_pure _

end

theorem unnumbered_totalProbability :
    Unnumbered (totalProbability : Call (CompressedStateBackend P) R) := by
  intro m
  apply (ignores_ensureInitialized _).bind
  intro _
  exact ignores_visitChunks _ (fun _ _ _ => Call.ignores_pure _) _

variable [LinearOrder R]

theorem unnumbered_sampleMeasurement (rnd : R) :
    Unnumbered (sampleMeasurement rnd : Call (CompressedStateBackend P) Nat) := by
  intro m
  apply (ignores_ensureInitialized _).bind
  intro _
  split
  on_goal 1 =>
    apply (Call.ignores_throw _).bind
    intro _
  -- the search over the chunks, in both cases
  all_goals
    apply (ignores_visitChunks _ (fun _ _ _ => Call.ignores_pure _) _).bind
    intro result
    split
    · exact Call.ignores_pure _
    · exact Call.ignores_throw _

theorem unnumbered_printNonZeroStates (epsilon : R) :
    Unnumbered (printNonZeroStates epsilon :
      Call (CompressedStateBackend P) (List (Nat × Amplitude R))) := by
  intro m
  apply (ignores_ensureInitialized _).bind
  intro _
  split
  · apply (Call.ignores_throw _).bind
    intro _
    exact (ignores_visitChunks _ (fun _ _ _ => Call.ignores_pure _) _).bind fun _ =>
      Call.ignores_pure _
  · exact (ignores_visitChunks _ (fun _ _ _ => Call.ignores_pure _) _).bind fun _ =>
      Call.ignores_pure _

omit [Field R] [LinearOrder R] in
theorem Unnumbered.command {call : Call (CompressedStateBackend P) Unit} (h : Unnumbered call) :
    Unnumbered (BackendOp.command (R := R) call) :=
  fun m => (h m).bind fun _ => Call.ignores_pure _

omit [Field R] [LinearOrder R] in
theorem Unnumbered.query {α : Type} {wrap : α -> Answer R}
    {call : Call (CompressedStateBackend P) α} (h : Unnumbered call) :
    Unnumbered (BackendOp.query wrap call) :=
  fun m => (h m).bind fun _ => Call.ignores_pure _

variable [CMath R]

theorem unnumbered_run {op : BackendOp R} (hop : ¬ op.ReadsQubits) :
    Unnumbered (op.run : Call (CompressedStateBackend P) (Answer R)) := by
  cases op with
  | setAmplitude s amp => exact (unnumbered_setAmplitude s amp).command
  | phaseFlipBasisState s => exact (unnumbered_phaseFlipBasisState s).command
  | inversionAboutMean => exact unnumbered_inversionAboutMean.command
  | inversionAboutMeanWith mean => exact (unnumbered_inversionAboutMeanWith mean).command
  | applyAffineTransform scale bias =>
      exact (unnumbered_applyAffineTransform scale bias).command
  | beginOperationBatch => exact unnumbered_beginOperationBatch.command
  | endOperationBatch => exact unnumbered_endOperationBatch.command
  | amplitude s => exact (unnumbered_amplitude s).query
  | probability s =>
      exact Unnumbered.query fun m => (unnumbered_amplitude s m).bind fun _ => Call.ignores_pure _
  | totalProbability => exact unnumbered_totalProbability.query
  | forEachAmplitudeChunk => exact unnumbered_forEachAmplitudeChunk.query
  | sampleMeasurement rnd => exact (unnumbered_sampleMeasurement rnd).query
  | printNonZeroStates epsilon => exact (unnumbered_printNonZeroStates epsilon).query
  | _ => exact absurd trivial hop

end EntryPoints

end CompressedStateBackend

end Tmfqs
