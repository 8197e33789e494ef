import Tmfqs.Storage.CodecPolicy
import Tmfqs.Storage.IStateBackend

/-!
# The compressed backend

`storage/common/compressed_state_backend.h`: chunks of amplitudes are kept
compressed and brought into a cache to be read or changed.  Metrics and scratch
buffers that only avoid allocations are left out.
-/

namespace Tmfqs

open Library

structure CompressedStateBackend {R B : Type} (P : CodecPolicy R B) where
  numQubits : Nat
  numStates : Nat
  layout : ChunkLayout
  store : ChunkVector P
  cache : ChunkCache R
  batchDepth : Nat

/-- A cached amplitude: a slot handle and the offset behind its data pointer. -/
structure CacheAmplitudeRef where
  slot : SlotHandle
  elemOffset : Nat
deriving DecidableEq, Repr

namespace CompressedStateBackend

section Gates

/-!
## Gates with a kernel of their own
-/

variable {R : Type} [Field R] [LinearOrder R] [CMath R]

def kGateMatchTolerance : R :=
  1 / 10 ^ 12

def approxEqual (a b tol : R) : Bool :=
  |a - b| ≤ tol

def matchesAmplitude (amp : Amplitude R) (real imag : R) : Bool :=
  approxEqual amp.real real kGateMatchTolerance && approxEqual amp.imag imag kGateMatchTolerance

def isZeroAmplitude (amp : Amplitude R) : Bool :=
  matchesAmplitude amp 0 0

def matchesHadamardGate (gate : QuantumGate R) : Bool :=
  let invSqrt2 := 1 / CMath.sqrt 2
  gate.dimension = 2 &&
    matchesAmplitude (gate.entry 0 0) invSqrt2 0 &&
    matchesAmplitude (gate.entry 0 1) invSqrt2 0 &&
    matchesAmplitude (gate.entry 1 0) invSqrt2 0 &&
    matchesAmplitude (gate.entry 1 1) (-invSqrt2) 0

def matchesPauliXGate (gate : QuantumGate R) : Bool :=
  gate.dimension = 2 &&
    isZeroAmplitude (gate.entry 0 0) &&
    matchesAmplitude (gate.entry 0 1) 1 0 &&
    matchesAmplitude (gate.entry 1 0) 1 0 &&
    isZeroAmplitude (gate.entry 1 1)

def matchesControlledNotGate (gate : QuantumGate R) : Bool :=
  gate.dimension = 4 &&
    (List.range 4).all fun row =>
      (List.range 4).all fun col =>
        if (row = 0 ∧ col = 0) ∨ (row = 1 ∧ col = 1) ∨ (row = 2 ∧ col = 3) ∨
            (row = 3 ∧ col = 2) then
          matchesAmplitude (gate.entry row col) 1 0
        else
          isZeroAmplitude (gate.entry row col)

def matchControlledPhaseShiftGate (gate : QuantumGate R) : Option R :=
  if gate.dimension = 4 &&
      ((List.range 4).all fun row =>
        (List.range 4).all fun col => row = col || isZeroAmplitude (gate.entry row col)) &&
      matchesAmplitude (gate.entry 0 0) 1 0 &&
      matchesAmplitude (gate.entry 1 1) 1 0 &&
      matchesAmplitude (gate.entry 2 2) 1 0 then
    let phase := gate.entry 3 3
    let magnitudeSq := phase.real * phase.real + phase.imag * phase.imag
    if approxEqual magnitudeSq 1 (1 / 10 ^ 10) then
      some (CMath.atan2 phase.imag phase.real)
    else
      none
  else
    none

end Gates

/-!
## Chunks and cache
-/

variable {R B : Type} [Field R] {P : CodecPolicy R B}

/-- The constructor: `cache_` starts with one chunk. -/
def make (P : CodecPolicy R B) : CompressedStateBackend P :=
  { numQubits := 0
    numStates := 0
    layout := ChunkLayout.empty
    store :=
      { chunks := []
        codec := P.initial }
    cache := (ChunkCache.configure P.cacheSlots 1 ChunkCache.empty).2
    batchDepth := 0 }

def clone (b : CompressedStateBackend P) : CompressedStateBackend P :=
  { b with
    store := { b.store with codec := P.clone b.store.codec }
    cache := b.cache.copy }

def ensureInitialized (operation : String) : Call (CompressedStateBackend P) Unit := do
  let b <- get
  ensureBackendInitialized (b.numStates > 0 ∧ !b.store.chunks.isEmpty) P.backendName operation

def onCached {α : Type} (x : Call (ChunkCache R × ChunkVector P) α) :
    Call (CompressedStateBackend P) α :=
  Call.focus (fun b => (b.cache, b.store)) (fun b t => { b with cache := t.1, store := t.2 }) x

def onStore {α : Type} (x : Call (ChunkVector P) α) : Call (CompressedStateBackend P) α :=
  Call.focus store (fun b s => { b with store := s }) x

def modifyCache (f : ChunkCache R -> ChunkCache R) : Call (CompressedStateBackend P) Unit :=
  modify fun b => { b with cache := f b.cache }

def slotData (b : CompressedStateBackend P) (handle : SlotHandle) : List R :=
  (b.cache.slot handle.slotIndex).buffer

def acquireChunk (chunkIndex : Nat) : Call (CompressedStateBackend P) SlotHandle :=
  onCached (ChunkCache.acquire (ChunkVector.callbacks P) chunkIndex)

def acquireAmplitudeRef (state : Nat) : Call (CompressedStateBackend P) CacheAmplitudeRef := do
  let b <- get
  let ref := b.layout.stateRef state
  let slot <- acquireChunk ref.chunkIndex
  pure
    { slot := slot
      elemOffset := ref.elemOffset }

/-- `findAmplitudeData`, with the amplitude read from the data it returns. -/
def findAmplitude (state : Nat) : Call (CompressedStateBackend P) (Amplitude R) := do
  let b <- get
  let ref := b.layout.stateRef state
  match b.cache.findBuffer ref.chunkIndex with
  | some buffer => pure (readAmp buffer ref.elemOffset)
  | none =>
      let slot <- acquireChunk ref.chunkIndex
      let b <- get
      pure (readAmp (b.slotData slot) ref.elemOffset)

def readAmplitudeMutable (state : Nat) : Call (CompressedStateBackend P) (Amplitude R) := do
  let ref <- acquireAmplitudeRef state
  let b <- get
  pure (readAmp (b.slotData ref.slot) ref.elemOffset)

def writeAmplitudeMutable (state : Nat) (amp : Amplitude R) :
    Call (CompressedStateBackend P) PUnit := do
  let ref <- acquireAmplitudeRef state
  modifyCache fun c => c.writeData ref.slot fun buffer => writeAmp buffer ref.elemOffset amp
  modifyCache fun c => c.setDirty ref.slot

def flushCache : Call (CompressedStateBackend P) Unit :=
  onCached (ChunkCache.flushAll (ChunkVector.callbacks P))

def flushCacheIfNeeded : Call (CompressedStateBackend P) Unit := do
  let b <- get
  if b.batchDepth = 0 then
    flushCache
  else
    pure ()

/-- Rewrite the first `elemCount` elements of a buffer amplitude by amplitude. -/
def mapPrefix (f : Amplitude R -> Amplitude R) (elemCount : Nat) (buffer : List R) : List R :=
  mapAmplitudes f (buffer.take elemCount) ++ buffer.drop elemCount

def mapChunks (f : Amplitude R -> Amplitude R) : Call (CompressedStateBackend P) Unit := do
  let b <- get
  (List.range b.store.chunks.length).forM fun chunkIndex => do
    let slot <- acquireChunk chunkIndex
    let b <- get
    modifyCache fun c => c.writeData slot (mapPrefix f (b.store.chunk chunkIndex).elemCount)
    modifyCache fun c => c.setDirty slot

def applyInversionAboutMeanWithMean (mean : Amplitude R) : Call (CompressedStateBackend P) Unit :=
  mapChunks fun amp =>
    { real := 2 * mean.real - amp.real
      imag := 2 * mean.imag - amp.imag }

def effectiveCacheSlots (b : CompressedStateBackend P) : Nat :=
  min P.cacheSlots b.store.chunks.length

def configureStorage (numQubits : Nat) : Call (CompressedStateBackend P) Unit := do
  modify fun b => { b with numQubits := numQubits }
  let stateCount <- checkedStateCount numQubits
  let numStates := u32 stateCount
  modify fun b => { b with numStates := numStates }
  let layout <- ChunkLayout.make numStates P.chunkStates
  modify fun b => { b with layout := layout }
  let elemCounts <- (List.range layout.chunkCount).mapM layout.chunkElemCount
  modify fun b =>
    { b with
      store := { b.store with
        chunks := elemCounts.map fun elemCount =>
          { compressed := []
            elemCount := elemCount } } }
  let b <- get
  Call.focus cache (fun b c => { b with cache := c })
    (ChunkCache.configure b.effectiveCacheSlots b.store.chunks.length)
  modify fun b => { b with batchDepth := 0 }

/-!
## Pair kernels
-/

/-- A kernel on two amplitudes behind data pointers. -/
def runOnData (pairFn : PairKernel R) (state0 state1 : Nat) (slot0 : SlotHandle) (elem0 : Nat)
    (slot1 : SlotHandle) (elem1 : Nat) : Call (CompressedStateBackend P) PairMutation := do
  let b <- get
  let r := pairFn state0 state1 (readAmp (b.slotData slot0) elem0) (readAmp (b.slotData slot1) elem1)
  modifyCache fun c => c.writeData slot0 fun buffer => writeAmp buffer elem0 r.2.1
  modifyCache fun c => c.writeData slot1 fun buffer => writeAmp buffer elem1 r.2.2
  pure r.1

/-- The active chunk of a traversal and its slot; `none` stands for the maximal index. -/
abbrev Cursor : Type :=
  Option (Nat × SlotHandle)

/-- `if(activeChunk != chunkIndex)` acquire it. -/
def moveCursor (cursor : Cursor) (chunkIndex : Nat) :
    Call (CompressedStateBackend P) SlotHandle :=
  match cursor with
  | some (active, slot) => if active ≠ chunkIndex then acquireChunk chunkIndex else pure slot
  | none => acquireChunk chunkIndex

def intraCallback (pairFn : PairKernel R) (chunkIndex local0 local1 state0 state1 : Nat) :
    Call (CompressedStateBackend P × Cursor) PUnit := do
  let (_, cursor) <- get
  let activeSlot <- Call.onObject (moveCursor cursor chunkIndex)
  modify fun t => (t.1, some (chunkIndex, activeSlot))
  let mutation <- Call.onObject
    (runOnData pairFn state0 state1 activeSlot (local0 * 2) activeSlot (local1 * 2))
  if mutation ≠ .none then
    Call.onObject (modifyCache fun c => c.setDirty activeSlot)
  else
    pure ⟨⟩

def markTouched (mutation : PairMutation) (slot0 slot1 : SlotHandle) :
    Call (CompressedStateBackend P) PUnit := do
  modifyCache fun c => if touchesFirst mutation then c.setDirty slot0 else c
  modifyCache fun c => if touchesSecond mutation then c.setDirty slot1 else c

/-- The two slots of a step across chunks: each is acquired when its chunk changes. -/
def interSlots (chunk0 chunk1 : Nat) :
    Call (CompressedStateBackend P × Cursor × Cursor) (SlotHandle × SlotHandle) := do
  let (_, cursor0, cursor1) <- get
  let slot0 <- Call.onObject (moveCursor cursor0 chunk0)
  let slot1 <- Call.onObject (moveCursor cursor1 chunk1)
  modify fun t => (t.1, some (chunk0, slot0), some (chunk1, slot1))
  pure (slot0, slot1)

def interCallback (pairFn : PairKernel R) (chunk0 chunk1 localState state0 state1 : Nat) :
    Call (CompressedStateBackend P × Cursor × Cursor) PUnit := do
  let (slot0, slot1) <- interSlots chunk0 chunk1
  let mutation <- Call.onObject
    (runOnData pairFn state0 state1 slot0 (localState * 2) slot1 (localState * 2))
  Call.onObject (markTouched mutation slot0 slot1)

/-- The two amplitude references of a step of the generic traversal. -/
def fallbackRefs (state0 state1 : Nat) :
    Call (CompressedStateBackend P) (CacheAmplitudeRef × CacheAmplitudeRef) := do
  let a0Ref <- acquireAmplitudeRef state0
  let a1Ref <- acquireAmplitudeRef state1
  pure (a0Ref, a1Ref)

def fallbackCallback (pairFn : PairKernel R) (state0 state1 : Nat) :
    Call (CompressedStateBackend P) PUnit := do
  let (a0Ref, a1Ref) <- fallbackRefs state0 state1
  let mutation <- runOnData pairFn state0 state1 a0Ref.slot a0Ref.elemOffset
    a1Ref.slot a1Ref.elemOffset
  if mutation = .none then
    pure ⟨⟩
  else if a0Ref.slot.slotIndex = a1Ref.slot.slotIndex then
    modifyCache fun c => c.setDirty a0Ref.slot
  else
    markTouched mutation a0Ref.slot a1Ref.slot

def runPairKernel (targetMask : Nat) (pairFn : PairKernel R) :
    Call (CompressedStateBackend P) PUnit := do
  let b <- get
  match PairKernelExecutor.selectMode b.layout targetMask with
  | .intraChunk =>
      Call.withLocal none
        (PairKernelExecutor.runIntraChunk b.layout targetMask (intraCallback pairFn))
  | .interChunk =>
      if b.cache.capacity ≥ 2 then
        Call.withLocal (none, none)
          (PairKernelExecutor.runInterChunk b.layout targetMask (interCallback pairFn))
      else
        PairKernelExecutor.runFallback b.numStates targetMask (fallbackCallback pairFn)
  | .fallback =>
      PairKernelExecutor.runFallback b.numStates targetMask (fallbackCallback pairFn)

def mutate (operation : String) (mutateFn : Call (CompressedStateBackend P) Unit) :
    Call (CompressedStateBackend P) Unit := do
  ensureInitialized operation
  mutateFn
  flushCacheIfNeeded

/-!
## Batches and initialisation
-/

def beginOperationBatch : Call (CompressedStateBackend P) Unit := do
  ensureInitialized "batch begin"
  modify fun b => { b with batchDepth := b.batchDepth + 1 }

def endOperationBatch : Call (CompressedStateBackend P) Unit := do
  let b <- get
  if b.batchDepth = 0 then
    throw (logicError
      (P.backendName ++ "::endOperationBatch called without matching beginOperationBatch"))
  modify fun b => { b with batchDepth := b.batchDepth - 1 }
  flushCacheIfNeeded

/-- Store `chunkData k` in every chunk `k`. -/
def storeAll (chunkData : Nat -> List R) : Call (CompressedStateBackend P) Unit := do
  let b <- get
  (List.range b.store.chunks.length).forM fun chunkIndex =>
    onStore (ChunkVector.storeChunk chunkIndex (chunkData chunkIndex)
      (b.store.chunk chunkIndex).elemCount)

def initZero (numQubits : Nat) : Call (CompressedStateBackend P) Unit := do
  configureStorage numQubits
  let b <- get
  storeAll fun chunkIndex => List.replicate (b.store.chunk chunkIndex).elemCount 0

def initBasis (numQubits initState : Nat) (amp : Amplitude R) :
    Call (CompressedStateBackend P) Unit := do
  initZero numQubits
  let b <- get
  validateStateIndex "CompressedStateBackend::initBasis" initState b.numStates
  writeAmplitudeMutable initState amp
  flushCacheIfNeeded

/--
One chunk of a superposition: the selected states from `selected` on that lie below
`chunkStateEnd` are consumed, those inside the chunk are written.
-/
def fillSelected (ampReal : R) (chunkStateBegin chunkStateEnd : Nat) :
    List Nat -> List R -> List R × List Nat
  | [], denseChunk => (denseChunk, [])
  | state :: rest, denseChunk =>
      if state < chunkStateEnd then
        fillSelected ampReal chunkStateBegin chunkStateEnd rest
          (if state ≥ chunkStateBegin then
            denseChunk.set (2 * (state - chunkStateBegin)) ampReal
          else
            denseChunk)
      else
        (denseChunk, state :: rest)

def initUniformSuperposition [CMath R] (numQubits : Nat) (basisStates : List Nat) :
    Call (CompressedStateBackend P) Unit := do
  configureStorage numQubits
  let b <- get
  basisStates.forM fun state =>
    validateStateIndex "CompressedStateBackend::initUniformSuperposition" state b.numStates
  let selected := selectedStates basisStates
  if selected.isEmpty then
    throw (invalidArgument
      (P.backendName ++ "::initUniformSuperposition requires at least one state"))
  let ampReal : R := 1 / CMath.sqrt (selected.length : R)
  Call.withLocal selected ((List.range b.store.chunks.length).forM fun chunkIndex => do
    let elemCount := (b.store.chunk chunkIndex).elemCount
    let chunkStateBegin <- b.layout.chunkStateBegin chunkIndex
    let (_, pending) <- get
    let (denseChunk, pending) := fillSelected ampReal chunkStateBegin
      (chunkStateBegin + elemCount / 2) pending (List.replicate elemCount 0)
    modify fun t => (t.1, pending)
    Call.onObject (onStore (ChunkVector.storeChunk chunkIndex denseChunk elemCount)))

def loadAmplitudes (numQubits : Nat) (amplitudes : List R) :
    Call (CompressedStateBackend P) Unit := do
  configureStorage numQubits
  let count <- checkedAmplitudeElementCount numQubits
  if amplitudes.length ≠ count then
    throw (invalidArgument (P.backendName ++ ": amplitudes size mismatch"))
  modifyCache ChunkCache.clear
  let b <- get
  (List.range b.store.chunks.length).forM fun chunkIndex =>
    onStore (ChunkVector.onCompressed chunkIndex
      (P.compress ((amplitudes.drop (chunkIndex * b.layout.elemsPerChunk)).take
        (b.store.chunk chunkIndex).elemCount)))

/-!
## Queries
-/

/-- The data of a chunk: the cached buffer, or the chunk decompressed into `scratch`. -/
def chunkData (chunkIndex : Nat) (scratch : List R) :
    Call (CompressedStateBackend P) (List R × List R) := do
  let b <- get
  match b.cache.findBuffer chunkIndex with
  | some buffer => pure (buffer, scratch)
  | none =>
      let chunk := b.store.chunk chunkIndex
      let scratch <- Call.withLocal scratch
        (do
          Call.focus (fun t => (t.2, t.1.store.codec))
            (fun t u => ({ t.1 with store := { t.1.store with codec := u.2 } }, u.1))
            (P.decompress chunk.compressed chunk.elemCount)
          let (_, scratch) <- get
          pure scratch)
      pure (scratch, scratch)

/-- The read-only loops over all chunks; `done` ends the loop early. -/
def visitChunks {α : Type} (done : α -> Bool) (visitor : α -> Nat -> List R -> Call (CompressedStateBackend P) α)
    (start : α) : Call (CompressedStateBackend P) α := do
  let b <- get
  let result <- (List.range b.store.chunks.length).foldlM
    (fun (acc : α × List R) chunkIndex =>
      if done acc.1 then
        pure acc
      else do
        let (data, scratch) <- chunkData chunkIndex acc.2
        let next <- visitor acc.1 chunkIndex (data.take (b.store.chunk chunkIndex).elemCount)
        pure (next, scratch))
    (start, [])
  pure result.1

def exportAmplitudes : Call (CompressedStateBackend P) (List R) := do
  ensureInitialized "amplitude export"
  let b <- get
  let count <- checkedAmplitudeElementCount b.numQubits
  let result <- visitChunks (fun _ => false)
    (fun (acc : List R × Nat) _ data =>
      pure (acc.1.take acc.2 ++ data ++ acc.1.drop (acc.2 + data.length), acc.2 + data.length))
    (List.replicate count 0, 0)
  pure result.1

def forEachAmplitudeChunk : Call (CompressedStateBackend P) (List (Nat × List R)) := do
  ensureInitialized "amplitude chunk iteration"
  let b <- get
  visitChunks (fun _ => false)
    (fun visited chunkIndex data => do
      let baseState <- b.layout.chunkStateBegin chunkIndex
      pure (visited ++ [(baseState, data)]))
    []

def amplitude (state : Nat) : Call (CompressedStateBackend P) (Amplitude R) := do
  ensureInitialized "amplitude query"
  let b <- get
  validateStateIndex "CompressedStateBackend::amplitude" state b.numStates
  findAmplitude state

def probability (state : Nat) : Call (CompressedStateBackend P) R := do
  let amp <- amplitude state
  pure (amp.real * amp.real + amp.imag * amp.imag)

def totalProbability : Call (CompressedStateBackend P) R := do
  ensureInitialized "total probability query"
  visitChunks (fun _ => false)
    (fun total _ data =>
      pure ((amplitudesOf data).foldl
        (fun total amp => total + (amp.real * amp.real + amp.imag * amp.imag)) total))
    0

def sampleMeasurement [LinearOrder R] (rnd : R) : Call (CompressedStateBackend P) Nat := do
  ensureInitialized "measurement"
  if rnd < 0 ∨ rnd ≥ 1 then
    throw (invalidArgument (P.backendName ++ "::sampleMeasurement requires rnd in [0,1)"))
  let result <- visitChunks (fun (acc : Option Nat × R × Nat) => acc.1.isSome)
    (fun acc _ data =>
      let search := searchCumulative rnd acc.2.1 ((amplitudesOf data).map fun amp =>
        amp.real * amp.real + amp.imag * amp.imag)
      pure (search.1.map (acc.2.2 + ·), search.2, acc.2.2 + data.length / 2))
    (none, 0, 0)
  match result.1 with
  | some state => pure state
  | none =>
      throw (runtimeError
        (P.backendName ++ "::sampleMeasurement cumulative probability did not reach sample"))

def printNonZeroStates [LinearOrder R] (epsilon : R) :
    Call (CompressedStateBackend P) (List (Nat × Amplitude R)) := do
  ensureInitialized "state printing"
  if epsilon < 0 then
    throw (invalidArgument (P.backendName ++ "::printNonZeroStates epsilon must be non-negative"))
  let result <- visitChunks (fun _ => false)
    (fun (acc : List (Nat × Amplitude R) × Nat) _ data =>
      let states := (List.range (data.length / 2)).map fun localState =>
        (acc.2 + localState, readAmp data (localState * 2))
      pure
        (acc.1 ++ states.filter fun line => |line.2.real| > epsilon ∨ |line.2.imag| > epsilon,
          acc.2 + data.length / 2))
    ([], 0)
  pure result.1

/-!
## Mutations
-/

def setAmplitude (state : Nat) (amp : Amplitude R) : Call (CompressedStateBackend P) Unit :=
  mutate "state update" do
    let b <- get
    validateStateIndex "CompressedStateBackend::setAmplitude" state b.numStates
    writeAmplitudeMutable state amp

def phaseFlipBasisState (state : Nat) : Call (CompressedStateBackend P) Unit :=
  mutate "basis-state phase flip" do
    let b <- get
    validateStateIndex "CompressedStateBackend::phaseFlipBasisState" state b.numStates
    let ref <- acquireAmplitudeRef state
    modifyCache fun c => c.writeData ref.slot fun buffer =>
      writeAmp buffer ref.elemOffset
        { real := -(readAmp buffer ref.elemOffset).real
          imag := -(readAmp buffer ref.elemOffset).imag }
    modifyCache fun c => c.setDirty ref.slot

def inversionAboutMean : Call (CompressedStateBackend P) Unit :=
  mutate "inversion about mean" do
    let b <- get
    let sum <- (List.range b.store.chunks.length).foldlM
      (fun (sum : Amplitude R) chunkIndex => do
        let slot <- acquireChunk chunkIndex
        let b <- get
        pure ((amplitudesOf ((b.slotData slot).take
          (b.store.chunk chunkIndex).elemCount)).foldl Amplitude.add sum))
      Amplitude.zero
    applyInversionAboutMeanWithMean
      { real := sum.real / (b.numStates : R)
        imag := sum.imag / (b.numStates : R) }

def inversionAboutMeanWith (mean : Amplitude R) : Call (CompressedStateBackend P) Unit :=
  mutate "inversion about mean" (applyInversionAboutMeanWithMean mean)

def applyAffineTransform (scale bias : Amplitude R) : Call (CompressedStateBackend P) Unit :=
  mutate "affine transform"
    (mapChunks fun amp =>
      { real := scale.real * amp.real - scale.imag * amp.imag + bias.real
        imag := scale.real * amp.imag + scale.imag * amp.real + bias.imag })

section Kernels

variable [LinearOrder R] [CMath R]

def applyHadamard (qubit : Nat) : Call (CompressedStateBackend P) Unit := do
  ensureInitialized "Hadamard"
  let b <- get
  validateQubitIndex "CompressedStateBackend::applyHadamard" qubit b.numQubits
  mutate "Hadamard" (runPairKernel (qubitMaskFromMsbIndex qubit b.numQubits) hadamardPair)

def applyPauliX (qubit : Nat) : Call (CompressedStateBackend P) Unit := do
  ensureInitialized "PauliX"
  let b <- get
  validateQubitIndex "CompressedStateBackend::applyPauliX" qubit b.numQubits
  mutate "PauliX" (runPairKernel (qubitMaskFromMsbIndex qubit b.numQubits) pauliXPair)

def applyControlledPhaseShift (controlQubit targetQubit : Nat) (theta : R) :
    Call (CompressedStateBackend P) Unit := do
  ensureInitialized "controlled phase shift"
  let b <- get
  validateBackendTwoQubits "CompressedStateBackend::applyControlledPhaseShift"
    controlQubit targetQubit b.numQubits
  mutate "controlled phase shift"
    (runPairKernel (qubitMaskFromMsbIndex targetQubit b.numQubits)
      (controlledPhaseShiftPair (qubitMaskFromMsbIndex controlQubit b.numQubits) theta))

def applyControlledNot (controlQubit targetQubit : Nat) :
    Call (CompressedStateBackend P) Unit := do
  ensureInitialized "controlled not"
  let b <- get
  validateBackendTwoQubits "CompressedStateBackend::applyControlledNot"
    controlQubit targetQubit b.numQubits
  mutate "controlled not"
    (runPairKernel (qubitMaskFromMsbIndex targetQubit b.numQubits)
      (controlledNotPair (qubitMaskFromMsbIndex controlQubit b.numQubits)))

/-- The gates `applyGate` hands to a pair kernel. -/
inductive FastPath (R : Type) where
  | hadamard
  | pauliX
  | controlledNot
  | controlledPhaseShift (theta : R)
  | blocks

def fastPath (gate : QuantumGate R) (qubitCount : Nat) : FastPath R :=
  if qubitCount = 1 then
    if matchesHadamardGate gate then .hadamard
    else if matchesPauliXGate gate then .pauliX
    else .blocks
  else if qubitCount = 2 then
    if matchesControlledNotGate gate then .controlledNot
    else
      match matchControlledPhaseShiftGate gate with
      | some theta => .controlledPhaseShift theta
      | none => .blocks
  else
    .blocks

def applyGate (gate : QuantumGate R) (qubits : List Nat) :
    Call (CompressedStateBackend P) Unit := do
  ensureInitialized "gate application"
  match fastPath gate qubits.length with
  | .hadamard => applyHadamard (qubits.getD 0 0)
  | .pauliX => applyPauliX (qubits.getD 0 0)
  | .controlledNot => applyControlledNot (qubits.getD 0 0) (qubits.getD 1 0)
  | .controlledPhaseShift theta =>
      applyControlledPhaseShift (qubits.getD 0 0) (qubits.getD 1 0) theta
  | .blocks =>
      mutate "gate application" do
        let b <- get
        GateApplyEngine.apply P.backendName gate qubits b.numQubits
          readAmplitudeMutable writeAmplitudeMutable

end Kernels

instance [LinearOrder R] [CMath R] : IStateBackend R (CompressedStateBackend P) where
  clone := clone
  initZero := initZero
  initBasis := initBasis
  initUniformSuperposition := initUniformSuperposition
  loadAmplitudes := loadAmplitudes
  exportAmplitudes := exportAmplitudes
  forEachAmplitudeChunk := forEachAmplitudeChunk
  amplitude := amplitude
  setAmplitude := setAmplitude
  probability := probability
  totalProbability := totalProbability
  sampleMeasurement := sampleMeasurement
  printNonZeroStates := printNonZeroStates
  phaseFlipBasisState := phaseFlipBasisState
  inversionAboutMean := inversionAboutMean
  inversionAboutMeanWith := inversionAboutMeanWith
  applyAffineTransform := applyAffineTransform
  applyHadamard := applyHadamard
  applyPauliX := applyPauliX
  applyControlledPhaseShift := applyControlledPhaseShift
  applyControlledNot := applyControlledNot
  applyGate := applyGate
  beginOperationBatch := beginOperationBatch
  endOperationBatch := endOperationBatch

end CompressedStateBackend

end Tmfqs
