import Mathlib.Data.List.Basic
import Tmfqs.Core.Types

/-!
# The chunk cache

`ChunkCache` of `storage/common/chunk_cache.h`: a write-back cache of
decompressed chunks.  The slots live in a vector, so a `push_back` beyond its
reserved size moves them, and a pointer to a slot member taken before no longer
denotes it.
-/

namespace Tmfqs

open Library

/-- One cached chunk; `none` stands for `kInvalidIndex`. -/
structure Slot (R : Type) where
  chunkIndex : Option Nat
  buffer : List R
  dirty : Bool
  touch : Nat
deriving DecidableEq, Repr

def Slot.empty {R : Type} : Slot R :=
  { chunkIndex := none
    buffer := []
    dirty := false
    touch := 0 }

/--
The cache.  `reserved` is the reserved size of the slot vector and `storage`
identifies the memory block its slots live in.  `touchCounter`, a `uint64_t` in the
source, is a `Nat`: it counts acquisitions and would need `2 ^ 64` of them to wrap.
-/
structure ChunkCache (R : Type) where
  capacity : Nat
  slots : List (Slot R)
  reserved : Nat
  storage : Nat
  chunkToSlot : List (Option Nat)
  touchCounter : Nat
deriving DecidableEq, Repr

/--
A handle holds the buffer pointer, which follows a moved slot, and the pointer to
its dirty flag, which denotes it only while the slots stay in block `storage`.
-/
structure SlotHandle where
  slotIndex : Nat
  chunkIndex : Nat
  storage : Nat
  elemCount : Nat
deriving DecidableEq, Repr

/-- The callbacks a backend passes to the cache, on a backend state `σ`. -/
structure ChunkCallbacks (R σ : Type) where
  loadChunk : Nat -> Nat -> Call (List R × σ) Unit
  storeChunk : Nat -> List R -> Nat -> Call σ Unit
  elemCount : Nat -> Call σ Nat

namespace ChunkCache

variable {R σ : Type}

def empty : ChunkCache R :=
  { capacity := 0
    slots := []
    reserved := 0
    storage := 0
    chunkToSlot := []
    touchCounter := 0 }

def slot (c : ChunkCache R) (slotIndex : Nat) : Slot R :=
  c.slots.getD slotIndex Slot.empty

def modifySlot (c : ChunkCache R) (slotIndex : Nat) (f : Slot R -> Slot R) : ChunkCache R :=
  { c with slots := c.slots.modify slotIndex f }

/-- A call on the backend state while the cache stays as it is. -/
def onStore {α : Type} (x : Call σ α) : Call (ChunkCache R × σ) α :=
  Call.focus Prod.snd (fun t s => (t.1, s)) x

def onCache (f : ChunkCache R -> ChunkCache R) : Call (ChunkCache R × σ) Unit :=
  modify fun t => (f t.1, t.2)

/-!
## Construction
-/

/-- `slots_.clear()` keeps the reserved size, `slots_.reserve` only enlarges it. -/
def configure (capacity chunkCount : Nat) : Call (ChunkCache R) Unit :=
  if capacity = 0 then
    throw (invalidArgument "ChunkCache: capacity must be >= 1")
  else
    modify fun c =>
      { capacity := capacity
        slots := []
        reserved := max c.reserved capacity
        storage := if c.reserved < capacity then c.storage + 1 else c.storage
        chunkToSlot := List.replicate chunkCount none
        touchCounter := 0 }

def clear (c : ChunkCache R) : ChunkCache R :=
  { c with
    slots := []
    chunkToSlot := List.replicate c.chunkToSlot.length none
    touchCounter := 0 }

def copy (c : ChunkCache R) : ChunkCache R :=
  { c with
    reserved := c.slots.length
    storage := c.storage + 1 }

/-!
## Slots
-/

def pushSlot (c : ChunkCache R) : ChunkCache R :=
  { c with
    slots := c.slots ++ [Slot.empty]
    reserved :=
      if c.slots.length < c.reserved then c.reserved else max 1 (2 * c.slots.length)
    storage := if c.slots.length < c.reserved then c.storage else c.storage + 1 }

def selectEvictionSlot (c : ChunkCache R) : Nat :=
  ((List.range' 1 (c.slots.length - 1)).foldl
    (fun (best : Nat × Nat) idx =>
      if (c.slot idx).touch < best.2 then (idx, (c.slot idx).touch) else best)
    (0, (c.slot 0).touch)).1

def makeSlotHandle (c : ChunkCache R) (slotIndex chunkIndex : Nat) : SlotHandle :=
  { slotIndex := slotIndex
    chunkIndex := chunkIndex
    storage := c.storage
    elemCount := (c.slot slotIndex).buffer.length }

def touchSlot (c : ChunkCache R) (slotIndex : Nat) : ChunkCache R :=
  { c.modifySlot slotIndex (fun slot => { slot with touch := c.touchCounter + 1 }) with
    touchCounter := c.touchCounter + 1 }

def assignSlot (c : ChunkCache R) (slotIndex chunkIndex : Nat) : ChunkCache R :=
  { c.modifySlot slotIndex (fun slot =>
      { slot with
        chunkIndex := some chunkIndex
        dirty := false
        touch := c.touchCounter + 1 }) with
    touchCounter := c.touchCounter + 1 }

def setBuffer (c : ChunkCache R) (slotIndex : Nat) (buffer : List R) : ChunkCache R :=
  c.modifySlot slotIndex fun slot => { slot with buffer := buffer }

def mapChunk (c : ChunkCache R) (chunkIndex : Nat) (slotIndex : Option Nat) : ChunkCache R :=
  { c with chunkToSlot := c.chunkToSlot.set chunkIndex slotIndex }

def flushSlot (cb : ChunkCallbacks R σ) (slotIndex : Nat) :
    Call (ChunkCache R × σ) Unit := do
  let (c, _) <- get
  match (c.slot slotIndex).chunkIndex with
  | none => pure ()
  | some chunkIndex =>
      if (c.slot slotIndex).dirty then
        let elemCount <- onStore (cb.elemCount chunkIndex)
        if (c.slot slotIndex).buffer.length ≠ elemCount then
          throw (logicError "ChunkCache: buffer/elemCount mismatch while flushing")
        onStore (cb.storeChunk chunkIndex (c.slot slotIndex).buffer elemCount)
        onCache fun c => c.modifySlot slotIndex fun slot => { slot with dirty := false }
      else
        pure ()

def evictSlot (cb : ChunkCallbacks R σ) (slotIndex : Nat) :
    Call (ChunkCache R × σ) Unit := do
  let (c, _) <- get
  match (c.slot slotIndex).chunkIndex with
  | none => pure ()
  | some chunkIndex =>
      flushSlot cb slotIndex
      onCache fun c => c.mapChunk chunkIndex none
  onCache fun c => c.modifySlot slotIndex fun slot =>
    { slot with
      chunkIndex := none
      dirty := false
      touch := 0 }

/-- Find a slot for a new chunk: a fresh one below the capacity, else the victim's. -/
def makeRoom (cb : ChunkCallbacks R σ) : Call (ChunkCache R × σ) Nat := do
  let (c, _) <- get
  if c.slots.length < c.capacity then
    onCache pushSlot
    pure c.slots.length
  else
    evictSlot cb c.selectEvictionSlot
    pure c.selectEvictionSlot

/-- `slot.buffer.assign(elemCount, 0.0)` when the size differs. -/
def resizeBuffer [Zero R] (c : ChunkCache R) (slotIndex elemCount : Nat) : ChunkCache R :=
  if (c.slot slotIndex).buffer.length ≠ elemCount then
    c.setBuffer slotIndex (List.replicate elemCount 0)
  else
    c

def loadSlot (cb : ChunkCallbacks R σ) (slotIndex chunkIndex elemCount : Nat) :
    Call (ChunkCache R × σ) Unit :=
  Call.focus (fun t => ((t.1.slot slotIndex).buffer, t.2))
    (fun t s => (t.1.setBuffer slotIndex s.1, s.2))
    (cb.loadChunk chunkIndex elemCount)

/-- The part of `acquire` that runs once a slot is free. -/
def fillSlot [Zero R] (cb : ChunkCallbacks R σ) (chunkIndex slotIndex : Nat) :
    Call (ChunkCache R × σ) SlotHandle := do
  onCache fun c => c.assignSlot slotIndex chunkIndex
  let elemCount <- onStore (cb.elemCount chunkIndex)
  if elemCount = 0 then
    throw (logicError "ChunkCache: elemCount must be >= 1")
  onCache fun c => c.resizeBuffer slotIndex elemCount
  loadSlot cb slotIndex chunkIndex elemCount
  onCache fun c => c.mapChunk chunkIndex (some slotIndex)
  let (c, _) <- get
  pure (c.makeSlotHandle slotIndex chunkIndex)

def acquire [Zero R] (cb : ChunkCallbacks R σ) (chunkIndex : Nat) :
    Call (ChunkCache R × σ) SlotHandle := do
  let (c, _) <- get
  if chunkIndex ≥ c.chunkToSlot.length then
    throw (outOfRange "ChunkCache: chunk index out of range")
  match c.chunkToSlot.getD chunkIndex none with
  | some mappedSlot =>
      onCache fun c => c.touchSlot mappedSlot
      pure (c.makeSlotHandle mappedSlot chunkIndex)
  | none =>
      let slotIndex <- makeRoom cb
      fillSlot cb chunkIndex slotIndex

def findBuffer (c : ChunkCache R) (chunkIndex : Nat) : Option (List R) :=
  (c.chunkToSlot.getD chunkIndex none).map fun slotIndex => (c.slot slotIndex).buffer

def flushAll (cb : ChunkCallbacks R σ) : Call (ChunkCache R × σ) Unit := do
  let (c, _) <- get
  (List.range c.slots.length).forM (flushSlot cb)

/-!
## Writing through a handle
-/

/-- Overwrite the buffer behind the data pointer of a handle. -/
def writeData (c : ChunkCache R) (h : SlotHandle) (f : List R -> List R) : ChunkCache R :=
  c.modifySlot h.slotIndex fun slot => { slot with buffer := f slot.buffer }

def denotesDirty (c : ChunkCache R) (h : SlotHandle) : Prop :=
  h.storage = c.storage

instance (c : ChunkCache R) (h : SlotHandle) : Decidable (c.denotesDirty h) :=
  inferInstanceAs (Decidable (h.storage = c.storage))

/-- `*handle.dirty = true`: lost when the slots have moved since. -/
def setDirty (c : ChunkCache R) (h : SlotHandle) : ChunkCache R :=
  if c.denotesDirty h then
    c.modifySlot h.slotIndex fun slot => { slot with dirty := true }
  else
    c

end ChunkCache

end Tmfqs
