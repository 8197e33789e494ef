import Mathlib.Data.Nat.Sqrt
import Tmfqs.Storage.CodecConfig
import Tmfqs.Storage.CodecPolicy

/-!
# The zfp codec

`storage/zfp/zfp_codec.cpp`: the shape of a chunk's field, the cached streams, and the
fallback to serial execution.  The functions of zfp are parameters.
-/

namespace Tmfqs

open Library

inductive ZfpCompressionMode where
  | fixedRate
  | fixedPrecision
  | fixedAccuracy
deriving DecidableEq, Repr

/--
The functions of zfp the codec calls.  A field is given by its dimensions; what it points to
is handed to the functions that read or write it.  Setting a stream gives the returned value
and the stream, and a buffer that is written to keeps its length.
-/
structure Zfp (R B : Type) where
  Field : Type
  Stream : Type
  field1d : Nat -> Option Field
  field2d : Nat -> Nat -> Option Field
  streamOpen : Option Stream
  bitstreamOpens : Nat -> Bool
  setOmpThreads : Stream -> Nat -> Bool × Stream
  setSerial : Stream -> Bool × Stream
  setRate : Stream -> Option R -> Nat -> R × Stream
  setPrecision : Stream -> Nat -> Nat × Stream
  setAccuracy : Stream -> Option R -> R × Stream
  maximumSize : Stream -> Field -> Nat
  compress : Stream -> Field -> List R -> List B -> Nat × List B
  decompress : Stream -> Field -> List B -> List R -> Nat × List R
  length_compress : forall stream field data buffer,
    (compress stream field data buffer).2.length = buffer.length
  length_decompress : forall stream field compressed data,
    (decompress stream field compressed data).2.length = data.length

namespace ZfpCodec

variable {R B : Type} [Field R] [LinearOrder R] {zfp : Zfp R B}

/-!
## Shapes of fields
-/

structure FieldShape where
  nx : Nat := 0
  ny : Nat := 0
deriving DecidableEq, Repr

def FieldShape.is2d (shape : FieldShape) : Bool :=
  shape.nx != 0 && shape.ny != 0

def FieldShape.dimensions (shape : FieldShape) : Nat :=
  if shape.is2d then 2 else 1

/-- The loop of `chooseFieldShape` from `ny` on. -/
def chooseFrom (elemCount : Nat) : Nat -> FieldShape
  | 0 => {}
  | ny + 1 =>
      if ny + 1 < 8 then
        {}
      else if elemCount % (ny + 1) ≠ 0 then
        chooseFrom elemCount ny
      else if 8 ≤ elemCount / (ny + 1) then
        { nx := elemCount / (ny + 1), ny := ny + 1 }
      else
        chooseFrom elemCount ny

/-- Chunks have far fewer than `2 ^ 52` elements, for which the rounded root has this floor. -/
def chooseFieldShape (elemCount : Nat) : FieldShape :=
  if elemCount < 64 then {} else chooseFrom elemCount (Nat.sqrt elemCount)

/-- `ny` is a side of a field of `elemCount` elements that is long enough. -/
def IsSide (elemCount ny : Nat) : Prop :=
  8 ≤ ny ∧ ny ∣ elemCount ∧ 8 ≤ elemCount / ny

/-- What the loop finds among the lengths up to `side`: nothing, or the longest one. -/
def Finds (elemCount side : Nat) (shape : FieldShape) : Prop :=
  (shape = {} ∧ forall ny, ny ≤ side -> ¬ IsSide elemCount ny) ∨
    exists ny, shape = { nx := elemCount / ny, ny := ny } ∧ IsSide elemCount ny ∧ ny ≤ side ∧
      forall ny', ny' ≤ side -> IsSide elemCount ny' -> ny' ≤ ny

theorem Finds.skip {elemCount ny : Nat} {shape : FieldShape} (h : Finds elemCount ny shape)
    (hnot : ¬ IsSide elemCount (ny + 1)) : Finds elemCount (ny + 1) shape := by
  have hbelow : forall ny', ny' ≤ ny + 1 -> IsSide elemCount ny' -> ny' ≤ ny := by
    intro ny' hle hside
    have hne : ny' ≠ ny + 1 := by
      rintro rfl
      exact hnot hside
    omega
  rcases h with ⟨hnone, hall⟩ | ⟨ny0, hchosen, hside, hle, hlongest⟩
  · exact Or.inl ⟨hnone, fun ny' hle hside => hall ny' (hbelow ny' hle hside) hside⟩
  · exact Or.inr ⟨ny0, hchosen, hside, by omega,
      fun ny' hle' hside' => hlongest ny' (hbelow ny' hle' hside') hside'⟩

theorem finds_chooseFrom (elemCount side : Nat) :
    Finds elemCount side (chooseFrom elemCount side) := by
  induction side with
  | zero =>
      refine Or.inl ⟨rfl, ?_⟩
      rintro ny hny ⟨hlarge, _⟩
      omega
  | succ ny ih =>
      by_cases hsmall : ny + 1 < 8
      · rw [chooseFrom, if_pos hsmall]
        refine Or.inl ⟨rfl, ?_⟩
        rintro ny' hny' ⟨hlarge, _⟩
        omega
      rw [chooseFrom, if_neg hsmall]
      by_cases hdvd : elemCount % (ny + 1) ≠ 0
      · rw [if_pos hdvd]
        apply ih.skip
        rintro ⟨_, h, _⟩
        exact hdvd (Nat.mod_eq_zero_of_dvd h)
      rw [if_neg hdvd]
      by_cases hlong : 8 ≤ elemCount / (ny + 1)
      · rw [if_pos hlong]
        exact Or.inr ⟨ny + 1, rfl, ⟨by omega, Nat.dvd_of_mod_eq_zero (by omega), hlong⟩, le_rfl,
          fun ny' hle _ => hle⟩
      · rw [if_neg hlong]
        apply ih.skip
        rintro ⟨_, _, h⟩
        exact hlong h

theorem is2d_of_isSide {elemCount ny : Nat} (h : IsSide elemCount ny) :
    FieldShape.is2d { nx := elemCount / ny, ny := ny } = true := by
  rcases h with ⟨hny, _, hnx⟩
  simp only [FieldShape.is2d, bne_iff_ne, Bool.and_eq_true]
  omega

theorem mul_of_is2d {elemCount : Nat} (h : (chooseFieldShape elemCount).is2d = true) :
    (chooseFieldShape elemCount).nx * (chooseFieldShape elemCount).ny = elemCount := by
  unfold chooseFieldShape at h ⊢
  by_cases hsmall : elemCount < 64
  · rw [if_pos hsmall] at h
    cases h
  · rw [if_neg hsmall] at h ⊢
    rcases finds_chooseFrom elemCount (Nat.sqrt elemCount) with
      ⟨hnone, _⟩ | ⟨ny, hchosen, hside, _⟩
    · rw [hnone] at h
      cases h
    · rw [hchosen]
      exact Nat.div_mul_cancel hside.2.1

theorem isSide_of_mul {elemCount a b : Nat} (ha : 8 ≤ a) (hb : 8 ≤ b) (h : a * b = elemCount) :
    IsSide elemCount a := by
  have hquotient : elemCount / a = b := by
    rw [← h]
    exact Nat.mul_div_cancel_left b (by omega)
  exact ⟨ha, ⟨b, h.symm⟩, by rw [hquotient]; exact hb⟩

/--
A chunk becomes a plane exactly if it splits into two sides of at least eight elements.  The
sides hold the whole chunk, and no split is closer to a square.
-/
theorem chooseFieldShape_nearest_square (elemCount : Nat) :
    ((chooseFieldShape elemCount).is2d = true <->
        exists a b, 8 ≤ a ∧ 8 ≤ b ∧ a * b = elemCount) ∧
      ((chooseFieldShape elemCount).is2d = true ->
        (chooseFieldShape elemCount).nx * (chooseFieldShape elemCount).ny = elemCount ∧
          8 ≤ (chooseFieldShape elemCount).ny ∧
          (chooseFieldShape elemCount).ny ≤ (chooseFieldShape elemCount).nx ∧
          forall a b, a * b = elemCount -> a ≤ b -> a ≤ (chooseFieldShape elemCount).ny) := by
  have hmul := @mul_of_is2d elemCount
  by_cases hsmall : elemCount < 64
  · have hshape : chooseFieldShape elemCount = {} := by
      rw [chooseFieldShape, if_pos hsmall]
    rw [hshape]
    refine ⟨⟨fun h => absurd h (by decide), ?_⟩, fun h => absurd h (by decide)⟩
    rintro ⟨a, b, ha, hb, hab⟩
    have hle : 8 * 8 ≤ a * b := Nat.mul_le_mul ha hb
    omega
  · have hshape : chooseFieldShape elemCount = chooseFrom elemCount (Nat.sqrt elemCount) := by
      rw [chooseFieldShape, if_neg hsmall]
    -- the smaller of two sides is among the lengths the loop tries
    have hroot : forall a b, a * b = elemCount -> a ≤ b -> a ≤ Nat.sqrt elemCount := by
      intro a b hmul hab
      rw [Nat.le_sqrt, ← hmul]
      exact Nat.mul_le_mul_left a hab
    rw [hshape] at hmul ⊢
    rcases finds_chooseFrom elemCount (Nat.sqrt elemCount) with
      ⟨hnone, hall⟩ | ⟨ny, hchosen, hside, hle, hlongest⟩
    · rw [hnone]
      refine ⟨⟨fun h => absurd h (by decide), ?_⟩, fun h => absurd h (by decide)⟩
      rintro ⟨a, b, ha, hb, hab⟩
      rcases Nat.le_total a b with hle | hle
      · exact absurd (isSide_of_mul ha hb hab) (hall a (hroot a b hab hle))
      · rw [Nat.mul_comm] at hab
        exact absurd (isSide_of_mul hb ha hab) (hall b (hroot b a hab hle))
    · have hpos : 0 < ny := by
        have height := hside.1
        omega
      rw [hchosen] at hmul ⊢
      have hsplit := hmul (is2d_of_isSide hside)
      refine ⟨⟨fun _ => ⟨elemCount / ny, ny, hside.2.2, hside.1, hsplit⟩,
        fun _ => is2d_of_isSide hside⟩, fun _ => ⟨hsplit, hside.1, ?_, ?_⟩⟩
      · rw [Nat.le_div_iff_mul_le hpos]
        exact Nat.le_sqrt.mp hle
      · intro a b hab hle'
        by_cases ha : 8 ≤ a
        · exact hlongest a (hroot a b hab hle') (isSide_of_mul ha (ha.trans hle') hab)
        · have height := hside.1
          change a ≤ ny
          omega

/-!
## The codec
-/

/-- `compressionScratch_`, with the allocation its bytes are in. -/
structure Scratch (B : Type) where
  allocation : Nat
  capacity : Nat
  bytes : List B

def Scratch.resize [Zero B] (scratch : Scratch B) (size : Nat) : Scratch B :=
  let bytes := scratch.bytes.take size ++ List.replicate (size - scratch.bytes.length) 0
  if size ≤ scratch.capacity then
    { scratch with bytes := bytes }
  else
    { allocation := scratch.allocation + 1
      capacity := max size (2 * scratch.bytes.length)
      bytes := bytes }

/-- A bitstream writes to the allocation it was opened on. -/
structure Bitstream where
  allocation : Nat
  bytes : Nat
deriving DecidableEq, Repr

/-- The members of the codec that belong to one direction. -/
structure Coder (zfp : Zfp R B) where
  threads : Int
  field : Option zfp.Field
  stream : Option zfp.Stream

structure Codec (zfp : Zfp R B) where
  compression : Coder zfp
  decompression : Coder zfp
  compressionScratch : Scratch B
  compressionBitstream : Option Bitstream
  compressionBitstreamCapacity : Nat

def Coder.reset (coder : Coder zfp) : Coder zfp :=
  { coder with
    field := none
    stream := none }

def Codec.initial (zfp : Zfp R B) (cfg : ZfpConfig R) : Codec zfp :=
  { compression := { threads := cfg.nthreads, field := none, stream := none }
    decompression := { threads := cfg.nthreads, field := none, stream := none }
    compressionScratch := { allocation := 0, capacity := 0, bytes := [] }
    compressionBitstream := none
    compressionBitstreamCapacity := 0 }

/-- A copied codec keeps the numbers of threads and the bytes, in an allocation of its own. -/
def Codec.clone (codec : Codec zfp) : Codec zfp :=
  { compression := codec.compression.reset
    decompression := codec.decompression.reset
    compressionScratch :=
      { allocation := 0
        capacity := codec.compressionScratch.bytes.length
        bytes := codec.compressionScratch.bytes }
    compressionBitstream := none
    compressionBitstreamCapacity := 0 }

def fieldOf (zfp : Zfp R B) (elemCount : Nat) : Option zfp.Field :=
  let shape := chooseFieldShape elemCount
  if shape.is2d then zfp.field2d shape.nx shape.ny else zfp.field1d elemCount

def prepareField (elemCount : Nat) : Call (Coder zfp) zfp.Field := do
  let field := fieldOf zfp elemCount
  modify fun coder => { coder with field := field }
  match field with
  | some field => pure field
  | none => throw (runtimeError "ZfpCodec: failed creating zfp field")

def prepareStream : Call (Coder zfp) zfp.Stream := do
  let coder <- get
  match coder.stream with
  | some stream => pure stream
  | none =>
      match zfp.streamOpen with
      | some stream => do
          modify fun coder => { coder with stream := some stream }
          pure stream
      | none => throw (runtimeError "ZfpCodec: failed creating zfp stream")

def setStream {α : Type} (set : α × zfp.Stream) (failed : α -> Bool) (message : String) :
    Call (Coder zfp) zfp.Stream := do
  modify fun coder => { coder with stream := some set.2 }
  if failed set.1 then
    throw (runtimeError message)
  pure set.2

/-- The first half of `applyStreamMode`. -/
def setExecution (stream : zfp.Stream) : Call (Coder zfp) zfp.Stream := do
  let coder <- get
  if coder.threads > 1 then
    setStream (zfp.setOmpThreads stream coder.threads.toNat) (fun set => !set)
      "ZfpCodec: failed to configure OpenMP execution"
  else
    setStream (zfp.setSerial stream) (fun set => !set)
      "ZfpCodec: failed to configure serial execution"

/-- The second half of `applyStreamMode`. -/
def setMode (mode : ZfpCompressionMode) (cfg : ZfpConfig R) (dimensions : Nat)
    (stream : zfp.Stream) : Call (Coder zfp) zfp.Stream :=
  match mode with
  | .fixedRate =>
      setStream (zfp.setRate stream cfg.rate dimensions) (fun rate => decide (rate ≤ 0))
        "ZfpCodec: failed to configure fixed-rate mode"
  | .fixedPrecision =>
      setStream (zfp.setPrecision stream cfg.precision) (fun precision => precision == 0)
        "ZfpCodec: failed to configure fixed-precision mode"
  | .fixedAccuracy =>
      setStream (zfp.setAccuracy stream cfg.accuracy) (fun accuracy => decide (accuracy ≤ 0))
        "ZfpCodec: failed to configure fixed-accuracy mode"

def applyStreamMode (mode : ZfpCompressionMode) (cfg : ZfpConfig R) (dimensions : Nat)
    (stream : zfp.Stream) : Call (Coder zfp) zfp.Stream := do
  let stream <- setExecution stream
  setMode mode cfg dimensions stream

/-- The field and the stream of a chunk, as either direction gets them. -/
def prepare (mode : ZfpCompressionMode) (cfg : ZfpConfig R) (elemCount : Nat) :
    Call (Coder zfp) (zfp.Field × zfp.Stream) := do
  let field <- prepareField elemCount
  let stream <- prepareStream
  let stream <- applyStreamMode mode cfg (chooseFieldShape elemCount).dimensions stream
  pure (field, stream)

def ensureCompressionBitstream : Call (Codec zfp) Bitstream := do
  let codec <- get
  let scratch := codec.compressionScratch
  let opened : Bitstream :=
    { allocation := scratch.allocation
      bytes := scratch.bytes.length }
  match codec.compressionBitstream with
  | some bitstream =>
      if codec.compressionBitstreamCapacity ≠ scratch.bytes.length then
        openBitstream opened
      else
        pure bitstream
  | none => openBitstream opened
where
  openBitstream (opened : Bitstream) : Call (Codec zfp) Bitstream := do
    if zfp.bitstreamOpens opened.bytes = false then
      modify fun codec => { codec with compressionBitstream := none }
      throw (runtimeError "ZfpCodec: failed creating bitstream")
    modify fun codec =>
      { codec with
        compressionBitstream := some opened
        compressionBitstreamCapacity := opened.bytes }
    pure opened

def Codec.grow [Zero B] (maxSize : Nat) (codec : Codec zfp) : Codec zfp :=
  if codec.compressionScratch.bytes.length < maxSize then
    { codec with compressionScratch := codec.compressionScratch.resize maxSize }
  else
    codec

/-- What a bitstream writes to: bytes of the scratch buffer while that has not moved. -/
def Codec.buffer (codec : Codec zfp) (bitstream : Bitstream) : List B :=
  if bitstream.allocation = codec.compressionScratch.allocation then
    codec.compressionScratch.bytes.take bitstream.bytes
  else
    []

def Codec.written (codec : Codec zfp) (bitstream : Bitstream) (bytes : List B) : Codec zfp :=
  if bitstream.allocation = codec.compressionScratch.allocation then
    { codec with
      compressionScratch :=
        { codec.compressionScratch with
          bytes := bytes ++ codec.compressionScratch.bytes.drop bitstream.bytes } }
  else
    codec

/-- `resetCodecStreams`, after the number of threads has been set. -/
def Codec.compressSerially (codec : Codec zfp) : Codec zfp :=
  { codec with
    compression := { codec.compression.reset with threads := 1 }
    compressionBitstream := none
    compressionBitstreamCapacity := 0 }

/-- `resetDecompressionStream`, after the number of threads has been set. -/
def Codec.decompressSerially (codec : Codec zfp) : Codec zfp :=
  { codec with decompression := { codec.decompression.reset with threads := 1 } }

def onCompression {τ α : Type} (x : Call (Coder zfp) α) : Call (τ × Codec zfp) α :=
  Call.focus (fun t => t.2.compression)
    (fun t coder => (t.1, { t.2 with compression := coder })) x

def onDecompression {τ α : Type} (x : Call (Coder zfp) α) : Call (τ × Codec zfp) α :=
  Call.focus (fun t => t.2.decompression)
    (fun t coder => (t.1, { t.2 with decompression := coder })) x

def onCodec {τ α : Type} (x : Call (Codec zfp) α) : Call (τ × Codec zfp) α :=
  Call.focus Prod.snd (fun t codec => (t.1, codec)) x

/-- `compress` up to the call of `zfp_compress`, whose result it returns. -/
def tryCompress [Zero B] (mode : ZfpCompressionMode) (cfg : ZfpConfig R) (data : List R) :
    Call (List B × Codec zfp) Nat := do
  if data.length = 0 then
    throw (invalidArgument "ZfpCodec: cannot compress empty buffer")
  let prepared <- onCompression (prepare mode cfg data.length)
  let maxSize := zfp.maximumSize prepared.2 prepared.1
  if maxSize = 0 then
    throw (runtimeError "ZfpCodec: invalid maximum compressed size")
  onCodec (modify (Codec.grow maxSize))
  let bitstream <- onCodec ensureCompressionBitstream
  let (_, codec) <- get
  let (compressedSize, bytes) :=
    zfp.compress prepared.2 prepared.1 data (codec.buffer bitstream)
  onCodec (modify fun codec => codec.written bitstream bytes)
  pure compressedSize

/-- A chunk for which several threads got no size is tried once more from one thread. -/
def orSerially {σ : Type} (threads : σ -> Int) (serially : σ -> σ) (attempt : Call σ Nat)
    (again : Call σ Unit) (done : Nat -> Call σ Unit) : Call σ Unit := do
  let size <- attempt
  let s <- get
  if size = 0 ∧ threads s > 1 then
    modify serially
    again
  else
    done size

/-- `compress`, with the call it makes of itself. -/
def compressWith [Zero B] (mode : ZfpCompressionMode) (cfg : ZfpConfig R)
    (again : List R -> Call (List B × Codec zfp) Unit) (data : List R) :
    Call (List B × Codec zfp) Unit :=
  orSerially (fun t => t.2.compression.threads) (fun t => (t.1, t.2.compressSerially))
    (tryCompress mode cfg data) (again data) fun compressedSize => do
      if compressedSize = 0 then
        throw (runtimeError "ZfpCodec: compression failed")
      modify fun t => (t.2.compressionScratch.bytes.take compressedSize, t.2)

/-- A codec that has become serial does not call itself again. -/
def compress [Zero B] (mode : ZfpCompressionMode) (cfg : ZfpConfig R) :
    List R -> Call (List B × Codec zfp) Unit :=
  compressWith mode cfg (compressWith mode cfg fun _ => pure ())

/-- `decompress` up to the call of `zfp_decompress`, whose result it returns. -/
def tryDecompress (mode : ZfpCompressionMode) (cfg : ZfpConfig R) (compressed : List B)
    (elemCount : Nat) : Call (List R × Codec zfp) Nat := do
  if elemCount = 0 ∨ compressed.length = 0 then
    throw (invalidArgument "ZfpCodec: invalid chunk while decompressing")
  modify fun t => (t.1.take elemCount ++ List.replicate (elemCount - t.1.length) 0, t.2)
  let prepared <- onDecompression (prepare mode cfg elemCount)
  if zfp.bitstreamOpens compressed.length = false then
    throw (runtimeError "ZfpCodec: failed creating bitstream")
  let (out, _) <- get
  let (decompressedSize, out) := zfp.decompress prepared.2 prepared.1 compressed out
  modify fun t => (out, t.2)
  pure decompressedSize

/-- `decompress`, with the call it makes of itself. -/
def decompressWith (mode : ZfpCompressionMode) (cfg : ZfpConfig R)
    (again : List B -> Nat -> Call (List R × Codec zfp) Unit) (compressed : List B)
    (elemCount : Nat) : Call (List R × Codec zfp) Unit :=
  orSerially (fun t => t.2.decompression.threads) (fun t => (t.1, t.2.decompressSerially))
    (tryDecompress mode cfg compressed elemCount) (again compressed elemCount)
    fun decompressedSize => do
      if decompressedSize = 0 then
        throw (runtimeError "ZfpCodec: decompression failed")

def decompress (mode : ZfpCompressionMode) (cfg : ZfpConfig R) :
    List B -> Nat -> Call (List R × Codec zfp) Unit :=
  decompressWith mode cfg (decompressWith mode cfg fun _ _ => pure ())

/-!
## The cached bitstream

The bitstream is kept from one chunk to the next.  It always belongs to the scratch buffer as
it is then, whatever calls have thrown before.
-/

/-- A cached bitstream covers the scratch buffer where that is now. -/
def Codec.Owned (codec : Codec zfp) : Prop :=
  forall bitstream, codec.compressionBitstream = some bitstream ->
    bitstream.allocation = codec.compressionScratch.allocation ∧
      bitstream.bytes = codec.compressionScratch.bytes.length ∧
        codec.compressionBitstreamCapacity = codec.compressionScratch.bytes.length

section

omit [Field R] [LinearOrder R]

theorem Codec.owned_initial (zfp : Zfp R B) (cfg : ZfpConfig R) :
    (Codec.initial zfp cfg).Owned := by
  rintro bitstream ⟨⟩

theorem Codec.owned_clone (codec : Codec zfp) : codec.clone.Owned := by
  rintro bitstream ⟨⟩

theorem Codec.owned_compressSerially (codec : Codec zfp) : codec.compressSerially.Owned := by
  rintro bitstream ⟨⟩

end

variable {mode : ZfpCompressionMode} {cfg : ZfpConfig R} {codec : Codec zfp}

theorem length_resize [Zero B] (scratch : Scratch B) {size : Nat}
    (h : scratch.bytes.length < size) : (scratch.resize size).bytes.length = size := by
  have hbytes : (scratch.resize size).bytes =
      scratch.bytes.take size ++ List.replicate (size - scratch.bytes.length) 0 := by
    unfold Scratch.resize
    split <;> rfl
  rw [hbytes, List.length_append, List.length_take, List.length_replicate]
  omega

section

omit [Field R] [LinearOrder R]

/-- The bitstream of a grown scratch buffer is opened again, since its size has changed. -/
theorem post_ensureCompressionBitstream [Zero B] (h : codec.Owned) (maxSize : Nat) :
    Call.Post ensureCompressionBitstream (codec.grow maxSize)
      (fun bitstream codec' => codec'.Owned ∧ codec'.compressionBitstream = some bitstream ∧
        codec'.compression = codec.compression ∧
          codec'.compressionScratch = (codec.grow maxSize).compressionScratch)
      (fun _ codec' => codec'.Owned ∧
        zfp.bitstreamOpens (codec.grow maxSize).compressionScratch.bytes.length = false) := by
  have hopen : Call.Post (ensureCompressionBitstream.openBitstream
        { allocation := (codec.grow maxSize).compressionScratch.allocation
          bytes := (codec.grow maxSize).compressionScratch.bytes.length }) (codec.grow maxSize)
      (fun bitstream codec' => codec'.Owned ∧ codec'.compressionBitstream = some bitstream ∧
        codec'.compression = codec.compression ∧
          codec'.compressionScratch = (codec.grow maxSize).compressionScratch)
      (fun _ codec' => codec'.Owned ∧
        zfp.bitstreamOpens (codec.grow maxSize).compressionScratch.bytes.length = false) := by
    have hcompression : (codec.grow maxSize).compression = codec.compression := by
      unfold Codec.grow
      split <;> rfl
    unfold ensureCompressionBitstream.openBitstream
    split
    · rename_i hfails
      refine ⟨?_, hfails⟩
      rintro bitstream ⟨⟩
    · refine ⟨?_, rfl, hcompression, rfl⟩
      rintro bitstream ⟨⟩
      exact ⟨rfl, rfl, rfl⟩
  rw [ensureCompressionBitstream, Call.post_bind_iff, Call.post_get]
  cases hbitstream : (codec.grow maxSize).compressionBitstream with
  | none => exact hopen
  | some bitstream =>
      by_cases hsize :
          (codec.grow maxSize).compressionBitstreamCapacity ≠
            (codec.grow maxSize).compressionScratch.bytes.length
      · simp only [if_pos hsize]
        exact hopen
      · simp only [if_neg hsize]
        -- a buffer that has grown is larger than the recorded capacity
        by_cases hgrow : codec.compressionScratch.bytes.length < maxSize
        · rw [Codec.grow, if_pos hgrow] at hbitstream hsize
          simp only [length_resize codec.compressionScratch hgrow] at hsize
          have hcapacity := (h bitstream hbitstream).2.2
          omega
        · have hsame : codec.grow maxSize = codec := by rw [Codec.grow, if_neg hgrow]
          rw [hsame] at hbitstream ⊢
          exact ⟨h, hbitstream, rfl, rfl⟩

theorem Codec.Owned.written {bitstream : Bitstream} {bytes : List B} (h : codec.Owned)
    (hbitstream : codec.compressionBitstream = some bitstream)
    (hbytes : bytes.length = codec.compressionScratch.bytes.length) :
    (codec.written bitstream bytes).Owned ∧
      (codec.written bitstream bytes).compressionScratch.bytes = bytes ∧
        (codec.written bitstream bytes).compression = codec.compression := by
  rcases h bitstream hbitstream with ⟨hallocation, hsize, hcapacity⟩
  have hdrop : codec.compressionScratch.bytes.drop bitstream.bytes = [] :=
    List.drop_eq_nil_of_le hsize.ge
  rw [Codec.written, if_pos hallocation, hdrop, List.append_nil]
  refine ⟨?_, rfl, rfl⟩
  intro bitstream' hbitstream'
  have hsame := Option.some.inj (hbitstream.symm.trans hbitstream')
  rw [← hsame]
  exact ⟨hallocation, hsize.trans hbytes.symm, hcapacity.trans hbytes.symm⟩

theorem Codec.Owned.buffer {bitstream : Bitstream} (h : codec.Owned)
    (hbitstream : codec.compressionBitstream = some bitstream) :
    codec.buffer bitstream = codec.compressionScratch.bytes := by
  rcases h bitstream hbitstream with ⟨hallocation, hsize, _⟩
  rw [Codec.buffer, if_pos hallocation, hsize, List.take_length]

theorem le_length_grow [Zero B] (codec : Codec zfp) (maxSize : Nat) :
    maxSize ≤ (codec.grow maxSize).compressionScratch.bytes.length := by
  unfold Codec.grow
  split
  · rename_i hgrow
    exact (length_resize codec.compressionScratch hgrow).ge
  · omega

end

/-- `zfp_compress` returned `size`, and the scratch buffer holds what it wrote. -/
def Compressed (mode : ZfpCompressionMode) (cfg : ZfpConfig R) (codec : Codec zfp) (data : List R)
    (size : Nat) (codec' : Codec zfp) : Prop :=
  exists field stream, prepare mode cfg data.length codec.compression =
      (.ok (field, stream), codec'.compression) ∧
    exists buffer, zfp.maximumSize stream field ≤ buffer.length ∧
      zfp.compress stream field data buffer = (size, codec'.compressionScratch.bytes)

/-- Why `compress` can throw before `zfp_compress` is called. -/
inductive NotCompressed (mode : ZfpCompressionMode) (cfg : ZfpConfig R) (codec : Codec zfp)
    (data : List R) : Prop where
  | empty (h : data = [])
  | notPrepared {e : Exc} {coder : Coder zfp}
      (h : prepare mode cfg data.length codec.compression = (.error e, coder))
  | noSize {field : zfp.Field} {stream : zfp.Stream} {coder : Coder zfp}
      (hprepared : prepare mode cfg data.length codec.compression = (.ok (field, stream), coder))
      (h : zfp.maximumSize stream field = 0)
  | noBitstream {size : Nat} (hpos : 0 < size) (h : zfp.bitstreamOpens size = false)

theorem post_tryCompress [Zero B] {data : List R} {out : List B} (h : codec.Owned) :
    Call.Post (tryCompress mode cfg data) (out, codec)
      (fun size t => t.2.Owned ∧ Compressed mode cfg codec data size t.2)
      (fun _ t => t.2.Owned ∧ NotCompressed mode cfg codec data) := by
  unfold tryCompress
  by_cases hempty : data.length = 0
  · rw [if_pos hempty]
    exact ⟨h, .empty (List.length_eq_zero_iff.mp hempty)⟩
  rw [if_neg hempty, Call.post_bind_iff, onCompression, Call.post_focus_iff]
  rcases hprepare : prepare mode cfg data.length codec.compression with ⟨r, coder⟩
  -- replacing the coder touches neither the bitstream nor the scratch buffer
  have howned : Codec.Owned { codec with compression := coder } := h
  cases r with
  | error e => exact Call.post_of_error hprepare ⟨howned, .notPrepared hprepare⟩
  | ok prepared =>
      rcases prepared with ⟨field, stream⟩
      refine Call.post_of_ok hprepare ?_
      by_cases hsize : zfp.maximumSize stream field = 0
      · simp only [if_pos hsize]
        exact ⟨howned, .noSize hprepare hsize⟩
      simp only [if_neg hsize]
      rw [Call.post_bind_iff, onCodec, Call.post_focus_iff, Call.post_modify, Call.post_bind_iff,
        onCodec, Call.post_focus_iff]
      have hgrown :=
        le_length_grow { codec with compression := coder } (zfp.maximumSize stream field)
      refine (post_ensureCompressionBitstream howned _).imp ?_ ?_
      · rintro bitstream codec' ⟨howned', hbitstream, hcompression, hscratch⟩
        rw [Call.post_bind_iff, Call.post_get]
        simp only
        rw [howned'.buffer hbitstream, Call.post_bind_iff, onCodec, Call.post_focus_iff,
          Call.post_modify]
        rcases howned'.written hbitstream (zfp.length_compress stream field data _) with
          ⟨hafter, hbytes, hcoder⟩
        refine ⟨hafter, field, stream, ?_, codec'.compressionScratch.bytes, ?_, ?_⟩
        · rw [hprepare, hcoder, hcompression]
        · rw [hscratch]
          exact hgrown
        · rw [hbytes]
      · rintro e codec' ⟨howned', hfails⟩
        exact ⟨howned', .noBitstream (by omega) hfails⟩

/-- However it ends, `compress` leaves the bitstream with the scratch buffer. -/
theorem owned_compressWith [Zero B] {again : List R -> Call (List B × Codec zfp) Unit}
    (hagain : forall data,
      Call.Maintains (fun t => t.2.Owned) (fun _ t => t.2.Owned) (again data)) (data : List R) :
    Call.Maintains (fun t => t.2.Owned) (fun _ t => t.2.Owned)
      (compressWith mode cfg again data) := by
  rintro ⟨out, codec⟩ h
  rw [compressWith, orSerially, Call.post_bind_iff]
  refine (post_tryCompress h).imp ?_ (fun _ _ he => he.1)
  rintro size ⟨out', codec'⟩ ⟨howned, _⟩
  rw [Call.post_bind_iff, Call.post_get]
  by_cases hfallback : size = 0 ∧ codec'.compression.threads > 1
  · rw [if_pos hfallback, Call.post_bind_iff, Call.post_modify]
    exact hagain data (out', codec'.compressSerially) codec'.owned_compressSerially
  · rw [if_neg hfallback]
    split <;> exact howned

theorem owned_compress [Zero B] (data : List R) :
    Call.Maintains (fun t => t.2.Owned) (fun _ t => t.2.Owned)
      (compress mode cfg data : Call (List B × Codec zfp) Unit) :=
  owned_compressWith (owned_compressWith fun _ => Call.maintains_pure ()) data

/-- What `decompress` does not touch. -/
def Codec.compressionSide (codec : Codec zfp) :
    Coder zfp × Scratch B × Option Bitstream × Nat :=
  (codec.compression, codec.compressionScratch, codec.compressionBitstream,
    codec.compressionBitstreamCapacity)

theorem keeps_decompressWith {again : List B -> Nat -> Call (List R × Codec zfp) Unit}
    (hagain : forall compressed elemCount,
      Call.Keeps (fun t => t.2.compressionSide) (again compressed elemCount))
    (compressed : List B) (elemCount : Nat) :
    Call.Keeps (fun t => t.2.compressionSide)
      (decompressWith mode cfg again compressed elemCount) := by
  have htry : Call.Keeps (fun t : List R × Codec zfp => t.2.compressionSide)
      (tryDecompress mode cfg compressed elemCount) := by
    unfold tryDecompress
    apply Call.Keeps.ite (Call.keeps_throw _)
    beta_reduce
    apply Call.Keeps.bind
    · exact Call.keeps_modify fun _ => rfl
    intro _
    apply Call.Keeps.bind
    · intro t
      rfl
    intro prepared
    apply Call.Keeps.ite (Call.keeps_throw _)
    apply Call.Keeps.bind Call.keeps_get
    rintro ⟨out, codec⟩
    rcases zfp.decompress prepared.2 prepared.1 compressed out with ⟨size, out⟩
    apply Call.Keeps.bind
    · exact Call.keeps_modify fun _ => rfl
    intro _
    exact Call.keeps_pure _
  apply Call.Keeps.bind htry
  intro size
  apply Call.Keeps.bind Call.keeps_get
  intro t
  apply Call.Keeps.ite
  · apply Call.Keeps.bind
    · exact Call.keeps_modify fun _ => rfl
    intro _
    exact hagain compressed elemCount
  · exact Call.Keeps.ite (Call.keeps_throw _) (Call.keeps_pure _)

omit [Field R] [LinearOrder R] in
theorem Codec.Owned.of_same {codec' : Codec zfp} (h : codec.Owned)
    (hsame : codec'.compressionSide = codec.compressionSide) : codec'.Owned := by
  simp only [Codec.compressionSide, Prod.mk.injEq] at hsame
  rcases hsame with ⟨_, hscratch, hbitstream, hcapacity⟩
  unfold Codec.Owned
  rw [hscratch, hbitstream, hcapacity]
  exact h

theorem owned_decompress (compressed : List B) (elemCount : Nat) :
    Call.Maintains (fun t => t.2.Owned) (fun _ t => t.2.Owned)
      (decompress mode cfg compressed elemCount : Call (List R × Codec zfp) Unit) := by
  intro t h
  have hkeeps : Call.Keeps (fun t : List R × Codec zfp => t.2.compressionSide)
      (decompress mode cfg compressed elemCount) :=
    keeps_decompressWith
      (keeps_decompressWith fun _ _ => Call.keeps_pure ()) compressed elemCount
  exact (hkeeps.post rfl).imp (fun _ _ hsame => h.of_same hsame) (fun _ _ hsame => h.of_same hsame)

/-- `ZfpCodecPolicy` of a configuration its constructor accepts. -/
def policy [Zero B] (zfp : Zfp R B) (mode : ZfpCompressionMode)
    (cfg : RegisterConfig (CodecSettings R)) (haccepted : Accepts (validateConfig cfg)) :
    CodecPolicy R B where
  backendName := "ZfpStateBackend"
  chunkStates := cfg.settings.zfp.chunkStates
  cacheSlots := cfg.settings.zfp.gateCacheSlots
  State := { codec : Codec zfp // codec.Owned }
  initial := ⟨Codec.initial zfp cfg.settings.zfp, Codec.owned_initial zfp cfg.settings.zfp⟩
  clone codec := ⟨codec.1.clone, codec.1.owned_clone⟩
  compress data := Call.restrict (compress mode cfg.settings.zfp data) (owned_compress data)
  decompress compressed elemCount :=
    Call.restrict (decompress mode cfg.settings.zfp compressed elemCount)
      (owned_decompress compressed elemCount)
  chunkStates_pos := ((accepts_iff cfg).mp haccepted).2.2.2.1
  cacheSlots_ge_two := ((accepts_iff cfg).mp haccepted).2.2.2.2.2

/-!
## The fallback to serial execution
-/

omit [Field R] [LinearOrder R] in
theorem threads_setStream {α : Type} (set : α × zfp.Stream) (failed : α -> Bool)
    (message : String) :
    Call.Keeps (fun coder : Coder zfp => coder.threads) (setStream set failed message) := by
  unfold setStream
  apply Call.Keeps.bind
  · exact Call.keeps_modify fun _ => rfl
  intro _
  exact Call.Keeps.ite (Call.keeps_throw _) (Call.keeps_pure _)

theorem threads_applyStreamMode (dimensions : Nat) (stream : zfp.Stream) :
    Call.Keeps (fun coder : Coder zfp => coder.threads)
      (applyStreamMode mode cfg dimensions stream) := by
  unfold applyStreamMode
  apply Call.Keeps.bind
  · unfold setExecution
    apply Call.Keeps.bind Call.keeps_get
    intro coder
    exact Call.Keeps.ite (threads_setStream _ _ _) (threads_setStream _ _ _)
  · intro stream'
    cases mode <;> exact threads_setStream _ _ _

theorem threads_prepare (mode : ZfpCompressionMode) (cfg : ZfpConfig R) (elemCount : Nat) :
    Call.Keeps (fun coder : Coder zfp => coder.threads) (prepare mode cfg elemCount) := by
  unfold prepare
  apply Call.Keeps.bind
  · unfold prepareField
    apply Call.Keeps.bind
    · exact Call.keeps_modify fun _ => rfl
    intro _
    cases fieldOf zfp elemCount with
    | none => exact Call.keeps_throw _
    | some field => exact Call.keeps_pure _
  intro field
  apply Call.Keeps.bind
  · unfold prepareStream
    apply Call.Keeps.bind Call.keeps_get
    intro coder
    cases coder.stream with
    | some stream => exact Call.keeps_pure _
    | none =>
        cases zfp.streamOpen with
        | none => exact Call.keeps_throw _
        | some stream =>
            apply Call.Keeps.bind
            · exact Call.keeps_modify fun _ => rfl
            intro _
            exact Call.keeps_pure _
  intro stream
  apply Call.Keeps.bind (threads_applyStreamMode _ _)
  intro stream'
  exact Call.keeps_pure _

omit [Field R] [LinearOrder R] in
theorem compression_grow [Zero B] (maxSize : Nat) (codec : Codec zfp) :
    (codec.grow maxSize).compression = codec.compression := by
  unfold Codec.grow
  split <;> rfl

omit [Field R] [LinearOrder R] in
theorem compression_ensureCompressionBitstream :
    Call.Keeps (fun codec : Codec zfp => codec.compression) ensureCompressionBitstream := by
  have hopen : forall opened, Call.Keeps (fun codec : Codec zfp => codec.compression)
      (ensureCompressionBitstream.openBitstream opened) := by
    intro opened
    unfold ensureCompressionBitstream.openBitstream
    apply Call.Keeps.ite
    · apply Call.Keeps.bind
      · exact Call.keeps_modify fun _ => rfl
      intro _
      exact Call.keeps_throw _
    · apply Call.Keeps.bind
      · exact Call.keeps_modify fun _ => rfl
      intro _
      exact Call.keeps_pure _
  unfold ensureCompressionBitstream
  apply Call.Keeps.bind Call.keeps_get
  intro codec
  cases codec.compressionBitstream with
  | none => exact hopen _
  | some bitstream => exact Call.Keeps.ite (hopen _) (Call.keeps_pure _)

theorem threads_tryCompress [Zero B] (mode : ZfpCompressionMode) (cfg : ZfpConfig R)
    (data : List R) :
    Call.Keeps (fun t : List B × Codec zfp => t.2.compression.threads)
      (tryCompress mode cfg data) := by
  unfold tryCompress
  apply Call.Keeps.ite (Call.keeps_throw _)
  beta_reduce
  apply Call.Keeps.bind
  · exact (threads_prepare mode cfg _).focus fun _ _ h => h
  intro prepared
  apply Call.Keeps.ite (Call.keeps_throw _)
  beta_reduce
  apply Call.Keeps.bind
  · intro t
    exact congrArg Coder.threads (compression_grow _ t.2)
  intro _
  apply Call.Keeps.bind
  · exact compression_ensureCompressionBitstream.focus fun _ _ h => congrArg Coder.threads h
  intro bitstream
  apply Call.Keeps.bind Call.keeps_get
  rintro ⟨out, codec⟩
  rcases zfp.compress prepared.2 prepared.1 data (codec.buffer bitstream) with ⟨size, bytes⟩
  apply Call.Keeps.bind
  · intro t
    change (t.2.written bitstream _).compression.threads = t.2.compression.threads
    unfold Codec.written
    split <;> rfl
  intro _
  exact Call.keeps_pure _

theorem threads_tryDecompress (mode : ZfpCompressionMode) (cfg : ZfpConfig R)
    (compressed : List B) (elemCount : Nat) :
    Call.Keeps (fun t : List R × Codec zfp => t.2.decompression.threads)
      (tryDecompress mode cfg compressed elemCount) := by
  unfold tryDecompress
  apply Call.Keeps.ite (Call.keeps_throw _)
  beta_reduce
  apply Call.Keeps.bind
  · exact Call.keeps_modify fun _ => rfl
  intro _
  apply Call.Keeps.bind
  · exact (threads_prepare mode cfg _).focus fun _ _ h => h
  intro prepared
  apply Call.Keeps.ite (Call.keeps_throw _)
  apply Call.Keeps.bind Call.keeps_get
  rintro ⟨out, codec⟩
  rcases zfp.decompress prepared.2 prepared.1 compressed out with ⟨size, out⟩
  apply Call.Keeps.bind
  · exact Call.keeps_modify fun _ => rfl
  intro _
  exact Call.keeps_pure _

section Recursion

variable {σ : Type} {threads : σ -> Int} {serially : σ -> σ} {attempt : Call σ Nat}
  {again again' : Call σ Unit} {done : Nat -> Call σ Unit}

theorem orSerially_congr (hserially : forall s, threads (serially s) ≤ 1)
    (h : forall s, threads s ≤ 1 -> again s = again' s) :
    orSerially threads serially attempt again done =
      orSerially threads serially attempt again' done := by
  funext s
  unfold orSerially
  rw [Call.bind_apply, Call.bind_apply]
  rcases attempt s with ⟨r, s'⟩
  cases r with
  | error e => rfl
  | ok size =>
      simp only
      rw [Call.bind_ok (Call.get_apply _), Call.bind_ok (Call.get_apply _)]
      by_cases hfallback : size = 0 ∧ threads s' > 1
      · rw [if_pos hfallback, if_pos hfallback]
        exact h (serially s') (hserially s')
      · rw [if_neg hfallback, if_neg hfallback]

theorem orSerially_serial (hattempt : Call.Keeps threads attempt) {s : σ} (h : threads s ≤ 1) :
    orSerially threads serially attempt again done s =
      orSerially threads serially attempt again' done s := by
  have hkeeps := hattempt s
  unfold orSerially
  rw [Call.bind_apply, Call.bind_apply]
  rcases hrun : attempt s with ⟨r, s'⟩
  rw [hrun] at hkeeps
  cases r with
  | error e => rfl
  | ok size =>
      have hserial : ¬ (size = 0 ∧ threads s' > 1) := by
        change threads s' = threads s at hkeeps
        omega
      simp only
      rw [Call.bind_ok (Call.get_apply _), Call.bind_ok (Call.get_apply _), if_neg hserial,
        if_neg hserial]

theorem compress_eq [Zero B] (mode : ZfpCompressionMode) (cfg : ZfpConfig R) :
    (compress mode cfg : List R -> Call (List B × Codec zfp) Unit) =
      compressWith mode cfg (compress mode cfg) := by
  funext data
  apply orSerially_congr
  · exact fun _ => Int.le_refl 1
  · exact fun s hserial => orSerially_serial (threads_tryCompress mode cfg data) hserial

theorem decompress_eq (mode : ZfpCompressionMode) (cfg : ZfpConfig R) :
    (decompress mode cfg : List B -> Nat -> Call (List R × Codec zfp) Unit) =
      decompressWith mode cfg (decompress mode cfg) := by
  funext compressed elemCount
  apply orSerially_congr
  · exact fun _ => Int.le_refl 1
  · exact fun s hserial =>
      orSerially_serial (threads_tryDecompress mode cfg compressed elemCount) hserial

end Recursion

end ZfpCodec

end Tmfqs
