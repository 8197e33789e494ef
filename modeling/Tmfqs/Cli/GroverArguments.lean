import Tmfqs.Storage.BloscCodec
import Tmfqs.Storage.StrategyRegistry
import Tmfqs.Storage.ZfpCodec

/-!
# The arguments of the Grover programs

`examples/grover_cli.h`: how the command line is read.  The arguments are the ones after the
name of the program.  A parser returns `none` where the source returns false; what it has set
until then is dropped by its caller.
-/

namespace Tmfqs

/-- The numbers `strtod` returns. -/
inductive Double (R : Type) where
  | finite (x : R)
  | infinite (negative : Bool)
  | nan

namespace Double

variable {R : Type} [Field R] [LinearOrder R]

def value : Double R -> Option R
  | .finite x => some x
  | _ => none

def notPositive : Double R -> Bool
  | .finite x => decide (x ≤ 0)
  | .infinite negative => negative
  | .nan => false

end Double

structure BloscTuningOverrides where
  chunkStates : Bool := false
  clevel : Bool := false
  nthreads : Bool := false
  gateCacheSlots : Bool := false

structure ZfpTuningOverrides where
  mode : Bool := false
  rate : Bool := false
  precision : Bool := false
  accuracy : Bool := false
  chunkStates : Bool := false
  nthreads : Bool := false
  gateCacheSlots : Bool := false

/-- The members of a `RegisterConfig` behind its strategy and its threshold. -/
structure CliSettings (R : Type) where
  codec : CodecSettings R
  zfpMode : ZfpCompressionMode := .fixedPrecision
  bloscOverrides : BloscTuningOverrides := {}
  zfpOverrides : ZfpTuningOverrides := {}

structure GroverCliOptions (R : Type) where
  qubitCount : Nat
  markedStates : List Nat
  verbose : Bool
  registerConfig : RegisterConfig (CliSettings R)

abbrev Parsed (α : Type) : Type :=
  Except Exc (Option α)

namespace GroverCli

/-!
## Numbers
-/

def isspace (c : Char) : Bool :=
  c == ' ' || c == '\t' || c == '\n' || c == '\x0b' || c == '\x0c' || c == '\r'

def sign : List Char -> Bool × List Char
  | [] => (false, [])
  | c :: rest =>
      if c = '-' then (true, rest) else if c = '+' then (false, rest) else (false, c :: rest)

/-- `strtoul` and `strtoull` in base ten: the number and the text after it. -/
def strtoul (text : List Char) : Option (Nat × List Char) :=
  let (negative, body) := sign (text.dropWhile isspace)
  let digits := body.takeWhile Char.isDigit
  let number := Nat.ofDigitChars 10 digits 0
  if digits = [] then
    none
  else
    some
      (if 2 ^ 64 ≤ number then 2 ^ 64 - 1 else if negative then u64 (2 ^ 64 - number) else number,
        body.dropWhile Char.isDigit)

def parseStateIndex (text : List Char) : Option Nat :=
  (strtoul text).bind fun p => if p.2 = [] then some p.1 else none

def parseUnsigned (text : List Char) : Option Nat :=
  (strtoul text).bind fun p => if p.2 = [] then some (u32 p.1) else none

/-- `static_cast<int>` of an `unsigned int`. -/
def int32 (value : Nat) : Int :=
  i32 value

def parseMarkedState (token : List Char) : Option Nat :=
  if token = [] then none else parseStateIndex token

/-- The loop over the characters, with the token and the states it has collected. -/
def parseMarkedStatesFrom (token : List Char) (markedStates : List Nat) :
    List Char -> Option (List Nat)
  | [] => (parseMarkedState token).map fun state => markedStates ++ [state]
  | ch :: text =>
      if ch = ',' then
        (parseMarkedState token).bind fun state =>
          parseMarkedStatesFrom [] (markedStates ++ [state]) text
      else
        parseMarkedStatesFrom (token ++ [ch]) markedStates text

def parseMarkedStatesCsv (text : List Char) : Option (List Nat) :=
  parseMarkedStatesFrom [] [] text

def parseStrategy (value : List Char) : Except Exc StorageStrategyKind :=
  if value = "dense".toList then .ok .dense
  else if value = "blosc".toList then .ok .blosc
  else if value = "zfp".toList then .ok .zfp
  else if value = "auto".toList then .ok .auto
  else .error (invalidArgument ("Unknown strategy: " ++ String.ofList value))

def parseZfpMode (value : List Char) : Except Exc ZfpCompressionMode :=
  if value = "rate".toList then .ok .fixedRate
  else if value = "precision".toList then .ok .fixedPrecision
  else if value = "accuracy".toList then .ok .fixedAccuracy
  else .error (invalidArgument ("Unknown zfp mode: " ++ String.ofList value))

/-!
## Options
-/

section Options

variable {R : Type} (options : GroverCliOptions R)

def setVerbose : GroverCliOptions R :=
  { options with verbose := true }

def setStrategy (kind : StorageStrategyKind) : GroverCliOptions R :=
  { options with registerConfig.strategy := kind }

def setChunkStates (value : Nat) : GroverCliOptions R :=
  { options with
    registerConfig.settings.codec.blosc.chunkStates := value
    registerConfig.settings.bloscOverrides.chunkStates := true }

def setCacheSlots (value : Nat) : GroverCliOptions R :=
  { options with
    registerConfig.settings.codec.blosc.gateCacheSlots := value
    registerConfig.settings.bloscOverrides.gateCacheSlots := true }

def setClevel (value : Nat) : GroverCliOptions R :=
  { options with
    registerConfig.settings.codec.blosc.clevel := int32 value
    registerConfig.settings.bloscOverrides.clevel := true }

def setNthreads (value : Nat) : GroverCliOptions R :=
  { options with
    registerConfig.settings.codec.blosc.nthreads := int32 value
    registerConfig.settings.bloscOverrides.nthreads := true
    registerConfig.settings.codec.zfp.nthreads := int32 value
    registerConfig.settings.zfpOverrides.nthreads := true }

def setThresholdMb (value : Nat) : GroverCliOptions R :=
  { options with registerConfig.autoThresholdBytes := u64 (value * 1024 * 1024) }

def setZfpMode (mode : ZfpCompressionMode) : GroverCliOptions R :=
  { options with
    registerConfig.settings.zfpMode := mode
    registerConfig.settings.zfpOverrides.mode := true }

def setZfpRate (value : Option R) : GroverCliOptions R :=
  { options with
    registerConfig.settings.codec.zfp.rate := value
    registerConfig.settings.zfpOverrides.rate := true }

def setZfpPrecision (value : Nat) : GroverCliOptions R :=
  { options with
    registerConfig.settings.codec.zfp.precision := value
    registerConfig.settings.zfpOverrides.precision := true }

def setZfpAccuracy (value : Option R) : GroverCliOptions R :=
  { options with
    registerConfig.settings.codec.zfp.accuracy := value
    registerConfig.settings.zfpOverrides.accuracy := true }

def setZfpChunkStates (value : Nat) : GroverCliOptions R :=
  { options with
    registerConfig.settings.codec.zfp.chunkStates := value
    registerConfig.settings.zfpOverrides.chunkStates := true }

def setZfpCacheSlots (value : Nat) : GroverCliOptions R :=
  { options with
    registerConfig.settings.codec.zfp.gateCacheSlots := value
    registerConfig.settings.zfpOverrides.gateCacheSlots := true }

end Options

-- `strtod text` is `none` unless the whole text is a number, as `parseDouble` checks.
variable {R : Type} [Field R] [LinearOrder R] (strtod : List Char -> Option (Double R))

abbrev Setter (R : Type) : Type :=
  List Char -> GroverCliOptions R -> Parsed (GroverCliOptions R)

def unsigned (set : GroverCliOptions R -> Nat -> GroverCliOptions R) : Setter R :=
  fun text options => .ok ((parseUnsigned text).map (set options))

def positive (set : GroverCliOptions R -> Nat -> GroverCliOptions R) : Setter R :=
  fun text options =>
    .ok ((parseUnsigned text).bind fun value =>
      if value = 0 then none else some (set options value))

/-- `parseDouble` with the comparison after it. -/
def positiveDouble (set : GroverCliOptions R -> Option R -> GroverCliOptions R) : Setter R :=
  fun text options =>
    .ok ((strtod text).bind fun value =>
      if value.notPositive then none else some (set options value.value))

def strategy : Setter R :=
  fun text options => (parseStrategy text).map fun kind => some (setStrategy options kind)

def zfpMode : Setter R :=
  fun text options => (parseZfpMode text).map fun mode => some (setZfpMode options mode)

def setter (arg : List Char) : Option (Setter R) :=
  if arg = "--strategy".toList then some strategy
  else if arg = "--chunk-states".toList then some (positive setChunkStates)
  else if arg = "--cache-slots".toList then some (positive setCacheSlots)
  else if arg = "--clevel".toList then some (unsigned setClevel)
  else if arg = "--nthreads".toList then some (positive setNthreads)
  else if arg = "--threshold-mb".toList then some (unsigned setThresholdMb)
  else if arg = "--zfp-mode".toList then some zfpMode
  else if arg = "--zfp-rate".toList then some (positiveDouble strtod setZfpRate)
  else if arg = "--zfp-precision".toList then some (positive setZfpPrecision)
  else if arg = "--zfp-accuracy".toList then some (positiveDouble strtod setZfpAccuracy)
  else if arg = "--zfp-chunk-states".toList then some (positive setZfpChunkStates)
  else if arg = "--zfp-cache-slots".toList then some (positive setZfpCacheSlots)
  else none

def parseOptions : List (List Char) -> GroverCliOptions R -> Parsed (GroverCliOptions R)
  | [], options => .ok (some options)
  | arg :: rest, options =>
      if arg = "--verbose".toList then
        parseOptions rest (setVerbose options)
      else
        match setter strtod arg, rest with
        | some set, value :: rest' =>
            match set value options with
            | .error e => .error e
            | .ok none => .ok none
            | .ok (some options') => parseOptions rest' options'
        | _, _ => .ok none

def maxSupportedQubitsForU32States : Nat :=
  maxSupportedQubitsForStateIndex

/-- The options before the loop: the members of a default `RegisterConfig`. -/
def initialOptions (qubitCount : Nat) (markedStates : List Nat) : GroverCliOptions R :=
  { qubitCount := qubitCount
    markedStates := markedStates
    verbose := false
    registerConfig :=
      { strategy := .dense
        autoThresholdBytes := 8 * 1024 * 1024
        settings := { codec := CodecSettings.default } } }

def parseGroverArgs : List (List Char) -> Parsed (GroverCliOptions R)
  | qubits :: states :: rest =>
      match parseUnsigned qubits with
      | none => .ok none
      | some qubitCount =>
          if qubitCount = 0 then
            .ok none
          else if qubitCount > maxSupportedQubitsForU32States then
            .ok none
          else
            match parseMarkedStatesCsv states with
            | none => .ok none
            | some markedStates =>
                if markedStates = [] then
                  .ok none
                else
                  parseOptions strtod rest (initialOptions qubitCount markedStates)
  | _ => .ok none

end GroverCli

end Tmfqs
