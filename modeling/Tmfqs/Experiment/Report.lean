import Tmfqs.Circuit.Circuit
import Tmfqs.Experiment.Comparison
import Tmfqs.Storage.StrategyRegistry

/-!
# Report files

The texts a report of a run and a comparison of two states are written as.  What a stream
prints for a floating-point number is a parameter.
-/

namespace Tmfqs

/-!
## Reports
-/

def operationName {R : Type} : Operation R -> List Char
  | .hadamard _ => "h".toList
  | .pauliX _ => "x".toList
  | .controlledNot _ _ => "cx".toList
  | .controlledPhaseShift _ _ _ => "controlled_phase".toList
  | .swap _ _ => "swap".toList
  | .matrixGate _ _ => "gate".toList
  | .phaseFlipBasisState _ => "phase_flip_basis_state".toList
  | .inversionAboutMean _ => "inversion_about_mean".toList

def StorageStrategyRegistry.toString : StorageStrategyKind -> List Char
  | .dense => "dense".toList
  | .blosc => "blosc".toList
  | .zfp => "zfp".toList
  | .auto => "auto".toList

structure OperationTrace (R : Type) where
  index : Nat
  name : List Char
  seconds : R

/-- `RunReport` with its timings. -/
structure TimedReport (R : Type) where
  qubits : Nat
  operationCount : Nat
  strategy : StorageStrategyKind
  executionSeconds : R
  operations : List (OperationTrace R)

/-- What a stream prints for an unsigned number. -/
def decimal (n : Nat) : List Char :=
  Nat.toDigits 10 n

theorem decimal_ne_nil (n : Nat) : decimal n ≠ [] :=
  Nat.toDigits_ne_nil

theorem isDigit_of_mem_decimal {n : Nat} {c : Char} (hc : c ∈ decimal n) : c.isDigit = true :=
  Nat.isDigit_of_mem_toDigits (by decide) (by decide) hc

theorem ofDigitChars_decimal (n : Nat) : Nat.ofDigitChars 10 (decimal n) 0 = n :=
  Nat.ofDigitChars_ten_toDigits

def jsonEscape (value : List Char) : List Char :=
  value.flatMap fun ch =>
    if ch = '\\' then ['\\', '\\']
    else if ch = '"' then ['\\', '"']
    else if ch = '\n' then ['\\', 'n']
    else if ch = '\r' then ['\\', 'r']
    else if ch = '\t' then ['\\', 't']
    else [ch]

namespace TimedReport

variable {R : Type}

/-- The traces `Simulator::run` pushes when it is told to. -/
def traces (operations : List (Operation R)) (seconds : Nat -> R) : List (OperationTrace R) :=
  operations.zipIdx.map fun p =>
    { index := p.2
      name := operationName p.1
      seconds := seconds p.2 }

/-!
## JSON
-/

variable (printed : R -> List Char)

def operationJson (i : Nat) (op : OperationTrace R) : List Char :=
  (if i = 0 then "\n".toList else ",\n".toList) ++ "    \x7b\"index\": ".toList ++
    decimal op.index ++ ", \"name\": \"".toList ++ jsonEscape op.name ++
    "\", \"seconds\": ".toList ++ printed op.seconds ++ "\x7d".toList

def toJson (report : TimedReport R) : List Char :=
  "\x7b\n".toList ++
    "  \"qubits\": ".toList ++ decimal report.qubits ++ ",\n".toList ++
    "  \"operation_count\": ".toList ++ decimal report.operationCount ++ ",\n".toList ++
    "  \"strategy\": \"".toList ++ StorageStrategyRegistry.toString report.strategy ++
    "\",\n".toList ++
    "  \"execution_seconds\": ".toList ++ printed report.executionSeconds ++ ",\n".toList ++
    "  \"operations\": [".toList ++
    (report.operations.zipIdx.flatMap fun p => operationJson printed p.2 p.1) ++
    (if report.operations.isEmpty then [] else "\n  ".toList) ++
    "]\n".toList ++
    "\x7d\n".toList

/-!
## CSV
-/

def csvHeader : List Char :=
  "qubits,strategy,total_operations,total_seconds,operation_index,operation_name,operation_seconds\n".toList

/-- The cells every row of a report begins with. -/
def csvStart (report : TimedReport R) : List Char :=
  decimal report.qubits ++ ",".toList ++ StorageStrategyRegistry.toString report.strategy ++
    ",".toList ++ decimal report.operationCount ++ ",".toList ++ printed report.executionSeconds

def toCsv (report : TimedReport R) : List Char :=
  csvHeader ++
    if report.operations.isEmpty then
      csvStart printed report ++ ",,,\n".toList
    else
      report.operations.flatMap fun op =>
        csvStart printed report ++ ",".toList ++ decimal op.index ++ ",".toList ++ op.name ++
          ",".toList ++ printed op.seconds ++ "\n".toList

end TimedReport

/-!
## Comparisons
-/

namespace StateComparison

variable {R : Type} (printed : R -> List Char)

def boolText (value : Bool) : List Char :=
  if value then "true".toList else "false".toList

def toCsvRow (circuit scenario : List Char) (qubits : Nat) (comparison : StateComparison R) :
    List Char :=
  circuit ++ ",".toList ++ scenario ++ ",".toList ++ decimal qubits ++ ",".toList ++
    boolText comparison.bitwiseEqual ++ ",".toList ++
    printed comparison.maxAbsAmplitudeError ++ ",".toList ++
    printed comparison.maxAbsComponentError ++ ",".toList ++
    printed comparison.relL2 ++ ",".toList ++
    printed comparison.rmseAmplitude ++ ",".toList ++
    printed comparison.maxAbsProbabilityError ++ ",".toList ++
    printed comparison.totalProbabilityDiff ++ ",".toList ++
    decimal comparison.worstState

def toJson (comparison : StateComparison R) : List Char :=
  "\x7b".toList ++
    "\"bitwiseEqual\":".toList ++ boolText comparison.bitwiseEqual ++ ",".toList ++
    "\"maxAbsAmplitudeError\":".toList ++ printed comparison.maxAbsAmplitudeError ++ ",".toList ++
    "\"maxAbsComponentError\":".toList ++ printed comparison.maxAbsComponentError ++ ",".toList ++
    "\"relL2\":".toList ++ printed comparison.relL2 ++ ",".toList ++
    "\"rmseAmplitude\":".toList ++ printed comparison.rmseAmplitude ++ ",".toList ++
    "\"maxAbsProbabilityError\":".toList ++ printed comparison.maxAbsProbabilityError ++
    ",".toList ++
    "\"totalProbabilityDiff\":".toList ++ printed comparison.totalProbabilityDiff ++ ",".toList ++
    "\"worstState\":".toList ++ decimal comparison.worstState ++
    "\x7d".toList

end StateComparison

end Tmfqs
