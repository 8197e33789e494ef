import Mathlib.Algebra.Order.Group.Unbundled.Abs
import Tmfqs.State.QuantumState

/-!
# Comparing two states

`experiment/comparison.cpp`: the error metrics of a candidate state against a reference,
collected in one loop over the basis states.
-/

namespace Tmfqs

open Library

structure StateComparison (R : Type) where
  bitwiseEqual : Bool
  maxAbsAmplitudeError : R
  maxAbsComponentError : R
  rmseAmplitude : R
  relL2 : R
  maxAbsProbabilityError : R
  totalProbabilityDiff : R
  worstState : Nat

/-- The metrics together with the sums of the loop. -/
structure ComparisonSums (R : Type) where
  metrics : StateComparison R
  diffNormSq : R
  refNormSq : R
  refTotalProbability : R
  gotTotalProbability : R

namespace StateComparison

variable {R : Type} [Field R] [LinearOrder R] [CMath R]

/-- What the loop starts from: `bitwiseEqual` is set before it. -/
def start : ComparisonSums R :=
  { metrics :=
      { bitwiseEqual := true
        maxAbsAmplitudeError := 0
        maxAbsComponentError := 0
        rmseAmplitude := 0
        relL2 := 0
        maxAbsProbabilityError := 0
        totalProbabilityDiff := 0
        worstState := 0 }
    diffNormSq := 0
    refNormSq := 0
    refTotalProbability := 0
    gotTotalProbability := 0 }

/-- `stateDiffSq`. -/
def diffSq (ref got : Amplitude R) : R :=
  (got.real - ref.real) * (got.real - ref.real) + (got.imag - ref.imag) * (got.imag - ref.imag)

/-- `stateAbsError`. -/
def absError (ref got : Amplitude R) : R :=
  CMath.sqrt (diffSq ref got)

def componentError (ref got : Amplitude R) : R :=
  max |got.real - ref.real| |got.imag - ref.imag|

def probabilityError (ref got : Amplitude R) : R :=
  |got.probability - ref.probability|

def compareAmplitudes (acc : ComparisonSums R) (state : Nat) (ref got : Amplitude R) :
    ComparisonSums R :=
  { metrics :=
      { acc.metrics with
        bitwiseEqual :=
          if ref.real ≠ got.real ∨ ref.imag ≠ got.imag then false else acc.metrics.bitwiseEqual
        maxAbsAmplitudeError :=
          if absError ref got > acc.metrics.maxAbsAmplitudeError then absError ref got
          else acc.metrics.maxAbsAmplitudeError
        worstState :=
          if absError ref got > acc.metrics.maxAbsAmplitudeError then state
          else acc.metrics.worstState
        maxAbsComponentError :=
          max acc.metrics.maxAbsComponentError (componentError ref got)
        maxAbsProbabilityError :=
          max acc.metrics.maxAbsProbabilityError (probabilityError ref got) }
    diffNormSq := acc.diffNormSq + diffSq ref got
    refNormSq := acc.refNormSq + (ref.real * ref.real + ref.imag * ref.imag)
    refTotalProbability := acc.refTotalProbability + ref.probability
    gotTotalProbability := acc.gotTotalProbability + got.probability }

/-- The three metrics computed after the loop. -/
def finish (stateCount : Nat) (acc : ComparisonSums R) : StateComparison R :=
  { acc.metrics with
    rmseAmplitude := CMath.sqrt (acc.diffNormSq / (stateCount : R))
    relL2 := if acc.refNormSq = 0 then 0 else CMath.sqrt (acc.diffNormSq / acc.refNormSq)
    totalProbabilityDiff := |acc.gotTotalProbability - acc.refTotalProbability| }

variable {β γ : Type} [IStateBackend R β] [IStateBackend R γ]

/-- Both amplitudes of one state, and what they add to the metrics. -/
def compareState (denseRef : β) (denseGot : γ) (acc : ComparisonSums R) (state : Nat) :
    Call (QuantumState R β × QuantumState R γ) (ComparisonSums R) := do
  let ref <- Call.onObject (QuantumState.amplitude denseRef state)
  let got <- Call.focus Prod.snd (fun t q => (t.1, q)) (QuantumState.amplitude denseGot state)
  pure (compareAmplitudes acc state ref got)

def compareStates (denseRef : β) (denseGot : γ) :
    Call (QuantumState R β × QuantumState R γ) (StateComparison R) := do
  let (reference, candidate) <- get
  let stateCount <- checkedStateCount reference.qubits
  let candidateCount <- checkedStateCount candidate.qubits
  if stateCount ≠ candidateCount then
    throw (invalidArgument "Compared states must have the same state count")
  let acc <- (List.range stateCount).foldlM (compareState denseRef denseGot) start
  pure (finish stateCount acc)

end StateComparison

end Tmfqs
