import Tmfqs.Library.Frame
import Tmfqs.Storage.IStateBackend

/-!
# The choice of a backend

`storage/factory/storage_strategy_registry.cpp`: a configuration is resolved to a
strategy and a backend is created for it.  The members a register keeps of its
selection change only together with its backend, so that a selected backend carries
them here.
-/

namespace Tmfqs

open Library

inductive StorageStrategyKind where
  | dense
  | blosc
  | zfp
  | auto
deriving DecidableEq, Repr

/-- `settings` are the members that only the backends read. -/
structure RegisterConfig (T : Type) where
  strategy : StorageStrategyKind
  autoThresholdBytes : Nat
  settings : T

/-- The backends of a build: compiled in or not, and how they are created. -/
structure BackendBuild (T β : Type) where
  isBloscStateBackendAvailable : Bool
  isZfpStateBackendAvailable : Bool
  createDenseStateBackend : RegisterConfig T -> β
  createBloscStateBackend : RegisterConfig T -> Option β
  createZfpStateBackend : RegisterConfig T -> Option β

structure BackendSelection (T β : Type) where
  strategy : StorageStrategyKind
  config : RegisterConfig T
  backend : β

namespace StorageStrategyRegistry

variable {T β σ : Type}

def sizeofDouble : Nat :=
  8

def resolve (build : BackendBuild T β) (numQubits : Nat) (cfg : RegisterConfig T) :
    Call σ StorageStrategyKind :=
  if cfg.strategy ≠ .auto then
    pure cfg.strategy
  else do
    let count <- checkedAmplitudeElementCount numQubits
    let estimatedBytes := u64 (count * sizeofDouble)
    if estimatedBytes < cfg.autoThresholdBytes then
      pure .dense
    else if build.isBloscStateBackendAvailable then
      pure .blosc
    else if build.isZfpStateBackendAvailable then
      pure .zfp
    else
      pure .dense

def tuneConfig (_numQubits : Nat) (cfg : RegisterConfig T)
    (_resolvedKind : StorageStrategyKind) : RegisterConfig T :=
  cfg

/-- The backend of an optional creation, which is empty when the build lacks it. -/
def requireBackend (name : String) : Option β -> Call σ β
  | some backend => pure backend
  | none => throw (runtimeError (name ++ " backend requested but unavailable in this build"))

def createBackend (build : BackendBuild T β) (config : RegisterConfig T) :
    StorageStrategyKind -> Call σ β
  | .dense => pure (build.createDenseStateBackend config)
  | .blosc => requireBackend "Blosc" (build.createBloscStateBackend config)
  | .zfp => requireBackend "Zfp" (build.createZfpStateBackend config)
  | .auto =>
      throw (runtimeError "StorageStrategyRegistry internal error: unresolved auto strategy")

def createSelection (build : BackendBuild T β) (numQubits : Nat) (cfg : RegisterConfig T) :
    Call σ (BackendSelection T β) := do
  let strategy <- resolve build numQubits cfg
  let config := { tuneConfig numQubits cfg strategy with strategy := strategy }
  let backend <- createBackend build config strategy
  pure
    { strategy := strategy
      config := config
      backend := backend }

theorem post_createSelection (build : BackendBuild T β) (numQubits : Nat)
    (cfg : RegisterConfig T) (s : σ) :
    Call.Post (createSelection build numQubits cfg) s
      (fun selection _ => (resolve build numQubits cfg s).1 = .ok selection.strategy)
      (fun _ _ => True) := by
  rw [createSelection, Call.post_bind_iff]
  cases hresolve : resolve build numQubits cfg s with
  | mk r s' =>
      cases r with
      | error e =>
          exact Call.post_of_error hresolve trivial
      | ok strategy =>
          refine Call.post_of_ok hresolve ?_
          rw [Call.post_bind_iff, Call.Post]
          cases createBackend build
              { tuneConfig numQubits cfg strategy with strategy := strategy } strategy s' with
          | mk r' s'' =>
              cases r' with
              | error e => exact trivial
              | ok backend => rfl

end StorageStrategyRegistry

namespace BackendSelection

variable {R T β : Type} [IStateBackend R β]

def onSelected {α : Type} (x : Call β α) : Call (BackendSelection T β) α :=
  Call.focus backend (fun selection b => { selection with backend := b }) x

instance : IStateBackend R (BackendSelection T β) where
  clone selection := { selection with backend := IStateBackend.clone selection.backend }
  initZero numQubits := onSelected (IStateBackend.initZero numQubits)
  initBasis numQubits state amp := onSelected (IStateBackend.initBasis numQubits state amp)
  initUniformSuperposition numQubits states :=
    onSelected (IStateBackend.initUniformSuperposition numQubits states)
  loadAmplitudes numQubits data := onSelected (IStateBackend.loadAmplitudes numQubits data)
  exportAmplitudes := onSelected IStateBackend.exportAmplitudes
  forEachAmplitudeChunk := onSelected IStateBackend.forEachAmplitudeChunk
  amplitude state := onSelected (IStateBackend.amplitude state)
  setAmplitude state amp := onSelected (IStateBackend.setAmplitude state amp)
  probability state := onSelected (IStateBackend.probability state)
  totalProbability := onSelected IStateBackend.totalProbability
  sampleMeasurement rnd := onSelected (IStateBackend.sampleMeasurement rnd)
  printNonZeroStates epsilon := onSelected (IStateBackend.printNonZeroStates epsilon)
  phaseFlipBasisState state := onSelected (IStateBackend.phaseFlipBasisState state)
  inversionAboutMean := onSelected IStateBackend.inversionAboutMean
  inversionAboutMeanWith mean := onSelected (IStateBackend.inversionAboutMeanWith mean)
  applyAffineTransform scale bias :=
    onSelected (IStateBackend.applyAffineTransform scale bias)
  applyHadamard qubit := onSelected (IStateBackend.applyHadamard qubit)
  applyPauliX qubit := onSelected (IStateBackend.applyPauliX qubit)
  applyControlledPhaseShift control target theta :=
    onSelected (IStateBackend.applyControlledPhaseShift control target theta)
  applyControlledNot control target :=
    onSelected (IStateBackend.applyControlledNot control target)
  applyGate gate qubits := onSelected (IStateBackend.applyGate gate qubits)
  beginOperationBatch := onSelected IStateBackend.beginOperationBatch
  endOperationBatch := onSelected IStateBackend.endOperationBatch

end BackendSelection

end Tmfqs
