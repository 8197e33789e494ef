import Tmfqs.Sim.Simulator
import Tmfqs.Storage.DenseStateBackend
import Tmfqs.Storage.StrategyRegistry

/-!
# Configured runs

A run under a configuration: the register is made by `QuantumState::materialize`, and the
report names the strategy the configuration is resolved to.  Timings and the operation
trace are left out.
-/

namespace Tmfqs

open Library

variable {R T β : Type} [Field R] [LinearOrder R] [IStateBackend R β]

namespace QuantumRegister

/-- `storageStrategy()`: the resolved strategy a register keeps with its backend. -/
def storageStrategy (r : QuantumRegister R (BackendSelection T β)) : StorageStrategyKind :=
  r.backend.strategy

end QuantumRegister

/-- The value or the exception of a call on no object. -/
def evaluate {α : Type} (x : Call Unit α) : Except Exc α :=
  (x ()).1

namespace QuantumState

/-- `materialize`, with the selection made by the constructor of the register. -/
def materializeWith (build : BackendBuild T β) (config : RegisterConfig T)
    (q : QuantumState R (BackendSelection T β)) :
    Except Exc (QuantumRegister R (BackendSelection T β)) :=
  match q.kind with
  | .register reg => .ok reg.copy
  | _ =>
      match evaluate (do
        let _stateCount <- checkedStateCount q.qubits
        StorageStrategyRegistry.createSelection build q.qubits config) with
      | .ok selection => q.materialize selection
      | .error e => .error e

end QuantumState

namespace Simulator

structure RunReport where
  qubits : Nat
  operationCount : Nat
  strategy : StorageStrategyKind
deriving DecidableEq, Repr

structure RunResult (R β : Type) where
  state : QuantumState R β
  report : RunReport

/-- `Simulator::run` under the configuration of its backend. -/
def runConfigured (build : BackendBuild T β) (config : RegisterConfig T) (circuit : Circuit R)
    (initialState : QuantumState R (BackendSelection T β)) :
    Except Exc (RunResult R (BackendSelection T β)) :=
  if circuit.qubits ≠ initialState.qubits then
    .error (invalidArgument "Circuit and initial state qubit counts differ")
  else
    match initialState.materializeWith build config with
    | .error e => .error e
    | .ok reg =>
        match evaluate (StorageStrategyRegistry.resolve build circuit.qubits config) with
        | .error e => .error e
        | .ok strategy =>
            match runBatch circuit.operations reg with
            | (.error e, _) => .error e
            | (.ok _, reg') =>
                .ok
                  { state := QuantumState.fromRegister reg'
                    report :=
                      { qubits := circuit.qubits
                        operationCount := circuit.operations.length
                        strategy := strategy } }

end Simulator

/-!
## Operations keep the strategy
-/

namespace QuantumRegister

section Frame

abbrev KeepsStrategy {α : Type} (x : Call (QuantumRegister R (BackendSelection T β)) α) : Prop :=
  Call.Keeps storageStrategy x

section

omit [LinearOrder R]

omit [Field R] [IStateBackend R β] in
theorem keeps_onBackend {α : Type} (x : Call β α) :
    KeepsStrategy (onBackend (R := R) (BackendSelection.onSelected (T := T) x)) :=
  fun _ => rfl

theorem keeps_flushAffineOverlay :
    KeepsStrategy (flushAffineOverlay : Call (QuantumRegister R (BackendSelection T β)) Unit) := by
  apply Call.keeps_get.bind
  intro r
  apply Call.Keeps.ite
  · apply (keeps_onBackend _).bind
    intro _
    apply Call.Keeps.bind
    · exact Call.keeps_modify fun _ => rfl
    · intro _
      exact Call.keeps_modify fun _ => rfl
  · exact Call.keeps_pure _

theorem keeps_applyFlushed (gate : Call β Unit) :
    KeepsStrategy (applyFlushed (R := R) (BackendSelection.onSelected (T := T) gate)) :=
  keeps_flushAffineOverlay.bind fun _ =>
    (keeps_onBackend gate).bind fun _ => Call.keeps_modify fun _ => rfl

theorem keeps_visitLogicalAmplitudeChunks :
    KeepsStrategy (visitLogicalAmplitudeChunks :
      Call (QuantumRegister R (BackendSelection T β)) (List (Nat × List R))) := by
  apply Call.keeps_get.bind
  intro r
  apply (keeps_onBackend _).bind
  intro visits
  exact Call.Keeps.ite (Call.keeps_pure _) (Call.keeps_pure _)

theorem keeps_logicalMean :
    KeepsStrategy (logicalMean :
      Call (QuantumRegister R (BackendSelection T β)) (Amplitude R)) := by
  have hsum : KeepsStrategy (logicalAmplitudeSum :
      Call (QuantumRegister R (BackendSelection T β)) (Amplitude R)) := by
    apply Call.keeps_get.bind
    intro r
    cases r.cachedLogicalAmplitudeSum with
    | some sum => exact Call.keeps_pure _
    | none =>
        apply keeps_visitLogicalAmplitudeChunks.bind
        intro visits
        apply Call.Keeps.bind
        · exact Call.keeps_modify fun _ => rfl
        · intro _
          exact Call.keeps_pure _
  exact hsum.bind fun _ => Call.keeps_get.bind fun _ => Call.keeps_pure _

theorem keeps_applyInversionAboutMean :
    KeepsStrategy (applyInversionAboutMean :
      Call (QuantumRegister R (BackendSelection T β)) Unit) := by
  apply keeps_logicalMean.bind
  intro mean
  apply Call.Keeps.bind
  · exact Call.keeps_modify fun _ => rfl
  · intro _
    exact Call.keeps_modify fun _ => rfl

theorem keeps_applyInversionAboutMeanMaterialized :
    KeepsStrategy (applyInversionAboutMeanMaterialized :
      Call (QuantumRegister R (BackendSelection T β)) Unit) := by
  apply keeps_logicalMean.bind
  intro mean
  apply Call.Keeps.bind
  · exact Call.keeps_modify fun _ => rfl
  · intro _
    exact keeps_flushAffineOverlay.bind fun _ => keeps_onBackend _

end

theorem keeps_applyPhaseFlipBasisState (state : Nat) :
    KeepsStrategy (applyPhaseFlipBasisState state :
      Call (QuantumRegister R (BackendSelection T β)) Unit) := by
  have hremove : forall amp : Amplitude R, KeepsStrategy (removeAffineOverlay amp :
      Call (QuantumRegister R (BackendSelection T β)) (Amplitude R)) := by
    intro amp
    apply Call.keeps_get.bind
    intro r
    apply Call.Keeps.ite
    · exact Call.Keeps.ite (Call.keeps_throw _) (Call.keeps_pure _)
    · exact Call.keeps_pure _
  have hamplitude : KeepsStrategy (amplitude state :
      Call (QuantumRegister R (BackendSelection T β)) (Amplitude R)) := by
    apply Call.keeps_get.bind
    intro r
    apply (keeps_validateStateIndex _ _ _).bind
    intro _
    exact (keeps_onBackend _).bind fun _ => Call.keeps_pure _
  apply Call.keeps_get.bind
  intro r
  apply (keeps_validateStateIndex _ _ _).bind
  intro _
  apply Call.Keeps.ite
  · apply hamplitude.bind
    intro logical
    apply Call.Keeps.bind
    · exact Call.keeps_modify fun _ => rfl
    · intro _
      apply Call.Keeps.ite
      · exact (hremove _).bind fun _ => keeps_onBackend _
      · exact keeps_onBackend _
  · exact keeps_onBackend _

omit [Field R] [LinearOrder R] [IStateBackend R β] in
theorem keeps_validateTwoQubits (scopeName : String) (q0 q1 : Nat) :
    KeepsStrategy (validateTwoQubits scopeName q0 q1 :
      Call (QuantumRegister R (BackendSelection T β)) Unit) := by
  apply Call.keeps_get.bind
  intro r
  exact (keeps_validateQubitIndex _ _ _).bind fun _ =>
    (keeps_validateQubitIndex _ _ _).bind fun _ => keeps_validateDistinctQubits _ _ _

omit [LinearOrder R] in
theorem keeps_applyControlledNot (control target : Nat) :
    KeepsStrategy (applyControlledNot control target :
      Call (QuantumRegister R (BackendSelection T β)) Unit) :=
  (keeps_validateTwoQubits _ _ _).bind fun _ => keeps_applyFlushed _

theorem keeps_executeOperation (operation : Operation R) :
    KeepsStrategy (Simulator.executeOperation operation :
      Call (QuantumRegister R (BackendSelection T β)) Unit) := by
  cases operation with
  | hadamard target =>
      exact Call.keeps_get.bind fun _ => (keeps_validateQubitIndex _ _ _).bind fun _ =>
        keeps_applyFlushed _
  | pauliX target =>
      exact Call.keeps_get.bind fun _ => (keeps_validateQubitIndex _ _ _).bind fun _ =>
        keeps_applyFlushed _
  | controlledNot control target => exact keeps_applyControlledNot control target
  | controlledPhaseShift control target theta =>
      exact (keeps_validateTwoQubits _ _ _).bind fun _ => keeps_applyFlushed _
  | swap first second =>
      exact (keeps_validateTwoQubits _ _ _).bind fun _ =>
        (keeps_applyControlledNot _ _).bind fun _ =>
          (keeps_applyControlledNot _ _).bind fun _ => keeps_applyControlledNot _ _
  | matrixGate gate targets =>
      exact Call.keeps_get.bind fun _ => (keeps_validateGateTargets _ _ _ _).bind fun _ =>
        keeps_applyFlushed _
  | phaseFlipBasisState state => exact keeps_applyPhaseFlipBasisState state
  | inversionAboutMean materialized =>
      cases materialized with
      | true => exact keeps_applyInversionAboutMeanMaterialized
      | false => exact keeps_applyInversionAboutMean

theorem keeps_runBatch (operations : List (Operation R)) :
    KeepsStrategy (Simulator.runBatch operations :
      Call (QuantumRegister R (BackendSelection T β)) Unit) := by
  apply (keeps_onBackend _).bind
  intro _ reg
  have hblock : KeepsStrategy (Simulator.runOperations operations :
      Call (QuantumRegister R (BackendSelection T β)) Unit) :=
    (Call.Keeps.forM operations keeps_executeOperation).bind fun _ => keeps_onBackend _
  have hkeep := hblock reg
  rw [Simulator.closingBatch]
  rcases hrun : Simulator.runOperations operations reg with ⟨r, reg'⟩
  rw [hrun] at hkeep
  cases r with
  | ok _ => exact hkeep
  | error e => exact (keeps_onBackend _ reg').trans hkeep

abbrev Selects (selection : BackendSelection T β)
    (x : Call (QuantumRegister R (BackendSelection T β)) Unit) : Prop :=
  forall r, Call.Post x r (fun _ r' => r'.storageStrategy = selection.strategy) (fun _ _ => True)

omit [Field R] [LinearOrder R] [IStateBackend R β] in
theorem Selects.bind {selection : BackendSelection T β}
    {x y : Call (QuantumRegister R (BackendSelection T β)) Unit} (hx : Selects selection x)
    (hy : KeepsStrategy y) : Selects selection (x >>= fun _ => y) := by
  intro r
  apply (hx r).bind
  intro _ r' hr'
  exact (hy.post hr').imp (fun _ _ h => h) (fun _ _ _ => trivial)

omit [Field R] [LinearOrder R] [IStateBackend R β] in
theorem selects_initializeBackend (selection : BackendSelection T β) (qubits : Nat) :
    Selects selection
      (initializeBackend selection qubits : Call (QuantumRegister R (BackendSelection T β)) Unit) := by
  intro r
  have hread : Call.Keeps id
      (checkedStateCount qubits : Call (QuantumRegister R (BackendSelection T β)) Nat) :=
    keeps_checkedStateCount qubits
  rw [initializeBackend, Call.post_bind_iff, Call.post_modify, Call.post_bind_iff]
  refine (hread.post rfl).imp ?_ (fun _ _ _ => trivial)
  intro count r' _
  exact rfl

omit [Field R] [LinearOrder R] in
theorem selects_initBasis (selection : BackendSelection T β) (qubits initState : Nat)
    (amp : Amplitude R) : Selects selection (initBasis selection qubits initState amp) :=
  (selects_initializeBackend selection qubits).bind (keeps_onBackend _)

omit [Field R] [LinearOrder R] in
theorem selects_initAmplitudes (selection : BackendSelection T β) (qubits : Nat)
    (data : List R) : Selects selection (initAmplitudes selection qubits data) :=
  (selects_initializeBackend selection qubits).bind (keeps_onBackend _)

omit [LinearOrder R] in
theorem keeps_initUniformSuperposition (states : List Nat) :
    KeepsStrategy (initUniformSuperposition states :
      Call (QuantumRegister R (BackendSelection T β)) Unit) := by
  have hchecked : forall r : QuantumRegister R (BackendSelection T β), KeepsStrategy (do
      states.forM fun state =>
        validateStateIndex "QuantumRegister::initUniformSuperposition" state r.numStates
      resetAffineOverlay
      onBackend (IStateBackend.initUniformSuperposition r.numQubits states) :
        Call (QuantumRegister R (BackendSelection T β)) Unit) := by
    intro r
    apply (Call.Keeps.forM states fun _ => keeps_validateStateIndex _ _ _).bind
    intro _
    apply Call.Keeps.bind
    · exact Call.keeps_modify fun _ => rfl
    · intro _
      exact keeps_onBackend _
  apply Call.keeps_get.bind
  intro r
  apply Call.Keeps.ite
  · exact (Call.keeps_throw _).bind fun _ => hchecked r
  · exact hchecked r

omit [LinearOrder R] [IStateBackend R β] in
theorem storageStrategy_construct {selection : BackendSelection T β}
    {init_ : Call (QuantumRegister R (BackendSelection T β)) Unit}
    (hinit : Selects selection init_) {reg : QuantumRegister R (BackendSelection T β)}
    (h : construct selection init_ = .ok reg) : reg.storageStrategy = selection.strategy := by
  have hpost := hinit (uninitialized selection)
  rw [construct] at h
  rw [Call.Post] at hpost
  rcases hrun : init_ (uninitialized selection) with ⟨r, reg'⟩
  rw [hrun] at h hpost
  cases r with
  | error e => cases h
  | ok _ =>
      cases h
      exact hpost

end Frame

end QuantumRegister

/-!
## Reported strategies
-/

namespace QuantumState

variable {build : BackendBuild T β} {config : RegisterConfig T}
  {q : QuantumState R (BackendSelection T β)} {reg : QuantumRegister R (BackendSelection T β)}

omit [LinearOrder R] in
theorem storageStrategy_materialize {selection : BackendSelection T β}
    (hkind : forall r, q.kind ≠ .register r) (h : q.materialize selection = .ok reg) :
    reg.storageStrategy = selection.strategy := by
  unfold materialize at h
  cases hq : q.kind with
  | basis state =>
      rw [hq] at h
      exact QuantumRegister.storageStrategy_construct
        (QuantumRegister.selects_initBasis _ _ _ _) h
  | basisAmplitude state amp =>
      rw [hq] at h
      exact QuantumRegister.storageStrategy_construct
        (QuantumRegister.selects_initBasis _ _ _ _) h
  | uniformSubset states =>
      rw [hq] at h
      exact QuantumRegister.storageStrategy_construct
        ((QuantumRegister.selects_initBasis _ _ _ _).bind
          (QuantumRegister.keeps_initUniformSuperposition states)) h
  | amplitudes data =>
      rw [hq] at h
      exact QuantumRegister.storageStrategy_construct
        (QuantumRegister.selects_initAmplitudes _ _ _) h
  | register r => exact (hkind r hq).elim

omit [LinearOrder R] in
theorem resolve_materializeWith (hkind : forall r, q.kind ≠ .register r)
    (h : q.materializeWith build config = .ok reg) :
    evaluate (StorageStrategyRegistry.resolve build q.qubits config) =
      .ok reg.storageStrategy := by
  have hselect : Call.Post (do
      let _stateCount <- checkedStateCount q.qubits
      StorageStrategyRegistry.createSelection build q.qubits config :
        Call Unit (BackendSelection T β)) ()
      (fun selection _ => evaluate (StorageStrategyRegistry.resolve build q.qubits config) =
        .ok selection.strategy) (fun _ _ => True) := by
    have hread : Call.Keeps id (checkedStateCount q.qubits : Call Unit Nat) :=
      keeps_checkedStateCount q.qubits
    rw [Call.post_bind_iff]
    refine (hread.post rfl).imp ?_ (fun _ _ _ => trivial)
    intro _ _ _
    exact StorageStrategyRegistry.post_createSelection build q.qubits config ()
  have hmake : q.materializeWith build config =
      match evaluate (do
        let _stateCount <- checkedStateCount q.qubits
        StorageStrategyRegistry.createSelection build q.qubits config) with
      | .ok selection => q.materialize selection
      | .error e => .error e := by
    rw [materializeWith]
    cases hq : q.kind with
    | register r => exact (hkind r hq).elim
    | _ => rfl
  rw [hmake] at h
  rw [Call.Post] at hselect
  unfold evaluate at h hselect ⊢
  rcases hrun : (do
      let _stateCount <- checkedStateCount q.qubits
      StorageStrategyRegistry.createSelection build q.qubits config :
        Call Unit (BackendSelection T β)) () with ⟨r, s⟩
  rw [hrun] at h hselect
  cases r with
  | error e => cases h
  | ok selection =>
      rw [storageStrategy_materialize hkind h]
      exact hselect

end QuantumState

namespace Simulator

/--
A run reports the strategy of the register that did it and that the configuration
resolves to, exactly when no register of another strategy came with the initial state.
-/
theorem report_truthful_iff {build : BackendBuild T β} {config : RegisterConfig T}
    {circuit : Circuit R} {initialState : QuantumState R (BackendSelection T β)}
    {result : RunResult R (BackendSelection T β)}
    (h : runConfigured build config circuit initialState = .ok result) :
    (exists reg, result.state.kind = .register reg ∧
        result.report.strategy = reg.storageStrategy ∧
        evaluate (StorageStrategyRegistry.resolve build circuit.qubits config) =
          .ok reg.storageStrategy) <->
      forall reg, initialState.kind = .register reg ->
        evaluate (StorageStrategyRegistry.resolve build circuit.qubits config) =
          .ok reg.storageStrategy := by
  rw [runConfigured] at h
  split at h
  case isTrue hne => cases h
  case isFalse hsame =>
    have hqubits : circuit.qubits = initialState.qubits := not_not.mp hsame
    cases hmake : initialState.materializeWith build config with
    | error e =>
        rw [hmake] at h
        cases h
    | ok reg =>
        cases hresolve :
            evaluate (StorageStrategyRegistry.resolve build circuit.qubits config) with
        | error e =>
            simp only [hmake, hresolve] at h
            cases h
        | ok strategy =>
            have hkeep := QuantumRegister.keeps_runBatch circuit.operations reg
            rcases hrun : runBatch circuit.operations reg with ⟨r, reg'⟩
            rw [hrun] at hkeep
            simp only [hmake, hresolve, hrun] at h
            cases r with
            | error e => cases h
            | ok _ =>
                cases h
                constructor
                · intro hleft reg0 hkind
                  rcases hleft with ⟨_, hresult, _, hstrategy⟩
                  cases hresult
                  have hreg : reg = reg0.copy := by
                    rw [QuantumState.materializeWith, hkind] at hmake
                    exact (Except.ok.inj hmake).symm
                  rw [hstrategy, hkeep, hreg]
                  rfl
                · intro hright
                  refine ⟨reg', rfl, ?_⟩
                  have hstrategy : strategy = reg.storageStrategy := by
                    by_cases hkind : exists reg0, initialState.kind = .register reg0
                    · rcases hkind with ⟨reg0, hreg0⟩
                      rw [QuantumState.materializeWith, hreg0] at hmake
                      cases hmake
                      exact Except.ok.inj (hright reg0 hreg0)
                    · have hmade := QuantumState.resolve_materializeWith
                        (fun r hr => hkind ⟨r, hr⟩) hmake
                      rw [← hqubits, hresolve] at hmade
                      exact Except.ok.inj hmade
                  rw [hkeep, hstrategy]
                  exact And.intro rfl rfl

def denseOnlyBuild {R : Type} [Field R] [LinearOrder R] [CMath R] :
    BackendBuild Unit (DenseStateBackend R) :=
  { isBloscStateBackendAvailable := false
    isZfpStateBackendAvailable := false
    createDenseStateBackend := fun _ => DenseStateBackend.make
    createBloscStateBackend := fun _ => none
    createZfpStateBackend := fun _ => none }

/-- The result of a dense run, run again under a configuration that resolves to dense. -/
theorem report_truthful_iff_register :
    exists first second : RunResult Real (BackendSelection Unit (DenseStateBackend Real)),
      runConfigured denseOnlyBuild
          { strategy := .dense, autoThresholdBytes := 1024, settings := () }
          { qubits := 1, operations := [.hadamard 0] } { qubits := 1, kind := .basis 1 } =
        .ok first ∧
      (exists reg, first.state.kind = .register reg) ∧
      runConfigured denseOnlyBuild
          { strategy := .auto, autoThresholdBytes := 1024, settings := () }
          { qubits := 1, operations := [.hadamard 0] } first.state = .ok second ∧
      exists reg, second.state.kind = .register reg ∧
        second.report.strategy = reg.storageStrategy ∧
        evaluate (StorageStrategyRegistry.resolve
          (denseOnlyBuild : BackendBuild Unit (DenseStateBackend Real)) 1
          { strategy := .auto, autoThresholdBytes := 1024, settings := () }) =
          .ok reg.storageStrategy := by
  have hruns : exists first second : RunResult Real (BackendSelection Unit (DenseStateBackend Real)),
      runConfigured denseOnlyBuild
          { strategy := .dense, autoThresholdBytes := 1024, settings := () }
          { qubits := 1, operations := [.hadamard 0] } { qubits := 1, kind := .basis 1 } =
        .ok first ∧
      (exists reg, first.state.kind = .register reg ∧ reg.storageStrategy = .dense) ∧
      runConfigured denseOnlyBuild
          { strategy := .auto, autoThresholdBytes := 1024, settings := () }
          { qubits := 1, operations := [.hadamard 0] } first.state = .ok second :=
    ⟨_, _, rfl, ⟨_, rfl, rfl⟩, rfl⟩
  rcases hruns with ⟨first, second, hfirst, ⟨reg, hkind, hdense⟩, hsecond⟩
  refine ⟨first, second, hfirst, ⟨reg, hkind⟩, hsecond, (report_truthful_iff hsecond).mpr ?_⟩
  intro reg' hkind'
  rw [hkind] at hkind'
  cases hkind'
  rw [hdense]
  rfl

/--
The result of a dense run, run again under a configuration that asks for Blosc: the
report says Blosc, the register is still dense, and the build has no Blosc at all.
-/
theorem report_names_other_strategy :
    exists first second : RunResult Real (BackendSelection Unit (DenseStateBackend Real)),
      runConfigured denseOnlyBuild
          { strategy := .dense, autoThresholdBytes := 1024, settings := () }
          { qubits := 1, operations := [] } { qubits := 1, kind := .basis 1 } = .ok first ∧
      runConfigured denseOnlyBuild
          { strategy := .blosc, autoThresholdBytes := 1024, settings := () }
          { qubits := 1, operations := [] } first.state = .ok second ∧
      second.report.strategy = .blosc ∧
      exists reg, second.state.kind = .register reg ∧ reg.storageStrategy = .dense :=
  ⟨_, _, rfl, rfl, rfl, _, rfl, rfl⟩

end Simulator

end Tmfqs
