import Tmfqs.Library.Interrupted
import Tmfqs.Register.RegisterRuns

/-!
# Registers on two backends

Two registers that differ in their backends only, of which the second backend returns what
the first returns.  Whatever a register function returns on the first register it returns on
the second.
-/

namespace Tmfqs

open Library

variable {R β γ : Type} [Field R] [LinearOrder R] [IStateBackend R β] [IStateBackend R γ]

/-- Linked backends stay linked under every call of a register that returns from the first. -/
structure Mirrors (link : β -> γ -> Prop) : Prop where
  initBasis : forall n s amp, Call.Followed link
    (IStateBackend.initBasis n s amp) (IStateBackend.initBasis n s amp)
  initUniformSuperposition : forall n states, Call.Followed link
    (IStateBackend.initUniformSuperposition n states)
    (IStateBackend.initUniformSuperposition n states)
  loadAmplitudes : forall n data, Call.Followed link
    (IStateBackend.loadAmplitudes n data) (IStateBackend.loadAmplitudes n data)
  forEachAmplitudeChunk : Call.Followed link
    IStateBackend.forEachAmplitudeChunk IStateBackend.forEachAmplitudeChunk
  amplitude : forall s, Call.Followed link
    (IStateBackend.amplitude s) (IStateBackend.amplitude s)
  setAmplitude : forall s amp, Call.Followed link
    (IStateBackend.setAmplitude s amp) (IStateBackend.setAmplitude s amp)
  totalProbability : Call.Followed link
    IStateBackend.totalProbability IStateBackend.totalProbability
  sampleMeasurement : forall rnd, Call.Followed link
    (IStateBackend.sampleMeasurement rnd) (IStateBackend.sampleMeasurement rnd)
  printNonZeroStates : forall epsilon, Call.Followed link
    (IStateBackend.printNonZeroStates epsilon) (IStateBackend.printNonZeroStates epsilon)
  phaseFlipBasisState : forall s, Call.Followed link
    (IStateBackend.phaseFlipBasisState s) (IStateBackend.phaseFlipBasisState s)
  inversionAboutMeanWith : forall mean, Call.Followed link
    (IStateBackend.inversionAboutMeanWith mean) (IStateBackend.inversionAboutMeanWith mean)
  applyAffineTransform : forall scale bias, Call.Followed link
    (IStateBackend.applyAffineTransform scale bias)
    (IStateBackend.applyAffineTransform scale bias)
  applyHadamard : forall q, Call.Followed link
    (IStateBackend.applyHadamard q) (IStateBackend.applyHadamard q)
  applyPauliX : forall q, Call.Followed link
    (IStateBackend.applyPauliX q) (IStateBackend.applyPauliX q)
  applyControlledPhaseShift : forall c q theta, Call.Followed link
    (IStateBackend.applyControlledPhaseShift c q theta)
    (IStateBackend.applyControlledPhaseShift c q theta)
  applyControlledNot : forall c q, Call.Followed link
    (IStateBackend.applyControlledNot c q) (IStateBackend.applyControlledNot c q)
  applyGate : forall gate qubits, Call.Followed link
    (IStateBackend.applyGate gate qubits) (IStateBackend.applyGate gate qubits)
  beginOperationBatch : Call.Followed link
    IStateBackend.beginOperationBatch IStateBackend.beginOperationBatch
  endOperationBatch : Call.Followed link
    IStateBackend.endOperationBatch IStateBackend.endOperationBatch

namespace QuantumRegister

def withBackend (r : QuantumRegister R β) (c : γ) : QuantumRegister R γ :=
  { numQubits := r.numQubits
    numStates := r.numStates
    backend := c
    cachedLogicalAmplitudeSum := r.cachedLogicalAmplitudeSum
    affineScale := r.affineScale
    affineBias := r.affineBias
    affineOverlayActive := r.affineOverlayActive }

/-- The second register is the first one on a linked backend. -/
def Mirrored (link : β -> γ -> Prop) (r : QuantumRegister R β) (q : QuantumRegister R γ) :
    Prop :=
  exists c, link r.backend c ∧ q = r.withBackend c

/-- The function returns on every mirror what it returns on the register. -/
abbrev MirroredCall {α : Type} (link : β -> γ -> Prop) (x : Call (QuantumRegister R β) α)
    (y : Call (QuantumRegister R γ) α) : Prop :=
  Call.Followed (Mirrored link) x y

variable {link : β -> γ -> Prop}

section

omit [Field R] [LinearOrder R] [IStateBackend R β] [IStateBackend R γ]

theorem mirrored_onBackend {α : Type} {x : Call β α} {y : Call γ α}
    (h : Call.Followed link x y) :
    MirroredCall (R := R) link (onBackend x) (onBackend y) := by
  apply h.focus
  · rintro r _ ⟨c, hc, rfl⟩
    exact hc
  · rintro r _ b c' ⟨c, _, rfl⟩ hlink
    exact ⟨c', hlink, rfl⟩

theorem mirrored_get_bind {α : Type} {f : QuantumRegister R β -> Call (QuantumRegister R β) α}
    {g : QuantumRegister R γ -> Call (QuantumRegister R γ) α}
    (h : forall r c, MirroredCall link (f r) (g (r.withBackend c))) :
    MirroredCall link (get >>= f) (get >>= g) := by
  apply Call.followed_get_bind
  rintro r _ ⟨c, hc, rfl⟩
  exact h r c r _ ⟨c, hc, rfl⟩

theorem mirrored_modify {f : QuantumRegister R β -> QuantumRegister R β}
    {g : QuantumRegister R γ -> QuantumRegister R γ}
    (hbackend : forall r, (f r).backend = r.backend)
    (h : forall r c, g (r.withBackend c) = (f r).withBackend c) :
    MirroredCall link (modify f) (modify g) := by
  apply Call.followed_modify
  rintro r _ ⟨c, hc, rfl⟩
  exact ⟨c, by rw [hbackend]; exact hc, h r c⟩

end

/-!
## Checks
-/

section Checks

variable {σ τ : Type} {rel : σ -> τ -> Prop}

theorem followed_checkedStateCount (qubits : Nat) :
    Call.Followed rel (checkedStateCount qubits) (checkedStateCount qubits) :=
  Call.Followed.ite (Call.followed_throw _ _) (Call.followed_pure _)

theorem followed_validateStateIndex (scopeName : String) (s count : Nat) :
    Call.Followed rel (validateStateIndex scopeName s count)
      (validateStateIndex scopeName s count) :=
  Call.Followed.ite (Call.followed_throw _ _) (Call.followed_pure _)

theorem followed_validateQubitIndex (scopeName : String) (q count : Nat) :
    Call.Followed rel (validateQubitIndex scopeName q count)
      (validateQubitIndex scopeName q count) :=
  Call.Followed.ite (Call.followed_throw _ _) (Call.followed_pure _)

theorem followed_validateTargetsFrom (scopeName : String) (count : Nat) (qubits : List Nat) :
    forall seen : List Nat, Call.Followed rel (validateTargetsFrom scopeName count seen qubits)
      (validateTargetsFrom scopeName count seen qubits) := by
  induction qubits with
  | nil =>
      intro seen
      exact Call.followed_pure _
  | cons qubit rest ih =>
      intro seen
      refine (followed_validateQubitIndex scopeName qubit count).bind fun _ => ?_
      exact (ih (qubit :: seen)).unless

theorem followed_validateGateTargets (scopeName : String) (qubits : List Nat)
    (count dimension : Nat) :
    Call.Followed rel (validateGateTargets scopeName qubits count dimension)
      (validateGateTargets scopeName qubits count dimension) := by
  apply Call.Followed.unless
  apply Call.Followed.unless
  refine (followed_checkedStateCount qubits.length).bind fun _ => ?_
  apply Call.Followed.unless
  exact followed_validateTargetsFrom scopeName count qubits []

end Checks

omit [Field R] [LinearOrder R] [IStateBackend R β] [IStateBackend R γ] in
theorem mirrored_validateTwoQubits (scopeName : String) (q0 q1 : Nat) :
    MirroredCall (R := R) link (validateTwoQubits scopeName q0 q1)
      (validateTwoQubits scopeName q0 q1) := by
  apply mirrored_get_bind
  intro r c
  refine (followed_validateQubitIndex scopeName q0 r.numQubits).bind fun _ => ?_
  refine (followed_validateQubitIndex scopeName q1 r.numQubits).bind fun _ => ?_
  exact Call.Followed.ite (Call.followed_throw _ _) (Call.followed_pure _)

/-!
## The overlay
-/

section Functions

variable (hm : Mirrors link)
include hm

omit [IStateBackend R β] [IStateBackend R γ] hm in
theorem mirrored_divideAmplitude (a b : Amplitude R) :
    MirroredCall (R := R) link (divideAmplitude a b) (divideAmplitude a b) :=
  Call.Followed.ite (Call.followed_throw _ _) (Call.followed_pure _)

section

omit hm

omit [IStateBackend R β] [IStateBackend R γ] in
theorem mirrored_removeAffineOverlay (a : Amplitude R) :
    MirroredCall (R := R) link (removeAffineOverlay a) (removeAffineOverlay a) := by
  apply mirrored_get_bind
  intro r c
  exact Call.Followed.ite (mirrored_divideAmplitude _ _) (Call.followed_pure _)

omit [LinearOrder R] [IStateBackend R β] [IStateBackend R γ] in
theorem mirrored_resetAffineOverlay :
    MirroredCall (R := R) link resetAffineOverlay resetAffineOverlay :=
  mirrored_modify (fun _ => rfl) fun _ _ => rfl

omit [Field R] [LinearOrder R] [IStateBackend R β] [IStateBackend R γ] in
theorem mirrored_invalidateSum : MirroredCall (R := R) link invalidateSum invalidateSum :=
  mirrored_modify (fun _ => rfl) fun _ _ => rfl

omit [LinearOrder R] [IStateBackend R β] [IStateBackend R γ] in
theorem mirrored_reflectSum (mean : Amplitude R) :
    MirroredCall (R := R) link (reflectSum mean) (reflectSum mean) :=
  mirrored_modify (fun _ => rfl) fun _ _ => rfl

end

section

omit [LinearOrder R]

theorem mirrored_visitLogicalAmplitudeChunks :
    MirroredCall (R := R) link visitLogicalAmplitudeChunks visitLogicalAmplitudeChunks := by
  apply mirrored_get_bind
  intro r c
  refine (mirrored_onBackend hm.forEachAmplitudeChunk).bind fun visits => ?_
  exact Call.Followed.ite (Call.followed_pure _) (Call.followed_pure _)

theorem mirrored_logicalAmplitudeSum :
    MirroredCall (R := R) link logicalAmplitudeSum logicalAmplitudeSum := by
  apply mirrored_get_bind
  intro r c
  rw [show (r.withBackend c).cachedLogicalAmplitudeSum = r.cachedLogicalAmplitudeSum from rfl]
  cases r.cachedLogicalAmplitudeSum with
  | some sum => exact Call.followed_pure sum
  | none =>
      refine (mirrored_visitLogicalAmplitudeChunks hm).bind fun visits => ?_
      refine Call.Followed.bind ?_ fun _ => Call.followed_pure _
      exact mirrored_modify (fun _ => rfl) fun _ _ => rfl

theorem mirrored_flushAffineOverlay :
    MirroredCall (R := R) link flushAffineOverlay flushAffineOverlay := by
  apply mirrored_get_bind
  intro r c
  refine Call.Followed.ite ?_ (Call.followed_pure _)
  refine (mirrored_onBackend (hm.applyAffineTransform _ _)).bind fun _ => ?_
  refine mirrored_resetAffineOverlay.bind fun _ => ?_
  exact mirrored_modify (fun _ => rfl) fun _ _ => rfl

theorem mirrored_applyFlushed {x : Call β Unit} {y : Call γ Unit} (h : Call.Followed link x y) :
    MirroredCall (R := R) link (applyFlushed x) (applyFlushed y) := by
  refine (mirrored_flushAffineOverlay hm).bind fun _ => ?_
  exact (mirrored_onBackend h).bind fun _ => mirrored_invalidateSum

theorem mirrored_logicalMean : MirroredCall (R := R) link logicalMean logicalMean := by
  refine (mirrored_logicalAmplitudeSum hm).bind fun sum => ?_
  apply mirrored_get_bind
  intro r c
  exact Call.followed_pure _

end

/-!
## Queries
-/

section

omit [LinearOrder R]

theorem mirrored_amplitude (s : Nat) :
    MirroredCall (R := R) link (amplitude s) (amplitude s) := by
  apply mirrored_get_bind
  intro r c
  refine (followed_validateStateIndex _ s r.numStates).bind fun _ => ?_
  exact (mirrored_onBackend (hm.amplitude s)).bind fun amp => Call.followed_pure _

theorem mirrored_probability (s : Nat) :
    MirroredCall (R := R) link (probability s) (probability s) := by
  apply mirrored_get_bind
  intro r c
  refine (followed_validateStateIndex _ s r.numStates).bind fun _ => ?_
  exact (mirrored_amplitude hm s).bind fun amp => Call.followed_pure _

theorem mirrored_amplitudes : MirroredCall (R := R) link amplitudes amplitudes := by
  apply mirrored_get_bind
  intro r c
  exact (mirrored_visitLogicalAmplitudeChunks hm).bind fun visits => Call.followed_pure _

theorem mirrored_totalProbability :
    MirroredCall (R := R) link totalProbability totalProbability := by
  apply mirrored_get_bind
  intro r c
  refine Call.Followed.ite ?_ (mirrored_onBackend hm.totalProbability)
  exact (mirrored_visitLogicalAmplitudeChunks hm).bind fun visits => Call.followed_pure _

end

theorem mirrored_measure (rnd : R) :
    MirroredCall (R := R) link (measure rnd) (measure rnd) := by
  apply mirrored_get_bind
  intro r c
  refine Call.Followed.ite ?_ (mirrored_onBackend (hm.sampleMeasurement rnd))
  refine (mirrored_visitLogicalAmplitudeChunks hm).bind fun visits => ?_
  cases (visits.foldl (measureChunk rnd) (none, 0)).1 with
  | some s => exact Call.followed_pure s
  | none => exact Call.followed_throw _ _

theorem mirrored_stream : MirroredCall (R := R) link stream stream := by
  apply mirrored_get_bind
  intro r c
  refine Call.Followed.ite ?_ (mirrored_onBackend (hm.printNonZeroStates _))
  exact (mirrored_visitLogicalAmplitudeChunks hm).bind fun visits => Call.followed_pure _

theorem mirrored_printStatesVector (epsilon : R) :
    MirroredCall (R := R) link (printStatesVector epsilon) (printStatesVector epsilon) := by
  apply Call.Followed.unless
  apply mirrored_get_bind
  intro r c
  refine Call.Followed.ite ?_ (mirrored_onBackend (hm.printNonZeroStates epsilon))
  exact (mirrored_visitLogicalAmplitudeChunks hm).bind fun visits => Call.followed_pure _

/-!
## Mutations
-/

theorem mirrored_setAmplitude (s : Nat) (amp : Amplitude R) :
    MirroredCall (R := R) link (setAmplitude s amp) (setAmplitude s amp) := by
  apply mirrored_get_bind
  intro r c
  refine (followed_validateStateIndex _ s r.numStates).bind fun _ => ?_
  refine (mirrored_removeAffineOverlay amp).bind fun backendAmp => ?_
  exact (mirrored_onBackend (hm.setAmplitude s backendAmp)).bind fun _ => mirrored_invalidateSum

section

omit [LinearOrder R]

theorem mirrored_loadAmplitudes (data : List R) :
    MirroredCall (R := R) link (loadAmplitudes data) (loadAmplitudes data) := by
  apply mirrored_get_bind
  intro r c
  apply Call.Followed.unless
  refine mirrored_resetAffineOverlay.bind fun _ => ?_
  exact mirrored_onBackend (hm.loadAmplitudes r.numQubits data)

theorem mirrored_initUniformSuperposition (states : List Nat) :
    MirroredCall (R := R) link (initUniformSuperposition states)
      (initUniformSuperposition states) := by
  apply mirrored_get_bind
  intro r c
  apply Call.Followed.unless
  refine (Call.Followed.forM fun s _ =>
    followed_validateStateIndex _ s r.numStates).bind fun _ => ?_
  refine mirrored_resetAffineOverlay.bind fun _ => ?_
  exact mirrored_onBackend (hm.initUniformSuperposition r.numQubits states)

theorem mirrored_applyGate (gate : QuantumGate R) (qubits : List Nat) :
    MirroredCall (R := R) link (applyGate gate qubits) (applyGate gate qubits) := by
  apply mirrored_get_bind
  intro r c
  refine (followed_validateGateTargets _ qubits r.numQubits gate.dimension).bind fun _ => ?_
  exact mirrored_applyFlushed hm (hm.applyGate gate qubits)

end

theorem mirrored_applyPhaseFlipBasisState (s : Nat) :
    MirroredCall (R := R) link (applyPhaseFlipBasisState s) (applyPhaseFlipBasisState s) := by
  apply mirrored_get_bind
  intro r c
  refine (followed_validateStateIndex _ s r.numStates).bind fun _ => ?_
  refine Call.Followed.ite ?_ (mirrored_onBackend (hm.phaseFlipBasisState s))
  refine (mirrored_amplitude hm s).bind fun logical => ?_
  refine Call.Followed.bind (mirrored_modify (fun _ => rfl) fun _ _ => rfl) fun _ => ?_
  refine Call.Followed.ite ?_ (mirrored_onBackend (hm.phaseFlipBasisState s))
  refine (mirrored_removeAffineOverlay _).bind fun backendAmp => ?_
  exact mirrored_onBackend (hm.setAmplitude s backendAmp)

omit [LinearOrder R] [IStateBackend R β] [IStateBackend R γ] hm in
theorem mirrored_applyInversionAboutMeanWith (mean : Amplitude R) :
    MirroredCall (R := R) link (applyInversionAboutMeanWith mean)
      (applyInversionAboutMeanWith mean) := by
  refine (mirrored_reflectSum mean).bind fun _ => ?_
  exact mirrored_modify (fun _ => rfl) fun _ _ => rfl

section

omit [LinearOrder R]

theorem mirrored_applyInversionAboutMean :
    MirroredCall (R := R) link applyInversionAboutMean applyInversionAboutMean :=
  (mirrored_logicalMean hm).bind mirrored_applyInversionAboutMeanWith

theorem mirrored_applyInversionAboutMeanMaterializedWith (mean : Amplitude R) :
    MirroredCall (R := R) link (applyInversionAboutMeanMaterializedWith mean)
      (applyInversionAboutMeanMaterializedWith mean) := by
  refine (mirrored_reflectSum mean).bind fun _ => ?_
  refine (mirrored_flushAffineOverlay hm).bind fun _ => ?_
  exact mirrored_onBackend (hm.inversionAboutMeanWith mean)

theorem mirrored_applyInversionAboutMeanMaterialized :
    MirroredCall (R := R) link applyInversionAboutMeanMaterialized
      applyInversionAboutMeanMaterialized :=
  (mirrored_logicalMean hm).bind (mirrored_applyInversionAboutMeanMaterializedWith hm)

theorem mirrored_applyHadamard (q : Nat) :
    MirroredCall (R := R) link (applyHadamard q) (applyHadamard q) := by
  apply mirrored_get_bind
  intro r c
  refine (followed_validateQubitIndex _ q r.numQubits).bind fun _ => ?_
  exact mirrored_applyFlushed hm (hm.applyHadamard q)

theorem mirrored_applyPauliX (q : Nat) :
    MirroredCall (R := R) link (applyPauliX q) (applyPauliX q) := by
  apply mirrored_get_bind
  intro r c
  refine (followed_validateQubitIndex _ q r.numQubits).bind fun _ => ?_
  exact mirrored_applyFlushed hm (hm.applyPauliX q)

theorem mirrored_applyControlledPhaseShift (control target : Nat) (theta : R) :
    MirroredCall (R := R) link (applyControlledPhaseShift control target theta)
      (applyControlledPhaseShift control target theta) := by
  refine (mirrored_validateTwoQubits _ control target).bind fun _ => ?_
  exact mirrored_applyFlushed hm (hm.applyControlledPhaseShift control target theta)

theorem mirrored_applyControlledNot (control target : Nat) :
    MirroredCall (R := R) link (applyControlledNot control target)
      (applyControlledNot control target) := by
  refine (mirrored_validateTwoQubits _ control target).bind fun _ => ?_
  exact mirrored_applyFlushed hm (hm.applyControlledNot control target)

theorem mirrored_applySwap (a b : Nat) :
    MirroredCall (R := R) link (applySwap a b) (applySwap a b) := by
  refine (mirrored_validateTwoQubits _ a b).bind fun _ => ?_
  refine (mirrored_applyControlledNot hm a b).bind fun _ => ?_
  refine (mirrored_applyControlledNot hm b a).bind fun _ => ?_
  exact mirrored_applyControlledNot hm a b

end

/-!
## Every function of a register
-/

omit [Field R] [LinearOrder R] [IStateBackend R β] [IStateBackend R γ] hm in
theorem mirrored_command {x : Call (QuantumRegister R β) Unit} {y : Call (QuantumRegister R γ) Unit}
    (h : MirroredCall link x y) :
    MirroredCall link (BackendOp.command (R := R) x) (BackendOp.command (R := R) y) :=
  h.bind fun _ => Call.followed_pure _

omit [Field R] [LinearOrder R] [IStateBackend R β] [IStateBackend R γ] hm in
theorem mirrored_query {α : Type} {x : Call (QuantumRegister R β) α}
    {y : Call (QuantumRegister R γ) α} (h : MirroredCall link x y) (wrap : α -> Answer R) :
    MirroredCall link (BackendOp.query wrap x) (BackendOp.query wrap y) :=
  h.bind fun a => Call.followed_pure (wrap a)

theorem mirrored_run (op : RegisterOp R) : MirroredCall link op.run op.run := by
  cases op with
  | setAmplitude s amp => exact mirrored_command (mirrored_setAmplitude hm s amp)
  | loadAmplitudes data => exact mirrored_command (mirrored_loadAmplitudes hm data)
  | initUniformSuperposition states =>
      exact mirrored_command (mirrored_initUniformSuperposition hm states)
  | applyGate gate qubits => exact mirrored_command (mirrored_applyGate hm gate qubits)
  | applyPhaseFlipBasisState s =>
      exact mirrored_command (mirrored_applyPhaseFlipBasisState hm s)
  | applyInversionAboutMean => exact mirrored_command (mirrored_applyInversionAboutMean hm)
  | applyInversionAboutMeanWith mean =>
      exact mirrored_command (mirrored_applyInversionAboutMeanWith mean)
  | applyInversionAboutMeanMaterialized =>
      exact mirrored_command (mirrored_applyInversionAboutMeanMaterialized hm)
  | applyInversionAboutMeanMaterializedWith mean =>
      exact mirrored_command (mirrored_applyInversionAboutMeanMaterializedWith hm mean)
  | applyHadamard q => exact mirrored_command (mirrored_applyHadamard hm q)
  | applyPauliX q => exact mirrored_command (mirrored_applyPauliX hm q)
  | applyControlledPhaseShift c q theta =>
      exact mirrored_command (mirrored_applyControlledPhaseShift hm c q theta)
  | applyControlledNot c q => exact mirrored_command (mirrored_applyControlledNot hm c q)
  | applySwap a b => exact mirrored_command (mirrored_applySwap hm a b)
  | beginOperationBatch => exact mirrored_command (mirrored_onBackend hm.beginOperationBatch)
  | endOperationBatch => exact mirrored_command (mirrored_onBackend hm.endOperationBatch)
  | amplitude s => exact mirrored_query (mirrored_amplitude hm s) _
  | probability s => exact mirrored_query (mirrored_probability hm s) _
  | totalProbability => exact mirrored_query (mirrored_totalProbability hm) _
  | amplitudes => exact mirrored_query (mirrored_amplitudes hm) _
  | measure rnd => exact mirrored_query (mirrored_measure hm rnd) _
  | stream => exact mirrored_query (mirrored_stream hm) _
  | printStatesVector epsilon => exact mirrored_query (mirrored_printStatesVector hm epsilon) _

/-!
## Construction
-/

omit [Field R] [LinearOrder R] [IStateBackend R β] [IStateBackend R γ] hm in
theorem mirrored_initializeBackend {b : β} {c : γ} (hlink : link b c) (qubits : Nat) :
    MirroredCall (R := R) link (initializeBackend b qubits) (initializeBackend c qubits) := by
  refine Call.Followed.bind (mirrored_modify (fun _ => rfl) fun _ _ => rfl) fun _ => ?_
  refine (followed_checkedStateCount qubits).bind fun count => ?_
  apply Call.followed_modify
  rintro r _ ⟨_, _, rfl⟩
  exact ⟨c, hlink, rfl⟩

omit [Field R] [LinearOrder R] in
theorem mirrored_initBasis {b : β} {c : γ} (hlink : link b c) (qubits s : Nat)
    (amp : Amplitude R) :
    MirroredCall link (initBasis b qubits s amp) (initBasis c qubits s amp) :=
  (mirrored_initializeBackend hlink qubits).bind fun _ =>
    mirrored_onBackend (hm.initBasis qubits s amp)

omit [Field R] [LinearOrder R] in
theorem mirrored_initAmplitudes {b : β} {c : γ} (hlink : link b c) (qubits : Nat)
    (data : List R) :
    MirroredCall link (initAmplitudes b qubits data) (initAmplitudes c qubits data) :=
  (mirrored_initializeBackend hlink qubits).bind fun _ =>
    mirrored_onBackend (hm.loadAmplitudes qubits data)

end Functions

end QuantumRegister

end Tmfqs
