import Tmfqs.Register.OperationBatches
import Tmfqs.Storage.CompressedSafety

/-!
# Rejected register operations

A register checks the arguments of an operation before it touches its overlay, its
cached sum or its backend, and what it lets through no layer below rejects.
-/

namespace Tmfqs

open Library

namespace RegisterOp

variable {R : Type} [Field R] [LinearOrder R]

/-- The operations that may change what a register represents or how many batches are open. -/
def Mutates : RegisterOp R -> Prop
  | amplitude _ => False
  | probability _ => False
  | totalProbability => False
  | amplitudes => False
  | measure _ => False
  | stream => False
  | printStatesVector _ => False
  | _ => True

/-- The arguments that pass the checks of a register of `n` qubits. -/
def ArgumentsOk (n : Nat) : RegisterOp R -> Prop
  | printStatesVector epsilon => 0 ≤ epsilon
  | op => op.Valid n

def Drawn : RegisterOp R -> Prop
  | measure rnd => 0 ≤ rnd ∧ rnd < 1
  | _ => True

/-- The exceptions that accepted arguments leave possible. -/
def MayThrow : RegisterOp R -> ExcKind -> Prop
  | endOperationBatch, kind => kind = .logicError
  | measure _, kind => kind = .runtimeError
  | _, _ => False

end RegisterOp

namespace QuantumRegister

variable {R : Type} [Field R] [LinearOrder R] {β : Type} [IStateBackend R β]

/-- Sizes that agree with an initialised backend, and an overlay that can be removed. -/
structure Checked (G : ChecksArguments (R := R) β) (n : Nat) (r : QuantumRegister R β) : Prop where
  numQubits : r.numQubits = n
  numStates : r.numStates = 2 ^ n
  ready : G.Ready n r.backend
  unitScale : r.affineOverlayActive = true ->
    r.affineScale = { real := 1, imag := 0 } ∨ r.affineScale = { real := -1, imag := 0 }

/-- A register built by a constructor, after any operations and copies. -/
inductive Reachable (selected : β) (n : Nat) : QuantumRegister R β -> Prop where
  | constructed {v : List R} {r : QuantumRegister R β} (h : Constructed selected n v r) :
      Reachable selected n r
  | operated {r : QuantumRegister R β} (h : Reachable selected n r) (op : RegisterOp R)
      (hdrawn : op.Drawn) : Reachable selected n (op.run r).2
  | copied {r : QuantumRegister R β} (h : Reachable selected n r) : Reachable selected n r.copy

variable {G : ChecksArguments (R := R) β} {n : Nat} {r : QuantumRegister R β}

/-- The call returns, and the register stays checked. -/
abbrev Safe {α : Type} (G : ChecksArguments (R := R) β) (n : Nat)
    (x : Call (QuantumRegister R β) α) : Prop :=
  Call.Maintains (Checked G n) (fun _ _ => False) x

/-- The call returns, and the backend stays initialised. -/
abbrev Serves {α : Type} (G : ChecksArguments (R := R) β) (n : Nat) (x : Call β α) : Prop :=
  Call.Maintains (G.Ready n) (fun _ _ => False) x

namespace Checked

theorem qubits (h : Checked G n r) : n ≤ 31 :=
  (G.bound h.ready).1

theorem moved (h : Checked G n r) {b : β} (hb : G.Ready n b) :
    Checked G n { r with backend := b } where
  numQubits := h.numQubits
  numStates := h.numStates
  ready := hb
  unitScale := h.unitScale

theorem summed (h : Checked G n r) (sum : Option (Amplitude R)) :
    Checked G n { r with cachedLogicalAmplitudeSum := sum } where
  numQubits := h.numQubits
  numStates := h.numStates
  ready := h.ready
  unitScale := h.unitScale

theorem copied (h : Checked G n r) : Checked G n r.copy :=
  h.moved (G.clone h.ready)

end Checked

/-!
## What the backend serves
-/

theorem serves_command (op : BackendOp R) {call : Call β Unit} (hrun : op.run = BackendOp.command call)
    (hsize : op.size = none) (hop : op.ArgumentsOk n) (hthrow : forall kind, ¬ op.MayThrow kind) :
    Serves G n call := by
  intro b hb
  have hpost := G.call hb hsize hop
  rw [hrun, BackendOp.command, Call.post_bind_iff] at hpost
  exact hpost.imp (fun _ _ h => h) (fun _ _ he => hthrow _ he.1)

theorem serves_query {α : Type} (op : BackendOp R) {wrap : α -> Answer R} {call : Call β α}
    (hrun : op.run = BackendOp.query wrap call) (hsize : op.size = none) (hop : op.ArgumentsOk n)
    (hthrow : forall kind, ¬ op.MayThrow kind) : Serves G n call := by
  intro b hb
  have hpost := G.call hb hsize hop
  rw [hrun, BackendOp.query, Call.post_bind_iff] at hpost
  exact hpost.imp (fun _ _ h => h) (fun _ _ he => hthrow _ he.1)

theorem safe_onBackend {α : Type} {x : Call β α} (hx : Serves G n x) :
    Safe G n (onBackend x : Call (QuantumRegister R β) α) := by
  intro r h
  rw [onBackend, Call.post_focus_iff]
  exact (hx r.backend h.ready).imp (fun _ _ hb => h.moved hb) (fun _ _ he => he)

theorem safe_invalidateSum : Safe G n (invalidateSum : Call (QuantumRegister R β) Unit) :=
  Call.maintains_modify fun _ h => h.summed none

theorem safe_resetAffineOverlay :
    Safe G n (resetAffineOverlay : Call (QuantumRegister R β) Unit) := by
  apply Call.maintains_modify
  intro r h
  exact
    { numQubits := h.numQubits
      numStates := h.numStates
      ready := h.ready
      unitScale := by
        intro hactive
        cases hactive }

theorem safe_flushAffineOverlay :
    Safe G n (flushAffineOverlay : Call (QuantumRegister R β) Unit) := by
  apply Call.maintains_get_bind
  intro r h
  have hflush : Serves G n (IStateBackend.applyAffineTransform r.affineScale r.affineBias :
      Call β Unit) :=
    serves_command (.applyAffineTransform r.affineScale r.affineBias) rfl rfl ⟨trivial, trivial⟩
      (fun _ he => he)
  split
  · refine Call.Maintains.bind (safe_onBackend hflush) (fun _ => ?_) r h
    apply safe_resetAffineOverlay.bind
    intro _
    exact Call.maintains_modify fun _ h1 => h1.summed _
  · exact h

theorem safe_applyFlushed {gate : Call β Unit} (hgate : Serves G n gate) :
    Safe G n (applyFlushed gate : Call (QuantumRegister R β) Unit) := by
  apply safe_flushAffineOverlay.bind
  intro _
  apply (safe_onBackend hgate).bind
  intro _
  exact safe_invalidateSum

/-!
## Queries
-/

theorem safe_visitLogicalAmplitudeChunks :
    Safe G n (visitLogicalAmplitudeChunks : Call (QuantumRegister R β) (List (Nat × List R))) := by
  apply Call.maintains_get_bind
  intro r h
  have hvisit : Serves G n (IStateBackend.forEachAmplitudeChunk : Call β (List (Nat × List R))) :=
    serves_query .forEachAmplitudeChunk rfl rfl ⟨trivial, trivial⟩ (fun _ he => he)
  refine Call.Maintains.bind (safe_onBackend hvisit) (fun visits => ?_) r h
  exact Call.Maintains.ite (fun _ => Call.maintains_pure _) (fun _ => Call.maintains_pure _)

theorem safe_amplitude {state : Nat} (hs : state < 2 ^ n) :
    Safe G n (amplitude state : Call (QuantumRegister R β) (Amplitude R)) := by
  apply Call.maintains_get_bind
  intro r h
  have hread : Serves G n (IStateBackend.amplitude state : Call β (Amplitude R)) :=
    serves_query (.amplitude state) rfl rfl ⟨trivial, hs⟩ (fun _ he => he)
  rw [h.numStates, validateStateIndex_ok _ h.qubits hs, pure_bind]
  refine Call.Maintains.bind (safe_onBackend hread) (fun amp => ?_) r h
  exact Call.maintains_pure _

theorem safe_probability {state : Nat} (hs : state < 2 ^ n) :
    Safe G n (probability state : Call (QuantumRegister R β) R) := by
  apply Call.maintains_get_bind
  intro r h
  rw [h.numStates, validateStateIndex_ok _ h.qubits hs, pure_bind]
  exact Call.Maintains.bind (safe_amplitude hs) (fun _ => Call.maintains_pure _) r h

theorem safe_logicalAmplitudeSum :
    Safe G n (logicalAmplitudeSum : Call (QuantumRegister R β) (Amplitude R)) := by
  apply Call.maintains_get_bind
  intro r h
  split
  · exact h
  · refine Call.Maintains.bind safe_visitLogicalAmplitudeChunks (fun visits => ?_) r h
    apply Call.Maintains.bind
    · exact Call.maintains_modify fun _ h1 => h1.summed _
    intro _
    exact Call.maintains_pure _

theorem safe_amplitudes : Safe G n (amplitudes : Call (QuantumRegister R β) (List R)) := by
  apply Call.maintains_get_bind
  intro r h
  exact Call.Maintains.bind safe_visitLogicalAmplitudeChunks (fun _ => Call.maintains_pure _) r h

theorem safe_totalProbability : Safe G n (totalProbability : Call (QuantumRegister R β) R) := by
  have htotal : Serves G n (IStateBackend.totalProbability : Call β R) :=
    serves_query .totalProbability rfl rfl ⟨trivial, trivial⟩ (fun _ he => he)
  apply Call.maintains_get_bind
  intro r h
  split
  · exact Call.Maintains.bind safe_visitLogicalAmplitudeChunks (fun _ => Call.maintains_pure _) r h
  · exact safe_onBackend htotal r h

theorem post_printed (h : Checked G n r) {epsilon : R} (heps : 0 ≤ epsilon) :
    Call.Post (if r.affineOverlayActive then do
        let visits <- visitLogicalAmplitudeChunks
        pure (visits.flatMap (printedChunk epsilon))
      else
        onBackend (IStateBackend.printNonZeroStates epsilon) :
          Call (QuantumRegister R β) (List (Nat × Amplitude R))) r
      (fun _ r' => Checked G n r') (fun _ _ => False) := by
  have hprint : Serves G n (IStateBackend.printNonZeroStates epsilon :
      Call β (List (Nat × Amplitude R))) :=
    serves_query (.printNonZeroStates epsilon) rfl rfl heps (fun _ he => he)
  split
  · exact Call.Maintains.bind safe_visitLogicalAmplitudeChunks (fun _ => Call.maintains_pure _) r h
  · exact safe_onBackend hprint r h

theorem safe_printStatesVector {epsilon : R} (heps : 0 ≤ epsilon) :
    Safe G n (printStatesVector epsilon :
      Call (QuantumRegister R β) (List (Nat × Amplitude R))) := by
  intro r h
  rw [printStatesVector, if_neg (not_lt.mpr heps)]
  exact post_printed h heps

theorem safe_stream [IsStrictOrderedRing R] :
    Safe G n (stream : Call (QuantumRegister R β) (List (Nat × Amplitude R))) := by
  have heps : (0 : R) ≤ kDefaultPrintEpsilon := by
    rw [kDefaultPrintEpsilon]
    positivity
  exact fun r h => post_printed h heps

/-- A measurement fails only when the probabilities do not reach the number drawn. -/
theorem post_measure (h : Checked G n r) {rnd : R} (hrnd : 0 ≤ rnd ∧ rnd < 1) :
    Call.Post (measure rnd) r (fun _ r' => Checked G n r')
      (fun e r' => e.kind = .runtimeError ∧ Checked G n r') := by
  rw [measure, Call.post_bind_iff, Call.post_get]
  by_cases hactive : r.affineOverlayActive = true
  · rw [if_pos hactive, Call.post_bind_iff]
    refine (safe_visitLogicalAmplitudeChunks r h).imp ?_ (fun _ _ he => he.elim)
    intro visits r' h'
    cases (visits.foldl (measureChunk rnd) (none, 0)).1 with
    | some state => exact h'
    | none => exact ⟨rfl, h'⟩
  · rw [if_neg hactive, onBackend, Call.post_focus_iff]
    have hpost := G.call h.ready (show (BackendOp.sampleMeasurement rnd).size = none from rfl) hrnd
    rw [BackendOp.run, BackendOp.query, Call.post_bind_iff] at hpost
    refine hpost.imp (fun _ _ hb => h.moved hb) ?_
    rintro e b ⟨hkind, hb⟩
    exact ⟨hkind, h.moved hb⟩

/-!
## Mutations
-/

theorem removeAffineOverlay_apply (h : Checked G n r) (a : Amplitude R) :
    exists q, removeAffineOverlay a r = (.ok q, r) := by
  rw [removeAffineOverlay, Call.bind_apply, Call.get_apply]
  by_cases hactive : r.affineOverlayActive = true
  · simp only [hactive, if_true]
    rcases h.unitScale hactive with hscale | hscale
    · rw [hscale, divideAmplitude]
      simp only [mul_zero, add_zero, mul_one, one_ne_zero, if_false]
      exact ⟨_, rfl⟩
    · rw [hscale, divideAmplitude]
      simp only [mul_zero, add_zero, mul_neg, mul_one, neg_neg, one_ne_zero, if_false]
      exact ⟨_, rfl⟩
  · have hinactive : r.affineOverlayActive = false := by simpa using hactive
    simp only [hinactive, Bool.false_eq_true, if_false]
    exact ⟨a, rfl⟩

theorem safe_removeAffineOverlay (a : Amplitude R) :
    Safe G n (removeAffineOverlay a : Call (QuantumRegister R β) (Amplitude R)) := by
  intro r h
  rcases removeAffineOverlay_apply h a with ⟨q, hq⟩
  exact Call.post_of_ok hq h

theorem serves_setAmplitude {state : Nat} (hs : state < 2 ^ n) (amp : Amplitude R) :
    Serves G n (IStateBackend.setAmplitude state amp : Call β Unit) :=
  serves_command (.setAmplitude state amp) rfl rfl ⟨trivial, hs⟩ (fun _ he => he)

theorem safe_setAmplitude {state : Nat} (hs : state < 2 ^ n) (amp : Amplitude R) :
    Safe G n (setAmplitude state amp : Call (QuantumRegister R β) Unit) := by
  apply Call.maintains_get_bind
  intro r h
  rw [h.numStates, validateStateIndex_ok _ h.qubits hs, pure_bind]
  refine Call.Maintains.bind (safe_removeAffineOverlay amp) (fun q => ?_) r h
  apply (safe_onBackend (serves_setAmplitude hs q)).bind
  intro _
  exact safe_invalidateSum

theorem safe_applyPhaseFlipBasisState {state : Nat} (hs : state < 2 ^ n) :
    Safe G n (applyPhaseFlipBasisState state : Call (QuantumRegister R β) Unit) := by
  have hflip : Safe G n (onBackend (IStateBackend.phaseFlipBasisState state) :
      Call (QuantumRegister R β) Unit) :=
    safe_onBackend (serves_command (.phaseFlipBasisState state) rfl rfl ⟨trivial, hs⟩
      (fun _ he => he))
  apply Call.maintains_get_bind
  intro r h
  rw [h.numStates, validateStateIndex_ok _ h.qubits hs, pure_bind]
  split
  · refine Call.Maintains.bind (safe_amplitude hs) (fun logical => ?_) r h
    apply Call.Maintains.bind
    · exact Call.maintains_modify fun _ h1 => h1.summed _
    intro _
    apply Call.Maintains.ite
    · intro _
      apply (safe_removeAffineOverlay logical.negate).bind
      intro q
      exact safe_onBackend (serves_setAmplitude hs q)
    · intro _
      exact hflip
  · exact hflip r h

theorem safe_reflectSum (mean : Amplitude R) :
    Safe G n (reflectSum mean : Call (QuantumRegister R β) Unit) :=
  Call.maintains_modify fun _ h => h.summed _

theorem safe_applyInversionAboutMeanWith (mean : Amplitude R) :
    Safe G n (applyInversionAboutMeanWith mean : Call (QuantumRegister R β) Unit) := by
  apply (safe_reflectSum mean).bind
  intro _
  apply Call.maintains_modify
  intro r h
  exact
    { numQubits := h.numQubits
      numStates := h.numStates
      ready := h.ready
      unitScale := by
        intro _
        by_cases hactive : r.affineOverlayActive = true
        · simp only [hactive, if_true]
          rcases h.unitScale hactive with hscale | hscale
          · rw [hscale]
            exact Or.inr (Amplitude.eq_of_parts rfl neg_zero)
          · rw [hscale]
            exact Or.inl (Amplitude.eq_of_parts (neg_neg 1) neg_zero)
        · simp only [hactive]
          exact Or.inr (Amplitude.eq_of_parts rfl neg_zero) }

theorem safe_applyInversionAboutMeanMaterializedWith (mean : Amplitude R) :
    Safe G n (applyInversionAboutMeanMaterializedWith mean :
      Call (QuantumRegister R β) Unit) := by
  apply (safe_reflectSum mean).bind
  intro _
  apply safe_flushAffineOverlay.bind
  intro _
  exact safe_onBackend (serves_command (.inversionAboutMeanWith mean) rfl rfl ⟨trivial, trivial⟩
    (fun _ he => he))

theorem safe_logicalMean :
    Safe G n (logicalMean : Call (QuantumRegister R β) (Amplitude R)) := by
  apply safe_logicalAmplitudeSum.bind
  intro sum
  exact Call.maintains_get_bind fun _ h => h

theorem safe_applyGate {gate : QuantumGate R} {qubits : List Nat}
    (hvalid : ValidTargets qubits n gate.dimension) :
    Safe G n (applyGate gate qubits : Call (QuantumRegister R β) Unit) := by
  apply Call.maintains_get_bind
  intro r h
  rw [h.numQubits, validateGateTargets_ok _ h.qubits hvalid, pure_bind]
  exact safe_applyFlushed (serves_command (.applyGate gate qubits) rfl rfl ⟨trivial, hvalid⟩
    (fun _ he => he)) r h

theorem safe_applyHadamard {qubit : Nat} (hq : qubit < n) :
    Safe G n (applyHadamard qubit : Call (QuantumRegister R β) Unit) := by
  apply Call.maintains_get_bind
  intro r h
  rw [h.numQubits, validateQubitIndex_ok _ hq, pure_bind]
  exact safe_applyFlushed (serves_command (.applyHadamard qubit) rfl rfl ⟨trivial, hq⟩
    (fun _ he => he)) r h

theorem safe_applyPauliX {qubit : Nat} (hq : qubit < n) :
    Safe G n (applyPauliX qubit : Call (QuantumRegister R β) Unit) := by
  apply Call.maintains_get_bind
  intro r h
  rw [h.numQubits, validateQubitIndex_ok _ hq, pure_bind]
  exact safe_applyFlushed (serves_command (.applyPauliX qubit) rfl rfl ⟨trivial, hq⟩
    (fun _ he => he)) r h

theorem safe_validateTwoQubits (scopeName : String) {q0 q1 : Nat}
    (hq : q0 < n ∧ q1 < n ∧ q0 ≠ q1) :
    Safe G n (validateTwoQubits scopeName q0 q1 : Call (QuantumRegister R β) Unit) := by
  apply Call.maintains_get_bind
  intro r h
  rw [h.numQubits, validateQubitIndex_ok _ hq.1, validateQubitIndex_ok _ hq.2.1,
    validateDistinctQubits_ok _ hq.2.2]
  exact h

theorem safe_applyControlledPhaseShift {control target : Nat}
    (hq : control < n ∧ target < n ∧ control ≠ target) (theta : R) :
    Safe G n (applyControlledPhaseShift control target theta :
      Call (QuantumRegister R β) Unit) := by
  apply (safe_validateTwoQubits _ hq).bind
  intro _
  exact safe_applyFlushed (serves_command (.applyControlledPhaseShift control target theta) rfl rfl
    ⟨trivial, hq⟩ (fun _ he => he))

theorem safe_applyControlledNot {control target : Nat}
    (hq : control < n ∧ target < n ∧ control ≠ target) :
    Safe G n (applyControlledNot control target : Call (QuantumRegister R β) Unit) := by
  apply (safe_validateTwoQubits _ hq).bind
  intro _
  exact safe_applyFlushed (serves_command (.applyControlledNot control target) rfl rfl
    ⟨trivial, hq⟩ (fun _ he => he))

theorem safe_applySwap {qubit1 qubit2 : Nat} (hq : qubit1 < n ∧ qubit2 < n ∧ qubit1 ≠ qubit2) :
    Safe G n (applySwap qubit1 qubit2 : Call (QuantumRegister R β) Unit) := by
  have hq' : qubit2 < n ∧ qubit1 < n ∧ qubit2 ≠ qubit1 := ⟨hq.2.1, hq.1, hq.2.2.symm⟩
  apply (safe_validateTwoQubits _ hq).bind
  intro _
  apply (safe_applyControlledNot hq).bind
  intro _
  apply (safe_applyControlledNot hq').bind
  intro _
  exact safe_applyControlledNot hq

theorem Checked.amplitudeElementCount_eq (h : Checked G n r) :
    r.amplitudeElementCount = 2 * 2 ^ n := by
  have hlt := two_pow_lt_u32 h.qubits
  rw [amplitudeElementCount, h.numStates, u64_of_lt (by omega)]
  omega

theorem Checked.post_reinitialize (h : Checked G n r) (op : BackendOp R) {call : Call β Unit}
    (hrun : op.run = BackendOp.command call) (hsize : op.size = some n) (hop : op.ValidInit) :
    Call.Post (resetAffineOverlay >>= fun _ => onBackend call) r (fun _ r' => Checked G n r')
      (fun _ _ => False) := by
  have hinit : forall b, Call.Post call b (fun _ b' => G.Ready n b') (fun _ _ => False) := by
    intro b
    have hpost := G.init b hsize hop (G.bound h.ready).2
    rw [Does, hrun, BackendOp.command, Call.post_bind_iff] at hpost
    exact hpost
  apply safe_resetAffineOverlay.bind (fun _ => ?_) r h
  intro r1 h1
  rw [onBackend, Call.post_focus_iff]
  exact (hinit r1.backend).imp (fun _ _ hb => h1.moved hb) (fun _ _ he => he)

theorem safe_loadAmplitudes {data : List R} (hlen : data.length = 2 * 2 ^ n) :
    Safe G n (loadAmplitudes data : Call (QuantumRegister R β) Unit) := by
  apply Call.maintains_get_bind
  intro r h
  rw [h.amplitudeElementCount_eq, if_neg (fun hne => hne hlen), h.numQubits]
  exact h.post_reinitialize (.loadAmplitudes n data) rfl rfl ⟨h.qubits, hlen⟩

theorem safe_initUniformSuperposition {states : List Nat} (hne : states ≠ [])
    (hlt : forall s, s ∈ states -> s < 2 ^ n) :
    Safe G n (initUniformSuperposition states : Call (QuantumRegister R β) Unit) := by
  apply Call.maintains_get_bind
  intro r h
  have hempty : ¬ states.isEmpty = true := by
    simpa using hne
  have hforM : (states.forM fun state =>
      validateStateIndex "QuantumRegister::initUniformSuperposition" state (2 ^ n) :
        Call (QuantumRegister R β) PUnit) = pure ⟨⟩ :=
    Call.forM_eq_pure fun s hs => validateStateIndex_ok _ h.qubits (hlt s hs)
  rw [if_neg hempty, h.numStates, hforM, pure_bind, h.numQubits]
  exact h.post_reinitialize (.initUniformSuperposition n states) rfl rfl
    ⟨h.qubits, hne, hlt⟩

/-!
## Every operation
-/

theorem Checked.call [IsStrictOrderedRing R] (h : Checked G n r) {op : RegisterOp R}
    (hdrawn : op.Drawn) (hop : op.ArgumentsOk n) :
    Call.Post op.run r (fun _ r' => Checked G n r')
      (fun e r' => op.MayThrow e.kind ∧ Checked G n r') := by
  have command : forall {call : Call (QuantumRegister R β) Unit}, Safe G n call ->
      Call.Post (BackendOp.command (R := R) call) r (fun _ r' => Checked G n r')
        (fun e r' => op.MayThrow e.kind ∧ Checked G n r') := by
    intro call hcall
    rw [BackendOp.command, Call.post_bind_iff]
    exact (hcall r h).imp (fun _ _ h' => h') (fun _ _ he => he.elim)
  have query : forall {α : Type} {wrap : α -> Answer R} {call : Call (QuantumRegister R β) α},
      Safe G n call -> Call.Post (BackendOp.query wrap call) r (fun _ r' => Checked G n r')
        (fun e r' => op.MayThrow e.kind ∧ Checked G n r') := by
    intro α wrap call hcall
    rw [BackendOp.query, Call.post_bind_iff]
    exact (hcall r h).imp (fun _ _ h' => h') (fun _ _ he => he.elim)
  cases op with
  | setAmplitude s amp => exact command (safe_setAmplitude hop amp)
  | loadAmplitudes data => exact command (safe_loadAmplitudes hop)
  | initUniformSuperposition states => exact command (safe_initUniformSuperposition hop.1 hop.2)
  | applyGate gate qubits => exact command (safe_applyGate hop)
  | applyPhaseFlipBasisState s => exact command (safe_applyPhaseFlipBasisState hop)
  | applyInversionAboutMean =>
      exact command (safe_logicalMean.bind fun mean => safe_applyInversionAboutMeanWith mean)
  | applyInversionAboutMeanWith mean => exact command (safe_applyInversionAboutMeanWith mean)
  | applyInversionAboutMeanMaterialized =>
      exact command (safe_logicalMean.bind fun mean =>
        safe_applyInversionAboutMeanMaterializedWith mean)
  | applyInversionAboutMeanMaterializedWith mean =>
      exact command (safe_applyInversionAboutMeanMaterializedWith mean)
  | applyHadamard q => exact command (safe_applyHadamard hop)
  | applyPauliX q => exact command (safe_applyPauliX hop)
  | applyControlledPhaseShift c q theta =>
      exact command (safe_applyControlledPhaseShift hop theta)
  | applyControlledNot c q => exact command (safe_applyControlledNot hop)
  | applySwap a b => exact command (safe_applySwap hop)
  | beginOperationBatch =>
      exact command (safe_onBackend (serves_command .beginOperationBatch rfl rfl
        ⟨trivial, trivial⟩ (fun _ he => he)))
  | endOperationBatch =>
      change Call.Post (onBackend IStateBackend.endOperationBatch >>= _) r _ _
      rw [Call.post_bind_iff, onBackend, Call.post_focus_iff]
      have hpost := G.call h.ready (show BackendOp.endOperationBatch.size = none from rfl)
        (show BackendOp.endOperationBatch.ArgumentsOk n from ⟨trivial, Nat.one_pos⟩)
      rw [BackendOp.run, BackendOp.command, Call.post_bind_iff] at hpost
      refine hpost.imp (fun _ _ hb => h.moved hb) ?_
      rintro e b ⟨hkind, hb⟩
      exact ⟨hkind, h.moved hb⟩
  | amplitude s => exact query (safe_amplitude hop)
  | probability s => exact query (safe_probability hop)
  | totalProbability => exact query safe_totalProbability
  | amplitudes => exact query safe_amplitudes
  | measure rnd =>
      change Call.Post (measure rnd >>= _) r _ _
      rw [Call.post_bind_iff]
      exact post_measure h hdrawn
  | stream => exact query safe_stream
  | printStatesVector epsilon => exact query (safe_printStatesVector hop)

theorem Checked.rejects_state (h : Checked G n r) {state : Nat} (hs : ¬ state < 2 ^ n)
    (scopeName : String) : Rejects (validateStateIndex scopeName state r.numStates) r := by
  rw [h.numStates]
  exact rejects_stateIndex scopeName h.qubits hs

theorem Checked.rejects_qubit (h : Checked G n r) {qubit : Nat} (hq : ¬ qubit < n)
    (scopeName : String) : Rejects (validateQubitIndex scopeName qubit r.numQubits) r := by
  rw [h.numQubits]
  exact rejects_qubitIndex scopeName hq

theorem Checked.rejects_twoQubits (h : Checked G n r) {q0 q1 : Nat}
    (hq : ¬ (q0 < n ∧ q1 < n ∧ q0 ≠ q1)) (scopeName : String) :
    Rejects (validateTwoQubits scopeName q0 q1) r := by
  apply Rejects.after (Call.get_apply r)
  rw [h.numQubits]
  exact Tmfqs.rejects_twoQubits scopeName hq

theorem Checked.rejects_initUniformSuperposition (h : Checked G n r) {states : List Nat}
    (hstates : ¬ (states ≠ [] ∧ forall s, s ∈ states -> s < 2 ^ n)) :
    Rejects (initUniformSuperposition states) r := by
  apply Rejects.after (Call.get_apply r)
  by_cases hempty : states.isEmpty = true
  · rw [if_pos hempty]
    exact (rejects_throw rfl r).bind _
  · rw [if_neg hempty, h.numStates]
    apply Rejects.bind
    apply rejects_stateIndices _ h.qubits
    intro hlt
    exact hstates ⟨by simpa using hempty, hlt⟩

theorem Checked.rejects (h : Checked G n r) {op : RegisterOp R} (hdrawn : op.Drawn)
    (hop : ¬ op.ArgumentsOk n) : Rejects op.run r := by
  have hread := Call.get_apply (ε := Exc) r
  cases op with
  | setAmplitude s amp =>
      exact (Rejects.after hread ((h.rejects_state hop _).bind _)).command
  | loadAmplitudes data =>
      have hlen : data.length ≠ 2 * 2 ^ n := hop
      apply Rejects.command
      apply Rejects.after hread
      rw [h.amplitudeElementCount_eq, if_pos hlen]
      exact (rejects_throw rfl r).bind _
  | initUniformSuperposition states => exact (h.rejects_initUniformSuperposition hop).command
  | applyGate gate qubits =>
      apply Rejects.command
      apply Rejects.after hread
      rw [h.numQubits]
      exact (rejects_gateTargets _ hop).bind _
  | applyPhaseFlipBasisState s =>
      exact (Rejects.after hread ((h.rejects_state hop _).bind _)).command
  | applyInversionAboutMean => exact (hop trivial).elim
  | applyInversionAboutMeanWith mean => exact (hop trivial).elim
  | applyInversionAboutMeanMaterialized => exact (hop trivial).elim
  | applyInversionAboutMeanMaterializedWith mean => exact (hop trivial).elim
  | applyHadamard q => exact (Rejects.after hread ((h.rejects_qubit hop _).bind _)).command
  | applyPauliX q => exact (Rejects.after hread ((h.rejects_qubit hop _).bind _)).command
  | applyControlledPhaseShift c q theta => exact ((h.rejects_twoQubits hop _).bind _).command
  | applyControlledNot c q => exact ((h.rejects_twoQubits hop _).bind _).command
  | applySwap a b => exact ((h.rejects_twoQubits hop _).bind _).command
  | beginOperationBatch => exact (hop trivial).elim
  | endOperationBatch => exact (hop trivial).elim
  | amplitude s => exact (Rejects.after hread ((h.rejects_state hop _).bind _)).query
  | probability s => exact (Rejects.after hread ((h.rejects_state hop _).bind _)).query
  | totalProbability => exact (hop trivial).elim
  | amplitudes => exact (hop trivial).elim
  | measure rnd => exact (hop hdrawn).elim
  | stream => exact (hop trivial).elim
  | printStatesVector epsilon =>
      apply Rejects.query
      rw [printStatesVector, if_pos (not_le.mp hop)]
      exact (rejects_throw rfl r).bind _

/-!
## Reachable registers
-/

omit [LinearOrder R] in
theorem Constructed.initialized {selected : β} {v : List R} (h : Constructed selected n v r) :
    exists op : BackendOp R, op.size = some n ∧ op.ValidInit ∧
      op.run selected = (.ok .done, r.backend) ∧ r.numQubits = n ∧ r.numStates = 2 ^ n ∧
      r.affineOverlayActive = false := by
  have hconstruct : forall {call : Call β Unit}, n ≤ 31 ->
      construct selected (initializeBackend selected n >>= fun _ => onBackend call) = .ok r ->
      call selected = (.ok (), r.backend) ∧ r.numQubits = n ∧ r.numStates = 2 ^ n ∧
        r.affineOverlayActive = false := by
    intro call hn hr
    rw [construct, Call.bind_ok (initializeBackend_eq selected (by omega) _), onBackend,
      Call.focus_apply] at hr
    rcases hcall : call selected with ⟨result, b⟩
    simp only [uninitialized, hcall] at hr
    cases result with
    | ok a =>
        cases hr
        exact ⟨rfl, rfl, rfl, rfl⟩
    | error e => cases hr
  have hcommand : forall {call : Call β Unit}, call selected = (.ok (), r.backend) ->
      BackendOp.command (R := R) call selected = (.ok .done, r.backend) :=
    fun hcall => Call.bind_ok hcall _
  cases h with
  | basis hn hs hr =>
      rcases hconstruct hn hr with ⟨hcall, hsizes⟩
      exact ⟨.initBasis n _ _, rfl, ⟨hn, hs⟩, hcommand hcall, hsizes⟩
  | amplitudes hn hv hr =>
      rcases hconstruct hn hr with ⟨hcall, hsizes⟩
      exact ⟨.loadAmplitudes n _, rfl, ⟨hn, hv⟩, hcommand hcall, hsizes⟩

theorem Constructed.checked {selected : β} {v : List R} (h : Constructed selected n v r)
    (hsize : G.Size n) : Checked G n r := by
  rcases h.initialized with ⟨op, hop, hvalid, hrun, hqubits, hstates, hinactive⟩
  have hready := G.init selected hop hvalid hsize
  rw [Does, Call.Post, hrun] at hready
  exact
    { numQubits := hqubits
      numStates := hstates
      ready := hready
      unitScale := by
        intro hactive
        rw [hinactive] at hactive
        cases hactive }

theorem Checked.operated [IsStrictOrderedRing R] (h : Checked G n r) {op : RegisterOp R}
    (hdrawn : op.Drawn) : Checked G n (op.run r).2 := by
  by_cases hop : op.ArgumentsOk n
  · have hpost := h.call hdrawn hop
    unfold Call.Post at hpost
    rcases hrun : op.run r with ⟨result, r'⟩
    rw [hrun] at hpost
    cases result with
    | ok a => exact hpost
    | error e => exact hpost.2
  · rcases h.rejects hdrawn hop with ⟨e, hrun, _⟩
    rw [hrun]
    exact h

theorem Reachable.checked [IsStrictOrderedRing R] {selected : β} (h : Reachable selected n r)
    (hsize : G.Size n) : Checked G n r := by
  induction h with
  | constructed h => exact h.checked hsize
  | operated h op hdrawn ih => exact ih.operated hdrawn
  | copied h ih => exact ih.copied

/--
Unusable arguments of a mutating operation are reported and change nothing; usable ones
of any operation are reported by no layer.
-/
def ReportsArguments (n : Nat) (r : QuantumRegister R β) : Prop :=
  forall op : RegisterOp R,
    (op.Mutates -> ¬ op.ArgumentsOk n -> Rejects op.run r) ∧
      (op.Drawn -> op.ArgumentsOk n ->
        Call.Post op.run r (fun _ _ => True) (fun e _ => op.MayThrow e.kind))

theorem RegisterOp.drawn_of_mutates {op : RegisterOp R} (h : op.Mutates) : op.Drawn := by
  cases op with
  | measure rnd => exact h.elim
  | _ => trivial

theorem Checked.reportsArguments [IsStrictOrderedRing R] (h : Checked G n r) :
    ReportsArguments n r := by
  intro op
  constructor
  · intro hmutates hop
    exact h.rejects (RegisterOp.drawn_of_mutates hmutates) hop
  · intro hdrawn hop
    exact (h.call hdrawn hop).imp (fun _ _ _ => trivial) (fun _ _ he => he.1)

/-- The compressed backend has only been initialised for sizes its layout can hold. -/
theorem Reachable.fits {B : Type} {P : CodecPolicy Real B} (hchunk : 2 * P.chunkStates < 2 ^ 64)
    {n : Nat} {r : QuantumRegister Real (CompressedStateBackend P)}
    (h : Reachable (CompressedStateBackend.make P) n r) :
    ChunkLayout.Fits (2 ^ n) P.chunkStates := by
  induction h with
  | constructed h => exact CompressedStateBackend.fits_of_constructed hchunk h
  | operated h op hdrawn ih => exact ih
  | copied h ih => exact ih

/--
Every reachable register, on the dense backend or on a lossless compressed one, reports
unusable arguments before it changes anything, and no layer reports usable ones.
-/
theorem reachable_reportsArguments {n : Nat} :
    (forall r : QuantumRegister Real (DenseStateBackend Real),
      Reachable DenseStateBackend.make n r -> ReportsArguments n r) ∧
    forall (B : Type) (P : CodecPolicy Real B), P.Lossless -> 2 * P.chunkStates < 2 ^ 64 ->
      forall r : QuantumRegister Real (CompressedStateBackend P),
        Reachable (CompressedStateBackend.make P) n r -> ReportsArguments n r := by
  constructor
  · intro r h
    exact (h.checked (G := DenseStateBackend.checksArguments) trivial).reportsArguments
  · intro B P hP hchunk r h
    exact (h.checked (G := CompressedStateBackend.checksArguments hP)
      (h.fits hchunk)).reportsArguments

def pendingInversion : List (RegisterOp Real) :=
  [.beginOperationBatch, .applyHadamard 0, .applyInversionAboutMean]

theorem Reachable.pendingInversion {β : Type} [IStateBackend Real β] {selected : β} {n : Nat}
    {r : QuantumRegister Real β} (h : Reachable selected n r) :
    Reachable selected n (reached RegisterOp.run QuantumRegister.pendingInversion r) :=
  ((h.operated .beginOperationBatch trivial).operated (.applyHadamard 0) trivial).operated
    .applyInversionAboutMean trivial

/-- Registers of one qubit, with two chunks on the compressed backend. -/
theorem reachable_reportsArguments_pending :
    (exists r : DenseRegister Real,
      DenseRegister.ofAmplitudes 1 [1, 0, 0, 0] = .ok r ∧
        (reached RegisterOp.run pendingInversion r).affineOverlayActive = true ∧
        ReportsArguments 1 (reached RegisterOp.run pendingInversion r)) ∧
    exists r : QuantumRegister Real (CompressedStateBackend plainCodec),
      Constructed (CompressedStateBackend.make plainCodec) 1 [1, 0, 0, 0] r ∧
        ReportsArguments 1 (reached RegisterOp.run pendingInversion r) := by
  constructor
  · rcases DenseRegister.exists_ofAmplitudes (v := [(1 : Real), 0, 0, 0]) (n := 1) (by decide) rfl
      with ⟨r, hr, _⟩
    refine ⟨r, hr, ?_, ?_⟩
    · cases hr
      rfl
    · exact reachable_reportsArguments.1 _
        (Reachable.constructed (.amplitudes (by decide) rfl hr)).pendingInversion
  · rcases exists_compressed [1, 0, 0, 0] rfl with ⟨r, hr, _⟩
    refine ⟨r, hr, ?_⟩
    exact reachable_reportsArguments.2 Real plainCodec lossless_plainCodec (by decide) _
      (Reachable.constructed hr).pendingInversion

end QuantumRegister

end Tmfqs
