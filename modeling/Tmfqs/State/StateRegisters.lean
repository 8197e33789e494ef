import Tmfqs.Register.ShownRegister
import Tmfqs.Sim.CircuitRuns
import Tmfqs.Storage.RejectedCalls

/-!
# Registers of states

The registers a state holds or makes.  Up to 31 qubits such a register is checked.  From
32 qubits on only a dense load returns: the register it leaves narrows its number of
states to zero, and every call on its backend throws.
-/

namespace Tmfqs

open Library

abbrev Fails {σ α : Type} (x : Call σ α) (s : σ) : Prop :=
  Call.Post x s (fun _ _ => False) (fun _ _ => True)

section Failing

variable {σ α δ : Type} {x : Call σ α} {s : σ}

theorem Refused.fails (h : Refused x s) : Fails x s := by
  rcases h with ⟨e, he⟩
  exact Call.post_of_error he trivial

theorem fails_throw (e : Exc) : Fails (throw e : Call σ α) s :=
  (refused_throw e s).fails

theorem Fails.bind (h : Fails x s) (f : α -> Call σ δ) : Fails (x >>= f) s := by
  rw [Fails, Call.post_bind_iff]
  exact h.imp (fun _ _ hfalse => hfalse.elim) (fun _ _ _ => trivial)

theorem Fails.after {f : α -> Call σ δ} (hx : Call.Keeps id x) (hf : forall a, Fails (f a) s) :
    Fails (x >>= f) s := by
  have hkeep := hx s
  unfold Fails Call.Post
  rw [Call.bind_apply]
  rcases hrun : x s with ⟨result, s'⟩
  rw [hrun] at hkeep
  cases result with
  | ok a =>
      have hsame : s' = s := hkeep
      rw [hsame]
      exact hf a
  | error e => trivial

theorem Fails.ne_ok (h : Fails x s) {a : α} {s' : σ} : x s ≠ (.ok a, s') := by
  intro hrun
  unfold Fails Call.Post at h
  rw [hrun] at h
  exact h

end Failing

/-!
## Initialising calls of 32 qubits and more
-/

section Large

variable {R : Type} [Field R] [LinearOrder R] [CMath R] {n : Nat}

omit [LinearOrder R] [CMath R] in
theorem DenseStateBackend.fails_initBasis_large (b : DenseStateBackend R) (hlarge : 31 < n)
    (hn : n ≤ 63) (s : Nat) (amp : Amplitude R) : Fails (initBasis n s amp) b := by
  rcases initZero_large b hlarge hn with ⟨b', hb', hzero⟩
  rw [Fails, initBasis, Call.post_bind_iff]
  refine Call.post_of_ok hb' ?_
  apply Fails.bind
  rw [validateState, Fails, Call.post_bind_iff, Call.post_get, validateStateIndex, hzero,
    if_pos (show s ≥ u32 0 from Nat.zero_le s)]
  exact fails_throw _

omit [Field R] [LinearOrder R] [CMath R] in
theorem DenseStateBackend.post_loadAmplitudes_large (b : DenseStateBackend R) (hlarge : 31 < n)
    (hn : n ≤ 63) (data : List R) :
    Call.Post (loadAmplitudes n data) b (fun _ b' => b'.numStates = 0) (fun _ _ => True) := by
  by_cases hdata : data.length = u64 (2 ^ n * 2)
  · rcases loadAmplitudes_large b hlarge hn hdata with ⟨b', hb', hzero⟩
    exact Call.post_of_ok hb' hzero
  · rw [loadAmplitudes, Call.post_bind_iff]
    refine Call.post_of_ok (setSize_large b hlarge hn) ?_
    rw [checkedAmplitudeElementCount_le hn, pure_bind, if_pos hdata]
    exact trivial

variable {B : Type} {P : CodecPolicy R B}

section

omit [LinearOrder R] [CMath R]

omit [Field R] in
theorem CompressedStateBackend.fails_configureStorage_large (b : CompressedStateBackend P)
    (hlarge : 31 < n) (hn : n ≤ 63) : Fails (configureStorage n) b :=
  (configureStorage_large b hlarge hn).imp (fun _ _ hfalse => hfalse) (fun _ _ _ => trivial)

theorem CompressedStateBackend.fails_initBasis_large (b : CompressedStateBackend P)
    (hlarge : 31 < n) (hn : n ≤ 63) (s : Nat) (amp : Amplitude R) :
    Fails (initBasis n s amp) b := by
  rw [initBasis, initZero]
  apply Fails.bind
  exact (fails_configureStorage_large b hlarge hn).bind _

omit [Field R] in
theorem CompressedStateBackend.fails_loadAmplitudes_large (b : CompressedStateBackend P)
    (hlarge : 31 < n) (hn : n ≤ 63) (data : List R) : Fails (loadAmplitudes n data) b := by
  rw [loadAmplitudes]
  exact (fails_configureStorage_large b hlarge hn).bind _

end

end Large

namespace AnyBackend

variable {R ι : Type} [Field R] [LinearOrder R] [CMath R] {B : ι -> Type}
  {P : forall i, CodecPolicy R (B i)} {n : Nat}

section Dense

variable {b b' : DenseStateBackend R}

omit [Field R] [LinearOrder R] [CMath R] in
theorem dispatch_dense {α : Type} {x : forall c, Call (BackendClass.Object P c) α}
    {r : Except Exc α} (h : x .dense b = (r, b')) :
    dispatch x (dense b) = (r, dense b') := by
  change ((x .dense b).1, (⟨.dense, (x .dense b).2⟩ : AnyBackend P)) = _
  rw [h]
  rfl

theorem refused_dense {op : BackendOp R} (h : Refused op.run b) :
    Refused op.run (dense b : AnyBackend P) := by
  rcases h with ⟨e, he⟩
  rw [BackendOp.run_dispatch]
  exact ⟨e, dispatch_dense he⟩

end Dense

theorem fails_initBasis_large (b : AnyBackend P) (hlarge : 31 < n) (hn : n ≤ 63) (s : Nat)
    (amp : Amplitude R) : Fails (IStateBackend.initBasis n s amp) b := by
  rcases b with ⟨c, b⟩
  apply post_dispatch_iff.mpr
  cases c with
  | dense => exact DenseStateBackend.fails_initBasis_large b hlarge hn s amp
  | compressed i => exact CompressedStateBackend.fails_initBasis_large b hlarge hn s amp

theorem post_loadAmplitudes_large (b : AnyBackend P) (hlarge : 31 < n) (hn : n ≤ 63)
    (data : List R) :
    Call.Post (IStateBackend.loadAmplitudes n data) b
      (fun _ b' => exists d : DenseStateBackend R, b' = dense d ∧ d.numStates = 0)
      (fun _ _ => True) := by
  rcases b with ⟨c, b⟩
  apply post_dispatch_iff.mpr
  cases c with
  | dense =>
      exact (DenseStateBackend.post_loadAmplitudes_large b hlarge hn data).imp
        (fun _ d hd => ⟨d, rfl, hd⟩) (fun _ _ _ => trivial)
  | compressed i =>
      exact (CompressedStateBackend.fails_loadAmplitudes_large b hlarge hn data).imp
        (fun _ _ hfalse => hfalse.elim) (fun _ _ _ => trivial)

end AnyBackend

namespace QuantumRegister

variable {R ι : Type} [Field R] [LinearOrder R] [CMath R] {B : ι -> Type}
  {P : forall i, CodecPolicy R (B i)}

/-!
## Shut registers
-/

/-- No overlay, no cached sum, and a dense backend that has no state index. -/
structure Shut (r : QuantumRegister R (AnyBackend P)) : Prop where
  inactive : r.affineOverlayActive = false
  noSum : r.cachedLogicalAmplitudeSum = none
  backend : exists b : DenseStateBackend R, r.backend = AnyBackend.dense b ∧ b.numStates = 0

namespace Shut

variable {r : QuantumRegister R (AnyBackend P)}

theorem copied (h : Shut r) : Shut r.copy where
  inactive := h.inactive
  noSum := h.noSum
  backend := by
    rcases h.backend with ⟨b, hb, hzero⟩
    refine ⟨b, ?_, hzero⟩
    rw [copy, hb]
    rfl

theorem refused (h : Shut r) {op : BackendOp R} (hop : op.NeedsState) :
    Refused op.run r.backend := by
  rcases h.backend with ⟨b, hb, hzero⟩
  rw [hb]
  exact AnyBackend.refused_dense (DenseStateBackend.refused_run hzero hop)

omit [Field R] [LinearOrder R] [CMath R] in
theorem refused_onBackend {α : Type} {x : Call (AnyBackend P) α} {f : α -> Answer R}
    (hx : Refused (x >>= fun a => pure (f a)) r.backend) : Refused (onBackend x) r := by
  rcases hx with ⟨e, he⟩
  rw [Call.bind_apply] at he
  rcases hrun : x r.backend with ⟨result, b⟩
  rw [hrun] at he
  cases result with
  | ok a => cases he
  | error e' =>
      have hb : b = r.backend := congrArg Prod.snd he
      refine ⟨e', ?_⟩
      rw [onBackend, Call.focus_apply, hrun, hb]

theorem refused_visitLogicalAmplitudeChunks (h : Shut r) :
    Refused visitLogicalAmplitudeChunks r := by
  have hrefused : Refused (BackendOp.forEachAmplitudeChunk : BackendOp R).run r.backend :=
    h.refused trivial
  apply Refused.after (Call.get_apply r)
  exact (refused_onBackend hrefused).bind _

theorem refused_amplitudes (h : Shut r) : Refused amplitudes r := by
  apply Refused.after (Call.get_apply r)
  exact h.refused_visitLogicalAmplitudeChunks.bind _

theorem fails_logicalMean (h : Shut r) : Fails logicalMean r := by
  rw [logicalMean]
  apply Fails.bind
  rw [Fails, logicalAmplitudeSum, Call.post_bind_iff, Call.post_get, h.noSum]
  exact h.refused_visitLogicalAmplitudeChunks.fails.bind _

theorem flush (h : Shut r) : flushAffineOverlay r = (.ok (), r) := by
  rw [flushAffineOverlay, Call.bind_apply, Call.get_apply]
  simp only [h.inactive, Bool.false_eq_true, if_false]
  rfl

theorem fails_applyFlushed (h : Shut r) (op : BackendOp R) {gate : Call (AnyBackend P) Unit}
    (hrun : op.run = BackendOp.command gate) (hop : op.NeedsState) :
    Fails (applyFlushed gate) r := by
  have hrefused : Refused op.run r.backend := h.refused hop
  rw [hrun] at hrefused
  rw [Fails, applyFlushed, Call.post_bind_iff]
  refine Call.post_of_ok h.flush ?_
  exact (refused_onBackend hrefused).fails.bind _

omit [Field R] [LinearOrder R] [CMath R] in
theorem keeps_validateTwoQubits (scopeName : String) (q0 q1 : Nat) :
    Call.Keeps id (validateTwoQubits scopeName q0 q1 :
      Call (QuantumRegister R (AnyBackend P)) Unit) :=
  Call.keeps_get.bind fun _ => (keeps_validateQubitIndex _ _ _).bind fun _ =>
    (keeps_validateQubitIndex _ _ _).bind fun _ => keeps_validateDistinctQubits _ _ _

theorem fails_applyControlledNot (h : Shut r) (control target : Nat) :
    Fails (applyControlledNot control target) r := by
  apply Fails.after (keeps_validateTwoQubits _ _ _)
  intro _
  exact h.fails_applyFlushed (.applyControlledNot control target) rfl trivial

theorem fails_executeOperation (h : Shut r) (op : Operation R) :
    Fails (Simulator.executeOperation op) r := by
  cases op with
  | hadamard target =>
      rw [Simulator.executeOperation, applyHadamard, Fails, Call.post_bind_iff, Call.post_get]
      apply Fails.after (keeps_validateQubitIndex _ _ _)
      intro _
      exact h.fails_applyFlushed (.applyHadamard target) rfl trivial
  | pauliX target =>
      rw [Simulator.executeOperation, applyPauliX, Fails, Call.post_bind_iff, Call.post_get]
      apply Fails.after (keeps_validateQubitIndex _ _ _)
      intro _
      exact h.fails_applyFlushed (.applyPauliX target) rfl trivial
  | controlledNot control target => exact h.fails_applyControlledNot control target
  | controlledPhaseShift control target theta =>
      apply Fails.after (keeps_validateTwoQubits _ _ _)
      intro _
      exact h.fails_applyFlushed (.applyControlledPhaseShift control target theta) rfl trivial
  | swap first second =>
      apply Fails.after (keeps_validateTwoQubits _ _ _)
      intro _
      exact (h.fails_applyControlledNot first second).bind _
  | matrixGate gate targets =>
      rw [Simulator.executeOperation, applyGate, Fails, Call.post_bind_iff, Call.post_get]
      apply Fails.after (keeps_validateGateTargets _ _ _ _)
      intro _
      exact h.fails_applyFlushed (.applyGate gate targets) rfl trivial
  | phaseFlipBasisState state =>
      have hrefused : Refused (BackendOp.phaseFlipBasisState state : BackendOp R).run r.backend :=
        h.refused trivial
      rw [Simulator.executeOperation, applyPhaseFlipBasisState, Fails, Call.post_bind_iff,
        Call.post_get]
      apply Fails.after (keeps_validateStateIndex _ _ _)
      intro _
      simp only [h.noSum, h.inactive, Option.isSome_none, Bool.or_self, Bool.false_eq_true, if_false]
      exact (refused_onBackend hrefused).fails
  | inversionAboutMean materialized =>
      cases materialized with
      | true => exact h.fails_logicalMean.bind _
      | false => exact h.fails_logicalMean.bind _

end Shut

/-!
## Registers after a run
-/

section Runs

variable [IsStrictOrderedRing R] {round : forall _ : ι, List R -> List R}
  {hR : forall i, (P i).Rounds (round i)}
  {hfits : forall i, ChunkLayout.Fits (2 ^ 31) (P i).chunkStates} {n : Nat}
  {r : QuantumRegister R (AnyBackend P)}

def Held (hR : forall i, (P i).Rounds (round i))
    (hfits : forall i, ChunkLayout.Fits (2 ^ 31) (P i).chunkStates) (n : Nat)
    (r : QuantumRegister R (AnyBackend P)) : Prop :=
  Checked (AnyBackend.checksArguments hR hfits) n r ∨ (r.numQubits = n ∧ Shut r)

omit [IsStrictOrderedRing R] in
theorem Held.numQubits (h : Held hR hfits n r) : r.numQubits = n := by
  cases h with
  | inl hchecked => exact hchecked.numQubits
  | inr hshut => exact hshut.1

omit [IsStrictOrderedRing R] in
theorem Held.copied (h : Held hR hfits n r) : Held hR hfits n r.copy := by
  cases h with
  | inl hchecked => exact Or.inl hchecked.copied
  | inr hshut => exact Or.inr ⟨hshut.1, hshut.2.copied⟩

/-- When the call returns the register is held. -/
abbrev Holding {α : Type} (hR : forall i, (P i).Rounds (round i))
    (hfits : forall i, ChunkLayout.Fits (2 ^ 31) (P i).chunkStates) (n : Nat)
    (x : Call (QuantumRegister R (AnyBackend P)) α) : Prop :=
  Call.Maintains (Held hR hfits n) (fun _ _ => True) x

theorem post_of_operated (op : RegisterOp R) {x : Call (QuantumRegister R (AnyBackend P)) Unit}
    (hrun : op.run = BackendOp.command x) (hdrawn : op.Drawn)
    (h : Checked (AnyBackend.checksArguments hR hfits) n r) :
    Call.Post x r (fun _ r' => Held hR hfits n r') (fun _ _ => True) := by
  have hchecked := h.operated hdrawn
  rw [hrun, command_state] at hchecked
  unfold Call.Post
  rcases hx : x r with ⟨result, r'⟩
  rw [hx] at hchecked
  cases result with
  | ok a => exact Or.inl hchecked
  | error e => trivial

omit [IsStrictOrderedRing R] in
theorem executeOperation_run (op : Operation R) :
    op.registerOp.run = BackendOp.command (Simulator.executeOperation op :
      Call (QuantumRegister R (AnyBackend P)) Unit) := by
  cases op with
  | inversionAboutMean materialized =>
      cases materialized with
      | true => rfl
      | false => rfl
  | _ => rfl

omit [CMath R] [IsStrictOrderedRing R] in
theorem drawn_registerOp (op : Operation R) : op.registerOp.Drawn := by
  cases op with
  | inversionAboutMean materialized =>
      cases materialized with
      | true => trivial
      | false => trivial
  | _ => trivial

theorem holding_executeOperation (op : Operation R) :
    Holding hR hfits n (Simulator.executeOperation op) := by
  intro r h
  cases h with
  | inl hchecked =>
      exact post_of_operated op.registerOp (executeOperation_run op) (drawn_registerOp op) hchecked
  | inr hshut =>
      exact (hshut.2.fails_executeOperation op).imp (fun _ _ hfalse => hfalse.elim)
        (fun _ _ _ => trivial)

omit [Field R] [LinearOrder R] [CMath R] [IsStrictOrderedRing R] in
theorem Shut.batch {x : Call (AnyBackend P) Unit} (h : Shut r)
    (hx : forall b : DenseStateBackend R,
      x (AnyBackend.dense b) = (.ok (), AnyBackend.dense b)) : onBackend x r = (.ok (), r) := by
  rcases h.backend with ⟨b, hb, _⟩
  rw [onBackend, Call.focus_apply, hb, hx, ← hb]

theorem holding_beginOperationBatch : Holding hR hfits n beginOperationBatch := by
  intro r h
  cases h with
  | inl hchecked => exact post_of_operated .beginOperationBatch rfl trivial hchecked
  | inr hshut => exact Call.post_of_ok (hshut.2.batch fun _ => rfl) (Or.inr hshut)

theorem holding_endOperationBatch : Holding hR hfits n endOperationBatch := by
  intro r h
  cases h with
  | inl hchecked => exact post_of_operated .endOperationBatch rfl trivial hchecked
  | inr hshut => exact Call.post_of_ok (hshut.2.batch fun _ => rfl) (Or.inr hshut)

theorem holding_runBatch (ops : List (Operation R)) :
    Holding hR hfits n (Simulator.runBatch ops) := by
  have hblock : Holding hR hfits n (Simulator.runOperations ops) :=
    (Call.Maintains.forM fun op _ => holding_executeOperation op).bind
      fun _ => holding_endOperationBatch
  apply holding_beginOperationBatch.bind
  intro _ r h
  have hpost := hblock r h
  unfold Call.Post at hpost ⊢
  rw [Simulator.closingBatch]
  rcases hrun : Simulator.runOperations ops r with ⟨result, r'⟩
  rw [hrun] at hpost
  cases result with
  | ok a => exact hpost
  | error e => trivial

end Runs

end QuantumRegister

end Tmfqs
