import Tmfqs.Model.FactoryGates
import Tmfqs.Sim.CircuitProbability
import Tmfqs.State.DenseStates

/-!
# Undoing a run

Every operation of a circuit is undone by an operation of the same kind.  So a circuit of
gates from the factories is undone by the operations that undo its own, in reverse.
-/

namespace Tmfqs

open Library StateVector QuantumGate

namespace Operation

def Made : Operation Real -> Prop
  | matrixGate gate _ => gate.Made
  | _ => True

theorem Made.unitary {op : Operation Real} (h : op.Made) : op.Unitary := by
  cases op with
  | matrixGate gate targets => exact QuantumGate.Made.unitary h
  | _ => trivial

/-- The operation takes every vector back to where the other came from. -/
def Undoes (n : Nat) (undo op : Operation Real) : Prop :=
  forall v : List Real, v.length = 2 * 2 ^ n -> undo.apply n (op.apply n v) = v

variable {n : Nat}

theorem undoes_of_gates (hn : n ≤ 31) {undo op : Operation Real} {gate gate' : QuantumGate Real}
    {qubits : List Nat} (h : ValidTargets qubits n gate.dimension) (hunitary : gate.Unitary)
    (hadjoint : Adjoint gate gate')
    (hop : forall v : List Real, v.length = 2 * 2 ^ n ->
      blockGate gate qubits n v = op.apply n v)
    (hundo : forall v : List Real, v.length = 2 * 2 ^ n ->
      blockGate gate' qubits n v = undo.apply n v) :
    Undoes n undo op := by
  intro v hv
  have hlen : (op.apply n v).length = 2 * 2 ^ n := by
    rw [← hop v hv]
    exact length_blockGate hn h hv
  rw [← hundo _ hlen, ← hop v hv, blockGate_adjoint hn h hunitary hadjoint hv]

theorem blockGate_phase (hn : n ≤ 31) {control target : Nat}
    (h : control < n ∧ target < n ∧ control ≠ target) (theta : Real) {v : List Real}
    (hv : v.length = 2 * 2 ^ n) :
    blockGate (ControlledPhaseShift theta) [control, target] n v =
      StateVector.controlledPhaseShift n control target theta v := by
  refine blockGate_controlledPhaseShift theta hn h.1 h.2.1 h.2.2 hv rfl ?_ ?_ ?_
  · intro row col hrow hcol hne
    refine (entry_ofEntries _ hrow hcol).trans ?_
    rw [if_neg (by omega), if_neg hne]
  · intro row hrow
    refine (entry_ofEntries _ (by omega) (by omega)).trans ?_
    rw [if_neg (by omega), if_pos rfl]
  · refine (entry_ofEntries _ (by decide) (by decide)).trans ?_
    rw [if_pos ⟨rfl, rfl⟩]
    exact complexExp_imag theta

theorem undoes_phaseFlip {state : Nat} (hstate : state < 2 ^ n) :
    Undoes n (.phaseFlipBasisState state) (.phaseFlipBasisState state) := by
  intro v hv
  have hflip : forall w : List Real, w.length = 2 * 2 ^ n -> forall s,
      ampAt (phaseFlip w state) s = if s = state then (ampAt w state).negate else ampAt w s := by
    intro w hw s
    exact ampAt_setAmp s _ (by omega)
  have hlen := (length_phaseFlip v state).trans hv
  apply eq_of_ampAt ((length_phaseFlip _ state).trans hlen) hv
  intro s _
  rw [hflip _ hlen, hflip v hv, hflip v hv, if_pos rfl]
  split_ifs with hs
  · rw [hs, Amplitude.negate, Amplitude.negate, neg_neg, neg_neg]
  · rfl

theorem undoes_inversionAboutMean (materialized : Bool) :
    Undoes n (.inversionAboutMean materialized) (.inversionAboutMean materialized) := by
  intro v hv
  have hN : ((2 ^ n : Nat) : Real) ≠ 0 := by
    exact_mod_cast (Nat.two_pow_pos n).ne'
  have hmean : mean n (reflect (mean n v) v) = mean n v := by
    rw [mean, amplitudeSum_reflect hv]
    apply Amplitude.eq_of_parts
    · simp only [mean]
      field_simp
      ring
    · simp only [mean]
      field_simp
      ring
  have htwice : forall m a : Amplitude Real, reflectAmp m (reflectAmp m a) = a := by
    intro m a
    apply Amplitude.eq_of_parts <;> simp [reflectAmp]
  change reflect (mean n (reflect (mean n v) v)) (reflect (mean n v) v) = v
  rw [hmean, reflect, reflect, mapAmplitudes_mapAmplitudes, funext (htwice (mean n v)),
    mapAmplitudes_id]

theorem exists_undoes (hn : n ≤ 31) {op : Operation Real} (hvalid : op.Valid n)
    (hmade : op.Made) :
    exists undo : Operation Real, undo.Valid n ∧ undo.Made ∧ Undoes n undo op := by
  cases op with
  | hadamard target =>
      have hact : forall v : List Real, v.length = 2 * 2 ^ n ->
          blockGate Hadamard [target] n v = StateVector.hadamard n target v :=
        fun v hv => blockGate_hadamard hn hvalid hv rfl fun _ _ _ _ => rfl
      exact ⟨.hadamard target, hvalid, trivial, undoes_of_gates hn (ValidTargets.one hvalid rfl)
        unitary_hadamard adjoint_hadamard hact hact⟩
  | pauliX target =>
      have hact : forall v : List Real, v.length = 2 * 2 ^ n ->
          blockGate PauliX [target] n v = StateVector.pauliX n target v :=
        fun v hv => blockGate_pauliX hn hvalid hv rfl fun _ _ _ _ => rfl
      exact ⟨.pauliX target, hvalid, trivial, undoes_of_gates hn (ValidTargets.one hvalid rfl)
        unitary_pauliX exchanges_pauliX.adjoint hact hact⟩
  | controlledNot control target =>
      have hact : forall v : List Real, v.length = 2 * 2 ^ n ->
          blockGate ControlledNot [control, target] n v =
            StateVector.controlledNot n control target v :=
        fun v hv => blockGate_controlledNot hn hvalid.1 hvalid.2.1 hvalid.2.2 hv rfl
          fun _ _ _ _ => rfl
      exact ⟨.controlledNot control target, hvalid, trivial, undoes_of_gates hn
        (ValidTargets.two hvalid.1 hvalid.2.1 hvalid.2.2 rfl) unitary_controlledNot
        exchanges_controlledNot.adjoint hact hact⟩
  | controlledPhaseShift control target theta =>
      exact ⟨.controlledPhaseShift control target (-theta), hvalid, trivial, undoes_of_gates hn
        (ValidTargets.two hvalid.1 hvalid.2.1 hvalid.2.2 rfl) (unitary_controlledPhaseShift theta)
        (adjoint_controlledPhaseShift theta) (fun v hv => blockGate_phase hn hvalid theta hv)
        (fun v hv => blockGate_phase hn hvalid (-theta) hv)⟩
  | swap first second =>
      have hact : forall v : List Real, v.length = 2 * 2 ^ n ->
          blockGate Swap [first, second] n v = StateVector.swap n first second v :=
        fun v hv => blockGate_swap hn hvalid.1 hvalid.2.1 hvalid.2.2 hv
      exact ⟨.swap first second, hvalid, trivial, undoes_of_gates hn
        (ValidTargets.two hvalid.1 hvalid.2.1 hvalid.2.2 rfl) exchanges_swap.unitary
        exchanges_swap.adjoint hact hact⟩
  | matrixGate gate targets =>
      rcases QuantumGate.Made.exists_adjoint hmade with ⟨gate', hmade', hadjoint⟩
      have hvalid' : ValidTargets targets n gate.dimension := hvalid
      refine ⟨.matrixGate gate' targets, ?_, hmade', undoes_of_gates hn hvalid'
        (QuantumGate.Made.unitary hmade) hadjoint (fun _ _ => rfl) (fun _ _ => rfl)⟩
      change ValidTargets targets n gate'.dimension
      rw [hadjoint.dimension]
      exact hvalid'
  | phaseFlipBasisState state =>
      exact ⟨.phaseFlipBasisState state, hvalid, trivial, undoes_phaseFlip hvalid⟩
  | inversionAboutMean materialized =>
      exact ⟨.inversionAboutMean materialized, hvalid, trivial,
        undoes_inversionAboutMean materialized⟩

theorem exists_undoesAll (hn : n ≤ 31) {ops : List (Operation Real)}
    (hops : forall op, op ∈ ops -> op.Valid n ∧ op.Made) :
    exists undos : List (Operation Real), undos.length = ops.length ∧
      (forall op, op ∈ undos -> op.Valid n ∧ op.Made) ∧
      forall v : List Real, v.length = 2 * 2 ^ n -> applyAll n undos (applyAll n ops v) = v := by
  induction ops with
  | nil =>
      refine ⟨[], rfl, ?_, fun v _ => rfl⟩
      intro op hop
      cases hop
  | cons op rest ih =>
      have hop := hops op List.mem_cons_self
      rcases exists_undoes hn hop.1 hop.2 with ⟨undo, hvalid, hmade, hundo⟩
      rcases ih (fun op' hop' => hops op' (List.mem_cons_of_mem op hop')) with
        ⟨undos, hlength, hundos, hback⟩
      refine ⟨undos ++ [undo], by rw [List.length_append, hlength]; rfl, ?_, ?_⟩
      · intro op' hop'
        rcases List.mem_append.mp hop' with hrest | hlast
        · exact hundos op' hrest
        · rw [List.mem_singleton.mp hlast]
          exact ⟨hvalid, hmade⟩
      · intro v hv
        have hlen := length_apply hn hv hop.1
        rw [applyAll_append, applyAll_cons n op, hback _ hlen]
        exact hundo v hv

end Operation

namespace Simulator

open Operation

/--
For every circuit of gates from the factories there is a circuit of this kind, of the same
length, that takes the state after a run back to the amplitudes before it.
-/
theorem run_undone {n : Nat} (hn : n ≤ 31) {circuit : Circuit Real} (hqubits : circuit.qubits = n)
    (hcircuit : forall op, op ∈ circuit.operations -> op.Valid n ∧ op.Made) :
    exists undo : Circuit Real, undo.qubits = n ∧
      undo.operations.length = circuit.operations.length ∧
      (forall op, op ∈ undo.operations -> op.Valid n ∧ op.Made) ∧
      forall v (start : QuantumState Real (DenseStateBackend Real)), start.Denotes n v ->
        exists final back, run DenseStateBackend.make circuit start = .ok final ∧
          run DenseStateBackend.make undo final = .ok back ∧
          (final.totalProbability DenseStateBackend.make).1 =
            (start.totalProbability DenseStateBackend.make).1 ∧
          (start.amplitudes DenseStateBackend.make).1 = .ok v ∧
          (back.amplitudes DenseStateBackend.make).1 = .ok v := by
  rcases exists_undoesAll hn hcircuit with ⟨undos, hlength, hundos, hback⟩
  refine ⟨⟨n, undos⟩, rfl, hlength, hundos, ?_⟩
  intro v start hstart
  rcases run_denotes hstart hqubits (fun op hop => (hcircuit op hop).1) with
    ⟨final, hrun, hfinal⟩
  have hundone : exists back, run DenseStateBackend.make ⟨n, undos⟩ final = .ok back ∧
      back.Denotes n (applyAll n undos (applyAll n circuit.operations v)) :=
    run_denotes hfinal rfl fun op hop => (hundos op hop).1
  rw [hback v hstart.length] at hundone
  rcases hundone with ⟨back, hrun', hback'⟩
  refine ⟨final, back, hrun, hrun', ?_, hstart.amplitudes_eq, hback'.amplitudes_eq⟩
  rw [hfinal.totalProbability_eq, hstart.totalProbability_eq,
    totalProbability_applyAll hn (fun op hop => (hcircuit op hop).1)
      (fun op hop => (hcircuit op hop).2.unitary) hstart.length]

theorem run_undone_toffoli :
    let circuit : Circuit Real :=
      { qubits := 3
        operations :=
          [.hadamard 0, .matrixGate Toffoli [2, 0, 1],
            .matrixGate (PauliY.scale { real := 0, imag := 1 }) [1], .inversionAboutMean false] }
    exists undo : Circuit Real, undo.qubits = 3 ∧
      undo.operations.length = circuit.operations.length ∧
      (forall op, op ∈ undo.operations -> op.Valid 3 ∧ op.Made) ∧
      forall v (start : QuantumState Real (DenseStateBackend Real)), start.Denotes 3 v ->
        exists final back, run DenseStateBackend.make circuit start = .ok final ∧
          run DenseStateBackend.make undo final = .ok back ∧
          (final.totalProbability DenseStateBackend.make).1 =
            (start.totalProbability DenseStateBackend.make).1 ∧
          (start.amplitudes DenseStateBackend.make).1 = .ok v ∧
          (back.amplitudes DenseStateBackend.make).1 = .ok v := by
  intro circuit
  refine run_undone (by decide) rfl ?_
  have hphase : ({ real := 0, imag := 1 } : Amplitude Real).probability = 1 := by
    norm_num [Amplitude.probability]
  have htoffoli : ValidTargets [2, 0, 1] 3 (Toffoli : QuantumGate Real).dimension :=
    ⟨rfl, by decide, by decide⟩
  simp only [circuit, List.mem_cons, List.not_mem_nil, or_false, forall_eq_or_imp, forall_eq]
  exact ⟨⟨show 0 < 3 by decide, trivial⟩, ⟨htoffoli, .toffoli⟩,
    ⟨ValidTargets.one (by decide) rfl, .scale .pauliY hphase⟩, trivial, trivial⟩

end Simulator

end Tmfqs
