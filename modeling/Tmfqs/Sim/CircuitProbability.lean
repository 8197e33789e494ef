import Tmfqs.Model.Probability
import Tmfqs.Sim.CircuitRuns

/-!
# Circuits keep the total probability

Every operation keeps it, unitary gates included, and so does a whole run.
-/

namespace Tmfqs

open Library

namespace Operation

def Unitary : Operation Real -> Prop
  | matrixGate gate _ => gate.Unitary
  | _ => True

variable {n : Nat} {v : List Real}

theorem totalProbability_apply (hn : n ≤ 31) (hv : v.length = 2 * 2 ^ n) {op : Operation Real}
    (hvalid : op.Valid n) (hunitary : op.Unitary) :
    StateVector.totalProbability (op.apply n v) = StateVector.totalProbability v := by
  have hbit : forall {q : Nat}, q < n -> n - q - 1 < n := by
    intro q hq
    omega
  have hnot : forall {c q : Nat} {w : List Real}, q < n -> w.length = 2 * 2 ^ n ->
      StateVector.totalProbability (StateVector.controlledNot n c q w) =
        StateVector.totalProbability w := by
    intro c q w hq hw
    exact StateVector.totalProbability_pairKernel
      (StateVector.keepsProbability_controlledNotPair _) (hbit hq) hw
  cases op with
  | hadamard target =>
      exact StateVector.totalProbability_pairKernel StateVector.keepsProbability_hadamardPair
        (hbit hvalid) hv
  | pauliX target =>
      exact StateVector.totalProbability_pairKernel StateVector.keepsProbability_pauliXPair
        (hbit hvalid) hv
  | controlledNot control target => exact hnot hvalid.2.1 hv
  | controlledPhaseShift control target theta =>
      exact StateVector.totalProbability_pairKernel
        (StateVector.keepsProbability_controlledPhaseShiftPair _ theta) (hbit hvalid.2.1) hv
  | swap first second =>
      have hlen : forall {c q : Nat} {w : List Real}, w.length = 2 * 2 ^ n ->
          (StateVector.controlledNot n c q w).length = 2 * 2 ^ n :=
        fun hw => (StateVector.length_pairKernel _ n _ _).trans hw
      rw [apply, StateVector.swap, hnot hvalid.2.1 (hlen (hlen hv)),
        hnot hvalid.1 (hlen hv), hnot hvalid.2.1 hv]
  | matrixGate gate targets =>
      exact StateVector.totalProbability_blockGate hn hvalid hunitary hv
  | phaseFlipBasisState state => exact StateVector.totalProbability_phaseFlip hv hvalid
  | inversionAboutMean materialized => exact StateVector.totalProbability_reflect_mean hv

theorem totalProbability_applyAll (hn : n ≤ 31) {ops : List (Operation Real)}
    (hvalid : forall op, op ∈ ops -> op.Valid n) (hunitary : forall op, op ∈ ops -> op.Unitary) :
    forall {v : List Real}, v.length = 2 * 2 ^ n ->
      StateVector.totalProbability (applyAll n ops v) = StateVector.totalProbability v := by
  induction ops with
  | nil =>
      intro v _
      rfl
  | cons op rest ih =>
      intro v hv
      have hop := hvalid op List.mem_cons_self
      rw [applyAll_cons,
        ih (fun op' hop' => hvalid op' (List.mem_cons_of_mem op hop'))
          (fun op' hop' => hunitary op' (List.mem_cons_of_mem op hop')) (length_apply hn hv hop),
        totalProbability_apply hn hv hop (hunitary op List.mem_cons_self)]

end Operation

namespace Simulator

/-- A run of valid operations ends with the total probability it started with. -/
theorem run_keeps_totalProbability {n : Nat} {v : List Real}
    {initialState : QuantumState Real (DenseStateBackend Real)}
    (h : initialState.Denotes n v) {circuit : Circuit Real} (hqubits : circuit.qubits = n)
    (hvalid : forall op, op ∈ circuit.operations -> op.Valid n)
    (hunitary : forall op, op ∈ circuit.operations -> op.Unitary) :
    exists finalState, run DenseStateBackend.make circuit initialState = .ok finalState ∧
      exists p, (initialState.totalProbability DenseStateBackend.make).1 = .ok p ∧
        (finalState.totalProbability DenseStateBackend.make).1 = .ok p := by
  obtain ⟨finalState, hrun, hfinal⟩ := run_denotes h hqubits hvalid
  refine ⟨finalState, hrun, _, h.totalProbability_eq, ?_⟩
  rw [hfinal.totalProbability_eq,
    Operation.totalProbability_applyAll h.qubits_le hvalid hunitary h.length]

theorem run_keeps_totalProbability_pauliX :
    exists finalState : QuantumState Real (DenseStateBackend Real),
      run (R := Real) DenseStateBackend.make
          { qubits := 1
            operations :=
              [.hadamard 0, .matrixGate QuantumGate.PauliX [0], .inversionAboutMean false] }
          { qubits := 1, kind := .amplitudes [3, 0, 4, 0] } = .ok finalState ∧
        exists p,
          (QuantumState.totalProbability DenseStateBackend.make
            ({ qubits := 1, kind := .amplitudes [3, 0, 4, 0] } :
              QuantumState Real (DenseStateBackend Real))).1 = .ok p ∧
            (finalState.totalProbability DenseStateBackend.make).1 = .ok p := by
  refine run_keeps_totalProbability (QuantumState.Denotes.amplitudes (n := 1) (by decide) rfl)
    ?_ ?_ ?_
  · rfl
  · have hlt : 0 < 1 := by decide
    have htargets : ValidTargets [0] 1 (QuantumGate.PauliX : QuantumGate Real).dimension :=
      ValidTargets.one hlt rfl
    intro op hop
    fin_cases hop
    · exact hlt
    · exact htargets
    · exact trivial
  · intro op hop
    fin_cases hop
    · exact trivial
    · exact QuantumGate.unitary_pauliX
    · exact trivial

end Simulator

end Tmfqs
