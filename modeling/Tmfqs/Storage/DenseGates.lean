import Tmfqs.Model.GateProduct
import Tmfqs.Storage.DenseRefinement

/-!
# Gates on the dense backend
-/

namespace Tmfqs

open Library

/-- Both calls succeed and leave the same object. -/
def SameResult {σ : Type} (x y : Call σ Unit) (s : σ) : Prop :=
  exists s', x s = (.ok (), s') ∧ y s = (.ok (), s')

namespace DenseStateBackend

/-!
## The named kernels
-/

section Kernels

variable {n : Nat} {v : List Real} (hn : n ≤ 31) (hv : v.length = 2 * 2 ^ n)
include hn hv

theorem applyHadamard_same {q : Nat} (hq : q < n) :
    SameResult (applyHadamard q) (applyGate QuantumGate.Hadamard [q]) (holding n v) := by
  have hvalid := ValidTargets.one hq (rfl : (QuantumGate.Hadamard : QuantumGate Real).dimension = 2)
  refine ⟨_, applyHadamard_holding hn hv hq, ?_⟩
  rw [applyGate_eq hn hv hvalid, blockGate_hadamard hn hq hv rfl fun _ _ _ _ => rfl]

theorem applyPauliX_same {q : Nat} (hq : q < n) :
    SameResult (applyPauliX q) (applyGate QuantumGate.PauliX [q]) (holding n v) := by
  have hvalid := ValidTargets.one hq (rfl : (QuantumGate.PauliX : QuantumGate Real).dimension = 2)
  refine ⟨_, applyPauliX_holding hn hv hq, ?_⟩
  rw [applyGate_eq hn hv hvalid, blockGate_pauliX hn hq hv rfl fun _ _ _ _ => rfl]

theorem applyControlledNot_same {c q : Nat} (hc : c < n) (hq : q < n) (hne : c ≠ q) :
    SameResult (applyControlledNot c q) (applyGate QuantumGate.ControlledNot [c, q])
      (holding n v) := by
  have hvalid := ValidTargets.two hc hq hne
    (rfl : (QuantumGate.ControlledNot : QuantumGate Real).dimension = 4)
  refine ⟨_, applyControlledNot_holding hn hv hc hq hne, ?_⟩
  rw [applyGate_eq hn hv hvalid, blockGate_controlledNot hn hc hq hne hv rfl fun _ _ _ _ => rfl]

theorem applyControlledPhaseShift_same {c q : Nat} (hc : c < n) (hq : q < n) (hne : c ≠ q)
    (theta : Real) :
    SameResult (applyControlledPhaseShift c q theta)
      (applyGate (QuantumGate.ControlledPhaseShift theta) [c, q]) (holding n v) := by
  have hvalid := ValidTargets.two hc hq hne
    (rfl : (QuantumGate.ControlledPhaseShift theta).dimension = 4)
  have hexp : CMath.exp (0 : Real) = 1 := Real.exp_zero
  refine ⟨_, applyControlledPhaseShift_holding hn hv hc hq hne theta, ?_⟩
  rw [applyGate_eq hn hv hvalid,
    blockGate_controlledPhaseShift theta hn hc hq hne hv rfl]
  · intro row col hrow hcol hoff
    rw [QuantumGate.ControlledPhaseShift, QuantumGate.entry_ofEntries _ hrow hcol,
      if_neg (by omega), if_neg hoff]
  · intro row hrow
    rw [QuantumGate.ControlledPhaseShift,
      QuantumGate.entry_ofEntries _ (show row < 4 by omega) (show row < 4 by omega),
      if_neg (by omega), if_pos rfl]
  · rw [QuantumGate.ControlledPhaseShift,
      QuantumGate.entry_ofEntries _ (show 3 < 4 by decide) (show 3 < 4 by decide),
      if_pos (And.intro rfl rfl), complexExp, hexp, one_mul, one_mul]

end Kernels

/-!
## Products of gates
-/

/--
Applying `B` and then `A` is applying the product `A * B`, and a scaled gate scales
every amplitude of the result.
-/
theorem applyGate_homomorphism {n : Nat} (hn : n ≤ 31) {qubits : List Nat}
    (hrange : forall q, q ∈ qubits -> q < n) (hnodup : qubits.Nodup)
    {A B : QuantumGate Real} (hA : A.dimension = 2 ^ qubits.length)
    (hB : B.dimension = 2 ^ qubits.length) {v : List Real} (hv : v.length = 2 * 2 ^ n) :
    (exists product w, A.mul B = .ok product ∧
      (do
        applyGate B qubits
        applyGate A qubits) (holding n v) = (.ok (), holding n w) ∧
      applyGate product qubits (holding n v) = (.ok (), holding n w)) ∧
    forall x : Amplitude Real, exists w,
      applyGate A qubits (holding n v) = (.ok (), holding n w) ∧
      applyGate (A.scale x) qubits (holding n v) =
        (.ok (), holding n (mapAmplitudes x.multiply w)) := by
  have htargets : forall {gate : QuantumGate Real}, gate.dimension = 2 ^ qubits.length ->
      ValidTargets qubits n gate.dimension :=
    fun hdim =>
      { dimension := hdim
        inRange := hrange
        nodup := hnodup }
  have hBv := StateVector.length_blockGate hn (htargets hB) hv
  constructor
  · rcases QuantumGate.exists_mul (hB.trans hA.symm) with ⟨product, hmul, hdim, hentries⟩
    have hproduct := htargets (hdim.trans hA)
    refine ⟨product, StateVector.blockGate product qubits n v, hmul, ?_, ?_⟩
    · rw [Call.bind_ok (applyGate_eq hn hv (htargets hB)), applyGate_eq hn hBv (htargets hA),
        StateVector.blockGate_blockGate hn (htargets hA) (htargets hB) hproduct hentries hv]
    · exact applyGate_eq hn hv hproduct
  · intro x
    have hscale : ValidTargets qubits n (A.scale x).dimension := htargets hA
    refine ⟨StateVector.blockGate A qubits n v, applyGate_eq hn hv (htargets hA), ?_⟩
    rw [applyGate_eq hn hv hscale, StateVector.blockGate_scale hn (htargets hA) x hv]

theorem applyGate_homomorphism_pauliX :
    (exists product w,
      (QuantumGate.PauliX : QuantumGate Real).mul QuantumGate.PauliX = .ok product ∧
      (do
        applyGate (QuantumGate.PauliX : QuantumGate Real) [0]
        applyGate QuantumGate.PauliX [0]) (holding 1 [(1 : Real), 0, 2, 0]) =
          (.ok (), holding 1 w) ∧
      applyGate product [0] (holding 1 [(1 : Real), 0, 2, 0]) = (.ok (), holding 1 w)) ∧
    forall x : Amplitude Real, exists w,
      applyGate QuantumGate.PauliX [0] (holding 1 [(1 : Real), 0, 2, 0]) =
        (.ok (), holding 1 w) ∧
      applyGate (QuantumGate.PauliX.scale x) [0] (holding 1 [(1 : Real), 0, 2, 0]) =
        (.ok (), holding 1 (mapAmplitudes x.multiply w)) := by
  apply applyGate_homomorphism (by decide)
  · intro q hq
    rw [List.mem_singleton.mp hq]
    decide
  · exact List.nodup_singleton 0
  · rfl
  · rfl
  · rfl

end DenseStateBackend

end Tmfqs
