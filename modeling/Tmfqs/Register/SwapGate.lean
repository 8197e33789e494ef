import Tmfqs.Register.DenseRegister
import Tmfqs.Storage.DenseGates

/-!
# The swap of a dense register

A register applies a swap as three controlled-NOT operations.  They leave the register
exactly as the swap matrix does, whatever the overlay and the cached sum are.
-/

namespace Tmfqs

open Library DenseStateBackend

namespace DenseRegister

section Flushed

variable {R : Type} [Field R] [LinearOrder R] [CMath R] {n : Nat} {v : List R}
  {r : DenseRegister R}

/-- The register after a gate has left `v`: no overlay is active and no sum is cached. -/
def flushed (r : DenseRegister R) (n : Nat) (v : List R) : DenseRegister R :=
  { r with
    backend := holding n v
    cachedLogicalAmplitudeSum := none
    affineScale := if r.affineOverlayActive then { real := 1, imag := 0 } else r.affineScale
    affineBias := if r.affineOverlayActive then Amplitude.zero else r.affineBias
    affineOverlayActive := false }

omit [LinearOrder R] [CMath R] in
theorem flushed_flushed (v w : List R) : flushed (flushed r n v) n w = flushed r n w := rfl

omit [LinearOrder R] [CMath R] in
theorem logical_flushed (v w : List R) :
    mapAmplitudes (flushed r n v).applyAffineOverlay w = w := by
  rw [QuantumRegister.applyAffineOverlay_inactive rfl, mapAmplitudes_id]

theorem applyFlushed_eq (hv : v.length = 2 * 2 ^ n) (hbackend : r.backend = holding n v)
    {gate : Call (DenseStateBackend R) Unit} {w : List R}
    (hgate : gate (holding n (mapAmplitudes r.applyAffineOverlay v)) = (.ok (), holding n w)) :
    QuantumRegister.applyFlushed gate r = (.ok (), flushed r n w) := by
  have hflush : QuantumRegister.flushAffineOverlay r =
      (.ok (), { flushed r n (mapAmplitudes r.applyAffineOverlay v) with
        cachedLogicalAmplitudeSum := r.cachedLogicalAmplitudeSum }) := by
    rw [QuantumRegister.flushAffineOverlay, Call.bind_ok (Call.get_apply r)]
    cases hactive : r.affineOverlayActive with
    | true =>
        have htransform : (IStateBackend.applyAffineTransform r.affineScale r.affineBias :
            Call (DenseStateBackend R) Unit) r.backend =
            (.ok (), holding n (mapAmplitudes r.applyAffineOverlay v)) := by
          rw [hbackend, QuantumRegister.applyAffineOverlay_active hactive]
          exact applyAffineTransform_holding hv _ _
        rw [if_pos rfl, Call.bind_apply, QuantumRegister.onBackend, Call.focus_apply, htransform]
        simp [flushed, hactive, QuantumRegister.resetAffineOverlay, Call.bind_apply]
    | false =>
        rw [if_neg Bool.false_ne_true, Call.pure_apply,
          QuantumRegister.applyAffineOverlay_inactive hactive, mapAmplitudes_id]
        cases r with
        | mk numQubits numStates backend sum scale bias active =>
            cases hactive
            cases hbackend
            rfl
  rw [QuantumRegister.applyFlushed, Call.bind_ok hflush, Call.bind_apply,
    QuantumRegister.onBackend, Call.focus_apply]
  simp only [flushed, hgate]
  rfl

variable (hn : n ≤ 31) (hv : v.length = 2 * 2 ^ n) (hqubits : r.numQubits = n)
  (hbackend : r.backend = holding n v)
include hn hv hqubits hbackend

omit [Field R] [LinearOrder R] [CMath R] hn hv hbackend in
theorem validateTwoQubits_eq (scopeName : String) {a b : Nat} (ha : a < n) (hb : b < n)
    (hne : a ≠ b) :
    (QuantumRegister.validateTwoQubits scopeName a b : Call (DenseRegister R) Unit) r =
      (.ok (), r) := by
  rw [QuantumRegister.validateTwoQubits, Call.bind_ok (Call.get_apply r), hqubits,
    validateQubitIndex_ok _ ha, validateQubitIndex_ok _ hb, validateDistinctQubits_ok _ hne]
  rfl

theorem applyControlledNot_eq {c q : Nat} (hc : c < n) (hq : q < n) (hne : c ≠ q) :
    QuantumRegister.applyControlledNot c q r =
      (.ok (), flushed r n
        (StateVector.controlledNot n c q (mapAmplitudes r.applyAffineOverlay v))) := by
  rw [QuantumRegister.applyControlledNot,
    Call.bind_ok (validateTwoQubits_eq hqubits _ hc hq hne)]
  apply applyFlushed_eq hv hbackend
  exact applyControlledNot_holding hn ((length_mapAmplitudes _ v).trans hv) hc hq hne

theorem applySwap_eq {a b : Nat} (ha : a < n) (hb : b < n) (hne : a ≠ b) :
    QuantumRegister.applySwap a b r =
      (.ok (), flushed r n (StateVector.swap n a b (mapAmplitudes r.applyAffineOverlay v))) := by
  have hlen : forall (c q : Nat) (w : List R), w.length = 2 * 2 ^ n ->
      (StateVector.controlledNot n c q w).length = 2 * 2 ^ n :=
    fun c q w hw => (StateVector.length_pairKernel _ n _ w).trans hw
  have h0 : (mapAmplitudes r.applyAffineOverlay v).length = 2 * 2 ^ n :=
    (length_mapAmplitudes _ v).trans hv
  -- after the first flip no overlay is left, and the others run on what the backend stores
  have hnext : forall (c q : Nat) (w : List R), c < n -> q < n -> c ≠ q ->
      w.length = 2 * 2 ^ n ->
      QuantumRegister.applyControlledNot c q (flushed r n w) =
        (.ok (), flushed r n (StateVector.controlledNot n c q w)) := by
    intro c q w hc hq hcq hw
    rw [applyControlledNot_eq (r := flushed r n w) hn hw hqubits rfl hc hq hcq,
      logical_flushed, flushed_flushed]
  rw [QuantumRegister.applySwap,
    Call.bind_ok (validateTwoQubits_eq hqubits _ ha hb hne),
    Call.bind_ok (applyControlledNot_eq hn hv hqubits hbackend ha hb hne),
    Call.bind_ok (hnext b a _ hb ha (Ne.symm hne) (hlen a b _ h0)),
    hnext a b _ ha hb hne (hlen b a _ (hlen a b _ h0)), StateVector.swap]

theorem applyGate_eq {gate : QuantumGate R} {qubits : List Nat}
    (hvalid : ValidTargets qubits n gate.dimension) :
    QuantumRegister.applyGate gate qubits r =
      (.ok (), flushed r n
        (StateVector.blockGate gate qubits n (mapAmplitudes r.applyAffineOverlay v))) := by
  rw [QuantumRegister.applyGate, Call.bind_ok (Call.get_apply r), hqubits,
    validateGateTargets_ok _ (by omega) hvalid, pure_bind]
  apply applyFlushed_eq hv hbackend
  exact DenseStateBackend.applyGate_eq hn ((length_mapAmplitudes _ v).trans hv) hvalid

end Flushed

/-- The named kernels of the dense backend, and the swap of a register, are their gates. -/
theorem kernels_eq_gates {n : Nat} (hn : n ≤ 31) {v : List Real}
    (hv : v.length = 2 * 2 ^ n) :
    (forall q, q < n ->
      SameResult (applyHadamard q) (applyGate QuantumGate.Hadamard [q]) (holding n v)) ∧
    (forall q, q < n ->
      SameResult (applyPauliX q) (applyGate QuantumGate.PauliX [q]) (holding n v)) ∧
    (forall c t, c < n -> t < n -> c ≠ t ->
      SameResult (applyControlledNot c t) (applyGate QuantumGate.ControlledNot [c, t])
        (holding n v)) ∧
    (forall c t theta, c < n -> t < n -> c ≠ t ->
      SameResult (applyControlledPhaseShift c t theta)
        (applyGate (QuantumGate.ControlledPhaseShift theta) [c, t]) (holding n v)) ∧
    (forall r : DenseRegister Real, r.numQubits = n -> r.backend = holding n v ->
      forall a b, a < n -> b < n -> a ≠ b ->
        SameResult (QuantumRegister.applySwap a b)
          (QuantumRegister.applyGate QuantumGate.Swap [a, b]) r) := by
  refine ⟨fun q hq => applyHadamard_same hn hv hq, fun q hq => applyPauliX_same hn hv hq,
    fun c t hc ht hne => applyControlledNot_same hn hv hc ht hne,
    fun c t theta hc ht hne => applyControlledPhaseShift_same hn hv hc ht hne theta, ?_⟩
  intro r hqubits hbackend a b ha hb hne
  have hvalid : ValidTargets [a, b] n (QuantumGate.Swap : QuantumGate Real).dimension :=
    ValidTargets.two ha hb hne rfl
  refine ⟨_, applySwap_eq hn hv hqubits hbackend ha hb hne, ?_⟩
  rw [applyGate_eq hn hv hqubits hbackend hvalid,
    blockGate_swap hn ha hb hne ((length_mapAmplitudes _ v).trans hv)]

theorem kernels_eq_gates_two :
    (forall q, q < 2 ->
      SameResult (applyHadamard q) (applyGate QuantumGate.Hadamard [q])
        (holding 2 [(1 : Real), 0, 2, 0, 3, 0, 4, 0])) ∧
    (forall q, q < 2 ->
      SameResult (applyPauliX q) (applyGate QuantumGate.PauliX [q])
        (holding 2 [(1 : Real), 0, 2, 0, 3, 0, 4, 0])) ∧
    (forall c t, c < 2 -> t < 2 -> c ≠ t ->
      SameResult (applyControlledNot c t) (applyGate QuantumGate.ControlledNot [c, t])
        (holding 2 [(1 : Real), 0, 2, 0, 3, 0, 4, 0])) ∧
    (forall c t theta, c < 2 -> t < 2 -> c ≠ t ->
      SameResult (applyControlledPhaseShift c t theta)
        (applyGate (QuantumGate.ControlledPhaseShift theta) [c, t])
        (holding 2 [(1 : Real), 0, 2, 0, 3, 0, 4, 0])) ∧
    (forall r : DenseRegister Real, r.numQubits = 2 ->
      r.backend = holding 2 [(1 : Real), 0, 2, 0, 3, 0, 4, 0] ->
      forall a b, a < 2 -> b < 2 -> a ≠ b ->
        SameResult (QuantumRegister.applySwap a b)
          (QuantumRegister.applyGate QuantumGate.Swap [a, b]) r) :=
  kernels_eq_gates (by decide) rfl

end DenseRegister

end Tmfqs
