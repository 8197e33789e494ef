import Tmfqs.Model.GateAction
import Tmfqs.Storage.BackendRuns
import Tmfqs.Storage.CompressedRefinement
import Tmfqs.Storage.DenseRefinement

/-!
# The compressed backend against the dense one

With a lossless codec both backends store the same state vector along every run, as
long as no initialising call asks for a layout that wraps.
-/

namespace Tmfqs

open Library

namespace CompressedStateBackend

/-!
## Gates the matchers recognise exactly
-/

section Matching

variable {R : Type} [Field R] [LinearOrder R] [CMath R]

/--
The gate has the entries of the kernel that is run for it, not only entries within
the tolerance.
-/
def MatchedExactly (gate : QuantumGate R) (qubitCount : Nat) : Prop :=
  match fastPath gate qubitCount with
  | .hadamard => forall row col, row < 2 -> col < 2 ->
      gate.entry row col = (QuantumGate.Hadamard : QuantumGate R).entry row col
  | .pauliX => forall row col, row < 2 -> col < 2 ->
      gate.entry row col = (QuantumGate.PauliX : QuantumGate R).entry row col
  | .controlledNot => forall row col, row < 4 -> col < 4 ->
      gate.entry row col = (QuantumGate.ControlledNot : QuantumGate R).entry row col
  | .controlledPhaseShift _ =>
      (forall row col, row < 4 -> col < 4 -> row ≠ col ->
        gate.entry row col = Amplitude.zero) ∧
      (forall row, row < 3 -> gate.entry row row = { real := 1, imag := 0 }) ∧
      (gate.entry 3 3).probability = 1
  | .blocks => True

end Matching

theorem phase_atan2 {phase : Amplitude Real} (h : phase.probability = 1) :
    ({ real := CMath.cos (CMath.atan2 phase.imag phase.real)
       imag := CMath.sin (CMath.atan2 phase.imag phase.real) } : Amplitude Real) = phase := by
  have hsq : Complex.normSq ⟨phase.real, phase.imag⟩ = 1 := by
    rw [Complex.normSq_mk]
    exact h
  have hnorm : ‖(⟨phase.real, phase.imag⟩ : Complex)‖ = 1 := by
    rw [Complex.norm_def, hsq, Real.sqrt_one]
  have hcos := Complex.norm_mul_cos_arg ⟨phase.real, phase.imag⟩
  have hsin := Complex.norm_mul_sin_arg ⟨phase.real, phase.imag⟩
  rw [hnorm, one_mul] at hcos hsin
  exact Amplitude.eq_of_parts hcos hsin

theorem theta_of_fastPath {gate : QuantumGate Real} {k : Nat} {theta : Real}
    (h : fastPath gate k = .controlledPhaseShift theta) :
    theta = CMath.atan2 (gate.entry 3 3).imag (gate.entry 3 3).real := by
  have hk := fastPath_two (Or.inr ⟨theta, h⟩)
  rw [fastPath, if_neg (by omega), if_pos hk] at h
  split at h
  · simp at h
  · cases hmatch : matchControlledPhaseShiftGate gate with
    | none =>
        rw [hmatch] at h
        simp at h
    | some angle =>
        rw [hmatch] at h
        have hangle : angle = theta := by simpa using h
        rw [matchControlledPhaseShiftGate] at hmatch
        split at hmatch
        · dsimp only at hmatch
          split at hmatch
          · rw [← hangle]
            exact (Option.some.inj hmatch).symm
          · cases hmatch
        · cases hmatch

theorem gateVector_eq_blockGate {gate : QuantumGate Real} {qubits : List Nat} {n : Nat}
    {v : List Real} (hn : n ≤ 31) (hvalid : ValidTargets qubits n gate.dimension)
    (hv : v.length = 2 * 2 ^ n) (hexact : MatchedExactly gate qubits.length) :
    gateVector gate qubits n v = StateVector.blockGate gate qubits n v := by
  have hone : qubits.length = 1 -> gate.dimension = 2 ∧ exists q, qubits = [q] ∧ q < n := by
    intro hlen
    obtain ⟨q, rfl⟩ := List.length_eq_one_iff.mp hlen
    exact ⟨hvalid.dimension, q, rfl, hvalid.inRange q List.mem_cons_self⟩
  have htwo : qubits.length = 2 -> gate.dimension = 4 ∧
      exists c q, qubits = [c, q] ∧ c < n ∧ q < n ∧ c ≠ q := by
    intro hlen
    obtain ⟨c, q, rfl⟩ := List.length_eq_two.mp hlen
    have hne : c ≠ q := by simpa using hvalid.nodup
    exact ⟨hvalid.dimension, c, q, rfl, hvalid.inRange c (by simp),
      hvalid.inRange q (by simp), hne⟩
  unfold gateVector
  unfold MatchedExactly at hexact
  cases hpath : fastPath gate qubits.length with
  | hadamard =>
      rw [hpath] at hexact
      obtain ⟨hdim, q, rfl, hq⟩ := hone (fastPath_one (Or.inl hpath))
      exact (blockGate_hadamard hn hq hv hdim hexact).symm
  | pauliX =>
      rw [hpath] at hexact
      obtain ⟨hdim, q, rfl, hq⟩ := hone (fastPath_one (Or.inr hpath))
      exact (blockGate_pauliX hn hq hv hdim hexact).symm
  | controlledNot =>
      rw [hpath] at hexact
      obtain ⟨hdim, c, q, rfl, hc, hq, hne⟩ := htwo (fastPath_two (Or.inl hpath))
      exact (blockGate_controlledNot hn hc hq hne hv hdim hexact).symm
  | controlledPhaseShift theta =>
      rw [hpath] at hexact
      obtain ⟨hoff, hdiag, hphase⟩ := hexact
      obtain ⟨hdim, c, q, rfl, hc, hq, hne⟩ := htwo (fastPath_two (Or.inr ⟨theta, hpath⟩))
      have htheta := theta_of_fastPath hpath
      refine (blockGate_controlledPhaseShift theta hn hc hq hne hv hdim hoff hdiag ?_).symm
      rw [htheta]
      exact (phase_atan2 hphase).symm
  | blocks => rfl

end CompressedStateBackend

/-!
## The answers of both backends
-/

section Answers

variable {B : Type} {P : CodecPolicy Real B}

theorem CompressedStateBackend.throws_of_not_fits (hchunk : 2 * P.chunkStates < 2 ^ 64)
    {op : BackendOp Real} {n : Nat} (hsize : op.size = some n) (hvalid : op.ValidInit)
    (hfits : ¬ ChunkLayout.Fits (2 ^ n) P.chunkStates) (b : CompressedStateBackend P) :
    Call.Post op.run b (fun _ _ => False) (fun e _ => e.kind = .invalidArgument) := by
  have hconfigure : forall {m : Nat}, m = n -> m ≤ 31 ->
      Call.Post (configureStorage m) b (fun _ _ => False)
        (fun e _ => e.kind = .invalidArgument) := by
    rintro m rfl hm
    exact configureStorage_of_not_fits b hm hchunk hfits
  cases op with
  | initZero m =>
      cases hsize
      change Call.Post (initZero n >>= _) b _ _
      rw [initZero, Call.post_bind_iff, Call.post_bind_iff]
      exact (hconfigure rfl hvalid).imp (fun _ _ h => h.elim) (fun _ _ h => h)
  | initBasis m s amp =>
      cases hsize
      change Call.Post (initBasis n s amp >>= _) b _ _
      rw [initBasis, initZero, Call.post_bind_iff, Call.post_bind_iff, Call.post_bind_iff]
      exact (hconfigure rfl hvalid.1).imp (fun _ _ h => h.elim) (fun _ _ h => h)
  | initUniformSuperposition m states =>
      cases hsize
      change Call.Post (initUniformSuperposition n states >>= _) b _ _
      rw [initUniformSuperposition, Call.post_bind_iff, Call.post_bind_iff]
      exact (hconfigure rfl hvalid.1).imp (fun _ _ h => h.elim) (fun _ _ h => h)
  | loadAmplitudes m data =>
      cases hsize
      change Call.Post (loadAmplitudes n data >>= _) b _ _
      rw [loadAmplitudes, Call.post_bind_iff, Call.post_bind_iff]
      exact (hconfigure rfl hvalid.1).imp (fun _ _ h => h.elim) (fun _ _ h => h)
  | _ => cases hsize

theorem BackendOp.ValidRun.validInit {R : Type} {s : Option (Nat × Nat)} {ops : List (BackendOp R)}
    (h : BackendOp.ValidRun s ops) {op : BackendOp R} (hop : op ∈ ops) {n : Nat}
    (hsize : op.size = some n) : op.ValidInit := by
  induction ops generalizing s with
  | nil => cases hop
  | cons first rest ih =>
      rcases List.mem_cons.mp hop with rfl | hrest
      · have hvalid := h.1
        unfold BackendOp.Valid at hvalid
        rw [hsize] at hvalid
        cases s with
        | none => exact hvalid
        | some s => exact hvalid.1
      · exact ih h.2 hrest

theorem DenseStateBackend.returns_of_init {op : BackendOp Real} {n : Nat}
    (hsize : op.size = some n) (hvalid : op.ValidInit) (b : DenseStateBackend Real) :
    (op.run b).1.mapError Exc.kind = .ok .done := by
  have haccepts : (storesVector (R := Real)).Accepts StateVector.blockGate op :=
    ⟨fun _ _ => trivial, fun _ _ _ _ _ _ _ _ => rfl⟩
  have h := (StoresVector.refines_init hsize hvalid haccepts none b).1
  rw [h]
  unfold BackendOp.spec
  rw [hsize]

theorem fits_of_outcomes_eq (hchunk : 2 * P.chunkStates < 2 ^ 64) {ops : List (BackendOp Real)}
    (hvalid : forall op, op ∈ ops -> forall n, op.size = some n -> op.ValidInit) :
    forall (b : CompressedStateBackend P) (d : DenseStateBackend Real),
      (outcomes BackendOp.run ops b).map Except.toOption =
        (outcomes BackendOp.run ops d).map Except.toOption ->
      forall op, op ∈ ops -> forall n, op.size = some n ->
        ChunkLayout.Fits (2 ^ n) P.chunkStates := by
  induction ops with
  | nil =>
      intro b d _ op hop
      cases hop
  | cons first rest ih =>
      intro b d heq op hop n hsize
      rw [outcomes_cons, outcomes_cons, List.map_cons, List.map_cons, List.cons.injEq] at heq
      rcases List.mem_cons.mp hop with rfl | hrest
      · by_contra hfits
        have hinit := hvalid op List.mem_cons_self n hsize
        have hthrow := CompressedStateBackend.throws_of_not_fits hchunk hsize hinit hfits b
        have hreturn := DenseStateBackend.returns_of_init hsize hinit d
        have hhead := heq.1
        unfold Call.Post at hthrow
        rcases hc : op.run b with ⟨r, b'⟩
        rw [hc] at hthrow hhead
        cases r with
        | ok a => exact hthrow
        | error e =>
            rcases hd : op.run d with ⟨r, d'⟩
            rw [hd] at hreturn hhead
            cases r with
            | ok a => cases hhead
            | error e' => cases hreturn
      · exact ih (fun op' hop' => hvalid op' (List.mem_cons_of_mem first hop')) _ _ heq.2 op hrest
          n hsize

theorem toOption_mapError {ε κ α : Type} (f : ε -> κ) (x : Except ε α) :
    (x.mapError f).toOption = x.toOption := by
  cases x <;> rfl

theorem map_toOption_of_mapError {ε κ α : Type} {f : ε -> κ} {xs ys : List (Except ε α)}
    (h : xs.map (Except.mapError f) = ys.map (Except.mapError f)) :
    xs.map Except.toOption = ys.map Except.toOption := by
  have hmap := congrArg (List.map Except.toOption) h
  rw [List.map_map, List.map_map] at hmap
  have hcomp : (Except.toOption ∘ Except.mapError f : Except ε α -> Option α) =
      Except.toOption := funext (toOption_mapError f)
  rwa [hcomp] at hmap

/--
Both backends answer alike, or throw on the same calls, exactly when rounding the
number of elements up to whole chunks wraps in no initialising call.
-/
theorem compressed_answers_as_dense_iff (hP : P.Lossless) (hchunk : 2 * P.chunkStates < 2 ^ 64)
    {ops : List (BackendOp Real)} (hvalid : BackendOp.ValidRun none ops)
    (hgates : forall gate qubits, BackendOp.applyGate gate qubits ∈ ops ->
      CompressedStateBackend.MatchedExactly gate qubits.length) :
    (outcomes BackendOp.run ops (CompressedStateBackend.make P)).map Except.toOption =
        (outcomes BackendOp.run ops
          (DenseStateBackend.make : DenseStateBackend Real)).map Except.toOption <->
      forall op, op ∈ ops -> forall n, op.size = some n ->
        ChunkLayout.Fits (2 ^ n) P.chunkStates := by
  constructor
  · exact fits_of_outcomes_eq hchunk (fun op hop n hsize => hvalid.validInit hop hsize) _ _
  · intro hfits
    have hcompressed := (CompressedStateBackend.storesVector hP).trace_eq_spec hvalid
      (fun op hop => ⟨hfits op hop, by
        rintro gate qubits rfl n v hn hqubits hv
        exact CompressedStateBackend.gateVector_eq_blockGate hn hqubits hv
          (hgates gate qubits hop)⟩) (CompressedStateBackend.make P)
    have hdense := (DenseStateBackend.storesVector (R := Real)).trace_eq_spec hvalid
      (fun op _ => ⟨fun _ _ => trivial, fun _ _ _ _ _ _ _ _ => rfl⟩) DenseStateBackend.make
    exact map_toOption_of_mapError (hcompressed.1.trans hdense.1.symm)

theorem compressed_answers_as_dense_iff_two_chunks :
    let P : CodecPolicy Real Real :=
      CodecPolicy.elementwise id 1 2 (Nat.le_refl 1) (Nat.le_refl 2)
    let ops : List (BackendOp Real) :=
      [.initBasis 1 0 { real := 1, imag := 0 }, .applyPauliX 0, .amplitude 1]
    (outcomes BackendOp.run ops (CompressedStateBackend.make P)).map Except.toOption =
        (outcomes BackendOp.run ops
          (DenseStateBackend.make : DenseStateBackend Real)).map Except.toOption <->
      forall op, op ∈ ops -> forall n, op.size = some n ->
        ChunkLayout.Fits (2 ^ n) P.chunkStates := by
  intro P ops
  exact compressed_answers_as_dense_iff (CodecPolicy.lossless_elementwise _ _)
    (by decide)
    ⟨⟨by decide, by decide⟩, show 0 < 1 by decide, show 1 < 2 ^ 1 by decide, trivial⟩
    (by
      intro gate qubits hop
      simp [ops] at hop)

/-- Chunks of `2 ^ 63 - 1` states: one qubit needs a layout of no chunks. -/
theorem compressed_throws_where_dense_returns :
    let P : CodecPolicy Real Real :=
      CodecPolicy.elementwise id (2 ^ 63 - 1) 2 (by decide) (Nat.le_refl 2)
    P.Lossless ∧ 2 * P.chunkStates < 2 ^ 64 ∧
      BackendOp.ValidRun none [(.initZero 1 : BackendOp Real)] ∧
      (outcomes BackendOp.run [.initZero 1] (CompressedStateBackend.make P)).map
          Except.toOption = [none] ∧
      (outcomes BackendOp.run [.initZero 1]
          (DenseStateBackend.make : DenseStateBackend Real)).map Except.toOption =
        [some .done] := by
  intro P
  have hchunk : 2 * P.chunkStates < 2 ^ 64 := by decide
  have hsize : (BackendOp.initZero 1 : BackendOp Real).size = some 1 := rfl
  have hvalid : (BackendOp.initZero 1 : BackendOp Real).ValidInit := by
    change 1 ≤ 31
    decide
  refine ⟨CodecPolicy.lossless_elementwise _ _, hchunk, ⟨hvalid, trivial⟩, ?_, ?_⟩
  · have hthrow := CompressedStateBackend.throws_of_not_fits hchunk hsize hvalid (by decide)
      (CompressedStateBackend.make P)
    rw [outcomes_cons, outcomes_nil, List.map_cons, List.map_nil]
    unfold Call.Post at hthrow
    rcases hrun : (BackendOp.initZero 1 : BackendOp Real).run (CompressedStateBackend.make P)
      with ⟨r, b⟩
    rw [hrun] at hthrow
    cases r with
    | ok a => exact hthrow.elim
    | error e => rfl
  · have hreturn := DenseStateBackend.returns_of_init hsize hvalid DenseStateBackend.make
    rw [outcomes_cons, outcomes_nil, List.map_cons, List.map_nil,
      ← toOption_mapError Exc.kind, hreturn]
    rfl

end Answers

end Tmfqs
