import Tmfqs.Register.DenseRegister
import Tmfqs.Sim.CircuitRuns
import Tmfqs.Storage.BackendRefinement
import Tmfqs.Storage.GuardedBackend

/-!
# Runs that return

The simulator on storage whose codec may throw at any call.  A run that returns has not lost
or changed an amplitude on the way: the dense run returns as well, and from then on both
registers answer alike until the compressed one throws.
-/

namespace Tmfqs

open Library QuantumRegister

/-!
## Initial states
-/

/-- The states the factories build, none of which holds a register. -/
inductive InitialState (R : Type) where
  | basis (state : Nat)
  | basisAmplitude (state : Nat) (amp : Amplitude R)
  | uniformSubset (states : List Nat)
  | amplitudes (data : List R)

namespace InitialState

variable {R : Type}

def state (start : InitialState R) (n : Nat) (β : Type) : QuantumState R β :=
  { qubits := n
    kind :=
      match start with
      | basis state => .basis state
      | basisAmplitude state amp => .basisAmplitude state amp
      | uniformSubset states => .uniformSubset states
      | amplitudes data => .amplitudes data }

def Valid (n : Nat) : InitialState R -> Prop
  | basis state => state < 2 ^ n
  | basisAmplitude state _ => state < 2 ^ n
  | uniformSubset states => states ≠ [] ∧ forall s, s ∈ states -> s < 2 ^ n
  | amplitudes data => data.length = 2 * 2 ^ n

variable [Field R] [LinearOrder R] [CMath R]

def vector (n : Nat) : InitialState R -> List R
  | basis state => StateVector.basis n state { real := 1, imag := 0 }
  | basisAmplitude state amp => StateVector.basis n state amp
  | uniformSubset states => StateVector.uniform n states
  | amplitudes data => data

variable {β γ : Type} [IStateBackend R β] [IStateBackend R γ] {start : InitialState R} {n : Nat}

theorem lazy_materialize (sv : StoresVector (R := R) β) (selected : β) (hn : n ≤ 31)
    (hsize : sv.Size n) (hvalid : start.Valid n) :
    exists r, (start.state n β).materialize selected = .ok r ∧
      Lazy sv n (start.vector n) 0 r := by
  cases start with
  | basis s => exact post_construct (does_initBasis selected hn hsize hvalid _)
  | basisAmplitude s amp => exact post_construct (does_initBasis selected hn hsize hvalid amp)
  | amplitudes data => exact post_construct (does_initAmplitudes selected hn hsize hvalid)
  | uniformSubset states =>
      refine post_construct ?_
      rw [Does, Call.post_bind_iff]
      refine (does_initBasis selected hn hsize (Nat.two_pow_pos n) _).imp ?_ (fun _ _ he => he)
      intro _ r hr
      exact does_initUniformSuperposition hr hvalid.1 hvalid.2

omit [LinearOrder R] [CMath R] in
theorem mirrored_materialize {link : β -> γ -> Prop} (hm : Mirrors link) {b : β} {c : γ}
    (hlink : link b c) {r : QuantumRegister R β}
    (hr : (start.state n β).materialize b = .ok r) :
    exists q, (start.state n γ).materialize c = .ok q ∧ Mirrored link r q := by
  have hstart : Mirrored link (uninitialized b : QuantumRegister R β) (uninitialized c) :=
    ⟨c, hlink, rfl⟩
  have built : forall {x : Call (QuantumRegister R β) Unit} {y : Call (QuantumRegister R γ) Unit},
      MirroredCall link x y -> construct b x = .ok r ->
        exists q, construct c y = .ok q ∧ Mirrored link r q := by
    intro x y hxy hx
    have hfollowed := hxy _ _ hstart
    rw [construct] at hx
    unfold Call.FollowedAt Call.Post at hfollowed
    rcases hrun : x (uninitialized b) with ⟨result, r'⟩
    rw [hrun] at hx hfollowed
    cases result with
    | error e => cases hx
    | ok a =>
        cases hx
        rcases hfollowed with ⟨q, hy, hq⟩
        exact ⟨q, by rw [construct, hy], hq⟩
  cases start with
  | basis s => exact built (mirrored_initBasis hm hlink n s _) hr
  | basisAmplitude s amp => exact built (mirrored_initBasis hm hlink n s amp) hr
  | amplitudes data => exact built (mirrored_initAmplitudes hm hlink n data) hr
  | uniformSubset states =>
      refine built ((mirrored_initBasis hm hlink n 0 _).bind fun _ => ?_) hr
      exact mirrored_initUniformSuperposition hm states

end InitialState

/-!
## Batches
-/

namespace Simulator

section Batches

variable {R β γ : Type} [Field R] [LinearOrder R] [IStateBackend R β] [IStateBackend R γ]
  {rel : QuantumRegister R β -> QuantumRegister R γ -> Prop}

theorem run_registerOp (op : Operation R) :
    (op.registerOp.run : Call (QuantumRegister R β) (Answer R)) =
      BackendOp.command (executeOperation op) := by
  cases op with
  | inversionAboutMean materialized =>
      cases materialized with
      | true => rfl
      | false => rfl
  | _ => rfl

omit [Field R] [LinearOrder R] [IStateBackend R β] [IStateBackend R γ] in
theorem followed_of_command {x : Call (QuantumRegister R β) Unit}
    {y : Call (QuantumRegister R γ) Unit}
    (h : Call.Followed rel (BackendOp.command (R := R) x) (BackendOp.command (R := R) y)) :
    Call.Followed rel x y := by
  intro r q hrel
  have hcommand := h r q hrel
  rw [Call.FollowedAt, BackendOp.command, Call.post_bind_iff] at hcommand
  refine Call.Post.mono hcommand ?_
  rintro _ r' ⟨q', hy, hrel'⟩
  rw [BackendOp.command, Call.bind_apply] at hy
  rcases hrun : y q with ⟨result, q1⟩
  rw [hrun] at hy
  cases result with
  | error e => cases hy
  | ok a =>
      cases hy
      exact ⟨q', rfl, hrel'⟩

omit [Field R] [LinearOrder R] in
theorem followed_closingBatch {x : Call (QuantumRegister R β) Unit}
    {y : Call (QuantumRegister R γ) Unit} (h : Call.Followed rel x y) :
    Call.Followed rel (closingBatch x) (closingBatch y) := by
  intro r q hrel
  have hblock := h r q hrel
  unfold Call.FollowedAt Call.Post at *
  rcases hrun : x r with ⟨result, r'⟩
  rw [hrun] at hblock
  cases result with
  | error e =>
      rw [closingBatch, hrun]
      trivial
  | ok a =>
      rcases hblock with ⟨q', hy, hrel'⟩
      rw [closingBatch, hrun]
      exact ⟨q', by rw [closingBatch, hy], hrel'⟩

theorem followed_runBatch {ops : List (Operation R)}
    (hops : forall op, op ∈ ops ->
      Call.Followed rel (op.registerOp.run) (op.registerOp.run))
    (hbegin : Call.Followed rel (RegisterOp.beginOperationBatch : RegisterOp R).run
      (RegisterOp.beginOperationBatch : RegisterOp R).run)
    (hend : Call.Followed rel (RegisterOp.endOperationBatch : RegisterOp R).run
      (RegisterOp.endOperationBatch : RegisterOp R).run) :
    Call.Followed rel (runBatch ops) (runBatch ops) := by
  refine (followed_of_command hbegin).bind fun _ => followed_closingBatch ?_
  refine Call.Followed.bind ?_ fun _ => followed_of_command hend
  apply Call.Followed.forM
  intro op hop
  have hrun := hops op hop
  rw [run_registerOp, run_registerOp] at hrun
  exact followed_of_command hrun

end Batches

end Simulator

/-!
## Against the dense register
-/

def RegisterOp.Exact {R : Type} [Field R] [LinearOrder R] [CMath R] (op : RegisterOp R) : Prop :=
  forall gate qubits, op = .applyGate gate qubits ->
    CompressedStateBackend.MatchedExactly gate qubits.length

namespace QuantumRegister

section Rules

variable {R B : Type} [Field R] [LinearOrder R] [CMath R] {P : CodecPolicy R B}

abbrev guardedRules (hP : P.LosslessOrThrows) : EagerRules R :=
  eagerRules (guardedStoresVector hP) (.error .logicError)

abbrev denseRules : EagerRules R :=
  eagerRules DenseStateBackend.storesVector (.ok .done)

/-- The compressed register has returned what the dense one has so far. -/
def AsDense (hP : P.LosslessOrThrows) (n : Nat)
    (r : QuantumRegister R (CompressedStateBackend P)) (d : DenseRegister R) : Prop :=
  exists (L : LogicalState R) (q : QuantumRegister R (Guarded P)), L.numQubits = n ∧
    Mirrored Standby.Live r q ∧ Refined (guardedStoresVector hP) L q ∧
      Refined DenseStateBackend.storesVector L d

end Rules

variable {B : Type} {P : CodecPolicy Real B} {hP : P.LosslessOrThrows} {n : Nat}

/-- Where the compressed register may return, both kinds of registers have the same rules. -/
theorem spec_eq_dense {L : LogicalState Real} {op : RegisterOp Real} (hn : L.numQubits ≤ 31)
    (hlen : L.amplitudes.length = 2 * 2 ^ L.numQubits) (hvalid : op.Valid L.numQubits)
    (hexact : op.Exact) {a : Answer Real} (ha : (op.spec (guardedRules hP) L).1 = .ok a) :
    op.spec denseRules L = op.spec (guardedRules hP) L := by
  cases op with
  | applyGate gate qubits =>
      have hgate := CompressedStateBackend.gateVector_eq_blockGate hn hvalid hlen
        (hexact gate qubits rfl)
      simp only [RegisterOp.spec, LogicalState.eagerVector]
      rw [show (guardedRules hP).gate = CompressedStateBackend.gateVector from rfl, hgate]
      rfl
  | endOperationBatch =>
      simp only [RegisterOp.spec, LogicalState.eagerAnswer] at ha ⊢
      by_cases hdepth : L.depth = 0
      · rw [if_pos hdepth] at ha
        cases ha
      · rw [if_neg hdepth, if_neg hdepth]
        rfl
  | _ => rfl

/-- What an operation returns on the compressed register it returns on the dense one. -/
theorem followed_asDense {op : RegisterOp Real} (hvalid : op.Valid n) (hexact : op.Exact) :
    Call.Followed (AsDense hP n) op.run op.run := by
  rintro r d ⟨L, q, rfl, hmirrored, hguarded, hdense⟩
  refine Call.Post.mono (mirrored_run mirrors_live op r q hmirrored) ?_
  rintro a r' ⟨q', hq, hmirrored'⟩
  have hrefines := refines_op (endsUnmatched_guarded hP) hguarded hvalid
  have hrefines' := refines_op DenseRegister.endsUnmatched hdense hvalid
  rw [Refines, hq] at hrefines
  have hspec := spec_eq_dense hguarded.qubits hguarded.length hvalid hexact hrefines.1.symm
  rw [Refines, hspec, ← hrefines.1] at hrefines'
  rcases hrun : op.run d with ⟨result, d'⟩
  rw [hrun] at hrefines'
  cases result with
  | error e => cases hrefines'.1
  | ok a' =>
      have ha : a' = a := Except.ok.inj hrefines'.1
      subst ha
      exact ⟨d', rfl, (op.spec (guardedRules hP) L).2, q', rfl, hmirrored', hrefines.2,
        hrefines'.2⟩

end QuantumRegister

namespace Simulator

variable {B : Type} {P : CodecPolicy Real B} {n : Nat}

section Stages

variable {R β : Type} [Field R] [LinearOrder R] [IStateBackend R β] {selected : β}
  {circuit : Circuit R} {start final : QuantumState R β} {r r' : QuantumRegister R β}

theorem run_of_stages (hqubits : circuit.qubits = start.qubits)
    (hr : start.materialize selected = .ok r)
    (hbatch : runBatch circuit.operations r = (.ok (), r')) :
    run selected circuit start = .ok (QuantumState.fromRegister r') := by
  rw [run, if_neg (not_not.mpr hqubits), hr]
  simp only [hbatch]

theorem stages_of_run (h : run selected circuit start = .ok final) :
    circuit.qubits = start.qubits ∧ exists r r', start.materialize selected = .ok r ∧
      runBatch circuit.operations r = (.ok (), r') ∧ final = QuantumState.fromRegister r' := by
  rw [run] at h
  split at h
  · cases h
  · rename_i hqubits
    refine ⟨not_not.mp hqubits, ?_⟩
    cases hr : start.materialize selected with
    | error e =>
        rw [hr] at h
        cases h
    | ok r =>
        rcases hbatch : runBatch circuit.operations r with ⟨result, r'⟩
        simp only [hr, hbatch] at h
        cases result with
        | error e => cases h
        | ok a =>
            cases h
            exact ⟨r, r', rfl, hbatch, rfl⟩

end Stages

/--
A run on a codec that keeps what it stores or throws: if it returns, so does the dense run,
and until its first exception the final register answers every further operation as the
dense one.
-/
theorem returned_run_as_dense (hP : P.LosslessOrThrows) (hn : n ≤ 31)
    (hfits : ChunkLayout.Fits (2 ^ n) P.chunkStates) {start : InitialState Real}
    (hstart : start.Valid n) {circuit : Circuit Real}
    (hcircuit : forall op, op ∈ circuit.operations -> op.Valid n ∧ op.registerOp.Exact)
    {final : QuantumState Real (CompressedStateBackend P)}
    (hrun : run (CompressedStateBackend.make P) circuit (start.state n _) = .ok final) :
    exists r d, final = QuantumState.fromRegister r ∧
      run (DenseStateBackend.make : DenseStateBackend Real) circuit (start.state n _) =
        .ok (QuantumState.fromRegister d) ∧
      forall ops : List (RegisterOp Real), (forall op, op ∈ ops -> op.Valid n ∧ op.Exact) ->
        returned (outcomes RegisterOp.run ops r) <+: returned (outcomes RegisterOp.run ops d) := by
  rcases stages_of_run hrun with ⟨hqubits, r0, r, hr0, hbatch, rfl⟩
  obtain ⟨g, hg⟩ : exists g : Guarded P, g =
      { standby := CompressedStateBackend.make P.plain
        live := some (CompressedStateBackend.make P) } := ⟨_, rfl⟩
  have hlive : Standby.Live (CompressedStateBackend.make P) g := by
    rw [hg]
    rfl
  rcases InitialState.mirrored_materialize mirrors_live hlive hr0 with ⟨q0, hq0, hmirrored⟩
  rcases InitialState.lazy_materialize (guardedStoresVector hP) g hn hfits hstart with
    ⟨q, hq, hguarded⟩
  rcases InitialState.lazy_materialize DenseStateBackend.storesVector
    (DenseStateBackend.make : DenseStateBackend Real) hn trivial hstart with ⟨d0, hd0, hdense⟩
  rw [hq0] at hq
  cases hq
  have hrel : AsDense hP n r0 d0 :=
    ⟨⟨n, start.vector n, 0⟩, q0, rfl, hmirrored, hguarded, hdense⟩
  have hfollowed : Call.FollowedAt (AsDense hP n) (runBatch circuit.operations)
      (runBatch circuit.operations) r0 d0 :=
    followed_runBatch (fun op hop => followed_asDense (hcircuit op hop).1 (hcircuit op hop).2)
      (followed_asDense trivial (fun _ _ h => by cases h))
      (followed_asDense trivial (fun _ _ h => by cases h)) r0 d0 hrel
  unfold Call.FollowedAt Call.Post at hfollowed
  rw [hbatch] at hfollowed
  rcases hfollowed with ⟨d, hd, hrel'⟩
  refine ⟨r, d, rfl, run_of_stages hqubits hd0 hd, ?_⟩
  intro ops hops
  exact returned_prefix (fun op hop => followed_asDense (hops op hop).1 (hops op hop).2) hrel'

def throwsSixth : CodecPolicy Real Real :=
  CodecPolicy.scripted Real [false, false, false, false, false, true] 1 2 Nat.one_pos
    Nat.one_lt_two

/-- One iteration of a search, which ends before the codec throws. -/
theorem returned_run_as_dense_grover :
    let circuit : Circuit Real :=
      { qubits := 1
        operations := [.phaseFlipBasisState 0, .inversionAboutMean false] }
    let start : InitialState Real := .amplitudes [1, 0, 0, 0]
    exists r d, run (CompressedStateBackend.make throwsSixth) circuit (start.state 1 _) =
        .ok (QuantumState.fromRegister r) ∧
      run (DenseStateBackend.make : DenseStateBackend Real) circuit (start.state 1 _) =
        .ok (QuantumState.fromRegister d) ∧
      returned (outcomes RegisterOp.run [.amplitude 0, .amplitudes] r) <+:
        returned (outcomes RegisterOp.run [.amplitude 0, .amplitudes] d) := by
  intro circuit start
  have hok : (run (CompressedStateBackend.make throwsSixth) circuit
      (start.state 1 _)).toOption.isSome = true := by
    decide +kernel
  rcases hrun : run (CompressedStateBackend.make throwsSixth) circuit (start.state 1 _) with
    e | final
  · rw [hrun] at hok
    cases hok
  · have hP : throwsSixth.LosslessOrThrows := CodecPolicy.losslessOrThrows_scripted _ _ _
    have hcircuit : forall op, op ∈ circuit.operations ->
        op.Valid 1 ∧ op.registerOp.Exact := by
      have hflip : (.phaseFlipBasisState 0 : Operation Real).Valid 1 := show 0 < 2 ^ 1 by decide
      simp only [circuit, List.mem_cons, List.not_mem_nil, or_false, forall_eq_or_imp, forall_eq]
      refine ⟨⟨hflip, ?_⟩, trivial, ?_⟩
      · intro gate qubits h
        cases h
      · intro gate qubits h
        cases h
    have hfits : ChunkLayout.Fits (2 ^ 1) throwsSixth.chunkStates := by decide
    have hstart : start.Valid 1 := show [(1 : Real), 0, 0, 0].length = 2 * 2 ^ 1 from rfl
    obtain ⟨r, d, rfl, hdense, hqueries⟩ :=
      returned_run_as_dense hP (by decide) hfits hstart hcircuit hrun
    refine ⟨r, d, rfl, hdense, hqueries _ ?_⟩
    simp only [List.mem_cons, List.not_mem_nil, or_false, forall_eq_or_imp, forall_eq]
    refine ⟨⟨show 0 < 2 ^ 1 by decide, ?_⟩, trivial, ?_⟩
    · intro gate qubits h
      cases h
    · intro gate qubits h
      cases h

end Simulator

end Tmfqs
