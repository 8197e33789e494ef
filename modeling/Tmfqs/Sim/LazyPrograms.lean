import Tmfqs.Library.Pool
import Tmfqs.Register.DenseRegister
import Tmfqs.Sim.CircuitRuns

/-!
# Programs on dense registers

A program builds registers from amplitude vectors, operates on them and copies them.
It cannot tell lazy registers from eager ones.
-/

namespace Tmfqs

open Library QuantumRegister

namespace RegisterProgram

open Simulator (circuitAmplitudes circuitAmplitudes_eq)

variable {R : Type} [Field R] [LinearOrder R] [CMath R]

abbrev Op (R : Type) : Type :=
  PoolOp (RegisterOp R)

def run : Op R -> Call (List (DenseRegister R)) (Answer R) :=
  PoolOp.run RegisterOp.run QuantumRegister.copy .done (outOfRange "no such register")

/-- The eager registers of a program, on which copying copies the vector. -/
def spec : Op R -> Library.Call ExcKind (List (LogicalState R)) (Answer R) :=
  PoolOp.run (RegisterOp.spec (eagerRules DenseStateBackend.storesVector (.ok .done)))
    (fun L => L) .done .outOfRange

/-- The operation names registers of the program and has valid arguments. -/
def Valid (op : Op R) (Ls : List (LogicalState R)) : Prop :=
  op.Meets (fun op L => op.Valid L.numQubits) Ls

def eager (start : Nat × List R) : LogicalState R :=
  { numQubits := start.1
    amplitudes := start.2
    depth := 0 }

/-- The register was constructed in the vector. -/
def Built (start : Nat × List R) (r : DenseRegister R) : Prop :=
  Constructed DenseStateBackend.make start.1 start.2 r

abbrev Refined : List (LogicalState R) -> List (DenseRegister R) -> Prop :=
  List.Forall₂ (QuantumRegister.Refined DenseStateBackend.storesVector)

theorem refined_of_built {starts : List (Nat × List R)} {rs : List (DenseRegister R)}
    (h : List.Forall₂ Built starts rs) : Refined (starts.map eager) rs := by
  induction h with
  | nil => exact List.Forall₂.nil
  | cons hhead _ ih => exact List.Forall₂.cons (Constructed.lazy hhead trivial) ih

variable [IsStrictOrderedRing R]

theorem refines_program {op : Op R} {Ls : List (LogicalState R)} {rs : List (DenseRegister R)}
    (h : Refined Ls rs) (hvalid : Valid op Ls) :
    Refines Exc.kind Refined (run op) (spec op) Ls rs := by
  refine pool_refines ?_ ?_ h hvalid
  · intro op L r hr hop
    exact refines_op DenseRegister.endsUnmatched hr hop
  · intro L r hr
    exact Lazy.copied hr fun _ hw => DenseStateBackend.storesVector_clone hw

omit [IsStrictOrderedRing R] in
theorem spec_ne_logicError {op : Op R} {Ls : List (LogicalState R)} (h : Valid op Ls) :
    (spec op Ls).1 ≠ .error .logicError := by
  cases op with
  | on object op =>
      obtain ⟨L, hL, _⟩ := h
      simp only [spec, PoolOp.run, hL, RegisterOp.spec]
      cases op with
      | measure rnd =>
          simp only [LogicalState.eagerAnswer, StateVector.sample]
          split
          · simp [Except.map]
          · split <;> simp [Except.map]
      | stream =>
          simp only [LogicalState.eagerAnswer, StateVector.print]
          split <;> simp [Except.map]
      | printStatesVector epsilon =>
          simp only [LogicalState.eagerAnswer, StateVector.print]
          split <;> simp [Except.map]
      | endOperationBatch =>
          simp only [LogicalState.eagerAnswer, eagerRules]
          split <;> simp
      | _ => simp [LogicalState.eagerAnswer]
  | copyConstruct source =>
      simp only [spec, PoolOp.run]
      split <;> simp
  | copyAssign target source =>
      simp only [spec, PoolOp.run]
      split <;> simp

/--
Lazy registers answer as eager ones along every program, never report a zero scale,
cache only true sums, and do not tell the two inversions apart.
-/
theorem lazy_refines_eager {starts : List (Nat × List Real)} {rs : List (DenseRegister Real)}
    (hbuilt : List.Forall₂ Built starts rs) {ops : List (Op Real)}
    (hvalid : Along spec Valid ops (starts.map eager)) :
    (outcomes run ops rs).map (Except.mapError Exc.kind) = outcomes spec ops (starts.map eager) ∧
      (forall e, .error e ∈ outcomes run ops rs -> e.kind ≠ .logicError) ∧
      forall r, r ∈ reached run ops rs ->
        (forall sum, r.cachedLogicalAmplitudeSum = some sum ->
          sum = StateVector.amplitudeSum
            (mapAmplitudes r.applyAffineOverlay r.backend.amplitudes)) ∧
        forall c c' : List (Operation Real), (forall op, op ∈ c -> op.Valid r.numQubits) ->
          (forall op, op ∈ c' -> op.Valid r.numQubits) ->
          c.map Operation.unmaterialized = c'.map Operation.unmaterialized ->
          exists data, (circuitAmplitudes c r).1 = .ok data ∧
            (circuitAmplitudes c' r).1 = .ok data := by
  have hstep : forall (op : Op Real) (Ls : List (LogicalState Real))
      (rs : List (DenseRegister Real)), Refined Ls rs -> Valid op Ls ->
      Refines Exc.kind Refined (run op) (spec op) Ls rs :=
    fun op Ls rs h hop => refines_program h hop
  obtain ⟨houts, hend⟩ := trace_refines hstep (refined_of_built hbuilt) hvalid
  refine ⟨houts, ?_, ?_⟩
  · intro e he hkind
    have hmem : (.error e.kind : Except ExcKind (Answer Real)) ∈
        outcomes spec ops (starts.map eager) := by
      rw [← houts]
      exact List.mem_map_of_mem (f := Except.mapError Exc.kind) he
    refine forall_mem_outcomes (Q := fun x => x ≠ .error .logicError)
      (fun op Ls hop => spec_ne_logicError hop) hvalid _ hmem ?_
    rw [hkind]
  · intro r hr
    obtain ⟨L, hL⟩ : exists L, QuantumRegister.Refined DenseStateBackend.storesVector L r := by
      obtain ⟨i, hi⟩ := List.mem_iff_getElem?.mp hr
      rcases forall2_getElem? hend i with ⟨L, r', _, hr', hL⟩ | ⟨_, hnone⟩
      · rw [hi] at hr'
        cases hr'
        exact ⟨L, hL⟩
      · rw [hi] at hnone
        cases hnone
    refine ⟨fun sum hsum => DenseRegister.Represents.sum_eq hL hsum, ?_⟩
    intro c c' hc hc' hsame
    rw [hL.numQubits] at hc hc'
    refine ⟨_, circuitAmplitudes_eq hL hc, ?_⟩
    rw [circuitAmplitudes_eq hL hc', ← Operation.applyAll_unmaterialized _ c, hsame,
      Operation.applyAll_unmaterialized]

theorem lazy_refines_eager_copied :
    exists r : DenseRegister Real,
      DenseRegister.ofAmplitudes 1 [1, 0, 0, 0] = .ok r ∧
        (outcomes run
            [.on 0 .applyInversionAboutMean, .on 0 (.applyPhaseFlipBasisState 1),
              .copyConstruct 0, .on 1 (.amplitude 1)] [r]).map (Except.mapError Exc.kind) =
          outcomes spec
            [.on 0 .applyInversionAboutMean, .on 0 (.applyPhaseFlipBasisState 1),
              .copyConstruct 0, .on 1 (.amplitude 1)] [eager (1, [1, 0, 0, 0])] := by
  obtain ⟨r, hr, _⟩ := DenseRegister.exists_ofAmplitudes (n := 1) (v := [(1 : Real), 0, 0, 0])
    (by decide) rfl
  refine ⟨r, hr, ?_⟩
  have hbuilt : List.Forall₂ Built [(1, [1, 0, 0, 0])] [r] :=
    List.Forall₂.cons (Constructed.amplitudes (by decide) rfl hr) List.Forall₂.nil
  refine (lazy_refines_eager hbuilt ?_).1
  have hlt : 1 < 2 ^ 1 := by decide
  exact ⟨⟨_, rfl, trivial⟩, ⟨_, rfl, hlt⟩, Nat.one_pos, ⟨_, rfl, hlt⟩, trivial⟩

end RegisterProgram

end Tmfqs
