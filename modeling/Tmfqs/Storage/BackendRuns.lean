import Tmfqs.Library.Trace
import Tmfqs.Storage.Visits

/-!
# Runs of backend calls

The calls a register makes on its backend, the arguments it lets through, and the
answers of a plain state vector.  Every backend that stores a state vector gives
these answers along every run.
-/

namespace Tmfqs

open Library

inductive BackendOp (R : Type) where
  | initZero (numQubits : Nat)
  | initBasis (numQubits initState : Nat) (amp : Amplitude R)
  | initUniformSuperposition (numQubits : Nat) (basisStates : List Nat)
  | loadAmplitudes (numQubits : Nat) (amplitudes : List R)
  | setAmplitude (state : Nat) (amp : Amplitude R)
  | phaseFlipBasisState (state : Nat)
  | inversionAboutMean
  | inversionAboutMeanWith (mean : Amplitude R)
  | applyAffineTransform (scale bias : Amplitude R)
  | applyHadamard (qubit : Nat)
  | applyPauliX (qubit : Nat)
  | applyControlledPhaseShift (controlQubit targetQubit : Nat) (theta : R)
  | applyControlledNot (controlQubit targetQubit : Nat)
  | applyGate (gate : QuantumGate R) (qubits : List Nat)
  | beginOperationBatch
  | endOperationBatch
  | amplitude (state : Nat)
  | probability (state : Nat)
  | totalProbability
  | exportAmplitudes
  | forEachAmplitudeChunk
  | sampleMeasurement (rnd : R)
  | printNonZeroStates (epsilon : R)

/-- What a call returns; the chunks of an iteration are concatenated. -/
inductive Answer (R : Type) where
  | done
  | amplitude (amp : Amplitude R)
  | value (x : R)
  | amplitudes (data : List R)
  | state (state : Nat)
  | lines (lines : List (Nat × Amplitude R))

namespace BackendOp

variable {R : Type}

section Run

variable {β : Type} [IStateBackend R β]

def command (call : Call β Unit) : Call β (Answer R) := do
  call
  pure .done

def query {α : Type} (wrap : α -> Answer R) (call : Call β α) : Call β (Answer R) := do
  let a <- call
  pure (wrap a)

def run : BackendOp R -> Call β (Answer R)
  | initZero n => command (IStateBackend.initZero n)
  | initBasis n s amp => command (IStateBackend.initBasis n s amp)
  | initUniformSuperposition n states =>
      command (IStateBackend.initUniformSuperposition n states)
  | loadAmplitudes n data => command (IStateBackend.loadAmplitudes n data)
  | setAmplitude s amp => command (IStateBackend.setAmplitude s amp)
  | phaseFlipBasisState s => command (IStateBackend.phaseFlipBasisState s)
  | inversionAboutMean => command IStateBackend.inversionAboutMean
  | inversionAboutMeanWith mean => command (IStateBackend.inversionAboutMeanWith mean)
  | applyAffineTransform scale bias => command (IStateBackend.applyAffineTransform scale bias)
  | applyHadamard q => command (IStateBackend.applyHadamard q)
  | applyPauliX q => command (IStateBackend.applyPauliX q)
  | applyControlledPhaseShift c q theta =>
      command (IStateBackend.applyControlledPhaseShift c q theta)
  | applyControlledNot c q => command (IStateBackend.applyControlledNot c q)
  | applyGate gate qubits => command (IStateBackend.applyGate gate qubits)
  | beginOperationBatch => command IStateBackend.beginOperationBatch
  | endOperationBatch => command IStateBackend.endOperationBatch
  | amplitude s => query .amplitude (IStateBackend.amplitude s)
  | probability s => query .value (IStateBackend.probability s)
  | totalProbability => query .value IStateBackend.totalProbability
  | exportAmplitudes => query .amplitudes IStateBackend.exportAmplitudes
  | forEachAmplitudeChunk =>
      query (fun chunks => .amplitudes (chunks.flatMap Prod.snd))
        IStateBackend.forEachAmplitudeChunk
  | sampleMeasurement rnd => query .state (IStateBackend.sampleMeasurement rnd)
  | printNonZeroStates epsilon => query .lines (IStateBackend.printNonZeroStates epsilon)

end Run

/-!
## Valid arguments

A register knows how many qubits it has and how many batches are open.
-/

/-- The number of qubits an initialising call asks for. -/
def size : BackendOp R -> Option Nat
  | initZero n => some n
  | initBasis n _ _ => some n
  | initUniformSuperposition n _ => some n
  | loadAmplitudes n _ => some n
  | _ => none

/-- Number of qubits and of open batches after a call. -/
def after (op : BackendOp R) (s : Option (Nat × Nat)) : Option (Nat × Nat) :=
  match op.size with
  | some n => some (n, 0)
  | none =>
      match op with
      | beginOperationBatch => s.map fun s => (s.1, s.2 + 1)
      | endOperationBatch => s.map fun s => (s.1, s.2 - 1)
      | _ => s

def ValidInit : BackendOp R -> Prop
  | initZero n => n ≤ 31
  | initBasis n s _ => n ≤ 31 ∧ s < 2 ^ n
  | initUniformSuperposition n states =>
      n ≤ 31 ∧ states ≠ [] ∧ forall s, s ∈ states -> s < 2 ^ n
  | loadAmplitudes n data => n ≤ 31 ∧ data.length = 2 * 2 ^ n
  | _ => True

/-- The arguments of a call on `n` qubits with `depth` open batches. -/
def ValidOn (n depth : Nat) : BackendOp R -> Prop
  | setAmplitude s _ => s < 2 ^ n
  | phaseFlipBasisState s => s < 2 ^ n
  | applyHadamard q => q < n
  | applyPauliX q => q < n
  | applyControlledPhaseShift c q _ => c < n ∧ q < n ∧ c ≠ q
  | applyControlledNot c q => c < n ∧ q < n ∧ c ≠ q
  | applyGate gate qubits => ValidTargets qubits n gate.dimension
  | endOperationBatch => 0 < depth
  | amplitude s => s < 2 ^ n
  | probability s => s < 2 ^ n
  | _ => True

/--
A call the register lets through.  Initialising calls come while no batch is open,
all others on an initialised backend.
-/
def Valid (op : BackendOp R) (s : Option (Nat × Nat)) : Prop :=
  match op.size, s with
  | some _, none => op.ValidInit
  | some _, some s => op.ValidInit ∧ s.2 = 0
  | none, none => False
  | none, some s => op.ValidOn s.1 s.2

/-- Every call of the sequence is valid after the calls before it. -/
def ValidRun : Option (Nat × Nat) -> List (BackendOp R) -> Prop
  | _, [] => True
  | s, op :: rest => op.Valid s ∧ ValidRun (op.after s) rest

end BackendOp

/-!
## The calls on a state vector
-/

/-- A state vector with its number of qubits and of open batches. -/
structure LogicalState (R : Type) where
  numQubits : Nat
  amplitudes : List R
  depth : Nat

namespace LogicalState

variable {R : Type} [Field R] [LinearOrder R] [CMath R]

def shape (L : LogicalState R) : Nat × Nat :=
  (L.numQubits, L.depth)

def initial : BackendOp R -> List R
  | .initZero n => StateVector.zero n
  | .initBasis n s amp => StateVector.basis n s amp
  | .initUniformSuperposition n states => StateVector.uniform n states
  | .loadAmplitudes _ data => data
  | _ => []

/-- The vector after a call, when a gate does `gate` to it. -/
def vectorAfter (gate : QuantumGate R -> List Nat -> Nat -> List R -> List R)
    (L : LogicalState R) : BackendOp R -> List R
  | .setAmplitude s amp => setAmp L.amplitudes s amp
  | .phaseFlipBasisState s => StateVector.phaseFlip L.amplitudes s
  | .inversionAboutMean =>
      StateVector.reflect (StateVector.mean L.numQubits L.amplitudes) L.amplitudes
  | .inversionAboutMeanWith mean => StateVector.reflect mean L.amplitudes
  | .applyAffineTransform scale bias => StateVector.affine scale bias L.amplitudes
  | .applyHadamard q => StateVector.hadamard L.numQubits q L.amplitudes
  | .applyPauliX q => StateVector.pauliX L.numQubits q L.amplitudes
  | .applyControlledPhaseShift c q theta =>
      StateVector.controlledPhaseShift L.numQubits c q theta L.amplitudes
  | .applyControlledNot c q => StateVector.controlledNot L.numQubits c q L.amplitudes
  | .applyGate g qubits => gate g qubits L.numQubits L.amplitudes
  | _ => L.amplitudes

def depthAfter (L : LogicalState R) : BackendOp R -> Nat
  | .beginOperationBatch => L.depth + 1
  | .endOperationBatch => L.depth - 1
  | _ => L.depth

def answer (L : LogicalState R) : BackendOp R -> Except ExcKind (Answer R)
  | .amplitude s => .ok (.amplitude (ampAt L.amplitudes s))
  | .probability s => .ok (.value (ampAt L.amplitudes s).probability)
  | .totalProbability => .ok (.value (StateVector.totalProbability L.amplitudes))
  | .exportAmplitudes => .ok (.amplitudes L.amplitudes)
  | .forEachAmplitudeChunk => .ok (.amplitudes L.amplitudes)
  | .sampleMeasurement rnd => (StateVector.sample rnd L.amplitudes).map .state
  | .printNonZeroStates epsilon => (StateVector.print epsilon L.amplitudes).map .lines
  | _ => .ok .done

end LogicalState

/-- A call on a state vector, `none` before the first initialising call. -/
def BackendOp.spec {R : Type} [Field R] [LinearOrder R] [CMath R]
    (gate : QuantumGate R -> List Nat -> Nat -> List R -> List R) (op : BackendOp R) :
    Library.Call ExcKind (Option (LogicalState R)) (Answer R) :=
  fun s =>
    match op.size, s with
    | some n, _ =>
        (.ok .done, some
          { numQubits := n
            amplitudes := LogicalState.initial op
            depth := 0 })
    | none, none => (.error .logicError, none)
    | none, some L =>
        (L.answer op, some
          { numQubits := L.numQubits
            amplitudes := L.vectorAfter gate op
            depth := L.depthAfter op })

theorem BackendOp.shape_spec {R : Type} [Field R] [LinearOrder R] [CMath R]
    (gate : QuantumGate R -> List Nat -> Nat -> List R -> List R) (op : BackendOp R)
    (s : Option (LogicalState R)) :
    (op.spec gate s).2.map LogicalState.shape = op.after (s.map LogicalState.shape) := by
  cases op <;> cases s <;> rfl

/-!
## Refinement of one operation
-/

section Operations

variable {R σ τ : Type} {Rep : τ -> σ -> Prop} {spec : Library.Call ExcKind τ (Answer R)}
  {t t' : τ} {s : σ}

theorem refines_command {call : Call σ Unit} (hspec : spec t = (.ok .done, t'))
    (h : Does call s (Rep t')) :
    Refines Exc.kind Rep (BackendOp.command call) spec t s := by
  apply Call.Post.refines
  rw [BackendOp.command, Call.post_bind_iff]
  exact h.imp (fun _ s' hs => ⟨t', hspec, hs⟩) (fun _ _ he => he.elim)

theorem refines_query {α : Type} {wrap : α -> Answer R} {call : Call σ α}
    {answer : Except ExcKind α} (hspec : spec t = (answer.map wrap, t'))
    (h : Answers call s answer (Rep t')) :
    Refines Exc.kind Rep (BackendOp.query wrap call) spec t s := by
  apply Call.Post.refines
  rw [BackendOp.query, Call.post_bind_iff]
  refine h.imp ?_ ?_
  · rintro a s' ⟨rfl, hs⟩
    exact ⟨t', hspec, hs⟩
  · rintro e s' ⟨rfl, hs⟩
    exact ⟨t', hspec, hs⟩

end Operations

/-!
## Every run of a backend
-/

namespace StoresVector

variable {R : Type} [Field R] [LinearOrder R] [CMath R] {β : Type} [IStateBackend R β]
  (sv : StoresVector (R := R) β)

/-- The backend stores the vector; before the first initialising call it may be anything. -/
def Stores : Option (LogicalState R) -> β -> Prop
  | none, _ => True
  | some L, b => sv.Rep L.numQubits L.amplitudes L.depth b

/-- What a run needs beyond valid arguments: sizes the backend accepts, and gates to which
it does `gate`. -/
def Accepts (gate : QuantumGate R -> List Nat -> Nat -> List R -> List R) (op : BackendOp R) :
    Prop :=
  (forall n, op.size = some n -> sv.Size n) ∧
    forall g qubits, op = .applyGate g qubits ->
      forall n v, n ≤ 31 -> ValidTargets qubits n g.dimension -> v.length = 2 * 2 ^ n ->
        sv.gate g qubits n v = gate g qubits n v

variable {sv} {gate : QuantumGate R -> List Nat -> Nat -> List R -> List R}

theorem refines_init {op : BackendOp R} {n : Nat} (hsize : op.size = some n)
    (hvalid : op.ValidInit) (hop : sv.Accepts gate op) (s : Option (LogicalState R)) (b : β) :
    Refines Exc.kind sv.Stores op.run (op.spec gate) s b := by
  have hn := hop.1 n hsize
  cases op with
  | initZero m =>
      cases hsize
      exact refines_command rfl (sv.initZero hvalid hn)
  | initBasis m t amp =>
      cases hsize
      exact refines_command rfl (sv.initBasis hvalid.1 hn hvalid.2)
  | initUniformSuperposition m states =>
      cases hsize
      exact refines_command rfl
        (sv.initUniformSuperposition hvalid.1 hn hvalid.2.1 hvalid.2.2)
  | loadAmplitudes m data =>
      cases hsize
      exact refines_command rfl (sv.loadAmplitudes hvalid.1 hn hvalid.2)
  | _ => cases hsize

theorem refines_call {op : BackendOp R} (hsize : op.size = none) {L : LogicalState R} {b : β}
    (h : sv.Rep L.numQubits L.amplitudes L.depth b)
    (hvalid : op.ValidOn L.numQubits L.depth) (hop : sv.Accepts gate op) :
    Refines Exc.kind sv.Stores op.run (op.spec gate) (some L) b := by
  obtain ⟨hn, _, hlen⟩ := sv.bound h
  have answers {α : Type} {wrap : α -> Answer R} {call : Call β α} {answer : Except ExcKind α}
      {spec : Library.Call ExcKind (Option (LogicalState R)) (Answer R)}
      (hspec : spec (some L) = (answer.map wrap, some L))
      (hcall : Answers call b answer (sv.Rep L.numQubits L.amplitudes L.depth)) :
      Refines Exc.kind sv.Stores (BackendOp.query wrap call) spec (some L) b :=
    refines_query hspec hcall
  cases op with
  | initZero m => cases hsize
  | initBasis m t amp => cases hsize
  | initUniformSuperposition m states => cases hsize
  | loadAmplitudes m data => cases hsize
  | setAmplitude t amp => exact refines_command rfl (sv.setAmplitude h hvalid)
  | phaseFlipBasisState t => exact refines_command rfl (sv.phaseFlipBasisState h hvalid)
  | inversionAboutMean => exact refines_command rfl (sv.inversionAboutMean h)
  | inversionAboutMeanWith mean => exact refines_command rfl (sv.inversionAboutMeanWith h)
  | applyAffineTransform scale bias => exact refines_command rfl (sv.applyAffineTransform h)
  | applyHadamard q => exact refines_command rfl (sv.applyHadamard h hvalid)
  | applyPauliX q => exact refines_command rfl (sv.applyPauliX h hvalid)
  | applyControlledPhaseShift c q theta =>
      exact refines_command rfl
        (sv.applyControlledPhaseShift h hvalid.1 hvalid.2.1 hvalid.2.2)
  | applyControlledNot c q =>
      exact refines_command rfl (sv.applyControlledNot h hvalid.1 hvalid.2.1 hvalid.2.2)
  | applyGate g qubits =>
      have hgate := sv.applyGate h hvalid
      rw [hop.2 g qubits rfl L.numQubits L.amplitudes hn hvalid hlen] at hgate
      exact refines_command rfl hgate
  | beginOperationBatch => exact refines_command rfl (sv.beginOperationBatch h)
  | endOperationBatch =>
      have hpos : 0 < L.depth := hvalid
      have hdepth : L.depth - 1 + 1 = L.depth := by omega
      rw [← hdepth] at h
      exact refines_command rfl (sv.endOperationBatch h)
  | amplitude t => exact answers rfl (sv.amplitude h hvalid)
  | probability t => exact answers rfl (sv.probability h hvalid)
  | totalProbability => exact answers rfl (sv.totalProbability h)
  | exportAmplitudes => exact answers rfl (sv.exportAmplitudes h)
  | forEachAmplitudeChunk =>
      apply Call.Post.refines
      rw [BackendOp.run, BackendOp.query, Call.post_bind_iff]
      refine (sv.forEachAmplitudeChunk h).imp ?_ (fun _ _ he => he.elim)
      rintro chunks b' ⟨hchunks, hb⟩
      rw [hchunks.flatMap_eq]
      exact ⟨some L, rfl, hb⟩
  | sampleMeasurement rnd => exact answers rfl (sv.sampleMeasurement h)
  | printNonZeroStates epsilon => exact answers rfl (sv.printNonZeroStates h)

theorem refines_run (sv : StoresVector (R := R) β) {op : BackendOp R}
    {s : Option (LogicalState R)} {b : β} (h : sv.Stores s b)
    (hvalid : op.Valid (s.map LogicalState.shape)) (hop : sv.Accepts gate op) :
    Refines Exc.kind sv.Stores op.run (op.spec gate) s b := by
  unfold BackendOp.Valid at hvalid
  cases hsize : op.size with
  | some n =>
      rw [hsize] at hvalid
      refine refines_init hsize ?_ hop s b
      cases s with
      | none => exact hvalid
      | some L => exact hvalid.1
  | none =>
      rw [hsize] at hvalid
      cases s with
      | none => exact hvalid.elim
      | some L => exact refines_call hsize h hvalid hop

theorem along_valid {s : Option (LogicalState R)} {ops : List (BackendOp R)}
    (h : BackendOp.ValidRun (s.map LogicalState.shape) ops) :
    Along (BackendOp.spec gate) (fun op s => op.Valid (s.map LogicalState.shape)) ops s := by
  induction ops generalizing s with
  | nil => trivial
  | cons op rest ih =>
      refine ⟨h.1, ih ?_⟩
      rw [BackendOp.shape_spec]
      exact h.2

theorem along_accepted {ops : List (BackendOp R)} (hvalid : BackendOp.ValidRun none ops)
    (hops : forall op, op ∈ ops -> sv.Accepts gate op) :
    Along (BackendOp.spec gate)
      (fun op s => op.Valid (s.map LogicalState.shape) ∧ sv.Accepts gate op) ops
      (none : Option (LogicalState R)) := by
  have hand : forall (rest : List (BackendOp R)) (s : Option (LogicalState R)),
      (forall op, op ∈ rest -> sv.Accepts gate op) ->
      Along (BackendOp.spec gate) (fun op s => op.Valid (s.map LogicalState.shape)) rest s ->
      Along (BackendOp.spec gate)
        (fun op s => op.Valid (s.map LogicalState.shape) ∧ sv.Accepts gate op) rest s := by
    intro rest
    induction rest with
    | nil =>
        intro s _ _
        trivial
    | cons op rest ih =>
        intro s hrest h
        exact ⟨⟨h.1, hrest op List.mem_cons_self⟩,
          ih _ (fun op' hop' => hrest op' (List.mem_cons_of_mem op hop')) h.2⟩
  exact hand ops none hops (along_valid hvalid)

/-- Along every run of valid calls the backend answers, and stores, as the vector says. -/
theorem trace_eq_spec (sv : StoresVector (R := R) β) {ops : List (BackendOp R)}
    (hvalid : BackendOp.ValidRun none ops) (hops : forall op, op ∈ ops -> sv.Accepts gate op)
    (b : β) :
    (outcomes BackendOp.run ops b).map (Except.mapError Exc.kind) =
        outcomes (BackendOp.spec gate) ops none ∧
      sv.Stores (reached (BackendOp.spec gate) ops none) (reached BackendOp.run ops b) := by
  have hstep : forall (op : BackendOp R) (s : Option (LogicalState R)) (b : β), sv.Stores s b ->
      op.Valid (s.map LogicalState.shape) ∧ sv.Accepts gate op ->
      Refines Exc.kind sv.Stores op.run (op.spec gate) s b :=
    fun op s b h hP => sv.refines_run h hP.1 hP.2
  have hstart : sv.Stores none b := trivial
  exact trace_refines hstep hstart (along_accepted hvalid hops)

/-- After a run of valid calls that begins with an initialising one, a vector is stored. -/
theorem exists_rep_reached (sv : StoresVector (R := R) β) {ops : List (BackendOp R)}
    (hne : ops ≠ []) (hvalid : BackendOp.ValidRun none ops)
    (hsize : forall op, op ∈ ops -> forall n, op.size = some n -> sv.Size n) (b : β) :
    exists n v d, sv.Rep n v d (reached BackendOp.run ops b) := by
  have hops : forall op, op ∈ ops -> sv.Accepts sv.gate op :=
    fun op hop => ⟨hsize op hop, fun _ _ _ _ _ _ _ _ => rfl⟩
  have hstores := (sv.trace_eq_spec hvalid hops b).2
  obtain ⟨L, hL⟩ : exists L : LogicalState R, reached (BackendOp.spec sv.gate) ops none = some L := by
    cases ops with
    | nil => exact absurd rfl hne
    | cons op rest =>
        -- the first call is an initialising one, and no call forgets the vector
        have hkeep : forall (rest : List (BackendOp R)) (L : LogicalState R), exists L',
            reached (BackendOp.spec sv.gate) rest (some L) = some L' := by
          intro rest
          induction rest with
          | nil =>
              intro L
              exact ⟨L, rfl⟩
          | cons op rest ih =>
              intro L
              obtain ⟨L', hL'⟩ : exists L', (op.spec sv.gate (some L)).2 = some L' := by
                unfold BackendOp.spec
                cases op.size with
                | none => exact ⟨_, rfl⟩
                | some n => exact ⟨_, rfl⟩
              rw [reached_cons, hL']
              exact ih L'
        have hfirst := hvalid.1
        unfold BackendOp.Valid at hfirst
        cases hop : op.size with
        | none =>
            rw [hop] at hfirst
            exact hfirst.elim
        | some n =>
            obtain ⟨L, hL⟩ : exists L, (op.spec sv.gate none).2 = some L := by
              unfold BackendOp.spec
              rw [hop]
              exact ⟨_, rfl⟩
            rw [reached_cons, hL]
            exact hkeep rest L
  rw [hL] at hstores
  exact ⟨L.numQubits, L.amplitudes, L.depth, hstores⟩

end StoresVector

end Tmfqs
