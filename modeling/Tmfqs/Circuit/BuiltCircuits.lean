import Tmfqs.Circuit.Circuit

/-!
# The circuits that are built

The operations the two builders append, as plain lists.
-/

namespace Tmfqs

open Library

namespace Circuit

variable {R : Type}

def Appends (builder : Call (Circuit R) PUnit) (ops : List (Operation R)) : Prop :=
  forall c, builder c = (.ok ⟨⟩, { c with operations := c.operations ++ ops })

theorem appends_append (op : Operation R) : Appends (append op) [op] :=
  fun _ => rfl

theorem Appends.seq {first second : Call (Circuit R) PUnit} {ops ops' : List (Operation R)}
    (h : Appends first ops) (h' : Appends second ops') :
    Appends (first >>= fun _ => second) (ops ++ ops') := by
  intro c
  rw [Call.bind_apply, h c]
  simp only
  rw [h', List.append_assoc]

theorem appends_forM {ι : Type} {step : ι -> Call (Circuit R) PUnit}
    {ops : ι -> List (Operation R)} :
    forall items : List ι, (forall i, i ∈ items -> Appends (step i) (ops i)) ->
      Appends (items.forM step) (items.flatMap ops)
  | [], _ => fun c => by
      rw [List.flatMap_nil, List.append_nil]
      rfl
  | i :: rest, h => by
      have htail := appends_forM rest fun j hj => h j (List.mem_cons_of_mem i hj)
      exact (h i List.mem_cons_self).seq htail

theorem appends_map {ι : Type} {step : ι -> Call (Circuit R) PUnit} {op : ι -> Operation R}
    {items : List ι} (h : forall i, i ∈ items -> Appends (step i) [op i]) :
    Appends (items.forM step) (items.map op) := by
  rw [List.map_eq_flatMap]
  exact appends_forM items h

theorem build_eq {n : Nat} {builder : Call (Circuit R) PUnit} {ops : List (Operation R)}
    (h : builder (make n) = (.ok ⟨⟩, { qubits := n, operations := ops })) :
    build n builder = .ok { qubits := n, operations := ops } := by
  rw [build, h]

variable [Field R] [CMath R]

/-!
## The Fourier transform
-/

def qftPhase (target control : Nat) : Operation R :=
  .controlledPhaseShift control target (CMath.kPi / ((2 ^ (control - target) : Nat) : R))

def qftLayer (n target : Nat) : List (Operation R) :=
  .hadamard target ::
    (List.range' (target + 1) (n - (target + 1))).map (qftPhase target)

def qftOperations (n : Nat) : List (Operation R) :=
  (List.range n).flatMap (qftLayer n) ++
    (List.range (n / 2)).map fun left => .swap left (n - left - 1)

theorem makeQft_eq {n : Nat} (hn : n ≤ 63) :
    (makeQft n : Except Exc (Circuit R)) =
      .ok { qubits := n, operations := qftOperations n } := by
  have hphase : forall target control, control ∈ List.range' (target + 1) (n - (target + 1)) ->
      Appends (controlledPhase control target
        (CMath.kPi / ((u64 (1 <<< (control - target)) : Nat) : R)))
        [qftPhase target control] := by
    intro target control hcontrol
    have hlt : control < n := by
      have hmem := List.mem_range'_1.mp hcontrol
      omega
    have hpow : 2 ^ (control - target) < 2 ^ 64 := Nat.pow_lt_pow_right (by decide) (by omega)
    rw [qftPhase, Nat.one_shiftLeft, u64_of_lt hpow]
    exact appends_append _
  have hlayer : forall target, Appends
      (do
        h (R := R) target
        (List.range' (target + 1) (n - (target + 1))).forM fun control =>
          controlledPhase control target
            (CMath.kPi / ((u64 (1 <<< (control - target)) : Nat) : R)))
      (qftLayer n target) := by
    intro target
    exact (appends_append (.hadamard target)).seq (appends_map (hphase target))
  have hall := (appends_forM (List.range n) fun target _ => hlayer target).seq
    (appends_map fun left (_ : left ∈ List.range (n / 2)) =>
      appends_append (.swap (R := R) left (n - left - 1)))
  apply build_eq
  rw [appendQft, Call.bind_apply, Call.get_apply]
  exact hall (make n)

/-!
## Grover search
-/

def groverRound (options : GroverCircuitOptions) : List (Operation R) :=
  (selectedStates options.markedStates).map .phaseFlipBasisState ++
    [.inversionAboutMean options.materializedDiffusion]

def groverIterations (stateCount markedCount : Nat) : Nat :=
  u32 (CMath.floor (CMath.kPi / 4 *
    CMath.sqrt ((stateCount : R) / (markedCount : R)) : R)).toNat

def groverOperations (n iterations : Nat) (options : GroverCircuitOptions) :
    List (Operation R) :=
  (List.range n).map .hadamard ++
    (List.range iterations).flatMap fun _ => groverRound options

theorem appendGrover_eq {c : Circuit R} (hn : c.qubits ≤ 63) {options : GroverCircuitOptions}
    (hne : options.markedStates ≠ [])
    (hlt : forall s, s ∈ options.markedStates -> s < 2 ^ c.qubits) :
    appendGrover options c =
      (.ok ⟨⟩,
        { c with
          operations := c.operations ++ groverOperations c.qubits
            (groverIterations (R := R) (2 ^ c.qubits)
              (selectedStates options.markedStates).length) options }) := by
  have hempty : ¬ options.markedStates.isEmpty = true := by
    simpa using hne
  have hcount : (selectedStates options.markedStates).length ≠ 0 := by
    intro hzero
    exact selectedStates_ne_nil hne (List.eq_nil_of_length_eq_zero hzero)
  have hflip : forall state, state ∈ selectedStates options.markedStates ->
      Appends
        (do
          if state ≥ 2 ^ c.qubits then
            throw (invalidArgument "Grover marked state is out of range")
          phaseFlip (R := R) state)
        [.phaseFlipBasisState state] := by
    intro state hstate
    rw [if_neg (Nat.not_le.mpr (hlt state (mem_selectedStates.mp hstate)))]
    exact appends_append _
  have hround : Appends
      (do
        (selectedStates options.markedStates).forM fun state => do
          if state ≥ 2 ^ c.qubits then
            throw (invalidArgument "Grover marked state is out of range")
          phaseFlip (R := R) state
        inversionAboutMean options.materializedDiffusion)
      (groverRound options) :=
    (appends_map hflip).seq (appends_append (.inversionAboutMean options.materializedDiffusion))
  have hall := (appends_map fun q (_ : q ∈ List.range c.qubits) =>
    appends_append (.hadamard (R := R) q)).seq
      (appends_forM (List.range (groverIterations (R := R) (2 ^ c.qubits)
        (selectedStates options.markedStates).length)) fun _ _ => hround)
  rw [appendGrover, if_neg hempty]
  change ((get : Call (Circuit R) (Circuit R)) >>= _) c = _
  rw [Call.bind_apply, Call.get_apply]
  simp only [checkedStateCount_eq (σ := Circuit R) hn, groverIterationCount, if_neg hcount,
    pure_bind]
  exact hall c

theorem makeGrover_eq {n : Nat} (hn : n ≤ 63) {options : GroverCircuitOptions}
    (hne : options.markedStates ≠ [])
    (hlt : forall s, s ∈ options.markedStates -> s < 2 ^ n) :
    (makeGrover n options : Except Exc (Circuit R)) =
      .ok
        { qubits := n
          operations := groverOperations n
            (groverIterations (R := R) (2 ^ n) (selectedStates options.markedStates).length)
            options } :=
  build_eq (appendGrover_eq (c := make n) hn hne hlt)

end Circuit

end Tmfqs
