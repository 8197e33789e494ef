import Mathlib.Analysis.Real.Pi.Bounds
import Tmfqs.Circuit.BuiltCircuits
import Tmfqs.Library.Frame

/-!
# Marked states of Grover search

`appendGrover` looks at a marked state only when it is about to flip its phase, inside
the iterations.  By then the circuit has its Hadamard gates, and with no iteration the
states are never looked at.
-/

namespace Tmfqs

open Library

namespace Circuit

section Builders

variable {R : Type} [Field R] [CMath R] {options : GroverCircuitOptions} {c : Circuit R}

/-- An empty list and a state out of range are reported, and a report changes nothing. -/
def ValidatesMarks (options : GroverCircuitOptions) (c : Circuit R) : Prop :=
  ((exists e, (appendGrover options c).1 = .error e ∧ e.kind = .invalidArgument) <->
      options.markedStates = [] ∨ exists s, s ∈ options.markedStates ∧ 2 ^ c.qubits ≤ s) ∧
    forall e, (appendGrover options c).1 = .error e ->
      (appendGrover options c).2.operations = c.operations

theorem validatesMarks_of_inRange (hn : c.qubits ≤ 63)
    (hlt : forall s, s ∈ options.markedStates -> s < 2 ^ c.qubits) : ValidatesMarks options c := by
  by_cases hne : options.markedStates = []
  · have hempty : options.markedStates.isEmpty = true := by
      rw [hne]
      rfl
    have hrun : appendGrover options c =
        (.error (invalidArgument "Grover circuit requires at least one marked state"), c) := by
      rw [appendGrover, if_pos hempty]
      rfl
    rw [ValidatesMarks, hrun]
    constructor
    · constructor
      · intro _
        exact Or.inl hne
      · intro _
        exact ⟨_, rfl, rfl⟩
    · intro _ _
      rfl
  · have hrun := appendGrover_eq hn hne hlt
    rw [ValidatesMarks, hrun]
    constructor
    · constructor
      · rintro ⟨e, he, _⟩
        cases he
      · rintro (hnil | ⟨s, hs, hle⟩)
        · exact absurd hnil hne
        · exact absurd (hlt s hs) (Nat.not_lt.mpr hle)
    · intro e he
      cases he

/-- The iterations, with the range check before every phase flip. -/
def groverRounds (options : GroverCircuitOptions) (stateCount iterations : Nat) :
    Call (Circuit R) PUnit :=
  (List.range iterations).forM fun _ => do
    (selectedStates options.markedStates).forM fun state => do
      if state ≥ stateCount then
        throw (invalidArgument "Grover marked state is out of range")
      phaseFlip state
    inversionAboutMean options.materializedDiffusion

theorem appendGrover_run (hn : c.qubits ≤ 63) (hne : options.markedStates ≠ []) :
    appendGrover options c =
      groverRounds options (2 ^ c.qubits)
        (groverIterations (R := R) (2 ^ c.qubits) (selectedStates options.markedStates).length)
        { c with operations := c.operations ++ (List.range c.qubits).map .hadamard } := by
  have hempty : ¬ options.markedStates.isEmpty = true := by
    simpa using hne
  have hcount : (selectedStates options.markedStates).length ≠ 0 := by
    intro hzero
    exact selectedStates_ne_nil hne (List.eq_nil_of_length_eq_zero hzero)
  have hgates := appends_map (fun q (_ : q ∈ List.range c.qubits) =>
    appends_append (.hadamard (R := R) q)) c
  rw [appendGrover, if_neg hempty]
  change ((get : Call (Circuit R) (Circuit R)) >>= _) c = _
  rw [Call.bind_apply, Call.get_apply]
  simp only [checkedStateCount_eq (σ := Circuit R) hn, groverIterationCount, if_neg hcount,
    pure_bind]
  exact Call.bind_ok hgates _

/-- The operations start with `base`. -/
def Starts (base : List (Operation R)) (c : Circuit R) : Prop :=
  base <+: c.operations

omit [Field R] [CMath R] in
theorem maintains_append (base : List (Operation R)) (op : Operation R) :
    Call.Maintains (Starts base) (fun _ => Starts base) (append op) := by
  intro c hc
  exact hc.trans (List.prefix_append _ _)

omit [Field R] [CMath R] in
theorem maintains_groverRounds (options : GroverCircuitOptions) (base : List (Operation R))
    (stateCount iterations : Nat) :
    Call.Maintains (Starts base) (fun _ => Starts base)
      (groverRounds options stateCount iterations) := by
  apply Call.Maintains.forM
  intro _ _
  apply Call.Maintains.bind
  · apply Call.Maintains.forM
    intro state _
    apply Call.Maintains.ite
    · intro _ c hc
      exact hc
    · intro _
      exact maintains_append base (.phaseFlipBasisState state)
  · intro _
    exact maintains_append base (.inversionAboutMean options.materializedDiffusion)

/-- With a qubit the circuit of a nonempty list is longer than before, whatever happens. -/
theorem appendGrover_lengthens (hn : c.qubits ≤ 63) (hne : options.markedStates ≠ [])
    (hqubits : 0 < c.qubits) : (appendGrover options c).2.operations ≠ c.operations := by
  rw [appendGrover_run hn hne]
  intro heq
  have hstarts : Starts (c.operations ++ (List.range c.qubits).map .hadamard)
      (groverRounds options (2 ^ c.qubits)
        (groverIterations (R := R) (2 ^ c.qubits) (selectedStates options.markedStates).length)
        { c with operations := c.operations ++ (List.range c.qubits).map .hadamard }).2 := by
    have hpost := maintains_groverRounds options
      (c.operations ++ (List.range c.qubits).map .hadamard) (2 ^ c.qubits)
      (groverIterations (R := R) (2 ^ c.qubits) (selectedStates options.markedStates).length)
      { c with operations := c.operations ++ (List.range c.qubits).map .hadamard }
    exact (hpost (List.prefix_refl _)).state
  have hlen := hstarts.length_le
  rw [heq, List.length_append, List.length_map, List.length_range] at hlen
  omega

end Builders

/-!
## The iterations of a real circuit
-/

section Reals

variable {options : GroverCircuitOptions} {c : Circuit Real}

theorem groverIterations_of_le {stateCount markedCount : Nat}
    (hle : stateCount ≤ markedCount) : groverIterations (R := Real) stateCount markedCount = 0 := by
  have hpi := Real.pi_pos
  have hpi4 := Real.pi_lt_d2
  have hroot : Real.sqrt ((stateCount : Real) / (markedCount : Real)) ≤ 1 := by
    apply Real.sqrt_le_one.mpr
    exact div_le_one_of_le₀ (by exact_mod_cast hle) (Nat.cast_nonneg _)
  have hfloor : ⌊Real.pi / 4 * Real.sqrt ((stateCount : Real) / (markedCount : Real))⌋ = 0 := by
    rw [Int.floor_eq_zero_iff]
    constructor
    · positivity
    · calc Real.pi / 4 * Real.sqrt ((stateCount : Real) / (markedCount : Real))
          ≤ Real.pi / 4 * 1 := by gcongr
        _ < 1 := by linarith
  have hcount : groverIterations (R := Real) stateCount markedCount =
      u32 ⌊Real.pi / 4 * Real.sqrt ((stateCount : Real) / (markedCount : Real))⌋.toNat := rfl
  rw [hcount, hfloor]
  rfl

/-- The marked states are validated, all or nothing, exactly when none is out of range. -/
theorem validatesMarks_iff (hn : c.qubits ≤ 63) :
    ValidatesMarks options c <-> forall s, s ∈ options.markedStates -> s < 2 ^ c.qubits := by
  constructor
  · intro hvalid s hs
    by_contra hlt
    have hle := Nat.not_lt.mp hlt
    have hne : options.markedStates ≠ [] := List.ne_nil_of_mem hs
    rcases hvalid.1.mpr (Or.inr ⟨s, hs, hle⟩) with ⟨e, he, _⟩
    rcases Nat.eq_zero_or_pos c.qubits with hzero | hpos
    · -- no iteration, so nothing is thrown
      have hmarked := List.length_pos_of_ne_nil (selectedStates_ne_nil hne)
      rw [appendGrover_run hn hne, hzero,
        groverIterations_of_le (by rw [pow_zero]; exact hmarked)] at he
      cases he
    · exact appendGrover_lengthens hn hne hpos (hvalid.2 e he)
  · exact validatesMarks_of_inRange hn

theorem validatesMarks_single :
    ValidatesMarks { markedStates := [3], materializedDiffusion := false }
        (make 2 : Circuit Real) <-> forall s, s ∈ [3] -> s < 2 ^ 2 :=
  validatesMarks_iff (c := make 2) (by decide)

def unnoticedMark : GroverCircuitOptions :=
  { markedStates := [0, 2]
    materializedDiffusion := false }

/-- Two qubits: the state is reported after the Hadamard gates. -/
def lateMark : GroverCircuitOptions :=
  { markedStates := [4]
    materializedDiffusion := false }

theorem groverIterations_lateMark : groverIterations (R := Real) (2 ^ 2) 1 = 1 := by
  have hpi := Real.pi_gt_three
  have hpi4 := Real.pi_lt_d2
  have hroot : Real.sqrt (((2 ^ 2 : Nat) : Real) / ((1 : Nat) : Real)) = 2 := by
    rw [Nat.cast_one, div_one, Nat.cast_pow, Nat.cast_ofNat]
    exact Real.sqrt_sq (by norm_num)
  have hfloor : ⌊Real.pi / 4 * Real.sqrt (((2 ^ 2 : Nat) : Real) / ((1 : Nat) : Real))⌋ = 1 := by
    rw [hroot, Int.floor_eq_iff]
    constructor
    · push_cast
      linarith
    · push_cast
      linarith
  have hcount : groverIterations (R := Real) (2 ^ 2) 1 =
      u32 ⌊Real.pi / 4 * Real.sqrt (((2 ^ 2 : Nat) : Real) / ((1 : Nat) : Real))⌋.toNat := rfl
  rw [hcount, hfloor]
  rfl

theorem marks_not_validated :
    (appendGrover unnoticedMark (make 1 : Circuit Real)).1 = .ok ⟨⟩ ∧
      appendGrover lateMark (make 2 : Circuit Real) =
        (.error (invalidArgument "Grover marked state is out of range"),
          { qubits := 2
            operations := [.hadamard 0, .hadamard 1] }) ∧
      ¬ ValidatesMarks unnoticedMark (make 1 : Circuit Real) ∧
      ¬ ValidatesMarks lateMark (make 2 : Circuit Real) := by
  have hfirst : (appendGrover unnoticedMark (make 1 : Circuit Real)).1 = .ok ⟨⟩ := by
    have hlist : selectedStates unnoticedMark.markedStates = [0, 2] := by
      rw [selectedStates, unnoticedMark, List.mergeSort_of_pairwise (by decide)]
      decide
    have hlength : (selectedStates unnoticedMark.markedStates).length = 2 := by
      rw [hlist]
      rfl
    rw [appendGrover_run (by decide) (by decide), hlength,
      groverIterations_of_le (by decide)]
    rfl
  have hsecond : appendGrover lateMark (make 2 : Circuit Real) =
      (.error (invalidArgument "Grover marked state is out of range"),
        { qubits := 2
          operations := [.hadamard 0, .hadamard 1] }) := by
    have hlist : selectedStates lateMark.markedStates = [4] := by
      rw [selectedStates, lateMark, List.mergeSort_of_pairwise (by decide)]
      decide
    have hlength : (selectedStates lateMark.markedStates).length = 1 := by
      rw [hlist]
      rfl
    have hqubits : (make 2 : Circuit Real).qubits = 2 := rfl
    rw [appendGrover_run (by decide) (by decide), hlength, hqubits, groverIterations_lateMark,
      groverRounds, hlist]
    rfl
  refine ⟨hfirst, hsecond, ?_, ?_⟩
  · intro hvalid
    rcases hvalid.1.mpr (Or.inr ⟨2, by decide, by decide⟩) with ⟨e, he, _⟩
    rw [hfirst] at he
    cases he
  · intro hvalid
    have hsame := hvalid.2 (invalidArgument "Grover marked state is out of range") (by rw [hsecond])
    rw [hsecond] at hsame
    cases hsame

end Reals

end Circuit

end Tmfqs
