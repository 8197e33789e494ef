import Tmfqs.Model.EmbeddedGate
import Tmfqs.Storage.BackendRefinement

/-!
# The tolerance of the gate fast path

`applyGate` of the compressed backend replaces a gate that is almost a named one by the
kernel of the named gate.  What it then computes is compared with the block engine on
the gate as given.
-/

namespace Tmfqs

open Library

/-!
## Gates with close entries
-/

noncomputable section Close

variable {ε : Real} {n : Nat} {gate other : QuantumGate Real} {qubits : List Nat} {v : List Real}

def Amplitude.mass (a : Amplitude Real) : Real :=
  |a.real| + |a.imag|

/-- The sum of `|re| + |im|` over the block of a state. -/
def blockMass (qubits : List Nat) (n : Nat) (v : List Real) (s : Nat) : Real :=
  ∑ c ∈ Finset.range (2 ^ qubits.length), (ampAt v (replaceBits n c qubits s)).mass

/-- Both components of the amplitudes differ by at most `ε`. -/
def CloseTo (ε : Real) (a b : Amplitude Real) : Prop :=
  |a.real - b.real| ≤ ε ∧ |a.imag - b.imag| ≤ ε

def CloseEntries (ε : Real) (gate other : QuantumGate Real) : Prop :=
  forall row col, row < gate.dimension -> col < gate.dimension ->
    CloseTo ε (gate.entry row col) (other.entry row col)

theorem CloseTo.refl {a : Amplitude Real} (hε : 0 ≤ ε) : CloseTo ε a a := by
  rw [CloseTo, sub_self, sub_self, abs_zero]
  exact ⟨hε, hε⟩

theorem CloseTo.symm {a b : Amplitude Real} (h : CloseTo ε a b) : CloseTo ε b a := by
  rw [CloseTo, abs_sub_comm b.real, abs_sub_comm b.imag]
  exact h

theorem CloseTo.mono {δ : Real} {a b : Amplitude Real} (h : CloseTo δ a b) (hle : δ ≤ ε) :
    CloseTo ε a b :=
  ⟨h.1.trans hle, h.2.trans hle⟩

/-- A small factor moves neither component by more than its part of the mass. -/
theorem parts_mul_le {x : Complex} (hre : |x.re| ≤ ε) (him : |x.im| ≤ ε) (a : Amplitude Real) :
    |(x * a.toComplex).re| ≤ ε * a.mass ∧ |(x * a.toComplex).im| ≤ ε * a.mass := by
  have hpart : forall p q y z : Real, |p| ≤ ε -> |q| ≤ ε -> |p * y| + |q * z| ≤ ε * (|y| + |z|) := by
    intro p q y z hp hq
    rw [abs_mul, abs_mul, mul_add]
    exact add_le_add (mul_le_mul_of_nonneg_right hp (abs_nonneg y))
      (mul_le_mul_of_nonneg_right hq (abs_nonneg z))
  constructor
  · calc |(x * a.toComplex).re| = |x.re * a.real - x.im * a.imag| := rfl
      _ ≤ |x.re * a.real| + |x.im * a.imag| := abs_sub _ _
      _ ≤ ε * a.mass := hpart x.re x.im a.real a.imag hre him
  · calc |(x * a.toComplex).im| = |x.re * a.imag + x.im * a.real| := rfl
      _ ≤ |x.re * a.imag| + |x.im * a.real| := abs_add_le _ _
      _ ≤ ε * (|a.imag| + |a.real|) := hpart x.re x.im a.imag a.real hre him
      _ = ε * a.mass := by rw [Amplitude.mass, add_comm]

theorem blockGate_close (hn : n ≤ 31) (h : ValidTargets qubits n gate.dimension)
    (hdim : other.dimension = gate.dimension) (hclose : CloseEntries ε gate other)
    (hv : v.length = 2 * 2 ^ n) {s : Nat} (hs : s < 2 ^ n) :
    CloseTo (ε * blockMass qubits n v s) (ampAt (StateVector.blockGate gate qubits n v) s)
      (ampAt (StateVector.blockGate other qubits n v) s) := by
  have hother : ValidTargets qubits n other.dimension := hdim ▸ h
  have hrow : rowIndex n qubits s < gate.dimension := by
    rcases exists_block_of_state h hs with ⟨_, _, hrow, _⟩
    exact h.dimension ▸ hrow
  have hdiff : (ampAt (StateVector.blockGate gate qubits n v) s).toComplex -
      (ampAt (StateVector.blockGate other qubits n v) s).toComplex =
        ∑ c ∈ Finset.range (2 ^ qubits.length),
          ((gate.entry (rowIndex n qubits s) c).toComplex -
            (other.entry (rowIndex n qubits s) c).toComplex) *
              (ampAt v (replaceBits n c qubits s)).toComplex := by
    rw [complexAt_blockGate hn h hv hs, complexAt_blockGate hn hother hv hs, embeddedProduct,
      embeddedProduct, ← Finset.sum_sub_distrib]
    apply Finset.sum_congr rfl
    intro c _
    rw [sub_mul]
  have hterm : forall c, c ∈ Finset.range (2 ^ qubits.length) -> _ := fun c hc =>
    parts_mul_le (x := (gate.entry (rowIndex n qubits s) c).toComplex -
        (other.entry (rowIndex n qubits s) c).toComplex)
      (hclose _ c hrow (h.dimension ▸ Finset.mem_range.mp hc)).1
      (hclose _ c hrow (h.dimension ▸ Finset.mem_range.mp hc)).2
      (ampAt v (replaceBits n c qubits s))
  rw [CloseTo, blockMass, Finset.mul_sum]
  constructor
  · have hre := congrArg Complex.re hdiff
    rw [Complex.re_sum] at hre
    calc _ = |∑ c ∈ Finset.range (2 ^ qubits.length), _| := congrArg abs hre
      _ ≤ _ := Finset.abs_sum_le_sum_abs _ _
      _ ≤ _ := Finset.sum_le_sum fun c hc => (hterm c hc).1
  · have him := congrArg Complex.im hdiff
    rw [Complex.im_sum] at him
    calc _ = |∑ c ∈ Finset.range (2 ^ qubits.length), _| := congrArg abs him
      _ ≤ _ := Finset.abs_sum_le_sum_abs _ _
      _ ≤ _ := Finset.sum_le_sum fun c hc => (hterm c hc).2

end Close

namespace CompressedStateBackend

/-!
## What the matchers accept
-/

noncomputable section Matched

variable {n k : Nat} {gate : QuantumGate Real} {qubits : List Nat} {v : List Real}

def namedGate (gate : QuantumGate Real) : FastPath Real -> QuantumGate Real
  | .hadamard => QuantumGate.Hadamard
  | .pauliX => QuantumGate.PauliX
  | .controlledNot => QuantumGate.ControlledNot
  | .controlledPhaseShift theta => QuantumGate.ControlledPhaseShift theta
  | .blocks => gate

theorem closeTo_of_matches {amp : Amplitude Real} {real imag : Real}
    (h : matchesAmplitude amp real imag = true) :
    CloseTo (1 / 10 ^ 12) amp { real := real, imag := imag } := by
  rw [matchesAmplitude, Bool.and_eq_true] at h
  exact ⟨of_decide_eq_true h.1, of_decide_eq_true h.2⟩

theorem closeTo_of_isZero {amp : Amplitude Real} (h : isZeroAmplitude amp = true) :
    CloseTo (1 / 10 ^ 12) amp Amplitude.zero :=
  closeTo_of_matches h

theorem lt_two {i : Nat} (h : i < 2) : i = 0 ∨ i = 1 := by
  omega

theorem closeEntries_hadamard (h : matchesHadamardGate gate = true) :
    CloseEntries (1 / 10 ^ 12) gate QuantumGate.Hadamard := by
  simp only [matchesHadamardGate, Bool.and_eq_true, decide_eq_true_eq] at h
  rcases h with ⟨⟨⟨⟨hdim, h00⟩, h01⟩, h10⟩, h11⟩
  intro row col hrow hcol
  rw [hdim] at hrow hcol
  rw [QuantumGate.Hadamard, QuantumGate.entry_ofEntries _ hrow hcol]
  rcases lt_two hrow with rfl | rfl <;> rcases lt_two hcol with rfl | rfl
  · exact closeTo_of_matches h00
  · exact closeTo_of_matches h01
  · exact closeTo_of_matches h10
  · exact closeTo_of_matches h11

theorem closeEntries_pauliX (h : matchesPauliXGate gate = true) :
    CloseEntries (1 / 10 ^ 12) gate QuantumGate.PauliX := by
  simp only [matchesPauliXGate, Bool.and_eq_true, decide_eq_true_eq] at h
  rcases h with ⟨⟨⟨⟨hdim, h00⟩, h01⟩, h10⟩, h11⟩
  intro row col hrow hcol
  rw [hdim] at hrow hcol
  rw [QuantumGate.PauliX, QuantumGate.entry_ofEntries _ hrow hcol]
  rcases lt_two hrow with rfl | rfl <;> rcases lt_two hcol with rfl | rfl
  · exact closeTo_of_isZero h00
  · exact closeTo_of_matches h01
  · exact closeTo_of_matches h10
  · exact closeTo_of_isZero h11

theorem closeEntries_controlledNot (h : matchesControlledNotGate gate = true) :
    CloseEntries (1 / 10 ^ 12) gate QuantumGate.ControlledNot := by
  simp only [matchesControlledNotGate, Bool.and_eq_true, decide_eq_true_eq, List.all_eq_true,
    List.mem_range] at h
  rcases h with ⟨hdim, hentries⟩
  intro row col hrow hcol
  rw [hdim] at hrow hcol
  have hcell := hentries row hrow col hcol
  rw [QuantumGate.ControlledNot, QuantumGate.entry_ofEntries _ hrow hcol]
  by_cases hone : (row = 0 ∧ col = 0) ∨ (row = 1 ∧ col = 1) ∨ (row = 2 ∧ col = 3) ∨
      (row = 3 ∧ col = 2)
  · rw [if_pos hone] at hcell ⊢
    exact closeTo_of_matches hcell
  · rw [if_neg hone] at hcell ⊢
    exact closeTo_of_isZero hcell

/-- Scaling a phase to magnitude one moves it by at most the error of its squared magnitude. -/
theorem closeTo_phase {phase : Amplitude Real} {δ : Real} (h : |phase.probability - 1| ≤ δ) :
    CloseTo δ phase
      { real := CMath.cos (CMath.atan2 phase.imag phase.real)
        imag := CMath.sin (CMath.atan2 phase.imag phase.real) } := by
  have hcos := Complex.norm_mul_cos_arg ⟨phase.real, phase.imag⟩
  have hsin := Complex.norm_mul_sin_arg ⟨phase.real, phase.imag⟩
  have hsq : phase.probability = ‖(⟨phase.real, phase.imag⟩ : Complex)‖ ^ 2 := by
    rw [← Complex.normSq_eq_norm_sq, Complex.normSq_mk]
    rfl
  have hnonneg : 0 ≤ ‖(⟨phase.real, phase.imag⟩ : Complex)‖ := norm_nonneg _
  generalize hr : ‖(⟨phase.real, phase.imag⟩ : Complex)‖ = r at hcos hsin hsq hnonneg
  have hradius : |r - 1| ≤ δ := by
    calc |r - 1| ≤ |r - 1| * (r + 1) := by
          apply le_mul_of_one_le_right (abs_nonneg _)
          exact le_add_of_nonneg_left hnonneg
      _ = |r - 1| * |r + 1| := by rw [abs_of_nonneg (by positivity : 0 ≤ r + 1)]
      _ = |phase.probability - 1| := by
          rw [← abs_mul, hsq]
          congr 1
          ring
      _ ≤ δ := h
  have hpart : forall x : Real, |x| ≤ 1 -> |r * x - x| ≤ δ := by
    intro x hx
    calc |r * x - x| = |r - 1| * |x| := by
          rw [← abs_mul]
          congr 1
          ring
      _ ≤ |r - 1| := mul_le_of_le_one_right (abs_nonneg _) hx
      _ ≤ δ := hradius
  constructor
  · have hreal := hpart _ (Real.abs_cos_le_one (Complex.arg ⟨phase.real, phase.imag⟩))
    rw [hcos] at hreal
    exact hreal
  · have himag := hpart _ (Real.abs_sin_le_one (Complex.arg ⟨phase.real, phase.imag⟩))
    rw [hsin] at himag
    exact himag

theorem matched_controlledPhaseShift {theta : Real}
    (h : matchControlledPhaseShiftGate gate = some theta) :
    gate.dimension = 4 ∧
      (forall row col, row < 4 -> col < 4 -> row ≠ col ->
        isZeroAmplitude (gate.entry row col) = true) ∧
      (forall row, row < 3 -> matchesAmplitude (gate.entry row row) 1 0 = true) ∧
      |(gate.entry 3 3).probability - 1| ≤ 1 / 10 ^ 10 ∧
      theta = CMath.atan2 (gate.entry 3 3).imag (gate.entry 3 3).real := by
  rw [matchControlledPhaseShiftGate] at h
  split at h
  · rename_i hdiag
    simp only [Bool.and_eq_true, decide_eq_true_eq, List.all_eq_true, List.mem_range,
      Bool.or_eq_true] at hdiag
    rcases hdiag with ⟨⟨⟨⟨hdim, hoff⟩, h00⟩, h11⟩, h22⟩
    dsimp only at h
    split at h
    · rename_i hphase
      refine ⟨hdim, ?_, ?_, of_decide_eq_true hphase, (Option.some.inj h).symm⟩
      · intro row col hrow hcol hne
        exact (hoff row hrow col hcol).resolve_left hne
      · intro row hrow
        have hcases : row = 0 ∨ row = 1 ∨ row = 2 := by omega
        rcases hcases with rfl | rfl | rfl
        · exact h00
        · exact h11
        · exact h22
    · cases h
  · cases h

theorem entry_controlledPhaseShift (theta : Real) {row col : Nat} (hrow : row < 4)
    (hcol : col < 4) :
    (QuantumGate.ControlledPhaseShift theta : QuantumGate Real).entry row col =
      if row = 3 ∧ col = 3 then { real := CMath.cos theta, imag := CMath.sin theta }
      else if row = col then { real := 1, imag := 0 }
      else Amplitude.zero := by
  have hexp : CMath.exp (0 : Real) = 1 := Real.exp_zero
  rw [QuantumGate.ControlledPhaseShift, QuantumGate.entry_ofEntries _ hrow hcol]
  simp only [complexExp, hexp, one_mul]

theorem closeEntries_controlledPhaseShift {theta : Real}
    (h : matchControlledPhaseShiftGate gate = some theta) :
    CloseEntries (1 / 10 ^ 10) gate (QuantumGate.ControlledPhaseShift theta) := by
  rcases matched_controlledPhaseShift h with ⟨hdim, hoff, hdiag, hphase, htheta⟩
  have hle : (1 / 10 ^ 12 : Real) ≤ 1 / 10 ^ 10 := by norm_num
  intro row col hrow hcol
  rw [hdim] at hrow hcol
  rw [entry_controlledPhaseShift theta hrow hcol]
  by_cases hlast : row = 3 ∧ col = 3
  · rw [if_pos hlast, hlast.1, hlast.2, htheta]
    exact closeTo_phase hphase
  · rw [if_neg hlast]
    by_cases heq : row = col
    · rw [if_pos heq, ← heq]
      exact (closeTo_of_matches (hdiag row (by omega))).mono hle
    · rw [if_neg heq]
      exact (closeTo_of_isZero (hoff row col hrow hcol heq)).mono hle

theorem closeEntries_namedGate (gate : QuantumGate Real) (k : Nat) :
    CloseEntries (1 / 10 ^ 10) gate (namedGate gate (fastPath gate k)) := by
  have hle : (1 / 10 ^ 12 : Real) ≤ 1 / 10 ^ 10 := by norm_num
  have hself : CloseEntries (1 / 10 ^ 10) gate gate :=
    fun _ _ _ _ => CloseTo.refl (by norm_num)
  rw [fastPath]
  split
  · split
    · rename_i h
      exact fun row col hrow hcol => (closeEntries_hadamard h row col hrow hcol).mono hle
    · split
      · rename_i h
        exact fun row col hrow hcol => (closeEntries_pauliX h row col hrow hcol).mono hle
      · exact hself
  · split
    · split
      · rename_i h
        exact fun row col hrow hcol => (closeEntries_controlledNot h row col hrow hcol).mono hle
      · cases hmatch : matchControlledPhaseShiftGate gate with
        | none => exact hself
        | some theta => exact closeEntries_controlledPhaseShift hmatch
    · exact hself

theorem one_target (hvalid : ValidTargets qubits n gate.dimension) (h : qubits.length = 1) :
    gate.dimension = 2 ∧ exists q, qubits = [q] ∧ q < n := by
  rcases List.length_eq_one_iff.mp h with ⟨q, rfl⟩
  exact ⟨hvalid.dimension, q, rfl, hvalid.inRange q List.mem_cons_self⟩

theorem two_targets (hvalid : ValidTargets qubits n gate.dimension) (h : qubits.length = 2) :
    gate.dimension = 4 ∧ exists c q, qubits = [c, q] ∧ c < n ∧ q < n ∧ c ≠ q := by
  rcases List.length_eq_two.mp h with ⟨c, q, rfl⟩
  have hne : c ≠ q := by simpa using hvalid.nodup
  exact ⟨hvalid.dimension, c, q, rfl, hvalid.inRange c (by simp), hvalid.inRange q (by simp), hne⟩

theorem gateVector_eq_namedGate (hn : n ≤ 31) (hvalid : ValidTargets qubits n gate.dimension)
    (hv : v.length = 2 * 2 ^ n) :
    (namedGate gate (fastPath gate qubits.length)).dimension = gate.dimension ∧
      gateVector gate qubits n v =
        StateVector.blockGate (namedGate gate (fastPath gate qubits.length)) qubits n v := by
  unfold gateVector
  cases hpath : fastPath gate qubits.length with
  | hadamard =>
      rcases one_target hvalid (fastPath_one (Or.inl hpath)) with ⟨hdim, q, rfl, hq⟩
      exact ⟨hdim.symm, (blockGate_hadamard hn hq hv rfl fun _ _ _ _ => rfl).symm⟩
  | pauliX =>
      rcases one_target hvalid (fastPath_one (Or.inr hpath)) with ⟨hdim, q, rfl, hq⟩
      exact ⟨hdim.symm, (blockGate_pauliX hn hq hv rfl fun _ _ _ _ => rfl).symm⟩
  | controlledNot =>
      rcases two_targets hvalid (fastPath_two (Or.inl hpath)) with ⟨hdim, c, q, rfl, hc, hq, hne⟩
      exact ⟨hdim.symm, (blockGate_controlledNot hn hc hq hne hv rfl fun _ _ _ _ => rfl).symm⟩
  | controlledPhaseShift theta =>
      rcases two_targets hvalid (fastPath_two (Or.inr ⟨theta, hpath⟩)) with
        ⟨hdim, c, q, rfl, hc, hq, hne⟩
      refine ⟨hdim.symm, (blockGate_controlledPhaseShift theta hn hc hq hne hv rfl ?_ ?_ ?_).symm⟩
      · intro row col hrow hcol hoff
        rw [namedGate, entry_controlledPhaseShift theta hrow hcol, if_neg (by omega), if_neg hoff]
      · intro row hrow
        rw [namedGate, entry_controlledPhaseShift theta (by omega) (by omega), if_neg (by omega),
          if_pos rfl]
      · rw [namedGate, entry_controlledPhaseShift theta (by decide) (by decide), if_pos ⟨rfl, rfl⟩]
  | blocks => exact ⟨rfl, rfl⟩

theorem gateVector_close (hn : n ≤ 31) (hvalid : ValidTargets qubits n gate.dimension)
    (hv : v.length = 2 * 2 ^ n) {s : Nat} (hs : s < 2 ^ n) :
    CloseTo (1 / 10 ^ 10 * blockMass qubits n v s) (ampAt (gateVector gate qubits n v) s)
      (ampAt (StateVector.blockGate gate qubits n v) s) := by
  rcases gateVector_eq_namedGate hn hvalid hv with ⟨hdim, hvector⟩
  rw [hvector]
  exact (blockGate_close hn hvalid hdim (closeEntries_namedGate gate qubits.length) hv hs).symm

/-!
## The gates as they are built
-/

/-- One of the gates that have a kernel, as its constructor builds it. -/
def IsNamed (gate : QuantumGate Real) : Prop :=
  gate = QuantumGate.Hadamard ∨ gate = QuantumGate.PauliX ∨ gate = QuantumGate.ControlledNot ∨
    exists theta, gate = QuantumGate.ControlledPhaseShift theta

theorem not_matches_of_far {amp : Amplitude Real} {real imag : Real}
    (h : 1 / 10 ^ 12 < |amp.real - real|) : matchesAmplitude amp real imag = false := by
  have hfar : approxEqual amp.real real kGateMatchTolerance = false :=
    decide_eq_false (not_le.mpr h)
  rw [matchesAmplitude, hfar, Bool.false_and]

theorem matches_of_eq {amp : Amplitude Real} {real imag : Real}
    (h : amp = { real := real, imag := imag }) : matchesAmplitude amp real imag = true := by
  have hself : forall x : Real, approxEqual x x kGateMatchTolerance = true := by
    intro x
    apply decide_eq_true
    rw [sub_self, abs_zero, kGateMatchTolerance]
    positivity
  rw [matchesAmplitude, h, hself, hself, Bool.and_self]

theorem fastPath_Hadamard : fastPath (QuantumGate.Hadamard : QuantumGate Real) 1 = .hadamard := by
  have hmatch : matchesHadamardGate (QuantumGate.Hadamard : QuantumGate Real) = true := by
    simp only [matchesHadamardGate, Bool.and_eq_true, decide_eq_true_eq]
    refine ⟨⟨⟨⟨rfl, ?_⟩, ?_⟩, ?_⟩, ?_⟩
    · exact matches_of_eq rfl
    · exact matches_of_eq rfl
    · exact matches_of_eq rfl
    · exact matches_of_eq rfl
  rw [fastPath, if_pos rfl, if_pos hmatch]

theorem fastPath_PauliX : fastPath (QuantumGate.PauliX : QuantumGate Real) 1 = .pauliX := by
  have hfar : matchesHadamardGate (QuantumGate.PauliX : QuantumGate Real) = false := by
    have hentry : matchesAmplitude ((QuantumGate.PauliX : QuantumGate Real).entry 0 0)
        (1 / CMath.sqrt 2) 0 = false := by
      apply not_matches_of_far
      change 1 / 10 ^ 12 < |(0 : Real) - 1 / Real.sqrt 2|
      have hsqrt : Real.sqrt 2 ≤ 2 := by
        rw [Real.sqrt_le_left (by norm_num)]
        norm_num
      have hpos : 0 < Real.sqrt 2 := by positivity
      rw [zero_sub, abs_neg, abs_of_pos (by positivity)]
      calc (1 / 10 ^ 12 : Real) < 1 / 2 := by norm_num
        _ ≤ 1 / Real.sqrt 2 := one_div_le_one_div_of_le hpos hsqrt
    simp only [matchesHadamardGate, hentry, Bool.and_false, Bool.false_and]
  have hmatch : matchesPauliXGate (QuantumGate.PauliX : QuantumGate Real) = true := by
    simp only [matchesPauliXGate, Bool.and_eq_true, decide_eq_true_eq]
    refine ⟨⟨⟨⟨rfl, ?_⟩, ?_⟩, ?_⟩, ?_⟩
    · exact matches_of_eq rfl
    · exact matches_of_eq rfl
    · exact matches_of_eq rfl
    · exact matches_of_eq rfl
  rw [fastPath, if_pos rfl, if_neg (by rw [hfar]; exact Bool.false_ne_true), if_pos hmatch]

theorem fastPath_ControlledNot :
    fastPath (QuantumGate.ControlledNot : QuantumGate Real) 2 = .controlledNot := by
  have hmatch : matchesControlledNotGate (QuantumGate.ControlledNot : QuantumGate Real) = true := by
    simp only [matchesControlledNotGate, Bool.and_eq_true, decide_eq_true_eq, List.all_eq_true,
      List.mem_range]
    refine ⟨rfl, ?_⟩
    intro row hrow col hcol
    rw [QuantumGate.ControlledNot, QuantumGate.entry_ofEntries _ hrow hcol]
    split
    · exact matches_of_eq rfl
    · exact matches_of_eq rfl
  rw [fastPath, if_neg (by decide), if_pos rfl, if_pos hmatch]

theorem not_matchesControlledNotGate (theta : Real) :
    matchesControlledNotGate (QuantumGate.ControlledPhaseShift theta) = false := by
  by_contra h
  rw [Bool.not_eq_false] at h
  have hdim : (QuantumGate.ControlledPhaseShift theta).dimension = 4 := rfl
  have hclose := (closeEntries_controlledNot h 2 3 (by omega) (by omega)).1
  rw [entry_controlledPhaseShift theta (by decide) (by decide), if_neg (by decide),
    if_neg (by decide), QuantumGate.ControlledNot,
    QuantumGate.entry_ofEntries _ (by decide) (by decide)] at hclose
  change |(0 : Real) - 1| ≤ 1 / 10 ^ 12 at hclose
  norm_num at hclose

theorem matchedExactly_phase (theta : Real) :
    MatchedExactly (QuantumGate.ControlledPhaseShift theta) 2 := by
  have hpath : fastPath (QuantumGate.ControlledPhaseShift theta) 2 =
      match matchControlledPhaseShiftGate (QuantumGate.ControlledPhaseShift theta) with
      | some angle => .controlledPhaseShift angle
      | none => .blocks := by
    rw [fastPath, if_neg (by decide), if_pos rfl, not_matchesControlledNotGate,
      if_neg Bool.false_ne_true]
    cases matchControlledPhaseShiftGate (QuantumGate.ControlledPhaseShift theta) with
    | some angle => rfl
    | none => rfl
  rw [MatchedExactly, hpath]
  cases matchControlledPhaseShiftGate (QuantumGate.ControlledPhaseShift theta) with
  | none => trivial
  | some angle =>
      refine ⟨?_, ?_, ?_⟩
      · intro row col hrow hcol hoff
        rw [entry_controlledPhaseShift theta hrow hcol, if_neg (by omega), if_neg hoff]
      · intro row hrow
        rw [entry_controlledPhaseShift theta (by omega) (by omega), if_neg (by omega), if_pos rfl]
      · rw [entry_controlledPhaseShift theta (by decide) (by decide), if_pos ⟨rfl, rfl⟩,
          Amplitude.probability]
        exact (by rw [← sq, ← sq]; exact Real.cos_sq_add_sin_sq theta)

theorem matchedExactly_named (h : IsNamed gate) (hk : gate.dimension = 2 ^ k) :
    MatchedExactly gate k := by
  have hone : 2 ^ k = 2 -> k = 1 := fun h2 => Nat.pow_right_injective (Nat.le_refl 2) h2
  have htwo : 2 ^ k = 4 -> k = 2 := fun h4 => Nat.pow_right_injective (Nat.le_refl 2) h4
  rcases h with rfl | rfl | rfl | ⟨theta, rfl⟩
  · rw [hone hk.symm, MatchedExactly, fastPath_Hadamard]
    exact fun _ _ _ _ => rfl
  · rw [hone hk.symm, MatchedExactly, fastPath_PauliX]
    exact fun _ _ _ _ => rfl
  · rw [htwo hk.symm, MatchedExactly, fastPath_ControlledNot]
    exact fun _ _ _ _ => rfl
  · rw [htwo hk.symm]
    exact matchedExactly_phase theta

end Matched

/-!
## The fast path on a backend
-/

/-- `applyGate` with nothing but its last branch. -/
def applyGateByEngine {R B : Type} [Field R] [DecidableEq R] {P : CodecPolicy R B}
    (gate : QuantumGate R) (qubits : List Nat) : Call (CompressedStateBackend P) Unit :=
  mutate "gate application" do
    let b <- get
    GateApplyEngine.apply P.backendName gate qubits b.numQubits
      readAmplitudeMutable writeAmplitudeMutable

section Dispatch

variable {B : Type} {P : CodecPolicy Real B}

/--
Whatever kernel `applyGate` hands a gate to, every component of the result is within
`1e-10` of the block's mass of what the block engine gives, and for a gate that is built
as a named one the results are equal.
-/
theorem applyGate_within_tolerance (hP : P.Lossless) {n depth : Nat} {v : List Real}
    {b : CompressedStateBackend P} (h : (storesVector hP).Rep n v depth b)
    {gate : QuantumGate Real} {qubits : List Nat}
    (hvalid : ValidTargets qubits n gate.dimension) :
    exists w u,
      Does (applyGate gate qubits) b ((storesVector hP).Rep n w depth) ∧
      Does (applyGateByEngine gate qubits) b ((storesVector hP).Rep n u depth) ∧
      (forall s, s < 2 ^ n ->
        |(ampAt w s).real - (ampAt u s).real| ≤ 1 / 10 ^ 10 * blockMass qubits n v s ∧
        |(ampAt w s).imag - (ampAt u s).imag| ≤ 1 / 10 ^ 10 * blockMass qubits n v s) ∧
      (IsNamed gate -> w = u) := by
  have hn : n ≤ 31 := h.1.chunks.shaped.qubits
  have hv : v.length = 2 * 2 ^ n := h.1.length
  refine ⟨gateVector gate qubits n v, StateVector.blockGate gate qubits n v, ?_, ?_, ?_, ?_⟩
  · exact (storesVector hP).applyGate h hvalid
  · exact h.does (makes_blocks h.1 hvalid "gate application" P.backendName)
  · intro s hs
    exact gateVector_close hn hvalid hv hs
  · intro hnamed
    exact gateVector_eq_blockGate hn hvalid hv (matchedExactly_named hnamed hvalid.dimension)

/-- A gate that is taken for the NOT gate although one entry is off by `2 ^ (-41)`. -/
noncomputable def nearlyNot : QuantumGate Real :=
  QuantumGate.ofEntries 2 fun row col =>
    if row = 0 ∧ col = 1 then { real := 1 + 1 / 2 ^ 41, imag := 0 }
    else if row = 1 ∧ col = 0 then { real := 1, imag := 0 }
    else { real := 0, imag := 0 }

/-- The gate on the second state of one qubit in two chunks. -/
theorem applyGate_within_tolerance_nearlyNot :
    let P : CodecPolicy Real Real := CodecPolicy.elementwise id 1 2 (Nat.le_refl 1) (Nat.le_refl 2)
    let v : List Real := StateVector.basis 1 1 { real := 1, imag := 0 }
    exists (hP : P.Lossless) (b : CompressedStateBackend P) (w u : List Real),
      (storesVector hP).Rep 1 v 0 b ∧
      Does (applyGate nearlyNot [0]) b ((storesVector hP).Rep 1 w 0) ∧
      Does (applyGateByEngine nearlyNot [0]) b ((storesVector hP).Rep 1 u 0) ∧
      forall s, s < 2 ^ 1 ->
        |(ampAt w s).real - (ampAt u s).real| ≤ 1 / 10 ^ 10 * blockMass [0] 1 v s ∧
        |(ampAt w s).imag - (ampAt u s).imag| ≤ 1 / 10 ^ 10 * blockMass [0] 1 v s := by
  intro P v
  have hP : P.Lossless := CodecPolicy.lossless_elementwise _ _
  have hfits : ChunkLayout.Fits (2 ^ 1) P.chunkStates := by decide
  have hstate : 1 < 2 ^ 1 := Nat.one_lt_two
  have hdoes : Does (initBasis 1 1 ({ real := 1, imag := 0 } : Amplitude Real))
      (CompressedStateBackend.make P) ((storesVector hP).Rep 1 v 0) :=
    (storesVector hP).initBasis (by decide) hfits hstate
  rcases hdoes.exists_ok with ⟨_, b, _, hb⟩
  have hvalid : ValidTargets [0] 1 nearlyNot.dimension := ValidTargets.one Nat.one_pos rfl
  rcases applyGate_within_tolerance hP hb hvalid with ⟨w, u, hw, hu, hclose, _⟩
  exact ⟨hP, b, w, u, hb, hw, hu, hclose⟩

end Dispatch

end CompressedStateBackend

end Tmfqs
