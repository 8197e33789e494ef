import Mathlib.Analysis.Real.Pi.Bounds
import Mathlib.Analysis.SpecialFunctions.Trigonometric.Bounds
import Tmfqs.Sim.GroverRotation

/-!
# The chance of a search to succeed

The number of rounds is a rounded closed form.  It turns too far when the marked states
are between a half of all states and `pi ^ 2 / 16` of them, and only then.
-/

namespace Tmfqs

open Library StateVector Circuit

namespace GroverSearch

/-!
## The angle after the last round
-/

section Angle

variable {s : Real} (hs : 0 < s) (hs1 : s ≤ 1)
include hs hs1

/-- Two and more rounds end before the angle of the marked states is passed again. -/
theorem sq_le_sin_sq_of_two_le {k : Nat} (hk : 2 ≤ k) (hle : s ≤ Real.pi / (4 * k)) :
    s ^ 2 ≤ Real.sin ((2 * k + 1) * Real.arcsin s) ^ 2 := by
  have hpi := Real.pi_pos
  have hpi4 := Real.pi_le_four
  have hk2 : (2 : Real) ≤ k := by exact_mod_cast hk
  have hx : 0 < Real.pi / (2 * (k + 1)) := by positivity
  have hx1 : Real.pi / (2 * (k + 1)) ≤ 1 := by
    rw [div_le_one (by positivity)]
    linarith
  have hcube := Real.sin_gt_sub_cube hx
  -- the bound `s ≤ pi / (4 k)` as a bound on the angle
  have hsin : s ≤ Real.sin (Real.pi / (2 * (k + 1))) := by
    have hquarter : Real.pi / (4 * k) ≤ 3 / 4 * (Real.pi / (2 * (k + 1))) := by
      rw [div_mul_div_comm, div_le_div_iff₀ (by positivity) (by positivity)]
      nlinarith
    have hpow : (Real.pi / (2 * (k + 1))) ^ 3 ≤ Real.pi / (2 * (k + 1)) := by
      calc (Real.pi / (2 * ((k : Real) + 1))) ^ 3
          ≤ (Real.pi / (2 * (k + 1))) ^ 1 := pow_le_pow_of_le_one hx.le hx1 (by decide)
        _ = Real.pi / (2 * (k + 1)) := pow_one _
    linarith
  have hangle : Real.arcsin s ≤ Real.pi / (2 * (k + 1)) := by
    rw [Real.arcsin_le_iff_le_sin' (by constructor <;> linarith [Real.pi_gt_three])]
    exact hsin
  have hpos : 0 < Real.arcsin s := Real.arcsin_pos.mpr hs
  have hturn : (2 * k + 2) * Real.arcsin s ≤ Real.pi := by
    rw [le_div_iff₀ (by positivity)] at hangle
    linarith
  have hself : Real.sin (Real.arcsin s) = s := Real.sin_arcsin (by linarith) hs1
  have hfirst : Real.arcsin s ≤ (2 * k + 1) * Real.arcsin s :=
    le_mul_of_one_le_left hpos.le (by linarith)
  have hge : s ≤ Real.sin ((2 * k + 1) * Real.arcsin s) := by
    rcases le_total ((2 * k + 1) * Real.arcsin s) (Real.pi / 2) with hquarter | hquarter
    · calc s = Real.sin (Real.arcsin s) := hself.symm
        _ ≤ Real.sin ((2 * k + 1) * Real.arcsin s) :=
            Real.sin_le_sin_of_le_of_le_pi_div_two (by linarith) hquarter hfirst
    · calc s = Real.sin (Real.arcsin s) := hself.symm
        _ ≤ Real.sin (Real.pi - (2 * k + 1) * Real.arcsin s) :=
            Real.sin_le_sin_of_le_of_le_pi_div_two (by linarith) (by linarith) (by linarith)
        _ = Real.sin ((2 * k + 1) * Real.arcsin s) := Real.sin_pi_sub _
  exact pow_le_pow_left₀ hs.le hge 2

theorem sq_le_sin_sq_one_iff (hlt : s < 1) :
    s ^ 2 ≤ Real.sin ((2 * (1 : Nat) + 1) * Real.arcsin s) ^ 2 <-> s ^ 2 ≤ 1 / 2 := by
  have hthree : (2 * ((1 : Nat) : Real) + 1) * Real.arcsin s = 3 * Real.arcsin s := by
    norm_num
  have hsq : 0 < s ^ 2 := by positivity
  have hsq1 : s ^ 2 < 1 := by
    rw [sq_lt_one_iff₀ hs.le]
    exact hlt
  have hdiff : (3 * s - 4 * s ^ 3) ^ 2 - s ^ 2 = 8 * s ^ 2 * (1 - s ^ 2) * (1 - 2 * s ^ 2) := by
    ring
  have hfactor : 0 < 8 * s ^ 2 * (1 - s ^ 2) := by
    have := sub_pos.mpr hsq1
    positivity
  rw [hthree, Real.sin_three_mul, Real.sin_arcsin (by linarith) hs1, ← sub_nonneg, hdiff,
    mul_nonneg_iff_of_pos_left hfactor]
  constructor
  · intro h
    linarith
  · intro h
    linarith

/-- The rounds of the closed form end above the angle of the marked states or not. -/
theorem sq_le_sin_sq_iff {k : Nat} (hk : (k : Real) ≤ Real.pi / 4 * (1 / s))
    (hk' : Real.pi / 4 * (1 / s) < k + 1) :
    s ^ 2 ≤ Real.sin ((2 * k + 1) * Real.arcsin s) ^ 2 <->
      ¬ (1 / 2 < s ^ 2 ∧ s ^ 2 ≤ Real.pi ^ 2 / 16) := by
  have hpi3 := Real.pi_gt_three
  have hpi4 := Real.pi_lt_four
  have hsquare : (Real.pi / 4) ^ 2 = Real.pi ^ 2 / 16 := by ring
  have hk0 : (k : Real) * s ≤ Real.pi / 4 := by
    rwa [mul_one_div, le_div_iff₀ hs] at hk
  have hk1 : Real.pi / 4 < (k + 1) * s := by
    rwa [mul_one_div, div_lt_iff₀ hs] at hk'
  rcases k with _ | _ | k
  · -- no round: the probability is that of the uniform vector
    have hfar : Real.pi ^ 2 / 16 < s ^ 2 := by
      rw [← hsquare]
      apply pow_lt_pow_left₀ _ (by positivity) (by decide)
      simpa using hk1
    have hsame : Real.sin ((2 * ((0 : Nat) : Real) + 1) * Real.arcsin s) = s := by
      rw [Nat.cast_zero, mul_zero, zero_add, one_mul, Real.sin_arcsin (by linarith) hs1]
    rw [hsame]
    constructor
    · intro _ h
      linarith [h.right]
    · intro _
      exact le_rfl
  · have hnear : s ≤ Real.pi / 4 := by simpa using hk0
    have hsq : s ^ 2 ≤ Real.pi ^ 2 / 16 := by
      rw [← hsquare]
      exact pow_le_pow_left₀ hs.le hnear 2
    have hone := sq_le_sin_sq_one_iff hs hs1 (by linarith)
    rw [zero_add, hone]
    constructor
    · intro h hboth
      linarith [hboth.left]
    · intro h
      rcases le_or_gt (s ^ 2) (1 / 2) with hle | hgt
      · exact hle
      · exact (h (And.intro hgt hsq)).elim
  · have hcast : (((k + 1 + 1 : Nat) : Nat) : Real) = k + 2 := by
      push_cast
      ring
    have hk2 : (0 : Real) ≤ k := Nat.cast_nonneg k
    have hsmall : s ≤ Real.pi / (4 * (k + 1 + 1 : Nat)) := by
      rw [hcast] at hk0 ⊢
      rw [le_div_iff₀ (by positivity)]
      linarith
    have hhalf : s < 1 / 2 := by
      rw [hcast] at hk0
      nlinarith
    have hsq : s ^ 2 < 1 / 2 := by nlinarith
    constructor
    · intro _ hboth
      linarith [hboth.left]
    · intro _
      exact sq_le_sin_sq_of_two_le hs hs1 (by omega) hsmall

end Angle

/-!
## The rounds of the circuit
-/

section Rounds

variable {n : Nat} {options : GroverCircuitOptions}

noncomputable def markedShare (n : Nat) (options : GroverCircuitOptions) : Real :=
  markedCount options / ((2 ^ n : Nat) : Real)

def successProbability {R : Type} [Field R] (options : GroverCircuitOptions) (data : List R) : R :=
  ∑ s ∈ options.markedStates.toFinset, (ampAt data s).probability

theorem markedShare_bounds (hne : options.markedStates ≠ [])
    (hlt : forall s, s ∈ options.markedStates -> s < 2 ^ n) :
    0 < markedShare n options ∧ markedShare n options ≤ 1 := by
  have hN : (0 : Real) < ((2 ^ n : Nat) : Real) := Nat.cast_pos.mpr (Nat.two_pow_pos n)
  constructor
  · exact div_pos (Nat.cast_pos.mpr (markedCount_pos hne)) hN
  · exact (div_le_one hN).mpr (Nat.cast_le.mpr (markedCount_le hlt))

theorem groverIterations_bounds (hn : n ≤ 31) (hne : options.markedStates ≠ []) :
    (groverIterations (R := Real) (2 ^ n) (markedCount options) : Real) ≤
        Real.pi / 4 * (1 / Real.sqrt (markedShare n options)) ∧
      Real.pi / 4 * (1 / Real.sqrt (markedShare n options)) <
        groverIterations (R := Real) (2 ^ n) (markedCount options) + 1 := by
  have hpi := Real.pi_pos
  have hpi4 := Real.pi_le_four
  have hm : (1 : Real) ≤ markedCount options := by exact_mod_cast markedCount_pos hne
  have hN : (1 : Real) ≤ ((2 ^ n : Nat) : Real) := by exact_mod_cast Nat.two_pow_pos n
  have hinv : 1 / Real.sqrt (markedShare n options) =
      Real.sqrt (((2 ^ n : Nat) : Real) / markedCount options) := by
    rw [markedShare, one_div, ← Real.sqrt_inv, inv_div]
  have hideal : (groverIterations (R := Real) (2 ^ n) (markedCount options)) =
      u32 ⌊Real.pi / 4 * (1 / Real.sqrt (markedShare n options))⌋₊ := by
    rw [groverIterations, hinv, ← Int.floor_toNat]
    rfl
  have hnonneg : 0 ≤ Real.pi / 4 * (1 / Real.sqrt (markedShare n options)) := by positivity
  have hroot : 1 / Real.sqrt (markedShare n options) ≤ ((2 ^ n : Nat) : Real) := by
    rw [hinv]
    calc Real.sqrt (((2 ^ n : Nat) : Real) / markedCount options)
        ≤ Real.sqrt ((2 ^ n : Nat) : Real) := Real.sqrt_le_sqrt (div_le_self (by linarith) hm)
      _ ≤ ((2 ^ n : Nat) : Real) := Real.sqrt_le_iff.mpr ⟨by linarith, by nlinarith⟩
  have hsmall : ⌊Real.pi / 4 * (1 / Real.sqrt (markedShare n options))⌋₊ < 2 ^ 32 := by
    have hpow : (2 : Nat) ^ n ≤ 2 ^ 31 := Nat.pow_le_pow_right (by decide) hn
    have hle : ⌊Real.pi / 4 * (1 / Real.sqrt (markedShare n options))⌋₊ ≤ 2 ^ n := by
      apply Nat.floor_le_of_le
      calc Real.pi / 4 * (1 / Real.sqrt (markedShare n options))
          ≤ 1 * (1 / Real.sqrt (markedShare n options)) :=
            mul_le_mul_of_nonneg_right (by linarith) (by positivity)
        _ ≤ ((2 ^ n : Nat) : Real) := by rwa [one_mul]
    omega
  rw [hideal, u32_of_lt hsmall]
  constructor
  · exact Nat.floor_le hnonneg
  · exact Nat.lt_floor_add_one _

theorem successProbability_eq {v : List Real} {phi : Real} (hne : options.markedStates ≠ [])
    (hlt : forall s, s ∈ options.markedStates -> s < 2 ^ n) (h : AtAngle n options phi v) :
    successProbability options v = Real.sin phi ^ 2 := by
  have hm : (0 : Real) < markedCount options := Nat.cast_pos.mpr (markedCount_pos hne)
  have hterm : forall s, s ∈ options.markedStates.toFinset ->
      (ampAt v s).probability = Real.sin phi ^ 2 / markedCount options := by
    intro s hs
    have hmarked := List.mem_toFinset.mp hs
    rw [h.right s (hlt s hmarked), if_pos hmarked]
    simp only [Amplitude.probability]
    rw [mul_zero, add_zero, div_mul_div_comm, Real.mul_self_sqrt hm.le, sq]
  rw [successProbability, Finset.sum_congr rfl hterm, Finset.sum_const, nsmul_eq_mul]
  exact mul_div_cancel₀ _ hm.ne'

noncomputable def finalAngle (n : Nat) (options : GroverCircuitOptions) : Real :=
  (2 * (groverIterations (R := Real) (2 ^ n) (markedCount options) : Nat) + 1) *
    markedAngle n options

theorem exists_run (hn : n ≤ 31) (hne : options.markedStates ≠ [])
    (hlt : forall s, s ∈ options.markedStates -> s < 2 ^ n) :
    exists (circuit : Circuit Real) (finalState : QuantumState Real (DenseStateBackend Real))
        (data : List Real),
      makeGrover n options = .ok circuit ∧
      Simulator.run DenseStateBackend.make circuit { qubits := n, kind := .basis 0 } =
        .ok finalState ∧
      (finalState.amplitudes DenseStateBackend.make).1 = .ok data ∧
      successProbability options data = Real.sin (finalAngle n options) ^ 2 := by
  have hmake := makeGrover_eq (R := Real) (show n ≤ 63 by omega) hne hlt
  rw [length_selectedStates] at hmake
  have hbasis := QuantumState.Denotes.basis (R := Real) hn (Nat.two_pow_pos n)
  have hvalid := valid_groverOperations hlt
    (groverIterations (R := Real) (2 ^ n) (markedCount options))
  have hqubits : (Circuit.mk n (groverOperations (R := Real) n
      (groverIterations (R := Real) (2 ^ n) (markedCount options)) options)).qubits = n := rfl
  rcases Simulator.run_denotes hbasis hqubits hvalid with ⟨finalState, hrun, hfinal⟩
  have hangle := atAngle_groverOperations hn hlt hne
    (groverIterations (R := Real) (2 ^ n) (markedCount options))
  exact ⟨_, finalState, _, hmake, hrun, hfinal.amplitudes_eq,
    successProbability_eq hne hlt hangle⟩

theorem markedShare_le_iff (hn : n ≤ 31) (hne : options.markedStates ≠ [])
    (hlt : forall s, s ∈ options.markedStates -> s < 2 ^ n) :
    markedShare n options ≤ Real.sin (finalAngle n options) ^ 2 <->
      ¬ (1 / 2 < markedShare n options ∧ markedShare n options ≤ Real.pi ^ 2 / 16) := by
  rcases markedShare_bounds hne hlt with ⟨hpos, hone⟩
  rcases groverIterations_bounds hn hne with ⟨hle, hlt'⟩
  have hiff := sq_le_sin_sq_iff (Real.sqrt_pos.mpr hpos) (Real.sqrt_le_one.mpr hone) hle hlt'
  rwa [Real.sq_sqrt hpos.le] at hiff

end Rounds

/--
A run of the search succeeds at least as often as a uniform draw, unless the marked
states are more than a half and at most `pi ^ 2 / 16` of all states.
-/
theorem makeGrover_beats_guessing_iff {n : Nat} (hn : n ≤ 31) {options : GroverCircuitOptions}
    (hne : options.markedStates ≠ [])
    (hlt : forall s, s ∈ options.markedStates -> s < 2 ^ n) :
    exists (circuit : Circuit Real) (finalState : QuantumState Real (DenseStateBackend Real))
        (data : List Real),
      makeGrover n options = .ok circuit ∧
      Simulator.run DenseStateBackend.make circuit { qubits := n, kind := .basis 0 } =
        .ok finalState ∧
      (finalState.amplitudes DenseStateBackend.make).1 = .ok data ∧
      (markedShare n options ≤ successProbability options data <->
        ¬ (1 / 2 < markedShare n options ∧ markedShare n options ≤ Real.pi ^ 2 / 16)) := by
  rcases exists_run hn hne hlt with ⟨circuit, finalState, data, hmake, hrun, hdata, hsuccess⟩
  refine ⟨circuit, finalState, data, hmake, hrun, hdata, ?_⟩
  rw [hsuccess]
  exact markedShare_le_iff hn hne hlt

/-- Nine marked states of sixteen: one round turns past the angle the search started from. -/
theorem grover_below_guessing :
    ¬ forall (n : Nat) (options : GroverCircuitOptions), n ≤ 31 -> options.markedStates ≠ [] ->
      (forall s, s ∈ options.markedStates -> s < 2 ^ n) ->
      forall (circuit : Circuit Real) (finalState : QuantumState Real (DenseStateBackend Real))
          (data : List Real),
        makeGrover n options = .ok circuit ->
        Simulator.run DenseStateBackend.make circuit { qubits := n, kind := .basis 0 } =
          .ok finalState ->
        (finalState.amplitudes DenseStateBackend.make).1 = .ok data ->
        markedShare n options ≤ successProbability options data := by
  intro h
  let options : GroverCircuitOptions :=
    { markedStates := List.range 9, materializedDiffusion := false }
  have hne : options.markedStates ≠ [] := List.cons_ne_nil _ _
  have hlt : forall s, s ∈ options.markedStates -> s < 2 ^ 4 := by decide
  have hshare : markedShare 4 options = 9 / 16 := by
    have hcount : markedCount options = 9 := by decide
    rw [markedShare, hcount]
    norm_num
  rcases exists_run (show 4 ≤ 31 by decide) hne hlt with
    ⟨circuit, finalState, data, hmake, hrun, hdata, hsuccess⟩
  have hle := h 4 options (by decide) hne hlt circuit finalState data hmake hrun hdata
  have hpi := Real.pi_gt_three
  rw [hsuccess, markedShare_le_iff (by decide) hne hlt] at hle
  apply hle
  rw [hshare]
  constructor
  · norm_num
  · nlinarith

theorem makeGrover_beats_guessing_iff_two :
    exists (circuit : Circuit Real) (finalState : QuantumState Real (DenseStateBackend Real))
        (data : List Real),
      makeGrover 2 { markedStates := [3], materializedDiffusion := false } = .ok circuit ∧
      Simulator.run DenseStateBackend.make circuit { qubits := 2, kind := .basis 0 } =
        .ok finalState ∧
      (finalState.amplitudes DenseStateBackend.make).1 = .ok data ∧
      (markedShare 2 { markedStates := [3], materializedDiffusion := false } ≤
          successProbability { markedStates := [3], materializedDiffusion := false } data <->
        ¬ (1 / 2 < markedShare 2 { markedStates := [3], materializedDiffusion := false } ∧
          markedShare 2 { markedStates := [3], materializedDiffusion := false } ≤
            Real.pi ^ 2 / 16)) := by
  apply makeGrover_beats_guessing_iff (by decide)
  · exact List.cons_ne_nil _ _
  · decide

end GroverSearch

end Tmfqs
