import Mathlib.Analysis.SpecialFunctions.Trigonometric.Inverse
import Tmfqs.Circuit.BuiltCircuits
import Tmfqs.Model.BitAction
import Tmfqs.Model.VectorSums
import Tmfqs.Sim.CircuitRuns

/-!
# Grover search

All marked states share one real amplitude and all other states another one.  A round
turns the pair of the two by twice the angle of the marked states.
-/

namespace Tmfqs

open Library StateVector Circuit

namespace GroverSearch

variable {n : Nat} {v : List Real}

/-!
## The layer of Hadamard gates
-/

theorem complexAt_hadamards (hn : n ≤ 31) :
    forall q, q ≤ n -> forall s, s < 2 ^ n ->
      complexAt (Operation.applyAll n ((List.range q).map .hadamard)
        (basis n 0 { real := 1, imag := 0 })) s =
        if s % 2 ^ (n - q) = 0 then ((1 / Real.sqrt 2 : Real) : Complex) ^ q else 0 := by
  intro q
  induction q with
  | zero =>
      intro _ s hs
      have hlen : 2 * 0 + 1 < (zero n : List Real).length := by
        rw [length_zero]
        have := Nat.two_pow_pos n
        omega
      have hbasis := ampAt_setAmp s ({ real := 1, imag := 0 } : Amplitude Real) hlen
      change (ampAt (setAmp (zero n) 0 _) s).toComplex = _
      rw [hbasis, Nat.sub_zero, Nat.mod_eq_of_lt hs, pow_zero]
      split
      · rfl
      · rw [ampAt_zero]
        rfl
  | succ q ih =>
      intro hq s hs
      have hvalid : forall op, op ∈ (List.range q).map .hadamard ->
          (op : Operation Real).Valid n := by
        intro op hop
        rcases List.mem_map.mp hop with ⟨target, htarget, rfl⟩
        have hlt := List.mem_range.mp htarget
        exact (show target < n by omega)
      have hlen := Operation.length_applyAll hn hvalid
        (length_basis n 0 ({ real := 1, imag := 0 } : Amplitude Real))
      rcases (show exists b, n = q + b + 1 from ⟨n - q - 1, by omega⟩) with ⟨b, hb⟩
      have hbit : n - q - 1 = b := by omega
      have hcut : n - q = b + 1 := by omega
      have hcut' : n - (q + 1) = b := by omega
      have hpartner : s ^^^ 2 ^ b < 2 ^ n := xor_two_pow_lt (by omega) hs
      have hpos : 2 ^ b ≠ 0 := (Nat.two_pow_pos b).ne'
      rw [List.range_succ, List.map_append, Operation.applyAll_append]
      change complexAt (hadamard n q _) s = _
      rw [complexAt_hadamard (by omega) hlen hs, hbit, ih (by omega) s hs,
        ih (by omega) _ hpartner, hcut, hcut', mod_two_pow_succ, mod_two_pow_succ,
        xor_two_pow_mod, testBit_xor_two_pow, if_pos rfl, pow_succ]
      by_cases hlow : s % 2 ^ b = 0
      · cases s.testBit b with
        | false => simp [hlow]
        | true => simp [hlow]
      · simp [hlow]

/-!
## Two levels
-/

/-- Marked states have the amplitude `a`, all others the amplitude `b`. -/
structure TwoLevel (n : Nat) (marked : List Nat) (a b : Real) (v : List Real) : Prop where
  length : v.length = 2 * 2 ^ n
  amp : forall s, s < 2 ^ n ->
    ampAt v s =
      if s ∈ marked then { real := a, imag := 0 } else { real := b, imag := 0 }

theorem ampAt_flips (n : Nat) : forall (states : List Nat) (v : List Real),
    (forall t, t ∈ states -> 2 * t + 1 < v.length) -> states.Nodup -> forall s,
      ampAt (Operation.applyAll n (states.map .phaseFlipBasisState) v) s =
        if s ∈ states then (ampAt v s).negate else ampAt v s
  | [], v, _, _, s => by
      rfl
  | t :: rest, v, hlt, hnodup, s => by
      rcases List.nodup_cons.mp hnodup with ⟨hnot, hrest⟩
      have hflip : forall x, ampAt (phaseFlip v t) x =
          if x = t then (ampAt v t).negate else ampAt v x :=
        fun x => ampAt_setAmp x _ (hlt t List.mem_cons_self)
      rw [List.map_cons, Operation.applyAll_cons]
      change ampAt (Operation.applyAll n _ (phaseFlip v t)) s = _
      rw [ampAt_flips n rest (phaseFlip v t) (by
        intro u hu
        rw [length_phaseFlip]
        exact hlt u (List.mem_cons_of_mem t hu)) hrest, hflip]
      by_cases hst : s = t
      · rw [if_neg (hst ▸ hnot), if_pos hst, if_pos (hst ▸ List.mem_cons_self), hst]
      · rw [if_neg hst]
        simp only [List.mem_cons, hst, false_or]

def markedCount (options : GroverCircuitOptions) : Nat :=
  options.markedStates.toFinset.card

section Round

variable {options : GroverCircuitOptions} {a b : Real}
  (hlt : forall s, s ∈ options.markedStates -> s < 2 ^ n)
include hlt

theorem card_filter_marked :
    ((Finset.range (2 ^ n)).filter fun s => s ∈ options.markedStates).card =
      markedCount options := by
  rw [markedCount]
  congr 1
  apply Finset.ext
  intro s
  rw [Finset.mem_filter, Finset.mem_range, List.mem_toFinset]
  constructor
  · intro h
    exact h.right
  · intro h
    exact And.intro (hlt s h) h

theorem mean_twoLevel (h : TwoLevel n options.markedStates a b v) :
    mean n v =
      { real := (markedCount options * a +
          (((2 ^ n : Nat) : Real) - markedCount options) * b) / ((2 ^ n : Nat) : Real)
        imag := 0 } := by
  have hcard := card_filter_marked hlt
  have hother : (((Finset.range (2 ^ n)).filter fun s => s ∉ options.markedStates).card : Real) =
      ((2 ^ n : Nat) : Real) - markedCount options := by
    have hsum := Finset.card_filter_add_card_filter_not (s := Finset.range (2 ^ n))
      (fun s => s ∈ options.markedStates)
    rw [hcard, Finset.card_range] at hsum
    have hcast := congrArg (fun x : Nat => (x : Real)) hsum
    simp only [Nat.cast_add] at hcast
    linarith
  have hreal : ∑ s ∈ Finset.range (2 ^ n), (ampAt v s).real =
      markedCount options * a +
        (((2 ^ n : Nat) : Real) - markedCount options) * b := by
    calc ∑ s ∈ Finset.range (2 ^ n), (ampAt v s).real
        = ∑ s ∈ Finset.range (2 ^ n), if s ∈ options.markedStates then a else b := by
          apply Finset.sum_congr rfl
          intro s hs
          rw [h.amp s (Finset.mem_range.mp hs)]
          split <;> rfl
      _ = _ := by
          rw [Finset.sum_ite, Finset.sum_const, Finset.sum_const, hcard, nsmul_eq_mul,
            nsmul_eq_mul, hother]
  have himag : ∑ s ∈ Finset.range (2 ^ n), (ampAt v s).imag = 0 := by
    apply Finset.sum_eq_zero
    intro s hs
    rw [h.amp s (Finset.mem_range.mp hs)]
    split <;> rfl
  rw [mean, amplitudeSum_eq h.length, hreal, himag, zero_div]

theorem valid_groverRound : forall op, op ∈ groverRound options ->
    (op : Operation Real).Valid n := by
  intro op hop
  rcases List.mem_append.mp hop with hflip | hmean
  · rcases List.mem_map.mp hflip with ⟨s, hs, rfl⟩
    exact hlt s (mem_selectedStates.mp hs)
  · rw [List.mem_singleton.mp hmean]
    cases hmaterialized : options.materializedDiffusion with
    | true => simp [Operation.Valid, Operation.registerOp, RegisterOp.Valid]
    | false => simp [Operation.Valid, Operation.registerOp, RegisterOp.Valid]

/-- One round: the marked amplitude is negated, and both are inverted about the mean. -/
theorem twoLevel_round (hn : n ≤ 31) (h : TwoLevel n options.markedStates a b v) :
    TwoLevel n options.markedStates
      (2 * ((markedCount options * -a +
        (((2 ^ n : Nat) : Real) - markedCount options) * b) /
          ((2 ^ n : Nat) : Real)) + a)
      (2 * ((markedCount options * -a +
        (((2 ^ n : Nat) : Real) - markedCount options) * b) /
          ((2 ^ n : Nat) : Real)) - b)
      (Operation.applyAll n (groverRound options) v) := by
  have hflips := ampAt_flips n (selectedStates options.markedStates) v (by
    intro t ht
    have := hlt t (mem_selectedStates.mp ht)
    have := h.length
    omega) (nodup_selectedStates options.markedStates)
  have hvalid : forall op, op ∈ (selectedStates options.markedStates).map .phaseFlipBasisState ->
      (op : Operation Real).Valid n :=
    fun op hop => valid_groverRound hlt op (List.mem_append_left _ hop)
  have hflipped : TwoLevel n options.markedStates (-a) b
      (Operation.applyAll n
        ((selectedStates options.markedStates).map .phaseFlipBasisState) v) :=
    { length := Operation.length_applyAll hn hvalid h.length
      amp := by
        intro s hs
        rw [hflips s, h.amp s hs]
        simp only [mem_selectedStates]
        split
        · simp [Amplitude.negate]
        · rfl }
  rw [groverRound, Operation.applyAll_append]
  change TwoLevel n options.markedStates _ _ (reflect (mean n _) _)
  constructor
  · exact (length_reflect _ _).trans hflipped.length
  · intro s hs
    rw [reflect, ampAt_mapAmplitudes _ _ s (by rw [hflipped.length]; omega),
      hflipped.amp s hs, mean_twoLevel hlt hflipped]
    split
    · simp [reflectAmp]
    · simp [reflectAmp]

end Round

/-!
## The rotation
-/

theorem markedCount_pos {options : GroverCircuitOptions} (hne : options.markedStates ≠ []) :
    0 < markedCount options := by
  rcases List.exists_mem_of_ne_nil _ hne with ⟨s, hs⟩
  exact Finset.card_pos.mpr ⟨s, List.mem_toFinset.mpr hs⟩

theorem sqrt_markedCount_ne_zero {options : GroverCircuitOptions}
    (hne : options.markedStates ≠ []) : Real.sqrt (markedCount options) ≠ 0 :=
  (Real.sqrt_pos.mpr (Nat.cast_pos.mpr (markedCount_pos hne))).ne'

noncomputable def markedAngle (n : Nat) (options : GroverCircuitOptions) : Real :=
  Real.arcsin (Real.sqrt (markedCount options / ((2 ^ n : Nat) : Real)))

/-- The amplitudes at the angle `phi`. -/
def AtAngle (n : Nat) (options : GroverCircuitOptions) (phi : Real) (v : List Real) : Prop :=
  v.length = 2 * 2 ^ n ∧
    forall s, s < 2 ^ n ->
      ampAt v s =
        if s ∈ options.markedStates then
          { real := Real.sin phi / Real.sqrt (markedCount options), imag := 0 }
        else
          { real := Real.cos phi /
              Real.sqrt (((2 ^ n : Nat) : Real) - markedCount options)
            imag := 0 }

theorem sin_turn (phi theta : Real) :
    Real.sin (phi + 2 * theta) = 2 * Real.cos (phi + theta) * Real.sin theta + Real.sin phi := by
  have hadd := Real.sin_add (phi + theta) theta
  have hsub := Real.sin_sub (phi + theta) theta
  rw [add_sub_cancel_right] at hsub
  rw [two_mul, ← add_assoc, hadd, hsub]
  ring

theorem cos_turn (phi theta : Real) :
    Real.cos (phi + 2 * theta) = 2 * Real.cos (phi + theta) * Real.cos theta - Real.cos phi := by
  have hadd := Real.cos_add (phi + theta) theta
  have hsub := Real.cos_sub (phi + theta) theta
  rw [add_sub_cancel_right] at hsub
  rw [two_mul, ← add_assoc, hadd, hsub]
  ring

theorem mean_at_angle {m N phi theta : Real}
    (hsin : Real.sin theta * Real.sqrt N = Real.sqrt m)
    (hcos : Real.cos theta * Real.sqrt N = Real.sqrt (N - m)) :
    (m * -(Real.sin phi / Real.sqrt m) + (N - m) * (Real.cos phi / Real.sqrt (N - m))) / N =
      Real.cos (phi + theta) / Real.sqrt N := by
  have hmarked : m * (Real.sin phi / Real.sqrt m) = Real.sin phi * Real.sqrt m := by
    rw [mul_div_left_comm, Real.div_sqrt]
  have hother : (N - m) * (Real.cos phi / Real.sqrt (N - m)) =
      Real.cos phi * Real.sqrt (N - m) := by
    rw [mul_div_left_comm, Real.div_sqrt]
  have hsum : m * -(Real.sin phi / Real.sqrt m) + (N - m) * (Real.cos phi / Real.sqrt (N - m)) =
      Real.cos (phi + theta) * Real.sqrt N := by
    rw [mul_neg, hmarked, hother, ← hsin, ← hcos, Real.cos_add]
    ring
  rw [hsum, mul_div_assoc, Real.sqrt_div_self', mul_one_div]

section Rotation

variable {options : GroverCircuitOptions}
  (hlt : forall s, s ∈ options.markedStates -> s < 2 ^ n)
include hlt

theorem markedCount_le : markedCount options ≤ 2 ^ n := by
  rw [← card_filter_marked hlt]
  exact (Finset.card_filter_le _ _).trans_eq (Finset.card_range _)

theorem markedCount_lt {s : Nat} (hs : s < 2 ^ n) (hother : s ∉ options.markedStates) :
    markedCount options < 2 ^ n := by
  rw [← card_filter_marked hlt]
  refine (Finset.card_lt_card (Finset.filter_ssubset.mpr ?_)).trans_eq (Finset.card_range _)
  exact ⟨s, Finset.mem_range.mpr hs, hother⟩

theorem sqrt_unmarked_ne_zero {s : Nat} (hs : s < 2 ^ n) (hother : s ∉ options.markedStates) :
    Real.sqrt (((2 ^ n : Nat) : Real) - markedCount options) ≠ 0 := by
  have hlt' : (markedCount options : Real) < ((2 ^ n : Nat) : Real) :=
    Nat.cast_lt.mpr (markedCount_lt hlt hs hother)
  exact (Real.sqrt_pos.mpr (sub_pos.mpr hlt')).ne'

theorem sin_markedAngle :
    Real.sin (markedAngle n options) * Real.sqrt ((2 ^ n : Nat) : Real) =
      Real.sqrt (markedCount options) := by
  have hpos : (0 : Real) < ((2 ^ n : Nat) : Real) := Nat.cast_pos.mpr (Nat.two_pow_pos n)
  have hle : (markedCount options : Real) ≤ ((2 ^ n : Nat) : Real) :=
    Nat.cast_le.mpr (markedCount_le hlt)
  have hone : Real.sqrt (markedCount options / ((2 ^ n : Nat) : Real)) ≤ 1 :=
    Real.sqrt_le_one.mpr ((div_le_one hpos).mpr hle)
  have hzero := Real.sqrt_nonneg (markedCount options / ((2 ^ n : Nat) : Real))
  rw [markedAngle, Real.sin_arcsin (by linarith) hone, Real.sqrt_div' _ hpos.le,
    div_mul_cancel₀ _ (Real.sqrt_ne_zero'.mpr hpos)]

omit hlt in
theorem cos_markedAngle :
    Real.cos (markedAngle n options) * Real.sqrt ((2 ^ n : Nat) : Real) =
      Real.sqrt (((2 ^ n : Nat) : Real) - markedCount options) := by
  have hpos : (0 : Real) < ((2 ^ n : Nat) : Real) := Nat.cast_pos.mpr (Nat.two_pow_pos n)
  have hratio : (0 : Real) ≤ markedCount options / ((2 ^ n : Nat) : Real) :=
    div_nonneg (Nat.cast_nonneg _) hpos.le
  rw [markedAngle, Real.cos_arcsin, Real.sq_sqrt hratio, ← Real.sqrt_mul' _ hpos.le, sub_mul,
    one_mul, div_mul_cancel₀ _ hpos.ne']

theorem atAngle_round (hn : n ≤ 31) (hne : options.markedStates ≠ []) {phi : Real}
    (h : AtAngle n options phi v) :
    AtAngle n options (phi + 2 * markedAngle n options)
      (Operation.applyAll n (groverRound options) v) := by
  have hround := twoLevel_round hlt hn { length := h.left, amp := h.right }
  have hM := sqrt_markedCount_ne_zero hne
  have hsin := sin_markedAngle hlt
  have hcos : Real.cos (markedAngle n options) * _ = _ := cos_markedAngle
  rw [mean_at_angle hsin hcos] at hround
  generalize markedAngle n options = theta at hsin hcos hround ⊢
  constructor
  · exact hround.length
  · intro s hs
    rw [hround.amp s hs]
    split
    case isTrue hmarked =>
      rw [← hsin] at hM ⊢
      have hsine := left_ne_zero_of_mul hM
      rw [sin_turn]
      apply Amplitude.eq_of_parts
      · simp only
        field_simp
      · rfl
    case isFalse hother =>
      have hU := sqrt_unmarked_ne_zero hlt hs hother
      rw [← hcos] at hU ⊢
      have hcosine := left_ne_zero_of_mul hU
      rw [cos_turn]
      apply Amplitude.eq_of_parts
      · simp only
        field_simp
      · rfl

end Rotation

/-!
## The circuit
-/

section Circuit

variable {options : GroverCircuitOptions}

theorem atAngle_uniform (hn : n ≤ 31)
    (hlt : forall s, s ∈ options.markedStates -> s < 2 ^ n) (hne : options.markedStates ≠ []) :
    AtAngle n options (markedAngle n options)
      (Operation.applyAll n ((List.range n).map .hadamard)
        (basis n 0 { real := 1, imag := 0 })) := by
  have hvalid : forall op, op ∈ (List.range n).map .hadamard ->
      (op : Operation Real).Valid n := by
    intro op hop
    rcases List.mem_map.mp hop with ⟨target, htarget, rfl⟩
    exact List.mem_range.mp htarget
  have hm := sqrt_markedCount_ne_zero hne
  have hsin := sin_markedAngle hlt
  have hcos : Real.cos (markedAngle n options) * _ = _ := cos_markedAngle
  constructor
  · exact Operation.length_applyAll hn hvalid (length_basis n 0 _)
  · intro s hs
    have hamp := complexAt_hadamards hn n le_rfl s hs
    rw [Nat.sub_self, pow_zero, Nat.mod_one, if_pos rfl, ← Complex.ofReal_pow, one_div_pow,
      ← sqrt_two_pow] at hamp
    have hlevel : ampAt (Operation.applyAll n ((List.range n).map .hadamard)
        (basis n 0 ({ real := 1, imag := 0 } : Amplitude Real))) s =
        { real := 1 / Real.sqrt ((2 ^ n : Nat) : Real), imag := 0 } :=
      Amplitude.toComplex_injective hamp
    rw [hlevel]
    split
    case isTrue hmarked =>
      rw [← hsin] at hm ⊢
      have hsine := left_ne_zero_of_mul hm
      apply Amplitude.eq_of_parts
      · simp only
        field_simp
      · rfl
    case isFalse hother =>
      have hU := sqrt_unmarked_ne_zero hlt hs hother
      rw [← hcos] at hU ⊢
      have hcosine := left_ne_zero_of_mul hU
      apply Amplitude.eq_of_parts
      · simp only
        field_simp
      · rfl

theorem valid_groverOperations (hlt : forall s, s ∈ options.markedStates -> s < 2 ^ n) (k : Nat) :
    forall op, op ∈ (groverOperations n k options : List (Operation Real)) -> op.Valid n := by
  intro op hop
  rcases List.mem_append.mp hop with hlayer | hrounds
  · rcases List.mem_map.mp hlayer with ⟨target, htarget, rfl⟩
    exact List.mem_range.mp htarget
  · rcases List.mem_flatMap.mp hrounds with ⟨_, _, hround⟩
    exact valid_groverRound hlt op hround

theorem groverOperations_succ (n k : Nat) (options : GroverCircuitOptions) :
    (groverOperations n (k + 1) options : List (Operation Real)) =
      groverOperations n k options ++ groverRound options := by
  rw [groverOperations, groverOperations, List.range_succ, List.flatMap_append,
    List.flatMap_singleton, List.append_assoc]

theorem atAngle_groverOperations (hn : n ≤ 31)
    (hlt : forall s, s ∈ options.markedStates -> s < 2 ^ n) (hne : options.markedStates ≠ [])
    (k : Nat) :
    AtAngle n options ((2 * k + 1) * markedAngle n options)
      (Operation.applyAll n (groverOperations n k options)
        (basis n 0 { real := 1, imag := 0 })) := by
  induction k with
  | zero =>
      have hzero : (2 * ((0 : Nat) : Real) + 1) * markedAngle n options =
          markedAngle n options := by
        rw [Nat.cast_zero, mul_zero, zero_add, one_mul]
      have hops : (groverOperations n 0 options : List (Operation Real)) =
          (List.range n).map .hadamard := List.append_nil _
      rw [hzero, hops]
      exact atAngle_uniform hn hlt hne
  | succ k ih =>
      have hturn : (2 * ((k + 1 : Nat) : Real) + 1) * markedAngle n options =
          (2 * k + 1) * markedAngle n options + 2 * markedAngle n options := by
        push_cast
        ring
      rw [groverOperations_succ, Operation.applyAll_append, hturn]
      exact atAngle_round hlt hn hne ih

theorem length_selectedStates (options : GroverCircuitOptions) :
    (selectedStates options.markedStates).length = markedCount options := by
  have hsame : (selectedStates options.markedStates).toFinset = options.markedStates.toFinset := by
    apply Finset.ext
    intro s
    simp only [List.mem_toFinset, mem_selectedStates]
  rw [markedCount, ← hsame, List.toFinset_card_of_nodup (nodup_selectedStates _)]

theorem length_groverRound (options : GroverCircuitOptions) :
    (groverRound options : List (Operation Real)).length = markedCount options + 1 := by
  rw [groverRound, List.length_append, List.length_map, List.length_singleton,
    length_selectedStates]

theorem length_groverOperations (n k : Nat) (options : GroverCircuitOptions) :
    (groverOperations n k options : List (Operation Real)).length =
      n + k * (markedCount options + 1) := by
  induction k with
  | zero => simp [groverOperations]
  | succ k ih =>
      rw [groverOperations_succ, List.length_append, ih, length_groverRound]
      ring

theorem take_groverOperations {n k rounds : Nat} (hk : k ≤ rounds)
    (options : GroverCircuitOptions) :
    (groverOperations n rounds options : List (Operation Real)).take
        (n + k * (markedCount options + 1)) = groverOperations n k options := by
  induction rounds with
  | zero =>
      rw [Nat.le_zero.mp hk, ← length_groverOperations n 0 options, List.take_length]
  | succ rounds ih =>
      rcases Nat.lt_or_eq_of_le hk with hlt | heq
      · have hle := Nat.mul_le_mul_right (markedCount options + 1) (Nat.lt_succ_iff.mp hlt)
        rw [groverOperations_succ, List.take_append_of_le_length (by
          rw [length_groverOperations]
          omega), ih (Nat.lt_succ_iff.mp hlt)]
      · rw [heq, ← length_groverOperations n (rounds + 1) options, List.take_length]

end Circuit

/--
The circuit of the search is the Hadamard layer and the rounds of the iteration count. It
runs on the register of the zero state, and after `k` rounds the marked and the other
states have the amplitudes of the angle `(2 * k + 1) * theta`.
-/
theorem makeGrover_rotates {n : Nat} (hn : n ≤ 31) {options : GroverCircuitOptions}
    (hne : options.markedStates ≠ [])
    (hlt : forall s, s ∈ options.markedStates -> s < 2 ^ n) :
    exists (circuit : Circuit Real) (reg : DenseRegister Real),
      makeGrover n options = .ok circuit ∧ DenseRegister.ofBasis n 0 = .ok reg ∧
      circuit.operations = groverOperations n
        (groverIterations (R := Real) (2 ^ n) (markedCount options)) options ∧
      circuit.operations.length =
        n + groverIterations (R := Real) (2 ^ n) (markedCount options) *
          (markedCount options + 1) ∧
      forall k, n + k * (markedCount options + 1) ≤ circuit.operations.length ->
        exists data,
          (Simulator.circuitAmplitudes
            (circuit.operations.take (n + k * (markedCount options + 1))) reg).1 = .ok data ∧
          forall s, s < 2 ^ n ->
            ampAt data s =
              if s ∈ options.markedStates then
                { real := Real.sin ((2 * k + 1) * markedAngle n options) /
                    Real.sqrt (markedCount options)
                  imag := 0 }
              else
                { real := Real.cos ((2 * k + 1) * markedAngle n options) /
                    Real.sqrt (((2 ^ n : Nat) : Real) - markedCount options)
                  imag := 0 } := by
  rcases DenseRegister.exists_ofBasis (R := Real) hn (Nat.two_pow_pos n) with ⟨reg, hreg, hrep⟩
  have hcount : (selectedStates options.markedStates).length = markedCount options :=
    length_selectedStates options
  refine ⟨_, reg, makeGrover_eq (by omega) hne hlt, hreg, ?_, ?_, ?_⟩
  · rw [hcount]
  · rw [length_groverOperations, hcount]
  intro k hk
  rw [length_groverOperations] at hk
  have hrounds := Nat.le_of_mul_le_mul_right (Nat.le_of_add_le_add_left hk) (Nat.succ_pos _)
  refine ⟨_, ?_, (atAngle_groverOperations hn hlt hne k).right⟩
  simp only
  rw [take_groverOperations hrounds]
  exact Simulator.circuitAmplitudes_eq hrep (valid_groverOperations hlt k)

theorem makeGrover_rotates_two :
    exists (circuit : Circuit Real) (reg : DenseRegister Real),
      makeGrover 2 { markedStates := [3, 1, 3], materializedDiffusion := false } = .ok circuit ∧
      DenseRegister.ofBasis 2 0 = .ok reg ∧
      circuit.operations = groverOperations 2
        (groverIterations (R := Real) (2 ^ 2)
          (markedCount { markedStates := [3, 1, 3], materializedDiffusion := false }))
        { markedStates := [3, 1, 3], materializedDiffusion := false } ∧
      circuit.operations.length =
        2 + groverIterations (R := Real) (2 ^ 2)
            (markedCount { markedStates := [3, 1, 3], materializedDiffusion := false }) *
          (markedCount { markedStates := [3, 1, 3], materializedDiffusion := false } + 1) ∧
      forall k, 2 + k * (markedCount
          { markedStates := [3, 1, 3], materializedDiffusion := false } + 1) ≤
            circuit.operations.length ->
        exists data,
          (Simulator.circuitAmplitudes
            (circuit.operations.take (2 + k * (markedCount
              { markedStates := [3, 1, 3], materializedDiffusion := false } + 1))) reg).1 =
            .ok data ∧
          forall s, s < 2 ^ 2 ->
            ampAt data s =
              if s ∈ [3, 1, 3] then
                { real := Real.sin ((2 * k + 1) * markedAngle 2
                    { markedStates := [3, 1, 3], materializedDiffusion := false }) /
                    Real.sqrt (markedCount
                      { markedStates := [3, 1, 3], materializedDiffusion := false })
                  imag := 0 }
              else
                { real := Real.cos ((2 * k + 1) * markedAngle 2
                    { markedStates := [3, 1, 3], materializedDiffusion := false }) /
                    Real.sqrt (((2 ^ 2 : Nat) : Real) - markedCount
                      { markedStates := [3, 1, 3], materializedDiffusion := false })
                  imag := 0 } := by
  apply makeGrover_rotates (by decide)
  · exact List.cons_ne_nil _ _
  · decide

end GroverSearch

end Tmfqs
