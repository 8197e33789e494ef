import Tmfqs.Circuit.BuiltCircuits
import Tmfqs.Model.BitAction
import Tmfqs.Sim.CircuitRuns

/-!
# The Fourier transform

After the layers of the first `t` targets every amplitude is a Fourier sum over the
`t` leading bits.  All layers give the transform with its bits reversed, and the swaps
reverse them back.
-/

namespace Tmfqs

open Library StateVector Circuit

namespace FourierTransform

variable {n : Nat}

/-!
## Roots of unity
-/

/-- The `k`-th power of the first root of unity of order `2 ^ n`. -/
noncomputable def root (n k : Nat) : Complex :=
  Complex.exp (2 * Real.pi * k / 2 ^ n * Complex.I)

theorem root_add (n j k : Nat) : root n (j + k) = root n j * root n k := by
  rw [root, root, root, ← Complex.exp_add]
  congr 1
  push_cast
  ring

theorem root_zero (n : Nat) : root n 0 = 1 := by
  simp [root]

theorem root_mul_two_pow (n k : Nat) : root n (k * 2 ^ n) = 1 := by
  have harg : (2 * Real.pi * ((k * 2 ^ n : Nat) : Complex) / 2 ^ n * Complex.I) =
      (k : Complex) * (2 * Real.pi * Complex.I) := by
    push_cast
    field_simp
  rw [root, harg]
  exact Complex.exp_nat_mul_two_pi_mul_I k

theorem root_two_pow (m d : Nat) :
    root (m + d) (2 ^ m) = Complex.exp (2 * Real.pi / 2 ^ d * Complex.I) := by
  rw [root]
  congr 2
  push_cast
  rw [pow_add]
  field_simp

theorem root_half (m : Nat) : root (m + 1) (2 ^ m) = -1 := by
  rw [root_two_pow, pow_one, mul_div_cancel_left₀ _ two_ne_zero, Complex.exp_pi_mul_I]

/-!
## The stages
-/

def leadingBits (n t s : Nat) : Nat :=
  gather ((List.range t).map fun j => n - 1 - j) s

theorem leadingBits_succ (n t s : Nat) :
    leadingBits n (t + 1) s = leadingBits n t s + 2 ^ t * (s.testBit (n - 1 - t)).toNat := by
  rw [leadingBits, List.range_succ, List.map_append, gather_append, List.length_map,
    List.length_range]
  simp [leadingBits, gather, Nat.bit_val]

/-- The trailing bits of a state below `2 ^ t` leading ones. -/
def index (n t h s : Nat) : Nat :=
  h * 2 ^ (n - t) + s % 2 ^ (n - t)

/-- The amplitude of a state after the layers of the first `t` targets. -/
noncomputable def stage (n t : Nat) (a : List Real) (s : Nat) : Complex :=
  ((1 / Real.sqrt 2 : Real) : Complex) ^ t *
    ∑ h ∈ Finset.range (2 ^ t), complexAt a (index n t h s) *
      root n (index n t h s * leadingBits n t s)

theorem sum_range_two_mul (m : Nat) (f : Nat -> Complex) :
    ∑ h ∈ Finset.range (2 * m), f h = ∑ h ∈ Finset.range m, (f (2 * h) + f (2 * h + 1)) := by
  induction m with
  | zero => rfl
  | succ m ih =>
      rw [Finset.sum_range_succ, ← ih, show 2 * (m + 1) = 2 * m + 1 + 1 by ring,
        Finset.sum_range_succ, Finset.sum_range_succ, add_assoc]

/-!
## One layer
-/

section Layer

variable {t : Nat} {a v : List Real}

theorem valid_qftPhase {target control : Nat} (htarget : target < control) (hcontrol : control < n) :
    (qftPhase target control : Operation Real).Valid n :=
  ⟨hcontrol, by omega, by omega⟩

theorem valid_qftLayer (ht : t < n) (op : Operation Real) (hop : op ∈ qftLayer n t) :
    op.Valid n := by
  rcases List.mem_cons.mp hop with rfl | hphase
  · exact ht
  · obtain ⟨control, hcontrol, rfl⟩ := List.mem_map.mp hphase
    have hmem := List.mem_range'_1.mp hcontrol
    exact valid_qftPhase (by omega) (by omega)

theorem root_phase {b k : Nat} (hb : t + b + 1 = n) (hk : k < b) :
    Complex.exp (((CMath.kPi / ((2 ^ (k + 1) : Nat) : Real) : Real) : Complex) * Complex.I) =
      root n (2 ^ t * 2 ^ (b - (k + 1))) := by
  have hsplit : n = t + (b - (k + 1)) + (k + 2) := by omega
  rw [hsplit, ← pow_add, root_two_pow]
  congr 2
  have hpi : (CMath.kPi : Real) = Real.pi := rfl
  rw [hpi]
  push_cast
  rw [pow_succ (2 : Complex) (k + 1)]
  field_simp

theorem mod_sub_mod_succ (s : Nat) {b k : Nat} (hk : k < b) :
    s % 2 ^ b - s % 2 ^ (b - (k + 1)) =
      s % 2 ^ b - s % 2 ^ (b - k) +
        2 ^ (b - (k + 1)) * (s.testBit (b - (k + 1))).toNat := by
  have hsucc := mod_two_pow_succ s (b - (k + 1))
  have hle : s % 2 ^ (b - k) ≤ s % 2 ^ b := by
    rw [← Nat.mod_mod_of_dvd s (Nat.pow_dvd_pow 2 (Nat.sub_le b k))]
    exact Nat.mod_le _ _
  rw [show b - (k + 1) + 1 = b - k by omega] at hsucc
  omega

/-- The controlled phases turn a state with the target bit set by its lower bits. -/
theorem complexAt_phases (hn : n ≤ 31) {b : Nat} (hb : t + b + 1 = n)
    (hv : v.length = 2 * 2 ^ n) :
    forall k, k ≤ b -> forall s, s < 2 ^ n ->
      complexAt (Operation.applyAll n ((List.range' (t + 1) k).map (qftPhase t)) v) s =
        (if s.testBit b then root n (2 ^ t * (s % 2 ^ b - s % 2 ^ (b - k))) else 1) *
          complexAt v s := by
  intro k
  induction k with
  | zero =>
      intro _ s _
      simp [root_zero]
  | succ k ih =>
      intro hk s hs
      have hvalid : forall op, op ∈ (List.range' (t + 1) k).map (qftPhase t) ->
          (op : Operation Real).Valid n := by
        intro op hop
        obtain ⟨control, hcontrol, rfl⟩ := List.mem_map.mp hop
        have hmem := List.mem_range'_1.mp hcontrol
        exact valid_qftPhase (by omega) (by omega)
      have hlen := Operation.length_applyAll hn hvalid hv
      have hcontrol : n - (t + 1 + k) - 1 = b - (k + 1) := by omega
      have htarget : n - t - 1 = b := by omega
      rw [List.range'_1_concat, List.map_append, Operation.applyAll_append]
      change complexAt (controlledPhaseShift n (t + 1 + k) t _ _) s = _
      rw [complexAt_controlledPhaseShift (by omega) (by omega) (by omega) _ hlen hs,
        ih (by omega) s hs, hcontrol, htarget, show t + 1 + k - t = k + 1 by omega,
        root_phase hb hk, mod_sub_mod_succ s hk]
      cases s.testBit b with
      | false => simp
      | true =>
          cases s.testBit (b - (k + 1)) with
          | false => simp
          | true =>
              simp only [Bool.toNat_true, Nat.mul_one, Nat.mul_add, root_add, and_self, if_true]
              ring

theorem leadingBits_xor {b : Nat} (hb : t + b + 1 = n) (s : Nat) :
    leadingBits n t (s ^^^ 2 ^ b) = leadingBits n t s := by
  apply gather_congr
  intro p hp
  obtain ⟨j, hj, rfl⟩ := List.mem_map.mp hp
  have hlt := List.mem_range.mp hj
  rw [testBit_xor_two_pow, if_neg (by omega)]

theorem index_eq {b : Nat} (hb : t + b + 1 = n) (h s : Nat) :
    index n t h s = index n (t + 1) (2 * h + (s.testBit b).toNat) s := by
  have h1 : n - t = b + 1 := by omega
  have h2 : n - (t + 1) = b := by omega
  rw [index, index, h1, h2, mod_two_pow_succ, Nat.pow_succ]
  ring

theorem index_xor {b : Nat} (hb : t + b + 1 = n) (h s : Nat) :
    index n t h (s ^^^ 2 ^ b) = index n (t + 1) (2 * h + (!s.testBit b).toNat) s := by
  have h2 : n - (t + 1) = b := by omega
  rw [index_eq hb, index, index, h2, xor_two_pow_mod, testBit_xor_two_pow, if_pos rfl]

/-- The phases of a layer: an even index turns by the lower bits, an odd one half a turn more. -/
theorem root_index {b : Nat} (hb : t + b + 1 = n) (h s : Nat) :
    root n (index n (t + 1) (2 * h) s * 2 ^ t) = root n (2 ^ t * (s % 2 ^ b)) ∧
      root n (index n (t + 1) (2 * h + 1) s * 2 ^ t) = -root n (2 ^ t * (s % 2 ^ b)) := by
  have h2 : n - (t + 1) = b := by omega
  have hpow : 2 ^ n = 2 ^ t * 2 ^ b * 2 := by
    rw [← hb, Nat.pow_succ, Nat.pow_add]
  have heven : index n (t + 1) (2 * h) s * 2 ^ t = h * 2 ^ n + 2 ^ t * (s % 2 ^ b) := by
    rw [index, h2, hpow]
    ring
  have hodd : index n (t + 1) (2 * h + 1) s * 2 ^ t =
      h * 2 ^ n + 2 ^ t * (s % 2 ^ b) + 2 ^ (t + b) := by
    rw [index, h2, hpow, Nat.pow_add]
    ring
  have hhalf : root n (2 ^ (t + b)) = -1 := by
    rw [← hb, root_half]
  rw [heven, hodd, root_add, root_add, root_add, root_mul_two_pow, hhalf]
  constructor <;> ring

theorem complexAt_layer (hn : n ≤ 31) (ht : t < n) (hv : v.length = 2 * 2 ^ n)
    (hstage : forall s, s < 2 ^ n -> complexAt v s = stage n t a s) {s : Nat} (hs : s < 2 ^ n) :
    complexAt (Operation.applyAll n (qftLayer n t) v) s = stage n (t + 1) a s := by
  obtain ⟨b, hb⟩ : exists b, t + b + 1 = n := ⟨n - 1 - t, by omega⟩
  have hcount : n - (t + 1) = b := by omega
  have htarget : n - t - 1 = b := by omega
  have hlen : (hadamard n t v).length = 2 * 2 ^ n := (length_pairKernel _ n _ v).trans hv
  have hpartner : s ^^^ 2 ^ b < 2 ^ n := xor_two_pow_lt (by omega) hs
  have hleading := leadingBits_succ n t s
  rw [show n - 1 - t = b by omega] at hleading
  rw [qftLayer, Operation.applyAll_cons, hcount]
  change complexAt (Operation.applyAll n _ (hadamard n t v)) s = _
  rw [complexAt_phases hn hb hlen b le_rfl s hs, complexAt_hadamard (by omega) hv hs, htarget,
    hstage s hs, hstage _ hpartner, stage, stage, stage, leadingBits_xor hb, hleading,
    pow_succ 2 t, Nat.mul_comm (2 ^ t) 2, sum_range_two_mul, Nat.sub_self, pow_zero, Nat.mod_one,
    Nat.sub_zero]
  simp only [index_xor hb]
  simp only [index_eq hb]
  cases s.testBit b with
  | false =>
      simp only [Bool.not_false, Bool.toNat_true, Bool.toNat_false, Nat.mul_zero, Nat.add_zero,
        Finset.sum_add_distrib, if_false, Bool.false_eq_true]
      ring
  | true =>
      simp only [Bool.not_true, Bool.toNat_true, Bool.toNat_false, Nat.mul_one, Nat.add_zero,
        Nat.mul_add, root_add, (root_index hb _ s).1, (root_index hb _ s).2, if_true]
      simp only [mul_neg, ← mul_assoc, Finset.sum_add_distrib, Finset.sum_neg_distrib,
        ← Finset.sum_mul]
      ring

end Layer

/-!
## All layers
-/

theorem complexAt_layers (hn : n ≤ 31) {a : List Real} (ha : a.length = 2 * 2 ^ n) :
    forall t, t ≤ n -> forall s, s < 2 ^ n ->
      complexAt (Operation.applyAll n ((List.range t).flatMap (qftLayer n)) a) s =
        stage n t a s := by
  intro t
  induction t with
  | zero =>
      intro _ s hs
      have hleading : leadingBits n 0 s = 0 := rfl
      simp [stage, index, hleading, root_zero, Nat.mod_eq_of_lt hs]
  | succ t ih =>
      intro ht s hs
      have hvalid : forall op, op ∈ (List.range t).flatMap (qftLayer n) ->
          (op : Operation Real).Valid n := by
        intro op hop
        obtain ⟨target, htarget, hop'⟩ := List.mem_flatMap.mp hop
        have hlt := List.mem_range.mp htarget
        exact valid_qftLayer (by omega) op hop'
      have hlen := Operation.length_applyAll hn hvalid ha
      rw [List.range_succ, List.flatMap_append, List.flatMap_singleton, Operation.applyAll_append]
      exact complexAt_layer hn ht hlen (ih (by omega)) hs

def swappedBit (n k i : Nat) : Nat :=
  if i < k ∨ n - 1 - i < k then n - 1 - i else i

theorem valid_swaps {k : Nat} (hk : k ≤ n / 2) :
    forall op, op ∈ (List.range k).map (fun left => .swap left (n - left - 1)) ->
      (op : Operation Real).Valid n := by
  intro op hop
  obtain ⟨left, hleft, rfl⟩ := List.mem_map.mp hop
  have hlt := List.mem_range.mp hleft
  exact ⟨by omega, by omega, by omega⟩

theorem complexAt_swaps (hn : n ≤ 31) {v : List Real} (hv : v.length = 2 * 2 ^ n) {x : Nat}
    (hx : x < 2 ^ n) :
    forall k, k ≤ n / 2 -> forall y, y < 2 ^ n ->
      (forall i, i < n -> x.testBit i = y.testBit (swappedBit n k i)) ->
      complexAt (Operation.applyAll n
        ((List.range k).map fun left => .swap left (n - left - 1)) v) y = complexAt v x := by
  intro k
  induction k with
  | zero =>
      intro _ y hy hbits
      have hxy : x = y := by
        apply Nat.eq_of_testBit_eq
        intro i
        by_cases hi : i < n
        · simpa [swappedBit] using hbits i hi
        · have hle : 2 ^ n ≤ 2 ^ i := Nat.pow_le_pow_right (by decide) (by omega)
          rw [Nat.testBit_lt_two_pow (by omega), Nat.testBit_lt_two_pow (by omega)]
      rw [hxy]
      rfl
  | succ k ih =>
      intro hk y hy hbits
      have hlen := Operation.length_applyAll hn (valid_swaps (k := k) (by omega)) hv
      have hright : n - (n - k - 1) - 1 = k := by omega
      rw [List.range_succ, List.map_append, Operation.applyAll_append]
      change complexAt (swap n k (n - k - 1) _) y = _
      rw [complexAt, ampAt_swap (by omega) (by omega) (by omega) hlen hy, hright]
      refine ih (by omega) _ (swapBits_lt (by omega) (by omega) hy) ?_
      intro i hi
      rw [hbits i hi, testBit_swapBits, swappedBit, swappedBit]
      congr 1
      split_ifs <;> omega

/-!
## The transform
-/

theorem valid_qftOperations : forall op, op ∈ (qftOperations n : List (Operation Real)) ->
    op.Valid n := by
  intro op hop
  rcases List.mem_append.mp hop with hlayer | hswap
  · obtain ⟨target, htarget, hop'⟩ := List.mem_flatMap.mp hlayer
    exact valid_qftLayer (List.mem_range.mp htarget) op hop'
  · exact valid_swaps le_rfl op hswap

theorem testBit_leadingBits {i : Nat} (hi : i < n) (s : Nat) :
    (leadingBits n n s).testBit i = s.testBit (n - 1 - i) := by
  have hget : ((List.range n).map fun j => n - 1 - j)[i]? = some (n - 1 - i) := by
    simp [hi]
  rw [leadingBits, testBit_gather, hget]

theorem leadingBits_lt (n s : Nat) : leadingBits n n s < 2 ^ n := by
  have hlt := gather_lt ((List.range n).map fun j => n - 1 - j) s
  rwa [List.length_map, List.length_range] at hlt

theorem leadingBits_leadingBits {s : Nat} (hs : s < 2 ^ n) :
    leadingBits n n (leadingBits n n s) = s := by
  apply Nat.eq_of_testBit_eq
  intro i
  by_cases hi : i < n
  · rw [testBit_leadingBits hi, testBit_leadingBits (by omega), show n - 1 - (n - 1 - i) = i by omega]
  · have hle : 2 ^ n ≤ 2 ^ i := Nat.pow_le_pow_right (by decide) (by omega)
    rw [Nat.testBit_lt_two_pow (Nat.lt_of_lt_of_le (leadingBits_lt n _) hle),
      Nat.testBit_lt_two_pow (Nat.lt_of_lt_of_le hs hle)]

theorem complexAt_qftOperations (hn : n ≤ 31) {a : List Real} (ha : a.length = 2 * 2 ^ n)
    {y : Nat} (hy : y < 2 ^ n) :
    complexAt (Operation.applyAll n (qftOperations n) a) y =
      ((1 / Real.sqrt ((2 ^ n : Nat) : Real) : Real) : Complex) *
        ∑ x ∈ Finset.range (2 ^ n),
          Complex.exp (2 * Real.pi * Complex.I * x * y / (2 ^ n : Nat)) * complexAt a x := by
  have hvalid : forall op, op ∈ (List.range n).flatMap (qftLayer n) ->
      (op : Operation Real).Valid n :=
    fun op hop => valid_qftOperations op (List.mem_append_left _ hop)
  have hlen := Operation.length_applyAll hn hvalid ha
  rw [qftOperations, Operation.applyAll_append,
    complexAt_swaps hn hlen (leadingBits_lt n y) (n / 2) le_rfl y hy (by
      intro i hi
      rw [testBit_leadingBits hi, swappedBit]
      congr 1
      split_ifs <;> omega),
    complexAt_layers hn ha n le_rfl _ (leadingBits_lt n y), stage, leadingBits_leadingBits hy,
    sqrt_two_pow, ← one_div_pow, Complex.ofReal_pow]
  congr 1
  apply Finset.sum_congr rfl
  intro x _
  have hindex : index n n x (leadingBits n n y) = x := by
    simp [index, Nat.mod_one]
  rw [hindex, root, mul_comm]
  congr 2
  push_cast
  ring

/--
The circuit of the transform is built, runs on the register of every vector, and leaves
the discrete Fourier transform of the vector.
-/
theorem makeQft_transforms {n : Nat} (hn : n ≤ 31) {a : List Real} (ha : a.length = 2 * 2 ^ n) :
    exists circuit reg data, makeQft n = .ok circuit ∧ DenseRegister.ofAmplitudes n a = .ok reg ∧
      (Simulator.circuitAmplitudes circuit.operations reg).1 = .ok data ∧
      forall y, y < 2 ^ n ->
        (ampAt data y).toComplex =
          ((1 / Real.sqrt ((2 ^ n : Nat) : Real) : Real) : Complex) *
            ∑ x ∈ Finset.range (2 ^ n),
              Complex.exp (2 * Real.pi * Complex.I * x * y / (2 ^ n : Nat)) *
                (ampAt a x).toComplex := by
  obtain ⟨reg, hreg, hrep⟩ := DenseRegister.exists_ofAmplitudes hn ha
  exact ⟨_, reg, _, makeQft_eq (by omega), hreg,
    Simulator.circuitAmplitudes_eq hrep valid_qftOperations,
    fun y hy => complexAt_qftOperations hn ha hy⟩

theorem makeQft_transforms_two :
    exists circuit reg data, makeQft 2 = .ok circuit ∧
      DenseRegister.ofAmplitudes 2 [(1 : Real), 2, 0, -1, 3, 0, 1 / 2, 5] = .ok reg ∧
      (Simulator.circuitAmplitudes circuit.operations reg).1 = .ok data ∧
      forall y, y < 2 ^ 2 ->
        (ampAt data y).toComplex =
          ((1 / Real.sqrt ((2 ^ 2 : Nat) : Real) : Real) : Complex) *
            ∑ x ∈ Finset.range (2 ^ 2),
              Complex.exp (2 * Real.pi * Complex.I * x * y / (2 ^ 2 : Nat)) *
                (ampAt [(1 : Real), 2, 0, -1, 3, 0, 1 / 2, 5] x).toComplex :=
  makeQft_transforms (by decide) rfl

end FourierTransform

end Tmfqs
