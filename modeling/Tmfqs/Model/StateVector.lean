import Mathlib.Algebra.Order.Group.Unbundled.Abs
import Tmfqs.Core.BasisStates
import Tmfqs.Library.Cumulative
import Tmfqs.Storage.GateBlockEngine
import Tmfqs.Storage.PairKernels

/-!
# State vectors

What the storage backends are for: every operation as a function on the plain
interleaved vector, and every query as a function of it.  The storage backends
are compared with these functions.
-/

namespace Tmfqs

open Library

namespace StateVector

variable {R : Type} [Field R] [LinearOrder R] [CMath R]

/-!
## Initial vectors
-/

def zero (n : Nat) : List R :=
  List.replicate (2 * 2 ^ n) 0

def basis (n state : Nat) (amp : Amplitude R) : List R :=
  setAmp (zero n) state amp

def uniform (n : Nat) (basisStates : List Nat) : List R :=
  (selectedStates basisStates).foldl
    (fun v state => setAmp v state (uniformAmplitude (selectedStates basisStates).length))
    (zero n)

/-!
## Operations
-/

def phaseFlip (v : List R) (state : Nat) : List R :=
  setAmp v state (ampAt v state).negate

def amplitudeSum (v : List R) : Amplitude R :=
  (amplitudesOf v).foldl Amplitude.add Amplitude.zero

def mean (n : Nat) (v : List R) : Amplitude R :=
  { real := (amplitudeSum v).real / ((2 ^ n : Nat) : R)
    imag := (amplitudeSum v).imag / ((2 ^ n : Nat) : R) }

def reflectAmp (mean a : Amplitude R) : Amplitude R :=
  { real := 2 * mean.real - a.real, imag := 2 * mean.imag - a.imag }

def reflect (mean : Amplitude R) (v : List R) : List R :=
  mapAmplitudes (reflectAmp mean) v

def affineAmp (scale bias a : Amplitude R) : Amplitude R :=
  { real := scale.real * a.real - scale.imag * a.imag + bias.real
    imag := scale.real * a.imag + scale.imag * a.real + bias.imag }

def affine (scale bias : Amplitude R) (v : List R) : List R :=
  mapAmplitudes (affineAmp scale bias) v

def pairStep (kernel : PairKernel R) (v : List R) (p : Nat × Nat) : List R :=
  setAmp (setAmp v p.1 (kernel p.1 p.2 (ampAt v p.1) (ampAt v p.2)).2.1) p.2
    (kernel p.1 p.2 (ampAt v p.1) (ampAt v p.2)).2.2

def pairKernel (kernel : PairKernel R) (n bit : Nat) (v : List R) : List R :=
  (PairKernelExecutor.pairList n bit).foldl (pairStep kernel) v

def hadamard (n qubit : Nat) (v : List R) : List R :=
  pairKernel hadamardPair n (n - qubit - 1) v

def pauliX (n qubit : Nat) (v : List R) : List R :=
  pairKernel pauliXPair n (n - qubit - 1) v

def controlledPhaseShift (n control target : Nat) (theta : R) (v : List R) : List R :=
  pairKernel (controlledPhaseShiftPair (2 ^ (n - control - 1)) theta) n (n - target - 1) v

def controlledNot (n control target : Nat) (v : List R) : List R :=
  pairKernel (controlledNotPair (2 ^ (n - control - 1))) n (n - target - 1) v

def swap (n qubit1 qubit2 : Nat) (v : List R) : List R :=
  controlledNot n qubit1 qubit2 (controlledNot n qubit2 qubit1 (controlledNot n qubit1 qubit2 v))

def blockGate (gate : QuantumGate R) (qubits : List Nat) (n : Nat) (v : List R) : List R :=
  (GateApplyEngine.apply "" gate qubits n loadState storeState v).2

/-!
## Queries
-/

def totalProbability (v : List R) : R :=
  (amplitudesOf v).foldl (fun total a => total + a.probability) 0

def sample (rnd : R) (v : List R) : Except ExcKind Nat :=
  if rnd < 0 ∨ 1 ≤ rnd then
    .error .invalidArgument
  else
    match (searchCumulative rnd 0 ((amplitudesOf v).map Amplitude.probability)).1 with
    | some state => .ok state
    | none => .error .runtimeError

omit [Field R] [CMath R] in
theorem drawn_in_range [Zero R] [One R] {rnd : R} (hrnd : 0 ≤ rnd) (hrnd' : rnd < 1) :
    ¬ (rnd < 0 ∨ 1 ≤ rnd) := by
  rintro (hneg | hge)
  · exact absurd hneg (not_lt.mpr hrnd)
  · exact absurd hrnd' (not_lt.mpr hge)

/-- The printed lines: states whose amplitude exceeds the threshold. -/
def printed (epsilon : R) : Nat -> List (Amplitude R) -> List (Nat × Amplitude R)
  | _, [] => []
  | state, a :: rest =>
      if epsilon < |a.real| ∨ epsilon < |a.imag| then
        (state, a) :: printed epsilon (state + 1) rest
      else
        printed epsilon (state + 1) rest

def print (epsilon : R) (v : List R) : Except ExcKind (List (Nat × Amplitude R)) :=
  if epsilon < 0 then
    .error .invalidArgument
  else
    .ok (printed epsilon 0 (amplitudesOf v))

/-!
## Printed lines
-/

omit [CMath R] in
theorem printed_eq_filter (epsilon : R) (amps : List (Amplitude R)) :
    forall base, printed epsilon base amps =
      ((List.range amps.length).map fun i => (base + i, amps.getD i Amplitude.zero)).filter
        fun line => |line.2.real| > epsilon ∨ |line.2.imag| > epsilon := by
  induction amps with
  | nil =>
      intro base
      rfl
  | cons a rest ih =>
      intro base
      have htail : ((List.range rest.length).map fun i =>
          (base + 1 + i, rest.getD i Amplitude.zero)) =
          (List.range rest.length).map ((fun i =>
            (base + i, (a :: rest).getD i Amplitude.zero)) ∘ Nat.succ) := by
        apply List.map_congr_left
        intro i _
        have hidx : base + 1 + i = base + (i + 1) := by omega
        simp only [Function.comp_apply, Nat.succ_eq_add_one, List.getD_cons_succ, hidx]
      rw [printed, List.length_cons, List.range_succ_eq_map, List.map_cons,
        List.map_map, List.filter_cons, ih, htail]
      simp only [Nat.add_zero, List.getD_cons_zero, decide_eq_true_eq]

omit [CMath R] in
theorem printed_append (epsilon : R) (xs ys : List (Amplitude R)) :
    forall base, printed epsilon base (xs ++ ys) =
      printed epsilon base xs ++ printed epsilon (base + xs.length) ys := by
  induction xs with
  | nil =>
      intro base
      rfl
  | cons a rest ih =>
      intro base
      have hbase : base + 1 + rest.length = base + (a :: rest).length := by
        simp only [List.length_cons]
        omega
      rw [List.cons_append, printed, printed, ih, hbase]
      split <;> rfl

end StateVector

/-!
## Lengths
-/

namespace StateVector

section Lengths

variable {R : Type} [Field R]

@[simp] theorem length_zero (n : Nat) : (zero n : List R).length = 2 * 2 ^ n := by
  simp [zero]

@[simp] theorem length_basis (n state : Nat) (amp : Amplitude R) :
    (basis n state amp).length = 2 * 2 ^ n := by
  simp [basis]

@[simp] theorem length_phaseFlip (v : List R) (state : Nat) :
    (phaseFlip v state).length = v.length :=
  length_setAmp v state _

@[simp] theorem length_reflect (mean : Amplitude R) (v : List R) :
    (reflect mean v).length = v.length :=
  length_mapAmplitudes _ v

@[simp] theorem length_affine (scale bias : Amplitude R) (v : List R) :
    (affine scale bias v).length = v.length :=
  length_mapAmplitudes _ v

@[simp] theorem length_pairStep (kernel : PairKernel R) (v : List R) (p : Nat × Nat) :
    (pairStep kernel v p).length = v.length := by
  simp [pairStep]

theorem length_foldl_pairStep (kernel : PairKernel R) (pairs : List (Nat × Nat)) :
    forall v : List R, (pairs.foldl (pairStep kernel) v).length = v.length := by
  induction pairs with
  | nil =>
      intro v
      rfl
  | cons p rest ih =>
      intro v
      rw [List.foldl_cons, ih, length_pairStep]

@[simp] theorem length_pairKernel (kernel : PairKernel R) (n bit : Nat) (v : List R) :
    (pairKernel kernel n bit v).length = v.length :=
  length_foldl_pairStep kernel _ v

omit [Field R] in
theorem length_foldl_setAmp (f : Nat -> Amplitude R) (states : List Nat) :
    forall v : List R, (states.foldl (fun v state => setAmp v state (f state)) v).length =
      v.length := by
  induction states with
  | nil =>
      intro v
      rfl
  | cons s rest ih =>
      intro v
      rw [List.foldl_cons, ih, length_setAmp]

@[simp] theorem length_uniform [CMath R] (n : Nat) (basisStates : List Nat) :
    (uniform n basisStates : List R).length = 2 * 2 ^ n := by
  rw [uniform, length_foldl_setAmp (fun _ => uniformAmplitude _), length_zero]

theorem ampAt_zero (n s : Nat) : ampAt (zero n : List R) s = Amplitude.zero := by
  have hzero : forall i, (List.replicate (2 * 2 ^ n) (0 : R)).getD i 0 = 0 := by
    intro i
    rw [List.getD_eq_getElem?_getD, List.getElem?_replicate]
    split <;> rfl
  simp only [ampAt, readAmp, zero, hzero]
  rfl

theorem ampAt_basis {n t : Nat} (ht : t < 2 ^ n) (a : Amplitude R) (s : Nat) :
    ampAt (basis n t a) s = if s = t then a else Amplitude.zero := by
  rw [basis, ampAt_setAmp s a (by rw [length_zero]; omega), ampAt_zero]

theorem ampAt_foldl_setAmp (a : Amplitude R) (s : Nat) (states : List Nat) :
    forall v : List R, (forall t, t ∈ states -> 2 * t + 1 < v.length) ->
      ampAt (states.foldl (fun v state => setAmp v state a) v) s =
        if s ∈ states then a else ampAt v s := by
  induction states with
  | nil =>
      intro v _
      simp
  | cons t rest ih =>
      intro v hlt
      rw [List.foldl_cons, ih (setAmp v t a) (by
        intro t' ht'
        rw [length_setAmp]
        exact hlt t' (List.mem_cons_of_mem t ht')),
        ampAt_setAmp s a (hlt t List.mem_cons_self)]
      by_cases hrest : s ∈ rest
      · rw [if_pos hrest, if_pos (List.mem_cons_of_mem t hrest)]
      · rw [if_neg hrest]
        by_cases hst : s = t
        · rw [if_pos hst, if_pos (hst ▸ List.mem_cons_self)]
        · rw [if_neg hst, if_neg (by simp [hst, hrest])]

theorem ampAt_uniform [CMath R] {n : Nat} {basisStates : List Nat}
    (hlt : forall t, t ∈ basisStates -> t < 2 ^ n) (s : Nat) :
    ampAt (uniform n basisStates : List R) s =
      if s ∈ basisStates then uniformAmplitude (selectedStates basisStates).length
      else Amplitude.zero := by
  rw [uniform, ampAt_foldl_setAmp, ampAt_zero]
  · simp only [mem_selectedStates]
  · intro t ht
    have ht' := hlt t (mem_selectedStates.mp ht)
    rw [length_zero]
    omega

theorem length_blockGate [LinearOrder R] {gate : QuantumGate R} {qubits : List Nat} {n : Nat}
    (hn : n ≤ 31) (h : ValidTargets qubits n gate.dimension) {v : List R}
    (hv : v.length = 2 * 2 ^ n) :
    (blockGate gate qubits n v).length = 2 * 2 ^ n := by
  obtain ⟨_, v', hrun, hlen, _⟩ := (post_gateApplyEngine "" hn h hv).exists_ok
  rw [blockGate, hrun]
  exact hlen.trans hv

end Lengths

end StateVector

end Tmfqs
