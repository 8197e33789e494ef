import Mathlib.Algebra.BigOperators.Group.Finset.Basic
import Mathlib.Algebra.BigOperators.Ring.Finset
import Tmfqs.Model.StateVector

/-!
# Sums over a state vector

The loops that add up amplitudes or probabilities, as sums over the basis states.
-/

namespace Tmfqs

section Loops

variable {R : Type} [Field R]

theorem foldl_add (amps : List (Amplitude R)) :
    forall a : Amplitude R, amps.foldl Amplitude.add a =
      { real := a.real + (amps.map Amplitude.real).sum
        imag := a.imag + (amps.map Amplitude.imag).sum } := by
  induction amps with
  | nil =>
      intro a
      simp
  | cons b rest ih =>
      intro a
      rw [List.foldl_cons, ih]
      apply Amplitude.eq_of_parts
      · simp [Amplitude.add, add_assoc]
      · simp [Amplitude.add, add_assoc]

theorem foldl_probability (amps : List (Amplitude R)) :
    forall total : R, amps.foldl (fun total a => total + a.probability) total =
      total + (amps.map Amplitude.probability).sum := by
  induction amps with
  | nil =>
      intro total
      simp
  | cons a rest ih =>
      intro total
      rw [List.foldl_cons, ih, List.map_cons, List.sum_cons, add_assoc]

theorem sum_amplitudesOf {v : List R} {N : Nat} (hv : v.length = 2 * N) (f : Amplitude R -> R) :
    ((amplitudesOf v).map f).sum = ∑ s ∈ Finset.range N, f (ampAt v s) := by
  have hN : v.length / 2 = N := by omega
  rw [amplitudesOf_eq_map, hN, List.map_map]
  rfl

theorem sum_setAmp {v : List R} {N t : Nat} (hv : v.length = 2 * N) (ht : t < N)
    (a : Amplitude R) (f : Amplitude R -> R) :
    ∑ s ∈ Finset.range N, f (ampAt (setAmp v t a) s) =
      (∑ s ∈ Finset.range N, f (ampAt v s)) - f (ampAt v t) + f a := by
  have hmem : t ∈ Finset.range N := Finset.mem_range.mpr ht
  have hat : forall s, ampAt (setAmp v t a) s = if s = t then a else ampAt v s :=
    fun s => ampAt_setAmp s a (by omega)
  have hrest : ∑ s ∈ (Finset.range N).erase t, f (ampAt (setAmp v t a) s) =
      ∑ s ∈ (Finset.range N).erase t, f (ampAt v s) := by
    apply Finset.sum_congr rfl
    intro s hs
    rw [hat, if_neg (Finset.ne_of_mem_erase hs)]
  rw [← Finset.add_sum_erase _ _ hmem, hrest, hat, if_pos rfl,
    ← Finset.add_sum_erase _ (fun s => f (ampAt v s)) hmem]
  ring

theorem sum_mapAmplitudes {v : List R} {N : Nat} (hv : v.length = 2 * N)
    (g : Amplitude R -> Amplitude R) (f : Amplitude R -> R) :
    ∑ s ∈ Finset.range N, f (ampAt (mapAmplitudes g v) s) =
      ∑ s ∈ Finset.range N, f (g (ampAt v s)) := by
  apply Finset.sum_congr rfl
  intro s hs
  have hlt := Finset.mem_range.mp hs
  rw [ampAt_mapAmplitudes g v s (by omega)]

end Loops

namespace StateVector

variable {R : Type} [Field R] {v : List R} {N : Nat}

theorem amplitudeSum_eq (hv : v.length = 2 * N) :
    amplitudeSum v =
      { real := ∑ s ∈ Finset.range N, (ampAt v s).real
        imag := ∑ s ∈ Finset.range N, (ampAt v s).imag } := by
  rw [amplitudeSum, foldl_add, sum_amplitudesOf hv, sum_amplitudesOf hv]
  apply Amplitude.eq_of_parts <;> simp [Amplitude.zero]

theorem totalProbability_eq (hv : v.length = 2 * N) :
    totalProbability v = ∑ s ∈ Finset.range N, (ampAt v s).probability := by
  rw [totalProbability, foldl_probability, sum_amplitudesOf hv, zero_add]

theorem totalProbability_setAmp {t : Nat} (hv : v.length = 2 * N) (ht : t < N)
    (a : Amplitude R) :
    totalProbability (setAmp v t a) =
      totalProbability v - (ampAt v t).probability + a.probability := by
  rw [totalProbability_eq ((length_setAmp v t a).trans hv), totalProbability_eq hv,
    sum_setAmp hv ht a Amplitude.probability]

theorem totalProbability_basis {n s : Nat} (hs : s < 2 ^ n) (amp : Amplitude R) :
    totalProbability (basis n s amp) = amp.probability := by
  have hzero : totalProbability (zero n : List R) = 0 := by
    rw [totalProbability_eq (length_zero n)]
    apply Finset.sum_eq_zero
    intro t _
    rw [ampAt_zero]
    simp [Amplitude.probability, Amplitude.zero]
  rw [basis, totalProbability_setAmp (length_zero n) hs, hzero, ampAt_zero]
  simp [Amplitude.probability, Amplitude.zero]

theorem amplitudeSum_setAmp {t : Nat} (hv : v.length = 2 * N) (ht : t < N) (a : Amplitude R) :
    amplitudeSum (setAmp v t a) =
      { real := (amplitudeSum v).real - (ampAt v t).real + a.real
        imag := (amplitudeSum v).imag - (ampAt v t).imag + a.imag } := by
  rw [amplitudeSum_eq ((length_setAmp v t a).trans hv), amplitudeSum_eq hv,
    sum_setAmp hv ht a Amplitude.real, sum_setAmp hv ht a Amplitude.imag]

theorem amplitudeSum_reflect (hv : v.length = 2 * N) (mean : Amplitude R) :
    amplitudeSum (reflect mean v) =
      { real := 2 * mean.real * (N : R) - (amplitudeSum v).real
        imag := 2 * mean.imag * (N : R) - (amplitudeSum v).imag } := by
  rw [amplitudeSum_eq ((length_reflect mean v).trans hv), amplitudeSum_eq hv, reflect,
    sum_mapAmplitudes hv _ Amplitude.real, sum_mapAmplitudes hv _ Amplitude.imag]
  simp only [reflectAmp, Finset.sum_sub_distrib, Finset.sum_const, Finset.card_range,
    nsmul_eq_mul]
  apply Amplitude.eq_of_parts <;> ring

end StateVector

end Tmfqs
