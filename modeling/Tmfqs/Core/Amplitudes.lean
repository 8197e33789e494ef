import Tmfqs.Core.Types

/-!
# Interleaved amplitude buffers

`AmplitudesVector` stores `[real0, imag0, real1, imag1, ...]`.  This module has
the accesses the backends make to such a buffer, and the laws that let later
proofs treat it as a vector of amplitudes.
-/

namespace Tmfqs

variable {R : Type}

/-- Store an amplitude at elements `elem` and `elem + 1`. -/
def writeAmp (data : List R) (elem : Nat) (amp : Amplitude R) : List R :=
  (data.set elem amp.real).set (elem + 1) amp.imag

def setAmp (data : List R) (state : Nat) (amp : Amplitude R) : List R :=
  writeAmp data (2 * state) amp

def amplitudesOf : List R -> List (Amplitude R)
  | real :: imag :: rest => { real := real, imag := imag } :: amplitudesOf rest
  | _ => []

def mapAmplitudes (f : Amplitude R -> Amplitude R) : List R -> List R
  | real :: imag :: rest =>
      (f { real := real, imag := imag }).real ::
        (f { real := real, imag := imag }).imag :: mapAmplitudes f rest
  | rest => rest

/-!
## Lengths and concatenation

A chunk boundary never separates the two parts of an amplitude, so both loops
may be run chunk by chunk.
-/

@[simp] theorem length_writeAmp (data : List R) (elem : Nat) (amp : Amplitude R) :
    (writeAmp data elem amp).length = data.length := by
  simp [writeAmp]

@[simp] theorem length_setAmp (data : List R) (state : Nat) (amp : Amplitude R) :
    (setAmp data state amp).length = data.length :=
  length_writeAmp data (2 * state) amp

@[simp] theorem length_mapAmplitudes (f : Amplitude R -> Amplitude R) :
    forall data : List R, (mapAmplitudes f data).length = data.length
  | [] => rfl
  | [_] => rfl
  | _ :: _ :: rest => by
      simp [mapAmplitudes, length_mapAmplitudes f rest]

theorem length_amplitudesOf :
    forall data : List R, (amplitudesOf data).length = data.length / 2
  | [] => by
      simp [amplitudesOf]
  | [_] => by
      simp [amplitudesOf]
  | _ :: _ :: rest => by
      simp [amplitudesOf, length_amplitudesOf rest]
      omega

theorem mapAmplitudes_append (f : Amplitude R -> Amplitude R) :
    forall xs ys : List R, xs.length % 2 = 0 ->
      mapAmplitudes f (xs ++ ys) = mapAmplitudes f xs ++ mapAmplitudes f ys
  | [], _, _ => rfl
  | [_], _, h => by simp at h
  | real :: imag :: rest, ys, h => by
      have hrest : rest.length % 2 = 0 := by
        simp at h
        omega
      simp [mapAmplitudes, mapAmplitudes_append f rest ys hrest]

theorem amplitudesOf_append :
    forall xs ys : List R, xs.length % 2 = 0 ->
      amplitudesOf (xs ++ ys) = amplitudesOf xs ++ amplitudesOf ys
  | [], _, _ => rfl
  | [_], _, h => by simp at h
  | real :: imag :: rest, ys, h => by
      have hrest : rest.length % 2 = 0 := by
        simp at h
        omega
      simp [amplitudesOf, amplitudesOf_append rest ys hrest]

theorem mapAmplitudes_mapAmplitudes (f g : Amplitude R -> Amplitude R) :
    forall data : List R,
      mapAmplitudes f (mapAmplitudes g data) = mapAmplitudes (fun a => f (g a)) data
  | [] => rfl
  | [_] => rfl
  | _ :: _ :: rest => by
      simp [mapAmplitudes, mapAmplitudes_mapAmplitudes f g rest]

theorem mapAmplitudes_id : forall data : List R,
    mapAmplitudes (fun a => a) data = data
  | [] => rfl
  | [_] => rfl
  | _ :: _ :: rest => by
      simp [mapAmplitudes, mapAmplitudes_id rest]

/-!
## Single accesses
-/

variable [Field R]

/-- The amplitude whose real part is element `elem` of the buffer. -/
def readAmp (data : List R) (elem : Nat) : Amplitude R :=
  { real := data.getD elem 0, imag := data.getD (elem + 1) 0 }

def ampAt (data : List R) (state : Nat) : Amplitude R :=
  readAmp data (2 * state)

theorem readAmp_writeAmp_self {data : List R} {elem : Nat} (amp : Amplitude R)
    (h : elem + 1 < data.length) :
    readAmp (writeAmp data elem amp) elem = amp := by
  have hlt : elem < data.length := by omega
  apply Amplitude.eq_of_parts
  · simp [readAmp, writeAmp, List.getD_eq_getElem?_getD, hlt]
  · simp [readAmp, writeAmp, List.getD_eq_getElem?_getD, h]

theorem readAmp_writeAmp_of_disjoint {data : List R} {elem other : Nat}
    (amp : Amplitude R) (h : other + 1 < elem ∨ elem + 1 < other) :
    readAmp (writeAmp data elem amp) other = readAmp data other := by
  have h1 : ¬ elem = other := by omega
  have h2 : ¬ elem + 1 = other := by omega
  have h3 : ¬ elem = other + 1 := by omega
  simp [readAmp, writeAmp, List.getD_eq_getElem?_getD, h1, h2, h3]

theorem writeAmp_readAmp_self {data : List R} {elem : Nat}
    (h : elem + 1 < data.length) :
    writeAmp data elem (readAmp data elem) = data := by
  have hlt : elem < data.length := by omega
  simp [readAmp, writeAmp, List.getD_eq_getElem?_getD, hlt, h]

theorem ampAt_setAmp {data : List R} {state : Nat} (other : Nat)
    (amp : Amplitude R) (h : 2 * state + 1 < data.length) :
    ampAt (setAmp data state amp) other =
      if other = state then amp else ampAt data other := by
  by_cases heq : other = state
  · subst heq
    simpa [ampAt, setAmp] using readAmp_writeAmp_self amp h
  · rw [if_neg heq]
    exact readAmp_writeAmp_of_disjoint amp (by omega)

theorem ampAt_cons_cons (real imag : R) (rest : List R) (state : Nat) :
    ampAt (real :: imag :: rest) (state + 1) = ampAt rest state := by
  have hidx : 2 * (state + 1) = 2 * state + 1 + 1 := by omega
  simp [ampAt, readAmp, hidx]

theorem eq_of_ampAt {v w : List R} {N : Nat}
    (hv : v.length = 2 * N) (hw : w.length = 2 * N)
    (h : forall s, s < N -> ampAt v s = ampAt w s) : v = w := by
  apply List.ext_getElem (by omega)
  intro i hi hi'
  have hs := h (i / 2) (by omega)
  have hreal := congrArg Amplitude.real hs
  have himag := congrArg Amplitude.imag hs
  simp only [ampAt, readAmp] at hreal himag
  rcases Nat.mod_two_eq_zero_or_one i with hmod | hmod
  · have hidx : 2 * (i / 2) = i := by omega
    simpa [hidx, List.getD_eq_getElem?_getD, hi, hi'] using hreal
  · have hidx : 2 * (i / 2) + 1 = i := by omega
    simpa [hidx, List.getD_eq_getElem?_getD, hi, hi'] using himag

theorem ampAt_mapAmplitudes (f : Amplitude R -> Amplitude R) :
    forall (data : List R) (state : Nat), 2 * state + 1 < data.length ->
      ampAt (mapAmplitudes f data) state = f (ampAt data state)
  | [], state, h => by simp at h
  | [_], state, h => by simp at h
  | real :: imag :: rest, 0, _ => by
      simp [mapAmplitudes, ampAt, readAmp]
  | real :: imag :: rest, state + 1, h => by
      have hrest : 2 * state + 1 < rest.length := by
        simp at h
        omega
      rw [mapAmplitudes, ampAt_cons_cons, ampAt_cons_cons]
      exact ampAt_mapAmplitudes f rest state hrest

theorem mapAmplitudes_setAmp (f : Amplitude R -> Amplitude R) {data : List R} {state : Nat}
    (a : Amplitude R) {N : Nat} (hlen : data.length = 2 * N) (h : state < N) :
    mapAmplitudes f (setAmp data state a) = setAmp (mapAmplitudes f data) state (f a) := by
  apply eq_of_ampAt (N := N)
  · rw [length_mapAmplitudes, length_setAmp, hlen]
  · rw [length_setAmp, length_mapAmplitudes, hlen]
  · intro s hs
    rw [ampAt_mapAmplitudes f _ s (by rw [length_setAmp]; omega),
      ampAt_setAmp s a (by omega),
      ampAt_setAmp s (f a) (by rw [length_mapAmplitudes]; omega),
      ampAt_mapAmplitudes f data s (by omega)]
    split <;> rfl

theorem amplitudesOf_eq_map :
    forall data : List R,
      amplitudesOf data = (List.range (data.length / 2)).map (ampAt data)
  | [] => by
      simp [amplitudesOf]
  | [_] => by
      simp [amplitudesOf]
  | real :: imag :: rest => by
      have hlen : (real :: imag :: rest).length / 2 = rest.length / 2 + 1 := by
        simp
        omega
      have htail : (ampAt (real :: imag :: rest)) ∘ Nat.succ = ampAt rest := by
        funext state
        exact ampAt_cons_cons real imag rest state
      rw [hlen, List.range_succ_eq_map, List.map_cons, List.map_map, htail,
        amplitudesOf, amplitudesOf_eq_map rest]
      simp [ampAt, readAmp]

end Tmfqs
