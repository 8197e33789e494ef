import Tmfqs.Core.Amplitudes
import Tmfqs.Storage.PairKernelExecutor

/-!
# Kernels on pairs of amplitudes

The bodies the backends hand to a pair traversal.  Each returns the two new
amplitudes and, for the compressed backend, which of them it wrote.
-/

namespace Tmfqs

inductive PairMutation where
  | none
  | first
  | second
  | both
deriving DecidableEq, Repr

def touchesFirst (mutation : PairMutation) : Bool :=
  mutation = .first ∨ mutation = .both

def touchesSecond (mutation : PairMutation) : Bool :=
  mutation = .second ∨ mutation = .both

def PairKernel (R : Type) : Type :=
  Nat -> Nat -> Amplitude R -> Amplitude R -> PairMutation × Amplitude R × Amplitude R

section Bodies

variable {R : Type} [Field R] [DecidableEq R] [CMath R]

def hadamardPair : PairKernel R :=
  fun _ _ a0 a1 =>
    let invSqrt2 := 1 / CMath.sqrt 2
    if a0.real = 0 ∧ a0.imag = 0 ∧ a1.real = 0 ∧ a1.imag = 0 then
      (.none, a0, a1)
    else
      (.both,
        { real := (a0.real + a1.real) * invSqrt2
          imag := (a0.imag + a1.imag) * invSqrt2 },
        { real := (a0.real - a1.real) * invSqrt2
          imag := (a0.imag - a1.imag) * invSqrt2 })

def pauliXPair : PairKernel R :=
  fun _ _ a0 a1 =>
    if a0.real = a1.real ∧ a0.imag = a1.imag then
      (.none, a0, a1)
    else
      (.both, a1, a0)

def controlledPhaseShiftPair (controlMask : Nat) (theta : R) : PairKernel R :=
  fun _ state1 a0 a1 =>
    let phaseReal := CMath.cos theta
    let phaseImag := CMath.sin theta
    if state1 &&& controlMask = 0 then
      (.none, a0, a1)
    else if a1.real = 0 ∧ a1.imag = 0 then
      (.none, a0, a1)
    else
      (.second, a0,
        { real := phaseReal * a1.real - phaseImag * a1.imag
          imag := phaseReal * a1.imag + phaseImag * a1.real })

def controlledNotPair (controlMask : Nat) : PairKernel R :=
  fun state0 _ a0 a1 =>
    if state0 &&& controlMask = 0 then
      (.none, a0, a1)
    else if a0.real = a1.real ∧ a0.imag = a1.imag then
      (.none, a0, a1)
    else
      (.both, a1, a0)

end Bodies

/-!
## What a kernel writes

The mutation a kernel reports decides which chunks are marked dirty, so it must
name every amplitude the kernel changed.
-/

variable {R : Type}

/-- An amplitude the reported mutation does not name is unchanged. -/
structure Reports (kernel : PairKernel R) : Prop where
  first : forall s0 s1 a0 a1, touchesFirst (kernel s0 s1 a0 a1).1 = false ->
    (kernel s0 s1 a0 a1).2.1 = a0
  second : forall s0 s1 a0 a1, touchesSecond (kernel s0 s1 a0 a1).1 = false ->
    (kernel s0 s1 a0 a1).2.2 = a1

section Reports

variable [DecidableEq R]

theorem reports_hadamardPair [Field R] [CMath R] : Reports (hadamardPair (R := R)) where
  first s0 s1 a0 a1 := by
    unfold hadamardPair
    split <;> simp [touchesFirst]
  second s0 s1 a0 a1 := by
    unfold hadamardPair
    split <;> simp [touchesSecond]

theorem reports_pauliXPair : Reports (pauliXPair (R := R)) where
  first s0 s1 a0 a1 := by
    unfold pauliXPair
    split <;> simp [touchesFirst]
  second s0 s1 a0 a1 := by
    unfold pauliXPair
    split <;> simp [touchesSecond]

theorem reports_controlledPhaseShiftPair [Field R] [CMath R] (controlMask : Nat) (theta : R) :
    Reports (controlledPhaseShiftPair controlMask theta) where
  first s0 s1 a0 a1 := by
    unfold controlledPhaseShiftPair
    split
    · simp
    · split <;> simp
  second s0 s1 a0 a1 := by
    unfold controlledPhaseShiftPair
    split
    · simp
    · split <;> simp [touchesSecond]

theorem reports_controlledNotPair (controlMask : Nat) :
    Reports (controlledNotPair (R := R) controlMask) where
  first s0 s1 a0 a1 := by
    unfold controlledNotPair
    split
    · simp
    · split <;> simp [touchesFirst]
  second s0 s1 a0 a1 := by
    unfold controlledNotPair
    split
    · simp
    · split <;> simp [touchesSecond]

end Reports

/-!
## Kernels without their shortcuts

Skipping a pair never changes the result.
-/

section Shortcuts

variable [DecidableEq R]

theorem hadamardPair_snd [Field R] [CMath R] (s0 s1 : Nat) (a0 a1 : Amplitude R) :
    (hadamardPair s0 s1 a0 a1).2 =
      ({ real := (a0.real + a1.real) * (1 / CMath.sqrt 2)
         imag := (a0.imag + a1.imag) * (1 / CMath.sqrt 2) },
       { real := (a0.real - a1.real) * (1 / CMath.sqrt 2)
         imag := (a0.imag - a1.imag) * (1 / CMath.sqrt 2) }) := by
  unfold hadamardPair
  simp only
  split
  · rename_i h
    rcases a0 with ⟨x0, y0⟩
    rcases a1 with ⟨x1, y1⟩
    rcases h with ⟨rfl, rfl, rfl, rfl⟩
    simp
  · rfl

theorem pauliXPair_snd (s0 s1 : Nat) (a0 a1 : Amplitude R) :
    (pauliXPair s0 s1 a0 a1).2 = (a1, a0) := by
  unfold pauliXPair
  split
  · rename_i h
    rw [Amplitude.eq_of_parts h.1 h.2]
  · rfl

theorem controlledPhaseShiftPair_snd [Field R] [CMath R] (controlMask : Nat) (theta : R)
    (s0 s1 : Nat) (a0 a1 : Amplitude R) :
    (controlledPhaseShiftPair controlMask theta s0 s1 a0 a1).2 =
      (a0, if s1 &&& controlMask = 0 then a1
        else
          { real := CMath.cos theta * a1.real - CMath.sin theta * a1.imag
            imag := CMath.cos theta * a1.imag + CMath.sin theta * a1.real }) := by
  unfold controlledPhaseShiftPair
  simp only
  split
  · rfl
  · split
    · rename_i h
      rcases a1 with ⟨x1, y1⟩
      rcases h with ⟨rfl, rfl⟩
      simp
    · rfl

theorem controlledNotPair_snd (controlMask s0 s1 : Nat) (a0 a1 : Amplitude R) :
    (controlledNotPair controlMask s0 s1 a0 a1).2 =
      if s0 &&& controlMask = 0 then (a0, a1) else (a1, a0) := by
  unfold controlledNotPair
  split
  · rfl
  · split
    · rename_i h
      rw [Amplitude.eq_of_parts h.1 h.2]
    · rfl

end Shortcuts

end Tmfqs
