import Tmfqs.Register.LazyRefinement
import Tmfqs.Storage.DenseRefinement

/-!
# Registers on the dense backend

On the dense backend a batch is nothing, gates go through the block engine, and a copy
stores the same vector.
-/

namespace Tmfqs

open Library QuantumRegister

abbrev DenseRegister (R : Type) : Type :=
  QuantumRegister R (DenseStateBackend R)

namespace DenseRegister

variable {R : Type} [Field R] [LinearOrder R] [CMath R]

def ofAmplitudes (n : Nat) (v : List R) : Except Exc (DenseRegister R) :=
  construct DenseStateBackend.make (initAmplitudes DenseStateBackend.make n v)

def ofBasis (n initState : Nat) : Except Exc (DenseRegister R) :=
  construct DenseStateBackend.make
    (initBasis DenseStateBackend.make n initState { real := 1, imag := 0 })

abbrev Represents (n : Nat) (v : List R) (r : DenseRegister R) : Prop :=
  Lazy DenseStateBackend.storesVector n v 0 r

variable {n : Nat} {v : List R}

theorem exists_ofAmplitudes (hn : n ≤ 31) (hv : v.length = 2 * 2 ^ n) :
    exists r, ofAmplitudes n v = .ok r ∧ Represents n v r :=
  post_construct (does_initAmplitudes _ hn trivial hv)

theorem does_initBasis_make (hn : n ≤ 31) {s : Nat} (hs : s < 2 ^ n) (amp : Amplitude R) :
    Does (initBasis (DenseStateBackend.make : DenseStateBackend R) n s amp)
      (uninitialized DenseStateBackend.make) (Represents n (StateVector.basis n s amp)) :=
  does_initBasis _ hn trivial hs amp

theorem exists_ofBasis (hn : n ≤ 31) {s : Nat} (hs : s < 2 ^ n) :
    exists r : DenseRegister R, ofBasis n s = .ok r ∧
      Represents n (StateVector.basis n s ({ real := 1, imag := 0 } : Amplitude R)) r :=
  post_construct (does_initBasis_make hn hs _)

theorem endsUnmatched :
    EndsUnmatched (DenseStateBackend.storesVector (R := R)) (.ok .done) := by
  intro n v r h
  exact ⟨rfl, h⟩

theorem Represents.sum_eq {d : Nat} {r : DenseRegister R}
    (h : Lazy DenseStateBackend.storesVector n v d r) {sum : Amplitude R}
    (hsum : r.cachedLogicalAmplitudeSum = some sum) :
    sum = StateVector.amplitudeSum (mapAmplitudes r.applyAffineOverlay r.backend.amplitudes) := by
  obtain ⟨w, ⟨_, _, hw⟩, hv⟩ := h.stored
  have hdata : r.backend.amplitudes = w := by
    rw [hw]
    rfl
  rw [hdata, ← hv]
  exact h.sum sum hsum

end DenseRegister

end Tmfqs
