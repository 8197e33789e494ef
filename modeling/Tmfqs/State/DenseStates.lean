import Tmfqs.Register.DenseRegister
import Tmfqs.State.QuantumState

/-!
# The vector of a state

Every representation of a state stands for a vector, and the register made for a state
represents it.
-/

namespace Tmfqs

open Library QuantumRegister

namespace QuantumState

variable {R : Type} [Field R] [LinearOrder R] [CMath R]

/-!
## The range check
-/

section Range

variable {β : Type} [IStateBackend R β] {dense : β} {q : QuantumState R β} {s : Nat}

omit [LinearOrder R] [CMath R] in
theorem amplitude_in_range (hn : q.qubits ≤ 63) (hs : s < 2 ^ q.qubits) :
    q.amplitude dense s = q.storedAmplitude dense s := by
  rw [amplitude, Call.bind_ok (Call.get_apply q), checkedStateCount_eq hn, pure_bind,
    if_neg (Nat.not_le.mpr hs)]

omit [LinearOrder R] [CMath R] in
theorem amplitude_out_of_range (hn : q.qubits ≤ 63) (hs : ¬ s < 2 ^ q.qubits) :
    q.amplitude dense s =
      (.error (invalidArgument "Amplitude state index is out of range"), q) := by
  rw [amplitude, Call.bind_ok (Call.get_apply q), checkedStateCount_eq hn, pure_bind,
    if_pos (Nat.not_lt.mp hs)]
  rfl

end Range

/-!
## States on the dense backend
-/

/-- The state of `n` qubits stands for the vector. -/
inductive Denotes (n : Nat) : List R -> QuantumState R (DenseStateBackend R) -> Prop where
  | basis {s : Nat} (hn : n ≤ 31) (hs : s < 2 ^ n) :
      Denotes n (StateVector.basis n s { real := 1, imag := 0 })
        { qubits := n, kind := .basis s }
  | basisAmplitude {s : Nat} {amp : Amplitude R} (hn : n ≤ 31) (hs : s < 2 ^ n) :
      Denotes n (StateVector.basis n s amp) { qubits := n, kind := .basisAmplitude s amp }
  | uniformSubset {states : List Nat} (hn : n ≤ 31) (hne : states ≠ [])
      (hlt : forall s, s ∈ states -> s < 2 ^ n) :
      Denotes n (StateVector.uniform n states) { qubits := n, kind := .uniformSubset states }
  | amplitudes {v : List R} (hn : n ≤ 31) (hv : v.length = 2 * 2 ^ n) :
      Denotes n v { qubits := n, kind := .amplitudes v }
  | register {v : List R} {d : Nat} {reg : DenseRegister R}
      (h : Lazy DenseStateBackend.storesVector n v d reg) : Denotes n v (fromRegister reg)

variable {n : Nat} {v : List R} {q : QuantumState R (DenseStateBackend R)}

theorem Denotes.qubits_eq (h : Denotes n v q) : q.qubits = n := by
  cases h with
  | register h => exact h.numQubits
  | _ => rfl

theorem Denotes.length (h : Denotes n v q) : v.length = 2 * 2 ^ n := by
  cases h with
  | basis hn hs => exact StateVector.length_basis n _ _
  | basisAmplitude hn hs => exact StateVector.length_basis n _ _
  | uniformSubset hn hne hlt => exact StateVector.length_uniform n _
  | amplitudes hn hv => exact hv
  | register h => exact h.length

theorem Denotes.qubits_le (h : Denotes n v q) : n ≤ 31 := by
  cases h with
  | register h => exact h.qubits
  | _ => assumption

theorem Denotes.materialize (h : Denotes n v q) :
    exists r d, q.materialize DenseStateBackend.make = .ok r ∧
      Lazy DenseStateBackend.storesVector n v d r := by
  cases h with
  | basis hn hs =>
      obtain ⟨r, hr, hlazy⟩ := DenseRegister.exists_ofBasis (R := R) hn hs
      exact ⟨r, 0, hr, hlazy⟩
  | @basisAmplitude s amp hn hs =>
      obtain ⟨r, hr, hlazy⟩ := post_construct (DenseRegister.does_initBasis_make hn hs amp)
      exact ⟨r, 0, hr, hlazy⟩
  | @uniformSubset states hn hne hlt =>
      have hinit : Does
          (do
            initBasis (DenseStateBackend.make : DenseStateBackend R) n 0
              ({ real := 1, imag := 0 } : Amplitude R)
            initUniformSuperposition states)
          (uninitialized DenseStateBackend.make)
          (DenseRegister.Represents n (StateVector.uniform n states)) := by
        rw [Does, Call.post_bind_iff]
        refine (DenseRegister.does_initBasis_make hn (Nat.two_pow_pos n) _).imp ?_
          (fun _ _ he => he)
        rintro _ r1 h1
        exact does_initUniformSuperposition h1 hne hlt
      obtain ⟨r, hr, hlazy⟩ := post_construct hinit
      exact ⟨r, 0, hr, hlazy⟩
  | amplitudes hn hv =>
      obtain ⟨r, hr, hlazy⟩ := DenseRegister.exists_ofAmplitudes hn hv
      exact ⟨r, 0, hr, hlazy⟩
  | register h =>
      exact ⟨_, _, rfl, Lazy.copied h fun _ hw => DenseStateBackend.storesVector_clone hw⟩

theorem ok_of_answers {σ α : Type} {x : Call σ α} {s : σ} {a : α} {Q : σ -> Prop}
    (h : Answers x s (.ok a) Q) : (x s).1 = .ok a := by
  have hout := h.outcome
  cases hres : (x s).1 with
  | ok p =>
      rw [hres] at hout
      exact congrArg _ (Except.ok.inj hout)
  | error e =>
      rw [hres] at hout
      cases hout

/-- A query every register of the vector answers alike is answered so by the state. -/
theorem Denotes.onRegister_eq {α : Type} {x : Call (DenseRegister R) α} {a : α}
    (h : Denotes n v q)
    (hx : forall {d r}, Lazy DenseStateBackend.storesVector n v d r -> (x r).1 = .ok a) :
    (q.onRegister DenseStateBackend.make x).1 = .ok a := by
  rcases h.materialize with ⟨r, d, hr, hlazy⟩
  cases h with
  | register hreg => exact hx hreg
  | _ =>
      simp only [onRegister, hr]
      exact hx hlazy

theorem Denotes.totalProbability_eq (h : Denotes n v q) :
    (q.totalProbability DenseStateBackend.make).1 = .ok (StateVector.totalProbability v) := by
  have hquery := h.onRegister_eq (fun hr => ok_of_answers (answers_totalProbability hr))
  cases h with
  | basis hn hs =>
      rw [StateVector.totalProbability_basis hs]
      rfl
  | basisAmplitude hn hs =>
      rw [StateVector.totalProbability_basis hs]
      rfl
  | amplitudes hn hv => rfl
  | _ => exact hquery

theorem Denotes.amplitudes_eq (h : Denotes n v q) :
    (q.amplitudes DenseStateBackend.make).1 = .ok v := by
  have hquery := h.onRegister_eq (fun hr => ok_of_answers (answers_amplitudes hr))
  cases h with
  | amplitudes hn hv => rfl
  | _ => exact hquery

end QuantumState

end Tmfqs
