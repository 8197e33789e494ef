import Tmfqs.State.StateFactories
import Tmfqs.State.StateRegisters

/-!
# The states a program builds

Factories, new amplitudes, copies and simulator runs in any order.  The dense backend
serves the queries of a state, and every run chooses the class of its own backend.
-/

namespace Tmfqs

open Library QuantumRegister

section Construction

variable {R β : Type} [Field R] [LinearOrder R] [CMath R] [IStateBackend R β] {selected : β}
  {n : Nat} {r : QuantumRegister R β}

section

omit [LinearOrder R] [CMath R] [IStateBackend R β]

theorem construct_eq_ok {x : Call (QuantumRegister R β) Unit} (h : construct selected x = .ok r) :
    x (uninitialized selected) = (.ok (), r) := by
  rw [construct] at h
  rcases hrun : x (uninitialized selected) with ⟨result, r'⟩
  rw [hrun] at h
  cases result with
  | ok a =>
      cases h
      rfl
  | error e => cases h

theorem construct_of_eq {x : Call (QuantumRegister R β) Unit}
    (h : x (uninitialized selected) = (.ok (), r)) : construct selected x = .ok r := by
  rw [construct, h]

theorem construct_post {x : Call (QuantumRegister R β) Unit} {Q : QuantumRegister R β -> Prop}
    (h : construct selected x = .ok r)
    (hpost : Call.Post x (uninitialized selected) (fun _ r' => Q r') (fun _ _ => True)) : Q r := by
  unfold Call.Post at hpost
  rw [construct_eq_ok h] at hpost
  exact hpost

theorem construct_qubits_le {f : Unit -> Call (QuantumRegister R β) Unit}
    (h : construct selected (initializeBackend selected n >>= f) = .ok r) : n ≤ 63 := by
  by_contra hn
  have hfails : Fails (initializeBackend selected n >>= f) (uninitialized selected) := by
    apply Fails.bind
    rw [Fails, initializeBackend, Call.post_bind_iff, Call.post_modify, Call.post_bind_iff,
      checkedStateCount, if_pos (show n > maxSupportedQubitsForStateIndex by
        simpa [maxSupportedQubitsForStateIndex] using hn)]
    exact trivial
  exact hfails.ne_ok (construct_eq_ok h)

end

end Construction

section Counts

variable {σ : Type} {n : Nat} {s : σ}

theorem post_checkedStateCount :
    Call.Post (checkedStateCount n) s (fun count s' => n ≤ 63 ∧ count = 2 ^ n ∧ s' = s)
      (fun _ s' => s' = s) := by
  by_cases hn : n ≤ 63
  · rw [checkedStateCount_eq hn]
    exact ⟨hn, rfl, rfl⟩
  · rw [checkedStateCount, if_pos (show n > maxSupportedQubitsForStateIndex by
      simpa [maxSupportedQubitsForStateIndex] using hn)]
    exact rfl

theorem post_checkedAmplitudeElementCount :
    Call.Post (checkedAmplitudeElementCount n) s
      (fun count s' => n ≤ 63 ∧ count = u64 (2 ^ n * 2) ∧ s' = s) (fun _ s' => s' = s) := by
  rw [checkedAmplitudeElementCount, Call.post_bind_iff]
  refine post_checkedStateCount.imp ?_ (fun _ _ hs => hs)
  rintro count s' ⟨hn, hcount, hs⟩
  rw [Call.post_pure, hcount]
  exact ⟨hn, rfl, hs⟩

end Counts

namespace QuantumState

variable {R ι : Type} [Field R] [LinearOrder R] [CMath R] {B : ι -> Type}
  {P : forall i, CodecPolicy R (B i)}

/-- The backend behind the queries of a state that holds no register. -/
abbrev denseBackend : AnyBackend P :=
  AnyBackend.make .dense

def HoldsRegister (q : QuantumState R (AnyBackend P)) : Bool :=
  match q.kind with
  | .register _ => true
  | _ => false

theorem onRegister_state {α : Type} {q : QuantumState R (AnyBackend P)} (dense : AnyBackend P)
    (x : Call (QuantumRegister R (AnyBackend P)) α) (hq : q.HoldsRegister = false) :
    (onRegister dense x q).2 = q := by
  rw [HoldsRegister] at hq
  rw [onRegister]
  split
  · rename_i reg hkind
    rw [hkind] at hq
    cases hq
  · split
    · rfl
    · rfl

theorem amplitudes_state {q : QuantumState R (AnyBackend P)} (hq : q.HoldsRegister = false) :
    (QuantumState.amplitudes denseBackend q).2 = q := by
  rcases q with ⟨n, kind⟩
  cases kind with
  | amplitudes data => rfl
  | register reg => cases hq
  | _ => exact onRegister_state denseBackend _ rfl

/-- Normalising rescales a vector, and every other accepted vector is taken as it is. -/
theorem post_validateOrNormalize {σ : Type} (v : List R) (validation : StateValidation R) (s : σ) :
    Call.Post (validateOrNormalize v validation) s
      (fun w s' => w.length = v.length ∧ s' = s) (fun _ s' => s' = s) := by
  rw [validateOrNormalize]
  split
  · exact rfl
  · split
    · exact ⟨rfl, rfl⟩
    · rw [normalize]
      split
      · exact rfl
      · exact ⟨List.length_map _, rfl⟩
    · split
      · exact rfl
      · exact ⟨rfl, rfl⟩

inductive Built : QuantumState R (AnyBackend P) -> Prop where
  | basis {n s : Nat} {q : QuantumState R (AnyBackend P)}
      (hq : (QuantumState.basis n s : Call Unit (QuantumState R (AnyBackend P))) () =
        (.ok q, ())) : Built q
  | basisAmplitude {n s : Nat} {amp : Amplitude R} {q : QuantumState R (AnyBackend P)}
      (hq : (QuantumState.basisAmplitude n s amp :
        Call Unit (QuantumState R (AnyBackend P))) () = (.ok q, ())) : Built q
  | uniformSubset {n : Nat} {states : List Nat} (hne : states ≠ [])
      (hlt : forall s, s ∈ states -> s < 2 ^ n) : Built (QuantumState.uniformSubset n states)
  | fromAmplitudes {n : Nat} {v : List R} {validation : StateValidation R}
      {q : QuantumState R (AnyBackend P)}
      (hq : (QuantumState.fromAmplitudes n v validation :
        Call Unit (QuantumState R (AnyBackend P))) () = (.ok q, ())) : Built q
  | setAmplitude {q : QuantumState R (AnyBackend P)} (h : Built q) (s : Nat) (amp : Amplitude R)
      (validation : StateValidation R) :
      Built (QuantumState.setAmplitude denseBackend s amp validation q).2
  | loadAmplitudes {q : QuantumState R (AnyBackend P)} (h : Built q) (v : List R)
      (validation : StateValidation R) : Built (QuantumState.loadAmplitudes v validation q).2
  | copied {q : QuantumState R (AnyBackend P)} (h : Built q) : Built q.copy
  | ran {q q' : QuantumState R (AnyBackend P)} (h : Built q) (c : BackendClass ι)
      (circuit : Circuit R) (hrun : Simulator.run (AnyBackend.make c) circuit q = .ok q') :
      Built q'

/-!
## What is known of a built state
-/

section Consistency

variable [IsStrictOrderedRing R] {round : forall _ : ι, List R -> List R}
  {hR : forall i, (P i).Rounds (round i)}
  {hfits : forall i, ChunkLayout.Fits (2 ^ 31) (P i).chunkStates}

/-- State indices are in range, a vector has the length of the state, a register is held. -/
inductive Consistent (hR : forall i, (P i).Rounds (round i))
    (hfits : forall i, ChunkLayout.Fits (2 ^ 31) (P i).chunkStates) :
    QuantumState R (AnyBackend P) -> Prop where
  | basis {n s : Nat} (hs : s < 2 ^ n) : Consistent hR hfits { qubits := n, kind := .basis s }
  | basisAmplitude {n s : Nat} {amp : Amplitude R} (hs : s < 2 ^ n) :
      Consistent hR hfits { qubits := n, kind := .basisAmplitude s amp }
  | uniformSubset {n : Nat} {states : List Nat} (hne : states ≠ [])
      (hlt : forall s, s ∈ states -> s < 2 ^ n) :
      Consistent hR hfits { qubits := n, kind := .uniformSubset states }
  | amplitudes {n : Nat} {v : List R} (hn : n ≤ 63) (hv : v.length = u64 (2 ^ n * 2)) :
      Consistent hR hfits { qubits := n, kind := .amplitudes v }
  | register {n : Nat} {reg : QuantumRegister R (AnyBackend P)} (h : Held hR hfits n reg) :
      Consistent hR hfits { qubits := n, kind := .register reg }

/-!
### Registers made for a state
-/

variable {n : Nat} {r : QuantumRegister R (AnyBackend P)} {c : BackendClass ι}

section

omit [IsStrictOrderedRing R]

theorem checked_initBasis {s : Nat} {amp : Amplitude R} (hs : s < 2 ^ n)
    (hr : construct (AnyBackend.make c : AnyBackend P)
      (initBasis (AnyBackend.make c) n s amp) = .ok r) :
    Checked (AnyBackend.checksArguments hR hfits) n r := by
  have hn := construct_qubits_le hr
  rcases Nat.lt_or_ge 31 n with hlarge | hle
  · exact absurd hr (construct_ne_of_throws fun b =>
      AnyBackend.fails_initBasis_large b hlarge hn s amp)
  · exact Constructed.checked (.basis hle hs hr) hle

theorem checked_initUniformSuperposition {states : List Nat} (hne : states ≠ [])
    (hlt : forall s, s ∈ states -> s < 2 ^ n)
    (hr : construct (AnyBackend.make c : AnyBackend P) (do
      initBasis (AnyBackend.make c) n 0 ({ real := 1, imag := 0 } : Amplitude R)
      initUniformSuperposition states) = .ok r) :
    Checked (AnyBackend.checksArguments hR hfits) n r := by
  have hrun := construct_eq_ok hr
  rcases hbasis : initBasis (AnyBackend.make c : AnyBackend P) n 0
    ({ real := 1, imag := 0 } : Amplitude R) (uninitialized (AnyBackend.make c)) with ⟨result, r0⟩
  cases result with
  | ok a =>
      have hr0 : construct (AnyBackend.make c : AnyBackend P)
          (initBasis (AnyBackend.make c) n 0 ({ real := 1, imag := 0 } : Amplitude R)) =
            .ok r0 := by
        rw [construct, hbasis]
      have hchecked : Checked (AnyBackend.checksArguments hR hfits) n r0 :=
        checked_initBasis (Nat.two_pow_pos n) hr0
      apply construct_post hr
      rw [Call.post_bind_iff]
      exact Call.post_of_ok hbasis ((safe_initUniformSuperposition hne hlt r0 hchecked).imp
        (fun _ _ h => h) (fun _ _ _ => trivial))
  | error e =>
      rw [Call.bind_error hbasis] at hrun
      cases hrun

theorem held_initAmplitudes {v : List R} (hv : v.length = u64 (2 ^ n * 2))
    (hr : construct (AnyBackend.make c : AnyBackend P)
      (initAmplitudes (AnyBackend.make c) n v) = .ok r) : Held hR hfits n r := by
  have hn := construct_qubits_le hr
  rcases Nat.lt_or_ge 31 n with hlarge | hle
  · apply construct_post hr
    rw [initAmplitudes, Call.post_bind_iff]
    refine Call.post_of_ok (initializeBackend_eq _ hn _) ?_
    refine (post_onBackend (AnyBackend.post_loadAmplitudes_large _ hlarge hn v)).imp ?_
      (fun _ _ _ => trivial)
    rintro a r' ⟨b, ⟨d, hb, hzero⟩, hr'⟩
    subst hr'
    exact Or.inr ⟨rfl, rfl, rfl, d, hb, hzero⟩
  · have hlen : v.length = 2 * 2 ^ n := hv.trans (DenseStateBackend.u64_element_count hle)
    exact Or.inl (Constructed.checked (.amplitudes hle hlen hr) hle)

theorem held_materialize {q : QuantumState R (AnyBackend P)} (h : Consistent hR hfits q)
    (hr : q.materialize (AnyBackend.make c) = .ok r) : Held hR hfits q.qubits r := by
  cases h with
  | basis hs => exact Or.inl (checked_initBasis hs hr)
  | basisAmplitude hs => exact Or.inl (checked_initBasis hs hr)
  | uniformSubset hne hlt => exact Or.inl (checked_initUniformSuperposition hne hlt hr)
  | amplitudes hn hv => exact held_initAmplitudes hv hr
  | register h =>
      cases hr
      exact h.copied

end

/-!
### Every step keeps it
-/

omit [IsStrictOrderedRing R] in
theorem Consistent.copied {q : QuantumState R (AnyBackend P)} (h : Consistent hR hfits q) :
    Consistent hR hfits q.copy := by
  cases h with
  | basis hs => exact .basis hs
  | basisAmplitude hs => exact .basisAmplitude hs
  | uniformSubset hne hlt => exact .uniformSubset hne hlt
  | amplitudes hn hv => exact .amplitudes hn hv
  | register h => exact .register h.copied

theorem Consistent.ran {q q' : QuantumState R (AnyBackend P)} (h : Consistent hR hfits q)
    {circuit : Circuit R} (hrun : Simulator.run (AnyBackend.make c) circuit q = .ok q') :
    Consistent hR hfits q' := by
  rw [Simulator.run] at hrun
  split at hrun
  · cases hrun
  · cases hreg : q.materialize (AnyBackend.make c) with
    | error e =>
        rw [hreg] at hrun
        cases hrun
    | ok reg =>
        have hpost := holding_runBatch circuit.operations reg (held_materialize h hreg)
        unfold Call.Post at hpost
        rcases hbatch : Simulator.runBatch circuit.operations reg with ⟨result, reg'⟩
        simp only [hreg, hbatch] at hrun
        rw [hbatch] at hpost
        cases result with
        | error e => cases hrun
        | ok a =>
            cases hrun
            exact .register (n := reg'.numQubits) (by rw [hpost.numQubits]; exact hpost)

section

omit [IsStrictOrderedRing R]

theorem Consistent.loaded {q : QuantumState R (AnyBackend P)} (h : Consistent hR hfits q)
    (v : List R) (validation : StateValidation R) :
    Call.Post (loadAmplitudes v validation) q (fun _ q' => Consistent hR hfits q')
      (fun _ q' => Consistent hR hfits q') := by
  rw [loadAmplitudes, Call.post_bind_iff, Call.post_get, Call.post_bind_iff]
  refine post_checkedAmplitudeElementCount.imp ?_ (fun _ q' hq => hq ▸ h)
  rintro count q1 ⟨hn, hcount, hq⟩
  subst hq hcount
  split
  · exact h
  · rename_i hlen
    change Call.Post (validateOrNormalize v validation >>= _) _ _ _
    rw [Call.post_bind_iff]
    refine (post_validateOrNormalize v validation q1).imp ?_ (fun _ q' hq => hq ▸ h)
    rintro w q2 ⟨hw, hq⟩
    subst hq
    rw [Call.post_modify]
    exact .amplitudes hn (hw.trans (not_not.mp hlen))

theorem held_amplitudes {reg : QuantumRegister R (AnyBackend P)} (h : Held hR hfits n reg) :
    Held hR hfits n (QuantumRegister.amplitudes reg).2 := by
  cases h with
  | inl hchecked =>
      apply Or.inl
      exact ((safe_amplitudes reg hchecked).imp (fun _ _ h => h) (fun _ _ he => he.elim)).state
  | inr hshut =>
      rcases hshut.2.refused_amplitudes with ⟨e, he⟩
      rw [he]
      exact Or.inr hshut

theorem Consistent.read {q : QuantumState R (AnyBackend P)} (h : Consistent hR hfits q) :
    Consistent hR hfits (QuantumState.amplitudes denseBackend q).2 := by
  cases h with
  | basis hs =>
      rw [amplitudes_state rfl]
      exact .basis hs
  | basisAmplitude hs =>
      rw [amplitudes_state rfl]
      exact .basisAmplitude hs
  | uniformSubset hne hlt =>
      rw [amplitudes_state rfl]
      exact .uniformSubset hne hlt
  | amplitudes hn hv => exact .amplitudes hn hv
  | register h => exact .register (held_amplitudes h)

theorem Consistent.set {q : QuantumState R (AnyBackend P)} (h : Consistent hR hfits q)
    (s : Nat) (amp : Amplitude R) (validation : StateValidation R) :
    Consistent hR hfits (QuantumState.setAmplitude denseBackend s amp validation q).2 := by
  rw [QuantumState.setAmplitude, Call.bind_apply]
  have hread := h.read
  rcases hrun : QuantumState.amplitudes denseBackend q with ⟨result, q1⟩
  rw [hrun] at hread
  cases result with
  | error e => exact hread
  | ok values =>
      apply Call.Post.state
      rw [Call.post_bind_iff, Call.post_get, Call.post_bind_iff]
      refine post_checkedStateCount.imp ?_ (fun _ q2 hq => hq ▸ hread)
      rintro count q2 ⟨_, _, hq⟩
      subst hq
      split
      · exact hread
      · exact hread.loaded _ validation

theorem consistent_of_factory {x : Call Unit (QuantumState R (AnyBackend P))}
    {q : QuantumState R (AnyBackend P)} (hq : x () = (.ok q, ()))
    (hx : Call.Post x () (fun q _ => Consistent hR hfits q) (fun _ _ => True)) :
    Consistent hR hfits q := by
  unfold Call.Post at hx
  rw [hq] at hx
  exact hx

theorem post_basis (n s : Nat) :
    Call.Post (QuantumState.basis n s : Call Unit (QuantumState R (AnyBackend P))) ()
      (fun q _ => Consistent hR hfits q) (fun _ _ => True) := by
  rw [QuantumState.basis, Call.post_bind_iff]
  refine post_checkedStateCount.imp ?_ (fun _ _ _ => trivial)
  rintro count s' ⟨_, hcount, _⟩
  split
  · exact trivial
  · rename_i hs
    exact .basis (hcount ▸ not_le.mp hs)

theorem post_basisAmplitude (n s : Nat) (amp : Amplitude R) :
    Call.Post (QuantumState.basisAmplitude n s amp : Call Unit (QuantumState R (AnyBackend P))) ()
      (fun q _ => Consistent hR hfits q) (fun _ _ => True) := by
  rw [QuantumState.basisAmplitude, Call.post_bind_iff]
  refine post_checkedStateCount.imp ?_ (fun _ _ _ => trivial)
  rintro count s' ⟨_, hcount, _⟩
  split
  · exact trivial
  · rename_i hs
    exact .basisAmplitude (hcount ▸ not_le.mp hs)

theorem post_fromAmplitudes (n : Nat) (v : List R) (validation : StateValidation R) :
    Call.Post (QuantumState.fromAmplitudes n v validation :
        Call Unit (QuantumState R (AnyBackend P))) ()
      (fun q _ => Consistent hR hfits q) (fun _ _ => True) := by
  rw [QuantumState.fromAmplitudes, Call.post_bind_iff]
  refine post_checkedAmplitudeElementCount.imp ?_ (fun _ _ _ => trivial)
  rintro count s' ⟨hn, hcount, _⟩
  split
  · exact trivial
  · rename_i hlen
    change Call.Post (validateOrNormalize v validation >>= _) _ _ _
    rw [Call.post_bind_iff]
    refine (post_validateOrNormalize v validation s').imp ?_ (fun _ _ _ => trivial)
    rintro w s'' ⟨hw, _⟩
    exact .amplitudes hn (hw.trans ((not_not.mp hlen).trans hcount))

end

theorem Built.consistent {q : QuantumState R (AnyBackend P)} (h : Built q) :
    Consistent hR hfits q := by
  induction h with
  | basis hq => exact consistent_of_factory hq (post_basis _ _)
  | basisAmplitude hq => exact consistent_of_factory hq (post_basisAmplitude _ _ _)
  | uniformSubset hne hlt => exact .uniformSubset hne hlt
  | fromAmplitudes hq => exact consistent_of_factory hq (post_fromAmplitudes _ _ _)
  | setAmplitude _ s amp validation ih => exact ih.set s amp validation
  | loadAmplitudes _ v validation ih => exact (ih.loaded v validation).state
  | copied _ ih => exact ih.copied
  | ran _ c circuit hrun ih => exact ih.ran hrun

end Consistency

end QuantumState

end Tmfqs
