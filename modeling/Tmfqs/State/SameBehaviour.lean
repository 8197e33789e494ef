import Tmfqs.State.BuiltStates
import Tmfqs.State.Measurement

/-!
# States with the same amplitudes

A built state answers its queries as the state made from its amplitudes does.  Measuring
agrees too, except that a stored basis state is returned without drawing a number.
-/

namespace Tmfqs

open Library

/-- The register a dense constructor leaves, without an overlay or a cached sum. -/
def QuantumRegister.fresh {R ι : Type} [Field R] {B : ι -> Type}
    {P : forall i, CodecPolicy R (B i)} (n : Nat) (v : List R) :
    QuantumRegister R (AnyBackend P) :=
  { uninitialized (AnyBackend.dense (DenseStateBackend.holding n v)) with
    numQubits := n
    numStates := 2 ^ n }

namespace QuantumState

variable {ι : Type} {B : ι -> Type} {P : forall i, CodecPolicy Real (B i)}
  {round : forall _ : ι, List Real -> List Real} {hR : forall i, (P i).Rounds (round i)}
  {hfits : forall i, ChunkLayout.Fits (2 ^ 31) (P i).chunkStates} {n : Nat} {v : List Real}
  {q : QuantumState Real (AnyBackend P)}

open QuantumRegister in
/-- The state of `n` qubits stands for the vector. -/
inductive Shown (hR : forall i, (P i).Rounds (round i))
    (hfits : forall i, ChunkLayout.Fits (2 ^ 31) (P i).chunkStates) (n : Nat) :
    List Real -> QuantumState Real (AnyBackend P) -> Prop where
  | basis {s : Nat} (hn : n ≤ 31) (hs : s < 2 ^ n) :
      Shown hR hfits n (StateVector.basis n s { real := 1, imag := 0 })
        { qubits := n, kind := .basis s }
  | basisAmplitude {s : Nat} {amp : Amplitude Real} (hn : n ≤ 31) (hs : s < 2 ^ n) :
      Shown hR hfits n (StateVector.basis n s amp) { qubits := n, kind := .basisAmplitude s amp }
  | uniformSubset {states : List Nat} (hn : n ≤ 31) (hne : states ≠ [])
      (hlt : forall s, s ∈ states -> s < 2 ^ n) :
      Shown hR hfits n (StateVector.uniform n states)
        { qubits := n, kind := .uniformSubset states }
  | amplitudes {v : List Real} (hn : n ≤ 63) (hv : v.length = u64 (2 ^ n * 2)) :
      Shown hR hfits n v { qubits := n, kind := .amplitudes v }
  | register {v : List Real} {reg : QuantumRegister Real (AnyBackend P)}
      (h : QuantumRegister.Shown (AnyBackend.showsVector hR hfits) n v reg) :
      Shown hR hfits n v { qubits := n, kind := .register reg }

/-!
## Registers made for a state
-/

section Made

open QuantumRegister

theorem shown_fresh (hn : n ≤ 31) (hv : v.length = 2 * 2 ^ n) :
    QuantumRegister.Shown (AnyBackend.showsVector hR hfits) n v (fresh n v) := by
  have hholds : DenseStateBackend.Holds n v (DenseStateBackend.holding n v) := ⟨hn, hv, rfl⟩
  apply QuantumRegister.Shown.of_inactive _ rfl hholds
  exact
    { numQubits := rfl
      numStates := rfl
      ready := ⟨v, hholds⟩
      unitScale := by
        intro hactive
        cases hactive }

theorem initBasis_fresh (hn : n ≤ 31) {s : Nat} (hs : s < 2 ^ n) (amp : Amplitude Real) :
    initBasis (denseBackend : AnyBackend P) n s amp (uninitialized denseBackend) =
      (.ok (), fresh n (StateVector.basis n s amp)) := by
  rw [initBasis, Call.bind_ok (initializeBackend_eq _ (by omega) _), onBackend, Call.focus_apply]
  have hinit : IStateBackend.initBasis n s amp (denseBackend : AnyBackend P) =
      (.ok (), AnyBackend.dense (DenseStateBackend.holding n (StateVector.basis n s amp))) :=
    AnyBackend.dispatch_dense (DenseStateBackend.initBasis_eq _ hn hs amp)
  simp only [hinit]
  rfl

theorem initUniformSuperposition_fresh (hn : n ≤ 31) {states : List Nat} (hne : states ≠ [])
    (hlt : forall s, s ∈ states -> s < 2 ^ n) :
    initUniformSuperposition states (fresh n v : QuantumRegister Real (AnyBackend P)) =
      (.ok (), fresh n (StateVector.uniform n states)) := by
  have hempty : ¬ states.isEmpty = true := by
    simpa using hne
  have hforM : (states.forM fun state =>
      validateStateIndex "QuantumRegister::initUniformSuperposition" state (2 ^ n) :
        Call (QuantumRegister Real (AnyBackend P)) PUnit) = pure ⟨⟩ :=
    Call.forM_eq_pure fun s hs => validateStateIndex_ok _ hn (hlt s hs)
  have hinit : IStateBackend.initUniformSuperposition n states
      (AnyBackend.dense (DenseStateBackend.holding n v) : AnyBackend P) =
        (.ok (), AnyBackend.dense
          (DenseStateBackend.holding n (StateVector.uniform n states))) :=
    AnyBackend.dispatch_dense (DenseStateBackend.initUniformSuperposition_eq _ hn hne hlt)
  have hstates : (fresh n v : QuantumRegister Real (AnyBackend P)).numStates = 2 ^ n := rfl
  have hbackend : (fresh n v : QuantumRegister Real (AnyBackend P)).backend =
      AnyBackend.dense (DenseStateBackend.holding n v) := rfl
  rw [initUniformSuperposition, Call.bind_ok (Call.get_apply _), if_neg hempty, hstates, hforM,
    pure_bind]
  change onBackend (IStateBackend.initUniformSuperposition n states) (fresh n v) = _
  rw [onBackend, Call.focus_apply, hbackend, hinit]
  rfl

theorem materialize_basis (hn : n ≤ 31) {s : Nat} (hs : s < 2 ^ n) :
    ({ qubits := n, kind := .basis s } : QuantumState Real (AnyBackend P)).materialize
      denseBackend = .ok (fresh n (StateVector.basis n s { real := 1, imag := 0 })) :=
  construct_of_eq (initBasis_fresh hn hs _)

theorem materialize_basisAmplitude (hn : n ≤ 31) {s : Nat} (hs : s < 2 ^ n)
    (amp : Amplitude Real) :
    ({ qubits := n, kind := .basisAmplitude s amp } :
      QuantumState Real (AnyBackend P)).materialize denseBackend =
        .ok (fresh n (StateVector.basis n s amp)) :=
  construct_of_eq (initBasis_fresh hn hs amp)

theorem materialize_uniformSubset (hn : n ≤ 31) {states : List Nat} (hne : states ≠ [])
    (hlt : forall s, s ∈ states -> s < 2 ^ n) :
    ({ qubits := n, kind := .uniformSubset states } :
      QuantumState Real (AnyBackend P)).materialize denseBackend =
        .ok (fresh n (StateVector.uniform n states)) := by
  apply construct_of_eq
  rw [Call.bind_ok (initBasis_fresh hn (Nat.two_pow_pos n) _)]
  exact initUniformSuperposition_fresh hn hne hlt

theorem Shown.onRegister {α : Type} {x : Call (QuantumRegister Real (AnyBackend P)) α}
    {A : Except Exc α -> Prop} (h : Shown hR hfits n v q)
    (hkind : forall data, q.kind ≠ .amplitudes data)
    (hx : forall reg, QuantumRegister.Shown (AnyBackend.showsVector hR hfits) n v reg ->
      A (x reg).1) : A (q.onRegister denseBackend x).1 := by
  cases h with
  | basis hn hs =>
      simp only [QuantumState.onRegister, materialize_basis hn hs]
      exact hx _ (shown_fresh hn (StateVector.length_basis n _ _))
  | basisAmplitude hn hs =>
      simp only [QuantumState.onRegister, materialize_basisAmplitude hn hs]
      exact hx _ (shown_fresh hn (StateVector.length_basis n _ _))
  | uniformSubset hn hne hlt =>
      simp only [QuantumState.onRegister, materialize_uniformSubset hn hne hlt]
      exact hx _ (shown_fresh hn (StateVector.length_uniform n _))
  | amplitudes hn hv => exact absurd rfl (hkind v)
  | register h => exact hx _ h

end Made

/-!
## Queries
-/

theorem Shown.qubits (h : Shown hR hfits n v q) : q.qubits = n := by
  cases h with
  | _ => rfl

theorem Shown.qubits_le (h : Shown hR hfits n v q) : n ≤ 63 := by
  cases h with
  | basis hn hs => omega
  | basisAmplitude hn hs => omega
  | uniformSubset hn hne hlt => omega
  | amplitudes hn hv => exact hn
  | register h =>
      have hn := h.checked.qubits
      omega

theorem Shown.amplitudes_eq (h : Shown hR hfits n v q) :
    (QuantumState.amplitudes denseBackend q).1 = .ok v := by
  have hquery := h.onRegister (x := QuantumRegister.amplitudes) (A := fun out => out = .ok v)
  cases h with
  | amplitudes hn hv => rfl
  | _ =>
      exact hquery (by intro data hdata; cases hdata)
        (fun reg hreg => ok_of_answers hreg.answers_amplitudes)

theorem Shown.after_amplitudes (h : Shown hR hfits n v q) :
    Shown hR hfits n v (QuantumState.amplitudes denseBackend q).2 := by
  cases h with
  | basis hn hs =>
      rw [amplitudes_state rfl]
      exact .basis hn hs
  | basisAmplitude hn hs =>
      rw [amplitudes_state rfl]
      exact .basisAmplitude hn hs
  | uniformSubset hn hne hlt =>
      rw [amplitudes_state rfl]
      exact .uniformSubset hn hne hlt
  | amplitudes hn hv => exact .amplitudes hn hv
  | register h =>
      have hkept := (h.answers_amplitudes.imp (fun _ _ ha => ha.2) (fun _ _ he => he.2)).state
      exact .register hkept

theorem Shown.amplitude_eq (h : Shown hR hfits n v q) (s : Nat) :
    (QuantumState.amplitude denseBackend s q).1 =
      (QuantumState.amplitude denseBackend s
        ({ qubits := n, kind := .amplitudes v } : QuantumState Real (AnyBackend P))).1 := by
  have hqubits := h.qubits
  have hn := h.qubits_le
  by_cases hs : s < 2 ^ n
  · rw [amplitude_in_range (by omega) (by rw [hqubits]; exact hs), amplitude_in_range hn hs]
    have hquery := h.onRegister (x := QuantumRegister.amplitude s)
      (A := fun out => out = .ok (ampAt v s))
    cases h with
    | basis hn' hs' =>
        change Except.ok _ = Except.ok _
        rw [StateVector.ampAt_basis hs']
    | basisAmplitude hn' hs' =>
        change Except.ok _ = Except.ok _
        rw [StateVector.ampAt_basis hs']
    | amplitudes hn' hv => rfl
    | _ =>
        exact hquery (by intro data hdata; cases hdata)
          (fun reg hreg => ok_of_answers (hreg.answers_amplitude hs))
  · rw [amplitude_out_of_range (by omega) (by rw [hqubits]; exact hs),
      amplitude_out_of_range hn hs]

theorem Shown.totalProbability_eq (h : Shown hR hfits n v q) :
    (QuantumState.totalProbability denseBackend q).1 =
      (QuantumState.totalProbability denseBackend
        ({ qubits := n, kind := .amplitudes v } : QuantumState Real (AnyBackend P))).1 := by
  have hquery := h.onRegister (x := QuantumRegister.totalProbability)
    (A := fun out => out = .ok (StateVector.totalProbability v))
  cases h with
  | basis hn hs =>
      change Except.ok _ = Except.ok (StateVector.totalProbability _)
      rw [StateVector.totalProbability_basis hs]
  | basisAmplitude hn hs =>
      change Except.ok _ = Except.ok (StateVector.totalProbability _)
      rw [StateVector.totalProbability_basis hs]
  | amplitudes hn hv => rfl
  | _ =>
      exact hquery (by intro data hdata; cases hdata)
        (fun reg hreg => ok_of_answers hreg.answers_totalProbability)

theorem exists_materialize (hq : q.HoldsRegister = false)
    (hkind : forall data, q.kind ≠ .amplitudes data)
    (hv : (QuantumState.amplitudes denseBackend q).1 = .ok v) :
    exists reg, q.materialize denseBackend = .ok reg := by
  cases hreg : q.materialize denseBackend with
  | ok reg => exact ⟨reg, rfl⟩
  | error e =>
      rcases q with ⟨n, kind⟩
      cases kind with
      | amplitudes data => exact absurd rfl (hkind data)
      | register reg => cases hq
      | _ =>
          change (QuantumState.onRegister denseBackend QuantumRegister.amplitudes _).1 = .ok v at hv
          simp only [QuantumState.onRegister, hreg] at hv
          cases hv

theorem Consistent.exists_shown (h : Consistent hR hfits q)
    (hv : (QuantumState.amplitudes denseBackend q).1 = .ok v) :
    exists w, Shown hR hfits q.qubits w q := by
  cases h with
  | basis hs =>
      rcases exists_materialize rfl (by intro data hdata; cases hdata) hv with ⟨reg, hreg⟩
      have hchecked : QuantumRegister.Checked (AnyBackend.checksArguments hR hfits) _ reg :=
        checked_initBasis hs hreg
      exact ⟨_, .basis hchecked.qubits hs⟩
  | basisAmplitude hs =>
      rcases exists_materialize rfl (by intro data hdata; cases hdata) hv with ⟨reg, hreg⟩
      have hchecked : QuantumRegister.Checked (AnyBackend.checksArguments hR hfits) _ reg :=
        checked_initBasis hs hreg
      exact ⟨_, .basisAmplitude hchecked.qubits hs⟩
  | uniformSubset hne hlt =>
      rcases exists_materialize rfl (by intro data hdata; cases hdata) hv with ⟨reg, hreg⟩
      have hchecked : QuantumRegister.Checked (AnyBackend.checksArguments hR hfits) _ reg :=
        checked_initUniformSuperposition hne hlt hreg
      exact ⟨_, .uniformSubset hchecked.qubits hne hlt⟩
  | amplitudes hn hlen => exact ⟨_, .amplitudes hn hlen⟩
  | register h =>
      cases h with
      | inl hchecked =>
          rcases hchecked.exists_shown (AnyBackend.showsVector hR hfits) with ⟨w, hw⟩
          exact ⟨w, .register hw⟩
      | inr hshut =>
          rcases hshut.2.refused_amplitudes with ⟨e, he⟩
          change (QuantumRegister.amplitudes _).1 = .ok v at hv
          rw [he] at hv
          cases hv

theorem Consistent.shown (h : Consistent hR hfits q)
    (hv : (QuantumState.amplitudes denseBackend q).1 = .ok v) : Shown hR hfits q.qubits v q := by
  rcases h.exists_shown hv with ⟨w, hw⟩
  have hread := hw.amplitudes_eq
  rw [hv] at hread
  cases hread
  exact hw

/-!
## Measurement
-/

/-- The basis state that is measured without drawing a number. -/
def storedState (q : QuantumState Real (AnyBackend P)) : Option Nat :=
  match q.kind with
  | .basis state => some state
  | .basisAmplitude state _ => some state
  | _ => none

/-- The outcome up to the text of an exception, and the numbers drawn, on every random source. -/
def MeasuresAlike (q r : QuantumState Real (AnyBackend P)) : Prop :=
  forall source : RandomSource Real, (forall i, 0 ≤ source.values i ∧ source.values i < 1) ->
    (measureFrom denseBackend (q, source)).1.toOption =
        (measureFrom denseBackend (r, source)).1.toOption ∧
      (measureFrom denseBackend (q, source)).2.2.consumed =
        (measureFrom denseBackend (r, source)).2.2.consumed

theorem toOption_eq_of_mapError {α : Type} {x y : Except Exc α}
    (h : x.mapError Exc.kind = y.mapError Exc.kind) : x.toOption = y.toOption := by
  cases x with
  | ok a =>
      cases y with
      | ok b =>
          cases h
          rfl
      | error e => cases h
  | error e =>
      cases y with
      | ok b => cases h
      | error e' => rfl

theorem Shown.measure_eq (h : Shown hR hfits n v q) (hn : n ≤ 31)
    (hkind : forall data, q.kind ≠ .amplitudes data) {rnd : Real} (hrnd : 0 ≤ rnd)
    (hrnd' : rnd < 1) :
    (q.onRegister denseBackend (QuantumRegister.measure rnd)).1.toOption =
      (measure denseBackend rnd
        ({ qubits := n, kind := .amplitudes v } :
          QuantumState Real (AnyBackend P))).1.toOption := by
  apply h.onRegister (A := fun out => out.toOption = _) hkind
  intro reg hreg
  apply toOption_eq_of_mapError
  rw [(hreg.answers_measure hrnd hrnd').outcome]
  exact (measure_amplitudes _ (by omega) hreg.length hrnd hrnd').symm

theorem Shown.measuresAlike (h : Shown hR hfits n v q) (hq : q.storedState = none) :
    MeasuresAlike q { qubits := n, kind := .amplitudes v } := by
  intro source hvalues
  have hrnd := hvalues source.consumed
  cases h with
  | basis hn hs => cases hq
  | basisAmplitude hn hs => cases hq
  | amplitudes hn hv => exact ⟨rfl, rfl⟩
  | uniformSubset hn hne hlt =>
      have hshown : Shown hR hfits n _ _ := .uniformSubset hn hne hlt
      have hmeasure := hshown.measure_eq hn (by intro data hdata; cases hdata) hrnd.1 hrnd.2
      have hmade := materialize_uniformSubset (P := P) hn hne hlt
      constructor
      · simp only [measureFrom, hmade]
        exact hmeasure
      · simp only [measureFrom, hmade]
  | register hreg =>
      have hshown : Shown hR hfits n v _ := .register hreg
      have hn := hreg.checked.qubits
      exact ⟨hshown.measure_eq hn (by intro data hdata; cases hdata) hrnd.1 hrnd.2, rfl⟩

theorem sample_basis_iff {s : Nat} (hs : s < 2 ^ n) (amp : Amplitude Real)
    {rnd : Real} (hrnd : 0 ≤ rnd) (hrnd' : rnd < 1) :
    StateVector.sample rnd (StateVector.basis n s amp) = .ok s <->
      rnd ≤ amp.probability ∧ (s = 0 ∨ 0 < rnd) := by
  have hin := StateVector.drawn_in_range hrnd hrnd'
  have hprob : forall t, prob (StateVector.basis n s amp) t =
      if t = s then amp.probability else 0 := by
    intro t
    rw [prob, StateVector.ampAt_basis hs]
    split
    · rfl
    · simp [Amplitude.probability, Amplitude.zero]
  have hsum : forall k, ∑ t ∈ Finset.range k, prob (StateVector.basis n s amp) t =
      if s < k then amp.probability else 0 := by
    intro k
    simp only [hprob, Finset.sum_ite_eq', Finset.mem_range]
  have hsearch : (searchCumulative rnd 0
      ((amplitudesOf (StateVector.basis n s amp)).map Amplitude.probability)).1 = some s <->
        rnd ≤ amp.probability ∧ (s = 0 ∨ 0 < rnd) := by
    rw [search_eq_some_iff (StateVector.length_basis n s amp), hsum, if_pos (Nat.lt_succ_self s)]
    constructor
    · rintro ⟨_, hle, hbefore⟩
      refine ⟨hle, ?_⟩
      rcases Nat.eq_zero_or_pos s with hzero | hpos
      · exact Or.inl hzero
      · have hfirst := hbefore 0 hpos
        rw [hsum, if_neg (by omega)] at hfirst
        exact Or.inr hfirst
    · rintro ⟨hle, hdraw⟩
      refine ⟨hs, hle, ?_⟩
      intro j hj
      rw [hsum, if_neg (by omega)]
      cases hdraw with
      | inl hzero => omega
      | inr hpos => exact hpos
  rw [StateVector.sample, if_neg hin, ← hsearch]
  cases (searchCumulative rnd 0
    ((amplitudesOf (StateVector.basis n s amp)).map Amplitude.probability)).1 with
  | none =>
      constructor
      · intro hfalse
        cases hfalse
      · intro hfalse
        cases hfalse
  | some i =>
      constructor
      · intro hok
        rw [Except.ok.inj hok]
      · intro hsome
        rw [Option.some.inj hsome]

theorem Shown.measure_stored_iff (h : Shown hR hfits n v q) {s : Nat}
    (hq : q.storedState = some s) {rnd : Real} (hrnd : 0 ≤ rnd) (hrnd' : rnd < 1) :
    (measure denseBackend rnd ({ qubits := n, kind := .amplitudes v } :
      QuantumState Real (AnyBackend P))).1.toOption = some s <->
        rnd ≤ (ampAt v s).probability ∧ (s = 0 ∨ 0 < rnd) := by
  have hbasis : exists amp, n ≤ 31 ∧ s < 2 ^ n ∧ v = StateVector.basis n s amp := by
    cases h with
    | basis hn hs =>
        cases hq
        exact ⟨_, hn, hs, rfl⟩
    | basisAmplitude hn hs =>
        cases hq
        exact ⟨_, hn, hs, rfl⟩
    | _ => cases hq
  rcases hbasis with ⟨amp, hn, hs, hv⟩
  subst hv
  rw [StateVector.ampAt_basis hs, if_pos rfl, ← sample_basis_iff hs amp hrnd hrnd',
    ← measure_amplitudes (denseBackend : AnyBackend P) (by omega) (StateVector.length_basis n s amp)
      hrnd hrnd']
  cases (measure denseBackend rnd ({ qubits := n, kind := .amplitudes (StateVector.basis n s amp) } :
    QuantumState Real (AnyBackend P))).1 with
  | ok i =>
      constructor
      · intro hsome
        exact congrArg Except.ok (Option.some.inj hsome)
      · intro hok
        exact congrArg some (Except.ok.inj hok)
  | error e =>
      constructor
      · intro hfalse
        cases hfalse
      · intro hfalse
        cases hfalse

/-!
## Agreement
-/

/-- The queries that draw no number are answered alike. -/
structure SameAnswers (q r : QuantumState Real (AnyBackend P)) : Prop where
  amplitude : forall s, (QuantumState.amplitude denseBackend s q).1 =
    (QuantumState.amplitude denseBackend s r).1
  amplitudes : (QuantumState.amplitudes denseBackend q).1 =
    (QuantumState.amplitudes denseBackend r).1
  totalProbability : (QuantumState.totalProbability denseBackend q).1 =
    (QuantumState.totalProbability denseBackend r).1

/-- `q` draws no number and returns `s`; `r` draws one, and returns `s` for some numbers only. -/
def MeasuresStored (s : Nat) (q r : QuantumState Real (AnyBackend P)) (v : List Real) : Prop :=
  forall source : RandomSource Real, (forall i, 0 ≤ source.values i ∧ source.values i < 1) ->
    measureFrom denseBackend (q, source) = (.ok s, (q, source)) ∧
      (measureFrom denseBackend (r, source)).2.2.consumed = source.consumed + 1 ∧
      ((measureFrom denseBackend (r, source)).1.toOption = some s <->
        source.values source.consumed ≤ (ampAt v s).probability ∧
          (s = 0 ∨ 0 < source.values source.consumed))

theorem fromAmplitudes_allowUnnormalized (hn : n ≤ 63) (hv : v.length = u64 (2 ^ n * 2)) :
    (fromAmplitudes n v .allowUnnormalized : Call Unit (QuantumState Real (AnyBackend P))) () =
      (.ok { qubits := n, kind := .amplitudes v }, ()) := by
  have heven : ¬ v.length % 2 ≠ 0 := by
    rw [hv, u64]
    omega
  rw [fromAmplitudes, DenseStateBackend.checkedAmplitudeElementCount_le hn, pure_bind,
    if_neg (not_not.mpr hv), validateOrNormalize, if_neg heven]
  rfl

theorem Shown.length (h : Shown hR hfits n v q) : v.length = u64 (2 ^ n * 2) := by
  have hsmall : n ≤ 31 -> v.length = 2 * 2 ^ n -> v.length = u64 (2 ^ n * 2) :=
    fun hn hlen => hlen.trans (DenseStateBackend.u64_element_count hn).symm
  cases h with
  | basis hn hs => exact hsmall hn (StateVector.length_basis n _ _)
  | basisAmplitude hn hs => exact hsmall hn (StateVector.length_basis n _ _)
  | uniformSubset hn hne hlt => exact hsmall hn (StateVector.length_uniform n _)
  | amplitudes hn hv => exact hv
  | register h => exact hsmall h.checked.qubits h.length

theorem Shown.sameAnswers (h : Shown hR hfits n v q) :
    SameAnswers q { qubits := n, kind := .amplitudes v } where
  amplitude := h.amplitude_eq
  amplitudes := h.amplitudes_eq
  totalProbability := h.totalProbability_eq

theorem Shown.measuresStored (h : Shown hR hfits n v q) {s : Nat}
    (hq : q.storedState = some s) :
    MeasuresStored s q { qubits := n, kind := .amplitudes v } v := by
  intro source hvalues
  have hrnd := hvalues source.consumed
  refine ⟨?_, rfl, h.measure_stored_iff hq hrnd.1 hrnd.2⟩
  cases h with
  | basis hn hs =>
      cases hq
      rfl
  | basisAmplitude hn hs =>
      cases hq
      rfl
  | _ => cases hq

theorem storedState_after_amplitudes (q : QuantumState Real (AnyBackend P)) :
    (QuantumState.amplitudes denseBackend q).2.storedState = q.storedState := by
  by_cases hq : q.HoldsRegister = false
  · rw [amplitudes_state hq]
  · rcases q with ⟨n, kind⟩
    cases kind with
    | register reg => rfl
    | _ => exact absurd rfl hq

/--
A built state whose amplitudes can be read, before and after they are read, answers as
the state made from them; only a stored basis state is measured in another way.
-/
theorem built_same_behaviour (hR : forall i, (P i).Rounds (round i))
    (hfits : forall i, ChunkLayout.Fits (2 ^ 31) (P i).chunkStates)
    {q q' : QuantumState Real (AnyBackend P)} (hq : Built q) {v : List Real}
    (hv : QuantumState.amplitudes denseBackend q = (.ok v, q')) :
    exists r : QuantumState Real (AnyBackend P),
      (fromAmplitudes q.qubits v .allowUnnormalized :
        Call Unit (QuantumState Real (AnyBackend P))) () = (.ok r, ()) ∧
      forall p, p = q ∨ p = q' ->
        SameAnswers p r ∧
          (q.storedState = none -> MeasuresAlike p r) ∧
          forall s, q.storedState = some s -> MeasuresStored s p r v := by
  have hread : (QuantumState.amplitudes denseBackend q).1 = .ok v := by
    rw [hv]
  have hafter : (QuantumState.amplitudes denseBackend q).2 = q' := by
    rw [hv]
  have hshown : Shown hR hfits q.qubits v q := hq.consistent.shown hread
  refine ⟨_, fromAmplitudes_allowUnnormalized hshown.qubits_le hshown.length, ?_⟩
  intro p hp
  have hp' : Shown hR hfits q.qubits v p ∧ p.storedState = q.storedState := by
    cases hp with
    | inl heq =>
        rw [heq]
        exact ⟨hshown, rfl⟩
    | inr heq =>
        rw [heq, ← hafter]
        exact ⟨hshown.after_amplitudes, storedState_after_amplitudes q⟩
  rcases hp' with ⟨hpshown, hstored⟩
  refine ⟨hpshown.sameAnswers, ?_, ?_⟩
  · intro hnone
    exact hpshown.measuresAlike (hstored.trans hnone)
  · intro s hsome
    exact hpshown.measuresStored (hstored.trans hsome)

/-!
## Two states
-/

abbrev plainCodecs : forall _ : Unit, CodecPolicy Real Real :=
  fun _ => plainCodec

theorem rounds_plainCodecs : forall i, (plainCodecs i).Rounds id :=
  fun _ => lossless_plainCodec

theorem fits_plainCodecs : forall i, ChunkLayout.Fits (2 ^ 31) (plainCodecs i).chunkStates := by
  have hfits : ChunkLayout.Fits (2 ^ 31) 1 := by decide
  exact fun _ => hfits

theorem built_same_behaviour_uniform :
    exists (v : List Real) (q' r : QuantumState Real (AnyBackend plainCodecs)),
      QuantumState.amplitudes denseBackend
        (uniformSubset 1 [0, 1] : QuantumState Real (AnyBackend plainCodecs)) = (.ok v, q') ∧
      SameAnswers q' r ∧ MeasuresAlike q' r := by
  have hlt : forall s, s ∈ [0, 1] -> s < 2 ^ 1 := by decide
  have hshown : Shown rounds_plainCodecs fits_plainCodecs 1 _ (uniformSubset 1 [0, 1]) :=
    .uniformSubset (by decide) (by decide) hlt
  have hv : QuantumState.amplitudes denseBackend
      (uniformSubset 1 [0, 1] : QuantumState Real (AnyBackend plainCodecs)) =
        (.ok (StateVector.uniform 1 [0, 1]), uniformSubset 1 [0, 1]) :=
    Prod.ext hshown.amplitudes_eq (amplitudes_state rfl)
  rcases built_same_behaviour rounds_plainCodecs fits_plainCodecs
    (.uniformSubset (by decide) hlt) hv with ⟨r, _, hr⟩
  exact ⟨_, _, r, hv, (hr _ (Or.inr rfl)).1, (hr _ (Or.inr rfl)).2.1 rfl⟩

noncomputable def halfSource : RandomSource Real :=
  { values := fun _ => 1 / 2
    consumed := 0 }

/-- The second state of one qubit with amplitude a half is returned without drawing; from its
amplitudes a number is drawn, and a half does not find it. -/
theorem basis_measures_otherwise :
    exists (q r : QuantumState Real (AnyBackend plainCodecs)) (v : List Real),
      (QuantumState.basisAmplitude 1 1 { real := 1 / 2, imag := 0 } :
        Call Unit (QuantumState Real (AnyBackend plainCodecs))) () = (.ok q, ()) ∧
      Built q ∧ QuantumState.amplitudes denseBackend q = (.ok v, q) ∧
      (fromAmplitudes 1 v .allowUnnormalized :
        Call Unit (QuantumState Real (AnyBackend plainCodecs))) () = (.ok r, ()) ∧
      (measureFrom denseBackend (q, halfSource)).1 = .ok 1 ∧
      (measureFrom denseBackend (r, halfSource)).1.toOption ≠ some 1 ∧
      (measureFrom denseBackend (q, halfSource)).2.2.consumed = 0 ∧
      (measureFrom denseBackend (r, halfSource)).2.2.consumed = 1 ∧
      ¬ MeasuresAlike q r := by
  obtain ⟨amp, hamp⟩ : exists amp : Amplitude Real, amp = { real := 1 / 2, imag := 0 } := ⟨_, rfl⟩
  rw [← hamp]
  have hshown : Shown rounds_plainCodecs fits_plainCodecs 1 _
      { qubits := 1, kind := .basisAmplitude 1 amp } :=
    .basisAmplitude (by decide) (by decide)
  have hbuilt : (QuantumState.basisAmplitude 1 1 amp :
      Call Unit (QuantumState Real (AnyBackend plainCodecs))) () =
        (.ok { qubits := 1, kind := .basisAmplitude 1 amp }, ()) := rfl
  have hhalf : (0 : Real) ≤ 1 / 2 ∧ (1 / 2 : Real) < 1 := by norm_num
  have hmeasured := (hshown.measure_stored_iff rfl hhalf.1 hhalf.2).not.mpr (by
    rintro ⟨hle, _⟩
    rw [StateVector.ampAt_basis (by decide), if_pos rfl, hamp] at hle
    norm_num [Amplitude.probability] at hle)
  refine ⟨_, _, _, hbuilt, .basisAmplitude hbuilt,
    Prod.ext hshown.amplitudes_eq (amplitudes_state rfl),
    fromAmplitudes_allowUnnormalized (by decide) hshown.length, rfl, hmeasured, rfl, rfl, ?_⟩
  intro halike
  exact absurd (halike halfSource fun _ => hhalf).2 Nat.zero_ne_one

end QuantumState

end Tmfqs
