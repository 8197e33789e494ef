import Tmfqs.Model.GateProduct

/-!
# Gates made from the factories

The gates a program can make: what the factories return, products of gates of one dimension,
and gates scaled by an amplitude of probability one.  They are unitary, and the adjoint of
each can be made as well.
-/

namespace Tmfqs

namespace QuantumGate

/-- The gates that can be made without an access to an entry. -/
inductive Made : QuantumGate Real -> Prop where
  | identity (dimension : Nat) : Made (Identity dimension)
  | hadamard : Made Hadamard
  | controlledPhaseShift (theta : Real) : Made (ControlledPhaseShift theta)
  | controlledNot : Made ControlledNot
  | pauliX : Made PauliX
  | pauliY : Made PauliY
  | pauliZ : Made PauliZ
  | phaseShift (theta : Real) : Made (PhaseShift theta)
  | piOverEight : Made PiOverEight
  | toffoli : Made Toffoli
  | swap : Made Swap
  | ising (theta : Real) : Made (Ising theta)
  | mul {A B C : QuantumGate Real} (hA : Made A) (hB : Made B) (hC : A.mul B = .ok C) : Made C
  | scale {A : QuantumGate Real} (hA : Made A) {x : Amplitude Real} (hx : x.probability = 1) :
      Made (A.scale x)

/-!
## Adjoint gates
-/

/-- The gates are the conjugate transposes of one another. -/
structure Adjoint (A B : QuantumGate Real) : Prop where
  dimension : B.dimension = A.dimension
  entry : forall row col, row < A.dimension -> col < A.dimension ->
    (B.entry row col).toComplex = star (A.entry col row).toComplex

theorem star_toComplex (a : Amplitude Real) :
    star a.toComplex = ({ real := a.real, imag := -a.imag } : Amplitude Real).toComplex := rfl

theorem adjoint_ofEntries {d : Nat} {entries entries' : Nat -> Nat -> Amplitude Real}
    (hreal : forall row col, (entries' row col).real = (entries col row).real)
    (himag : forall row col, (entries' row col).imag = -(entries col row).imag) :
    Adjoint (ofEntries d entries) (ofEntries d entries') where
  dimension := rfl
  entry := by
    intro row col hrow hcol
    have hrow' : row < d := hrow
    have hcol' : col < d := hcol
    rw [entry_ofEntries _ hrow' hcol', entry_ofEntries _ hcol' hrow', star_toComplex]
    exact congrArg Amplitude.toComplex (Amplitude.eq_of_parts (hreal row col) (himag row col))

/-!
## Gates that exchange basis states
-/

/-- The gate moves the basis states in pairs. -/
structure Exchanges (gate : QuantumGate Real) (swapped : Nat -> Nat) : Prop where
  lt : forall row, row < gate.dimension -> swapped row < gate.dimension
  involution : forall row, row < gate.dimension -> swapped (swapped row) = row
  entry : forall row col, row < gate.dimension -> col < gate.dimension ->
    (gate.entry row col).toComplex = if col = swapped row then 1 else 0

section Exchanges

variable {gate : QuantumGate Real} {swapped : Nat -> Nat}

theorem Exchanges.adjoint (h : Exchanges gate swapped) : Adjoint gate gate where
  dimension := rfl
  entry := by
    intro row col hrow hcol
    have hiff : col = swapped row <-> row = swapped col := by
      constructor
      · rintro rfl
        exact (h.involution row hrow).symm
      · rintro rfl
        exact (h.involution col hcol).symm
    rw [h.entry row col hrow hcol, h.entry col row hcol hrow, apply_ite star, star_one, star_zero]
    exact if_congr hiff rfl rfl

theorem Exchanges.unitary (h : Exchanges gate swapped) : gate.Unitary := by
  have hcell : forall row col, gate.toMatrix row col = if (col : Nat) = swapped row then 1 else 0 :=
    fun row col => h.entry row col row.isLt col.isLt
  rw [Unitary, Matrix.mem_unitaryGroup_iff]
  apply Matrix.ext
  intro row row'
  rw [Matrix.mul_apply, Matrix.one_apply,
    Finset.sum_eq_single ⟨swapped row, h.lt row row.isLt⟩]
  · rw [Matrix.star_apply, hcell, hcell, if_pos rfl, one_mul, apply_ite star, star_one, star_zero]
    refine if_congr ?_ rfl rfl
    constructor
    · intro heq
      have hback : swapped (swapped row) = swapped (swapped row') := congrArg swapped heq
      rw [h.involution row row.isLt, h.involution row' row'.isLt] at hback
      exact Fin.ext hback
    · rintro rfl
      rfl
  · intro col _ hcol
    have hne : ¬ (col : Nat) = swapped row := fun heq => hcol (Fin.ext heq)
    rw [hcell, if_neg hne, zero_mul]
  · intro hmem
    exact absurd (Finset.mem_univ _) hmem

end Exchanges

theorem exchanges_ofEntries {d : Nat} {entries : Nat -> Nat -> Amplitude Real}
    {swapped : Nat -> Nat} (hlt : forall row, row < d -> swapped row < d)
    (hinvolution : forall row, row < d -> swapped (swapped row) = row)
    (hentries : forall row col, row < d -> col < d ->
      entries row col =
        if col = swapped row then ({ real := 1, imag := 0 } : Amplitude Real) else .zero) :
    Exchanges (ofEntries d entries) swapped where
  lt := hlt
  involution := hinvolution
  entry := by
    intro row col hrow hcol
    have hrow' : row < d := hrow
    have hcol' : col < d := hcol
    rw [entry_ofEntries _ hrow' hcol', hentries row col hrow' hcol', apply_ite Amplitude.toComplex]
    rfl

def exchange (a b row : Nat) : Nat :=
  if row = a then b else if row = b then a else row

theorem exchange_lt {d a b : Nat} (ha : a < d) (hb : b < d) {row : Nat} (hrow : row < d) :
    exchange a b row < d := by
  rw [exchange]
  split_ifs <;> assumption

theorem exchange_exchange (a b row : Nat) : exchange a b (exchange a b row) = row := by
  simp only [exchange]
  split_ifs <;> omega

theorem exchanges_identity (dimension : Nat) : Exchanges (Identity dimension) id := by
  apply exchanges_ofEntries
  · intro row hrow
    exact hrow
  · intro row _
    rfl
  · intro row col _ _
    rw [id, if_congr (eq_comm (a := row)) rfl rfl]

theorem entry_identity {d row col : Nat} (hrow : row < d) (hcol : col < d) :
    ((Identity d : QuantumGate Real).entry row col).toComplex = if col = row then 1 else 0 :=
  (exchanges_identity d).entry row col hrow hcol

theorem exchanges_pauliX : Exchanges PauliX (exchange 0 1) := by
  apply exchanges_ofEntries
  · intro row hrow
    exact exchange_lt (by decide) (by decide) hrow
  · intro row _
    exact exchange_exchange 0 1 row
  · intro row col hrow hcol
    rw [exchange]
    split_ifs <;> first | rfl | omega

theorem exchanges_controlledNot : Exchanges ControlledNot (exchange 2 3) := by
  apply exchanges_ofEntries
  · intro row hrow
    exact exchange_lt (by decide) (by decide) hrow
  · intro row _
    exact exchange_exchange 2 3 row
  · intro row col hrow hcol
    rw [exchange]
    split_ifs <;> first | rfl | omega

theorem exchanges_swap : Exchanges Swap (exchange 1 2) := by
  apply exchanges_ofEntries
  · intro row hrow
    exact exchange_lt (by decide) (by decide) hrow
  · intro row _
    exact exchange_exchange 1 2 row
  · intro row col hrow hcol
    rw [exchange]
    split_ifs <;> first | rfl | omega

section SetReal

variable {gate : QuantumGate Real} {r c row col : Nat} (hr : r < gate.dimension)
  (hc : c < gate.dimension) (hcol : col < gate.dimension) (x : Real)
include hr hc hcol

theorem real_setReal : ((gate.setReal r c x).entry row col).real =
    if row = r ∧ col = c then x else (gate.entry row col).real := by
  rw [setReal, entry_setEntry hr hc _ hcol, apply_ite Amplitude.real]

theorem imag_setReal : ((gate.setReal r c x).entry row col).imag = (gate.entry row col).imag := by
  rw [setReal, entry_setEntry hr hc _ hcol]
  by_cases hcell : row = r ∧ col = c
  · rw [if_pos hcell, hcell.1, hcell.2]
  · rw [if_neg hcell]

end SetReal

theorem exchanges_toffoli : Exchanges Toffoli (exchange 6 7) where
  lt := by
    intro row hrow
    exact exchange_lt (by decide) (by decide) hrow
  involution := by
    intro row _
    exact exchange_exchange 6 7 row
  entry := by
    intro row col hrow hcol
    have hrow' : row < 8 := hrow
    have hcol' : col < 8 := hcol
    have hidentity : (Identity 8 : QuantumGate Real).entry row col =
        if row = col then { real := 1, imag := 0 } else .zero :=
      entry_ofEntries _ hrow' hcol'
    have six {g : QuantumGate Real} (hg : g.dimension = 8) : 6 < g.dimension := by omega
    have seven {g : QuantumGate Real} (hg : g.dimension = 8) : 7 < g.dimension := by omega
    have hin {g : QuantumGate Real} (hg : g.dimension = 8) : col < g.dimension := by omega
    apply Complex.ext
    · change (Toffoli.entry row col).real = _
      rw [Toffoli, real_setReal (seven rfl) (six rfl) (hin rfl),
        real_setReal (six rfl) (seven rfl) (hin rfl),
        real_setReal (seven rfl) (seven rfl) (hin rfl),
        real_setReal (six rfl) (six rfl) (hin rfl), hidentity, apply_ite Amplitude.real,
        apply_ite Complex.re, Complex.one_re, Complex.zero_re, exchange]
      split_ifs <;> first | rfl | omega
    · change (Toffoli.entry row col).imag = _
      rw [Toffoli, imag_setReal (seven rfl) (six rfl) (hin rfl),
        imag_setReal (six rfl) (seven rfl) (hin rfl),
        imag_setReal (seven rfl) (seven rfl) (hin rfl),
        imag_setReal (six rfl) (six rfl) (hin rfl), hidentity, apply_ite Amplitude.imag,
        apply_ite Complex.im, Complex.one_im, Complex.zero_im]
      split_ifs <;> rfl

/-!
## The factories
-/

theorem unitary_pauliY : (PauliY : QuantumGate Real).Unitary := by
  apply unitary_ofEntries
  intro row row'
  fin_cases row <;> fin_cases row' <;> simp [Complex.ext_iff]

theorem unitary_pauliZ : (PauliZ : QuantumGate Real).Unitary := by
  apply unitary_ofEntries
  intro row row'
  fin_cases row <;> fin_cases row' <;> simp [Complex.ext_iff]

theorem complexExp_imag (theta : Real) : complexExp { real := 0, imag := theta } =
    { real := Real.cos theta, imag := Real.sin theta } := by
  simp [complexExp, CMath.exp, CMath.cos, CMath.sin]

theorem unitary_phaseShift (theta : Real) : (PhaseShift theta).Unitary := by
  apply unitary_ofEntries
  have hunit := Real.cos_sq_add_sin_sq theta
  intro row row'
  rw [complexExp_imag]
  fin_cases row <;> fin_cases row' <;> simp [Complex.ext_iff]
  constructor <;> linarith

theorem unitary_ising (theta : Real) : (Ising theta).Unitary := by
  apply unitary_ofEntries
  have hunit : (CMath.cos (theta / 2) : Real) ^ 2 + CMath.sin (theta / 2) ^ 2 = 1 :=
    Real.cos_sq_add_sin_sq _
  intro row row'
  generalize (CMath.cos (theta / 2) : Real) = c at hunit ⊢
  generalize (CMath.sin (theta / 2) : Real) = s at hunit ⊢
  fin_cases row <;> fin_cases row' <;> simp [Complex.ext_iff, Fin.sum_univ_succ] <;> linarith

theorem adjoint_hadamard : Adjoint Hadamard Hadamard := by
  unfold Hadamard
  apply adjoint_ofEntries
  · intro row col
    split_ifs <;> first | rfl | omega
  · intro row col
    split_ifs <;> simp

theorem adjoint_pauliY : Adjoint PauliY PauliY := by
  apply adjoint_ofEntries
  · intro row col
    split_ifs <;> rfl
  · intro row col
    split_ifs <;> first | omega | simp [Amplitude.zero]

theorem adjoint_pauliZ : Adjoint PauliZ PauliZ := by
  apply adjoint_ofEntries
  · intro row col
    split_ifs <;> first | rfl | omega
  · intro row col
    split_ifs <;> simp [Amplitude.zero]

theorem adjoint_phaseShift (theta : Real) : Adjoint (PhaseShift theta) (PhaseShift (-theta)) := by
  unfold PhaseShift
  apply adjoint_ofEntries
  · intro row col
    simp only [complexExp_imag, Real.cos_neg]
    split_ifs <;> first | rfl | omega
  · intro row col
    simp only [complexExp_imag, Real.sin_neg]
    split_ifs <;> first | omega | simp [Amplitude.zero]

theorem adjoint_controlledPhaseShift (theta : Real) :
    Adjoint (ControlledPhaseShift theta) (ControlledPhaseShift (-theta)) := by
  unfold ControlledPhaseShift
  apply adjoint_ofEntries
  · intro row col
    simp only [complexExp_imag, Real.cos_neg]
    split_ifs <;> first | rfl | omega
  · intro row col
    simp only [complexExp_imag, Real.sin_neg]
    split_ifs <;> first | omega | simp [Amplitude.zero]

theorem adjoint_ising (theta : Real) : Adjoint (Ising theta) (Ising (-theta)) := by
  have hcos : (CMath.cos (-theta / 2) : Real) = CMath.cos (theta / 2) := by
    change Real.cos (-theta / 2) = Real.cos (theta / 2)
    rw [neg_div, Real.cos_neg]
  have hsin : (CMath.sin (-theta / 2) : Real) = -CMath.sin (theta / 2) := by
    change Real.sin (-theta / 2) = -Real.sin (theta / 2)
    rw [neg_div, Real.sin_neg]
  unfold Ising
  apply adjoint_ofEntries
  · intro row col
    rw [hcos]
    split_ifs <;> first | rfl | omega
  · intro row col
    rw [hsin]
    split_ifs <;> first | omega | simp [Amplitude.zero]

/-!
## Products and scaled gates
-/

section Products

variable {A B C : QuantumGate Real}

theorem unitary_product (hB : B.dimension = A.dimension) (hC : C.dimension = A.dimension)
    (hproduct : forall r c, r < A.dimension -> c < A.dimension ->
      (C.entry r c).toComplex =
        ∑ k ∈ Finset.range A.dimension, (A.entry r k).toComplex * (B.entry k c).toComplex)
    (hUA : A.Unitary) (hUB : B.Unitary) : C.Unitary := by
  rcases A with ⟨d, a, ha⟩
  rcases B with ⟨dB, b, hb⟩
  rcases C with ⟨dC, c, hc⟩
  cases hB
  cases hC
  have hmatrix : toMatrix ⟨d, c, hc⟩ = toMatrix ⟨d, a, ha⟩ * toMatrix ⟨d, b, hb⟩ := by
    apply Matrix.ext
    intro row col
    rw [Matrix.mul_apply]
    refine (hproduct row col row.isLt col.isLt).trans ?_
    rw [Finset.sum_range]
    rfl
  rw [Unitary, hmatrix]
  exact mul_mem hUA hUB

theorem dimension_of_mul (hmul : A.mul B = .ok C) : B.dimension = A.dimension := by
  by_contra hne
  rw [mul, if_pos hne] at hmul
  cases hmul

theorem unitary_mul (hmul : A.mul B = .ok C) (hUA : A.Unitary) (hUB : B.Unitary) : C.Unitary := by
  have hdim := dimension_of_mul hmul
  rcases exists_mul hdim with ⟨C', hmul', hC, hproduct⟩
  rw [hmul] at hmul'
  cases hmul'
  exact unitary_product hdim hC hproduct hUA hUB

theorem entry_scale (x : Amplitude Real) {row col : Nat} (hrow : row < A.dimension)
    (hcol : col < A.dimension) :
    ((A.scale x).entry row col).toComplex = (A.entry row col).toComplex * x.toComplex := by
  rw [scale, entry_ofEntries _ hrow hcol, Amplitude.toComplex_multiply]

theorem unitary_scale {x : Amplitude Real} (hx : x.probability = 1) (hUA : A.Unitary) :
    (A.scale x).Unitary := by
  have hunit : x.toComplex * star x.toComplex = 1 := by
    change x.toComplex * (starRingEnd Complex) x.toComplex = 1
    rw [Complex.mul_conj, ← Amplitude.probability_eq_normSq, hx, Complex.ofReal_one]
  have hmatrix : x.toComplex • A.toMatrix ∈ Matrix.unitaryGroup (Fin A.dimension) Complex := by
    rw [Matrix.mem_unitaryGroup_iff, star_smul, smul_mul_smul_comm, hunit,
      Matrix.mem_unitaryGroup_iff.mp hUA, one_smul]
  have hsame : x.toComplex • A.toMatrix = (A.scale x).toMatrix := by
    apply Matrix.ext
    intro row col
    rw [Matrix.smul_apply, smul_eq_mul, mul_comm]
    exact (entry_scale x row.isLt col.isLt).symm
  rw [hsame] at hmatrix
  exact hmatrix

end Products

theorem Made.unitary {gate : QuantumGate Real} (h : Made gate) : gate.Unitary := by
  induction h with
  | identity dimension => exact (exchanges_identity dimension).unitary
  | hadamard => exact unitary_hadamard
  | controlledPhaseShift theta => exact unitary_controlledPhaseShift theta
  | controlledNot => exact unitary_controlledNot
  | pauliX => exact unitary_pauliX
  | pauliY => exact unitary_pauliY
  | pauliZ => exact unitary_pauliZ
  | phaseShift theta => exact unitary_phaseShift theta
  | piOverEight => exact unitary_phaseShift _
  | toffoli => exact exchanges_toffoli.unitary
  | swap => exact exchanges_swap.unitary
  | ising theta => exact unitary_ising theta
  | mul _ _ hC ihA ihB => exact unitary_mul hC ihA ihB
  | scale _ hx ih => exact unitary_scale hx ih

theorem adjoint_mul {A A' B B' C C' : QuantumGate Real} (hA : Adjoint A A') (hB : Adjoint B B')
    (hdim : B.dimension = A.dimension) (hC : A.mul B = .ok C) (hC' : B'.mul A' = .ok C') :
    Adjoint C C' := by
  have hdim' : A'.dimension = B'.dimension := by
    rw [hA.dimension, hB.dimension, hdim]
  rcases exists_mul hdim with ⟨D, hD, hDdim, hDentry⟩
  rcases exists_mul hdim' with ⟨D', hD', hDdim', hDentry'⟩
  rw [hC] at hD
  rw [hC'] at hD'
  cases hD
  cases hD'
  have hB' : B'.dimension = A.dimension := by rw [hB.dimension, hdim]
  constructor
  · rw [hDdim', hDdim, hB']
  · intro row col hrow hcol
    rw [hDdim] at hrow hcol
    rw [hDentry' row col (hB' ▸ hrow) (hB' ▸ hcol), hDentry col row hcol hrow, star_sum, hB']
    apply Finset.sum_congr rfl
    intro k hk
    have hk' := Finset.mem_range.mp hk
    rw [star_mul, hB.entry row k (hdim ▸ hrow) (hdim ▸ hk'), hA.entry k col hk' hcol]

theorem adjoint_scale {A A' : QuantumGate Real} (hA : Adjoint A A') (x : Amplitude Real) :
    Adjoint (A.scale x) (A'.scale { real := x.real, imag := -x.imag }) where
  dimension := hA.dimension
  entry := by
    intro row col hrow hcol
    have hrow' : row < A.dimension := hrow
    have hcol' : col < A.dimension := hcol
    rw [entry_scale _ (hA.dimension ▸ hrow') (hA.dimension ▸ hcol'), entry_scale _ hcol' hrow',
      star_mul', hA.entry row col hrow' hcol', star_toComplex x]

theorem Made.exists_adjoint {gate : QuantumGate Real} (h : Made gate) :
    exists gate', Made gate' ∧ Adjoint gate gate' := by
  induction h with
  | identity dimension => exact ⟨_, .identity dimension, (exchanges_identity dimension).adjoint⟩
  | hadamard => exact ⟨_, .hadamard, adjoint_hadamard⟩
  | controlledPhaseShift theta =>
      exact ⟨_, .controlledPhaseShift (-theta), adjoint_controlledPhaseShift theta⟩
  | controlledNot => exact ⟨_, .controlledNot, exchanges_controlledNot.adjoint⟩
  | pauliX => exact ⟨_, .pauliX, exchanges_pauliX.adjoint⟩
  | pauliY => exact ⟨_, .pauliY, adjoint_pauliY⟩
  | pauliZ => exact ⟨_, .pauliZ, adjoint_pauliZ⟩
  | phaseShift theta => exact ⟨_, .phaseShift (-theta), adjoint_phaseShift theta⟩
  | piOverEight => exact ⟨_, .phaseShift _, adjoint_phaseShift _⟩
  | toffoli => exact ⟨_, .toffoli, exchanges_toffoli.adjoint⟩
  | swap => exact ⟨_, .swap, exchanges_swap.adjoint⟩
  | ising theta => exact ⟨_, .ising (-theta), adjoint_ising theta⟩
  | @mul A B C _ _ hC ihA ihB =>
      rcases ihA with ⟨A', hmadeA, hA⟩
      rcases ihB with ⟨B', hmadeB, hB⟩
      have hdim : B.dimension = A.dimension := dimension_of_mul hC
      have hdim' : A'.dimension = B'.dimension := by
        rw [hA.dimension, hB.dimension, hdim]
      rcases exists_mul hdim' with ⟨C', hC', _⟩
      exact ⟨C', .mul hmadeB hmadeA hC', adjoint_mul hA hB hdim hC hC'⟩
  | @scale A _ x hx ih =>
      rcases ih with ⟨A', hmade, hA⟩
      have hx' : ({ real := x.real, imag := -x.imag } : Amplitude Real).probability = 1 := by
        rw [← hx, Amplitude.probability, Amplitude.probability, neg_mul_neg]
      exact ⟨_, .scale hmade hx', adjoint_scale hA x⟩

end QuantumGate

/-!
## Undoing a gate
-/

namespace StateVector

open QuantumGate

variable {n : Nat} {qubits : List Nat} {v : List Real}

theorem blockGate_identity (hn : n ≤ 31)
    (h : ValidTargets qubits n (Identity (2 ^ qubits.length) : QuantumGate Real).dimension)
    (hv : v.length = 2 * 2 ^ n) : blockGate (Identity (2 ^ qubits.length)) qubits n v = v := by
  apply eq_of_ampAt (length_blockGate hn h hv) hv
  intro s hs
  apply Amplitude.toComplex_injective
  rcases exists_block_of_state h hs with ⟨block, hblock, hrow, hstate, _⟩
  rw [hstate, toComplex_blockGate hn h hv hblock hrow, Finset.sum_eq_single (rowIndex n qubits s)]
  · rw [entry_identity hrow hrow, if_pos rfl, one_mul]
  · intro c hc hne
    rw [entry_identity hrow (Finset.mem_range.mp hc), if_neg hne, zero_mul]
  · intro hmem
    exact absurd (Finset.mem_range.mpr hrow) hmem

theorem blockGate_adjoint {gate gate' : QuantumGate Real} (hn : n ≤ 31)
    (h : ValidTargets qubits n gate.dimension) (hunitary : gate.Unitary)
    (hadjoint : Adjoint gate gate') (hv : v.length = 2 * 2 ^ n) :
    blockGate gate' qubits n (blockGate gate qubits n v) = v := by
  have hidentity : ValidTargets qubits n
      (Identity (2 ^ qubits.length) : QuantumGate Real).dimension :=
    ⟨rfl, h.inRange, h.nodup⟩
  have h' : ValidTargets qubits n gate'.dimension := by
    rw [hadjoint.dimension]
    exact h
  have hproduct : forall r c, r < gate'.dimension -> c < gate'.dimension ->
      ((Identity (2 ^ qubits.length) : QuantumGate Real).entry r c).toComplex =
        ∑ k ∈ Finset.range gate'.dimension,
          (gate'.entry r k).toComplex * (gate.entry k c).toComplex := by
    intro r c hr hc
    rw [hadjoint.dimension] at hr hc
    have hcell := congrFun (congrFun (Matrix.mem_unitaryGroup_iff'.mp hunitary) ⟨r, hr⟩) ⟨c, hc⟩
    rw [Matrix.mul_apply, Matrix.one_apply] at hcell
    rw [entry_identity (h.dimension ▸ hr) (h.dimension ▸ hc), hadjoint.dimension,
      Finset.sum_range]
    have hiff : c = r <-> (⟨r, hr⟩ : Fin gate.dimension) = ⟨c, hc⟩ := by
      rw [Fin.mk.injEq, eq_comm]
    rw [if_congr hiff rfl rfl, ← hcell]
    apply Finset.sum_congr rfl
    intro k _
    rw [hadjoint.entry r k hr k.isLt]
    rfl
  rw [blockGate_blockGate hn h' h hidentity hproduct hv, blockGate_identity hn hidentity hv]

end StateVector

end Tmfqs
