import Tmfqs.Model.EmbeddedGate

/-!
# Products of gates

The product loop computes the matrix product, and applying a product is applying its
factors one after the other.
-/

namespace Tmfqs

open Library

namespace QuantumGate

section Entries

variable {R : Type} [Field R] {gate : QuantumGate R}

theorem entry_zeros {dimension row col : Nat} :
    (zeros dimension : QuantumGate R).entry row col = Amplitude.zero := by
  rw [entry, zeros, List.getD_eq_getElem?_getD, List.getElem?_replicate]
  split <;> rfl

theorem entry_setEntry {row col : Nat} (hrow : row < gate.dimension)
    (hcol : col < gate.dimension) (cell : Amplitude R) {r c : Nat} (hc : c < gate.dimension) :
    (gate.setEntry row col cell).entry r c =
      if r = row ∧ c = col then cell else gate.entry r c := by
  have hlt : row * gate.dimension + col < gate.matrix.length := by
    rw [gate.size]
    calc row * gate.dimension + col < row * gate.dimension + gate.dimension := by omega
      _ = (row + 1) * gate.dimension := by ring
      _ ≤ gate.dimension * gate.dimension := Nat.mul_le_mul_right _ hrow
  have hcell : row * gate.dimension + col = r * gate.dimension + c <-> r = row ∧ c = col := by
    constructor
    · intro heq
      have hdiv := congrArg (· / gate.dimension) heq
      have hmod := congrArg (· % gate.dimension) heq
      have hpos : 0 < gate.dimension := Nat.lt_of_le_of_lt (Nat.zero_le c) hc
      simp only [Nat.mul_comm _ gate.dimension, Nat.mul_add_div hpos, Nat.mul_add_mod,
        Nat.div_eq_of_lt hcol, Nat.div_eq_of_lt hc, Nat.mod_eq_of_lt hcol,
        Nat.mod_eq_of_lt hc, Nat.add_zero] at hdiv hmod
      exact And.intro hdiv.symm hmod.symm
    · intro h
      rw [h.left, h.right]
  rw [entry, entry, setEntry, List.getD_eq_getElem?_getD, List.getD_eq_getElem?_getD,
    List.getElem?_set]
  simp only [hcell]
  by_cases h : r = row ∧ c = col
  · rw [if_pos h, if_pos h, if_pos hlt]
    rfl
  · rw [if_neg h, if_neg h]

end Entries

/-!
## The product loop
-/

section Loops

variable {A B result : QuantumGate Real} {d : Nat}

theorem addProduct_columns {i k : Nat} (hresult : result.dimension = d) (hi : i < d) :
    forall m, m ≤ d ->
      ((List.range m).foldl (addProduct A B i k) result).dimension = d ∧
      forall r c, c < d ->
        (((List.range m).foldl (addProduct A B i k) result).entry r c).toComplex =
          (result.entry r c).toComplex +
            if r = i ∧ c < m then (A.entry i k).toComplex * (B.entry k c).toComplex else 0 := by
  intro m
  induction m with
  | zero =>
      intro _
      constructor
      · exact hresult
      · intro r c _
        simp
  | succ m ih =>
      intro hm
      rcases ih (by omega) with ⟨hdim, hentries⟩
      rw [List.range_succ, List.foldl_append, List.foldl_cons, List.foldl_nil]
      constructor
      · exact hdim
      · intro r c hc
        rw [addProduct, entry_setEntry (by rw [hdim]; exact hi) (by rw [hdim]; omega) _
          (by rw [hdim]; exact hc)]
        by_cases hcell : r = i ∧ c = m
        · rw [if_pos hcell, Amplitude.toComplex_add, Amplitude.toComplex_multiply,
            hentries i m (by omega), if_neg (by omega), if_pos (by omega), hcell.left,
            hcell.right, add_zero]
        · rw [if_neg hcell, hentries r c hc]
          have hiff : (r = i ∧ c < m) <-> (r = i ∧ c < m + 1) := by omega
          simp only [hiff]

theorem addProduct_row {i : Nat} (hresult : result.dimension = d) (hi : i < d) :
    forall m, m ≤ d ->
      ((List.range m).foldl
        (fun result k => (List.range d).foldl (addProduct A B i k) result) result).dimension = d ∧
      forall r c, c < d ->
        (((List.range m).foldl (fun result k =>
          (List.range d).foldl (addProduct A B i k) result) result).entry r c).toComplex =
          (result.entry r c).toComplex +
            if r = i then ∑ k ∈ Finset.range m,
              (A.entry i k).toComplex * (B.entry k c).toComplex else 0 := by
  intro m
  induction m with
  | zero =>
      intro _
      constructor
      · exact hresult
      · intro r c _
        simp
  | succ m ih =>
      intro hm
      rcases ih (by omega) with ⟨hdim, hentries⟩
      rcases addProduct_columns (A := A) (B := B) (k := m) hdim hi d le_rfl with
        ⟨hdim', hentries'⟩
      rw [List.range_succ, List.foldl_append, List.foldl_cons, List.foldl_nil]
      constructor
      · exact hdim'
      · intro r c hc
        rw [hentries' r c hc, hentries r c hc]
        by_cases hr : r = i
        · rw [if_pos hr, if_pos hr, if_pos (And.intro hr hc), Finset.sum_range_succ, add_assoc]
        · rw [if_neg hr, if_neg hr, if_neg (fun h => hr h.left), add_zero]

theorem exists_mul (hdim : B.dimension = A.dimension) :
    exists C, A.mul B = .ok C ∧ C.dimension = A.dimension ∧
      forall r c, r < A.dimension -> c < A.dimension ->
        (C.entry r c).toComplex =
          ∑ k ∈ Finset.range A.dimension, (A.entry r k).toComplex * (B.entry k c).toComplex := by
  have hrows : forall m, m ≤ A.dimension ->
      ((List.range m).foldl
        (fun result i =>
          (List.range A.dimension).foldl
            (fun result k => (List.range A.dimension).foldl (addProduct A B i k) result)
            result)
        (zeros A.dimension)).dimension = A.dimension ∧
      forall r c, c < A.dimension ->
        (((List.range m).foldl
          (fun result i =>
            (List.range A.dimension).foldl
              (fun result k => (List.range A.dimension).foldl (addProduct A B i k) result)
              result)
          (zeros A.dimension)).entry r c).toComplex =
          if r < m then ∑ k ∈ Finset.range A.dimension,
            (A.entry r k).toComplex * (B.entry k c).toComplex else 0 := by
    intro m
    induction m with
    | zero =>
        intro _
        constructor
        · rfl
        · intro r c _
          rw [List.range_zero, List.foldl_nil, entry_zeros]
          simp
    | succ m ih =>
        intro hm
        rcases ih (by omega) with ⟨hdone, hentries⟩
        rcases addProduct_row (A := A) (B := B) hdone (show m < A.dimension by omega)
          A.dimension le_rfl with ⟨hdone', hentries'⟩
        rw [List.range_succ, List.foldl_append, List.foldl_cons, List.foldl_nil]
        constructor
        · exact hdone'
        · intro r c hc
          rw [hentries' r c hc, hentries r c hc]
          by_cases hr : r = m
          · rw [if_neg (by omega), if_pos hr, if_pos (by omega), zero_add, hr]
          · have hiff : r < m <-> r < m + 1 := by omega
            rw [if_neg hr, add_zero]
            simp only [hiff]
  rcases hrows A.dimension le_rfl with ⟨hdone, hentries⟩
  have hsame : ¬ B.dimension ≠ A.dimension := fun h => h hdim
  refine ⟨_, by rw [mul, if_neg hsame], hdone, ?_⟩
  intro r c hr hc
  rw [hentries r c hc, if_pos hr]

end Loops

end QuantumGate

/-!
## Applying products
-/

namespace StateVector

variable {n : Nat} {qubits : List Nat} {A B C : QuantumGate Real} {v : List Real}

theorem blockGate_blockGate (hn : n ≤ 31) (hA : ValidTargets qubits n A.dimension)
    (hB : ValidTargets qubits n B.dimension) (hC : ValidTargets qubits n C.dimension)
    (hproduct : forall r c, r < A.dimension -> c < A.dimension ->
      (C.entry r c).toComplex =
        ∑ k ∈ Finset.range A.dimension, (A.entry r k).toComplex * (B.entry k c).toComplex)
    (hv : v.length = 2 * 2 ^ n) :
    blockGate A qubits n (blockGate B qubits n v) = blockGate C qubits n v := by
  have hBv := length_blockGate hn hB hv
  apply eq_of_ampAt (length_blockGate hn hA hBv) (length_blockGate hn hC hv)
  intro s hs
  rcases exists_blockState hA hs with ⟨block, row, hblock, hrow, hstate⟩
  apply Amplitude.toComplex_injective
  rw [hstate, toComplex_blockGate hn hA hBv hblock hrow, toComplex_blockGate hn hC hv hblock hrow]
  rw [hA.dimension] at hproduct
  calc ∑ k ∈ Finset.range (2 ^ qubits.length), (A.entry row k).toComplex *
        (ampAt (blockGate B qubits n v) (blockState qubits n block k)).toComplex
      = ∑ k ∈ Finset.range (2 ^ qubits.length), ∑ c ∈ Finset.range (2 ^ qubits.length),
          (A.entry row k).toComplex * ((B.entry k c).toComplex *
            (ampAt v (blockState qubits n block c)).toComplex) := by
        apply Finset.sum_congr rfl
        intro k hk
        rw [toComplex_blockGate hn hB hv hblock (Finset.mem_range.mp hk), Finset.mul_sum]
    _ = ∑ c ∈ Finset.range (2 ^ qubits.length), ∑ k ∈ Finset.range (2 ^ qubits.length),
          (A.entry row k).toComplex * ((B.entry k c).toComplex *
            (ampAt v (blockState qubits n block c)).toComplex) :=
        Finset.sum_comm
    _ = ∑ c ∈ Finset.range (2 ^ qubits.length), (C.entry row c).toComplex *
          (ampAt v (blockState qubits n block c)).toComplex := by
        apply Finset.sum_congr rfl
        intro c hc
        rw [hproduct row c hrow (Finset.mem_range.mp hc), Finset.sum_mul]
        apply Finset.sum_congr rfl
        intro k _
        rw [mul_assoc]

theorem blockGate_scale (hn : n ≤ 31) (hA : ValidTargets qubits n A.dimension)
    (x : Amplitude Real) (hv : v.length = 2 * 2 ^ n) :
    blockGate (A.scale x) qubits n v = mapAmplitudes x.multiply (blockGate A qubits n v) := by
  have hscale : ValidTargets qubits n (A.scale x).dimension := hA
  have hAv := length_blockGate hn hA hv
  apply eq_of_ampAt (length_blockGate hn hscale hv) ((length_mapAmplitudes _ _).trans hAv)
  intro s hs
  rcases exists_blockState hA hs with ⟨block, row, hblock, hrow, hstate⟩
  apply Amplitude.toComplex_injective
  rw [ampAt_mapAmplitudes _ _ _ (by omega), Amplitude.toComplex_multiply, hstate,
    toComplex_blockGate hn hscale hv hblock hrow, toComplex_blockGate hn hA hv hblock hrow,
    Finset.mul_sum]
  apply Finset.sum_congr rfl
  intro c hc
  have hlt : forall i, i < 2 ^ qubits.length -> i < A.dimension := by
    intro i hi
    rwa [hA.dimension]
  have hentry : (A.scale x).entry row c = (A.entry row c).multiply x :=
    QuantumGate.entry_ofEntries _ (hlt row hrow) (hlt c (Finset.mem_range.mp hc))
  rw [hentry, Amplitude.toComplex_multiply]
  ring

end StateVector

end Tmfqs
