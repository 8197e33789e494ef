import Tmfqs.Storage.DenseStateBackend

/-!
# The dense backend stores a state vector

Every entry point of the dense backend, on valid arguments, is the function of
the same name on state vectors.
-/

namespace Tmfqs

open Library

namespace DenseStateBackend

variable {R : Type} [Field R] [LinearOrder R] [CMath R]

def holding (n : Nat) (v : List R) : DenseStateBackend R :=
  { numQubits := n
    numStates := 2 ^ n
    amplitudes := v }

structure Holds (n : Nat) (v : List R) (b : DenseStateBackend R) : Prop where
  qubits : n ≤ 31
  length : v.length = 2 * 2 ^ n
  eq : b = holding n v

/-!
## Executing the prologue of an entry point
-/

section Prologue

variable {n : Nat} {v : List R}

section

omit [Field R] [LinearOrder R] [CMath R]

theorem ne_nil_of_length (hv : v.length = 2 * 2 ^ n) : v.isEmpty = false := by
  have hpos : 0 < 2 ^ n := Nat.two_pow_pos n
  cases v with
  | nil =>
      simp at hv
  | cons x rest => rfl

theorem ensureInitialized_holding (hv : v.length = 2 * 2 ^ n) (operation : String) :
    ensureInitialized operation (holding n v) = (.ok (), holding n v) := by
  have hinit : (holding n v).numStates > 0 ∧ !(holding n v).amplitudes.isEmpty := by
    constructor
    · exact Nat.two_pow_pos n
    · rw [holding, ne_nil_of_length hv]
      rfl
  rw [ensureInitialized, Call.bind_ok (Call.get_apply (holding n v)), ensureBackendInitialized,
    if_pos (decide_eq_true hinit), Call.pure_apply]

theorem validateState_holding (hn : n ≤ 31) {s : Nat} (hs : s < 2 ^ n) (scopeName : String) :
    validateState s scopeName (holding n v) = (.ok (), holding n v) := by
  rw [validateState, Call.bind_ok (Call.get_apply (holding n v)), holding,
    validateStateIndex_ok scopeName hn hs, Call.pure_apply]

theorem setSize_eq (b : DenseStateBackend R) (hn : n ≤ 31) :
    setSize n b = (.ok (), holding n b.amplitudes) := by
  simp [setSize, Call.bind_apply, checkedStateCount_eq (show n ≤ 63 by omega),
    u32_of_lt (two_pow_lt_u32 hn), holding]

end

omit [LinearOrder R] [CMath R] in
theorem initZero_eq (b : DenseStateBackend R) (hn : n ≤ 31) :
    initZero n b = (.ok (), holding n (StateVector.zero n)) := by
  rw [initZero, Call.bind_ok (setSize_eq b hn),
    checkedAmplitudeElementCount_eq (show n ≤ 62 by omega)]
  rfl

end Prologue

/-!
## The pair traversal
-/

omit [LinearOrder R] [CMath R] in
theorem forM_pairCallback (kernel : PairKernel R) (n : Nat) (pairs : List (Nat × Nat)) :
    forall v : List R,
      (pairs.forM fun p => pairCallback kernel p.1 p.2) (holding n v) =
        (.ok ⟨⟩, holding n (pairs.foldl (StateVector.pairStep kernel) v)) := by
  induction pairs with
  | nil =>
      intro v
      rfl
  | cons p rest ih =>
      intro v
      have hstep : pairCallback kernel p.1 p.2 (holding n v) =
          (.ok ⟨⟩, holding n (StateVector.pairStep kernel v p)) := rfl
      change (pairCallback kernel p.1 p.2 >>= fun _ =>
        rest.forM fun p => pairCallback kernel p.1 p.2) (holding n v) = _
      rw [Call.bind_ok hstep, ih]
      rfl

omit [LinearOrder R] [CMath R] in
theorem runPairKernel_holding (kernel : PairKernel R) {n q : Nat} {v : List R}
    (hn : n ≤ 31) (hq : q < n) :
    runPairKernel (qubitMaskFromMsbIndex q n) kernel (holding n v) =
      (.ok ⟨⟩, holding n (StateVector.pairKernel kernel n (n - q - 1) v)) := by
  have hcall : runPairKernel (qubitMaskFromMsbIndex q n) kernel (holding n v) =
      PairKernelExecutor.runFallback (2 ^ n) (qubitMaskFromMsbIndex q n)
        (pairCallback kernel) (holding n v) := rfl
  rw [hcall, qubitMaskFromMsbIndex_eq hn,
    PairKernelExecutor.runFallback_eq hn (show n - q - 1 < n by omega), forM_pairCallback]
  rfl

/-!
## Entry points
-/

section EntryPoints

variable {n : Nat} {v : List R} (hn : n ≤ 31) (hv : v.length = 2 * 2 ^ n)
include hn hv

omit [Field R] [LinearOrder R] [CMath R] in
theorem does_of_eq {call : Call (DenseStateBackend R) Unit} {v' : List R}
    (hlen : v'.length = v.length)
    (h : call (holding n v) = (.ok (), holding n v')) :
    Does call (holding n v) (Holds n v') :=
  Call.post_of_ok h
    { qubits := hn
      length := hlen.trans hv
      eq := rfl }

omit [Field R] [LinearOrder R] [CMath R] in
theorem answers_of_eq {α : Type} {call : Call (DenseStateBackend R) α} {a : α}
    (h : call (holding n v) = (.ok a, holding n v)) :
    Answers call (holding n v) (.ok a) (Holds n v) :=
  Call.post_of_ok h
    ⟨rfl,
      { qubits := hn
        length := hv
        eq := rfl }⟩

omit [LinearOrder R] [CMath R] in
theorem amplitude_holding {s : Nat} (hs : s < 2 ^ n) :
    amplitude s (holding n v) = (.ok (ampAt v s), holding n v) := by
  rw [amplitude, Call.bind_ok (ensureInitialized_holding hv _),
    Call.bind_ok (validateState_holding hn hs _)]
  rfl

omit [LinearOrder R] [CMath R] in
theorem probability_holding {s : Nat} (hs : s < 2 ^ n) :
    probability s (holding n v) = (.ok (ampAt v s).probability, holding n v) := by
  rw [probability, Call.bind_ok (amplitude_holding hn hv hs)]
  rfl

omit [LinearOrder R] [CMath R] hn in
theorem totalProbability_holding :
    totalProbability (holding n v) = (.ok (StateVector.totalProbability v), holding n v) := by
  rw [totalProbability, Call.bind_ok (ensureInitialized_holding hv _)]
  rfl

omit [CMath R] in
theorem sampleMeasurement_holding (rnd : R) :
    Answers (sampleMeasurement rnd) (holding n v) (StateVector.sample rnd v) (Holds n v) := by
  have hholds : Holds n v (holding n v) :=
    { qubits := hn
      length := hv
      eq := rfl }
  have htake : (amplitudesOf v).take (2 ^ n) = amplitudesOf v := by
    apply List.take_of_length_le
    rw [length_amplitudesOf, hv, Nat.mul_div_cancel_left _ (by decide)]
  rw [Answers, sampleMeasurement, Call.post_bind_iff]
  refine Call.post_of_ok (ensureInitialized_holding hv _) ?_
  by_cases hrange : rnd < 0 ∨ rnd ≥ 1
  · rw [if_pos hrange]
    exact ⟨if_pos hrange, hholds⟩
  · rw [if_neg hrange, StateVector.sample, if_neg hrange, Call.post_bind_iff, Call.post_get]
    have hweights : (((amplitudesOf (holding n v).amplitudes).take
        (holding n v).numStates).map fun amp => amp.real * amp.real + amp.imag * amp.imag) =
        (amplitudesOf v).map Amplitude.probability := by
      rw [holding, htake]
      rfl
    simp only [hweights]
    cases (searchCumulative rnd 0 ((amplitudesOf v).map Amplitude.probability)).1 with
    | none => exact ⟨rfl, hholds⟩
    | some s => exact ⟨rfl, hholds⟩

omit [CMath R] in
theorem printNonZeroStates_holding (epsilon : R) :
    Answers (printNonZeroStates epsilon) (holding n v) (StateVector.print epsilon v)
      (Holds n v) := by
  have hholds : Holds n v (holding n v) :=
    { qubits := hn
      length := hv
      eq := rfl }
  rw [Answers, printNonZeroStates, Call.post_bind_iff]
  refine Call.post_of_ok (ensureInitialized_holding hv _) ?_
  by_cases hneg : epsilon < 0
  · rw [if_pos hneg]
    exact ⟨if_pos hneg, hholds⟩
  · rw [if_neg hneg, StateVector.print, if_neg hneg, Call.post_bind_iff, Call.post_get,
      Call.post_pure]
    refine ⟨?_, hholds⟩
    have hhalf : v.length / 2 = 2 ^ n := by
      rw [hv, Nat.mul_div_cancel_left _ (by decide)]
    have hlines : ((List.range (2 ^ n)).map fun state => (state, ampAt v state)) =
        (List.range (amplitudesOf v).length).map fun i =>
          (0 + i, (amplitudesOf v).getD i Amplitude.zero) := by
      rw [length_amplitudesOf, hhalf]
      apply List.map_congr_left
      intro s hs
      rw [amplitudesOf_eq_map, hhalf, List.getD_eq_getElem?_getD, List.getElem?_map,
        List.getElem?_range (List.mem_range.mp hs), Nat.zero_add]
      rfl
    rw [StateVector.printed_eq_filter, holding, hlines]

omit [Field R] [LinearOrder R] [CMath R] in
theorem setAmplitude_holding {s : Nat} (hs : s < 2 ^ n) (amp : Amplitude R) :
    setAmplitude s amp (holding n v) = (.ok (), holding n (setAmp v s amp)) := by
  rw [setAmplitude, Call.bind_ok (ensureInitialized_holding hv _),
    Call.bind_ok (validateState_holding hn hs _)]
  rfl

omit [LinearOrder R] [CMath R] in
theorem phaseFlipBasisState_holding {s : Nat} (hs : s < 2 ^ n) :
    phaseFlipBasisState s (holding n v) = (.ok (), holding n (StateVector.phaseFlip v s)) := by
  rw [phaseFlipBasisState, Call.bind_ok (ensureInitialized_holding hv _),
    Call.bind_ok (validateState_holding hn hs _)]
  rfl

section

omit hn

section

omit [LinearOrder R] [CMath R]

theorem inversionAboutMeanWith_holding (mean : Amplitude R) :
    inversionAboutMeanWith mean (holding n v) =
      (.ok (), holding n (StateVector.reflect mean v)) := by
  rw [inversionAboutMeanWith, Call.bind_ok (ensureInitialized_holding hv _)]
  rfl

theorem inversionAboutMean_holding :
    inversionAboutMean (holding n v) =
      (.ok (), holding n (StateVector.reflect (StateVector.mean n v) v)) := by
  rw [inversionAboutMean, Call.bind_ok (ensureInitialized_holding hv _),
    Call.bind_ok (Call.get_apply _)]
  exact inversionAboutMeanWith_holding hv _

theorem applyAffineTransform_holding (scale bias : Amplitude R) :
    applyAffineTransform scale bias (holding n v) =
      (.ok (), holding n (StateVector.affine scale bias v)) := by
  rw [applyAffineTransform, Call.bind_ok (ensureInitialized_holding hv _)]
  rfl

end

omit [Field R] [LinearOrder R] [CMath R] in
theorem validateSingle_holding {q : Nat} (hq : q < n) (scopeName : String) :
    validateSingleQubitOperation q scopeName (holding n v) = (.ok (), holding n v) := by
  rw [validateSingleQubitOperation, Call.bind_ok (ensureInitialized_holding hv _),
    Call.bind_ok (Call.get_apply _), holding, validateQubitIndex_ok scopeName hq,
    Call.pure_apply]

omit [Field R] [LinearOrder R] [CMath R] in
theorem validateTwo_holding {q0 q1 : Nat} (h0 : q0 < n) (h1 : q1 < n) (hne : q0 ≠ q1)
    (scopeName : String) :
    validateTwoQubitOperation q0 q1 scopeName (holding n v) = (.ok (), holding n v) := by
  rw [validateTwoQubitOperation, Call.bind_ok (ensureInitialized_holding hv _),
    Call.bind_ok (Call.get_apply _), holding, validateBackendTwoQubits_ok scopeName h0 h1 hne,
    Call.pure_apply]

end

theorem applyHadamard_holding {q : Nat} (hq : q < n) :
    applyHadamard q (holding n v) = (.ok (), holding n (StateVector.hadamard n q v)) := by
  rw [applyHadamard, Call.bind_ok (validateSingle_holding hv hq _),
    Call.bind_ok (Call.get_apply _)]
  exact runPairKernel_holding hadamardPair hn hq

omit [CMath R] in
theorem applyPauliX_holding {q : Nat} (hq : q < n) :
    applyPauliX q (holding n v) = (.ok (), holding n (StateVector.pauliX n q v)) := by
  rw [applyPauliX, Call.bind_ok (validateSingle_holding hv hq _),
    Call.bind_ok (Call.get_apply _)]
  exact runPairKernel_holding pauliXPair hn hq

theorem applyControlledPhaseShift_holding {control target : Nat} (hcontrol : control < n)
    (htarget : target < n) (hne : control ≠ target) (theta : R) :
    applyControlledPhaseShift control target theta (holding n v) =
      (.ok (), holding n (StateVector.controlledPhaseShift n control target theta v)) := by
  rw [applyControlledPhaseShift,
    Call.bind_ok (validateTwo_holding hv hcontrol htarget hne _),
    Call.bind_ok (Call.get_apply _), StateVector.controlledPhaseShift,
    ← qubitMaskFromMsbIndex_eq (q := control) hn]
  exact runPairKernel_holding _ hn htarget

section

omit [CMath R]

theorem applyControlledNot_holding {control target : Nat} (hcontrol : control < n)
    (htarget : target < n) (hne : control ≠ target) :
    applyControlledNot control target (holding n v) =
      (.ok (), holding n (StateVector.controlledNot n control target v)) := by
  rw [applyControlledNot,
    Call.bind_ok (validateTwo_holding hv hcontrol htarget hne _),
    Call.bind_ok (Call.get_apply _), StateVector.controlledNot,
    ← qubitMaskFromMsbIndex_eq (q := control) hn]
  exact runPairKernel_holding _ hn htarget

theorem applyGate_holding {gate : QuantumGate R} {qubits : List Nat}
    (h : ValidTargets qubits n gate.dimension) :
    Does (applyGate gate qubits) (holding n v)
      (Holds n (StateVector.blockGate gate qubits n v)) := by
  obtain ⟨_, v', hrun, hlen, _⟩ := (post_gateApplyEngine "" hn h hv).exists_ok
  have hscope : GateApplyEngine.apply "DenseStateBackend::applyGate" gate qubits n
      loadState storeState v = (.ok ⟨⟩, v') := by
    rw [gateApplyEngine_eq _ gate hn h, ← gateApplyEngine_eq "" gate hn h]
    exact hrun
  have hblock : StateVector.blockGate gate qubits n v = v' := by
    rw [StateVector.blockGate, hrun]
  refine does_of_eq hn hv (by rw [hblock]; exact hlen) ?_
  rw [applyGate, Call.bind_ok (ensureInitialized_holding hv _),
    Call.bind_ok (Call.get_apply _), Call.focus_apply, hblock]
  change ((GateApplyEngine.apply "DenseStateBackend::applyGate" gate qubits n
    loadState storeState v).1, (holding n v).putAmplitudes (GateApplyEngine.apply
      "DenseStateBackend::applyGate" gate qubits n loadState storeState v).2) = _
  rw [hscope]
  rfl

theorem applyGate_eq {gate : QuantumGate R} {qubits : List Nat}
    (h : ValidTargets qubits n gate.dimension) :
    applyGate gate qubits (holding n v) =
      (.ok (), holding n (StateVector.blockGate gate qubits n v)) := by
  rcases (applyGate_holding hn hv h).exists_ok with ⟨_, b, hrun, hholds⟩
  rw [hrun, hholds.eq]

end

end EntryPoints

/-!
## Initialisation
-/

omit [LinearOrder R] [CMath R] in
theorem initBasis_eq (b : DenseStateBackend R) {n s : Nat} (hn : n ≤ 31) (hs : s < 2 ^ n)
    (amp : Amplitude R) :
    initBasis n s amp b = (.ok (), holding n (StateVector.basis n s amp)) := by
  rw [initBasis, Call.bind_ok (initZero_eq b hn), Call.bind_ok (validateState_holding hn hs _)]
  rfl

omit [Field R] [LinearOrder R] [CMath R] in
theorem forM_validateState {n : Nat} {v : List R} (hn : n ≤ 31) (scopeName : String) :
    forall states : List Nat, (forall s, s ∈ states -> s < 2 ^ n) ->
      (states.forM fun s => validateState s scopeName) (holding n v) =
        (.ok ⟨⟩, holding n v)
  | [], _ => rfl
  | s :: rest, h => by
      change (validateState s scopeName >>= fun _ =>
        rest.forM fun s => validateState s scopeName) (holding n v) = _
      rw [Call.bind_ok (validateState_holding hn (h s List.mem_cons_self) scopeName)]
      exact forM_validateState hn scopeName rest
        (fun t ht => h t (List.mem_cons_of_mem s ht))

omit [LinearOrder R] in
theorem initUniformSuperposition_eq (b : DenseStateBackend R) {n : Nat} {states : List Nat}
    (hn : n ≤ 31) (hne : states ≠ []) (hstates : forall s, s ∈ states -> s < 2 ^ n) :
    initUniformSuperposition n states b = (.ok (), holding n (StateVector.uniform n states)) := by
  have hselected : (selectedStates states).isEmpty = false := by
    simpa using selectedStates_ne_nil hne
  rw [initUniformSuperposition, Call.bind_ok (initZero_eq b hn),
    Call.bind_ok (forM_validateState hn _ states hstates)]
  simp only [hselected]
  rfl

omit [Field R] [LinearOrder R] [CMath R] in
theorem loadAmplitudes_eq (b : DenseStateBackend R) {n : Nat} {v : List R}
    (hn : n ≤ 31) (hv : v.length = 2 * 2 ^ n) :
    loadAmplitudes n v b = (.ok (), holding n v) := by
  rw [loadAmplitudes, Call.bind_ok (setSize_eq b hn),
    checkedAmplitudeElementCount_eq (show n ≤ 62 by omega)]
  simp only [pure_bind]
  rw [if_neg (not_not.mpr hv)]
  rfl

/-!
## The refinement
-/

def storesVector : StoresVector (R := R) (DenseStateBackend R) where
  Rep n v _ b := Holds n v b
  Size _ := True
  gate := StateVector.blockGate
  bound h := ⟨h.qubits, trivial, h.length⟩
  length_gate hn h hv := StateVector.length_blockGate hn h hv
  initZero hn _ := Call.post_of_ok (initZero_eq _ hn) ⟨hn, by simp, rfl⟩
  initBasis hn _ hs := Call.post_of_ok (initBasis_eq _ hn hs _) ⟨hn, by simp, rfl⟩
  initUniformSuperposition hn _ hne hstates :=
    Call.post_of_ok (initUniformSuperposition_eq _ hn hne hstates) ⟨hn, by simp, rfl⟩
  loadAmplitudes hn _ hlen := Call.post_of_ok (loadAmplitudes_eq _ hn hlen) ⟨hn, hlen, rfl⟩
  exportAmplitudes := by
    rintro n v d b ⟨hn, hv, rfl⟩
    refine answers_of_eq hn hv ?_
    change exportAmplitudes (holding n v) = _
    rw [exportAmplitudes, Call.bind_ok (ensureInitialized_holding hv _)]
    rfl
  forEachAmplitudeChunk := by
    rintro n v d b ⟨hn, hv, rfl⟩
    have hrun : forEachAmplitudeChunk (holding n v) = (.ok [(0, v)], holding n v) := by
      rw [forEachAmplitudeChunk, Call.bind_ok (ensureInitialized_holding hv _)]
      rfl
    refine Call.post_of_ok hrun ⟨⟨rfl, ?_, [], ?_, rfl⟩, hn, hv, rfl⟩
    · rw [hv]
      exact Nat.mul_mod_right 2 (2 ^ n)
    · exact (List.append_nil v).symm
  amplitude := by
    rintro n v d b s ⟨hn, hv, rfl⟩ hs
    exact answers_of_eq hn hv (amplitude_holding hn hv hs)
  setAmplitude := by
    rintro n v d b s a ⟨hn, hv, rfl⟩ hs
    exact does_of_eq hn hv (length_setAmp v s a) (setAmplitude_holding hn hv hs a)
  probability := by
    rintro n v d b s ⟨hn, hv, rfl⟩ hs
    exact answers_of_eq hn hv (probability_holding hn hv hs)
  totalProbability := by
    rintro n v d b ⟨hn, hv, rfl⟩
    exact answers_of_eq hn hv (totalProbability_holding hv)
  sampleMeasurement := by
    rintro n v d b rnd ⟨hn, hv, rfl⟩
    exact sampleMeasurement_holding hn hv rnd
  printNonZeroStates := by
    rintro n v d b epsilon ⟨hn, hv, rfl⟩
    exact printNonZeroStates_holding hn hv epsilon
  phaseFlipBasisState := by
    rintro n v d b s ⟨hn, hv, rfl⟩ hs
    exact does_of_eq hn hv (StateVector.length_phaseFlip v s)
      (phaseFlipBasisState_holding hn hv hs)
  inversionAboutMean := by
    rintro n v d b ⟨hn, hv, rfl⟩
    exact does_of_eq hn hv (StateVector.length_reflect _ v) (inversionAboutMean_holding hv)
  inversionAboutMeanWith := by
    rintro n v d b mean ⟨hn, hv, rfl⟩
    exact does_of_eq hn hv (StateVector.length_reflect mean v)
      (inversionAboutMeanWith_holding hv mean)
  applyAffineTransform := by
    rintro n v d b scale bias ⟨hn, hv, rfl⟩
    exact does_of_eq hn hv (StateVector.length_affine scale bias v)
      (applyAffineTransform_holding hv scale bias)
  applyHadamard := by
    rintro n v d b q ⟨hn, hv, rfl⟩ hq
    exact does_of_eq hn hv (StateVector.length_pairKernel _ n _ v)
      (applyHadamard_holding hn hv hq)
  applyPauliX := by
    rintro n v d b q ⟨hn, hv, rfl⟩ hq
    exact does_of_eq hn hv (StateVector.length_pairKernel _ n _ v)
      (applyPauliX_holding hn hv hq)
  applyControlledPhaseShift := by
    rintro n v d b control target theta ⟨hn, hv, rfl⟩ hcontrol htarget hne
    exact does_of_eq hn hv (StateVector.length_pairKernel _ n _ v)
      (applyControlledPhaseShift_holding hn hv hcontrol htarget hne theta)
  applyControlledNot := by
    rintro n v d b control target ⟨hn, hv, rfl⟩ hcontrol htarget hne
    exact does_of_eq hn hv (StateVector.length_pairKernel _ n _ v)
      (applyControlledNot_holding hn hv hcontrol htarget hne)
  applyGate := by
    rintro n v d b g qubits ⟨hn, hv, rfl⟩ h
    exact applyGate_holding hn hv h
  beginOperationBatch h := h
  endOperationBatch h := h

theorem storesVector_clone {n d : Nat} {v : List R} {b : DenseStateBackend R}
    (h : storesVector.Rep n v d b) : storesVector.Rep n v d (IStateBackend.clone b) :=
  h

end DenseStateBackend

end Tmfqs
