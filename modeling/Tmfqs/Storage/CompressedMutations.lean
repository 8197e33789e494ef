import Tmfqs.Storage.CompressedTraversals

/-!
# Mutations of the compressed backend

On a backend that holds a state vector every mutation is the function of the same
name on state vectors.  The gates of one and two qubits need a traversal that
never moves the slots.
-/

namespace Tmfqs

open Library ChunkCache

namespace CompressedStateBackend

variable {R B : Type} [Field R] {P : CodecPolicy R B} {hP : P.Lossless} {n : Nat} {v : List R}
  {b : CompressedStateBackend P}

/-- The call turns the vector into `v'` and keeps sizes, layout and open batches. -/
def Makes (hP : P.Lossless) (n : Nat) (v' : List R) (call : Call (CompressedStateBackend P) Unit)
    (b : CompressedStateBackend P) : Prop :=
  Does call b fun b' => Holds hP n v' b' ∧ SameFrame b b'

omit [Field R] in
theorem Holds.chunkCount (h : Holds hP n v b) : b.store.chunks.length = b.layout.chunkCount :=
  h.chunks.shaped.chunks

/-!
## Single amplitudes
-/

theorem makes_setAmplitude (h : Holds hP n v b) {s : Nat} (hs : s < 2 ^ n) (amp : Amplitude R) :
    Makes hP n (setAmp v s amp) (setAmplitude s amp) b := by
  refine post_mutate h _ ?_
  rw [Call.post_bind_iff, Call.post_get, validateStateIndex_eq h.chunks.shaped hs, pure_bind]
  exact post_writeAmplitudeMutable h hs amp

theorem makes_phaseFlipBasisState (h : Holds hP n v b) {s : Nat} (hs : s < 2 ^ n) :
    Makes hP n (StateVector.phaseFlip v s) (phaseFlipBasisState s) b := by
  refine post_mutate h _ ?_
  rw [Call.post_bind_iff, Call.post_get, validateStateIndex_eq h.chunks.shaped hs, pure_bind,
    Call.post_bind_iff]
  refine (post_acquireAmplitudeRef h.chunks hs).mono ?_
  rintro ref b' ⟨hacq, hoffset⟩
  rw [Call.post_bind_iff, modifyCache, Call.post_modify, modifyCache, Call.post_modify]
  obtain ⟨hholds, hframe⟩ := hacq.holds.write hacq.live hacq.denotes
    (f := fun buffer => writeAmp buffer ref.elemOffset
      { real := -(readAmp buffer ref.elemOffset).real
        imag := -(readAmp buffer ref.elemOffset).imag })
    (fun x => length_writeAmp x ref.elemOffset _)
  refine ⟨⟨?_, ?_⟩, hacq.frame.trans hframe⟩
  · rw [StateVector.length_phaseFlip]
    exact h.length
  · refine hholds.congr ?_
    intro k
    rw [StateVector.phaseFlip, chunkOf_setAmp P.chunkStates_pos, hacq.chunkIndex, hoffset,
      readAmp_chunkOf P.chunkStates_pos]
    rfl

/-!
## Whole-vector maps
-/

omit [Field R] in
theorem mapPrefix_length (f : Amplitude R -> Amplitude R) (x : List R) :
    mapPrefix f x.length x = mapAmplitudes f x := by
  simp [mapPrefix]

theorem post_mapChunks (h : Holds hP n v b) (f : Amplitude R -> Amplitude R) :
    Call.Post (mapChunks f) b
      (fun _ b' => Holds hP n (mapAmplitudes f v) b' ∧ SameFrame b b')
      (fun _ _ => False) := by
  rw [mapChunks, Call.post_bind_iff, Call.post_get, h.chunkCount]
  -- the first `done` chunks have been rewritten
  refine (Call.post_forM_range
    (fun done b' => HoldsChunks hP n (fun k =>
        if k < done then mapAmplitudes f (chunkOf P.chunkStates v k)
        else chunkOf P.chunkStates v k) b' ∧ SameFrame b b')
    ?_ ⟨h.chunks.congr (by simp), SameFrame.refl b⟩).mono ?_
  · rintro k b1 hk ⟨h1, hframe1⟩
    have hk1 : k < b1.layout.chunkCount := by
      rw [hframe1.layout]
      exact hk
    rw [Call.post_bind_iff]
    refine (post_acquireChunk h1 hk1).mono ?_
    intro handle b2 hacq
    have hk2 : k < b2.layout.chunkCount := by
      rw [hacq.frame.layout]
      exact hk1
    have hcount : (b2.store.chunk k).elemCount = (chunkOf P.chunkStates v k).length := by
      have hlength := hacq.holds.length k
      rw [if_neg (Nat.lt_irrefl k)] at hlength
      rw [hacq.holds.elemCount hk2, hlength]
    rw [Call.post_bind_iff, Call.post_get, Call.post_bind_iff, modifyCache, Call.post_modify,
      modifyCache, Call.post_modify]
    obtain ⟨hholds, hframe⟩ := hacq.holds.write hacq.live hacq.denotes
      (f := mapPrefix f (b2.store.chunk k).elemCount)
      (fun x => by
        rw [mapPrefix, List.length_append, length_mapAmplitudes, List.length_take,
          List.length_drop]
        omega)
    refine ⟨hholds.congr ?_, (hframe1.trans hacq.frame).trans hframe⟩
    intro j
    rw [hacq.chunkIndex]
    by_cases hjk : j = k
    · subst hjk
      rw [if_pos (Nat.lt_succ_self j), Function.update_self, if_neg (Nat.lt_irrefl j), hcount,
        mapPrefix_length]
    · rw [Function.update_of_ne hjk]
      by_cases hlt : j < k
      · rw [if_pos hlt, if_pos (by omega)]
      · rw [if_neg hlt, if_neg (by omega)]
  · rintro _ b1 ⟨h1, hframe⟩
    refine ⟨⟨by rw [length_mapAmplitudes]; exact h.length, h1.congr ?_⟩, hframe⟩
    intro k
    rw [chunkOf_mapAmplitudes]
    by_cases hk : k < b.layout.chunkCount
    · rw [if_pos hk]
    · have hempty : chunkOf P.chunkStates v k = [] := by
        apply List.eq_nil_of_length_eq_zero
        have hend : ¬ k * P.chunkStates < 2 ^ n := by
          rw [← h.chunks.shaped.layout.lt_chunkCount_iff]
          exact hk
        rw [h.chunks.length, h.chunks.shaped.layout.statesIn_eq]
        omega
      rw [if_neg hk, hempty]
      rfl

theorem makes_inversionAboutMeanWith (h : Holds hP n v b) (mean : Amplitude R) :
    Makes hP n (StateVector.reflect mean v) (inversionAboutMeanWith mean) b :=
  post_mutate h _ (post_mapChunks h _)

theorem makes_applyAffineTransform (h : Holds hP n v b) (scale bias : Amplitude R) :
    Makes hP n (StateVector.affine scale bias v) (applyAffineTransform scale bias) b :=
  post_mutate h _ (post_mapChunks h _)

theorem makes_inversionAboutMean (h : Holds hP n v b) :
    Makes hP n (StateVector.reflect (StateVector.mean n v) v) inversionAboutMean b := by
  have heven : v.length % 2 = 0 := by
    rw [h.length]
    exact Nat.mul_mod_right 2 _
  refine post_mutate h _ ?_
  rw [Call.post_bind_iff, Call.post_get, Call.post_bind_iff, h.chunkCount]
  refine (Call.post_foldlM_range
    (fun done sum b' => Holds hP n v b' ∧ SameFrame b b' ∧
      sum = StateVector.amplitudeSum (v.take (done * (2 * P.chunkStates))))
    ?_ ⟨h, SameFrame.refl b, ?_⟩).mono ?_
  · rintro k sum b1 hk ⟨h1, hframe1, hsum⟩
    have hk1 : k < b1.layout.chunkCount := by
      rw [hframe1.layout]
      exact hk
    rw [Call.post_bind_iff]
    refine (post_acquireChunk h1.chunks hk1).mono ?_
    intro handle b2 hacq
    have hk2 : k < b2.layout.chunkCount := by
      rw [hacq.frame.layout]
      exact hk1
    rw [Call.post_bind_iff, Call.post_get, Call.post_pure]
    refine ⟨⟨h.length, hacq.holds⟩, hframe1.trans hacq.frame, ?_⟩
    rw [hacq.data, hacq.holds.elemCount hk2, ← hacq.holds.length k, List.take_length, hsum,
      StateVector.amplitudeSum, StateVector.amplitudeSum, amplitudesOf_take_succ heven,
      List.foldl_append]
  · rw [Nat.zero_mul, List.take_zero]
    rfl
  · rintro sum b1 ⟨h1, hframe1, hsum⟩
    rw [take_all_chunks h.chunks.shaped.layout h.length] at hsum
    have hmean : ({ real := sum.real / (b.numStates : R)
                    imag := sum.imag / (b.numStates : R) } : Amplitude R) =
        StateVector.mean n v := by
      rw [hsum, h.chunks.shaped.numStates]
      rfl
    rw [hmean]
    refine (post_mapChunks h1 _).mono ?_
    rintro _ b2 ⟨h2, hframe2⟩
    exact ⟨h2, hframe1.trans hframe2⟩

/-!
## Gates
-/

section Gates

variable [LinearOrder R] [CMath R]

omit [LinearOrder R] [CMath R] in
theorem makes_pairKernel (h : Holds hP n v b) {kernel : PairKernel R} (hrep : Reports kernel)
    {q : Nat} (hq : q < n) (operation : String)
    (hsteady : KernelSteady kernel (n - q - 1) b) :
    Makes hP n (StateVector.pairKernel kernel n (n - q - 1) v)
      (mutate operation (runPairKernel (qubitMaskFromMsbIndex q n) kernel)) b := by
  refine post_mutate h operation ?_
  rw [qubitMaskFromMsbIndex_eq h.chunks.shaped.qubits]
  exact post_runPairKernel (by omega) hrep h hsteady

theorem makes_applyHadamard (h : Holds hP n v b) {q : Nat} (hq : q < n)
    (hsteady : KernelSteady hadamardPair (n - q - 1) b) :
    Makes hP n (StateVector.hadamard n q v) (applyHadamard q) b := by
  rw [Makes, Does, applyHadamard, Call.post_bind_iff]
  refine Call.post_of_ok (ensureInitialized_eq h.chunks.shaped _) ?_
  rw [Call.post_bind_iff, Call.post_get, h.chunks.shaped.numQubits, validateQubitIndex_ok _ hq,
    pure_bind]
  exact makes_pairKernel h reports_hadamardPair hq _ hsteady

omit [CMath R] in
theorem makes_applyPauliX (h : Holds hP n v b) {q : Nat} (hq : q < n)
    (hsteady : KernelSteady pauliXPair (n - q - 1) b) :
    Makes hP n (StateVector.pauliX n q v) (applyPauliX q) b := by
  rw [Makes, Does, applyPauliX, Call.post_bind_iff]
  refine Call.post_of_ok (ensureInitialized_eq h.chunks.shaped _) ?_
  rw [Call.post_bind_iff, Call.post_get, h.chunks.shaped.numQubits, validateQubitIndex_ok _ hq,
    pure_bind]
  exact makes_pairKernel h reports_pauliXPair hq _ hsteady

theorem makes_applyControlledPhaseShift (h : Holds hP n v b) {control target : Nat}
    (hcontrol : control < n) (htarget : target < n) (hne : control ≠ target) (theta : R)
    (hsteady : KernelSteady (controlledPhaseShiftPair (2 ^ (n - control - 1)) theta)
      (n - target - 1) b) :
    Makes hP n (StateVector.controlledPhaseShift n control target theta v)
      (applyControlledPhaseShift control target theta) b := by
  rw [Makes, Does, applyControlledPhaseShift, Call.post_bind_iff]
  refine Call.post_of_ok (ensureInitialized_eq h.chunks.shaped _) ?_
  rw [Call.post_bind_iff, Call.post_get, h.chunks.shaped.numQubits,
    validateBackendTwoQubits_ok _ hcontrol htarget hne, pure_bind,
    qubitMaskFromMsbIndex_eq (q := control) h.chunks.shaped.qubits]
  exact makes_pairKernel h (reports_controlledPhaseShiftPair _ theta) htarget _ hsteady

section

omit [CMath R]

theorem makes_applyControlledNot (h : Holds hP n v b) {control target : Nat}
    (hcontrol : control < n) (htarget : target < n) (hne : control ≠ target)
    (hsteady : KernelSteady (controlledNotPair (2 ^ (n - control - 1))) (n - target - 1) b) :
    Makes hP n (StateVector.controlledNot n control target v)
      (applyControlledNot control target) b := by
  rw [Makes, Does, applyControlledNot, Call.post_bind_iff]
  refine Call.post_of_ok (ensureInitialized_eq h.chunks.shaped _) ?_
  rw [Call.post_bind_iff, Call.post_get, h.chunks.shaped.numQubits,
    validateBackendTwoQubits_ok _ hcontrol htarget hne, pure_bind,
    qubitMaskFromMsbIndex_eq (q := control) h.chunks.shaped.qubits]
  exact makes_pairKernel h (reports_controlledNotPair _) htarget _ hsteady

theorem simulates_applyBlock (gate : QuantumGate R) {indices : List Nat}
    (hlt : forall s, s ∈ indices -> s < 2 ^ n) :
    Call.Simulates (fun b' v' => Holds hP n v' b' ∧ SameFrame b b')
      (applyBlock gate indices readAmplitudeMutable writeAmplitudeMutable)
      (applyBlock gate indices loadState storeState) := by
  have hread : forall s, s ∈ indices -> Call.Simulates
      (fun b' v' => Holds hP n v' b' ∧ SameFrame b b')
      (readAmplitudeMutable s : Call (CompressedStateBackend P) _) (loadState s) := by
    rintro s hs b1 v1 ⟨h1, hframe⟩
    refine (post_readAmplitudeMutable h1 (hlt s hs)).imp ?_ (fun _ _ he => he.elim)
    rintro _ b2 ⟨rfl, h2, hframe'⟩
    exact ⟨v1, rfl, h2, hframe.trans hframe'⟩
  have hwrite : forall s amp, s ∈ indices -> Call.Simulates
      (fun b' v' => Holds hP n v' b' ∧ SameFrame b b')
      (writeAmplitudeMutable s amp : Call (CompressedStateBackend P) _) (storeState s amp) := by
    rintro s amp hs b1 v1 ⟨h1, hframe⟩
    refine (post_writeAmplitudeMutable h1 (hlt s hs) amp).imp ?_ (fun _ _ he => he.elim)
    rintro _ b2 ⟨h2, hframe'⟩
    exact ⟨setAmp v1 s amp, rfl, h2, hframe.trans hframe'⟩
  refine (Call.Simulates.mapM indices hread).bind ?_
  intro localAmps
  by_cases hzero : allZero localAmps
  · simp only [hzero, if_true]
    exact Call.simulates_pure PUnit.unit
  · simp only [hzero]
    refine Call.Simulates.forM _ ?_
    intro row hrow
    apply hwrite
    have hrow' := List.mem_range.mp hrow
    rw [List.getD_eq_getElem?_getD, List.getElem?_eq_getElem hrow']
    exact List.getElem_mem hrow'

theorem makes_blocks (h : Holds hP n v b) {gate : QuantumGate R} {qubits : List Nat}
    (hvalid : ValidTargets qubits n gate.dimension) (operation scopeName : String) :
    Makes hP n (StateVector.blockGate gate qubits n v)
      (mutate operation do
        let b <- get
        GateApplyEngine.apply scopeName gate qubits b.numQubits
          readAmplitudeMutable writeAmplitudeMutable) b := by
  have hn := h.chunks.shaped.qubits
  have hsim : Call.Simulates (fun b' v' => Holds hP n v' b' ∧ SameFrame b b')
      (GateApplyEngine.apply scopeName gate qubits n readAmplitudeMutable writeAmplitudeMutable)
      (GateApplyEngine.apply "" gate qubits n loadState storeState) := by
    rw [gateApplyEngine_eq _ gate hn hvalid, gateApplyEngine_eq _ gate hn hvalid]
    refine Call.Simulates.forM _ ?_
    intro block _
    refine simulates_applyBlock gate ?_
    intro s hs
    rw [blockIndices, List.mem_map] at hs
    obtain ⟨row, _, rfl⟩ := hs
    exact blockState_lt hvalid block row
  obtain ⟨_, v', hrun, _⟩ := (post_gateApplyEngine "" hn hvalid h.length).exists_ok
  refine post_mutate h operation ?_
  rw [Call.post_bind_iff, Call.post_get, h.chunks.shaped.numQubits]
  refine (hsim b v ⟨h, SameFrame.refl b⟩).imp ?_ ?_
  · rintro _ b' ⟨w, hw, h', hframe⟩
    rw [hrun] at hw
    cases hw
    rw [StateVector.blockGate, hrun]
    exact ⟨h', hframe⟩
  · rintro e b' ⟨w, hw, _⟩
    rw [hrun] at hw
    cases hw

end

/-- What `applyGate` does to the state vector. -/
def gateVector (gate : QuantumGate R) (qubits : List Nat) (n : Nat) (v : List R) : List R :=
  match fastPath gate qubits.length with
  | .hadamard => StateVector.hadamard n (qubits.getD 0 0) v
  | .pauliX => StateVector.pauliX n (qubits.getD 0 0) v
  | .controlledNot => StateVector.controlledNot n (qubits.getD 0 0) (qubits.getD 1 0) v
  | .controlledPhaseShift theta =>
      StateVector.controlledPhaseShift n (qubits.getD 0 0) (qubits.getD 1 0) theta v
  | .blocks => StateVector.blockGate gate qubits n v

/-- The traversal `applyGate` may run never moves the slots. -/
def GateSteady (gate : QuantumGate R) (qubits : List Nat) (b : CompressedStateBackend P) : Prop :=
  match fastPath gate qubits.length with
  | .hadamard => KernelSteady hadamardPair (b.numQubits - qubits.getD 0 0 - 1) b
  | .pauliX => KernelSteady pauliXPair (b.numQubits - qubits.getD 0 0 - 1) b
  | .controlledNot =>
      KernelSteady (controlledNotPair (2 ^ (b.numQubits - qubits.getD 0 0 - 1)))
        (b.numQubits - qubits.getD 1 0 - 1) b
  | .controlledPhaseShift theta =>
      KernelSteady (controlledPhaseShiftPair (2 ^ (b.numQubits - qubits.getD 0 0 - 1)) theta)
        (b.numQubits - qubits.getD 1 0 - 1) b
  | .blocks => True

theorem fastPath_one {gate : QuantumGate R} {k : Nat}
    (h : fastPath gate k = .hadamard ∨ fastPath gate k = .pauliX) : k = 1 := by
  by_contra hk
  rw [fastPath, if_neg hk] at h
  by_cases htwo : k = 2
  · rw [if_pos htwo] at h
    split at h
    · simp at h
    · split at h <;> simp at h
  · rw [if_neg htwo] at h
    simp at h

theorem fastPath_two {gate : QuantumGate R} {k : Nat}
    (h : fastPath gate k = .controlledNot ∨
      exists theta, fastPath gate k = .controlledPhaseShift theta) : k = 2 := by
  by_contra hk
  rw [fastPath] at h
  by_cases hone : k = 1
  · rw [if_pos hone] at h
    split at h
    · simp at h
    · split at h <;> simp at h
  · rw [if_neg hone, if_neg hk] at h
    simp at h

theorem makes_applyGate (h : Holds hP n v b) {gate : QuantumGate R} {qubits : List Nat}
    (hvalid : ValidTargets qubits n gate.dimension) (hsteady : GateSteady gate qubits b) :
    Makes hP n (gateVector gate qubits n v) (applyGate gate qubits) b := by
  rw [Makes, Does, applyGate, Call.post_bind_iff]
  refine Call.post_of_ok (ensureInitialized_eq h.chunks.shaped _) ?_
  unfold GateSteady at hsteady
  rw [h.chunks.shaped.numQubits] at hsteady
  unfold gateVector
  cases hpath : fastPath gate qubits.length with
  | hadamard =>
      rw [hpath] at hsteady
      have hlen := fastPath_one (Or.inl hpath)
      exact makes_applyHadamard h (hvalid.getD_lt (by omega)) hsteady
  | pauliX =>
      rw [hpath] at hsteady
      have hlen := fastPath_one (Or.inr hpath)
      exact makes_applyPauliX h (hvalid.getD_lt (by omega)) hsteady
  | controlledNot =>
      rw [hpath] at hsteady
      have hlen := fastPath_two (Or.inl hpath)
      exact makes_applyControlledNot h (hvalid.getD_lt (by omega))
        (hvalid.getD_lt (by omega)) (hvalid.getD_ne hlen) hsteady
  | controlledPhaseShift theta =>
      rw [hpath] at hsteady
      have hlen := fastPath_two (Or.inr ⟨theta, hpath⟩)
      exact makes_applyControlledPhaseShift h (hvalid.getD_lt (by omega))
        (hvalid.getD_lt (by omega)) (hvalid.getD_ne hlen) theta hsteady
  | blocks => exact makes_blocks h hvalid _ _

end Gates

end CompressedStateBackend

end Tmfqs
