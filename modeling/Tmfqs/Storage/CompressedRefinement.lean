import Tmfqs.Storage.CompressedInit
import Tmfqs.Storage.CompressedMutations
import Tmfqs.Storage.CompressedQueries

/-!
# The compressed backend stores a state vector

With a lossless codec, a layout that does not wrap and its reserved slots, every
entry point of the compressed backend is the function of the same name on state
vectors.
-/

namespace Tmfqs

open Library ChunkCache

namespace CompressedStateBackend

variable {R B : Type} [Field R] {P : CodecPolicy R B} {hP : P.Lossless} {n : Nat} {v : List R}
  {b : CompressedStateBackend P}

omit [Field R] in
theorem SameFrame.of_codecOnly_holds {b' : CompressedStateBackend P} (h : Holds hP n v b)
    (hc : CodecOnly b b') : Holds hP n v b' ∧ SameFrame b b' := by
  have hcontains := h.chunks.contains.codecOnly hc
  refine ⟨⟨h.length, ?_⟩, hc.frame⟩
  exact
    { shaped := hcontains.shaped
      length := by
        rw [hc.layout]
        exact h.chunks.length
      content := hcontains.content }

/-!
## Queries of one amplitude
-/

theorem post_findAmplitude (h : Holds hP n v b) {s : Nat} (hs : s < 2 ^ n) :
    Call.Post (findAmplitude s) b
      (fun a b' => a = ampAt v s ∧ Holds hP n v b' ∧ SameFrame b b') (fun _ _ => False) := by
  have href := h.chunks.shaped.layout.stateRef_eq (s := s)
  have hk := h.chunk_lt hs
  rw [findAmplitude, Call.post_bind_iff, Call.post_get]
  simp only [href, findBuffer_eq]
  cases hentry : b.cache.entry (s / P.chunkStates) with
  | some cached =>
      obtain ⟨buffer, dirty⟩ := cached
      refine ⟨?_, h, SameFrame.refl b⟩
      rw [(h.chunks.content.cached _ buffer dirty hentry).1, readAmp_chunkOf P.chunkStates_pos]
  | none =>
      simp only [Option.map_none]
      rw [Call.post_bind_iff]
      refine (post_acquireChunk h.chunks hk).mono ?_
      intro handle b1 hacq
      rw [Call.post_bind_iff, Call.post_get, Call.post_pure]
      refine ⟨?_, ⟨h.length, hacq.holds⟩, hacq.frame⟩
      rw [hacq.data, readAmp_chunkOf P.chunkStates_pos]

theorem answers_amplitude (h : Holds hP n v b) {s : Nat} (hs : s < 2 ^ n) :
    Answers (amplitude s) b (.ok (ampAt v s)) fun b' => Holds hP n v b' ∧ SameFrame b b' := by
  rw [Answers, amplitude, Call.post_bind_iff]
  refine Call.post_of_ok (ensureInitialized_eq h.chunks.shaped _) ?_
  rw [Call.post_bind_iff, Call.post_get, validateStateIndex_eq h.chunks.shaped hs, pure_bind]
  refine (post_findAmplitude h hs).imp ?_ (fun _ _ he => he.elim)
  rintro _ b1 ⟨rfl, hholds⟩
  exact ⟨rfl, hholds⟩

theorem answers_probability (h : Holds hP n v b) {s : Nat} (hs : s < 2 ^ n) :
    Answers (probability s) b (.ok (ampAt v s).probability)
      fun b' => Holds hP n v b' ∧ SameFrame b b' := by
  rw [Answers, probability, Call.post_bind_iff]
  refine (answers_amplitude h hs).imp ?_ ?_
  · rintro a b1 ⟨ha, hholds⟩
    cases ha
    exact ⟨rfl, hholds⟩
  · rintro e b1 ⟨he, _⟩
    cases he

/-!
## Queries over all chunks
-/

omit [Field R] in
theorem Answers.of_codecOnly {α : Type} {call : Call (CompressedStateBackend P) α}
    {answer : Except ExcKind α} (h : Holds hP n v b) (hcall : Answers call b answer (CodecOnly b)) :
    Answers call b answer fun b' => Holds hP n v b' ∧ SameFrame b b' :=
  hcall.imp (fun _ _ ha => ⟨ha.1, SameFrame.of_codecOnly_holds h ha.2⟩)
    (fun _ _ he => ⟨he.1, SameFrame.of_codecOnly_holds h he.2⟩)

section Queries

variable (h : Holds hP n v b)
include h

theorem answers_exportAmplitudes :
    Answers exportAmplitudes b (.ok v) fun b' => Holds hP n v b' ∧ SameFrame b b' := by
  have hsees := exportAmplitudes_sees h.chunks.contains
  rw [seenExport_chunkOf h.chunks.shaped.layout h.length] at hsees
  exact Answers.of_codecOnly h hsees

omit [Field R] in
theorem answers_forEachAmplitudeChunk :
    Call.Post forEachAmplitudeChunk b
      (fun chunks b' => IsChunking 0 chunks v ∧ Holds hP n v b' ∧ SameFrame b b')
      (fun _ _ => False) := by
  have hchunking := isChunking_seenChunks_all h.chunks.shaped.layout h.length
  refine (Answers.of_codecOnly h (forEachAmplitudeChunk_sees h.chunks.contains)).imp ?_ ?_
  · rintro chunks b1 ⟨hchunks, hholds⟩
    cases hchunks
    exact ⟨hchunking, hholds⟩
  · rintro e b1 ⟨he, _⟩
    cases he

variable [LinearOrder R] [CMath R]

omit [LinearOrder R] [CMath R] in
theorem answers_totalProbability :
    Answers totalProbability b (.ok (StateVector.totalProbability v))
      fun b' => Holds hP n v b' ∧ SameFrame b b' := by
  have hsees := totalProbability_sees h.chunks.contains
  rw [seenTotal_chunkOf h.chunks.shaped.layout h.length] at hsees
  exact Answers.of_codecOnly h hsees

theorem answers_sampleMeasurement (rnd : R) :
    Answers (sampleMeasurement rnd) b (StateVector.sample rnd v)
      fun b' => Holds hP n v b' ∧ SameFrame b b' := by
  have hsees := sampleMeasurement_sees h.chunks.contains rnd
  rw [seenSample_chunkOf h.chunks.shaped.layout h.length] at hsees
  exact Answers.of_codecOnly h hsees

theorem answers_printNonZeroStates (epsilon : R) :
    Answers (printNonZeroStates epsilon) b (StateVector.print epsilon v)
      fun b' => Holds hP n v b' ∧ SameFrame b b' := by
  have hsees := printNonZeroStates_sees h.chunks.contains epsilon
  rw [seenPrint_chunkOf h.chunks.shaped.layout h.length] at hsees
  exact Answers.of_codecOnly h hsees

end Queries

/-!
## Initialisation
-/

section Init

variable (hP) [LinearOrder R] [CMath R] (b : CompressedStateBackend P)
  (hn : n ≤ 31) (hfits : ChunkLayout.Fits (2 ^ n) P.chunkStates)
include hn hfits

def Fresh (hP : P.Lossless) (n : Nat) (v : List R) (b : CompressedStateBackend P) : Prop :=
  Holds hP n v b ∧ b.Roomy ∧ b.batchDepth = 0

omit [Field R] [LinearOrder R] [CMath R] hn hfits in
theorem Filled.fresh {b : CompressedStateBackend P} {v : List R} (hv : v.length = 2 * 2 ^ n)
    (h : Filled P id n v b) : Fresh hP n v b :=
  ⟨Filling.holds hv h, h.roomy, h.depth⟩

omit [LinearOrder R] [CMath R] in
theorem does_initZero : Does (initZero n) b (Fresh hP n (StateVector.zero n)) :=
  (post_initZero hP b hn hfits).mono fun _ _ h => Filled.fresh hP (StateVector.length_zero n) h

omit [LinearOrder R] [CMath R] in
theorem does_initBasis {s : Nat} (hs : s < 2 ^ n) (amp : Amplitude R) :
    Does (initBasis n s amp) b (Fresh hP n (StateVector.basis n s amp)) := by
  rw [Does, initBasis, Call.post_bind_iff]
  refine (does_initZero hP b hn hfits).mono ?_
  rintro _ b1 ⟨h1, hroomy, hdepth⟩
  rw [Call.post_bind_iff, Call.post_get, validateStateIndex_eq h1.chunks.shaped hs, pure_bind,
    Call.post_bind_iff]
  refine (post_writeAmplitudeMutable h1 hs amp).mono ?_
  rintro _ b2 ⟨h2, hframe⟩
  refine (post_flushCacheIfNeeded h2.chunks).mono ?_
  rintro _ b3 ⟨h3, hframe'⟩
  have hframe3 := hframe.trans hframe'
  exact ⟨⟨h2.length, h3⟩, hframe3.roomy hroomy, hframe3.batchDepth.trans hdepth⟩

omit [LinearOrder R] in
theorem does_initUniformSuperposition {states : List Nat} (hne : states ≠ [])
    (hlt : forall s, s ∈ states -> s < 2 ^ n) :
    Does (initUniformSuperposition n states) b (Fresh hP n (StateVector.uniform n states)) :=
  (post_initUniformSuperposition hP b hn hfits hne hlt).mono fun _ _ h =>
    Filled.fresh hP (StateVector.length_uniform n states) h

omit [Field R] [LinearOrder R] [CMath R] in
theorem does_loadAmplitudes {v : List R} (hv : v.length = 2 * 2 ^ n) :
    Does (loadAmplitudes n v) b (Fresh hP n v) :=
  (post_loadAmplitudes hP b hn hfits hv).mono fun _ _ h => Filled.fresh hP hv h

end Init

/-!
## Batches
-/

section

omit [Field R]

theorem makes_beginOperationBatch (h : Holds hP n v b) :
    Does beginOperationBatch b fun b' => Holds hP n v b' ∧
      b'.batchDepth = b.batchDepth + 1 ∧ (b.Roomy -> b'.Roomy) := by
  rw [Does, beginOperationBatch, Call.post_bind_iff]
  refine Call.post_of_ok (ensureInitialized_eq h.chunks.shaped _) ?_
  rw [Call.post_modify]
  exact ⟨⟨h.length, h.chunks.batched _⟩, rfl, fun hb => hb⟩

theorem makes_endOperationBatch (h : Holds hP n v b) {d : Nat} (hd : b.batchDepth = d + 1) :
    Does endOperationBatch b fun b' => Holds hP n v b' ∧
      b'.batchDepth = d ∧ (b.Roomy -> b'.Roomy) := by
  have hclosed := h.chunks.batched d
  have hopen : ¬ b.batchDepth = 0 := by omega
  have hdepth : b.batchDepth - 1 = d := by omega
  rw [Does, endOperationBatch, Call.post_bind_iff, Call.post_get, if_neg hopen]
  change Call.Post (modify _ >>= _) _ _ _
  rw [Call.post_bind_iff, Call.post_modify, hdepth]
  refine (post_flushCacheIfNeeded hclosed).mono ?_
  rintro _ b1 ⟨h1, hframe⟩
  exact ⟨⟨h.length, h1⟩, hframe.batchDepth, hframe.roomy⟩

theorem endOperationBatch_of_closed (hd : b.batchDepth = 0) :
    Call.Post endOperationBatch b (fun _ _ => False)
      (fun e b' => e.kind = .logicError ∧ b' = b) := by
  rw [endOperationBatch, Call.post_bind_iff, Call.post_get, if_pos hd]
  exact ⟨rfl, rfl⟩

end

/-!
## The refinement
-/

section Refinement

variable [LinearOrder R] [CMath R]

/-- The vector is held, the slots stay in place, and `depth` batches are open. -/
def Represents (hP : P.Lossless) (n : Nat) (v : List R) (depth : Nat)
    (b : CompressedStateBackend P) : Prop :=
  Holds hP n v b ∧ b.Roomy ∧ b.batchDepth = depth

section

omit [Field R] [LinearOrder R] [CMath R]

theorem Represents.of_frame {d : Nat} {v' : List R} {b' : CompressedStateBackend P}
    (h : Represents hP n v d b) (h' : Holds hP n v' b' ∧ SameFrame b b') :
    Represents hP n v' d b' :=
  ⟨h'.1, h'.2.roomy h.2.1, h'.2.batchDepth.trans h.2.2⟩

theorem Represents.does {d : Nat} {v' : List R} {call : Call (CompressedStateBackend P) Unit}
    (h : Represents hP n v d b) (hcall : Makes hP n v' call b) :
    Does call b (Represents hP n v' d) :=
  hcall.mono fun _ _ h' => h.of_frame h'

theorem Represents.answers {α : Type} {d : Nat} {call : Call (CompressedStateBackend P) α}
    {answer : Except ExcKind α} (h : Represents hP n v d b)
    (hcall : Answers call b answer fun b' => Holds hP n v b' ∧ SameFrame b b') :
    Answers call b answer (Represents hP n v d) :=
  hcall.imp (fun _ _ ha => ⟨ha.1, h.of_frame ha.2⟩) (fun _ _ he => ⟨he.1, h.of_frame he.2⟩)

end

omit [LinearOrder R] [CMath R] in
theorem Represents.steady {d q : Nat} {kernel : PairKernel R} (h : Represents hP n v d b)
    (hq : q < n) (hrep : Reports kernel) : KernelSteady kernel (n - q - 1) b :=
  h.2.1.kernelSteady (by omega) hrep h.1

theorem Represents.gateSteady {d : Nat} {gate : QuantumGate R} {qubits : List Nat}
    (h : Represents hP n v d b) (hvalid : ValidTargets qubits n gate.dimension) :
    GateSteady gate qubits b := by
  unfold GateSteady
  rw [h.1.chunks.shaped.numQubits]
  cases hpath : fastPath gate qubits.length with
  | hadamard =>
      have hlen := fastPath_one (Or.inl hpath)
      exact h.steady (hvalid.getD_lt (by omega)) reports_hadamardPair
  | pauliX =>
      have hlen := fastPath_one (Or.inr hpath)
      exact h.steady (hvalid.getD_lt (by omega)) reports_pauliXPair
  | controlledNot =>
      have hlen := fastPath_two (Or.inl hpath)
      exact h.steady (hvalid.getD_lt (by omega)) (reports_controlledNotPair _)
  | controlledPhaseShift theta =>
      have hlen := fastPath_two (Or.inr ⟨theta, hpath⟩)
      exact h.steady (hvalid.getD_lt (by omega)) (reports_controlledPhaseShiftPair _ theta)
  | blocks => trivial

theorem length_gateVector {gate : QuantumGate R} {qubits : List Nat} (hn : n ≤ 31)
    (h : ValidTargets qubits n gate.dimension) (hv : v.length = 2 * 2 ^ n) :
    (gateVector gate qubits n v).length = 2 * 2 ^ n := by
  unfold gateVector
  cases fastPath gate qubits.length with
  | hadamard => exact (StateVector.length_pairKernel _ n _ v).trans hv
  | pauliX => exact (StateVector.length_pairKernel _ n _ v).trans hv
  | controlledNot => exact (StateVector.length_pairKernel _ n _ v).trans hv
  | controlledPhaseShift theta => exact (StateVector.length_pairKernel _ n _ v).trans hv
  | blocks => exact StateVector.length_blockGate hn h hv

def storesVector (hP : P.Lossless) : StoresVector (R := R) (CompressedStateBackend P) where
  Rep := Represents hP
  Size n := ChunkLayout.Fits (2 ^ n) P.chunkStates
  gate := gateVector
  bound h := ⟨h.1.chunks.shaped.qubits, h.1.chunks.shaped.layout.fits, h.1.length⟩
  length_gate := length_gateVector
  initZero hn hfits := does_initZero hP _ hn hfits
  initBasis hn hfits hs := does_initBasis hP _ hn hfits hs _
  initUniformSuperposition hn hfits hne hlt :=
    does_initUniformSuperposition hP _ hn hfits hne hlt
  loadAmplitudes hn hfits hlen := does_loadAmplitudes hP _ hn hfits hlen
  exportAmplitudes h := h.answers (answers_exportAmplitudes h.1)
  forEachAmplitudeChunk h :=
    (answers_forEachAmplitudeChunk h.1).mono fun _ _ ha => ⟨ha.1, h.of_frame ha.2⟩
  amplitude h hs := h.answers (answers_amplitude h.1 hs)
  setAmplitude h hs := h.does (makes_setAmplitude h.1 hs _)
  probability h hs := h.answers (answers_probability h.1 hs)
  totalProbability h := h.answers (answers_totalProbability h.1)
  sampleMeasurement h := h.answers (answers_sampleMeasurement h.1 _)
  printNonZeroStates h := h.answers (answers_printNonZeroStates h.1 _)
  phaseFlipBasisState h hs := h.does (makes_phaseFlipBasisState h.1 hs)
  inversionAboutMean h := h.does (makes_inversionAboutMean h.1)
  inversionAboutMeanWith h := h.does (makes_inversionAboutMeanWith h.1 _)
  applyAffineTransform h := h.does (makes_applyAffineTransform h.1 _ _)
  applyHadamard h hq :=
    h.does (makes_applyHadamard h.1 hq (h.steady hq reports_hadamardPair))
  applyPauliX h hq := h.does (makes_applyPauliX h.1 hq (h.steady hq reports_pauliXPair))
  applyControlledPhaseShift h hcontrol htarget hne :=
    h.does (makes_applyControlledPhaseShift h.1 hcontrol htarget hne _
      (h.steady htarget (reports_controlledPhaseShiftPair _ _)))
  applyControlledNot h hcontrol htarget hne :=
    h.does (makes_applyControlledNot h.1 hcontrol htarget hne
      (h.steady htarget (reports_controlledNotPair _)))
  applyGate h hvalid := h.does (makes_applyGate h.1 hvalid (h.gateSteady hvalid))
  beginOperationBatch := by
    rintro n v d b ⟨hholds, hroomy, hdepth⟩
    refine (makes_beginOperationBatch hholds).mono ?_
    rintro _ b' ⟨hholds', hdepth', hkeep⟩
    exact ⟨hholds', hkeep hroomy, hdepth'.trans (by rw [hdepth])⟩
  endOperationBatch := by
    rintro n v d b ⟨hholds, hroomy, hdepth⟩
    refine (makes_endOperationBatch hholds hdepth).mono ?_
    rintro _ b' ⟨hholds', hdepth', hkeep⟩
    exact ⟨hholds', hkeep hroomy, hdepth'⟩

end Refinement

end CompressedStateBackend

end Tmfqs
