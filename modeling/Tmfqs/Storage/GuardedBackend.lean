import Tmfqs.Library.Standby
import Tmfqs.Register.LazyRefinement
import Tmfqs.Register.MirroredRuns
import Tmfqs.Storage.InterruptedRuns

/-!
# A backend that may throw beside one that does not

Every call is made on a backend whose codec may throw and on one whose codec does not.  The
pair stores a vector, and returns whatever the first backend returns.
-/

namespace Tmfqs

open Library CompressedStateBackend

/-!
## A backend with a standby
-/

section Pairs

variable {R β γ : Type} [IStateBackend R β] [IStateBackend R γ]

open Standby

instance : IStateBackend R (Standby β γ) where
  clone g :=
    { standby := IStateBackend.clone g.standby
      live := g.live.map IStateBackend.clone }
  initZero n := guard (IStateBackend.initZero n) (IStateBackend.initZero n)
  initBasis n s amp := guard (IStateBackend.initBasis n s amp) (IStateBackend.initBasis n s amp)
  initUniformSuperposition n states :=
    guard (IStateBackend.initUniformSuperposition n states)
      (IStateBackend.initUniformSuperposition n states)
  loadAmplitudes n data :=
    guard (IStateBackend.loadAmplitudes n data) (IStateBackend.loadAmplitudes n data)
  exportAmplitudes := guard IStateBackend.exportAmplitudes IStateBackend.exportAmplitudes
  forEachAmplitudeChunk :=
    guard IStateBackend.forEachAmplitudeChunk IStateBackend.forEachAmplitudeChunk
  amplitude s := guard (IStateBackend.amplitude s) (IStateBackend.amplitude s)
  setAmplitude s amp :=
    guard (IStateBackend.setAmplitude s amp) (IStateBackend.setAmplitude s amp)
  probability s := guard (IStateBackend.probability s) (IStateBackend.probability s)
  totalProbability := guard IStateBackend.totalProbability IStateBackend.totalProbability
  sampleMeasurement rnd :=
    guard (IStateBackend.sampleMeasurement rnd) (IStateBackend.sampleMeasurement rnd)
  printNonZeroStates epsilon :=
    guard (IStateBackend.printNonZeroStates epsilon) (IStateBackend.printNonZeroStates epsilon)
  phaseFlipBasisState s :=
    guard (IStateBackend.phaseFlipBasisState s) (IStateBackend.phaseFlipBasisState s)
  inversionAboutMean :=
    guard IStateBackend.inversionAboutMean IStateBackend.inversionAboutMean
  inversionAboutMeanWith mean :=
    guard (IStateBackend.inversionAboutMeanWith mean) (IStateBackend.inversionAboutMeanWith mean)
  applyAffineTransform scale bias :=
    guard (IStateBackend.applyAffineTransform scale bias)
      (IStateBackend.applyAffineTransform scale bias)
  applyHadamard q := guard (IStateBackend.applyHadamard q) (IStateBackend.applyHadamard q)
  applyPauliX q := guard (IStateBackend.applyPauliX q) (IStateBackend.applyPauliX q)
  applyControlledPhaseShift c q theta :=
    guard (IStateBackend.applyControlledPhaseShift c q theta)
      (IStateBackend.applyControlledPhaseShift c q theta)
  applyControlledNot c q :=
    guard (IStateBackend.applyControlledNot c q) (IStateBackend.applyControlledNot c q)
  applyGate gate qubits :=
    guard (IStateBackend.applyGate gate qubits) (IStateBackend.applyGate gate qubits)
  beginOperationBatch :=
    guard IStateBackend.beginOperationBatch IStateBackend.beginOperationBatch
  endOperationBatch := guard IStateBackend.endOperationBatch IStateBackend.endOperationBatch

theorem mirrors_live : Mirrors (Live : β -> Standby β γ -> Prop) where
  initBasis _ _ _ := followed_guard _ _
  initUniformSuperposition _ _ := followed_guard _ _
  loadAmplitudes _ _ := followed_guard _ _
  forEachAmplitudeChunk := followed_guard _ _
  amplitude _ := followed_guard _ _
  setAmplitude _ _ := followed_guard _ _
  totalProbability := followed_guard _ _
  sampleMeasurement _ := followed_guard _ _
  printNonZeroStates _ := followed_guard _ _
  phaseFlipBasisState _ := followed_guard _ _
  inversionAboutMeanWith _ := followed_guard _ _
  applyAffineTransform _ _ := followed_guard _ _
  applyHadamard _ := followed_guard _ _
  applyPauliX _ := followed_guard _ _
  applyControlledPhaseShift _ _ _ := followed_guard _ _
  applyControlledNot _ _ := followed_guard _ _
  applyGate _ _ := followed_guard _ _
  beginOperationBatch := followed_guard _ _
  endOperationBatch := followed_guard _ _

variable {α : Type} {x : Call β α} {y : Call γ α} {g : Standby β γ} {S : γ -> Prop}
  {T : β -> Prop}

theorem does_guard (hy : Does y g.standby S)
    (hx : forall b, Live b g -> Call.Post x b (fun _ b' => T b') (fun _ _ => True)) :
    Does (guard x y) g (Both S T) := by
  have hguard := post_guard (x := x) (A := fun _ => True) (E := fun _ => False) (S := S)
    (T := T) (Call.Post.imp hy (fun _ _ h => ⟨trivial, h⟩) (fun _ _ h => h.elim))
    (fun b hb => (hx b hb).mono fun _ _ h => ⟨trivial, h⟩)
  exact hguard.imp (fun _ _ h => h.2) (fun _ _ h => h.1)

theorem answers_guard {answer : Except ExcKind α} (hy : Answers y g.standby answer S)
    (hx : forall b, Live b g ->
      Call.Post x b (fun a b' => answer = .ok a ∧ T b') (fun _ _ => True)) :
    Answers (guard x y) g answer (Both S T) :=
  post_guard hy hx

end Pairs

def CodecPolicy.plain {R B : Type} (P : CodecPolicy R B) : CodecPolicy R R :=
  CodecPolicy.elementwise id P.chunkStates P.cacheSlots P.chunkStates_pos P.cacheSlots_ge_two

theorem CodecPolicy.lossless_plain {R B : Type} (P : CodecPolicy R B) : P.plain.Lossless :=
  CodecPolicy.lossless_elementwise P.chunkStates_pos P.cacheSlots_ge_two

/-!
## A backend whose codec may throw
-/

section Failing

variable {R B : Type} [Field R] [LinearOrder R] [CMath R] {P : CodecPolicy R B}
  {hP : P.LosslessOrThrows} {n depth : Nat} {v : List R} {b : CompressedStateBackend P}

/-- No exception so far: the backend reads as `v`. -/
def Unfailed (hP : P.LosslessOrThrows) (n : Nat) (v : List R) (depth : Nat)
    (b : CompressedStateBackend P) : Prop :=
  Carries (unmoved hP n) v b ∧ b.batchDepth = depth

theorem Unfailed.command {op : BackendOp R} {call : Call (CompressedStateBackend P) Unit}
    (h : Unfailed hP n v depth b) (hrun : op.run = BackendOp.command call)
    (hsize : op.size = none) (hvalid : op.ValidOn n depth) :
    let L : LogicalState R := { numQubits := n, amplitudes := v, depth := depth }
    Call.Post call b
      (fun _ b' => Unfailed hP n (L.vectorAfter gateVector op) (L.depthAfter op) b')
      (fun _ _ => True) := by
  rcases h with ⟨hc, rfl⟩
  have hpost := post_run hc hsize hvalid ((unmoved_exact hP).follows op)
  rw [hrun, BackendOp.command, Call.post_bind_iff] at hpost
  refine Call.Post.imp hpost ?_ (fun _ _ _ => trivial)
  rintro _ b' ⟨hcoherent, hdepth, x, hx, hwithin, _⟩
  exact ⟨⟨hcoherent, x, hx, hwithin⟩, hdepth⟩

section

omit [LinearOrder R] [CMath R]

theorem Unfailed.sees {α : Type} {call : Call (CompressedStateBackend P) α}
    {answer : Except ExcKind α} (h : Unfailed hP n v depth b)
    (hcall : ReadsAs (failing hP) n v b -> SeesAnswer (failing hP) n v call b answer) :
    Call.Post call b (fun a b' => answer = .ok a ∧ Unfailed hP n v depth b')
      (fun _ _ => True) := by
  rcases h with ⟨⟨hc, x, hx, hwithin⟩, rfl⟩
  have hxv : x = v := hwithin.1
  subst hxv
  refine Call.Post.imp (hcall hx) ?_ (fun _ _ _ => trivial)
  rintro a b' ⟨ha, hsees⟩
  exact ⟨ha, hsees.carries hc hwithin, hsees.codecOnly.batchDepth⟩

theorem Unfailed.chunks (h : Unfailed hP n v depth b) :
    Call.Post forEachAmplitudeChunk b
      (fun chunks b' => IsChunking 0 chunks v ∧ Unfailed hP n v depth b') (fun _ _ => True) := by
  rcases h with ⟨⟨hc, x, hx, hwithin⟩, rfl⟩
  have hxv : x = v := hwithin.1
  subst hxv
  refine Call.Post.imp (forEachAmplitudeChunk_sees_chunks hx) ?_ (fun _ _ _ => trivial)
  rintro chunks b' ⟨hchunks, hsees⟩
  exact ⟨hchunks, hsees.carries hc hwithin, hsees.codecOnly.batchDepth⟩

theorem Unfailed.observes {α : Type} {call : Call (CompressedStateBackend P) α}
    {q : List R -> α} (h : Unfailed hP n v depth b)
    (hcall : Carries (unmoved hP n) v b -> Call.Post call b
      (fun a b' => Observes (unmoved hP n) v b b' fun x => a = q x)
      (fun _ b' => Leaves (unmoved hP n) v b.batchDepth b')) :
    Call.Post call b (fun a b' => .ok (q v) = (.ok a : Except ExcKind α) ∧
      Unfailed hP n v depth b') (fun _ _ => True) := by
  rcases h with ⟨hc, rfl⟩
  refine Call.Post.imp (hcall hc) ?_ (fun _ _ _ => trivial)
  rintro a b' ⟨hcoherent, hdepth, x, hx, hwithin, ha⟩
  have hxv : x = v := hwithin.1
  rw [ha, hxv]
  exact ⟨rfl, ⟨hcoherent, x, hx, hwithin⟩, hdepth⟩

theorem unfailed_of_initialised (h : Initialised (failing hP) n v b)
    (hv : v.length = 2 * 2 ^ n) : Unfailed hP n v 0 b := by
  rcases h.reads hv with ⟨x, hx, hchunks⟩
  have hxv : x = v := eq_of_chunkOf P.chunkStates_pos hx.length hv hchunks
  exact ⟨⟨h.coherent, x, hx, hxv, hv⟩, h.depth⟩

theorem initZero_unfailed (b : CompressedStateBackend P) (hn : n ≤ 31)
    (hfits : ChunkLayout.Fits (2 ^ n) P.chunkStates) :
    Call.Post (initZero n) b (fun _ b' => Unfailed hP n (StateVector.zero n) 0 b')
      (fun _ _ => True) :=
  (post_initZero_initialised (failing hP) b hn hfits).mono fun _ _ h =>
    unfailed_of_initialised h (StateVector.length_zero n)

theorem initBasis_unfailed (b : CompressedStateBackend P) (hn : n ≤ 31)
    (hfits : ChunkLayout.Fits (2 ^ n) P.chunkStates) {s : Nat} (hs : s < 2 ^ n)
    (amp : Amplitude R) :
    Call.Post (initBasis n s amp) b (fun _ b' => Unfailed hP n (StateVector.basis n s amp) 0 b')
      (fun _ _ => True) := by
  have hzero : Call.Post (initZero n) b (fun _ b' => Unfailed hP n (StateVector.zero n) 0 b')
      (fun _ _ => True) := initZero_unfailed b hn hfits
  rw [initBasis, Call.post_bind_iff]
  refine hzero.mono ?_
  rintro _ b1 ⟨h1, hdepth1⟩
  rw [Call.post_bind_iff, Call.post_get, h1.shaped.numStates, validateStateIndex_ok _ hn hs,
    pure_bind, Call.post_bind_iff]
  have hrespects := (unmoved_exact hP (n := n)).respects (f := fun v => setAmp v s amp)
    fun w hw => (length_setAmp w s amp).trans hw
  refine (post_writeAmplitudeMutable_carries h1 hs amp hrespects).imp ?_ (fun _ _ _ => trivial)
  rintro _ b2 ⟨h2, hframe2⟩
  refine (post_flushCacheIfNeeded_carries h2).imp ?_ (fun _ _ _ => trivial)
  rintro _ b3 ⟨h3, hframe3⟩
  exact ⟨h3, (hframe3.batchDepth.trans hframe2.batchDepth).trans hdepth1⟩

end

omit [LinearOrder R] in
theorem initUniformSuperposition_unfailed (b : CompressedStateBackend P) (hn : n ≤ 31)
    (hfits : ChunkLayout.Fits (2 ^ n) P.chunkStates) {states : List Nat} (hne : states ≠ [])
    (hlt : forall s, s ∈ states -> s < 2 ^ n) :
    Call.Post (initUniformSuperposition n states) b
      (fun _ b' => Unfailed hP n (StateVector.uniform n states) 0 b') (fun _ _ => True) :=
  (post_initUniformSuperposition_initialised (failing hP) b hn hfits hne hlt).mono fun _ _ h =>
    unfailed_of_initialised h (StateVector.length_uniform n states)

omit [LinearOrder R] [CMath R] in
theorem loadAmplitudes_unfailed (b : CompressedStateBackend P) (hn : n ≤ 31)
    (hfits : ChunkLayout.Fits (2 ^ n) P.chunkStates) (hv : v.length = 2 * 2 ^ n) :
    Call.Post (loadAmplitudes n v) b (fun _ b' => Unfailed hP n v 0 b') (fun _ _ => True) := by
  refine (post_loadAmplitudes_loaded (failing hP) b hn hfits hv).mono ?_
  rintro _ b' ⟨x, hx⟩
  exact ⟨hx.carries hv, hx.depth⟩

/-!
## The pair
-/

/-- A backend whose codec may throw, with one of the same settings whose codec does not. -/
abbrev Guarded (P : CodecPolicy R B) : Type :=
  Standby (CompressedStateBackend P) (CompressedStateBackend P.plain)

abbrev reference (P : CodecPolicy R B) : StoresVector (R := R) (CompressedStateBackend P.plain) :=
  CompressedStateBackend.storesVector P.lossless_plain

/-- Both backends store `v`, the first one while it has not failed. -/
def Guards (hP : P.LosslessOrThrows) (n : Nat) (v : List R) (depth : Nat) : Guarded P -> Prop :=
  Standby.Both ((reference P).Rep n v depth) (Unfailed hP n v depth)

theorem Guards.command {g : Guarded P} {v' : List R} {depth' : Nat}
    {x : Call (CompressedStateBackend P) Unit} {y : Call (CompressedStateBackend P.plain) Unit}
    (h : Guards hP n v depth g) (op : BackendOp R) (hrun : op.run = BackendOp.command x)
    (hsize : op.size = none) (hvalid : op.ValidOn n depth)
    (hy : Does y g.standby ((reference P).Rep n v' depth'))
    (hv' : ({ numQubits := n, amplitudes := v, depth := depth } : LogicalState R).vectorAfter
      gateVector op = v')
    (hdepth' : ({ numQubits := n, amplitudes := v, depth := depth } : LogicalState R).depthAfter
      op = depth') :
    Does (Standby.guard x y) g (Guards hP n v' depth') := by
  refine does_guard hy fun b hb => ?_
  rw [← hv', ← hdepth']
  exact (h.2 b hb).command hrun hsize hvalid

def guardedStoresVector (hP : P.LosslessOrThrows) : StoresVector (R := R) (Guarded P) where
  Rep := Guards hP
  Size n := ChunkLayout.Fits (2 ^ n) P.chunkStates
  gate := gateVector
  bound h := (reference P).bound h.1
  length_gate := length_gateVector
  initZero hn hfits :=
    does_guard ((reference P).initZero hn hfits) fun b _ => initZero_unfailed b hn hfits
  initBasis hn hfits hs :=
    does_guard ((reference P).initBasis hn hfits hs) fun b _ => initBasis_unfailed b hn hfits hs _
  initUniformSuperposition hn hfits hne hlt :=
    does_guard ((reference P).initUniformSuperposition hn hfits hne hlt)
      fun b _ => initUniformSuperposition_unfailed b hn hfits hne hlt
  loadAmplitudes hn hfits hlen :=
    does_guard ((reference P).loadAmplitudes hn hfits hlen)
      fun b _ => loadAmplitudes_unfailed b hn hfits hlen
  exportAmplitudes h :=
    answers_guard ((reference P).exportAmplitudes h.1)
      fun b hb => (h.2 b hb).sees exportAmplitudes_seesAnswer
  forEachAmplitudeChunk h :=
    Call.Post.imp
      (Standby.post_guard (E := fun _ => False)
        (((reference P).forEachAmplitudeChunk h.1).imp (fun _ _ hc => hc) (fun _ _ he => he.elim))
        fun b hb => (h.2 b hb).chunks)
      (fun _ _ hc => hc) (fun _ _ he => he.1)
  amplitude h hs :=
    answers_guard ((reference P).amplitude h.1 hs)
      fun b hb => (h.2 b hb).observes fun hc => post_amplitude_observes hc hs
  setAmplitude h hs :=
    h.command (.setAmplitude _ _) rfl rfl hs ((reference P).setAmplitude h.1 hs) rfl rfl
  probability h hs :=
    answers_guard ((reference P).probability h.1 hs)
      fun b hb => (h.2 b hb).observes fun hc => post_probability_observes hc hs
  totalProbability h :=
    answers_guard ((reference P).totalProbability h.1)
      fun b hb => (h.2 b hb).sees totalProbability_seesAnswer
  sampleMeasurement h :=
    answers_guard ((reference P).sampleMeasurement h.1)
      fun b hb => (h.2 b hb).sees fun hx => sampleMeasurement_seesAnswer hx _
  printNonZeroStates h :=
    answers_guard ((reference P).printNonZeroStates h.1)
      fun b hb => (h.2 b hb).sees fun hx => printNonZeroStates_seesAnswer hx _
  phaseFlipBasisState h hs :=
    h.command (.phaseFlipBasisState _) rfl rfl hs ((reference P).phaseFlipBasisState h.1 hs) rfl rfl
  inversionAboutMean h :=
    h.command .inversionAboutMean rfl rfl trivial ((reference P).inversionAboutMean h.1) rfl rfl
  inversionAboutMeanWith h :=
    h.command (.inversionAboutMeanWith _) rfl rfl trivial
      ((reference P).inversionAboutMeanWith h.1) rfl rfl
  applyAffineTransform h :=
    h.command (.applyAffineTransform _ _) rfl rfl trivial
      ((reference P).applyAffineTransform h.1) rfl rfl
  applyHadamard h hq :=
    h.command (.applyHadamard _) rfl rfl hq ((reference P).applyHadamard h.1 hq) rfl rfl
  applyPauliX h hq :=
    h.command (.applyPauliX _) rfl rfl hq ((reference P).applyPauliX h.1 hq) rfl rfl
  applyControlledPhaseShift h hcontrol htarget hne :=
    h.command (.applyControlledPhaseShift _ _ _) rfl rfl ⟨hcontrol, htarget, hne⟩
      ((reference P).applyControlledPhaseShift h.1 hcontrol htarget hne) rfl rfl
  applyControlledNot h hcontrol htarget hne :=
    h.command (.applyControlledNot _ _) rfl rfl ⟨hcontrol, htarget, hne⟩
      ((reference P).applyControlledNot h.1 hcontrol htarget hne) rfl rfl
  applyGate h hvalid :=
    h.command (.applyGate _ _) rfl rfl hvalid ((reference P).applyGate h.1 hvalid) rfl rfl
  beginOperationBatch h :=
    h.command .beginOperationBatch rfl rfl trivial ((reference P).beginOperationBatch h.1) rfl rfl
  endOperationBatch h :=
    h.command .endOperationBatch rfl rfl (Nat.succ_pos _)
      ((reference P).endOperationBatch h.1) rfl rfl

theorem endsUnmatched_guarded (hP : P.LosslessOrThrows) :
    QuantumRegister.EndsUnmatched (guardedStoresVector hP) (.error .logicError) := by
  intro n v r h
  rcases h.stored with ⟨w, hw, hv⟩
  have hend := Standby.post_guard (A := fun _ => False) (E := fun e => e.kind = .logicError)
    (S := (reference P).Rep n w 0) (T := Unfailed hP n w 0)
    ((endOperationBatch_of_closed hw.1.2.2).imp (fun _ _ hf => hf.elim) ?_) fun b hb =>
      (endOperationBatch_of_closed (hw.2 b hb).2).imp (fun _ _ hf => hf.elim)
        (fun _ _ _ => trivial)
  · rw [RegisterOp.run, BackendOp.command, Call.post_bind_iff]
    refine (QuantumRegister.post_onBackend hend).imp ?_ ?_
    · rintro _ _ ⟨g, hf, _⟩
      exact hf.1.elim
    · rintro e _ ⟨g, ⟨he, hg⟩, rfl⟩
      exact ⟨by rw [he], h.moved hg hv⟩
  · rintro e c ⟨he, rfl⟩
    exact ⟨he, hw.1⟩

end Failing

end Tmfqs
