import Tmfqs.Storage.FailingCodecs
import Tmfqs.Storage.TolerantCalls
import Tmfqs.Storage.TolerantInit

/-!
# Runs under codecs that may throw

A codec may throw at any call.  A backend call that returns has done all of its operation;
one that throws has left every amplitude as it was or as the operation makes it.  This holds
along every run whose cache an exception has not corrupted.
-/

namespace Tmfqs

open Library ChunkCache

/-!
## Calls on a vector that may throw
-/

namespace LogicalState

variable {R : Type} [Field R] [LinearOrder R] [CMath R]

def after (L : LogicalState R) (op : BackendOp R) : LogicalState R :=
  { L with
    amplitudes := L.vectorAfter CompressedStateBackend.gateVector op
    depth := L.depthAfter op }

/-- One call on a vector: it is done, or throws with some amplitudes as they were. -/
inductive Step (L : LogicalState R) (op : BackendOp R) :
    Except Exc (Answer R) -> LogicalState R -> Prop where
  | returned {a : Answer R} (ha : L.answer op = .ok a) : L.Step op (.ok a) (L.after op)
  | interrupted {e : Exc} {w : List R}
      (hw : Mixes L.numQubits L.amplitudes (L.after op).amplitudes w) :
      L.Step op (.error e) { L.after op with amplitudes := w }

end LogicalState

theorem eq_of_chunkOf {R : Type} [Field R] {k N : Nat} (hk : 1 ≤ k) {v w : List R}
    (hv : v.length = 2 * N) (hw : w.length = 2 * N)
    (h : forall c, chunkOf k v c = chunkOf k w c) : v = w := by
  apply eq_of_ampAt hv hw
  intro s _
  rw [← readAmp_chunkOf hk v s, h, readAmp_chunkOf hk]

namespace CompressedStateBackend

variable {R B : Type} [Field R] {P : CodecPolicy R B} {n : Nat} {v : List R}
  {b : CompressedStateBackend P}

section Failing

variable (hP : P.LosslessOrThrows)

/-- A codec that keeps what it is given, unless it throws. -/
def failing : Tolerance P where
  store := ChunkVector.failingStore hP
  sized _ := rfl
  Close := Eq
  refl _ := rfl
  round _ _ := rfl

def unmoved (n : Nat) : Drift (failing hP) n where
  Within _ x v := x = v ∧ v.length = 2 * 2 ^ n
  length h := h.2
  moved := by
    rintro _ x x' _ hx ⟨rfl, hv⟩ ⟨hlen, w, hothers, hclose⟩
    refine ⟨eq_of_chunkOf P.chunkStates_pos (hlen.trans hx) hv ?_, hv⟩
    intro c
    by_cases hc : c = w
    · rw [hc]
      exact hclose
    · exact hothers c hc

theorem unmoved_exact : (unmoved hP n).Exact :=
  fun _ _ _ => Iff.rfl

variable {hP}

theorem Loaded.carries {x : List R} (h : Loaded (failing hP) n v x b)
    (hv : v.length = 2 * 2 ^ n) : Carries (unmoved hP n) v b := by
  have hx : x = v := eq_of_chunkOf P.chunkStates_pos h.reads.length hv h.rounded
  exact ⟨h.coherent, x, h.reads, hx, hv⟩

end Failing

section Runs

variable [LinearOrder R] [CMath R]

theorem Drift.Exact.follows {T : Tolerance P} {D : Drift T n} (hexact : D.Exact)
    (op : BackendOp R) : D.Follows op := by
  have hkernel : forall kernel, D.RespectsKernel kernel :=
    fun kernel p _ _ _ =>
      hexact.respects fun w hw => (StateVector.length_pairStep kernel w p).trans hw
  have hmap : forall f, D.RespectsMap f :=
    fun f k => hexact.respects fun w hw => (length_mapChunk w k).trans hw
  cases op with
  | setAmplitude s amp => exact hexact.respects fun w hw => (length_setAmp w s amp).trans hw
  | phaseFlipBasisState s =>
      exact hexact.respects fun w hw => (StateVector.length_phaseFlip w s).trans hw
  | inversionAboutMean => exact hexact
  | inversionAboutMeanWith mean => exact hmap _
  | applyAffineTransform scale bias => exact hmap _
  | applyHadamard q => exact hkernel _
  | applyPauliX q => exact hkernel _
  | applyControlledPhaseShift c q theta => exact hkernel _
  | applyControlledNot c q => exact hkernel _
  | applyGate gate qubits =>
      unfold Drift.Follows
      cases hpath : fastPath gate qubits.length with
      | hadamard =>
          simp only [hpath]
          exact hkernel _
      | pauliX =>
          simp only [hpath]
          exact hkernel _
      | controlledNot =>
          simp only [hpath]
          exact hkernel _
      | controlledPhaseShift theta =>
          simp only [hpath]
          exact hkernel _
      | blocks =>
          simp only [hpath]
          exact hexact
  | _ => trivial

/-- A call the register lets through, on a cache whose slots and chunks agree. -/
def Issued (n : Nat) (op : BackendOp R) (b : CompressedStateBackend P) : Prop :=
  op.size = none ∧ op.ValidOn n b.batchDepth ∧ b.cache.Represented

/-- The backend reads as the vector of `L`, whether or not its cache is corrupt. -/
def Left (hP : P.LosslessOrThrows) (n : Nat) (L : LogicalState R)
    (b : CompressedStateBackend P) : Prop :=
  L.numQubits = n ∧ Leaves (unmoved hP n) L.amplitudes L.depth b

/-- Every call is a step of the vector, and leaves a backend that reads as it. -/
theorem Left.run {hP : P.LosslessOrThrows} {L : LogicalState R} (h : Left hP n L b)
    {op : BackendOp R} (hissued : Issued n op b) :
    exists L', L.Step op (op.run b).1 L' ∧ Left hP n L' (op.run b).2 := by
  rcases h with ⟨rfl, hl⟩
  rcases hissued with ⟨hsize, hvalid, hrep⟩
  have hstate : stateOf L.numQubits L.amplitudes b = L := by
    rw [stateOf, hl.2.1]
  have hrun := post_run (hl.carries hrep) hsize hvalid ((unmoved_exact hP).follows op)
  rw [hstate] at hrun
  unfold Call.Post at hrun
  rcases hcall : op.run b with ⟨r, b'⟩
  rw [hcall] at hrun
  cases r with
  | ok a =>
      rcases hrun with ⟨hc, hdepth, x, hx, ⟨rfl, hlen⟩, ha⟩
      -- the answer is about a vector that equals the one after the call
      have hanswer : L.answer op = .ok a := by
        rw [← ha]
        cases op <;> rfl
      exact ⟨_, LogicalState.Step.returned hanswer, rfl, fun _ => hc, hdepth,
        L.vectorAfter gateVector op, hx, rfl, hlen⟩
  | error e =>
      rcases hrun with ⟨w, hw, hleaves⟩
      exact ⟨_, LogicalState.Step.interrupted hw, rfl, hleaves⟩

/--
Along every run on a cache that is not corrupt each call that returns has done its operation
and answered for it, and each call that throws leaves every amplitude old or new.  What the
backend exports in the end, also from a corrupt cache, is the vector this gives.
-/
theorem interrupted_calls_old_or_new (hP : P.LosslessOrThrows) (hn : n ≤ 31)
    (hfits : ChunkLayout.Fits (2 ^ n) P.chunkStates) (hv : v.length = 2 * 2 ^ n)
    (b : CompressedStateBackend P) (hload : (loadAmplitudes n v b).1 = .ok ())
    {ops : List (BackendOp R)} (hissued : Along BackendOp.run (Issued n) ops
      (loadAmplitudes n v b).2) :
    exists L, StepsTo LogicalState.Step { numQubits := n, amplitudes := v, depth := 0 } ops
        (outcomes BackendOp.run ops (loadAmplitudes n v b).2) L ∧
      Call.Post exportAmplitudes (reached BackendOp.run ops (loadAmplitudes n v b).2)
        (fun out _ => out = L.amplitudes) (fun _ _ => True) := by
  have hloaded := post_loadAmplitudes_loaded (failing hP) b hn hfits hv
  unfold Call.Post at hloaded
  rcases hcall : loadAmplitudes n v b with ⟨r, b0⟩
  rw [hcall] at hload hloaded hissued
  simp only at hload
  subst hload
  rcases hloaded with ⟨x, hx⟩
  have hstart : Left hP n { numQubits := n, amplitudes := v, depth := 0 } b0 := by
    refine ⟨rfl, ?_⟩
    rw [← hx.depth]
    exact (hx.carries hv).leaves
  rcases trace_stepsTo (fun op L b h hop => h.run hop) hstart hissued with
    ⟨L, hsteps, rfl, _, _, x', hx', rfl, _⟩
  refine ⟨L, hsteps, ?_⟩
  refine Call.Post.imp (exportAmplitudes_seesAnswer hx') ?_ (fun _ _ _ => trivial)
  rintro out _ ⟨hout, _⟩
  exact (Except.ok.inj hout).symm

def throwsFourth : CodecPolicy Real Real :=
  CodecPolicy.scripted Real [false, false, false, true] 1 2 Nat.one_pos Nat.one_lt_two

/-- The first chunk is written and cannot be stored. -/
theorem interrupted_calls_old_or_new_flush :
    let ops : List (BackendOp Real) := [.setAmplitude 0 { real := 0, imag := 1 }]
    exists L, StepsTo LogicalState.Step
        { numQubits := 1, amplitudes := ([1, 0, 0, 0] : List Real), depth := 0 } ops
        (outcomes BackendOp.run ops (loadAmplitudes 1 [1, 0, 0, 0] (make throwsFourth)).2) L ∧
      Call.Post exportAmplitudes
        (reached BackendOp.run ops (loadAmplitudes 1 [1, 0, 0, 0] (make throwsFourth)).2)
        (fun out _ => out = L.amplitudes) (fun _ _ => True) := by
  intro ops
  have hP : throwsFourth.LosslessOrThrows := CodecPolicy.losslessOrThrows_scripted _ _ _
  have hfits : ChunkLayout.Fits (2 ^ 1) throwsFourth.chunkStates := by decide
  have hv : ([1, 0, 0, 0] : List Real).length = 2 * 2 ^ 1 := rfl
  have hload : (loadAmplitudes 1 [1, 0, 0, 0] (make throwsFourth)).1 = .ok () := rfl
  have hloaded := post_loadAmplitudes_loaded (failing hP) (make throwsFourth) (by decide) hfits hv
  have hrep : (loadAmplitudes 1 [1, 0, 0, 0] (make throwsFourth)).2.cache.Represented := by
    rcases hloaded with ⟨x, hx⟩
    exact hx.coherent.represented
  exact interrupted_calls_old_or_new hP (by decide) hfits hv (make throwsFourth) hload
    ⟨⟨rfl, show 0 < 2 ^ 1 by decide, hrep⟩, trivial⟩

end Runs

end CompressedStateBackend

end Tmfqs
