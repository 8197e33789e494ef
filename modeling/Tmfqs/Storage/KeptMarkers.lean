import Tmfqs.Storage.CompressedRefinement
import Tmfqs.Model.PairAction
import Tmfqs.Storage.ConstQueries

/-!
# Dirty markers of pair kernels

A step of a pair kernel acquires two chunks and then writes through both handles.  The
marker of the first handle survives the second acquisition exactly when that one does not
move the slots, and while no step moves them no write is lost, also on copies.
-/

namespace Tmfqs

open Library ChunkCache PairKernelExecutor

namespace CompressedStateBackend

variable {R B : Type} [Field R] {P : CodecPolicy R B} {round : List R -> List R}
  {hR : P.Rounds round} {hP : P.Lossless} {n bit : Nat} {v : List R} {kernel : PairKernel R}
  {b : CompressedStateBackend P}

/-!
## The marker of one step
-/

/-- After both acquisitions the first handle of a generic step denotes its live slot. -/
def FallbackKeeps (p : Nat × Nat) (b : CompressedStateBackend P) : Prop :=
  forall refs b', fallbackRefs p.1 p.2 b = (.ok refs, b') ->
    LiveHandle b' (p.1 / P.chunkStates) refs.1.slot

def InterKeeps (p : Nat × Nat) (t : CompressedStateBackend P × Cursor × Cursor) : Prop :=
  forall slots t', interSlots (p.1 / P.chunkStates) (p.2 / P.chunkStates) t = (.ok slots, t') ->
    LiveHandle t'.1 (p.1 / P.chunkStates) slots.1

section Fetched

variable {b1 b2 : CompressedStateBackend P} {j k : Nat} {first second : SlotHandle}

section

omit [Field R]

theorem Fetches.liveHandle (h : Fetches hR n b k first b1) : LiveHandle b1 k first := by
  rcases h.acquired with ⟨_, hacq⟩
  exact ⟨hacq.chunkIndex, hacq.isLive, hacq.denotes⟩

theorem Fetches.second_denotes_iff (h1 : Fetches hR n b j first b1)
    (h2 : Fetches hR n b1 k second b2) :
    b2.cache.denotesDirty first <-> b.cache.SecondStays j k := by
  rcases h1.acquired with ⟨_, hacq1⟩
  rcases h2.acquired with ⟨_, hacq2⟩
  exact hacq1.second_denotes_iff hacq2

theorem Fetches.first_live (h1 : Fetches hR n b j first b1) (h2 : Fetches hR n b1 k second b2)
    (hj : j < b.layout.chunkCount) (hk : k < b.layout.chunkCount)
    (hstays : b.cache.SecondStays j k) : LiveHandle b2 j first := by
  rcases h1.acquired with ⟨_, hacq1⟩
  rcases h2.acquired with ⟨_, hacq2⟩
  have hslots := P.cacheSlots_ge_two
  have hcapacity := h1.sound.shaped.capacity
  rw [h1.layout] at hcapacity
  have hlive := hacq1.second_live hacq2 (by
    rw [← hacq1.shape.capacity]
    omega)
  exact ⟨hacq1.chunkIndex, hlive, (h1.second_denotes_iff h2).mpr hstays⟩

end

end Fetched

theorem Sound.post_acquireAmplitudeRef (h : Sound hR n b) {state : Nat} (hs : state < 2 ^ n) :
    Call.Post (acquireAmplitudeRef state) b
      (fun ref b' => Fetches hR n b (state / P.chunkStates) ref.slot b') (fun _ _ => False) := by
  have href := h.shaped.layout.stateRef_eq (s := state)
  rw [acquireAmplitudeRef, Call.post_bind_iff, Call.post_get]
  simp only [href]
  rw [Call.post_bind_iff]
  exact (h.post_acquireChunk (h.shaped.layout.div_lt_chunkCount hs)).mono fun _ _ hf => hf

theorem Sound.post_fallbackRefs (h : Sound hR n b) {s0 s1 : Nat} (hs0 : s0 < 2 ^ n)
    (hs1 : s1 < 2 ^ n) :
    Call.Post (fallbackRefs s0 s1) b
      (fun refs b' => exists b1, Fetches hR n b (s0 / P.chunkStates) refs.1.slot b1 ∧
        Fetches hR n b1 (s1 / P.chunkStates) refs.2.slot b')
      (fun _ _ => False) := by
  rw [fallbackRefs, Call.post_bind_iff]
  refine (h.post_acquireAmplitudeRef hs0).mono ?_
  intro ref0 b1 hfetched0
  rw [Call.post_bind_iff]
  refine (hfetched0.sound.post_acquireAmplitudeRef hs1).mono ?_
  intro ref1 b2 hfetched1
  exact ⟨b1, hfetched0, hfetched1⟩

theorem fallbackKeeps_iff (h : Sound hR n b) {p : Nat × Nat} (hs0 : p.1 < 2 ^ n)
    (hs1 : p.2 < 2 ^ n) : FallbackKeeps p b <-> PairStays p b := by
  have hlayout := h.shaped.layout
  rcases (h.post_fallbackRefs hs0 hs1).exists_ok with ⟨refs, b', hrun, b1, hfetched0, hfetched1⟩
  constructor
  · intro hkeeps
    exact (hfetched0.second_denotes_iff hfetched1).mp (hkeeps refs b' hrun).denotes
  · intro hstays refs' b'' hrun'
    rw [hrun] at hrun'
    cases hrun'
    exact hfetched0.first_live hfetched1 (hlayout.div_lt_chunkCount hs0)
      (hlayout.div_lt_chunkCount hs1) hstays

/-- The step has the first chunk already, and the second one with it, or acquires both. -/
theorem post_interSlots_fetches {t : CompressedStateBackend P × Cursor × Cursor}
    {delta k : Nat} (h : Sound hR n t.1) (hcursors : CursorsLive delta t)
    (hk : k + delta < t.1.layout.chunkCount) :
    Call.Post (interSlots k (k + delta)) t
      (fun slots t' => t'.2 = (some (k, slots.1), some (k + delta, slots.2)) ∧
        Sound hR n t'.1 ∧ LiveHandle t'.1 (k + delta) slots.2 ∧
        ((LiveHandle t'.1 k slots.1 ∧ t.1.cache.slotOf (k + delta) ≠ none) ∨
          exists b1, Fetches hR n t.1 k slots.1 b1 ∧
            Fetches hR n b1 (k + delta) slots.2 t'.1))
      (fun _ _ => False) := by
  obtain ⟨b, cursor0, cursor1⟩ := t
  rw [interSlots, Call.post_bind_iff, Call.post_get]
  simp only
  rcases hcursors.moves k with ⟨first, second, rfl, rfl, hh0, hh1⟩ | ⟨hmove0, hmove1⟩
  · rw [moveCursor, if_neg (fun hne => hne rfl), moveCursor, if_neg (fun hne => hne rfl),
      Call.post_bind_iff, Call.post_onObject_iff, Call.post_pure, Call.post_bind_iff,
      Call.post_onObject_iff, Call.post_pure, Call.post_bind_iff, Call.post_modify,
      Call.post_pure]
    refine ⟨rfl, h, hh1, Or.inl ⟨hh0, ?_⟩⟩
    rw [hh1.slotOf]
    exact Option.some_ne_none _
  · rw [hmove0, hmove1, Call.post_bind_iff, Call.post_onObject_iff]
    refine (h.post_acquireChunk (Nat.lt_of_le_of_lt (Nat.le_add_right k delta) hk)).mono ?_
    intro first b1 hfetched0
    rw [Call.post_bind_iff, Call.post_onObject_iff]
    have hk1 : k + delta < b1.layout.chunkCount := by
      rw [hfetched0.layout]
      exact hk
    refine (hfetched0.sound.post_acquireChunk hk1).mono ?_
    intro second b2 hfetched1
    rw [Call.post_bind_iff, Call.post_modify, Call.post_pure]
    exact ⟨rfl, hfetched1.sound, hfetched1.liveHandle, Or.inr ⟨b1, hfetched0, hfetched1⟩⟩

section InterStep

variable {t : CompressedStateBackend P × Cursor × Cursor} {delta : Nat} {p : Nat × Nat}
  (h : Sound hR n t.1) (hcursors : CursorsLive delta t) (hs1 : p.2 < 2 ^ n)
  (hchunk : p.2 / P.chunkStates = p.1 / P.chunkStates + delta)
include h hcursors hs1 hchunk

theorem post_interSlots_live (hstays : PairStays p t.1) :
    Call.Post (interSlots (p.1 / P.chunkStates) (p.2 / P.chunkStates)) t
      (fun slots t' =>
        t'.2 = (some (p.1 / P.chunkStates, slots.1), some (p.1 / P.chunkStates + delta, slots.2)) ∧
        Sound hR n t'.1 ∧ LiveHandle t'.1 (p.1 / P.chunkStates) slots.1 ∧
        LiveHandle t'.1 (p.1 / P.chunkStates + delta) slots.2)
      (fun _ _ => False) := by
  have hk1 := h.shaped.layout.div_lt_chunkCount hs1
  rw [PairStays, hchunk] at hstays
  rw [hchunk] at hk1 ⊢
  have hk0 := Nat.lt_of_le_of_lt (Nat.le_add_right _ delta) hk1
  refine (post_interSlots_fetches h hcursors hk1).mono ?_
  rintro slots t' ⟨hset, hsound, hlive1, ⟨hlive0, _⟩ | ⟨b1, hfetched0, hfetched1⟩⟩
  · exact ⟨hset, hsound, hlive0, hlive1⟩
  · exact ⟨hset, hsound, hfetched0.first_live hfetched1 hk0 hk1 hstays, hlive1⟩

theorem interKeeps_iff : InterKeeps p t <-> PairStays p t.1 := by
  constructor
  · intro hkeeps
    have hk1 := h.shaped.layout.div_lt_chunkCount hs1
    rw [hchunk] at hk1
    rw [InterKeeps, hchunk] at hkeeps
    rw [PairStays, hchunk]
    rcases (post_interSlots_fetches h hcursors hk1).exists_ok with
      ⟨slots, t', hrun, _, _, _, ⟨_, hcached⟩ | ⟨b1, hfetched0, hfetched1⟩⟩
    · exact Or.inr (Or.inl hcached)
    · exact (hfetched0.second_denotes_iff hfetched1).mp (hkeeps slots t' hrun).denotes
  · intro hstays slots t' hrun
    rcases (post_interSlots_live h hcursors hs1 hchunk hstays).exists_ok with
      ⟨slots', t'', hrun', _, _, hlive, _⟩
    rw [hrun] at hrun'
    cases hrun'
    exact hlive

end InterStep

/-!
## Handles while both buffers are written
-/

section Written

variable {k : Nat} {handle : SlotHandle}

abbrev KeepsLive {α : Type} (k : Nat) (handle : SlotHandle)
    (x : Call (CompressedStateBackend P) α) : Prop :=
  Call.Maintains (fun b => LiveHandle b k handle) (fun _ _ => False) x

section

omit [Field R]

theorem keepsLive_modifyCache {f : ChunkCache R -> ChunkCache R}
    (hslotOf : forall c j, (f c).slotOf j = c.slotOf j)
    (hstorage : forall c, (f c).storage = c.storage) :
    KeepsLive k handle (modifyCache f : Call (CompressedStateBackend P) Unit) :=
  Call.maintains_modify fun b hh =>
    { chunkIndex := hh.chunkIndex
      live := (hslotOf b.cache handle.chunkIndex).trans hh.live
      denotes := hh.denotes.trans (hstorage b.cache).symm }

theorem keepsLive_writeData (other : SlotHandle) (f : List R -> List R) :
    KeepsLive k handle (modifyCache fun c => c.writeData other f :
      Call (CompressedStateBackend P) Unit) :=
  keepsLive_modifyCache (fun c => touch_slotOf c other f false)
    (fun c => touch_storage c other f false)

theorem keepsLive_setDirty (other : SlotHandle) (touched : Bool) :
    KeepsLive k handle (modifyCache fun c => if touched then c.setDirty other else c :
      Call (CompressedStateBackend P) Unit) := by
  apply keepsLive_modifyCache
  · intro c j
    unfold setDirty
    split
    · split <;> rfl
    · rfl
  · intro c
    unfold setDirty
    split
    · split <;> rfl
    · rfl

end

theorem keepsLive_runOnData (kernel : PairKernel R) (state0 state1 : Nat) (slot0 : SlotHandle)
    (elem0 : Nat) (slot1 : SlotHandle) (elem1 : Nat) :
    KeepsLive k handle (runOnData kernel state0 state1 slot0 elem0 slot1 elem1 :
      Call (CompressedStateBackend P) PairMutation) := by
  apply Call.maintains_get_bind
  intro b hh
  exact ((keepsLive_writeData slot0 _).bind fun _ =>
    (keepsLive_writeData slot1 _).bind fun _ => Call.maintains_pure _) b hh

omit [Field R] in
theorem keepsLive_markTouched (mutation : PairMutation) (slot0 slot1 : SlotHandle) :
    KeepsLive k handle (markTouched mutation slot0 slot1 :
      Call (CompressedStateBackend P) PUnit) :=
  (keepsLive_setDirty slot0 (touchesFirst mutation)).bind fun _ =>
    keepsLive_setDirty slot1 (touchesSecond mutation)

end Written

/-- A step that moves no slot leaves its cursors live, whatever the codec makes of a chunk. -/
theorem Sound.post_interStep {t : CompressedStateBackend P × Cursor × Cursor} {delta : Nat}
    {p : Nat × Nat} (h : Sound hR n t.1) (hcursors : CursorsLive delta t) (hs1 : p.2 < 2 ^ n)
    (hchunk : p.2 / P.chunkStates = p.1 / P.chunkStates + delta) (hstays : PairStays p t.1) :
    Call.Post (interStep kernel p) t (fun _ t' => CursorsLive delta t' ∧ Sound hR n t'.1)
      (fun _ _ => False) := by
  rw [interStep, interCallback, Call.post_bind_iff]
  refine (post_interSlots_live h hcursors hs1 hchunk hstays).mono ?_
  rintro ⟨first, second⟩ ⟨b1, cursors⟩ ⟨hset, hsound, hlive0, hlive1⟩
  simp only at hset hsound hlive0 hlive1 ⊢
  rw [Call.post_bind_iff, Call.post_onObject_iff]
  refine ((safe_runOnData kernel p.1 p.2 first _ second _ b1 hsound).and
    ((keepsLive_runOnData kernel p.1 p.2 first _ second _ b1 hlive0).and
      (keepsLive_runOnData kernel p.1 p.2 first _ second _ b1 hlive1))).imp ?_
    (fun _ _ he => he.1)
  rintro mutation b2 ⟨hsound2, hlive0, hlive1⟩
  rw [Call.post_onObject_iff]
  refine ((safe_markTouched mutation first second b2 hsound2).and
    ((keepsLive_markTouched mutation first second b2 hlive0).and
      (keepsLive_markTouched mutation first second b2 hlive1))).imp ?_
    (fun _ _ he => he.1)
  rintro _ b3 ⟨hsound3, hlive0, hlive1⟩
  exact ⟨Or.inr ⟨_, first, second, hset, hlive0, hlive1⟩, hsound3⟩

/-!
## The markers of a whole kernel
-/

/-- In every step of the kernel the first handle survives the second acquisition. -/
def KernelKeeps (kernel : PairKernel R) (bit : Nat) (b : CompressedStateBackend P) : Prop :=
  match selectMode b.layout (2 ^ bit) with
  | .intraChunk => True
  | .interChunk =>
      Along (interStep kernel) InterKeeps (pairList b.numQubits bit) (b, none, none)
  | .fallback => Along (fallbackStep kernel) FallbackKeeps (pairList b.numQubits bit) b

theorem kernelKeeps_iff (h : Sound hR n b) (hbit : bit < n) :
    KernelKeeps kernel bit b <-> KernelSteady kernel bit b := by
  have hlayout := h.shaped.layout
  rw [KernelKeeps, KernelSteady, h.shaped.numQubits]
  cases hmode : selectMode b.layout (2 ^ bit) with
  | intraChunk => exact Iff.rfl
  | fallback =>
      refine along_iff (I := Sound hR n) ?_ h
      intro p b1 hp h1
      obtain ⟨hs0, hs1, _⟩ := StateVector.mem_pairList hbit hp
      refine ⟨fallbackKeeps_iff h1 hs0 hs1, fun _ => ?_⟩
      exact Call.Post.state (I := Sound hR n)
        ((safe_fallbackCallback kernel hs0 hs1 b1 h1).imp (fun _ _ h2 => h2)
          (fun _ _ he => he.elim))
  | interChunk =>
      obtain ⟨c, hc⟩ := exists_power_of_exact hlayout (by rw [hmode]; simp)
      rw [hc] at hlayout
      refine along_iff (I := fun t => CursorsLive (2 ^ (bit - c)) t ∧ Sound hR n t.1) ?_
        ⟨Or.inl rfl, h⟩
      rintro p t hp ⟨hcursors, h1⟩
      obtain ⟨_, hs1, _⟩ := StateVector.mem_pairList hbit hp
      have hchunk := (chunks_of_mem_pairList hbit hp (le_of_interChunk hlayout hmode)).1
      rw [← hc] at hchunk
      have hiff := interKeeps_iff h1 hcursors hs1 hchunk
      refine ⟨hiff, fun hkeeps => ?_⟩
      exact Call.Post.state (I := fun t => CursorsLive (2 ^ (bit - c)) t ∧ Sound hR n t.1)
        ((h1.post_interStep hcursors hs1 hchunk (hiff.mp hkeeps)).imp (fun _ _ h2 => h2)
          (fun _ _ he => he.elim))

/-!
## The kernel of a call
-/

section Calls

variable [LinearOrder R] [CMath R]

theorem run_applyPauliX (q : Nat) : (BackendOp.applyPauliX q : BackendOp R).run =
    BackendOp.command (applyPauliX q : Call (CompressedStateBackend P) Unit) := rfl

/-- The kernel `applyGate` hands its gate to, and the bit of its pairs. -/
def gateKernelOf (n : Nat) (gate : QuantumGate R) (qubits : List Nat) :
    Option (PairKernel R × Nat) :=
  match fastPath gate qubits.length with
  | .hadamard => some (hadamardPair, n - qubits.getD 0 0 - 1)
  | .pauliX => some (pauliXPair, n - qubits.getD 0 0 - 1)
  | .controlledNot =>
      some (controlledNotPair (2 ^ (n - qubits.getD 0 0 - 1)), n - qubits.getD 1 0 - 1)
  | .controlledPhaseShift theta =>
      some (controlledPhaseShiftPair (2 ^ (n - qubits.getD 0 0 - 1)) theta,
        n - qubits.getD 1 0 - 1)
  | .blocks => none

def pairKernelOf (n : Nat) : BackendOp R -> Option (PairKernel R × Nat)
  | .applyHadamard q => some (hadamardPair, n - q - 1)
  | .applyPauliX q => some (pauliXPair, n - q - 1)
  | .applyControlledPhaseShift c q theta =>
      some (controlledPhaseShiftPair (2 ^ (n - c - 1)) theta, n - q - 1)
  | .applyControlledNot c q => some (controlledNotPair (2 ^ (n - c - 1)), n - q - 1)
  | .applyGate gate qubits => gateKernelOf n gate qubits
  | _ => none

theorem pairKernelOf_applyPauliX (n q : Nat) :
    pairKernelOf n (.applyPauliX q : BackendOp R) = some (pauliXPair, n - q - 1) := rfl

/-- In the kernel of the call, if it runs one, no step moves the slots between its handles. -/
def OpSteady (op : BackendOp R) (b : CompressedStateBackend P) : Prop :=
  forall kernel bit, pairKernelOf b.numQubits op = some (kernel, bit) -> KernelSteady kernel bit b

/-- In the kernel of the call, if it runs one, every step keeps the marker of its first handle. -/
def OpKeeps (op : BackendOp R) (b : CompressedStateBackend P) : Prop :=
  forall kernel bit, pairKernelOf b.numQubits op = some (kernel, bit) -> KernelKeeps kernel bit b

theorem bit_lt_of_gateKernelOf {gate : QuantumGate R} {qubits : List Nat}
    (hvalid : ValidTargets qubits n gate.dimension)
    (hkernel : gateKernelOf n gate qubits = some (kernel, bit)) : bit < n := by
  unfold gateKernelOf at hkernel
  cases hpath : fastPath gate qubits.length with
  | hadamard =>
      rw [hpath] at hkernel
      cases hkernel
      have hlen := fastPath_one (Or.inl hpath)
      have hq := hvalid.getD_lt (i := 0) (by omega)
      omega
  | pauliX =>
      rw [hpath] at hkernel
      cases hkernel
      have hlen := fastPath_one (Or.inr hpath)
      have hq := hvalid.getD_lt (i := 0) (by omega)
      omega
  | controlledNot =>
      rw [hpath] at hkernel
      cases hkernel
      have hlen := fastPath_two (Or.inl hpath)
      have hq := hvalid.getD_lt (i := 1) (by omega)
      omega
  | controlledPhaseShift theta =>
      rw [hpath] at hkernel
      cases hkernel
      have hlen := fastPath_two (Or.inr ⟨theta, hpath⟩)
      have hq := hvalid.getD_lt (i := 1) (by omega)
      omega
  | blocks =>
      rw [hpath] at hkernel
      cases hkernel

theorem bit_lt_of_pairKernelOf {op : BackendOp R} (hop : op.ArgumentsOk n)
    (hkernel : pairKernelOf n op = some (kernel, bit)) : bit < n := by
  cases op with
  | applyHadamard q =>
      have hq : q < n := hop.2
      cases hkernel
      omega
  | applyPauliX q =>
      have hq : q < n := hop.2
      cases hkernel
      omega
  | applyControlledPhaseShift c q theta =>
      have hq : q < n := hop.2.2.1
      cases hkernel
      omega
  | applyControlledNot c q =>
      have hq : q < n := hop.2.2.1
      cases hkernel
      omega
  | applyGate gate qubits => exact bit_lt_of_gateKernelOf hop.2 hkernel
  | _ => cases hkernel

theorem opKeeps_iff (h : Sound hR n b) {op : BackendOp R} (hop : op.ArgumentsOk n) :
    OpKeeps op b <-> OpSteady op b := by
  have hkernel : forall kernel bit, pairKernelOf b.numQubits op = some (kernel, bit) ->
      (KernelKeeps kernel bit b <-> KernelSteady kernel bit b) := by
    intro kernel bit hk
    rw [h.shaped.numQubits] at hk
    exact kernelKeeps_iff h (bit_lt_of_pairKernelOf hop hk)
  constructor
  · intro hkeeps kernel bit hk
    exact (hkernel kernel bit hk).mp (hkeeps kernel bit hk)
  · intro hsteady kernel bit hk
    exact (hkernel kernel bit hk).mpr (hsteady kernel bit hk)

theorem OpSteady.gate {gate : QuantumGate R} {qubits : List Nat}
    (h : OpSteady (.applyGate gate qubits) b) : GateSteady gate qubits b := by
  have hsteady : forall kernel bit, gateKernelOf b.numQubits gate qubits = some (kernel, bit) ->
      KernelSteady kernel bit b := h
  unfold gateKernelOf at hsteady
  unfold GateSteady
  cases hpath : fastPath gate qubits.length with
  | blocks => trivial
  | _ =>
      rw [hpath] at hsteady
      exact hsteady _ _ rfl

/-!
## Calls that keep their markers
-/

def after (L : LogicalState R) (op : BackendOp R) : LogicalState R :=
  { numQubits := L.numQubits
    amplitudes := L.vectorAfter gateVector op
    depth := L.depthAfter op }

/-- The backend stores the vector, whether or not its slots may still move. -/
def Tracks (hP : P.Lossless) (L : LogicalState R) (b : CompressedStateBackend P) : Prop :=
  Holds hP L.numQubits L.amplitudes b ∧ b.batchDepth = L.depth

omit [Field R] [LinearOrder R] [CMath R] in
theorem Tracks.of_frame {L : LogicalState R} {b' : CompressedStateBackend P} {v' : List R}
    (h : Tracks hP L b) (h' : Holds hP L.numQubits v' b' ∧ SameFrame b b') :
    Tracks hP { L with amplitudes := v' } b' :=
  ⟨h'.1, h'.2.batchDepth.trans h.2⟩

omit [Field R] [LinearOrder R] [CMath R] in
theorem Tracks.cloned {L : LogicalState R} (h : Tracks hP L b) : Tracks hP L (clone b) := by
  have hchunks := h.1.chunks
  have hclone := hchunks.contains.cloned
  refine ⟨⟨h.1.length, ?_⟩, h.2⟩
  exact
    { shaped := hclone.shaped
      length := hchunks.length
      content := hclone.content }

/-- A call whose kernel never moves the slots does to the vector what its name says. -/
theorem Tracks.call {L : LogicalState R} (h : Tracks hP L b) {op : BackendOp R}
    (hsize : op.size = none) (hop : op.ArgumentsOk L.numQubits) (hsteady : OpSteady op b) :
    Tracks hP (after L op) (op.run b).2 := by
  have command : forall {call : Call (CompressedStateBackend P) Unit} {v' : List R},
      Makes hP L.numQubits v' call b ->
      Tracks hP { L with amplitudes := v' } (BackendOp.command (R := R) call b).2 := by
    intro call v' hcall
    rw [command_state]
    apply Call.Post.state (I := Tracks hP { L with amplitudes := v' })
    exact hcall.imp (fun _ _ h' => h.of_frame h') (fun _ _ he => he.elim)
  have query : forall {α : Type} {wrap : α -> Answer R} {call : Call (CompressedStateBackend P) α}
      {answer : Except ExcKind α},
      Answers call b answer (fun b' => Holds hP L.numQubits L.amplitudes b' ∧ SameFrame b b') ->
      Tracks hP L (BackendOp.query wrap call b).2 := by
    intro α wrap call answer hcall
    apply Call.Post.state (I := Tracks hP L)
    exact (answers_query hcall).imp (fun _ _ ha => h.of_frame ha.2) (fun _ _ he => h.of_frame he.2)
  have steady : forall {kernel : PairKernel R} {bit : Nat},
      pairKernelOf L.numQubits op = some (kernel, bit) -> KernelSteady kernel bit b := by
    intro kernel bit hk
    rw [← h.1.chunks.shaped.numQubits] at hk
    exact hsteady kernel bit hk
  cases op with
  | initZero m => cases hsize
  | initBasis m t amp => cases hsize
  | initUniformSuperposition m states => cases hsize
  | loadAmplitudes m data => cases hsize
  | setAmplitude t amp => exact command (makes_setAmplitude h.1 hop.2 amp)
  | phaseFlipBasisState t => exact command (makes_phaseFlipBasisState h.1 hop.2)
  | inversionAboutMean => exact command (makes_inversionAboutMean h.1)
  | inversionAboutMeanWith mean => exact command (makes_inversionAboutMeanWith h.1 mean)
  | applyAffineTransform scale bias => exact command (makes_applyAffineTransform h.1 scale bias)
  | applyHadamard q => exact command (makes_applyHadamard h.1 hop.2 (steady rfl))
  | applyPauliX q => exact command (makes_applyPauliX h.1 hop.2 (steady rfl))
  | applyControlledPhaseShift c q theta =>
      exact command (makes_applyControlledPhaseShift h.1 hop.2.1 hop.2.2.1 hop.2.2.2 theta
        (steady rfl))
  | applyControlledNot c q =>
      exact command (makes_applyControlledNot h.1 hop.2.1 hop.2.2.1 hop.2.2.2 (steady rfl))
  | applyGate gate qubits => exact command (makes_applyGate h.1 hop.2 hsteady.gate)
  | beginOperationBatch =>
      change Tracks hP _ (BackendOp.command (R := R) beginOperationBatch b).2
      rw [command_state]
      apply Call.Post.state (I := Tracks hP (after L .beginOperationBatch))
      refine (makes_beginOperationBatch h.1).imp ?_ (fun _ _ he => he.elim)
      rintro _ b' ⟨hholds, hdepth, _⟩
      refine ⟨hholds, ?_⟩
      rw [hdepth, h.2]
      rfl
  | endOperationBatch =>
      change Tracks hP _ (BackendOp.command (R := R) endOperationBatch b).2
      rw [command_state]
      apply Call.Post.state (I := Tracks hP (after L .endOperationBatch))
      cases hdepth : b.batchDepth with
      | zero =>
          refine (endOperationBatch_of_closed hdepth).imp (fun _ _ hfalse => hfalse.elim) ?_
          rintro e b' ⟨_, rfl⟩
          refine ⟨h.1, ?_⟩
          change b'.batchDepth = L.depth - 1
          rw [← h.2, hdepth]
      | succ d =>
          refine (makes_endOperationBatch h.1 hdepth).imp ?_ (fun _ _ he => he.elim)
          rintro _ b' ⟨hholds, hdepth', _⟩
          refine ⟨hholds, ?_⟩
          change b'.batchDepth = L.depth - 1
          rw [← h.2, hdepth, hdepth']
          rfl
  | amplitude t => exact query (answers_amplitude h.1 hop.2)
  | probability t => exact query (answers_probability h.1 hop.2)
  | totalProbability => exact query (answers_totalProbability h.1)
  | exportAmplitudes => exact query (answers_exportAmplitudes h.1)
  | forEachAmplitudeChunk =>
      change Tracks hP L (BackendOp.query _ forEachAmplitudeChunk b).2
      apply Call.Post.state (I := Tracks hP L)
      rw [BackendOp.query, Call.post_bind_iff]
      exact (answers_forEachAmplitudeChunk h.1).imp (fun _ _ ha => h.of_frame ha.2)
        (fun _ _ he => he.elim)
  | sampleMeasurement rnd => exact query (answers_sampleMeasurement h.1 rnd)
  | printNonZeroStates epsilon => exact query (answers_printNonZeroStates h.1 epsilon)

/-!
## Runs that keep their markers
-/

/--
The backends that calls lead to, on originals and copies, when no kernel moves the slots
under a handle, with the vectors the calls make.
-/
inductive SteadilyReached : LogicalState R -> CompressedStateBackend P -> Prop where
  | init (b : CompressedStateBackend P) {op : BackendOp R} {n : Nat} (hsize : op.size = some n)
      (hvalid : op.ValidInit) (hfits : ChunkLayout.Fits (2 ^ n) P.chunkStates) :
      SteadilyReached
        { numQubits := n
          amplitudes := LogicalState.initial op
          depth := 0 } (op.run b).2
  | called {L : LogicalState R} {b : CompressedStateBackend P} (h : SteadilyReached L b)
      {op : BackendOp R} (hsize : op.size = none) (hop : op.ArgumentsOk L.numQubits)
      (hsteady : OpSteady op b) : SteadilyReached (after L op) (op.run b).2
  | refused {L : LogicalState R} {b : CompressedStateBackend P} (h : SteadilyReached L b)
      {op : BackendOp R} (hsize : op.size = none) (hop : ¬ op.ArgumentsOk L.numQubits) :
      SteadilyReached L (op.run b).2
  | cloned {L : LogicalState R} {b : CompressedStateBackend P} (h : SteadilyReached L b) :
      SteadilyReached L (IStateBackend.clone b)

theorem SteadilyReached.tracks {L : LogicalState R} (hP : P.Lossless)
    (h : SteadilyReached L b) : Tracks hP L b := by
  induction h with
  | init b hsize hvalid hfits =>
      rename_i op n
      have haccepts : (storesVector hP).Accepts gateVector op := by
        refine ⟨?_, fun _ _ _ _ _ _ _ _ => rfl⟩
        intro m hm
        rw [hsize] at hm
        cases hm
        exact hfits
      have hstores := (StoresVector.refines_init hsize hvalid haccepts none b).2
      have hspec : (op.spec gateVector none).2 = some
          { numQubits := n
            amplitudes := LogicalState.initial op
            depth := 0 } := by
        unfold BackendOp.spec
        rw [hsize]
      rw [hspec] at hstores
      have hrep : Represents hP n (LogicalState.initial op) 0 (op.run b).2 := hstores
      exact ⟨hrep.1, hrep.2.2⟩
  | called _ hsize hop hsteady ih => exact ih.call hsize hop hsteady
  | refused _ hsize hop ih =>
      rcases ih.1.chunks.shaped.rejects hsize hop with ⟨e, hrun, _⟩
      rw [hrun]
      exact ih
  | cloned _ ih => exact ih.cloned

theorem SteadilyReached.sound {L : LogicalState R} (hR : P.Rounds round)
    (h : SteadilyReached L b) : Sound hR L.numQubits b := by
  induction h with
  | init b hsize hvalid hfits =>
      exact (ChecksArguments.ready_init (G := checksArguments hR) b hsize hvalid hfits).1
  | called _ hsize _ _ ih =>
      exact ChecksArguments.ready_after (G := checksArguments hR) ih hsize
  | refused _ hsize _ ih =>
      exact ChecksArguments.ready_after (G := checksArguments hR) ih hsize
  | cloned _ ih => exact ih.cloned

/--
While no kernel moves the slots under a handle, the next kernel keeps its markers exactly
when it does not move them either, on copies too, and with a lossless codec every write is
kept.
-/
theorem steadilyReached_keeps (hR : P.Rounds round) {L : LogicalState R}
    (h : SteadilyReached L b) :
    (P.Lossless -> forall s, s < 2 ^ L.numQubits ->
        (amplitude s b).1 = .ok (ampAt L.amplitudes s)) ∧
      forall op : BackendOp R, op.size = none -> op.ArgumentsOk L.numQubits ->
        (OpKeeps op b <-> OpSteady op b) := by
  constructor
  · intro hP s hs
    have hanswers := answers_amplitude (h.tracks hP).1 hs
    unfold Answers Call.Post at hanswers
    rcases hrun : amplitude s b with ⟨r, b'⟩
    rw [hrun] at hanswers
    cases r with
    | ok a =>
        rw [Except.ok.inj hanswers.1]
    | error e => cases hanswers.1
  · intro op _ hop
    exact opKeeps_iff (h.sound hR) hop

end Calls

/-!
## A copy that loses a write
-/

section TwoQubits

/-- A codec that keeps everything, chunks of one state and a cache of two. -/
def verbatim : CodecPolicy Real Real :=
  CodecPolicy.elementwise id 1 2 Nat.one_pos Nat.one_lt_two

theorem lossless_verbatim : verbatim.Lossless :=
  CodecPolicy.lossless_elementwise _ _

def fourChunks (stored : List (List Real)) (slots : List (Slot Real)) (reserved storage : Nat)
    (chunkToSlot : List (Option Nat)) (touches : Nat) : CompressedStateBackend verbatim :=
  { numQubits := 2
    numStates := 4
    layout :=
      { totalStates := 4
        totalElems := 8
        statesPerChunk := 1
        elemsPerChunk := 2
        chunkCount := 4 }
    store :=
      { chunks := stored.map fun data => { compressed := data, elemCount := 2 }
        codec := () }
    cache :=
      { capacity := 2
        slots := slots
        reserved := reserved
        storage := storage
        chunkToSlot := chunkToSlot
        touchCounter := touches }
    batchDepth := 0 }

/-- All weight on the first of four states; its chunk is cached and stored. -/
@[irreducible] noncomputable def prepared : CompressedStateBackend verbatim :=
  ((BackendOp.initBasis 2 0 { real := 1, imag := 0 } : BackendOp Real).run (make verbatim)).2

theorem prepared_eq :
    prepared = fourChunks [[1, 0], [0, 0], [0, 0], [0, 0]] [⟨some 0, [1, 0], false, 1⟩] 2 1
      [some 0, none, none, none] 1 := by
  have hzero : initZero 2 (make verbatim) =
      (.ok (), fourChunks [[0, 0], [0, 0], [0, 0], [0, 0]] [] 2 1 [none, none, none, none] 0) :=
    rfl
  have hwrite : writeAmplitudeMutable 0 ({ real := 1, imag := 0 } : Amplitude Real)
      (fourChunks [[0, 0], [0, 0], [0, 0], [0, 0]] [] 2 1 [none, none, none, none] 0) =
      (.ok ⟨⟩, fourChunks [[0, 0], [0, 0], [0, 0], [0, 0]] [⟨some 0, [1, 0], true, 1⟩] 2 1
        [some 0, none, none, none] 1) := rfl
  have hflush : flushCacheIfNeeded (fourChunks [[0, 0], [0, 0], [0, 0], [0, 0]]
      [⟨some 0, [1, 0], true, 1⟩] 2 1 [some 0, none, none, none] 1) =
      (.ok (), fourChunks [[1, 0], [0, 0], [0, 0], [0, 0]] [⟨some 0, [1, 0], false, 1⟩] 2 1
        [some 0, none, none, none] 1) := rfl
  have hrun : (BackendOp.initBasis 2 0 { real := 1, imag := 0 } : BackendOp Real).run
      (make verbatim) =
        BackendOp.command (initBasis 2 0 ({ real := 1, imag := 0 } : Amplitude Real))
          (make verbatim) := rfl
  have hvalid : (validateStateIndex "CompressedStateBackend::initBasis" 0
      (fourChunks [[0, 0], [0, 0], [0, 0], [0, 0]] [] 2 1
        [none, none, none, none] 0).numStates :
        Call (CompressedStateBackend verbatim) Unit) = pure () := rfl
  rw [prepared, hrun, command_state, initBasis, Call.bind_ok hzero,
    Call.bind_ok (Call.get_apply _), hvalid, pure_bind, Call.bind_ok hwrite, hflush]

theorem clone_prepared_eq :
    clone prepared = fourChunks [[1, 0], [0, 0], [0, 0], [0, 0]] [⟨some 0, [1, 0], false, 1⟩] 1 2
      [some 0, none, none, none] 1 := by
  rw [prepared_eq]
  rfl

def afterFirstPair : CompressedStateBackend verbatim :=
  fourChunks [[1, 0], [0, 0], [0, 0], [0, 0]]
    [⟨some 0, [0, 0], false, 2⟩, ⟨some 1, [1, 0], true, 3⟩] 2 3 [some 0, some 1, none, none] 3

def afterSecondPair : CompressedStateBackend verbatim :=
  fourChunks [[1, 0], [1, 0], [0, 0], [0, 0]]
    [⟨some 2, [0, 0], false, 4⟩, ⟨some 3, [0, 0], false, 5⟩] 2 3 [none, none, some 0, some 1] 5

theorem runOnData_eq {pairFn : PairKernel R} {state0 state1 elem0 elem1 : Nat}
    {slot0 slot1 : SlotHandle} (r : PairMutation × Amplitude R × Amplitude R)
    (hr : pairFn state0 state1 (readAmp (b.slotData slot0) elem0)
      (readAmp (b.slotData slot1) elem1) = r) :
    runOnData pairFn state0 state1 slot0 elem0 slot1 elem1 b =
      (.ok r.1,
        { b with
          cache :=
            (b.cache.writeData slot0 fun buffer => writeAmp buffer elem0 r.2.1).writeData slot1
              fun buffer => writeAmp buffer elem1 r.2.2 }) := by
  subst hr
  rfl

theorem interCallback_eq {pairFn : PairKernel R} {chunk0 chunk1 localState state0 state1 : Nat}
    {t : CompressedStateBackend P × Cursor × Cursor} {cursors : Cursor × Cursor}
    {slot0 slot1 : SlotHandle} {mutation : PairMutation} {b' : CompressedStateBackend P}
    (hslots : interSlots chunk0 chunk1 t = (.ok (slot0, slot1), b, cursors))
    (hrun : runOnData pairFn state0 state1 slot0 (localState * 2) slot1 (localState * 2) b =
      (.ok mutation, b')) :
    interCallback pairFn chunk0 chunk1 localState state0 state1 t =
      ((markTouched mutation slot0 slot1 b').1, (markTouched mutation slot0 slot1 b').2,
        cursors) := by
  have honObject : Call.onObject
      (runOnData pairFn state0 state1 slot0 (localState * 2) slot1 (localState * 2))
      (b, cursors) = (.ok mutation, b', cursors) := by
    rw [Call.onObject, Call.focus_apply, hrun]
  rw [interCallback, Call.bind_ok hslots]
  simp only
  rw [Call.bind_ok honObject]
  rfl

theorem first_pair :
    interStep pauliXPair (0, 1) (fourChunks [[1, 0], [0, 0], [0, 0], [0, 0]]
      [⟨some 0, [1, 0], false, 1⟩] 1 2 [some 0, none, none, none] 1, none, none) =
      (.ok ⟨⟩, afterFirstPair, some (0, ⟨0, 0, 2, 2⟩), some (1, ⟨1, 1, 3, 2⟩)) := by
  obtain ⟨b, hb⟩ : exists b, b = fourChunks [[1, 0], [0, 0], [0, 0], [0, 0]]
      [⟨some 0, [1, 0], false, 2⟩, ⟨some 1, [0, 0], false, 3⟩] 2 3 [some 0, some 1, none, none]
      3 := ⟨_, rfl⟩
  have hpair : pauliXPair 0 1 (readAmp (b.slotData ⟨0, 0, 2, 2⟩) (0 * 2))
      (readAmp (b.slotData ⟨1, 1, 3, 2⟩) (0 * 2)) =
      (.both, { real := 0, imag := 0 }, { real := 1, imag := 0 }) := by
    rw [hb]
    exact if_neg fun heq => one_ne_zero heq.1
  have hrun := runOnData_eq _ hpair
  rw [hb] at hrun
  exact interCallback_eq rfl hrun

theorem second_pair :
    interStep pauliXPair (2, 3)
      (afterFirstPair, some (0, ⟨0, 0, 2, 2⟩), some (1, ⟨1, 1, 3, 2⟩)) =
      (.ok ⟨⟩, afterSecondPair, some (2, ⟨0, 2, 3, 2⟩), some (3, ⟨1, 3, 3, 2⟩)) := by
  have hpair : pauliXPair 2 3 (readAmp (afterSecondPair.slotData ⟨0, 2, 3, 2⟩) (0 * 2))
      (readAmp (afterSecondPair.slotData ⟨1, 3, 3, 2⟩) (0 * 2)) =
      (.none, { real := 0, imag := 0 }, { real := 0, imag := 0 }) :=
    if_pos ⟨rfl, rfl⟩
  exact interCallback_eq rfl (runOnData_eq _ hpair)

theorem clone_prepared_pairs (h : (clone prepared).Shaped 2) :
    runPairKernel (qubitMaskFromMsbIndex 1 2) pauliXPair (clone prepared) =
      (.ok ⟨⟩, afterSecondPair) := by
  have hmode : selectMode (clone prepared).layout (2 ^ 0) = .interChunk := by
    rw [clone_prepared_eq]
    decide
  have hcapacity : (clone prepared).cache.capacity ≥ 2 := by
    rw [clone_prepared_eq]
    exact Nat.le_refl 2
  have hmask : qubitMaskFromMsbIndex 1 2 = 2 ^ 0 := by decide
  have hchunk : verbatim.chunkStates = 2 ^ 0 := rfl
  have hlist : pairList 2 0 = [(0, 1), (2, 3)] := by decide
  have hbody : (fun p : Nat × Nat => interCallback (P := verbatim) pauliXPair
      (p.1 / verbatim.chunkStates) (p.2 / verbatim.chunkStates) (p.1 % verbatim.chunkStates)
      p.1 p.2) = interStep pauliXPair := rfl
  have hlayout := h.layout
  rw [hchunk] at hlayout
  have hsteps : ([(0, 1), (2, 3)].forM (interStep pauliXPair)) (clone prepared, none, none) =
      (.ok ⟨⟩, afterSecondPair, some (2, ⟨0, 2, 3, 2⟩), some (3, ⟨1, 3, 3, 2⟩)) := by
    have hforM : [(0, 1), (2, 3)].forM (interStep (P := verbatim) pauliXPair) =
        (interStep pauliXPair (0, 1) >>= fun _ =>
          interStep pauliXPair (2, 3) >>= fun _ => pure ⟨⟩) := rfl
    rw [hforM, clone_prepared_eq, Call.bind_ok first_pair, Call.bind_ok second_pair,
      Call.pure_apply]
  rw [runPairKernel, Call.bind_ok (Call.get_apply _), hmask, hmode]
  simp only [if_pos hcapacity]
  rw [runInterChunk_eq h.qubits (by decide) hlayout (Nat.le_refl 0), ← hchunk, hbody, hlist,
    Call.withLocal, hsteps]

/-- Exchanging the amplitudes of both pairs leaves the first one where it was. -/
theorem clone_prepared_pauliX (h : (clone prepared).Shaped 2) :
    (applyPauliX 1 (clone prepared)).2 = afterSecondPair := by
  have hvalid : (validateQubitIndex "CompressedStateBackend::applyPauliX" 1
      (clone prepared).numQubits : Call (CompressedStateBackend verbatim) Unit) = pure () := by
    rw [h.numQubits]
    exact validateQubitIndex_ok _ (by decide)
  have hflush : flushCacheIfNeeded afterSecondPair = (.ok (), afterSecondPair) := rfl
  rw [applyPauliX, Call.bind_ok (ensureInitialized_eq h _), Call.bind_ok (Call.get_apply _),
    hvalid, pure_bind, h.numQubits, mutate, Call.bind_ok (ensureInitialized_eq h _),
    Call.bind_ok (clone_prepared_pairs h), hflush]

noncomputable def preparedState : LogicalState Real :=
  { numQubits := 2
    amplitudes := LogicalState.initial (.initBasis 2 0 { real := 1, imag := 0 })
    depth := 0 }

theorem reached_prepared : SteadilyReached preparedState prepared := by
  rw [prepared]
  exact SteadilyReached.init (make verbatim) rfl ⟨by decide, by decide⟩ (fits_one (by decide))

theorem reached_clone_prepared : SteadilyReached preparedState (clone prepared) :=
  reached_prepared.cloned

theorem tracks_clone_prepared : Tracks lossless_verbatim preparedState (clone prepared) :=
  reached_clone_prepared.tracks lossless_verbatim

theorem clone_prepared_keeps :
    (forall s, s < 2 ^ 2 -> (amplitude s (clone prepared)).1 =
        .ok (ampAt preparedState.amplitudes s)) ∧
      forall op : BackendOp Real, op.size = none -> op.ArgumentsOk 2 ->
        (OpKeeps op (clone prepared) <-> OpSteady op (clone prepared)) :=
  ⟨(steadilyReached_keeps lossless_verbatim reached_clone_prepared).1 lossless_verbatim,
    (steadilyReached_keeps lossless_verbatim reached_clone_prepared).2⟩

theorem not_steady_clone_prepared (h : (clone prepared).Shaped 2) :
    ¬ OpSteady (.applyPauliX 1 : BackendOp Real) (clone prepared) := by
  intro hsteady
  rw [OpSteady, h.numQubits] at hsteady
  have hpairs := hsteady _ _ (pairKernelOf_applyPauliX 2 1)
  have hmode : selectMode (clone prepared).layout (2 ^ 0) = .interChunk := by
    rw [clone_prepared_eq]
    decide
  have hlist : pairList 2 0 = [(0, 1), (2, 3)] := by decide
  rw [KernelSteady, hmode] at hpairs
  simp only [h.numQubits, hlist] at hpairs
  have hstays : (clone prepared).cache.SecondStays 0 1 := hpairs.1
  rw [clone_prepared_eq] at hstays
  rcases hstays with heq | hcached | hfull | hroom
  · cases heq
  · exact hcached rfl
  · exact hfull (show 1 < 2 by decide)
  · exact absurd hroom (show ¬ 1 < 1 by decide)

theorem ampAt_exchanged : ampAt (after preparedState (.applyPauliX 1)).amplitudes 0 =
    Amplitude.zero := by
  have hamp := StateVector.ampAt_basis (R := Real) (n := 2) (t := 0) (by decide)
    { real := 1, imag := 0 }
  have hlow : lowState 0 0 = 0 := rfl
  have hpair := (StateVector.ampAt_pairKernel (pauliXPair (R := Real)) (n := 2) (t := 0)
    (by decide : 0 < 2) (StateVector.length_basis (R := Real) 2 0 { real := 1, imag := 0 })
    (by decide)).1
  rw [hlow, hamp, hamp] at hpair
  have hexchange : (pauliXPair 0 1 { real := 1, imag := 0 } Amplitude.zero :
      PairMutation × Amplitude Real × Amplitude Real).2.1 = Amplitude.zero := by
    rw [pauliXPair, if_neg (fun heq => one_ne_zero heq.1)]
  exact hpair.trans hexchange

/-- On the copy, exchanging the amplitudes of the first two states changes only one of them. -/
theorem copy_loses_pair_update :
    SteadilyReached preparedState (clone prepared) ∧
      ¬ OpKeeps (.applyPauliX 1 : BackendOp Real) (clone prepared) ∧
      (amplitude 0 ((BackendOp.applyPauliX 1 : BackendOp Real).run (clone prepared)).2).1 =
        .ok { real := 1, imag := 0 } ∧
      (amplitude 1 ((BackendOp.applyPauliX 1 : BackendOp Real).run (clone prepared)).2).1 =
        .ok { real := 1, imag := 0 } ∧
      ampAt (after preparedState (.applyPauliX 1)).amplitudes 0 = Amplitude.zero := by
  have hshaped : (clone prepared).Shaped 2 := tracks_clone_prepared.1.chunks.shaped
  have hstate : ((BackendOp.applyPauliX 1 : BackendOp Real).run (clone prepared)).2 =
      afterSecondPair := by
    rw [run_applyPauliX, command_state, clone_prepared_pauliX hshaped]
  refine ⟨reached_clone_prepared, ?_, ?_, ?_, ampAt_exchanged⟩
  · intro hkeeps
    have hop : (BackendOp.applyPauliX 1 : BackendOp Real).ArgumentsOk 2 :=
      ⟨trivial, show 1 < 2 by decide⟩
    have hiff := opKeeps_iff (reached_clone_prepared.sound lossless_verbatim) hop
    exact not_steady_clone_prepared hshaped (hiff.mp hkeeps)
  · rw [hstate]
    rfl
  · rw [hstate]
    rfl

end TwoQubits

end CompressedStateBackend

end Tmfqs
