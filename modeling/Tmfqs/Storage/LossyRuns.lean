import Tmfqs.Model.Distance
import Tmfqs.Storage.CompressedSafety
import Tmfqs.Storage.InterruptedRuns

/-!
# Runs under lossy codecs

A codec may change every element of a chunk a little each time it stores the chunk.  As long
as no operation of a run stretches the vector, every answer is about a vector close to the
exact one: each acquisition of a chunk adds at most the error of one chunk.
-/

namespace Tmfqs

open Library ChunkCache

/-- Every element of a stored chunk comes back up to `epsilon`. -/
def CloseElements (epsilon : Real) (y x : List Real) : Prop :=
  forall i, |y.getD i 0 - x.getD i 0| ≤ epsilon

/-- An operation that uses every amplitude as it reads it, and stretches no distance. -/
def BackendOp.Contracts : BackendOp Real -> Prop
  | .inversionAboutMean => False
  | .applyAffineTransform scale _ => scale.probability ≤ 1
  | .applyGate gate qubits => CompressedStateBackend.fastPath gate qubits.length ≠ .blocks
  | _ => True

namespace CompressedStateBackend

variable {B : Type} {P : CodecPolicy Real B} {round : List Real -> List Real} {epsilon : Real}
  {n : Nat} {v : List Real} {b : CompressedStateBackend P}

/-!
## The drift of a lossy codec
-/

section Lossy

variable (hR : P.Rounds round) (hround : forall x, CloseElements epsilon (round x) x)
include hround

theorem epsilon_nonneg : 0 ≤ epsilon :=
  (abs_nonneg _).trans (hround [] 0)

/-- A codec that never fails and moves no element by more than `epsilon`. -/
def lossy : Tolerance P where
  store := ChunkVector.chunkStore hR
  sized _ := rfl
  Close := CloseElements epsilon
  refl x i := by
    rw [sub_self, abs_zero]
    exact (abs_nonneg _).trans (hround [] 0)
  round _ := hround

omit hround in
theorem gap_le_of_close {x v : List Real} {s : Nat}
    (h : CloseElements epsilon (chunkOf P.chunkStates x (s / P.chunkStates))
      (chunkOf P.chunkStates v (s / P.chunkStates))) :
    (ampAt x s).gap (ampAt v s) ≤ 2 * epsilon ^ 2 := by
  rw [← readAmp_chunkOf P.chunkStates_pos x s, ← readAmp_chunkOf P.chunkStates_pos v s]
  exact Amplitude.gap_le (h _) (h _)

theorem distance_le_of_moved {x x' : List Real} (h : (lossy hR hround).Moved x x') (n : Nat) :
    distance n x' x ≤ epsilon * Real.sqrt (2 * P.chunkStates) := by
  have hepsilon := epsilon_nonneg hround
  rcases h with ⟨_, w, hothers, hclose⟩
  refine distance_le_of_few hepsilon
    ((Finset.range P.chunkStates).image fun i => w * P.chunkStates + i) ?_ ?_ ?_
  · exact Finset.card_image_le.trans_eq (Finset.card_range _)
  · intro s _ hout
    have hw : s / P.chunkStates ≠ w := by
      rintro rfl
      apply hout
      rw [Finset.mem_image]
      exact ⟨s % P.chunkStates, Finset.mem_range.mpr (Nat.mod_lt s P.chunkStates_pos),
        Nat.div_add_mod' s P.chunkStates⟩
    rw [← readAmp_chunkOf P.chunkStates_pos x' s, hothers _ hw,
      readAmp_chunkOf P.chunkStates_pos]
  · intro s _
    apply gap_le_of_close
    by_cases hw : s / P.chunkStates = w
    · rw [hw]
      exact hclose
    · rw [hothers _ hw]
      exact (lossy hR hround).refl _

/-- The error of loading a vector, and that of one chunk for each acquisition. -/
noncomputable def budget (P : CodecPolicy Real B) (epsilon : Real) (n count : Nat) : Real :=
  epsilon * Real.sqrt (2 * (2 ^ n : Nat)) + count * (epsilon * Real.sqrt (2 * P.chunkStates))

/-- The vector stays within the budget of as many acquisitions. -/
def bounded (n : Nat) : Drift (lossy hR hround) n where
  Within j x v := v.length = 2 * 2 ^ n ∧ distance n x v ≤ budget P epsilon n j
  length h := h.1
  moved := by
    rintro j x x' v _ ⟨hv, hle⟩ hmoved
    refine ⟨hv, (distance_le_add n x' x v).trans ?_⟩
    have hstep := distance_le_of_moved hR hround hmoved n
    rw [budget] at hle
    rw [budget, Nat.cast_succ]
    linarith

variable {hR} {hround}

theorem Loaded.near {x : List Real} (h : Loaded (lossy hR hround) n v x b)
    (hv : v.length = 2 * 2 ^ n) : Carries (bounded hR hround n) v b := by
  refine ⟨h.coherent, x, h.reads, hv, ?_⟩
  rw [h.counter, budget, Nat.cast_zero, zero_mul, add_zero]
  refine distance_le_of_few (epsilon_nonneg hround) (Finset.range (2 ^ n))
    (le_of_eq (Finset.card_range _)) ?_ ?_
  · intro s hs hout
    exact absurd (Finset.mem_range.mpr hs) hout
  · intro s _
    apply gap_le_of_close
    rw [h.rounded]
    exact hround _

end Lossy

/-!
## Operations that do not stretch
-/

section Steps

variable (hR : P.Rounds round) (hround : forall x, CloseElements epsilon (round x) x)

theorem bounded_respects {f : List Real -> List Real}
    (hf : forall w : List Real, w.length = 2 * 2 ^ n -> (f w).length = 2 * 2 ^ n)
    (h : forall x w : List Real, x.length = 2 * 2 ^ n -> w.length = 2 * 2 ^ n ->
      distance n (f x) (f w) ≤ distance n x w) : (bounded hR hround n).Respects f := by
  rintro j x w hx ⟨hw, hle⟩
  exact ⟨hf w hw, (h x w hx hw).trans hle⟩

theorem bounded_respects_setAmp (s : Nat) {g : Amplitude Real -> Amplitude Real}
    (hg : forall a c, (g a).gap (g c) ≤ a.gap c) :
    (bounded hR hround n).Respects fun w => setAmp w s (g (ampAt w s)) := by
  apply bounded_respects
  · intro w hw
    exact (length_setAmp w s _).trans hw
  · intro x w hx hw
    apply distance_le_of_gap_le
    intro t ht
    by_cases hs : s < 2 ^ n
    · rw [ampAt_setAmp t _ (by omega), ampAt_setAmp t _ (by omega)]
      by_cases hts : t = s
      · rw [if_pos hts, if_pos hts, hts]
        exact hg _ _
      · rw [if_neg hts, if_neg hts]
    · have hother : forall (u : List Real) (a : Amplitude Real), u.length = 2 * 2 ^ n ->
          ampAt (setAmp u s a) t = ampAt u t :=
        fun u a hu => readAmp_writeAmp_of_disjoint _ (by omega)
      rw [hother x _ hx, hother w _ hw]

theorem bounded_respectsKernel {kernel : PairKernel Real}
    (hkernel : StateVector.Contracts kernel) : (bounded hR hround n).RespectsKernel kernel := by
  intro p h1 h2 hne
  apply bounded_respects
  · intro w hw
    exact (StateVector.length_pairStep kernel w p).trans hw
  · intro x w hx hw
    exact StateVector.distance_pairStep_le hkernel hx hw h1 h2 hne

theorem bounded_respectsMap {f : Amplitude Real -> Amplitude Real}
    (hf : forall a c, (f a).gap (f c) ≤ a.gap c) : (bounded hR hround n).RespectsMap f := by
  intro k
  apply bounded_respects
  · intro w hw
    exact (length_mapChunk w k).trans hw
  · intro x w hx hw
    apply distance_le_of_gap_le
    intro s hs
    rw [ampAt_mapChunk (by omega), ampAt_mapChunk (by omega)]
    by_cases hk : s / P.chunkStates = k
    · rw [if_pos hk, if_pos hk]
      exact hf _ _
    · rw [if_neg hk, if_neg hk]

theorem bounded_follows {op : BackendOp Real} (hop : op.Contracts) :
    (bounded hR hround n).Follows op := by
  have hconst : forall c a a' : Amplitude Real, c.gap c ≤ a.gap a' := by
    intro c a a'
    rw [Amplitude.gap_self]
    exact Amplitude.gap_nonneg a a'
  have hhadamard := bounded_respectsKernel (n := n) hR hround StateVector.contracts_hadamardPair
  have hpauliX := bounded_respectsKernel (n := n) hR hround StateVector.contracts_pauliXPair
  have hcnot := fun mask => bounded_respectsKernel (n := n) hR hround
    (StateVector.contracts_controlledNotPair mask)
  have hphase := fun mask theta => bounded_respectsKernel (n := n) hR hround
    (StateVector.contracts_controlledPhaseShiftPair mask theta)
  cases op with
  | setAmplitude s amp => exact bounded_respects_setAmp hR hround s (hconst amp)
  | phaseFlipBasisState s =>
      exact bounded_respects_setAmp hR hround s fun a c => (Amplitude.gap_negate a c).le
  | inversionAboutMean => exact hop.elim
  | inversionAboutMeanWith mean =>
      exact bounded_respectsMap hR hround fun a c => (Amplitude.gap_reflectAmp mean a c).le
  | applyAffineTransform scale bias =>
      apply bounded_respectsMap hR hround
      intro a c
      rw [Amplitude.gap_affineAmp]
      exact mul_le_of_le_one_left (Amplitude.gap_nonneg a c) hop
  | applyHadamard q => exact hhadamard
  | applyPauliX q => exact hpauliX
  | applyControlledPhaseShift c q theta => exact hphase _ theta
  | applyControlledNot c q => exact hcnot _
  | applyGate gate qubits =>
      unfold Drift.Follows
      cases hpath : fastPath gate qubits.length with
      | hadamard =>
          simp only [hpath]
          exact hhadamard
      | pauliX =>
          simp only [hpath]
          exact hpauliX
      | controlledNot =>
          simp only [hpath]
          exact hcnot _
      | controlledPhaseShift theta =>
          simp only [hpath]
          exact hphase _ theta
      | blocks => exact absurd hpath hop
  | _ => trivial

end Steps

/-!
## Runs
-/

section Runs

variable {hR : P.Rounds round} {hround : forall x, CloseElements epsilon (round x) x}

theorem Carries.sound (h : Carries (bounded hR hround n) v b) : Sound hR n b := by
  rcases h with ⟨hc, x, ⟨_, S, hretains⟩, _⟩
  refine ⟨chunkOf P.chunkStates x, S, ?_⟩
  exact
    { shaped := hretains.framed.shaped hc
      length := fun k _ => hretains.length k
      content := hretains.content }

/-- The call answers for a vector close to that of `L`, within the budget of the run so far. -/
def Answered (epsilon : Real) (L : LogicalState Real) (op : BackendOp Real)
    (b : CompressedStateBackend P) : Prop :=
  Call.Post op.run b
    (fun a b' => exists x, x.length = 2 * 2 ^ L.numQubits ∧
      answerOf L.numQubits L.depth x op = .ok a ∧
        distance L.numQubits x (L.after op).amplitudes ≤
          budget P epsilon L.numQubits b'.cache.touchCounter)
    (fun e _ => op.MayThrow e.kind)

theorem Carries.call {L : LogicalState Real}
    (h : Carries (bounded hR hround L.numQubits) L.amplitudes b) (hdepth : b.batchDepth = L.depth)
    {op : BackendOp Real} (hsize : op.size = none)
    (hargs : op.ArgumentsOk L.numQubits) (hvalid : op.ValidOn L.numQubits L.depth)
    (hop : op.Contracts) :
    Answered epsilon L op b ∧
      Carries (bounded hR hround L.numQubits) (L.after op).amplitudes (op.run b).2 ∧
        (op.run b).2.batchDepth = (L.after op).depth := by
  have hstate : stateOf L.numQubits L.amplitudes b = L := by
    rw [stateOf, hdepth]
  rw [← hdepth] at hvalid
  have hrun := (post_run h hsize hvalid (bounded_follows hR hround hop)).and
    (h.sound.call hsize hargs)
  rw [hstate] at hrun
  unfold Answered
  unfold Call.Post at hrun ⊢
  rcases hcall : op.run b with ⟨r, b'⟩
  rw [hcall] at hrun
  cases r with
  | ok a =>
      rcases hrun with ⟨⟨hc, hafter, x, hx, hwithin, ha⟩, _⟩
      exact ⟨⟨x, hx.length, ha, hwithin.2⟩, ⟨hc, x, hx, hwithin⟩, hafter⟩
  | error e =>
      rcases hrun with ⟨⟨w, hw, hl⟩, hkind, hsound⟩
      have hsame : L.vectorAfter gateVector op = L.amplitudes := by
        cases op with
        | endOperationBatch => rfl
        | sampleMeasurement rnd => rfl
        | _ => exact hkind.elim
      rw [hsame] at hw
      rw [hw.eq_of_same h.length] at hl
      refine ⟨hkind, ?_, hl.2.1⟩
      change Carries _ (L.vectorAfter gateVector op) b'
      rw [hsame]
      exact hl.carries hsound.shaped.coherent.represented

theorem validRun_cons {L : LogicalState Real} {op : BackendOp Real} {rest : List (BackendOp Real)}
    (hsize : op.size = none)
    (h : BackendOp.ValidRun (some (L.numQubits, L.depth)) (op :: rest)) :
    op.ValidOn L.numQubits L.depth ∧
      BackendOp.ValidRun (some ((L.after op).numQubits, (L.after op).depth)) rest := by
  cases op with
  | initZero m => cases hsize
  | initBasis m t amp => cases hsize
  | initUniformSuperposition m states => cases hsize
  | loadAmplitudes m data => cases hsize
  | _ => exact h

theorem answered_reached {op : BackendOp Real} {ops : List (BackendOp Real)} :
    forall {L : LogicalState Real} {b : CompressedStateBackend P},
      Carries (bounded hR hround L.numQubits) L.amplitudes b -> b.batchDepth = L.depth ->
      (forall o, o ∈ ops ++ [op] -> o.size = none ∧ o.ArgumentsOk L.numQubits ∧ o.Contracts) ->
      BackendOp.ValidRun (some (L.numQubits, L.depth)) (ops ++ [op]) ->
      Answered epsilon (ops.foldl LogicalState.after L) op (reached BackendOp.run ops b) := by
  induction ops with
  | nil =>
      intro L b h hdepth hops hvalid
      rcases hops op List.mem_cons_self with ⟨hsize, hargs, hop⟩
      exact (h.call hdepth hsize hargs (validRun_cons hsize hvalid).1 hop).1
  | cons o rest ih =>
      intro L b h hdepth hops hvalid
      rcases hops o List.mem_cons_self with ⟨hsize, hargs, ho⟩
      rcases validRun_cons hsize hvalid with ⟨hfirst, hrest⟩
      rcases h.call hdepth hsize hargs hfirst ho with ⟨_, hafter, hdepth'⟩
      rw [List.foldl_cons, reached_cons]
      exact ih hafter hdepth' (fun o' ho' => hops o' (List.mem_cons_of_mem o ho')) hrest

variable (hR) (hround)
include hR hround

theorem near_loadAmplitudes (hn : n ≤ 31) (hfits : ChunkLayout.Fits (2 ^ n) P.chunkStates)
    (hv : v.length = 2 * 2 ^ n) (b : CompressedStateBackend P) :
    exists b', loadAmplitudes n v b = (.ok (), b') ∧ Carries (bounded hR hround n) v b' ∧
      b'.batchDepth = 0 := by
  have hloaded := (post_loadAmplitudes_loaded (lossy hR hround) b hn hfits hv).and
    (post_loadAmplitudes hR b hn hfits hv)
  unfold Call.Post at hloaded
  rcases hcall : loadAmplitudes n v b with ⟨r, b'⟩
  rw [hcall] at hloaded
  cases r with
  | ok a =>
      rcases hloaded with ⟨⟨x, hx⟩, _⟩
      exact ⟨b', rfl, hx.near hv, hx.depth⟩
  | error e => exact hloaded.2.elim

/--
After a vector has been loaded and any run of operations that stretch no distance, every call
answers for a vector whose distance from the exact one is at most the error of the load plus
that of one chunk for each acquisition the cache has counted.
-/
theorem lossy_runs_stay_close (hn : n ≤ 31) (hfits : ChunkLayout.Fits (2 ^ n) P.chunkStates)
    (hv : v.length = 2 * 2 ^ n) (b : CompressedStateBackend P) {ops : List (BackendOp Real)}
    {op : BackendOp Real}
    (hops : forall o, o ∈ ops ++ [op] -> o.size = none ∧ o.ArgumentsOk n ∧ o.Contracts)
    (hvalid : BackendOp.ValidRun (some (n, 0)) (ops ++ [op])) :
    (loadAmplitudes n v b).1 = .ok () ∧
      Answered epsilon
        (ops.foldl LogicalState.after { numQubits := n, amplitudes := v, depth := 0 }) op
        (reached BackendOp.run ops (loadAmplitudes n v b).2) := by
  rcases near_loadAmplitudes hR hround hn hfits hv b with ⟨b', hload, hnear, hdepth⟩
  rw [hload]
  exact ⟨rfl, answered_reached hnear hdepth hops hvalid⟩

omit hR hround in
/-- A codec that keeps the integer parts, with a Hadamard gate and an export. -/
theorem lossy_runs_stay_close_hadamard :
    let P := CodecPolicy.elementwise (fun x : Real => (⌊x⌋ : Real)) 1 2 (Nat.le_refl 1)
      (Nat.le_refl 2)
    (loadAmplitudes 1 [1, 0, 0, 0] (make P)).1 = .ok () ∧
      Answered 1 ([.applyHadamard 0].foldl LogicalState.after
          { numQubits := 1, amplitudes := [1, 0, 0, 0], depth := 0 })
        .exportAmplitudes
        (reached BackendOp.run [.applyHadamard 0] (loadAmplitudes 1 [1, 0, 0, 0] (make P)).2) := by
  intro P
  have hround : forall x, CloseElements 1 (x.map fun x : Real => (⌊x⌋ : Real)) x := by
    intro x i
    have hfloor : forall y : Real, |(⌊y⌋ : Real) - y| ≤ 1 := by
      intro y
      rw [abs_le]
      constructor <;> linarith [Int.floor_le y, Int.lt_floor_add_one y]
    rw [List.getD_eq_getElem?_getD, List.getD_eq_getElem?_getD, List.getElem?_map]
    cases x[i]? with
    | none => simp
    | some y => exact hfloor y
  refine lossy_runs_stay_close (CodecPolicy.rounds_elementwise _ _ _) hround (by decide)
    (by decide) rfl (make P) ?_ ⟨show 0 < 1 by decide, trivial, trivial⟩
  intro o ho
  simp only [List.cons_append, List.nil_append, List.mem_cons, List.not_mem_nil, or_false] at ho
  rcases ho with rfl | rfl
  · exact ⟨rfl, ⟨trivial, show 0 < 1 by decide⟩, trivial⟩
  · exact ⟨rfl, ⟨trivial, trivial⟩, trivial⟩

end Runs

end CompressedStateBackend

end Tmfqs
