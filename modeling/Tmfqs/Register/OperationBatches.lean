import Tmfqs.Register.DenseRegister
import Tmfqs.Storage.CompressedRefinement

/-!
# Operation batches

Whether a program can tell that its operations were batched.  The dense backend keeps
no count of open batches; the compressed one does, and an initialising call sets it
to zero.
-/

namespace Tmfqs

open Library QuantumRegister

namespace RegisterOp

variable {R : Type}

def isBatch : RegisterOp R -> Bool
  | beginOperationBatch => true
  | endOperationBatch => true
  | _ => false

/-- Every batch that is opened is closed, with `depth` batches open before. -/
def Nested : Nat -> List (RegisterOp R) -> Prop
  | depth, [] => depth = 0
  | depth, beginOperationBatch :: rest => Nested (depth + 1) rest
  | 0, endOperationBatch :: _ => False
  | depth + 1, endOperationBatch :: rest => Nested depth rest
  | depth, _ :: rest => Nested depth rest

/-- The storage is initialised anew only while no batch is open. -/
def InitsUnbatched : Nat -> List (RegisterOp R) -> Prop
  | _, [] => True
  | depth, beginOperationBatch :: rest => InitsUnbatched (depth + 1) rest
  | depth, endOperationBatch :: rest => InitsUnbatched (depth - 1) rest
  | depth, loadAmplitudes _ :: rest => depth = 0 ∧ InitsUnbatched depth rest
  | depth, initUniformSuperposition _ :: rest => depth = 0 ∧ InitsUnbatched depth rest
  | depth, _ :: rest => InitsUnbatched depth rest

/-- The sequence with all batch calls removed. -/
def unbatched (ops : List (RegisterOp R)) : List (RegisterOp R) :=
  ops.filter fun op => !op.isBatch

/-- What the calls that are no batch calls returned. -/
def unbatchedOutcomes {α : Type} (ops : List (RegisterOp R)) (outs : List α) : List α :=
  ((ops.zip outs).filter fun x => !x.1.isBatch).map Prod.snd

/--
Batching is transparent: no `endOperationBatch` throws, and the other calls return what
they return without batch calls.
-/
def Transparent {α : Type} (ops : List (RegisterOp R)) (outs outs' : List (Except ExcKind α)) :
    Prop :=
  (forall out, (endOperationBatch, out) ∈ ops.zip outs -> out.isOk = true) ∧
    unbatchedOutcomes ops outs = outs'

end RegisterOp

/-!
## Batches of an eager register
-/

section Eager

open RegisterOp

variable {R : Type} [Field R] [LinearOrder R] [CMath R] {rules : EagerRules R}

theorem spec_depth_irrelevant (rules : EagerRules R) {op : RegisterOp R} (hop : op.isBatch = false) (n : Nat)
    (v : List R) (d d' : Nat) :
    exists out v' d1 d1', op.spec rules ⟨n, v, d⟩ = (out, ⟨n, v', d1⟩) ∧
      op.spec rules ⟨n, v, d'⟩ = (out, ⟨n, v', d1'⟩) := by
  cases op with
  | beginOperationBatch => cases hop
  | endOperationBatch => cases hop
  | _ => exact ⟨_, _, _, _, rfl, rfl⟩

theorem unbatchedOutcomes_spec (ops : List (RegisterOp R)) :
    forall (n : Nat) (v : List R) (d d' : Nat),
      unbatchedOutcomes ops (outcomes (RegisterOp.spec rules) ops ⟨n, v, d⟩) =
        outcomes (RegisterOp.spec rules) (unbatched ops) ⟨n, v, d'⟩ := by
  induction ops with
  | nil =>
      intro n v d d'
      rfl
  | cons op rest ih =>
      intro n v d d'
      cases hop : op.isBatch with
      | true =>
          obtain ⟨d1, hstate⟩ : exists d1, (op.spec rules ⟨n, v, d⟩).2 = ⟨n, v, d1⟩ := by
            cases op <;> first | exact ⟨_, rfl⟩ | cases hop
          have hcons : unbatched (op :: rest) = unbatched rest := by
            simp [unbatched, hop]
          rw [hcons, outcomes_cons, hstate, ← ih n v d1 d']
          simp only [unbatchedOutcomes, List.zip_cons_cons, List.filter_cons, hop, Bool.not_true,
            Bool.false_eq_true, if_false]
      | false =>
          obtain ⟨out, v', d1, d1', hspec, hspec'⟩ :=
            spec_depth_irrelevant rules hop n v d d'
          have hcons : unbatched (op :: rest) = op :: unbatched rest := by
            simp [unbatched, hop]
          rw [hcons, outcomes_cons, outcomes_cons, hspec, hspec', ← ih n v' d1 d1']
          simp only [unbatchedOutcomes, List.zip_cons_cons, List.filter_cons, hop, Bool.not_false,
            if_true, List.map_cons]

/-- While the storage counts the batches of the caller, every end is matched. -/
theorem ends_ok (ops : List (RegisterOp R)) : forall (n : Nat) (v : List R) (d : Nat),
    Nested d ops -> InitsUnbatched d ops ->
      forall out, (endOperationBatch, out) ∈
        ops.zip (outcomes (RegisterOp.spec rules) ops ⟨n, v, d⟩) -> out.isOk = true := by
  induction ops with
  | nil =>
      intro n v d _ _ out hout
      cases hout
  | cons op rest ih =>
      intro n v d hnested hinits out hout
      rw [outcomes_cons, List.zip_cons_cons] at hout
      cases op with
      | beginOperationBatch =>
          rcases List.mem_cons.mp hout with heq | hrest
          · cases heq
          · exact ih n v (d + 1) hnested hinits out hrest
      | endOperationBatch =>
          cases d with
          | zero => exact hnested.elim
          | succ d =>
              rcases List.mem_cons.mp hout with heq | hrest
              · cases heq
                rfl
              · exact ih n v d hnested hinits out hrest
      | loadAmplitudes data =>
          obtain ⟨rfl, hinits⟩ := hinits
          rcases List.mem_cons.mp hout with heq | hrest
          · cases heq
          · exact ih n data 0 hnested hinits out hrest
      | initUniformSuperposition states =>
          obtain ⟨rfl, hinits⟩ := hinits
          rcases List.mem_cons.mp hout with heq | hrest
          · cases heq
          · exact ih n _ 0 hnested hinits out hrest
      | _ =>
          rcases List.mem_cons.mp hout with heq | hrest
          · cases heq
          · exact ih n _ d hnested hinits out hrest

/-- With fewer batches open in the storage than at the caller, some end throws. -/
theorem exists_unmatched {e : ExcKind} (hrules : rules.unmatchedEnd = .error e)
    (ops : List (RegisterOp R)) : forall (n : Nat) (v : List R) (stored d : Nat), stored < d ->
      Nested d ops -> (endOperationBatch, .error e) ∈
        ops.zip (outcomes (RegisterOp.spec rules) ops ⟨n, v, stored⟩) := by
  induction ops with
  | nil =>
      intro n v stored d hlt hnested
      have hzero : d = 0 := hnested
      omega
  | cons op rest ih =>
      intro n v stored d hlt hnested
      rw [outcomes_cons, List.zip_cons_cons, List.mem_cons]
      cases op with
      | beginOperationBatch => exact Or.inr (ih n v (stored + 1) (d + 1) (by omega) hnested)
      | endOperationBatch =>
          cases d with
          | zero => exact hnested.elim
          | succ d =>
              cases stored with
              | zero =>
                  left
                  simp only [RegisterOp.spec, LogicalState.eagerAnswer, if_true, hrules]
              | succ stored => exact Or.inr (ih n v stored d (by omega) hnested)
      | loadAmplitudes data => exact Or.inr (ih n data 0 d (by omega) hnested)
      | initUniformSuperposition states => exact Or.inr (ih n _ 0 d (by omega) hnested)
      | _ => exact Or.inr (ih n _ stored d hlt hnested)

theorem exists_unmatched_of_init {e : ExcKind} (hrules : rules.unmatchedEnd = .error e)
    (ops : List (RegisterOp R)) : forall (n : Nat) (v : List R) (d : Nat), Nested d ops ->
      ¬ InitsUnbatched d ops -> (endOperationBatch, .error e) ∈
        ops.zip (outcomes (RegisterOp.spec rules) ops ⟨n, v, d⟩) := by
  induction ops with
  | nil =>
      intro n v d _ hinits
      exact (hinits trivial).elim
  | cons op rest ih =>
      intro n v d hnested hinits
      rw [outcomes_cons, List.zip_cons_cons, List.mem_cons]
      right
      cases op with
      | beginOperationBatch => exact ih n v (d + 1) hnested hinits
      | endOperationBatch =>
          cases d with
          | zero => exact hnested.elim
          | succ d => exact ih n v d hnested hinits
      | loadAmplitudes data =>
          by_cases hd : d = 0
          · subst hd
            exact ih n data 0 hnested fun hrest => hinits ⟨rfl, hrest⟩
          · exact exists_unmatched hrules rest n data 0 d (by omega) hnested
      | initUniformSuperposition states =>
          by_cases hd : d = 0
          · subst hd
            exact ih n _ 0 hnested fun hrest => hinits ⟨rfl, hrest⟩
          · exact exists_unmatched hrules rest n _ 0 d (by omega) hnested
      | _ => exact ih n _ d hnested hinits

/-- A storage that never complains about an end lets every sequence be batched. -/
theorem transparent_of_ends {a : Answer R} (hrules : rules.unmatchedEnd = .ok a)
    (ops : List (RegisterOp R)) (n : Nat) (v : List R) (d d' : Nat) :
    Transparent ops (outcomes (RegisterOp.spec rules) ops ⟨n, v, d⟩)
      (outcomes (RegisterOp.spec rules) (unbatched ops) ⟨n, v, d'⟩) := by
  refine ⟨?_, unbatchedOutcomes_spec ops n v d d'⟩
  induction ops generalizing v d with
  | nil =>
      intro out hout
      cases hout
  | cons op rest ih =>
      intro out hout
      rw [outcomes_cons, List.zip_cons_cons] at hout
      rcases List.mem_cons.mp hout with heq | hrest
      · rw [Prod.mk.injEq] at heq
        obtain ⟨rfl, rfl⟩ := heq
        simp only [RegisterOp.spec, LogicalState.eagerAnswer, hrules]
        split <;> rfl
      · exact ih _ _ out hrest

/-- A storage that throws at an unmatched end must not be initialised inside a batch. -/
theorem transparent_iff {e : ExcKind} (hrules : rules.unmatchedEnd = .error e)
    {ops : List (RegisterOp R)} (n : Nat) (v : List R) (hnested : Nested 0 ops) :
    Transparent ops (outcomes (RegisterOp.spec rules) ops ⟨n, v, 0⟩)
        (outcomes (RegisterOp.spec rules) (unbatched ops) ⟨n, v, 0⟩) <->
      InitsUnbatched 0 ops := by
  constructor
  · intro h
    by_contra hinits
    cases h.1 _ (exists_unmatched_of_init hrules ops n v 0 hnested hinits)
  · intro hinits
    exact ⟨ends_ok ops n v 0 hnested hinits, unbatchedOutcomes_spec ops n v 0 0⟩

end Eager

/-!
## Batches of the two backends
-/

section Backends

open RegisterOp

variable {R : Type} [Field R] [LinearOrder R] [CMath R] {β : Type} [IStateBackend R β]

/-- The outcomes of a run up to the texts of the exceptions. -/
def RegisterOp.kinds (ops : List (RegisterOp R)) (r : QuantumRegister R β) :
    List (Except ExcKind (Answer R)) :=
  (outcomes RegisterOp.run ops r).map (Except.mapError Exc.kind)

theorem kinds_eq_spec [IsStrictOrderedRing R] {sv : StoresVector (R := R) β}
    {unmatched : Except ExcKind (Answer R)} (hend : EndsUnmatched sv unmatched) {n : Nat}
    {v : List R} {r : QuantumRegister R β} (h : Lazy sv n v 0 r) {ops : List (RegisterOp R)}
    (hvalid : forall op, op ∈ ops -> op.Valid n) :
    RegisterOp.kinds ops r =
      outcomes (RegisterOp.spec (eagerRules sv unmatched)) ops ⟨n, v, 0⟩ :=
  (trace_eq_eager hend h hvalid).1

theorem CompressedStateBackend.endsUnmatched {B : Type} {P : CodecPolicy R B}
    (hP : P.Lossless) :
    EndsUnmatched (CompressedStateBackend.storesVector hP) (.error .logicError) := by
  intro n v r h
  obtain ⟨w, hw, hv⟩ := h.stored
  rw [RegisterOp.run, BackendOp.command, Call.post_bind_iff]
  refine (post_onBackend (CompressedStateBackend.endOperationBatch_of_closed hw.2.2)).imp ?_ ?_
  · rintro _ _ ⟨b, hfalse, _⟩
    exact hfalse.elim
  · rintro e _ ⟨b, ⟨hkind, rfl⟩, rfl⟩
    exact ⟨by rw [hkind], h⟩

omit [LinearOrder R] [CMath R] [IStateBackend R β] in
theorem construct_ne_of_throws {selected : β} {call : Call β Unit} {n : Nat}
    (hcall : forall b, Call.Post call b (fun _ _ => False) (fun _ _ => True))
    {r : QuantumRegister R β} :
    construct selected
      ((initializeBackend selected n : Call (QuantumRegister R β) Unit) >>=
        fun _ => onBackend call) ≠ .ok r := by
  intro hr
  have hpost : Call.Post
      ((initializeBackend selected n : Call (QuantumRegister R β) Unit) >>=
        fun _ => onBackend call) (uninitialized selected) (fun _ _ => False)
      (fun _ _ => True) := by
    rw [Call.post_bind_iff]
    unfold Call.Post
    rcases initializeBackend selected n (uninitialized selected) with ⟨result, r0⟩
    cases result with
    | ok a =>
        exact (post_onBackend (hcall r0.backend)).imp (fun _ _ ⟨_, hfalse, _⟩ => hfalse)
          (fun _ _ _ => trivial)
    | error e => trivial
  rw [construct] at hr
  rw [Call.Post] at hpost
  split at hr
  · rename_i heq
    rw [heq] at hpost
    exact hpost
  · cases hr

theorem CompressedStateBackend.fits_of_constructed {B : Type} {P : CodecPolicy R B}
    (hchunk : 2 * P.chunkStates < 2 ^ 64) {n : Nat} {v : List R}
    {r : QuantumRegister R (CompressedStateBackend P)}
    (h : Constructed (CompressedStateBackend.make P) n v r) :
    ChunkLayout.Fits (2 ^ n) P.chunkStates := by
  by_contra hfits
  cases h with
  | @basis s amp _ hn hs hr =>
      refine construct_ne_of_throws ?_ hr
      intro b
      change Call.Post
        (CompressedStateBackend.initBasis n s amp : Call (CompressedStateBackend P) Unit) b _ _
      rw [CompressedStateBackend.initBasis, CompressedStateBackend.initZero, Call.post_bind_iff,
        Call.post_bind_iff]
      exact (CompressedStateBackend.configureStorage_of_not_fits b hn hchunk hfits).imp
        (fun _ _ hfalse => hfalse.elim) (fun _ _ _ => trivial)
  | amplitudes hn hv hr =>
      refine construct_ne_of_throws ?_ hr
      intro b
      change Call.Post
        (CompressedStateBackend.loadAmplitudes n v : Call (CompressedStateBackend P) Unit) b _ _
      rw [CompressedStateBackend.loadAmplitudes, Call.post_bind_iff]
      exact (CompressedStateBackend.configureStorage_of_not_fits b hn hchunk hfits).imp
        (fun _ _ hfalse => hfalse.elim) (fun _ _ _ => trivial)

end Backends

/-!
## When batching is transparent
-/

section Transparency

open RegisterOp

/--
Batching is always transparent on the dense backend, and on a lossless compressed one
exactly when no initialising operation comes inside a batch.
-/
theorem batching_transparent_iff {B : Type} {P : CodecPolicy Real B} (hP : P.Lossless)
    (hchunk : 2 * P.chunkStates < 2 ^ 64) {n : Nat} {v : List Real}
    {dense : QuantumRegister Real (DenseStateBackend Real)}
    {compressed : QuantumRegister Real (CompressedStateBackend P)}
    (hdense : Constructed DenseStateBackend.make n v dense)
    (hcompressed : Constructed (CompressedStateBackend.make P) n v compressed)
    {ops : List (RegisterOp Real)} (hvalid : forall op, op ∈ ops -> op.Valid n)
    (hnested : Nested 0 ops) :
    Transparent ops (kinds ops dense) (kinds (unbatched ops) dense) ∧
      (Transparent ops (kinds ops compressed) (kinds (unbatched ops) compressed) <->
        InitsUnbatched 0 ops) := by
  have hvalid' : forall op, op ∈ unbatched ops -> op.Valid n :=
    fun op hop => hvalid op (List.mem_filter.mp hop).1
  have hlazy : Lazy DenseStateBackend.storesVector n v 0 dense := hdense.lazy trivial
  have hlazy' : Lazy (CompressedStateBackend.storesVector hP) n v 0 compressed :=
    hcompressed.lazy (CompressedStateBackend.fits_of_constructed hchunk hcompressed)
  constructor
  · rw [kinds_eq_spec DenseRegister.endsUnmatched hlazy hvalid,
      kinds_eq_spec DenseRegister.endsUnmatched hlazy hvalid']
    exact transparent_of_ends rfl ops n v 0 0
  · rw [kinds_eq_spec (CompressedStateBackend.endsUnmatched hP) hlazy' hvalid,
      kinds_eq_spec (CompressedStateBackend.endsUnmatched hP) hlazy' hvalid']
    exact transparent_iff rfl n v hnested

def plainCodec : CodecPolicy Real Real :=
  CodecPolicy.elementwise id 1 2 Nat.one_pos Nat.one_lt_two

theorem lossless_plainCodec : plainCodec.Lossless :=
  CodecPolicy.lossless_elementwise _ _

theorem exists_compressed (v : List Real) (hv : v.length = 2 * 2 ^ 1) :
    exists r, Constructed (CompressedStateBackend.make plainCodec) 1 v r ∧
      Lazy (CompressedStateBackend.storesVector lossless_plainCodec) 1 v 0 r := by
  have hfits : ChunkLayout.Fits (2 ^ 1) 1 := by decide
  have hdoes : Does (initAmplitudes (CompressedStateBackend.make plainCodec) 1 v)
      (uninitialized (CompressedStateBackend.make plainCodec))
      (Lazy (CompressedStateBackend.storesVector lossless_plainCodec) 1 v 0) :=
    does_initAmplitudes _ (by decide) hfits hv
  obtain ⟨r, hr, hlazy⟩ := post_construct hdoes
  exact ⟨r, .amplitudes (by decide) hv hr, hlazy⟩

theorem batching_transparent_iff_hadamard :
    exists (dense : DenseRegister Real)
      (compressed : QuantumRegister Real (CompressedStateBackend plainCodec)),
      let ops : List (RegisterOp Real) :=
        [.beginOperationBatch, .applyHadamard 0, .endOperationBatch, .amplitude 0]
      Transparent ops (kinds ops dense) (kinds (unbatched ops) dense) ∧
        (Transparent ops (kinds ops compressed) (kinds (unbatched ops) compressed) <->
          InitsUnbatched 0 ops) := by
  obtain ⟨dense, hdense, _⟩ := DenseRegister.exists_ofAmplitudes (n := 1)
    (v := [(1 : Real), 0, 0, 0]) (by decide) rfl
  obtain ⟨compressed, hcompressed, _⟩ := exists_compressed [1, 0, 0, 0] rfl
  refine ⟨dense, compressed, ?_⟩
  refine batching_transparent_iff lossless_plainCodec (by decide)
    (.amplitudes (by decide) rfl hdense) hcompressed ?_ rfl
  intro op hop
  simp only [List.mem_cons, List.not_mem_nil, or_false] at hop
  rcases hop with rfl | rfl | rfl | rfl
  · trivial
  · exact Nat.one_pos
  · trivial
  · exact Nat.two_pow_pos 1

/-- Loading amplitudes inside a batch: closing the batch throws. -/
theorem load_in_batch_throws :
    exists compressed : QuantumRegister Real (CompressedStateBackend plainCodec),
      Constructed (CompressedStateBackend.make plainCodec) 1 [1, 0, 0, 0] compressed ∧
        kinds [.beginOperationBatch, .loadAmplitudes [0, 0, 1, 0], .endOperationBatch] compressed =
          [.ok .done, .ok .done, .error .logicError] := by
  obtain ⟨compressed, hcompressed, hlazy⟩ := exists_compressed [1, 0, 0, 0] rfl
  refine ⟨compressed, hcompressed, ?_⟩
  rw [kinds_eq_spec (CompressedStateBackend.endsUnmatched _) hlazy]
  · rfl
  · intro op hop
    simp only [List.mem_cons, List.not_mem_nil, or_false] at hop
    rcases hop with rfl | rfl | rfl
    · trivial
    · rfl
    · trivial

end Transparency

end Tmfqs
