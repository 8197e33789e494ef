import Tmfqs.Storage.CompressedSafety

/-!
# Rejected backend calls

A call on an initialised backend that is rejected for its arguments leaves the backend
as it was, unless it is an initialising one: those resize or wipe the storage first.
-/

namespace Tmfqs

open Library

/-- The backends that calls from `start` on lead to, all of them `Clean`, and their clones. -/
inductive CleanlyReached {R β : Type} [IStateBackend R β] (Clean : BackendOp R -> β -> Prop)
    (start : β) : β -> Prop where
  | made : CleanlyReached Clean start start
  | called {b : β} (h : CleanlyReached Clean start b) (op : BackendOp R) (hop : Clean op b) :
      CleanlyReached Clean start (op.run b).2
  | cloned {b : β} (h : CleanlyReached Clean start b) :
      CleanlyReached Clean start (IStateBackend.clone b)

def Undisturbed {R β : Type} [IStateBackend R β] (op : BackendOp R) (b : β) : Prop :=
  forall e, (op.run b).1 = .error e -> e.kind.rejection = true -> (op.run b).2 = b

namespace ChecksArguments

variable {R : Type} [Field R] [LinearOrder R] {β : Type} [IStateBackend R β]
  {G : ChecksArguments (R := R) β} {n : Nat} {b : β} {op : BackendOp R}

/-- Only unusable arguments are rejected, and those before anything changes. -/
theorem undisturbed (h : G.Ready n b) (hsize : op.size = none) : Undisturbed op b := by
  intro e he hkind
  by_cases hop : op.ArgumentsOk n
  · have hpost := G.call h hsize hop
    unfold Call.Post at hpost
    rcases hrun : op.run b with ⟨r, b'⟩
    rw [hrun] at hpost he
    cases r with
    | ok a => cases he
    | error e' =>
        cases he
        rw [hpost.1.rejection] at hkind
        cases hkind
  · rcases G.rejects h hsize hop with ⟨e', hrun, _⟩
    rw [hrun]

theorem ready_after (h : G.Ready n b) (hsize : op.size = none) : G.Ready n (op.run b).2 := by
  by_cases hop : op.ArgumentsOk n
  · have hpost := G.call h hsize hop
    unfold Call.Post at hpost
    rcases hrun : op.run b with ⟨r, b'⟩
    rw [hrun] at hpost
    cases r with
    | ok a => exact hpost
    | error e => exact hpost.2
  · rcases G.rejects h hsize hop with ⟨e, hrun, _⟩
    rw [hrun]
    exact h

theorem ready_init (b : β) (hsize : op.size = some n) (hop : op.ValidInit) (hn : G.Size n) :
    G.Ready n (op.run b).2 ∧ exists a, (op.run b).1 = .ok a := by
  have hpost := G.init b hsize hop hn
  unfold Does Call.Post at hpost
  rcases hrun : op.run b with ⟨r, b'⟩
  rw [hrun] at hpost
  cases r with
  | ok a => exact ⟨hpost, a, rfl⟩
  | error e => exact hpost.elim

end ChecksArguments

/-!
## Calls that throw at once
-/

def Refused {σ α : Type} (x : Call σ α) (s : σ) : Prop :=
  exists e, x s = (.error e, s)

section Refusals

variable {R σ α β : Type} {x : Call σ α} {s : σ}

theorem refused_throw (e : Exc) (s : σ) : Refused (throw e : Call σ α) s :=
  ⟨e, rfl⟩

theorem Refused.after {a : α} {f : α -> Call σ β} (hx : x s = (.ok a, s))
    (hf : Refused (f a) s) : Refused (x >>= f) s := by
  rcases hf with ⟨e, he⟩
  exact ⟨e, (Call.bind_ok hx f).trans he⟩

theorem Refused.bind (h : Refused x s) (f : α -> Call σ β) : Refused (x >>= f) s := by
  rcases h with ⟨e, he⟩
  exact ⟨e, Call.bind_error he f⟩

theorem Refused.command {call : Call σ Unit} (h : Refused call s) :
    (BackendOp.command (R := R) call s).2 = s := by
  rcases h with ⟨e, he⟩
  rw [BackendOp.command, Call.bind_error he]

theorem Refused.query {wrap : α -> Answer R} (h : Refused x s) :
    (BackendOp.query wrap x s).2 = s := by
  rcases h with ⟨e, he⟩
  rw [BackendOp.query, Call.bind_error he]

theorem command_state (call : Call σ Unit) (s : σ) :
    (BackendOp.command (R := R) call s).2 = (call s).2 := by
  rw [BackendOp.command, Call.bind_apply]
  rcases call s with ⟨r, s'⟩
  cases r with
  | ok a => rfl
  | error e => rfl

end Refusals

namespace BackendOp

variable {R : Type}

/-- The calls that read or change the amplitudes of an initialised backend. -/
def NeedsState : BackendOp R -> Prop
  | initZero _ => False
  | initBasis _ _ _ => False
  | initUniformSuperposition _ _ => False
  | loadAmplitudes _ _ => False
  | beginOperationBatch => False
  | endOperationBatch => False
  | _ => True

theorem needsState_or_batch {op : BackendOp R} (hsize : op.size = none) :
    op.NeedsState ∨ op = beginOperationBatch ∨ op = endOperationBatch := by
  cases op with
  | initZero m => cases hsize
  | initBasis m t amp => cases hsize
  | initUniformSuperposition m states => cases hsize
  | loadAmplitudes m data => cases hsize
  | beginOperationBatch => exact Or.inr (Or.inl rfl)
  | endOperationBatch => exact Or.inr (Or.inr rfl)
  | _ => exact Or.inl trivial

end BackendOp

/-!
## The dense backend
-/

namespace DenseStateBackend

variable {R : Type} [Field R] [LinearOrder R] [CMath R] {b : DenseStateBackend R}

/-- What `ensureInitialized` asks for. -/
def Initialized (b : DenseStateBackend R) : Prop :=
  0 < b.numStates ∧ b.amplitudes ≠ []

def AcceptsInit : BackendOp R -> Prop
  | .initZero n => n ≤ 63
  | .loadAmplitudes n data => n ≤ 63 ∧ data.length = u64 (2 ^ n * 2)
  | op => op.ValidInit

/--
Not an initialising call with unusable arguments, except for a load of the recorded
number of qubits.
-/
def Clean (op : BackendOp R) (b : DenseStateBackend R) : Prop :=
  op.size = none ∨ AcceptsInit op ∨
    (b.Initialized ∧ exists data, op = .loadAmplitudes b.numQubits data)

def SizesAgree (b : DenseStateBackend R) : Prop :=
  b.numStates = 2 ^ b.numQubits ∧ b.amplitudes.length = 2 * b.numStates

omit [Field R] [LinearOrder R] [CMath R] in
theorem refused_ensureInitialized (h : b.numStates = 0) (operation : String) :
    Refused (ensureInitialized operation) b := by
  have hidle : decide (b.numStates > 0 ∧ (!b.amplitudes.isEmpty) = true) = false := by
    simp [h]
  apply Refused.after (Call.get_apply b)
  rw [hidle]
  exact refused_throw _ b

/-- Before it is initialised a backend throws on every call that needs a state. -/
theorem refused_run (h : b.numStates = 0) {op : BackendOp R} (hneeds : op.NeedsState) :
    Refused op.run b := by
  have idle := refused_ensureInitialized h
  cases op with
  | initZero m => exact hneeds.elim
  | initBasis m t amp => exact hneeds.elim
  | initUniformSuperposition m states => exact hneeds.elim
  | loadAmplitudes m data => exact hneeds.elim
  | setAmplitude t amp => exact ((idle _).bind _).bind _
  | phaseFlipBasisState t => exact ((idle _).bind _).bind _
  | inversionAboutMean => exact ((idle _).bind _).bind _
  | inversionAboutMeanWith mean => exact ((idle _).bind _).bind _
  | applyAffineTransform scale bias => exact ((idle _).bind _).bind _
  | applyHadamard q => exact (((idle _).bind _).bind _).bind _
  | applyPauliX q => exact (((idle _).bind _).bind _).bind _
  | applyControlledPhaseShift c q theta => exact (((idle _).bind _).bind _).bind _
  | applyControlledNot c q => exact (((idle _).bind _).bind _).bind _
  | applyGate gate qubits => exact ((idle _).bind _).bind _
  | beginOperationBatch => exact hneeds.elim
  | endOperationBatch => exact hneeds.elim
  | amplitude t => exact ((idle _).bind _).bind _
  | probability t => exact (((idle _).bind _).bind _).bind _
  | totalProbability => exact ((idle _).bind _).bind _
  | exportAmplitudes => exact ((idle _).bind _).bind _
  | forEachAmplitudeChunk => exact ((idle _).bind _).bind _
  | sampleMeasurement rnd => exact ((idle _).bind _).bind _
  | printNonZeroStates epsilon => exact ((idle _).bind _).bind _

theorem run_uninitialized (h : b.numStates = 0) {op : BackendOp R} (hsize : op.size = none) :
    (op.run b).2 = b := by
  rcases BackendOp.needsState_or_batch hsize with hneeds | hbegin | hend
  · rcases refused_run h hneeds with ⟨e, he⟩
    rw [he]
  · rw [hbegin]
    rfl
  · rw [hend]
    rfl

/-!
### Initialising calls
-/

theorem u32_two_pow_of_ge {n : Nat} (h : 32 ≤ n) : u32 (2 ^ n) = 0 :=
  Nat.mod_eq_zero_of_dvd (Nat.pow_dvd_pow 2 h)

omit [Field R] [LinearOrder R] [CMath R] in
theorem setSize_large (b : DenseStateBackend R) {n : Nat} (hlarge : 32 ≤ n) (hn : n ≤ 63) :
    setSize n b = (.ok (), { b with numQubits := n, numStates := 0 }) := by
  simp [setSize, Call.bind_apply, checkedStateCount_eq hn, u32_two_pow_of_ge hlarge]

theorem checkedAmplitudeElementCount_le {σ : Type} {n : Nat} (hn : n ≤ 63) :
    (checkedAmplitudeElementCount n : Call σ Nat) = pure (u64 (2 ^ n * 2)) := by
  rw [checkedAmplitudeElementCount, checkedStateCount_eq hn, pure_bind]

theorem u64_element_count {n : Nat} (hn : n ≤ 31) : u64 (2 ^ n * 2) = 2 * 2 ^ n := by
  have hlt := two_pow_lt_u32 hn
  rw [u64_of_lt (by omega), Nat.mul_comm]

omit [LinearOrder R] [CMath R] in
theorem initZero_large (b : DenseStateBackend R) {n : Nat} (hlarge : 32 ≤ n) (hn : n ≤ 63) :
    exists b', initZero n b = (.ok (), b') ∧ b'.numStates = 0 := by
  rw [initZero, Call.bind_ok (setSize_large b hlarge hn), checkedAmplitudeElementCount_le hn]
  exact ⟨_, rfl, rfl⟩

omit [Field R] [LinearOrder R] [CMath R] in
theorem loadAmplitudes_large (b : DenseStateBackend R) {n : Nat} {data : List R}
    (hlarge : 32 ≤ n) (hn : n ≤ 63) (hdata : data.length = u64 (2 ^ n * 2)) :
    exists b', loadAmplitudes n data b = (.ok (), b') ∧ b'.numStates = 0 := by
  rw [loadAmplitudes, Call.bind_ok (setSize_large b hlarge hn),
    checkedAmplitudeElementCount_le hn, pure_bind, if_neg (not_not.mpr hdata)]
  exact ⟨_, rfl, rfl⟩

omit [Field R] [LinearOrder R] [CMath R] in
theorem loadAmplitudes_mismatch (b : DenseStateBackend R) {n : Nat} {data : List R}
    (hn : n ≤ 31) (hdata : data.length ≠ 2 * 2 ^ n) :
    loadAmplitudes n data b =
      (.error (invalidArgument "DenseStateBackend: amplitudes size mismatch"),
        holding n b.amplitudes) := by
  rw [loadAmplitudes, Call.bind_ok (setSize_eq b hn),
    checkedAmplitudeElementCount_eq (show n ≤ 62 by omega), pure_bind, if_pos hdata]
  rfl

/-!
### Runs
-/

def Settled (b : DenseStateBackend R) : Prop :=
  (exists n, checksArguments.Ready n b) ∨ b.numStates = 0

theorem Settled.ready (h : b.Settled) (hb : b.Initialized) :
    exists n, checksArguments.Ready n b := by
  cases h with
  | inl hready => exact hready
  | inr hzero =>
      rw [Initialized, hzero] at hb
      exact absurd hb.1 (Nat.lt_irrefl 0)

def Settles (op : BackendOp R) (b : DenseStateBackend R) : Prop :=
  exists a b', op.run b = (.ok a, b') ∧ Settled b'

theorem settles_init (op : BackendOp R) {n : Nat} (b : DenseStateBackend R)
    (hsize : op.size = some n) (hop : op.ValidInit) : Settles op b := by
  rcases ChecksArguments.ready_init (G := checksArguments) b hsize hop trivial with ⟨h, a, ha⟩
  exact ⟨a, (op.run b).2, Prod.ext ha rfl, Or.inl ⟨n, h⟩⟩

theorem settles_command {op : BackendOp R} {call : Call (DenseStateBackend R) Unit}
    (hop : op.run = BackendOp.command call)
    (h : exists b', call b = (.ok (), b') ∧ b'.numStates = 0) : Settles op b := by
  rcases h with ⟨b', hcall, hzero⟩
  refine ⟨.done, b', ?_, Or.inr hzero⟩
  rw [hop, BackendOp.command, Call.bind_ok hcall]
  rfl

theorem settles_accepted (op : BackendOp R) (b : DenseStateBackend R) (hsize : op.size ≠ none)
    (hop : AcceptsInit op) : Settles op b := by
  cases op with
  | initZero n =>
      rcases Nat.lt_or_ge n 32 with hn | hn
      · exact settles_init (.initZero n) b rfl (Nat.le_of_lt_succ hn)
      · exact settles_command rfl (initZero_large b hn hop)
  | initBasis n s amp => exact settles_init (.initBasis n s amp) b rfl hop
  | initUniformSuperposition n states =>
      exact settles_init (.initUniformSuperposition n states) b rfl hop
  | loadAmplitudes n data =>
      rcases Nat.lt_or_ge n 32 with hn | hn
      · have hn' : n ≤ 31 := Nat.le_of_lt_succ hn
        exact settles_init (.loadAmplitudes n data) b rfl
          ⟨hn', hop.2.trans (u64_element_count hn')⟩
      · exact settles_command rfl (loadAmplitudes_large b hn hop.1 hop.2)
  | _ => exact absurd rfl hsize

/-- A load of the recorded size either replaces all amplitudes or changes nothing. -/
theorem Holds.reload {n : Nat} {v : List R} (h : Holds n v b) (data : List R) :
    (BackendOp.loadAmplitudes n data).run b = (.ok .done, holding n data) ∧
        Holds n data (holding n data) ∨
      exists e, (BackendOp.loadAmplitudes n data).run b = (.error e, b) := by
  by_cases hdata : data.length = 2 * 2 ^ n
  · apply Or.inl
    refine ⟨?_, h.qubits, hdata, rfl⟩
    change (BackendOp.command (loadAmplitudes n data)) b = _
    rw [BackendOp.command, Call.bind_ok (loadAmplitudes_eq b h.qubits hdata)]
    rfl
  · apply Or.inr
    have hsame : holding n b.amplitudes = b := by
      rw [h.eq]
      rfl
    refine ⟨invalidArgument "DenseStateBackend: amplitudes size mismatch", ?_⟩
    change (BackendOp.command (loadAmplitudes n data)) b = _
    rw [BackendOp.command, Call.bind_error (loadAmplitudes_mismatch b h.qubits hdata), hsame]

/-- One clean call: the backend stays settled, and a rejection leaves it as it was. -/
theorem Settled.run (h : b.Settled) {op : BackendOp R} (hop : Clean op b) :
    Settled (op.run b).2 ∧ Undisturbed op b := by
  by_cases hsize : op.size = none
  · cases h with
    | inl hready =>
        rcases hready with ⟨n, hn⟩
        exact ⟨Or.inl ⟨n, ChecksArguments.ready_after hn hsize⟩,
          ChecksArguments.undisturbed hn hsize⟩
    | inr hzero =>
        have hsame := run_uninitialized hzero hsize
        constructor
        · rw [hsame]
          exact Or.inr hzero
        · exact fun _ _ _ => hsame
  · rcases hop with hnone | haccepts | hreload
    · exact absurd hnone hsize
    · rcases settles_accepted op b hsize haccepts with ⟨a, b', hrun, hb'⟩
      constructor
      · rw [hrun]
        exact hb'
      · intro e he
        rw [hrun] at he
        cases he
    · rcases hreload with ⟨hb, data, rfl⟩
      rcases h.ready hb with ⟨n, v, hv⟩
      have hqubits : b.numQubits = n := by
        rw [hv.eq]
        rfl
      rw [hqubits]
      rcases hv.reload data with ⟨hrun, hloaded⟩ | ⟨e, hrun⟩
      · constructor
        · rw [hrun]
          exact Or.inl ⟨n, data, hloaded⟩
        · intro e he
          rw [hrun] at he
          cases he
      · constructor
        · rw [hrun]
          exact Or.inl ⟨n, v, hv⟩
        · intro e' _ _
          rw [hrun]

theorem Settled.of_reached (h : CleanlyReached Clean (make : DenseStateBackend R) b) :
    b.Settled := by
  induction h with
  | made => exact Or.inr rfl
  | called _ op hop ih => exact (ih.run hop).1
  | cloned _ ih => exact ih

theorem Settled.sizesAgree (h : b.Settled) (hb : b.Initialized) : b.SizesAgree := by
  rcases h.ready hb with ⟨n, v, hv⟩
  rw [hv.eq]
  exact ⟨rfl, hv.length⟩

end DenseStateBackend

/-!
## The compressed backend
-/

namespace CompressedStateBackend

variable {R B : Type} [Field R] [LinearOrder R] [CMath R] {P : CodecPolicy R B}
  {round : List R -> List R} {b : CompressedStateBackend P}

/-- What `ensureInitialized` asks for. -/
def Initialized (b : CompressedStateBackend P) : Prop :=
  0 < b.numStates ∧ b.store.chunks ≠ []

/-- Not an initialising call with unusable arguments or a size the layout cannot hold. -/
def Clean (op : BackendOp R) (_ : CompressedStateBackend P) : Prop :=
  op.size = none ∨
    (op.ValidInit ∧ forall n, op.size = some n -> ChunkLayout.Fits (2 ^ n) P.chunkStates)

def SizesAgree (b : CompressedStateBackend P) : Prop :=
  b.numStates = 2 ^ b.numQubits ∧
    (b.store.chunks.map fun chunk => chunk.elemCount).sum = 2 * b.numStates

def Idle (b : CompressedStateBackend P) : Prop :=
  b.numStates = 0 ∧ b.batchDepth = 0

omit [Field R] [LinearOrder R] [CMath R] in
theorem refused_ensureInitialized (h : ¬ b.Initialized) (operation : String) :
    Refused (ensureInitialized operation) b := by
  have hidle : decide (b.numStates > 0 ∧ (!b.store.chunks.isEmpty) = true) = false := by
    simpa [Initialized] using h
  apply Refused.after (Call.get_apply b)
  rw [hidle]
  exact refused_throw _ b

omit [Field R] [LinearOrder R] [CMath R] in
theorem refused_endOperationBatch (h : b.batchDepth = 0) : Refused endOperationBatch b := by
  apply Refused.after (Call.get_apply b)
  rw [if_pos h]
  exact (refused_throw _ b).bind _

theorem run_of_not_initialized (h : ¬ b.Initialized) (hdepth : b.batchDepth = 0)
    {op : BackendOp R} (hsize : op.size = none) : (op.run b).2 = b := by
  have idle : forall operation, Refused (ensureInitialized operation) b :=
    refused_ensureInitialized h
  have hend := refused_endOperationBatch hdepth
  cases op with
  | initZero m => cases hsize
  | initBasis m t amp => cases hsize
  | initUniformSuperposition m states => cases hsize
  | loadAmplitudes m data => cases hsize
  | setAmplitude t amp => exact ((idle _).bind _).command
  | phaseFlipBasisState t => exact ((idle _).bind _).command
  | inversionAboutMean => exact ((idle _).bind _).command
  | inversionAboutMeanWith mean => exact ((idle _).bind _).command
  | applyAffineTransform scale bias => exact ((idle _).bind _).command
  | applyHadamard q => exact ((idle _).bind _).command
  | applyPauliX q => exact ((idle _).bind _).command
  | applyControlledPhaseShift c q theta => exact ((idle _).bind _).command
  | applyControlledNot c q => exact ((idle _).bind _).command
  | applyGate gate qubits => exact ((idle _).bind _).command
  | beginOperationBatch => exact ((idle _).bind _).command
  | endOperationBatch => exact hend.command
  | amplitude t => exact ((idle _).bind _).query
  | probability t => exact (((idle _).bind _).bind _).query
  | totalProbability => exact ((idle _).bind _).query
  | exportAmplitudes => exact ((idle _).bind _).query
  | forEachAmplitudeChunk => exact ((idle _).bind _).query
  | sampleMeasurement rnd => exact ((idle _).bind _).query
  | printNonZeroStates epsilon => exact ((idle _).bind _).query

theorem Idle.run (h : b.Idle) {op : BackendOp R} (hsize : op.size = none) :
    (op.run b).2 = b := by
  refine run_of_not_initialized ?_ h.2 hsize
  rintro ⟨hstates, _⟩
  exact absurd h.1 (Nat.ne_of_gt hstates)

def Settled (hR : P.Rounds round) (b : CompressedStateBackend P) : Prop :=
  (exists n, Sound hR n b) ∨ b.Idle

variable {hR : P.Rounds round}

omit [Field R] [LinearOrder R] [CMath R] in
theorem Settled.ready (h : Settled hR b) (hb : b.Initialized) : exists n, Sound hR n b := by
  cases h with
  | inl hready => exact hready
  | inr hidle =>
      rw [Initialized, hidle.1] at hb
      exact absurd hb.1 (Nat.lt_irrefl 0)

/-- One clean call: the backend stays settled, and a rejection leaves it as it was. -/
theorem Settled.run (h : Settled hR b) {op : BackendOp R} (hop : Clean op b) :
    Settled hR (op.run b).2 ∧ Undisturbed op b := by
  cases hsize : op.size with
  | none =>
      cases h with
      | inl hready =>
          rcases hready with ⟨n, hn⟩
          have hn' : (checksArguments hR).Ready n b := hn
          exact ⟨Or.inl ⟨n, ChecksArguments.ready_after hn' hsize⟩,
            ChecksArguments.undisturbed hn' hsize⟩
      | inr hidle =>
          have hsame := hidle.run hsize
          constructor
          · rw [hsame]
            exact Or.inr hidle
          · exact fun _ _ _ => hsame
  | some n =>
      rcases hop with hnone | ⟨hvalid, hfits⟩
      · rw [hsize] at hnone
        cases hnone
      · rcases ChecksArguments.ready_init (G := checksArguments hR) b hsize hvalid
          (hfits n hsize) with ⟨hready, a, ha⟩
        constructor
        · exact Or.inl ⟨n, hready⟩
        · intro e he
          rw [ha] at he
          cases he

theorem Settled.of_reached (hR : P.Rounds round) (h : CleanlyReached Clean (make P) b) :
    Settled hR b := by
  induction h with
  | made => exact Or.inr ⟨rfl, rfl⟩
  | called _ op hop ih => exact (ih.run hop).1
  | cloned _ ih =>
      cases ih with
      | inl hready =>
          rcases hready with ⟨n, hn⟩
          exact Or.inl ⟨n, hn.cloned⟩
      | inr hidle => exact Or.inr hidle

omit [Field R] [LinearOrder R] [CMath R] in
theorem Sound.elemCount {n : Nat} (h : Sound hR n b) {k : Nat} (hk : k < b.layout.chunkCount) :
    (b.store.chunk k).elemCount = 2 * b.layout.statesIn k := by
  rcases h with ⟨X, S, hX⟩
  rw [← hX.length k hk]
  exact (hX.content.sized k (hX.shaped.cacheChunks ▸ hk)).2.2.1

omit [Field R] [LinearOrder R] [CMath R] in
theorem Settled.sizesAgree (h : Settled hR b) (hb : b.Initialized) : b.SizesAgree := by
  rcases h.ready hb with ⟨n, hn⟩
  have hshaped := hn.shaped
  constructor
  · rw [hshaped.numStates, hshaped.numQubits]
  · have hchunks : b.store.chunks.map (fun chunk => chunk.elemCount) =
        (List.range b.layout.chunkCount).map fun c => 2 * b.layout.statesIn c := by
      apply List.ext_getElem
      · simp [hshaped.chunks]
      · intro k hk hk'
        have hlt : k < b.layout.chunkCount := by simpa using hk'
        rw [List.getElem_map, List.getElem_map, List.getElem_range, ← hn.elemCount hlt,
          ChunkVector.chunk, List.getD_eq_getElem?_getD, List.getElem?_eq_getElem]
        rfl
    rw [hchunks, sum_statesIn hshaped.layout, hshaped.numStates]

end CompressedStateBackend

/-!
## Rejected calls on reached backends
-/

section Reached

variable {R : Type} [Field R] [LinearOrder R] [CMath R]

/--
While no initialising call is rejected, every initialised backend has the sizes it
records, and a rejected call leaves it as it was.
-/
theorem rejected_calls_change_nothing :
    (forall b : DenseStateBackend R,
      CleanlyReached DenseStateBackend.Clean DenseStateBackend.make b -> b.Initialized ->
      b.SizesAgree ∧ forall op, DenseStateBackend.Clean op b -> Undisturbed op b) ∧
    forall (B : Type) (P : CodecPolicy R B), P.Lossless -> forall b : CompressedStateBackend P,
      CleanlyReached CompressedStateBackend.Clean (CompressedStateBackend.make P) b ->
      b.Initialized ->
      b.SizesAgree ∧ forall op, CompressedStateBackend.Clean op b -> Undisturbed op b := by
  constructor
  · intro b hb hinit
    have hsettled := DenseStateBackend.Settled.of_reached hb
    exact ⟨hsettled.sizesAgree hinit, fun op hop => (hsettled.run hop).2⟩
  · intro B P hP b hb hinit
    have hsettled := CompressedStateBackend.Settled.of_reached hP hb
    exact ⟨hsettled.sizesAgree hinit, fun op hop => (hsettled.run hop).2⟩

/-- Writing a state that does not exist, on one loaded qubit in two chunks. -/
theorem rejected_calls_change_nothing_setAmplitude :
    let P : CodecPolicy Real Real := CodecPolicy.elementwise id 1 2 (Nat.le_refl 1) (Nat.le_refl 2)
    let op : BackendOp Real := .setAmplitude 2 { real := 1, imag := 0 }
    exists b : CompressedStateBackend P,
      b = ((BackendOp.loadAmplitudes 1 [1, 2, 3, 4]).run (CompressedStateBackend.make P)).2 ∧
        CleanlyReached CompressedStateBackend.Clean (CompressedStateBackend.make P) b ∧
        b.Initialized ∧ b.SizesAgree ∧ Rejects op.run b ∧ Undisturbed op b := by
  intro P op
  have hP : P.Lossless := CodecPolicy.lossless_elementwise _ _
  have hvalid : (BackendOp.loadAmplitudes 1 [1, 2, 3, 4] : BackendOp Real).ValidInit := by
    change 1 ≤ 31 ∧ [1, 2, 3, 4].length = 2 * 2 ^ 1
    decide
  have hfits : ChunkLayout.Fits (2 ^ 1) P.chunkStates := by decide
  have hclean : forall b : CompressedStateBackend P,
      CompressedStateBackend.Clean (.loadAmplitudes 1 [1, 2, 3, 4]) b := by
    intro b
    refine Or.inr ⟨hvalid, ?_⟩
    intro n hn
    cases hn
    exact hfits
  have hreached := CleanlyReached.called CleanlyReached.made (.loadAmplitudes 1 [1, 2, 3, 4])
    (hclean (CompressedStateBackend.make P))
  refine ⟨_, rfl, hreached, ?_⟩
  have hready := (ChecksArguments.ready_init (G := CompressedStateBackend.checksArguments hP)
    (CompressedStateBackend.make P) rfl hvalid hfits).1
  have hshaped := CompressedStateBackend.Sound.shaped hready
  have hinit : CompressedStateBackend.Initialized
      ((BackendOp.loadAmplitudes 1 [1, 2, 3, 4] : BackendOp Real).run
        (CompressedStateBackend.make P)).2 := by
    constructor
    · rw [hshaped.numStates]
      exact Nat.two_pow_pos 1
    · intro hnil
      have hpos := hshaped.layout.chunkCount_pos
      rw [← hshaped.chunks, hnil] at hpos
      exact absurd hpos (Nat.lt_irrefl 0)
  have hoff : ¬ op.ArgumentsOk 1 := fun hop => absurd hop.2 (Nat.lt_irrefl 2)
  have hrejects := (CompressedStateBackend.checksArguments hP).rejects hready rfl hoff
  rcases rejected_calls_change_nothing.2 Real P hP _ hreached hinit with ⟨hsizes, hcalls⟩
  exact ⟨hinit, hsizes, hrejects, hcalls op (Or.inl rfl)⟩

/-!
## What a rejected initialisation does
-/

/-- The call is rejected, and state `s` has another amplitude afterwards. -/
def LosesAmplitude {β : Type} [IStateBackend R β] (op : BackendOp R) (s : Nat) (b : β) : Prop :=
  exists e amp amp',
    (op.run b).1 = .error e ∧ e.kind.rejection = true ∧
      ((BackendOp.amplitude s).run b).1 = .ok (.amplitude amp) ∧
      ((BackendOp.amplitude s).run (op.run b).2).1 = .ok (.amplitude amp') ∧ amp ≠ amp'

theorem Does.reached {β α : Type} {call : Call β α} {b : β} {Q : β -> Prop} (h : Does call b Q) :
    Q (call b).2 := by
  unfold Does Call.Post at h
  rcases hrun : call b with ⟨r, b'⟩
  rw [hrun] at h
  cases r with
  | ok a => exact h
  | error e => exact h.elim

theorem StoresVector.run_amplitude {β : Type} [IStateBackend R β] (sv : StoresVector (R := R) β)
    {n s depth : Nat} {v : List R} {b : β} (h : sv.Rep n v depth b) (hs : s < 2 ^ n) :
    ((BackendOp.amplitude s).run b).1 = .ok (.amplitude (ampAt v s)) := by
  have hanswers := sv.amplitude h hs
  unfold Answers Call.Post at hanswers
  change (BackendOp.query Answer.amplitude (IStateBackend.amplitude s) b).1 = _
  rw [BackendOp.query, Call.bind_apply]
  rcases hrun : (IStateBackend.amplitude s : Call β (Amplitude R)) b with ⟨r, b'⟩
  rw [hrun] at hanswers
  cases r with
  | ok a =>
      cases hanswers.1
      rfl
  | error e => cases hanswers.1

theorem StoresVector.losesAmplitude {β : Type} [IStateBackend R β]
    (sv : StoresVector (R := R) β) {n s t depth : Nat} {v : List R} {b : β} {amp : Amplitude R}
    (h : sv.Rep n v depth b) (hs : s < 2 ^ n) (hamp : ampAt v s ≠ Amplitude.zero)
    (hreject : Call.Post (IStateBackend.initBasis n t amp) b (fun _ _ => False)
      (fun e b' => e.kind = .outOfRange ∧ sv.Rep n (StateVector.zero n) 0 b')) :
    LosesAmplitude (.initBasis n t amp) s b := by
  unfold Call.Post at hreject
  rcases hrun : (IStateBackend.initBasis n t amp : Call β Unit) b with ⟨r, b'⟩
  rw [hrun] at hreject
  cases r with
  | ok a => exact hreject.elim
  | error e =>
      rcases hreject with ⟨hkind, hzero⟩
      have hop : (BackendOp.initBasis n t amp).run b = (.error e, b') :=
        Call.bind_error hrun _
      refine ⟨e, ampAt v s, Amplitude.zero, ?_, ?_, sv.run_amplitude h hs, ?_, hamp⟩
      · rw [hop]
      · rw [hkind]
        rfl
      · rw [hop, sv.run_amplitude hzero hs, StateVector.ampAt_zero]

omit [LinearOrder R] [CMath R] in
theorem DenseStateBackend.initBasis_out_of_range (b : DenseStateBackend R) {n t : Nat}
    (hn : n ≤ 31) (ht : ¬ t < 2 ^ n) (amp : Amplitude R) :
    Call.Post (initBasis n t amp) b (fun _ _ => False)
      (fun e b' => e.kind = .outOfRange ∧ Holds n (StateVector.zero n) b') := by
  have hzero : Holds n (StateVector.zero n : List R) (holding n (StateVector.zero n)) :=
    ⟨hn, StateVector.length_zero n, rfl⟩
  rw [initBasis, Call.post_bind_iff]
  refine Call.post_of_ok (initZero_eq b hn) ?_
  rw [validateState, bind_assoc, Call.post_bind_iff, Call.post_get, holding,
    Tmfqs.validateStateIndex_eq _ hn, if_neg ht, Call.post_bind_iff, Call.post_throw]
  exact ⟨rfl, hzero⟩

theorem CompressedStateBackend.initBasis_out_of_range {B : Type} {P : CodecPolicy R B}
    (hP : P.Lossless) (b : CompressedStateBackend P) {n t : Nat} (hn : n ≤ 31)
    (hfits : ChunkLayout.Fits (2 ^ n) P.chunkStates) (ht : ¬ t < 2 ^ n) (amp : Amplitude R) :
    Call.Post (initBasis n t amp) b (fun _ _ => False)
      (fun e b' => e.kind = .outOfRange ∧
        (storesVector hP).Rep n (StateVector.zero n) 0 b') := by
  rw [initBasis, Call.post_bind_iff]
  refine ((storesVector hP).initZero hn hfits).imp ?_ (fun _ _ he => he.elim)
  intro _ b1 h1
  have hshaped : b1.Shaped n := h1.1.chunks.shaped
  rw [Call.post_bind_iff, Call.post_get, hshaped.numStates, Tmfqs.validateStateIndex_eq _ hn,
    if_neg ht, Call.post_bind_iff, Call.post_throw]
  exact ⟨rfl, h1⟩

/--
State 2 does not exist on one qubit: both backends lose the amplitude of state 0, and a
load of no amplitudes leaves a dense backend of four states with a buffer for two.
-/
theorem rejected_initBasis_clears :
    let P : CodecPolicy Real Real := CodecPolicy.elementwise id 1 2 (Nat.le_refl 1) (Nat.le_refl 2)
    let one : Amplitude Real := { real := 1, imag := 0 }
    let start : BackendOp Real := .initBasis 1 0 one
    P.Lossless ∧
      LosesAmplitude (.initBasis 1 2 one) 0
        (start.run (DenseStateBackend.make : DenseStateBackend Real)).2 ∧
      LosesAmplitude (.initBasis 1 2 one) 0 (start.run (CompressedStateBackend.make P)).2 ∧
      (exists b : DenseStateBackend Real,
        ((BackendOp.loadAmplitudes 2 []).run
            (start.run (DenseStateBackend.make : DenseStateBackend Real)).2) =
          (.error (invalidArgument "DenseStateBackend: amplitudes size mismatch"), b) ∧
        b.numStates = 4 ∧ b.amplitudes.length = 4) := by
  intro P one start
  have hP : P.Lossless := CodecPolicy.lossless_elementwise _ _
  have hone : (1 : Nat) ≤ 31 := by decide
  have hfits : ChunkLayout.Fits (2 ^ 1) P.chunkStates := by decide
  have hstate : (0 : Nat) < 2 ^ 1 := by decide
  have hbeyond : ¬ (2 : Nat) < 2 ^ 1 := by decide
  have hamp : ampAt (StateVector.basis 1 0 one) 0 ≠ Amplitude.zero := by
    have hroom : 2 * 0 + 1 < (StateVector.zero 1 : List Real).length := by
      rw [StateVector.length_zero]
      decide
    rw [StateVector.basis, ampAt_setAmp 0 one hroom, if_pos rfl]
    intro h
    exact one_ne_zero (congrArg Amplitude.real h)
  have hdense : (start.run (DenseStateBackend.make : DenseStateBackend Real)).2 =
      DenseStateBackend.holding 1 (StateVector.basis 1 0 one) := by
    rw [BackendOp.run, command_state]
    exact congrArg Prod.snd (DenseStateBackend.initBasis_eq _ hone hstate one)
  have hlength : (StateVector.basis 1 0 one).length = 2 * 2 ^ 1 := StateVector.length_basis 1 0 one
  have hholds : DenseStateBackend.storesVector.Rep 1 (StateVector.basis 1 0 one) 0
      (DenseStateBackend.holding 1 (StateVector.basis 1 0 one)) :=
    ⟨hone, hlength, rfl⟩
  have hcompressed : (CompressedStateBackend.storesVector hP).Rep 1 (StateVector.basis 1 0 one) 0
      (start.run (CompressedStateBackend.make P)).2 := by
    have hdoes : Does (IStateBackend.initBasis 1 0 one) (CompressedStateBackend.make P)
        ((CompressedStateBackend.storesVector hP).Rep 1 (StateVector.basis 1 0 one) 0) :=
      (CompressedStateBackend.storesVector hP).initBasis hone hfits hstate
    rw [BackendOp.run, command_state]
    exact hdoes.reached
  refine ⟨hP, ?_, ?_, ?_⟩
  · rw [hdense]
    exact DenseStateBackend.storesVector.losesAmplitude hholds hstate hamp
      (DenseStateBackend.initBasis_out_of_range _ hone hbeyond one)
  · exact (CompressedStateBackend.storesVector hP).losesAmplitude hcompressed hstate hamp
      (CompressedStateBackend.initBasis_out_of_range hP _ hone hfits hbeyond one)
  · rw [hdense]
    refine ⟨DenseStateBackend.holding 2 (StateVector.basis 1 0 one), ?_, rfl, hlength⟩
    exact Call.bind_error (DenseStateBackend.loadAmplitudes_mismatch _ (by decide) (by decide)) _

end Reached

end Tmfqs
