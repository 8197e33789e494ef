import Tmfqs.Storage.CompressedMutations
import Tmfqs.Storage.TolerantQueries
import Tmfqs.Storage.TolerantTraversals

/-!
# Mutations that may change or fail

Every mutation is a list of steps on the vector, each done in full or not at all, and a
flush of the cache at the end.
-/

namespace Tmfqs

open Library ChunkCache

/-!
## One chunk of a vector
-/

section Chunk

variable {R : Type}

/-- Rewrite every amplitude, with the number of its state counted from `state`. -/
def mapStates (f : Nat -> Amplitude R -> Amplitude R) : Nat -> List R -> List R
  | state, real :: imag :: rest =>
      (f state { real := real, imag := imag }).real ::
        (f state { real := real, imag := imag }).imag :: mapStates f (state + 1) rest
  | _, rest => rest

def mapChunk (k : Nat) (f : Amplitude R -> Amplitude R) (v : List R) (c : Nat) : List R :=
  mapStates (fun state a => if state / k = c then f a else a) 0 v

variable {k : Nat} {f : Amplitude R -> Amplitude R} {v : List R}

theorem length_mapStates (g : Nat -> Amplitude R -> Amplitude R) :
    forall (state : Nat) (v : List R), (mapStates g state v).length = v.length
  | _, [] => rfl
  | _, [_] => rfl
  | state, _ :: _ :: rest => by
      simp [mapStates, length_mapStates g (state + 1) rest]

@[simp] theorem length_mapChunk (v : List R) (c : Nat) : (mapChunk k f v c).length = v.length :=
  length_mapStates _ 0 v

variable [Field R]

theorem ampAt_mapStates (g : Nat -> Amplitude R -> Amplitude R) :
    forall (state : Nat) (v : List R) (s : Nat), 2 * s + 1 < v.length ->
      ampAt (mapStates g state v) s = g (state + s) (ampAt v s)
  | _, [], s, h => by simp at h
  | _, [_], s, h => by simp at h
  | state, real :: imag :: rest, 0, _ => by
      simp [mapStates, ampAt, readAmp]
  | state, real :: imag :: rest, s + 1, h => by
      have hrest : 2 * s + 1 < rest.length := by
        simp at h
        omega
      have hstate : state + (s + 1) = state + 1 + s := by omega
      rw [mapStates, ampAt_cons_cons, ampAt_cons_cons, hstate]
      exact ampAt_mapStates g (state + 1) rest s hrest

theorem ampAt_mapChunk {c s : Nat} (h : 2 * s + 1 < v.length) :
    ampAt (mapChunk k f v c) s = if s / k = c then f (ampAt v s) else ampAt v s := by
  rw [mapChunk, ampAt_mapStates _ 0 v s h, Nat.zero_add]

theorem chunkOf_mapChunk (hk : 0 < k) {N : Nat} (hv : v.length = 2 * N) (c : Nat) :
    chunkOf k (mapChunk k f v c) =
      Function.update (chunkOf k v) c (mapAmplitudes f (chunkOf k v c)) := by
  funext j
  have heven : v.length % 2 = 0 := by omega
  have hlen : (chunkOf k (mapChunk k f v c) j).length = (chunkOf k v j).length := by
    rw [length_chunkOf, length_chunkOf, length_mapChunk]
  have hmod := length_chunkOf_mod_two (k := k) heven j
  have hsize := length_chunkOf (k := k) (v := v) j
  have hmul : j * (2 * k) = 2 * (j * k) := Nat.mul_left_comm j 2 k
  rw [hmul] at hsize
  have hright : (Function.update (chunkOf k v) c (mapAmplitudes f (chunkOf k v c)) j).length =
      (chunkOf k v j).length := by
    by_cases hj : j = c
    · rw [hj, Function.update_self, length_mapAmplitudes]
    · rw [Function.update_of_ne hj]
  apply eq_of_ampAt (N := (chunkOf k v j).length / 2) (by omega) (by omega)
  intro i hi
  have hik : i < k := by omega
  have hdiv : (j * k + i) / k = j := by
    rw [Nat.mul_comm, Nat.mul_add_div hk, Nat.div_eq_of_lt hik, Nat.add_zero]
  rw [ampAt_chunkOf hk _ j hik, ampAt_mapChunk (by omega), hdiv]
  by_cases hj : j = c
  · subst hj
    rw [if_pos rfl, Function.update_self, ampAt_mapAmplitudes f _ i (by omega),
      ampAt_chunkOf hk v j hik]
  · rw [if_neg hj, Function.update_of_ne hj, ampAt_chunkOf hk v j hik]

omit [Field R] in
theorem length_foldl_mapChunk (l : List Nat) : forall v : List R,
    (l.foldl (mapChunk k f) v).length = v.length := by
  induction l with
  | nil =>
      intro v
      rfl
  | cons c rest ih =>
      intro v
      rw [List.foldl_cons, ih, length_mapChunk]

theorem ampAt_foldl_mapChunk {s : Nat} (h : 2 * s + 1 < v.length) (m : Nat) :
    ampAt ((List.range m).foldl (mapChunk k f) v) s =
      if s / k < m then f (ampAt v s) else ampAt v s := by
  induction m with
  | zero => rfl
  | succ m ih =>
      rw [List.range_succ, List.foldl_append, List.foldl_cons, List.foldl_nil,
        ampAt_mapChunk (by rw [length_foldl_mapChunk]; exact h), ih]
      by_cases heq : s / k = m
      · rw [if_pos heq, if_neg (by omega), if_pos (by omega)]
      · rw [if_neg heq]
        by_cases hlt : s / k < m
        · rw [if_pos hlt, if_pos (by omega)]
        · rw [if_neg hlt, if_neg (by omega)]

theorem foldl_mapChunk {layout : ChunkLayout} {N : Nat} (h : layout.Exact N k)
    (hv : v.length = 2 * N) (f : Amplitude R -> Amplitude R) :
    (List.range layout.chunkCount).foldl (mapChunk k f) v = mapAmplitudes f v := by
  apply eq_of_ampAt (N := N)
  · rw [length_foldl_mapChunk, hv]
  · rw [length_mapAmplitudes, hv]
  · intro s hs
    rw [ampAt_foldl_mapChunk (by omega), if_pos (h.div_lt_chunkCount hs),
      ampAt_mapAmplitudes f v s (by omega)]

end Chunk

namespace CompressedStateBackend

variable {R B : Type} [Field R] {P : CodecPolicy R B} {T : Tolerance P} {n : Nat}
  {D : Drift T n} {v : List R} {b : CompressedStateBackend P}

/-!
## Entry points
-/

section Entry

variable {ι α : Type} {step : List R -> ι -> List R} {steps : List ι}

omit [Field R] in
theorem Performs.of_carries {call : Call (CompressedStateBackend P) α} {v' : List R}
    (hsteps : steps.foldl step v = v')
    (h : Call.Post call b (fun _ b' => Carries D v' b' ∧ SameFrame b b')
      (fun _ b' => Leaves D v b.batchDepth b')) : Performs D step steps v call b := by
  refine h.imp ?_ ?_
  · intro _ b' ht
    rw [hsteps]
    exact ht
  · intro _ b' hl
    exact ⟨[], steps, rfl, hl⟩

omit [Field R] in
theorem performs_mutate (h : Carries D v b) (operation : String)
    {mutateFn : Call (CompressedStateBackend P) Unit}
    (hfn : Performs D step steps v mutateFn b) :
    Performs D step steps v (mutate operation mutateFn) b := by
  rw [Performs, mutate, Call.post_bind_iff]
  refine Call.post_of_ok (ensureInitialized_eq h.shaped operation) ?_
  rw [Call.post_bind_iff]
  refine hfn.mono ?_
  rintro _ b1 ⟨h1, hframe⟩
  refine (post_flushCacheIfNeeded_carries h1).imp ?_ ?_
  · rintro _ b2 ⟨h2, hframe'⟩
    exact ⟨h2, hframe.trans hframe'⟩
  · intro _ b2 hl
    exact ⟨steps, [], (List.append_nil steps).symm, hframe.leaves hl⟩

end Entry

/-!
## Single amplitudes
-/

theorem post_rewriteAmp (h : Carries D v b) {s : Nat} (hs : s < 2 ^ n)
    (g : Amplitude R -> Amplitude R)
    (hrespects : D.Respects fun v => setAmp v s (g (ampAt v s)))
    {f : Nat -> List R -> List R}
    (hlen : forall e y, (f e y).length = y.length)
    (hf : forall e y, f e y = writeAmp y e (g (readAmp y e))) :
    Call.Post
      (do
        let ref <- acquireAmplitudeRef s
        modifyCache fun c => c.writeData ref.slot (f ref.elemOffset)
        modifyCache fun c => c.setDirty ref.slot) b
      (fun _ b' => Carries D (setAmp v s (g (ampAt v s))) b' ∧ SameFrame b b')
      (fun _ b' => Leaves D v b.batchDepth b') := by
  rw [Call.post_bind_iff]
  refine (post_acquireAmplitudeRef_obtains h hs).mono ?_
  rintro ref b1 ⟨hobtains, hoffset⟩
  rcases hobtains.carries with ⟨hc, x, hx, hwithin⟩
  rw [Call.post_bind_iff, modifyCache, Call.post_modify, modifyCache, Call.post_modify]
  have hwrites := hx.rewrite hc (f ref.elemOffset) true hobtains.liveHandle (hlen ref.elemOffset)
    (fun hclean => by cases hclean) (length_setAmp x s (g (ampAt x s))) (by
      rw [chunkOf_setAmp P.chunkStates_pos, hf, hoffset, readAmp_chunkOf P.chunkStates_pos])
  exact ⟨hwrites.carries (hrespects _ x v hx.length hwithin),
    hobtains.frame.trans hwrites.frame⟩

theorem post_writeAmplitudeMutable_carries (h : Carries D v b) {s : Nat} (hs : s < 2 ^ n)
    (amp : Amplitude R) (hrespects : D.Respects fun v => setAmp v s amp) :
    Call.Post (writeAmplitudeMutable s amp) b
      (fun _ b' => Carries D (setAmp v s amp) b' ∧ SameFrame b b')
      (fun _ b' => Leaves D v b.batchDepth b') := by
  rw [writeAmplitudeMutable]
  exact post_rewriteAmp (f := fun e y => writeAmp y e amp) h hs (fun _ => amp) hrespects
    (fun e y => length_writeAmp y e amp) (fun _ _ => rfl)

theorem performs_setAmplitude (h : Carries D v b) {s : Nat} (hs : s < 2 ^ n) (amp : Amplitude R)
    (hrespects : D.Respects fun v => setAmp v s amp) :
    Performs D (fun v s => setAmp v s amp) [s] v (setAmplitude s amp) b := by
  refine performs_mutate h _ (Performs.of_carries rfl ?_)
  rw [Call.post_bind_iff, Call.post_get, validateStateIndex_eq h.shaped hs, pure_bind]
  exact post_writeAmplitudeMutable_carries h hs amp hrespects

theorem performs_phaseFlipBasisState (h : Carries D v b) {s : Nat} (hs : s < 2 ^ n)
    (hrespects : D.Respects fun v => StateVector.phaseFlip v s) :
    Performs D StateVector.phaseFlip [s] v (phaseFlipBasisState s) b := by
  refine performs_mutate h _ (Performs.of_carries rfl ?_)
  rw [Call.post_bind_iff, Call.post_get, validateStateIndex_eq h.shaped hs, pure_bind]
  exact post_rewriteAmp
    (f := fun e y => writeAmp y e { real := -(readAmp y e).real, imag := -(readAmp y e).imag })
    h hs Amplitude.negate hrespects (fun e y => length_writeAmp y e _) (fun _ _ => rfl)

/-!
## Whole-vector maps
-/

theorem performs_mapChunks (h : Carries D v b) (f : Amplitude R -> Amplitude R)
    (hrespects : forall k, D.Respects fun v => mapChunk P.chunkStates f v k) :
    Performs D (mapChunk P.chunkStates f) (List.range b.layout.chunkCount) v (mapChunks f) b := by
  rw [Performs, mapChunks, Call.post_bind_iff, Call.post_get, h.shaped.chunks]
  refine Call.post_forM_advances (fun v b' => Carries D v b' ∧ SameFrame b b')
    (fun v b' => Leaves D v b.batchDepth b') ?_ ⟨h, SameFrame.refl b⟩
  rintro k hk v1 b1 ⟨h1, hframe1⟩
  have hk1 : k < b1.layout.chunkCount := by
    rw [hframe1.layout]
    exact List.mem_range.mp hk
  rw [Call.post_bind_iff]
  refine (post_acquireChunk_obtains h1 hk1).imp ?_ (fun _ _ hl => hframe1.leaves hl)
  intro handle b2 hobtains
  rcases hobtains.carries with ⟨hc, x, hx, hwithin⟩
  have hk2 : k < b2.layout.chunkCount := by
    rw [hobtains.frame.layout]
    exact hk1
  rw [Call.post_bind_iff, Call.post_get, Call.post_bind_iff, modifyCache, Call.post_modify,
    modifyCache, Call.post_modify]
  have hwrites := hx.rewrite hc (mapPrefix f (b2.store.chunk k).elemCount) true
    hobtains.liveHandle
    (fun y => by
      rw [mapPrefix, List.length_append, length_mapAmplitudes, List.length_take,
        List.length_drop]
      omega)
    (fun hclean => by cases hclean) (length_mapChunk x k) (by
      rw [chunkOf_mapChunk P.chunkStates_pos hx.length, hx.elemCount hk2, mapPrefix_length])
  exact ⟨hwrites.carries (hrespects k _ x v1 hx.length hwithin),
    (hframe1.trans hobtains.frame).trans hwrites.frame⟩

theorem performs_inversionAboutMeanWith (h : Carries D v b) (mean : Amplitude R)
    (hrespects : forall k, D.Respects fun v =>
      mapChunk P.chunkStates (StateVector.reflectAmp mean) v k) :
    Performs D (mapChunk P.chunkStates (StateVector.reflectAmp mean))
      (List.range b.layout.chunkCount) v (inversionAboutMeanWith mean) b :=
  performs_mutate h _ (performs_mapChunks h _ hrespects)

theorem performs_applyAffineTransform (h : Carries D v b) (scale bias : Amplitude R)
    (hrespects : forall k, D.Respects fun v =>
      mapChunk P.chunkStates (StateVector.affineAmp scale bias) v k) :
    Performs D (mapChunk P.chunkStates (StateVector.affineAmp scale bias))
      (List.range b.layout.chunkCount) v (applyAffineTransform scale bias) b :=
  performs_mutate h _ (performs_mapChunks h _ hrespects)

/-!
## Pair kernels
-/

section Kernels

variable [LinearOrder R] [CMath R]

omit [LinearOrder R] [CMath R] in
theorem performs_pairKernel (h : Carries D v b) {kernel : PairKernel R} (hrep : Reports kernel)
    (hrespects : D.RespectsKernel kernel) {q : Nat} (hq : q < n) (operation : String) :
    Performs D (StateVector.pairStep kernel) (PairKernelExecutor.pairList n (n - q - 1)) v
      (mutate operation (runPairKernel (qubitMaskFromMsbIndex q n) kernel)) b := by
  refine performs_mutate h operation ?_
  rw [qubitMaskFromMsbIndex_eq h.shaped.qubits]
  exact performs_runPairKernel (by omega) hrep hrespects h

theorem performs_applyHadamard (h : Carries D v b) {q : Nat} (hq : q < n)
    (hrespects : D.RespectsKernel hadamardPair) :
    Performs D (StateVector.pairStep hadamardPair) (PairKernelExecutor.pairList n (n - q - 1)) v
      (applyHadamard q) b := by
  rw [Performs, applyHadamard, Call.post_bind_iff]
  refine Call.post_of_ok (ensureInitialized_eq h.shaped _) ?_
  rw [Call.post_bind_iff, Call.post_get, h.shaped.numQubits, validateQubitIndex_ok _ hq,
    pure_bind]
  exact performs_pairKernel h reports_hadamardPair hrespects hq _

omit [CMath R] in
theorem performs_applyPauliX (h : Carries D v b) {q : Nat} (hq : q < n)
    (hrespects : D.RespectsKernel pauliXPair) :
    Performs D (StateVector.pairStep pauliXPair) (PairKernelExecutor.pairList n (n - q - 1)) v
      (applyPauliX q) b := by
  rw [Performs, applyPauliX, Call.post_bind_iff]
  refine Call.post_of_ok (ensureInitialized_eq h.shaped _) ?_
  rw [Call.post_bind_iff, Call.post_get, h.shaped.numQubits, validateQubitIndex_ok _ hq,
    pure_bind]
  exact performs_pairKernel h reports_pauliXPair hrespects hq _

theorem performs_applyControlledPhaseShift (h : Carries D v b) {control target : Nat}
    (hcontrol : control < n) (htarget : target < n) (hne : control ≠ target) (theta : R)
    (hrespects : D.RespectsKernel (controlledPhaseShiftPair (2 ^ (n - control - 1)) theta)) :
    Performs D (StateVector.pairStep (controlledPhaseShiftPair (2 ^ (n - control - 1)) theta))
      (PairKernelExecutor.pairList n (n - target - 1)) v
      (applyControlledPhaseShift control target theta) b := by
  rw [Performs, applyControlledPhaseShift, Call.post_bind_iff]
  refine Call.post_of_ok (ensureInitialized_eq h.shaped _) ?_
  rw [Call.post_bind_iff, Call.post_get, h.shaped.numQubits,
    validateBackendTwoQubits_ok _ hcontrol htarget hne, pure_bind,
    qubitMaskFromMsbIndex_eq (q := control) h.shaped.qubits]
  exact performs_pairKernel h (reports_controlledPhaseShiftPair _ theta) hrespects htarget _

omit [CMath R] in
theorem performs_applyControlledNot (h : Carries D v b) {control target : Nat}
    (hcontrol : control < n) (htarget : target < n) (hne : control ≠ target)
    (hrespects : D.RespectsKernel (controlledNotPair (2 ^ (n - control - 1)))) :
    Performs D (StateVector.pairStep (controlledNotPair (2 ^ (n - control - 1))))
      (PairKernelExecutor.pairList n (n - target - 1)) v
      (applyControlledNot control target) b := by
  rw [Performs, applyControlledNot, Call.post_bind_iff]
  refine Call.post_of_ok (ensureInitialized_eq h.shaped _) ?_
  rw [Call.post_bind_iff, Call.post_get, h.shaped.numQubits,
    validateBackendTwoQubits_ok _ hcontrol htarget hne, pure_bind,
    qubitMaskFromMsbIndex_eq (q := control) h.shaped.qubits]
  exact performs_pairKernel h (reports_controlledNotPair _) hrespects htarget _

end Kernels

/-!
## Batches
-/

section

omit [Field R]

theorem ReadsAs.batched {x : List R} (h : ReadsAs T n x b) (depth : Nat) :
    ReadsAs T n x { b with batchDepth := depth } := by
  rcases h with ⟨hlength, S, hretains⟩
  have hframed := hretains.framed
  refine ⟨hlength, S, ?_⟩
  exact
    { framed :=
        { qubits := hframed.qubits
          numQubits := hframed.numQubits
          numStates := hframed.numStates
          layout := hframed.layout
          chunks := hframed.chunks
          cacheChunks := hframed.cacheChunks
          capacity := hframed.capacity
          roomy := hframed.roomy }
      length := hretains.length
      content := hretains.content
      settled := hretains.settled }

theorem Carries.batched (h : Carries D v b) (depth : Nat) :
    Carries D v { b with batchDepth := depth } := by
  rcases h with ⟨hc, x, hx, hwithin⟩
  exact ⟨hc, x, hx.batched depth, hwithin⟩

theorem post_beginOperationBatch_carries (h : Carries D v b) :
    Call.Post beginOperationBatch b
      (fun _ b' => Carries D v b' ∧ b'.batchDepth = b.batchDepth + 1) (fun _ _ => False) := by
  rw [beginOperationBatch, Call.post_bind_iff]
  refine Call.post_of_ok (ensureInitialized_eq h.shaped _) ?_
  exact ⟨h.batched (b.batchDepth + 1), rfl⟩

theorem post_endOperationBatch_carries (h : Carries D v b) (hdepth : 0 < b.batchDepth) :
    Call.Post endOperationBatch b
      (fun _ b' => Carries D v b' ∧ b'.batchDepth = b.batchDepth - 1)
      (fun _ b' => Leaves D v (b.batchDepth - 1) b') := by
  rw [endOperationBatch, Call.post_bind_iff, Call.post_get, if_neg (by omega)]
  change Call.Post ((modify fun b => { b with batchDepth := b.batchDepth - 1 } :
    Call (CompressedStateBackend P) PUnit) >>= fun _ => flushCacheIfNeeded) b _ _
  rw [Call.post_bind_iff, Call.post_modify]
  refine (post_flushCacheIfNeeded_carries (h.batched (b.batchDepth - 1))).imp ?_
    (fun _ _ hl => hl)
  rintro _ b1 ⟨h1, hframe⟩
  exact ⟨h1, hframe.batchDepth⟩

end

end CompressedStateBackend

end Tmfqs
