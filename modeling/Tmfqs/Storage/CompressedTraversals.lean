import Tmfqs.Model.PairAction
import Tmfqs.Storage.CompressedKernels

/-!
# Traversals of the compressed backend

Each of the three traversals of `runPairKernel` is a sequence of steps, one for
each pair of states.  A step computes the step of the state vector if its second
acquisition leaves the slots in place, and so does a whole traversal.
-/

namespace Tmfqs

open Library ChunkCache PairKernelExecutor

namespace CompressedStateBackend

variable {R B : Type} [Field R] {P : CodecPolicy R B} {hP : P.Lossless} {n bit : Nat}
  {X : Nat -> List R} {v : List R} {kernel : PairKernel R} {b : CompressedStateBackend P}

theorem div_eq_of_mem_pairList {p : Nat × Nat} {c : Nat} (hp : p ∈ pairList n bit)
    (hc : bit < c) : p.1 / 2 ^ c = p.2 / 2 ^ c := by
  rw [pairList, List.mem_map] at hp
  obtain ⟨t, _, rfl⟩ := hp
  have hpos : 0 < 2 ^ (bit + 1) := Nat.two_pow_pos _
  have hmod := Nat.mod_lt t (Nat.two_pow_pos bit)
  have hpow : 2 ^ (bit + 1) = 2 * 2 ^ bit := by rw [Nat.pow_succ, Nat.mul_comm]
  have hlow : lowState bit t / 2 ^ (bit + 1) = t / 2 ^ bit := by
    rw [lowState, Nat.mul_comm, Nat.mul_add_div hpos,
      Nat.div_eq_of_lt (show t % 2 ^ bit < 2 ^ (bit + 1) by omega), Nat.add_zero]
  have hhigh : (lowState bit t + 2 ^ bit) / 2 ^ (bit + 1) = t / 2 ^ bit := by
    rw [lowState, Nat.add_assoc, Nat.mul_comm, Nat.mul_add_div hpos,
      Nat.div_eq_of_lt (show t % 2 ^ bit + 2 ^ bit < 2 ^ (bit + 1) by omega), Nat.add_zero]
  simp only [two_pow_split (show bit + 1 + (c - bit - 1) = c by omega)]
  rw [← Nat.div_div_eq_div_mul, ← Nat.div_div_eq_div_mul, hlow, hhigh]

theorem chunks_of_mem_pairList {p : Nat × Nat} {c : Nat} (hbit : bit < n)
    (hp : p ∈ pairList n bit) (hc : c ≤ bit) :
    p.2 / 2 ^ c = p.1 / 2 ^ c + 2 ^ (bit - c) ∧ p.2 % 2 ^ c = p.1 % 2 ^ c := by
  obtain ⟨_, _, hp2⟩ := StateVector.mem_pairList hbit hp
  have hsplit : p.2 = p.1 + 2 ^ (bit - c) * 2 ^ c := by
    rw [← two_pow_split (show bit - c + c = bit by omega)]
    exact hp2
  rw [hsplit, Nat.add_mul_div_right _ _ (Nat.two_pow_pos c), Nat.add_mul_mod_self_right]
  exact ⟨rfl, rfl⟩

/-!
## The end of a step

Both buffers are rewritten, then the flags are set.
-/

section Writes

variable {p : Nat × Nat} {h0 h1 : SlotHandle}

theorem runOnData_apply (h : Holds hP n v b)
    (hh0 : LiveHandle b (p.1 / P.chunkStates) h0)
    (hh1 : LiveHandle b (p.2 / P.chunkStates) h1) :
    runOnData kernel p.1 p.2 h0 (2 * (p.1 % P.chunkStates)) h1 (2 * (p.2 % P.chunkStates)) b =
      (.ok (kernel p.1 p.2 (ampAt v p.1) (ampAt v p.2)).1,
        { b with
          cache :=
            (b.cache.writeData h0 fun buffer => writeAmp buffer (2 * (p.1 % P.chunkStates))
              (kernel p.1 p.2 (ampAt v p.1) (ampAt v p.2)).2.1).writeData h1
              fun buffer => writeAmp buffer (2 * (p.2 % P.chunkStates))
                (kernel p.1 p.2 (ampAt v p.1) (ampAt v p.2)).2.2 }) := by
  rw [← readAmp_chunkOf P.chunkStates_pos v p.1, ← readAmp_chunkOf P.chunkStates_pos v p.2,
    ← hh0.data h.chunks, ← hh1.data h.chunks]
  rfl

theorem writePair_apply (h : Holds hP n v b)
    (hh0 : LiveHandle b (p.1 / P.chunkStates) h0)
    (hh1 : LiveHandle b (p.2 / P.chunkStates) h1) :
    (do
        let mutation <- runOnData kernel p.1 p.2 h0 (2 * (p.1 % P.chunkStates)) h1
          (2 * (p.2 % P.chunkStates))
        markTouched mutation h0 h1 : Call (CompressedStateBackend P) PUnit) b =
      (.ok ⟨⟩,
        { b with
          cache := touch (touch b.cache h0
            (fun buffer => writeAmp buffer (2 * (p.1 % P.chunkStates))
              (kernel p.1 p.2 (ampAt v p.1) (ampAt v p.2)).2.1)
            (touchesFirst (kernel p.1 p.2 (ampAt v p.1) (ampAt v p.2)).1)) h1
            (fun buffer => writeAmp buffer (2 * (p.2 % P.chunkStates))
              (kernel p.1 p.2 (ampAt v p.1) (ampAt v p.2)).2.2)
            (touchesSecond (kernel p.1 p.2 (ampAt v p.1) (ampAt v p.2)).1) }) := by
  rw [Call.bind_ok (runOnData_apply h hh0 hh1), ← touch_touch]
  rfl

theorem post_writePair (h : Holds hP n v b) (hrep : Reports kernel)
    (hs0 : p.1 < 2 ^ n) (hs1 : p.2 < 2 ^ n)
    (hne : p.1 / P.chunkStates ≠ p.2 / P.chunkStates)
    (hh0 : LiveHandle b (p.1 / P.chunkStates) h0)
    (hh1 : LiveHandle b (p.2 / P.chunkStates) h1) :
    Call.Post
      (do
        let mutation <- runOnData kernel p.1 p.2 h0 (2 * (p.1 % P.chunkStates)) h1
          (2 * (p.2 % P.chunkStates))
        markTouched mutation h0 h1) b
      (fun _ b' => Holds hP n (StateVector.pairStep kernel v p) b' ∧ SameFrame b b' ∧
        LiveHandle b' (p.1 / P.chunkStates) h0 ∧ LiveHandle b' (p.2 / P.chunkStates) h1)
      (fun _ _ => False) := by
  obtain ⟨hholds, hframe⟩ := h.touch_pair hrep hs0 hs1 hne hh0 hh1
  exact Call.post_of_ok (writePair_apply h hh0 hh1)
    ⟨hholds, hframe, (hh0.touch h0 _ _).touch h1 _ _, (hh1.touch h0 _ _).touch h1 _ _⟩

theorem writeSingle_apply (h : Holds hP n v b)
    (hh0 : LiveHandle b (p.1 / P.chunkStates) h0)
    (hh1 : LiveHandle b (p.2 / P.chunkStates) h1) (hslot : h0.slotIndex = h1.slotIndex) :
    (do
        let mutation <- runOnData kernel p.1 p.2 h0 (2 * (p.1 % P.chunkStates)) h1
          (2 * (p.2 % P.chunkStates))
        if mutation = PairMutation.none then
          pure ⟨⟩
        else
          modifyCache fun c => c.setDirty h0 : Call (CompressedStateBackend P) PUnit) b =
      (.ok ⟨⟩,
        { b with
          cache := touch b.cache h0
            (fun buffer => writeAmp (writeAmp buffer (2 * (p.1 % P.chunkStates))
              (kernel p.1 p.2 (ampAt v p.1) (ampAt v p.2)).2.1) (2 * (p.2 % P.chunkStates))
              (kernel p.1 p.2 (ampAt v p.1) (ampAt v p.2)).2.2)
            ((kernel p.1 p.2 (ampAt v p.1) (ampAt v p.2)).1 ≠ PairMutation.none) }) := by
  rw [Call.bind_ok (runOnData_apply h hh0 hh1), writeData_writeData b.cache hslot.symm, touch]
  by_cases hnone : (kernel p.1 p.2 (ampAt v p.1) (ampAt v p.2)).1 = PairMutation.none
  · rw [if_pos hnone, if_neg (by simpa using hnone)]
    rfl
  · rw [if_neg hnone, if_pos (by simpa using hnone)]
    rfl

theorem post_writeSingle (h : Holds hP n v b) (hrep : Reports kernel)
    (hs0 : p.1 < 2 ^ n) (hs1 : p.2 < 2 ^ n)
    (heq : p.1 / P.chunkStates = p.2 / P.chunkStates)
    (hh0 : LiveHandle b (p.1 / P.chunkStates) h0)
    (hh1 : LiveHandle b (p.2 / P.chunkStates) h1) (hslot : h0.slotIndex = h1.slotIndex) :
    Call.Post
      (do
        let mutation <- runOnData kernel p.1 p.2 h0 (2 * (p.1 % P.chunkStates)) h1
          (2 * (p.2 % P.chunkStates))
        if mutation = PairMutation.none then
          pure ⟨⟩
        else
          modifyCache fun c => c.setDirty h0) b
      (fun _ b' => Holds hP n (StateVector.pairStep kernel v p) b' ∧ SameFrame b b' ∧
        LiveHandle b' (p.1 / P.chunkStates) h0)
      (fun _ _ => False) := by
  obtain ⟨hholds, hframe⟩ := h.touch_single hrep hs0 hs1 heq hh0
  exact Call.post_of_ok (writeSingle_apply h hh0 hh1 hslot) ⟨hholds, hframe, hh0.touch h0 _ _⟩

end Writes

/-!
## The generic traversal
-/

section Fallback

theorem post_fallbackRefs (h : HoldsChunks hP n X b) {s0 s1 : Nat} (hs0 : s0 < 2 ^ n)
    (hs1 : s1 < 2 ^ n)
    (hstays : b.cache.SecondStays (s0 / P.chunkStates) (s1 / P.chunkStates)) :
    Call.Post (fallbackRefs s0 s1) b
      (fun refs b' => HoldsChunks hP n X b' ∧ SameFrame b b' ∧
        LiveHandle b' (s0 / P.chunkStates) refs.1.slot ∧
        LiveHandle b' (s1 / P.chunkStates) refs.2.slot ∧
        refs.1.elemOffset = 2 * (s0 % P.chunkStates) ∧
        refs.2.elemOffset = 2 * (s1 % P.chunkStates))
      (fun _ _ => False) := by
  have hk0 := h.shaped.layout.div_lt_chunkCount hs0
  have hk1 := h.shaped.layout.div_lt_chunkCount hs1
  rw [fallbackRefs, Call.post_bind_iff]
  refine (post_acquireAmplitudeRef h hs0).mono ?_
  rintro ref0 b1 ⟨hacq0, hoffset0⟩
  rw [Call.post_bind_iff]
  refine (post_acquireAmplitudeRef hacq0.holds hs1).mono ?_
  rintro ref1 b2 ⟨hacq1, hoffset1⟩
  exact ⟨hacq1.holds, hacq0.frame.trans hacq1.frame, hacq0.second hacq1 hk0 hk1 hstays,
    hacq1.liveHandle, hoffset0, hoffset1⟩

theorem post_fallbackCallback (h : Holds hP n v b) (hrep : Reports kernel) {p : Nat × Nat}
    (hs0 : p.1 < 2 ^ n) (hs1 : p.2 < 2 ^ n)
    (hstays : b.cache.SecondStays (p.1 / P.chunkStates) (p.2 / P.chunkStates)) :
    Call.Post (fallbackCallback kernel p.1 p.2) b
      (fun _ b' => Holds hP n (StateVector.pairStep kernel v p) b' ∧ SameFrame b b')
      (fun _ _ => False) := by
  rw [fallbackCallback, Call.post_bind_iff]
  refine (post_fallbackRefs h.chunks hs0 hs1 hstays).mono ?_
  rintro ⟨ref0, ref1⟩ b1 ⟨hchunks, hframe, hh0, hh1, hoffset0, hoffset1⟩
  have h1 : Holds hP n v b1 := ⟨h.length, hchunks⟩
  simp only at hh0 hh1 hoffset0 hoffset1 ⊢
  rw [hoffset0, hoffset1]
  by_cases hslot : ref0.slot.slotIndex = ref1.slot.slotIndex
  · have heq : p.1 / P.chunkStates = p.2 / P.chunkStates := by
      have hcarried0 := (hchunks.shaped.coherent.carried hh0.slotOf).2.1
      have hcarried1 := (hchunks.shaped.coherent.carried hh1.slotOf).2.1
      rw [hslot, hcarried1] at hcarried0
      exact (Option.some.inj hcarried0).symm
    simp only [hslot, if_true]
    refine (post_writeSingle h1 hrep hs0 hs1 heq hh0 hh1 hslot).mono ?_
    rintro _ b2 ⟨hholds, hframe', _⟩
    exact ⟨hholds, hframe.trans hframe'⟩
  · have hne : p.1 / P.chunkStates ≠ p.2 / P.chunkStates := by
      intro heq
      have hslot0 := hh0.slotOf
      rw [heq, hh1.slotOf] at hslot0
      exact hslot (Option.some.inj hslot0).symm
    have hmarks : (fun mutation => (if mutation = PairMutation.none then pure ⟨⟩
        else markTouched mutation ref0.slot ref1.slot : Call (CompressedStateBackend P) PUnit)) =
        fun mutation => markTouched mutation ref0.slot ref1.slot := by
      funext mutation
      cases mutation <;> rfl
    simp only [hslot, if_false, hmarks]
    refine (post_writePair h1 hrep hs0 hs1 hne hh0 hh1).mono ?_
    rintro _ b2 ⟨hholds, hframe', _, _⟩
    exact ⟨hholds, hframe.trans hframe'⟩

end Fallback

/-!
## The traversal inside chunks
-/

section Intra

/-- The active slot of the traversal is the slot of the active chunk. -/
def CursorLive (t : CompressedStateBackend P × Cursor) : Prop :=
  forall k handle, t.2 = some (k, handle) -> LiveHandle t.1 k handle

theorem post_moveCursor (h : HoldsChunks hP n X b) {cursor : Cursor}
    (hcursor : CursorLive (b, cursor)) {k : Nat} (hk : k < b.layout.chunkCount) :
    Call.Post (moveCursor cursor k) b
      (fun handle b' => HoldsChunks hP n X b' ∧ SameFrame b b' ∧ LiveHandle b' k handle)
      (fun _ _ => False) := by
  have hacquire : Call.Post (acquireChunk k) b
      (fun handle b' => HoldsChunks hP n X b' ∧ SameFrame b b' ∧ LiveHandle b' k handle)
      (fun _ _ => False) :=
    (post_acquireChunk h hk).mono fun _ _ hacq => ⟨hacq.holds, hacq.frame, hacq.liveHandle⟩
  cases cursor with
  | none => exact hacquire
  | some active =>
      obtain ⟨j, handle⟩ := active
      rw [moveCursor]
      by_cases hjk : j = k
      · subst hjk
        rw [if_neg (fun hne => hne rfl)]
        exact ⟨h, SameFrame.refl b, hcursor j handle rfl⟩
      · rw [if_pos hjk]
        exact hacquire

def intraStep (kernel : PairKernel R) (p : Nat × Nat) :
    Call (CompressedStateBackend P × Cursor) PUnit :=
  intraCallback kernel (p.1 / P.chunkStates) (p.1 % P.chunkStates) (p.2 % P.chunkStates) p.1 p.2

theorem post_intraStep {t : CompressedStateBackend P × Cursor} (h : Holds hP n v t.1)
    (hcursor : CursorLive t) (hrep : Reports kernel) {p : Nat × Nat}
    (hs0 : p.1 < 2 ^ n) (hs1 : p.2 < 2 ^ n)
    (heq : p.1 / P.chunkStates = p.2 / P.chunkStates) :
    Call.Post (intraStep kernel p) t
      (fun _ t' => Holds hP n (StateVector.pairStep kernel v p) t'.1 ∧ SameFrame t.1 t'.1 ∧
        CursorLive t')
      (fun _ _ => False) := by
  obtain ⟨b, cursor⟩ := t
  rw [intraStep, intraCallback, Call.post_bind_iff, Call.post_get]
  simp only
  rw [Call.post_bind_iff, Call.post_onObject_iff]
  refine (post_moveCursor h.chunks hcursor (h.chunk_lt hs0)).mono ?_
  rintro handle b1 ⟨hchunks, hframe, hh⟩
  have h1 : Holds hP n v b1 := ⟨h.length, hchunks⟩
  rw [Call.post_bind_iff, Call.post_modify]
  simp only [Nat.mul_comm _ 2]
  have hwrite := post_writeSingle h1 hrep hs0 hs1 heq hh (heq ▸ hh) rfl
  rw [Call.post_bind_iff, Call.post_onObject_iff]
  rw [Call.post_bind_iff] at hwrite
  refine hwrite.mono ?_
  intro mutation b2 hend
  by_cases hnone : mutation = PairMutation.none
  · rw [if_pos hnone, Call.post_pure] at hend
    rw [if_neg (fun hne => hne hnone), Call.post_pure]
    refine ⟨hend.1, hframe.trans hend.2.1, ?_⟩
    intro k other hk
    cases hk
    exact hend.2.2
  · rw [if_neg hnone] at hend
    rw [if_pos hnone, Call.post_onObject_iff]
    refine hend.mono ?_
    rintro _ b3 ⟨hholds, hframe', hh'⟩
    refine ⟨hholds, hframe.trans hframe', ?_⟩
    intro k other hk
    cases hk
    exact hh'

end Intra

/-!
## The traversal across chunks
-/

section Inter

/-- Both cursors are unset, or stand on two chunks `delta` apart and hold their slots. -/
def CursorsLive (delta : Nat) (t : CompressedStateBackend P × Cursor × Cursor) : Prop :=
  t.2 = (none, none) ∨ exists k first second, t.2 = (some (k, first), some (k + delta, second)) ∧
    LiveHandle t.1 k first ∧ LiveHandle t.1 (k + delta) second

theorem CursorsLive.moves {cursor0 cursor1 : Cursor} {delta : Nat}
    (h : CursorsLive delta (b, cursor0, cursor1)) (k : Nat) :
    (exists first second, cursor0 = some (k, first) ∧ cursor1 = some (k + delta, second) ∧
        LiveHandle b k first ∧ LiveHandle b (k + delta) second) ∨
      (moveCursor cursor0 k = (acquireChunk k : Call (CompressedStateBackend P) SlotHandle) ∧
        moveCursor cursor1 (k + delta) =
          (acquireChunk (k + delta) : Call (CompressedStateBackend P) SlotHandle)) := by
  rcases h with hnone | ⟨j, first, second, hsome, hh0, hh1⟩
  · cases hnone
    exact Or.inr ⟨rfl, rfl⟩
  · cases hsome
    by_cases hjk : j = k
    · subst hjk
      exact Or.inl ⟨first, second, rfl, rfl, hh0, hh1⟩
    · right
      constructor
      · rw [moveCursor, if_pos hjk]
      · rw [moveCursor, if_pos (fun heq => hjk (Nat.add_right_cancel heq))]

theorem post_interSlots {t : CompressedStateBackend P × Cursor × Cursor} {delta k : Nat}
    (h : HoldsChunks hP n X t.1) (hcursors : CursorsLive delta t)
    (hk : k + delta < t.1.layout.chunkCount)
    (hstays : t.1.cache.SecondStays k (k + delta)) :
    Call.Post (interSlots k (k + delta)) t
      (fun slots t' => HoldsChunks hP n X t'.1 ∧ SameFrame t.1 t'.1 ∧
        t'.2 = (some (k, slots.1), some (k + delta, slots.2)) ∧
        LiveHandle t'.1 k slots.1 ∧ LiveHandle t'.1 (k + delta) slots.2)
      (fun _ _ => False) := by
  obtain ⟨b, cursor0, cursor1⟩ := t
  rw [interSlots, Call.post_bind_iff, Call.post_get]
  simp only
  rcases hcursors.moves k with ⟨first, second, rfl, rfl, hh0, hh1⟩ | ⟨hmove0, hmove1⟩
  · rw [moveCursor, if_neg (fun hne => hne rfl), moveCursor, if_neg (fun hne => hne rfl),
      Call.post_bind_iff, Call.post_onObject_iff, Call.post_pure, Call.post_bind_iff,
      Call.post_onObject_iff, Call.post_pure, Call.post_bind_iff, Call.post_modify,
      Call.post_pure]
    exact ⟨h, SameFrame.refl b, rfl, hh0, hh1⟩
  · rw [hmove0, hmove1, Call.post_bind_iff, Call.post_onObject_iff]
    refine (post_acquireChunk h (Nat.lt_of_le_of_lt (Nat.le_add_right k delta) hk)).mono ?_
    intro first b1 hacq0
    rw [Call.post_bind_iff, Call.post_onObject_iff]
    have hk1 : k + delta < b1.layout.chunkCount := by
      rw [hacq0.frame.layout]
      exact hk
    refine (post_acquireChunk hacq0.holds hk1).mono ?_
    intro second b2 hacq1
    rw [Call.post_bind_iff, Call.post_modify, Call.post_pure]
    exact ⟨hacq1.holds, hacq0.frame.trans hacq1.frame, rfl,
      hacq0.second hacq1 (Nat.lt_of_le_of_lt (Nat.le_add_right k delta) hk) hk hstays,
      hacq1.liveHandle⟩

def interStep (kernel : PairKernel R) (p : Nat × Nat) :
    Call (CompressedStateBackend P × Cursor × Cursor) PUnit :=
  interCallback kernel (p.1 / P.chunkStates) (p.2 / P.chunkStates) (p.1 % P.chunkStates) p.1 p.2

theorem post_interStep {t : CompressedStateBackend P × Cursor × Cursor} {delta : Nat}
    (h : Holds hP n v t.1) (hcursors : CursorsLive delta t) (hrep : Reports kernel)
    {p : Nat × Nat} (hs0 : p.1 < 2 ^ n) (hs1 : p.2 < 2 ^ n) (hdelta : 0 < delta)
    (hchunk : p.2 / P.chunkStates = p.1 / P.chunkStates + delta)
    (hlocal : p.2 % P.chunkStates = p.1 % P.chunkStates)
    (hstays : t.1.cache.SecondStays (p.1 / P.chunkStates) (p.2 / P.chunkStates)) :
    Call.Post (interStep kernel p) t
      (fun _ t' => Holds hP n (StateVector.pairStep kernel v p) t'.1 ∧ SameFrame t.1 t'.1 ∧
        CursorsLive delta t')
      (fun _ _ => False) := by
  have hk := h.chunk_lt hs1
  rw [hchunk] at hk hstays
  rw [interStep, interCallback, Call.post_bind_iff, hchunk]
  refine (post_interSlots h.chunks hcursors hk hstays).mono ?_
  rintro ⟨first, second⟩ ⟨b1, cursors⟩ ⟨hchunks, hframe, hset, hh0, hh1⟩
  have h1 : Holds hP n v b1 := ⟨h.length, hchunks⟩
  simp only at hset hh0 hh1 ⊢
  have hne : p.1 / P.chunkStates ≠ p.2 / P.chunkStates := by omega
  have hwrite := post_writePair h1 hrep hs0 hs1 hne hh0 (hchunk ▸ hh1)
  rw [hlocal] at hwrite
  simp only [Nat.mul_comm _ 2]
  rw [Call.post_bind_iff, Call.post_onObject_iff]
  rw [Call.post_bind_iff] at hwrite
  refine hwrite.mono ?_
  intro mutation b2 hend
  rw [Call.post_onObject_iff]
  refine hend.mono ?_
  rintro _ b3 ⟨hholds, hframe', hh0', hh1'⟩
  rw [hchunk] at hh1'
  exact ⟨hholds, hframe.trans hframe', Or.inr ⟨_, first, second, hset, hh0', hh1'⟩⟩

end Inter

/-!
## Whole traversals
-/

section Runs

def fallbackStep (kernel : PairKernel R) (p : Nat × Nat) : Call (CompressedStateBackend P) PUnit :=
  fallbackCallback kernel p.1 p.2

/-- The second chunk of the pair can be acquired without moving the slots. -/
def PairStays (p : Nat × Nat) (b : CompressedStateBackend P) : Prop :=
  b.cache.SecondStays (p.1 / P.chunkStates) (p.2 / P.chunkStates)

/-- In none of the states its steps start from does a traversal move the slots. -/
def KernelSteady (kernel : PairKernel R) (bit : Nat) (b : CompressedStateBackend P) : Prop :=
  match selectMode b.layout (2 ^ bit) with
  | .intraChunk => True
  | .interChunk =>
      Along (interStep kernel) (fun p t => PairStays p t.1) (pairList b.numQubits bit)
        (b, none, none)
  | .fallback => Along (fallbackStep kernel) PairStays (pairList b.numQubits bit) b

omit [Field R] in
theorem CursorLive.none : CursorLive (b, Option.none) := by
  intro k handle hk
  cases hk

variable (hbit : bit < n) (hrep : Reports kernel) (h : Holds hP n v b)
include hbit hrep h

theorem post_runFallback
    (hsteady : Along (fallbackStep kernel) PairStays (pairList n bit) b) :
    Call.Post (runFallback (2 ^ n) (2 ^ bit) (fallbackCallback kernel)) b
      (fun _ b' => Holds hP n (StateVector.pairKernel kernel n bit v) b' ∧ SameFrame b b')
      (fun _ _ => False) := by
  rw [runFallback_eq h.chunks.shaped.qubits hbit]
  refine Call.post_forM_along (f := fallbackStep kernel)
    (fun done b' => Holds hP n (done.foldl (StateVector.pairStep kernel) v) b' ∧ SameFrame b b')
    ?_ ⟨h, SameFrame.refl b⟩ hsteady
  rintro done p b1 hp ⟨h1, hframe⟩ hstays
  obtain ⟨hs0, hs1, _⟩ := StateVector.mem_pairList hbit hp
  refine (post_fallbackCallback h1 hrep hs0 hs1 hstays).mono ?_
  rintro _ b2 ⟨h2, hframe'⟩
  rw [List.foldl_append]
  exact ⟨h2, hframe.trans hframe'⟩

theorem post_runIntraChunk {c : Nat} (hc : P.chunkStates = 2 ^ c) (hlt : bit < c) :
    Call.Post (Call.withLocal Option.none
        (runIntraChunk b.layout (2 ^ bit) (intraCallback kernel))) b
      (fun _ b' => Holds hP n (StateVector.pairKernel kernel n bit v) b' ∧ SameFrame b b')
      (fun _ _ => False) := by
  have hlayout := h.chunks.shaped.layout
  rw [hc] at hlayout
  rw [Call.post_withLocal_iff, runIntraChunk_eq h.chunks.shaped.qubits hbit hlayout hlt, ← hc]
  refine (Call.post_forM_along (s := (b, Option.none)) (f := intraStep kernel)
    (P := fun _ _ => True)
    (fun done t => Holds hP n (done.foldl (StateVector.pairStep kernel) v) t.1 ∧
      SameFrame b t.1 ∧ CursorLive t)
    ?_ ⟨h, SameFrame.refl b, CursorLive.none⟩ ?_).mono (fun _ _ ht => ⟨ht.1, ht.2.1⟩)
  · rintro done p t hp ⟨h1, hframe, hcursor⟩ _
    obtain ⟨hs0, hs1, _⟩ := StateVector.mem_pairList hbit hp
    have heq : p.1 / P.chunkStates = p.2 / P.chunkStates := by
      rw [hc]
      exact div_eq_of_mem_pairList hp hlt
    refine (post_intraStep h1 hcursor hrep hs0 hs1 heq).mono ?_
    rintro _ t' ⟨h2, hframe', hcursor'⟩
    rw [List.foldl_append]
    exact ⟨h2, hframe.trans hframe', hcursor'⟩
  · exact along_of_invariant (I := fun _ => True) (fun _ _ _ _ => ⟨trivial, trivial⟩) trivial

theorem post_runInterChunk {c : Nat} (hc : P.chunkStates = 2 ^ c) (hle : c ≤ bit)
    (hsteady : Along (interStep kernel) (fun p t => PairStays p t.1) (pairList n bit)
      (b, Option.none, Option.none)) :
    Call.Post (Call.withLocal (Option.none, Option.none)
        (runInterChunk b.layout (2 ^ bit) (interCallback kernel))) b
      (fun _ b' => Holds hP n (StateVector.pairKernel kernel n bit v) b' ∧ SameFrame b b')
      (fun _ _ => False) := by
  have hlayout := h.chunks.shaped.layout
  rw [hc] at hlayout
  rw [Call.post_withLocal_iff, runInterChunk_eq h.chunks.shaped.qubits hbit hlayout hle, ← hc]
  refine (Call.post_forM_along (s := (b, Option.none, Option.none)) (f := interStep kernel)
    (fun done t => Holds hP n (done.foldl (StateVector.pairStep kernel) v) t.1 ∧
      SameFrame b t.1 ∧ CursorsLive (2 ^ (bit - c)) t)
    ?_ ⟨h, SameFrame.refl b, Or.inl rfl⟩ hsteady).mono (fun _ _ ht => ⟨ht.1, ht.2.1⟩)
  rintro done p t hp ⟨h1, hframe, hcursors⟩ hstays
  obtain ⟨hs0, hs1, _⟩ := StateVector.mem_pairList hbit hp
  obtain ⟨hchunk, hlocal⟩ := chunks_of_mem_pairList hbit hp hle
  rw [← hc] at hchunk hlocal
  refine (post_interStep h1 hcursors hrep hs0 hs1 (Nat.two_pow_pos _) hchunk hlocal
    hstays).mono ?_
  rintro _ t' ⟨h2, hframe', hcursors'⟩
  rw [List.foldl_append]
  exact ⟨h2, hframe.trans hframe', hcursors'⟩

/-- A traversal that never moves the slots computes the kernel on the state vector. -/
theorem post_runPairKernel (hsteady : KernelSteady kernel bit b) :
    Call.Post (runPairKernel (2 ^ bit) kernel) b
      (fun _ b' => Holds hP n (StateVector.pairKernel kernel n bit v) b' ∧ SameFrame b b')
      (fun _ _ => False) := by
  have hlayout := h.chunks.shaped.layout
  rw [KernelSteady, h.chunks.shaped.numQubits] at hsteady
  rw [runPairKernel, Call.post_bind_iff, Call.post_get]
  cases hmode : selectMode b.layout (2 ^ bit) with
  | fallback =>
      rw [hmode] at hsteady
      simp only [h.chunks.shaped.numStates]
      exact post_runFallback hbit hrep h hsteady
  | intraChunk =>
      obtain ⟨c, hc⟩ := exists_power_of_exact hlayout (by rw [hmode]; simp)
      rw [hc] at hlayout
      exact post_runIntraChunk hbit hrep h hc (lt_of_intraChunk hlayout hmode)
  | interChunk =>
      rw [hmode] at hsteady
      obtain ⟨c, hc⟩ := exists_power_of_exact hlayout (by rw [hmode]; simp)
      rw [hc] at hlayout
      have hle := le_of_interChunk hlayout hmode
      have hcapacity : b.cache.capacity ≥ 2 := by
        have htwo : 1 < b.layout.chunkCount := by
          rw [hlayout.lt_chunkCount_iff, Nat.one_mul]
          exact Nat.pow_lt_pow_right (by decide) (by omega)
        have hslots := P.cacheSlots_ge_two
        rw [h.chunks.shaped.capacity]
        omega
      simp only [if_pos hcapacity]
      exact post_runInterChunk hbit hrep h hc hle hsteady

omit hbit hrep h in
/-- With its reserved slots a backend meets the condition of every traversal. -/
theorem Roomy.kernelSteady (hb : b.Roomy) (hbit : bit < n) (hrep : Reports kernel)
    (h : Holds hP n v b) : KernelSteady kernel bit b := by
  have hlayout := h.chunks.shaped.layout
  rw [KernelSteady, h.chunks.shaped.numQubits]
  cases hmode : selectMode b.layout (2 ^ bit) with
  | intraChunk => trivial
  | fallback =>
      refine along_of_invariant (I := fun b' => b'.Roomy ∧ exists v', Holds hP n v' b') ?_
        ⟨hb, v, h⟩
      rintro p b1 hp ⟨hb1, v1, h1⟩
      obtain ⟨hs0, hs1, _⟩ := StateVector.mem_pairList hbit hp
      refine ⟨hb1.secondStays _ _, ?_⟩
      obtain ⟨_, b2, hrun, h2, hframe⟩ :=
        (post_fallbackCallback h1 hrep hs0 hs1 (hb1.secondStays _ _)).exists_ok
      rw [fallbackStep, hrun]
      exact ⟨hframe.roomy hb1, _, h2⟩
  | interChunk =>
      obtain ⟨c, hc⟩ := exists_power_of_exact hlayout (by rw [hmode]; simp)
      rw [hc] at hlayout
      refine along_of_invariant
        (I := fun t => t.1.Roomy ∧ CursorsLive (2 ^ (bit - c)) t ∧ exists v', Holds hP n v' t.1)
        ?_ ⟨hb, Or.inl rfl, v, h⟩
      rintro p t hp ⟨hb1, hcursors, v1, h1⟩
      obtain ⟨hs0, hs1, _⟩ := StateVector.mem_pairList hbit hp
      obtain ⟨hchunk, hlocal⟩ := chunks_of_mem_pairList hbit hp (le_of_interChunk hlayout hmode)
      rw [← hc] at hchunk hlocal
      refine ⟨hb1.secondStays _ _, ?_⟩
      obtain ⟨_, t', hrun, h2, hframe, hcursors'⟩ :=
        (post_interStep h1 hcursors hrep hs0 hs1 (Nat.two_pow_pos _) hchunk hlocal
          (hb1.secondStays _ _)).exists_ok
      rw [hrun]
      exact ⟨hframe.roomy hb1, hcursors', _, h2⟩

end Runs

end CompressedStateBackend

end Tmfqs
