import Tmfqs.Library.Interrupted
import Tmfqs.Storage.CompressedTraversals
import Tmfqs.Storage.Tolerance

/-!
# Traversals that may change or fail

A step of a traversal acquires its chunks before it writes, so it is done in full or not at
all.  A traversal that throws has done the steps before the one that threw.
-/

namespace Tmfqs

open Library ChunkCache PairKernelExecutor

namespace CompressedStateBackend

variable {R B : Type} [Field R] {P : CodecPolicy R B} {T : Tolerance P} {n bit : Nat}
  {D : Drift T n} {v x : List R} {kernel : PairKernel R} {b b' b'' : CompressedStateBackend P}

/-!
## Writing through handles
-/

section Writes

/-- The backend reads as `x'` after rewriting buffers of `b`. -/
structure Writes (T : Tolerance P) (n : Nat) (x' : List R) (b b' : CompressedStateBackend P) :
    Prop where
  reads : ReadsAs T n x' b'
  coherent : b'.cache.Coherent none
  frame : SameFrame b b'
  counter : b'.cache.touchCounter = b.cache.touchCounter

section

omit [Field R]

theorem Writes.trans {x' x'' : List R} (h : Writes T n x' b b') (h' : Writes T n x'' b' b'') :
    Writes T n x'' b b'' :=
  ⟨h'.reads, h'.coherent, h.frame.trans h'.frame, h'.counter.trans h.counter⟩

theorem Writes.carries {x' v' : List R} (h : Writes T n x' b b')
    (hwithin : D.Within b.cache.touchCounter x' v') : Carries D v' b' := by
  refine ⟨h.coherent, x', h.reads, ?_⟩
  rw [h.counter]
  exact hwithin

theorem LiveHandle.reads {k : Nat} {handle : SlotHandle} (hh : LiveHandle b k handle)
    (h : ReadsAs T n x b) : b.slotData handle = chunkOf P.chunkStates x k := by
  rcases h.retains with ⟨S, hretains⟩
  rw [← hh.chunkIndex]
  exact hretains.content.buffer hh.live

theorem ReadsAs.rewrite (h : ReadsAs T n x b) (hc : b.cache.Coherent none) {k : Nat}
    {handle : SlotHandle} (f : List R -> List R) (dirty : Bool) (hh : LiveHandle b k handle)
    (hlen : forall y, (f y).length = y.length)
    (hclean : dirty = false -> f (chunkOf P.chunkStates x k) = chunkOf P.chunkStates x k)
    {x' : List R} (hx' : x'.length = x.length)
    (hchunks : chunkOf P.chunkStates x' =
      Function.update (chunkOf P.chunkStates x) k (f (chunkOf P.chunkStates x k))) :
    Writes T n x' b { b with cache := touch b.cache handle f dirty } := by
  have hdata := hh.reads h
  rcases h.retains with ⟨S, hretains⟩
  have hroomy : b.cache.capacity ≤ b.cache.reserved := hretains.framed.roomy
  cases dirty with
  | false =>
      have hself : touch b.cache handle f false = b.cache := by
        apply writeData_self
        have hbuffer : (b.cache.slot handle.slotIndex).buffer = chunkOf P.chunkStates x k := hdata
        rw [hbuffer, hclean rfl]
      have hsame : chunkOf P.chunkStates x' = chunkOf P.chunkStates x := by
        rw [hchunks, hclean rfl, Function.update_eq_self]
      rw [hself]
      exact ⟨⟨hx'.trans h.length, S, hsame ▸ hretains⟩, hc, SameFrame.refl b, rfl⟩
  | true =>
      have hi := (hc.carried hh.live).1
      have hwrite : (b.cache.writeData handle f).Coherent none := hc.modifySlot hi rfl rfl
      have hi' := (hwrite.carried (k := handle.chunkIndex) hh.live).1
      have hdenotes : (b.cache.writeData handle f).denotesDirty handle := hh.denotes
      have hcache : touch b.cache handle f true =
          (b.cache.writeData handle f).modifySlot handle.slotIndex
            fun slot => { slot with dirty := true } := by
        rw [touch, if_pos rfl, setDirty, if_pos hdenotes]
      have hcontent := hretains.content.write hc hh.live hh.denotes hlen
      have hentry := entry_write f hc hh.live hh.denotes
      rw [hh.chunkIndex, ← hchunks] at hcontent
      have hcoherent : (touch b.cache handle f true).Coherent none := by
        rw [hcache]
        exact hwrite.modifySlot hi' rfl rfl
      have hshape : SameShape b.cache (touch b.cache handle f true) := by
        rw [hcache]
        exact ⟨rfl, rfl⟩
      have hreserved : (touch b.cache handle f true).capacity ≤
          (touch b.cache handle f true).reserved := by
        rw [hcache]
        exact hroomy
      refine ⟨⟨hx'.trans h.length, S, ?_⟩, hcoherent, ⟨rfl, rfl, rfl, rfl, fun _ => hreserved⟩, ?_⟩
      · exact
          { framed := hretains.framed.recached hshape hreserved hretains.framed.chunks
            length := length_chunkOf_eq hretains.framed.layout (hx'.trans h.length)
            content := hcontent
            settled := by
              intro j hj hdirty
              have hne : j ≠ k := by
                intro heq
                rw [heq, ← hh.chunkIndex, isDirty] at hdirty
                change Option.any Prod.snd
                  (((b.cache.writeData handle f).setDirty handle).entry handle.chunkIndex) =
                    false at hdirty
                rw [hentry, if_pos rfl] at hdirty
                cases hdirty
              have hkeep : (touch b.cache handle f true).entry j = b.cache.entry j := by
                change ((b.cache.writeData handle f).setDirty handle).entry j = _
                rw [hentry, if_neg (hh.chunkIndex ▸ hne)]
              rw [hchunks, Function.update_of_ne hne]
              exact hretains.settled j (hshape.chunks ▸ hj) (isDirty_congr hkeep ▸ hdirty) }
      · change (touch b.cache handle f true).touchCounter = b.cache.touchCounter
        rw [hcache]
        rfl

end

theorem ReadsAs.rewriteAmp (h : ReadsAs T n x b) (hc : b.cache.Coherent none) {s : Nat}
    (hs : s < 2 ^ n) {handle : SlotHandle} (a : Amplitude R) (dirty : Bool)
    (hh : LiveHandle b (s / P.chunkStates) handle) (hclean : dirty = false -> a = ampAt x s) :
    Writes T n (setAmp x s a) b
      { b with
        cache := touch b.cache handle (fun buffer => writeAmp buffer (2 * (s % P.chunkStates)) a)
          dirty } := by
  refine h.rewrite hc _ dirty hh (fun y => length_writeAmp y _ a) ?_ (length_setAmp x s a)
    (chunkOf_setAmp P.chunkStates_pos x s a)
  intro hdirty
  have hmod := h.framed.layout.mod_lt_statesIn hs
  have hlen := length_chunkOf_eq h.framed.layout h.length (s / P.chunkStates)
  rw [hclean hdirty, ← readAmp_chunkOf P.chunkStates_pos x s]
  exact writeAmp_readAmp_self (by omega)

end Writes

/-!
## The end of a step
-/

section Steps

variable {p : Nat × Nat} {h0 h1 : SlotHandle}

theorem ReadsAs.runOnData_apply (h : ReadsAs T n x b) (hh0 : LiveHandle b (p.1 / P.chunkStates) h0)
    (hh1 : LiveHandle b (p.2 / P.chunkStates) h1) :
    runOnData kernel p.1 p.2 h0 (2 * (p.1 % P.chunkStates)) h1 (2 * (p.2 % P.chunkStates)) b =
      (.ok (kernel p.1 p.2 (ampAt x p.1) (ampAt x p.2)).1,
        { b with
          cache :=
            (b.cache.writeData h0 fun buffer => writeAmp buffer (2 * (p.1 % P.chunkStates))
              (kernel p.1 p.2 (ampAt x p.1) (ampAt x p.2)).2.1).writeData h1
              fun buffer => writeAmp buffer (2 * (p.2 % P.chunkStates))
                (kernel p.1 p.2 (ampAt x p.1) (ampAt x p.2)).2.2 }) := by
  rw [← readAmp_chunkOf P.chunkStates_pos x p.1, ← readAmp_chunkOf P.chunkStates_pos x p.2,
    ← hh0.reads h, ← hh1.reads h]
  rfl

theorem ReadsAs.writePair_apply (h : ReadsAs T n x b) (hh0 : LiveHandle b (p.1 / P.chunkStates) h0)
    (hh1 : LiveHandle b (p.2 / P.chunkStates) h1) :
    (do
        let mutation <- runOnData kernel p.1 p.2 h0 (2 * (p.1 % P.chunkStates)) h1
          (2 * (p.2 % P.chunkStates))
        markTouched mutation h0 h1 : Call (CompressedStateBackend P) PUnit) b =
      (.ok ⟨⟩,
        { b with
          cache := touch (touch b.cache h0
            (fun buffer => writeAmp buffer (2 * (p.1 % P.chunkStates))
              (kernel p.1 p.2 (ampAt x p.1) (ampAt x p.2)).2.1)
            (touchesFirst (kernel p.1 p.2 (ampAt x p.1) (ampAt x p.2)).1)) h1
            (fun buffer => writeAmp buffer (2 * (p.2 % P.chunkStates))
              (kernel p.1 p.2 (ampAt x p.1) (ampAt x p.2)).2.2)
            (touchesSecond (kernel p.1 p.2 (ampAt x p.1) (ampAt x p.2)).1) }) := by
  rw [Call.bind_ok (h.runOnData_apply hh0 hh1), ← touch_touch]
  rfl

theorem ReadsAs.writeSingle_apply (h : ReadsAs T n x b)
    (hh0 : LiveHandle b (p.1 / P.chunkStates) h0) (hh1 : LiveHandle b (p.2 / P.chunkStates) h1)
    (hslot : h0.slotIndex = h1.slotIndex) :
    (do
        let mutation <- runOnData kernel p.1 p.2 h0 (2 * (p.1 % P.chunkStates)) h1
          (2 * (p.2 % P.chunkStates))
        if mutation = PairMutation.none then
          pure ⟨⟩
        else
          modifyCache fun c => c.setDirty h0 : Call (CompressedStateBackend P) PUnit) b =
      (.ok ⟨⟩,
        { b with
          cache := touch b.cache h0
            (fun buffer => writeAmp (writeAmp buffer (2 * (p.1 % P.chunkStates))
              (kernel p.1 p.2 (ampAt x p.1) (ampAt x p.2)).2.1) (2 * (p.2 % P.chunkStates))
              (kernel p.1 p.2 (ampAt x p.1) (ampAt x p.2)).2.2)
            ((kernel p.1 p.2 (ampAt x p.1) (ampAt x p.2)).1 ≠ PairMutation.none) }) := by
  rw [Call.bind_ok (h.runOnData_apply hh0 hh1), writeData_writeData b.cache hslot.symm, touch]
  by_cases hnone : (kernel p.1 p.2 (ampAt x p.1) (ampAt x p.2)).1 = PairMutation.none
  · rw [if_pos hnone, if_neg (by simpa using hnone)]
    rfl
  · rw [if_neg hnone, if_pos (by simpa using hnone)]
    rfl

theorem ReadsAs.writesPair (h : ReadsAs T n x b) (hc : b.cache.Coherent none)
    (hrep : Reports kernel)
    (hs0 : p.1 < 2 ^ n) (hs1 : p.2 < 2 ^ n) (hne : p.1 ≠ p.2)
    (hh0 : LiveHandle b (p.1 / P.chunkStates) h0) (hh1 : LiveHandle b (p.2 / P.chunkStates) h1) :
    Call.Post
      (do
        let mutation <- runOnData kernel p.1 p.2 h0 (2 * (p.1 % P.chunkStates)) h1
          (2 * (p.2 % P.chunkStates))
        markTouched mutation h0 h1) b
      (fun _ b' => Writes T n (StateVector.pairStep kernel x p) b b' ∧
        LiveHandle b' (p.1 / P.chunkStates) h0 ∧ LiveHandle b' (p.2 / P.chunkStates) h1)
      (fun _ _ => False) := by
  have hfirst := h.rewriteAmp hc hs0 (kernel p.1 p.2 (ampAt x p.1) (ampAt x p.2)).2.1
    (touchesFirst (kernel p.1 p.2 (ampAt x p.1) (ampAt x p.2)).1) hh0 (hrep.first _ _ _ _)
  have hh0' := hh0.touch h0 (fun buffer => writeAmp buffer (2 * (p.1 % P.chunkStates))
    (kernel p.1 p.2 (ampAt x p.1) (ampAt x p.2)).2.1)
    (touchesFirst (kernel p.1 p.2 (ampAt x p.1) (ampAt x p.2)).1)
  have hh1' := hh1.touch h0 (fun buffer => writeAmp buffer (2 * (p.1 % P.chunkStates))
    (kernel p.1 p.2 (ampAt x p.1) (ampAt x p.2)).2.1)
    (touchesFirst (kernel p.1 p.2 (ampAt x p.1) (ampAt x p.2)).1)
  have hsecond := hfirst.reads.rewriteAmp hfirst.coherent hs1
    (kernel p.1 p.2 (ampAt x p.1) (ampAt x p.2)).2.2
    (touchesSecond (kernel p.1 p.2 (ampAt x p.1) (ampAt x p.2)).1) hh1' (by
      intro hclean
      have hlen := h.length
      rw [ampAt_setAmp _ _ (by omega), if_neg (Ne.symm hne)]
      exact hrep.second _ _ _ _ hclean)
  exact Call.post_of_ok (h.writePair_apply hh0 hh1)
    ⟨hfirst.trans hsecond, hh0'.touch h1 _ _, hh1'.touch h1 _ _⟩

theorem ReadsAs.writesSingle (h : ReadsAs T n x b) (hc : b.cache.Coherent none)
    (hrep : Reports kernel) (hs0 : p.1 < 2 ^ n) (hs1 : p.2 < 2 ^ n)
    (heq : p.1 / P.chunkStates = p.2 / P.chunkStates)
    (hh0 : LiveHandle b (p.1 / P.chunkStates) h0) (hh1 : LiveHandle b (p.2 / P.chunkStates) h1)
    (hslot : h0.slotIndex = h1.slotIndex) :
    Call.Post
      (do
        let mutation <- runOnData kernel p.1 p.2 h0 (2 * (p.1 % P.chunkStates)) h1
          (2 * (p.2 % P.chunkStates))
        if mutation = PairMutation.none then
          pure ⟨⟩
        else
          modifyCache fun c => c.setDirty h0) b
      (fun _ b' => Writes T n (StateVector.pairStep kernel x p) b b' ∧
        LiveHandle b' (p.1 / P.chunkStates) h0)
      (fun _ _ => False) := by
  have hlen := h.length
  have hself : forall s, s < 2 ^ n -> setAmp x s (ampAt x s) = x := by
    intro s hs
    exact writeAmp_readAmp_self (by omega)
  have hwritten := h.rewrite hc
    (fun buffer => writeAmp (writeAmp buffer (2 * (p.1 % P.chunkStates))
      (kernel p.1 p.2 (ampAt x p.1) (ampAt x p.2)).2.1) (2 * (p.2 % P.chunkStates))
      (kernel p.1 p.2 (ampAt x p.1) (ampAt x p.2)).2.2)
    ((kernel p.1 p.2 (ampAt x p.1) (ampAt x p.2)).1 ≠ PairMutation.none) hh0
    (fun y => by rw [length_writeAmp, length_writeAmp])
    (by
      intro hclean
      have hnone : (kernel p.1 p.2 (ampAt x p.1) (ampAt x p.2)).1 = PairMutation.none := by
        simpa using hclean
      have hfirst := hrep.first p.1 p.2 (ampAt x p.1) (ampAt x p.2) (by rw [hnone]; rfl)
      have hsecond := hrep.second p.1 p.2 (ampAt x p.1) (ampAt x p.2) (by rw [hnone]; rfl)
      -- writing back what is there changes neither the vector nor its chunk
      have hchunk0 := congrFun (chunkOf_setAmp P.chunkStates_pos x p.1 (ampAt x p.1))
        (p.1 / P.chunkStates)
      have hchunk1 := congrFun (chunkOf_setAmp P.chunkStates_pos x p.2 (ampAt x p.2))
        (p.2 / P.chunkStates)
      rw [hself p.1 hs0, Function.update_self] at hchunk0
      rw [hself p.2 hs1, Function.update_self, ← heq] at hchunk1
      rw [hfirst, hsecond, ← hchunk0, ← hchunk1])
    (StateVector.length_pairStep kernel x p)
    (by
      rw [StateVector.pairStep, chunkOf_setAmp P.chunkStates_pos,
        chunkOf_setAmp P.chunkStates_pos, ← heq, Function.update_self, Function.update_idem])
  exact Call.post_of_ok (h.writeSingle_apply hh0 hh1 hslot) ⟨hwritten, hh0.touch h0 _ _⟩

end Steps

/-!
## Steps
-/

section Respects

/-- The drift does not grow when both vectors take the step. -/
def Drift.Respects (D : Drift T n) (f : List R -> List R) : Prop :=
  forall j x v, x.length = 2 * 2 ^ n -> D.Within j x v -> D.Within j (f x) (f v)

def Drift.RespectsKernel (D : Drift T n) (kernel : PairKernel R) : Prop :=
  forall p : Nat × Nat, p.1 < 2 ^ n -> p.2 < 2 ^ n -> p.1 ≠ p.2 ->
    D.Respects fun v => StateVector.pairStep kernel v p

variable {p : Nat × Nat}

theorem post_fallbackCallback_carries (h : Carries D v b) (hrep : Reports kernel)
    (hrespects : D.Respects fun v => StateVector.pairStep kernel v p) (hs0 : p.1 < 2 ^ n)
    (hs1 : p.2 < 2 ^ n) (hne : p.1 ≠ p.2) :
    Call.Post (fallbackCallback kernel p.1 p.2) b
      (fun _ b' => Carries D (StateVector.pairStep kernel v p) b' ∧ SameFrame b b')
      (fun _ b' => Leaves D v b.batchDepth b') := by
  have hk0 := h.shaped.layout.div_lt_chunkCount hs0
  have hk1 := h.shaped.layout.div_lt_chunkCount hs1
  rw [fallbackCallback, fallbackRefs, bind_assoc, Call.post_bind_iff]
  refine (post_acquireAmplitudeRef_obtains h hs0).mono ?_
  rintro ref0 b1 ⟨hobtains0, hoffset0⟩
  rw [bind_assoc, Call.post_bind_iff]
  refine (post_acquireAmplitudeRef_obtains hobtains0.carries hs1).imp ?_
    (fun _ _ hl => hobtains0.frame.leaves hl)
  rintro ref1 b2 ⟨hobtains1, hoffset1⟩
  have hframe := hobtains0.frame.trans hobtains1.frame
  have hh0 := hobtains0.second hobtains1 h hk0 hk1
  have hh1 := hobtains1.liveHandle
  rcases hobtains1.carries with ⟨hc, x, hx, hwithin⟩
  have hwithin' := hrespects _ x v hx.length hwithin
  rw [pure_bind]
  simp only
  rw [hoffset0, hoffset1]
  by_cases hslot : ref0.slot.slotIndex = ref1.slot.slotIndex
  · have heq : p.1 / P.chunkStates = p.2 / P.chunkStates := by
      have hcarried0 := (hc.carried hh0.slotOf).2.1
      have hcarried1 := (hc.carried hh1.slotOf).2.1
      rw [hslot, hcarried1] at hcarried0
      exact (Option.some.inj hcarried0).symm
    simp only [hslot, if_true]
    refine (hx.writesSingle hc hrep hs0 hs1 heq hh0 hh1 hslot).imp ?_ (fun _ _ he => he.elim)
    rintro _ b3 ⟨hwrites, _⟩
    exact ⟨hwrites.carries hwithin', hframe.trans hwrites.frame⟩
  · have hmarks : (fun mutation => (if mutation = PairMutation.none then pure ⟨⟩
        else markTouched mutation ref0.slot ref1.slot : Call (CompressedStateBackend P) PUnit)) =
        fun mutation => markTouched mutation ref0.slot ref1.slot := by
      funext mutation
      cases mutation <;> rfl
    simp only [hslot, if_false, hmarks]
    refine (hx.writesPair hc hrep hs0 hs1 hne hh0 hh1).imp ?_ (fun _ _ he => he.elim)
    rintro _ b3 ⟨hwrites, _⟩
    exact ⟨hwrites.carries hwithin', hframe.trans hwrites.frame⟩

theorem post_moveCursor_carries (h : Carries D v b) {cursor : Cursor}
    (hcursor : CursorLive (b, cursor)) {k : Nat} (hk : k < b.layout.chunkCount) :
    Call.Post (moveCursor cursor k) b
      (fun handle b' => Carries D v b' ∧ SameFrame b b' ∧ LiveHandle b' k handle)
      (fun _ b' => Leaves D v b.batchDepth b') := by
  have hacquire : Call.Post (acquireChunk k) b
      (fun handle b' => Carries D v b' ∧ SameFrame b b' ∧ LiveHandle b' k handle)
      (fun _ b' => Leaves D v b.batchDepth b') :=
    (post_acquireChunk_obtains h hk).mono fun _ _ hobtains =>
      ⟨hobtains.carries, hobtains.frame, hobtains.liveHandle⟩
  cases cursor with
  | none => exact hacquire
  | some active =>
      rcases active with ⟨j, handle⟩
      rw [moveCursor]
      by_cases hjk : j = k
      · subst hjk
        rw [if_neg (fun hne => hne rfl)]
        exact ⟨h, SameFrame.refl b, hcursor j handle rfl⟩
      · rw [if_pos hjk]
        exact hacquire

theorem post_intraStep_carries {t : CompressedStateBackend P × Cursor} (h : Carries D v t.1)
    (hcursor : CursorLive t) (hrep : Reports kernel)
    (hrespects : D.Respects fun v => StateVector.pairStep kernel v p) (hs0 : p.1 < 2 ^ n)
    (hs1 : p.2 < 2 ^ n) (heq : p.1 / P.chunkStates = p.2 / P.chunkStates) :
    Call.Post (intraStep kernel p) t
      (fun _ t' => Carries D (StateVector.pairStep kernel v p) t'.1 ∧ SameFrame t.1 t'.1 ∧
        CursorLive t')
      (fun _ t' => Leaves D v t.1.batchDepth t'.1) := by
  rcases t with ⟨b, cursor⟩
  rw [intraStep, intraCallback, Call.post_bind_iff, Call.post_get]
  simp only
  rw [Call.post_bind_iff, Call.post_onObject_iff]
  refine (post_moveCursor_carries h hcursor (h.shaped.layout.div_lt_chunkCount hs0)).mono ?_
  rintro handle b1 ⟨h1, hframe, hh⟩
  rcases h1 with ⟨hc, x, hx, hwithin⟩
  have hwithin' := hrespects _ x v hx.length hwithin
  rw [Call.post_bind_iff, Call.post_modify]
  simp only [Nat.mul_comm _ 2]
  have hwrite := hx.writesSingle hc hrep hs0 hs1 heq hh (heq ▸ hh) rfl
  rw [Call.post_bind_iff, Call.post_onObject_iff]
  rw [Call.post_bind_iff] at hwrite
  have hend : forall b3, Writes T n (StateVector.pairStep kernel x p) b1 b3 ->
      LiveHandle b3 (p.1 / P.chunkStates) handle ->
      Carries D (StateVector.pairStep kernel v p) b3 ∧ SameFrame b b3 ∧
        CursorLive (b3, some (p.1 / P.chunkStates, handle)) := by
    intro b3 hwrites hh'
    refine ⟨hwrites.carries hwithin', hframe.trans hwrites.frame, ?_⟩
    intro k other hk
    cases hk
    exact hh'
  refine hwrite.imp ?_ (fun _ _ he => he.elim)
  intro mutation b2 hrest
  by_cases hnone : mutation = PairMutation.none
  · rw [if_pos hnone, Call.post_pure] at hrest
    rw [if_neg (fun hne => hne hnone), Call.post_pure]
    exact hend b2 hrest.1 hrest.2
  · rw [if_neg hnone] at hrest
    rw [if_pos hnone, Call.post_onObject_iff]
    refine hrest.imp ?_ (fun _ _ he => he.elim)
    rintro _ b3 ⟨hwrites, hh'⟩
    exact hend b3 hwrites hh'

theorem post_interSlots_carries {t : CompressedStateBackend P × Cursor × Cursor} {delta k : Nat}
    (h : Carries D v t.1) (hcursors : CursorsLive delta t)
    (hk : k + delta < t.1.layout.chunkCount) :
    Call.Post (interSlots k (k + delta)) t
      (fun slots t' => Carries D v t'.1 ∧ SameFrame t.1 t'.1 ∧
        t'.2 = (some (k, slots.1), some (k + delta, slots.2)) ∧
        LiveHandle t'.1 k slots.1 ∧ LiveHandle t'.1 (k + delta) slots.2)
      (fun _ t' => Leaves D v t.1.batchDepth t'.1) := by
  rcases t with ⟨b, cursor0, cursor1⟩
  have hk0 := Nat.lt_of_le_of_lt (Nat.le_add_right k delta) hk
  rw [interSlots, Call.post_bind_iff, Call.post_get]
  simp only
  rcases hcursors.moves k with ⟨first, second, rfl, rfl, hh0, hh1⟩ | ⟨hmove0, hmove1⟩
  · rw [moveCursor, if_neg (fun hne => hne rfl), moveCursor, if_neg (fun hne => hne rfl),
      Call.post_bind_iff, Call.post_onObject_iff, Call.post_pure, Call.post_bind_iff,
      Call.post_onObject_iff, Call.post_pure, Call.post_bind_iff, Call.post_modify,
      Call.post_pure]
    exact ⟨h, SameFrame.refl b, rfl, hh0, hh1⟩
  · rw [hmove0, hmove1, Call.post_bind_iff, Call.post_onObject_iff]
    refine (post_acquireChunk_obtains h hk0).mono ?_
    intro first b1 hobtains0
    rw [Call.post_bind_iff, Call.post_onObject_iff]
    have hk1 : k + delta < b1.layout.chunkCount := by
      rw [hobtains0.frame.layout]
      exact hk
    refine (post_acquireChunk_obtains hobtains0.carries hk1).imp ?_
      (fun _ _ hl => hobtains0.frame.leaves hl)
    intro second b2 hobtains1
    rw [Call.post_bind_iff, Call.post_modify, Call.post_pure]
    exact ⟨hobtains1.carries, hobtains0.frame.trans hobtains1.frame, rfl,
      hobtains0.second hobtains1 h hk0 hk, hobtains1.liveHandle⟩

theorem post_interStep_carries {t : CompressedStateBackend P × Cursor × Cursor} {delta : Nat}
    (h : Carries D v t.1) (hcursors : CursorsLive delta t) (hrep : Reports kernel)
    (hrespects : D.Respects fun v => StateVector.pairStep kernel v p) (hs0 : p.1 < 2 ^ n)
    (hs1 : p.2 < 2 ^ n) (hne : p.1 ≠ p.2)
    (hchunk : p.2 / P.chunkStates = p.1 / P.chunkStates + delta)
    (hlocal : p.2 % P.chunkStates = p.1 % P.chunkStates) :
    Call.Post (interStep kernel p) t
      (fun _ t' => Carries D (StateVector.pairStep kernel v p) t'.1 ∧ SameFrame t.1 t'.1 ∧
        CursorsLive delta t')
      (fun _ t' => Leaves D v t.1.batchDepth t'.1) := by
  have hk := h.shaped.layout.div_lt_chunkCount hs1
  rw [hchunk] at hk
  rw [interStep, interCallback, Call.post_bind_iff, hchunk]
  refine (post_interSlots_carries h hcursors hk).mono ?_
  rintro ⟨first, second⟩ ⟨b1, cursors⟩ ⟨h1, hframe, hset, hh0, hh1⟩
  simp only at h1 hset hh0 hh1 ⊢
  rcases h1 with ⟨hc, x, hx, hwithin⟩
  have hwithin' := hrespects _ x v hx.length hwithin
  have hwrite := hx.writesPair hc hrep hs0 hs1 hne hh0 (hchunk ▸ hh1)
  rw [hlocal] at hwrite
  simp only [Nat.mul_comm _ 2]
  rw [Call.post_bind_iff, Call.post_onObject_iff]
  rw [Call.post_bind_iff] at hwrite
  refine hwrite.imp ?_ (fun _ _ he => he.elim)
  intro mutation b2 hrest
  rw [Call.post_onObject_iff]
  refine hrest.imp ?_ (fun _ _ he => he.elim)
  rintro _ b3 ⟨hwrites, hh0', hh1'⟩
  rw [hchunk] at hh1'
  exact ⟨hwrites.carries hwithin', hframe.trans hwrites.frame,
    Or.inr ⟨_, first, second, hset, hh0', hh1'⟩⟩

end Respects

/-!
## Whole traversals
-/

section Runs

/-- The call takes the steps on the vector, or throws after some of them. -/
def Performs {ι α : Type} (D : Drift T n) (step : List R -> ι -> List R) (steps : List ι)
    (v : List R) (call : Call (CompressedStateBackend P) α) (b : CompressedStateBackend P) :
    Prop :=
  Call.Post call b (fun _ b' => Carries D (steps.foldl step v) b' ∧ SameFrame b b')
    (fun _ b' => exists done todo, steps = done ++ todo ∧
      Leaves D (done.foldl step v) b.batchDepth b')

variable (hbit : bit < n) (hrep : Reports kernel)
  (hrespects : D.RespectsKernel kernel) (h : Carries D v b)
include hbit hrep hrespects h

theorem performs_runFallback :
    Performs D (StateVector.pairStep kernel) (pairList n bit) v
      (runFallback (2 ^ n) (2 ^ bit) (fallbackCallback kernel)) b := by
  rw [Performs, runFallback_eq h.shaped.qubits hbit]
  refine Call.post_forM_advances (fun v b' => Carries D v b' ∧ SameFrame b b')
    (fun v b' => Leaves D v b.batchDepth b') ?_ ⟨h, SameFrame.refl b⟩
  rintro p hp v1 b1 ⟨h1, hframe⟩
  have hpos : 0 < 2 ^ bit := Nat.two_pow_pos bit
  obtain ⟨hs0, hs1, hp2⟩ := StateVector.mem_pairList hbit hp
  have hne : p.1 ≠ p.2 := by omega
  refine (post_fallbackCallback_carries h1 hrep (hrespects p hs0 hs1 hne) hs0 hs1 hne).imp ?_
    (fun _ _ hl => hframe.leaves hl)
  rintro _ b2 ⟨h2, hframe'⟩
  exact ⟨h2, hframe.trans hframe'⟩

theorem performs_runIntraChunk {c : Nat} (hc : P.chunkStates = 2 ^ c) (hlt : bit < c) :
    Performs D (StateVector.pairStep kernel) (pairList n bit) v
      (Call.withLocal Option.none
        (runIntraChunk b.layout (2 ^ bit) (intraCallback kernel))) b := by
  have hlayout := h.shaped.layout
  rw [hc] at hlayout
  rw [Performs, Call.post_withLocal_iff, runIntraChunk_eq h.shaped.qubits hbit hlayout hlt, ← hc]
  refine (Call.post_forM_advances (f := intraStep kernel) (s := (b, Option.none))
    (fun v (t : CompressedStateBackend P × Cursor) =>
      Carries D v t.1 ∧ SameFrame b t.1 ∧ CursorLive t)
    (fun v t => Leaves D v b.batchDepth t.1) ?_ ⟨h, SameFrame.refl b, CursorLive.none⟩).mono
      (fun _ _ ht => ⟨ht.1, ht.2.1⟩)
  rintro p hp v1 t ⟨h1, hframe, hcursor⟩
  have hpos : 0 < 2 ^ bit := Nat.two_pow_pos bit
  obtain ⟨hs0, hs1, hp2⟩ := StateVector.mem_pairList hbit hp
  have heq : p.1 / P.chunkStates = p.2 / P.chunkStates := by
    rw [hc]
    exact div_eq_of_mem_pairList hp hlt
  refine (post_intraStep_carries h1 hcursor hrep (hrespects p hs0 hs1 (by omega)) hs0 hs1
    heq).imp ?_ (fun _ _ hl => hframe.leaves hl)
  rintro _ t' ⟨h2, hframe', hcursor'⟩
  exact ⟨h2, hframe.trans hframe', hcursor'⟩

theorem performs_runInterChunk {c : Nat} (hc : P.chunkStates = 2 ^ c) (hle : c ≤ bit) :
    Performs D (StateVector.pairStep kernel) (pairList n bit) v
      (Call.withLocal (Option.none, Option.none)
        (runInterChunk b.layout (2 ^ bit) (interCallback kernel))) b := by
  have hlayout := h.shaped.layout
  rw [hc] at hlayout
  rw [Performs, Call.post_withLocal_iff, runInterChunk_eq h.shaped.qubits hbit hlayout hle, ← hc]
  refine (Call.post_forM_advances (f := interStep kernel) (s := (b, Option.none, Option.none))
    (fun v (t : CompressedStateBackend P × Cursor × Cursor) =>
      Carries D v t.1 ∧ SameFrame b t.1 ∧ CursorsLive (2 ^ (bit - c)) t)
    (fun v t => Leaves D v b.batchDepth t.1) ?_ ⟨h, SameFrame.refl b, Or.inl rfl⟩).mono
      (fun _ _ ht => ⟨ht.1, ht.2.1⟩)
  rintro p hp v1 t ⟨h1, hframe, hcursors⟩
  have hpos : 0 < 2 ^ bit := Nat.two_pow_pos bit
  obtain ⟨hs0, hs1, hp2⟩ := StateVector.mem_pairList hbit hp
  obtain ⟨hchunk, hlocal⟩ := chunks_of_mem_pairList hbit hp hle
  rw [← hc] at hchunk hlocal
  have hne : p.1 ≠ p.2 := by omega
  refine (post_interStep_carries h1 hcursors hrep (hrespects p hs0 hs1 hne) hs0 hs1 hne hchunk
    hlocal).imp ?_ (fun _ _ hl => hframe.leaves hl)
  rintro _ t' ⟨h2, hframe', hcursors'⟩
  exact ⟨h2, hframe.trans hframe', hcursors'⟩

theorem performs_runPairKernel :
    Performs D (StateVector.pairStep kernel) (pairList n bit) v
      (runPairKernel (2 ^ bit) kernel) b := by
  have hlayout := h.shaped.layout
  rw [Performs, runPairKernel, Call.post_bind_iff, Call.post_get]
  cases hmode : selectMode b.layout (2 ^ bit) with
  | fallback =>
      simp only [h.shaped.numStates]
      exact performs_runFallback hbit hrep hrespects h
  | intraChunk =>
      obtain ⟨c, hc⟩ := exists_power_of_exact hlayout (by rw [hmode]; simp)
      rw [hc] at hlayout
      exact performs_runIntraChunk hbit hrep hrespects h hc (lt_of_intraChunk hlayout hmode)
  | interChunk =>
      obtain ⟨c, hc⟩ := exists_power_of_exact hlayout (by rw [hmode]; simp)
      rw [hc] at hlayout
      have hle := le_of_interChunk hlayout hmode
      have hcapacity : b.cache.capacity ≥ 2 := by
        have htwo : 1 < b.layout.chunkCount := by
          rw [hlayout.lt_chunkCount_iff, Nat.one_mul]
          exact Nat.pow_lt_pow_right (by decide) (by omega)
        have hslots := P.cacheSlots_ge_two
        rw [h.shaped.capacity]
        omega
      simp only [if_pos hcapacity]
      exact performs_runInterChunk hbit hrep hrespects h hc hle

end Runs

end CompressedStateBackend

end Tmfqs
