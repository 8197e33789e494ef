import Tmfqs.Library.Trace
import Tmfqs.Storage.CompressedHolds

/-!
# Pair kernels of the compressed backend

A step of a traversal holds the handles of two chunks and writes through both.
It is right as long as the handle taken first still denotes its slot when the
second one has been acquired.
-/

namespace Tmfqs

open Library ChunkCache

namespace ChunkCache

variable {R : Type} {c c1 c2 : ChunkCache R} {j k : Nat} {first second : SlotHandle}
  {victim1 victim2 : Option Nat}

theorem Acquired.second_live (h1 : Acquired c c1 j first victim1)
    (h2 : Acquired c1 c2 k second victim2) (hcapacity : j ≠ k -> 2 ≤ c.capacity) :
    c2.Live first := by
  have hlive1 := h1.live
  rw [Live, h1.chunkIndex]
  by_cases hjk : j = k
  · subst hjk
    rw [h2.live, h2.hit h1.coherent hlive1]
  · rw [h2.slotOf j hjk, if_neg (h1.victim_ne h2 (hcapacity hjk))]
    exact hlive1

theorem Acquired.second_denotes_iff (h1 : Acquired c c1 j first victim1)
    (h2 : Acquired c1 c2 k second victim2) : c2.denotesDirty first <-> c.SecondStays j k := by
  have hstorage : first.storage = c1.storage := h1.denotes
  have hmoves := h1.moves_iff (k := k)
  rw [denotesDirty, hstorage, h2.storage]
  by_cases hm : c1.Moves k
  · rw [if_pos hm]
    constructor
    · intro heq
      omega
    · intro hstays
      exact absurd hstays (hmoves.mp hm)
  · rw [if_neg hm]
    constructor
    · intro _
      exact Decidable.not_not.mp (fun hstays => hm (hmoves.mpr hstays))
    · intro _
      rfl

end ChunkCache

namespace CompressedStateBackend

variable {R B : Type} [Field R] {P : CodecPolicy R B}

/--
The handle names the slot of chunk `k`, and its dirty pointer denotes the flag of
that slot.
-/
structure LiveHandle (b : CompressedStateBackend P) (k : Nat) (handle : SlotHandle) : Prop where
  chunkIndex : handle.chunkIndex = k
  live : b.cache.Live handle
  denotes : b.cache.denotesDirty handle

variable {hP : P.Lossless} {n : Nat} {X : Nat -> List R} {v : List R}
  {b b1 b2 : CompressedStateBackend P}

section

omit [Field R]

theorem LiveHandle.data {k : Nat} {handle : SlotHandle} (hh : LiveHandle b k handle)
    (h : HoldsChunks hP n X b) : b.slotData handle = X k := by
  rw [← hh.chunkIndex]
  exact h.content.buffer hh.live

theorem LiveHandle.slotOf {k : Nat} {handle : SlotHandle} (hh : LiveHandle b k handle) :
    b.cache.slotOf k = some handle.slotIndex := by
  have hlive := hh.live
  rw [Live, hh.chunkIndex] at hlive
  exact hlive

theorem Acquires.liveHandle {k : Nat} {handle : SlotHandle} (h : Acquires hP n X b k handle b1) :
    LiveHandle b1 k handle :=
  ⟨h.chunkIndex, h.live, h.denotes⟩

end

/-!
## Two handles at once
-/

section

omit [Field R]

theorem Acquires.second_live {j k : Nat} {first second : SlotHandle}
    (h1 : Acquires hP n X b j first b1) (h2 : Acquires hP n X b1 k second b2)
    (hj : j < b.layout.chunkCount) (hk : k < b.layout.chunkCount) :
    b2.cache.Live first := by
  obtain ⟨_, hacq1⟩ := h1.acquired
  obtain ⟨_, hacq2⟩ := h2.acquired
  have hslots := P.cacheSlots_ge_two
  have hcapacity := h1.holds.shaped.capacity
  rw [h1.frame.layout] at hcapacity
  exact hacq1.second_live hacq2 (by
    rw [← hacq1.shape.capacity]
    omega)

theorem Acquires.second_denotes_iff {j k : Nat} {first second : SlotHandle}
    (h1 : Acquires hP n X b j first b1) (h2 : Acquires hP n X b1 k second b2) :
    b2.cache.denotesDirty first <-> b.cache.SecondStays j k := by
  obtain ⟨_, hacq1⟩ := h1.acquired
  obtain ⟨_, hacq2⟩ := h2.acquired
  exact hacq1.second_denotes_iff hacq2

theorem Acquires.second {j k : Nat} {first second : SlotHandle}
    (h1 : Acquires hP n X b j first b1) (h2 : Acquires hP n X b1 k second b2)
    (hj : j < b.layout.chunkCount) (hk : k < b.layout.chunkCount)
    (hstays : b.cache.SecondStays j k) : LiveHandle b2 j first :=
  ⟨h1.chunkIndex, h1.second_live h2 hj hk, (h1.second_denotes_iff h2).mpr hstays⟩

theorem Roomy.secondStays (h : b.Roomy) (j k : Nat) : b.cache.SecondStays j k := by
  unfold SecondStays
  rw [if_neg (h.not_moves j)]
  by_cases hlt : (if b.cache.Grows j then b.cache.slots.length + 1 else b.cache.slots.length) <
      b.cache.capacity
  · exact Or.inr (Or.inr (Or.inr (Nat.lt_of_lt_of_le hlt h)))
  · exact Or.inr (Or.inr (Or.inl hlt))

end

/-!
## Writing through both
-/

/-- Rewrite the buffer behind a handle and, if `dirty`, set its flag. -/
def touch (c : ChunkCache R) (handle : SlotHandle) (f : List R -> List R) (dirty : Bool) :
    ChunkCache R :=
  if dirty then (c.writeData handle f).setDirty handle else c.writeData handle f

section

omit [Field R]

theorem touch_slotOf (c : ChunkCache R) (handle : SlotHandle) (f : List R -> List R)
    (dirty : Bool) (k : Nat) : (touch c handle f dirty).slotOf k = c.slotOf k := by
  unfold touch setDirty
  split
  · split <;> rfl
  · rfl

theorem touch_storage (c : ChunkCache R) (handle : SlotHandle) (f : List R -> List R)
    (dirty : Bool) : (touch c handle f dirty).storage = c.storage := by
  unfold touch setDirty
  split
  · split <;> rfl
  · rfl

theorem LiveHandle.touch {k : Nat} {handle : SlotHandle} (hh : LiveHandle b k handle)
    (other : SlotHandle) (f : List R -> List R) (dirty : Bool) :
    LiveHandle { b with cache := touch b.cache other f dirty } k handle where
  chunkIndex := hh.chunkIndex
  live := (touch_slotOf b.cache other f dirty handle.chunkIndex).trans hh.live
  denotes := hh.denotes.trans (touch_storage b.cache other f dirty).symm

theorem HoldsChunks.touch (h : HoldsChunks hP n X b) {k : Nat} {handle : SlotHandle}
    (f : List R -> List R) (dirty : Bool) (hh : LiveHandle b k handle)
    (hlen : forall x, (f x).length = x.length) (hclean : dirty = false -> f (X k) = X k) :
    HoldsChunks hP n (Function.update X k (f (X k)))
        { b with cache := touch b.cache handle f dirty } ∧
      SameFrame b { b with cache := touch b.cache handle f dirty } := by
  cases dirty with
  | true =>
      have hwrite := h.write hh.live hh.denotes hlen
      rw [hh.chunkIndex] at hwrite
      exact hwrite
  | false =>
      have hdata : (b.cache.slot handle.slotIndex).buffer = X k := hh.data h
      have hself : CompressedStateBackend.touch b.cache handle f false = b.cache :=
        writeData_self (by rw [hdata, hclean rfl])
      rw [hself, hclean rfl, Function.update_eq_self]
      exact ⟨h, SameFrame.refl b⟩

/-- The dirty flags of a step are set after both buffers have been rewritten. -/
theorem touch_touch (c : ChunkCache R) (h0 h1 : SlotHandle) (f g : List R -> List R)
    (dirty0 dirty1 : Bool) :
    (let c' := if dirty0 then ((c.writeData h0 f).writeData h1 g).setDirty h0
        else (c.writeData h0 f).writeData h1 g
      if dirty1 then c'.setDirty h1 else c') = touch (touch c h0 f dirty0) h1 g dirty1 := by
  cases dirty0 <;> cases dirty1 <;> simp [touch, setDirty_writeData (c.writeData h0 f)]

end

section Pair

variable {kernel : PairKernel R} {p : Nat × Nat} {h0 h1 : SlotHandle}

theorem Holds.writeBack (h : Holds hP n v b) {state : Nat} (hs : state < 2 ^ n) :
    writeAmp (chunkOf P.chunkStates v (state / P.chunkStates)) (2 * (state % P.chunkStates))
        (ampAt v state) = chunkOf P.chunkStates v (state / P.chunkStates) := by
  have hmod := h.chunks.shaped.layout.mod_lt_statesIn hs
  have hlen := h.chunks.length (state / P.chunkStates)
  rw [← readAmp_chunkOf P.chunkStates_pos v state]
  exact writeAmp_readAmp_self (by omega)

theorem Holds.touch_pair (h : Holds hP n v b) (hrep : Reports kernel)
    (hs0 : p.1 < 2 ^ n) (hs1 : p.2 < 2 ^ n)
    (hne : p.1 / P.chunkStates ≠ p.2 / P.chunkStates)
    (hh0 : LiveHandle b (p.1 / P.chunkStates) h0)
    (hh1 : LiveHandle b (p.2 / P.chunkStates) h1) :
    let r := kernel p.1 p.2 (ampAt v p.1) (ampAt v p.2)
    let c' := touch (touch b.cache h0
      (fun buffer => writeAmp buffer (2 * (p.1 % P.chunkStates)) r.2.1) (touchesFirst r.1)) h1
      (fun buffer => writeAmp buffer (2 * (p.2 % P.chunkStates)) r.2.2) (touchesSecond r.1)
    Holds hP n (StateVector.pairStep kernel v p) { b with cache := c' } ∧
      SameFrame b { b with cache := c' } := by
  intro r c'
  obtain ⟨hfirst, hframe⟩ := h.chunks.touch
    (fun buffer => writeAmp buffer (2 * (p.1 % P.chunkStates)) r.2.1) (touchesFirst r.1) hh0 (fun x => length_writeAmp x _ _) (by
      intro hclean
      simp only [r, hrep.first _ _ _ _ hclean]
      exact h.writeBack hs0)
  have hh1' := hh1.touch h0
    (fun buffer => writeAmp buffer (2 * (p.1 % P.chunkStates)) r.2.1) (touchesFirst r.1)
  obtain ⟨hsecond, hframe'⟩ := hfirst.touch
    (fun buffer => writeAmp buffer (2 * (p.2 % P.chunkStates)) r.2.2) (touchesSecond r.1) hh1' (fun x => length_writeAmp x _ _) (by
      intro hclean
      rw [Function.update_of_ne (Ne.symm hne)]
      simp only [r, hrep.second _ _ _ _ hclean]
      exact h.writeBack hs1)
  refine ⟨⟨?_, ?_⟩, hframe.trans hframe'⟩
  · rw [StateVector.length_pairStep]
    exact h.length
  · refine hsecond.congr ?_
    intro k
    rw [StateVector.pairStep, chunkOf_setAmp P.chunkStates_pos, chunkOf_setAmp P.chunkStates_pos]

theorem Holds.touch_single (h : Holds hP n v b) (hrep : Reports kernel)
    (hs0 : p.1 < 2 ^ n) (hs1 : p.2 < 2 ^ n)
    (heq : p.1 / P.chunkStates = p.2 / P.chunkStates)
    (hh0 : LiveHandle b (p.1 / P.chunkStates) h0) :
    let r := kernel p.1 p.2 (ampAt v p.1) (ampAt v p.2)
    let c' := touch b.cache h0
      (fun buffer => writeAmp (writeAmp buffer (2 * (p.1 % P.chunkStates)) r.2.1)
        (2 * (p.2 % P.chunkStates)) r.2.2) (r.1 ≠ PairMutation.none)
    Holds hP n (StateVector.pairStep kernel v p) { b with cache := c' } ∧
      SameFrame b { b with cache := c' } := by
  intro r c'
  obtain ⟨hwritten, hframe⟩ := h.chunks.touch
    (fun buffer => writeAmp (writeAmp buffer (2 * (p.1 % P.chunkStates)) r.2.1)
      (2 * (p.2 % P.chunkStates)) r.2.2) (r.1 ≠ PairMutation.none) hh0
    (fun x => by rw [length_writeAmp, length_writeAmp]) (by
      intro hclean
      have hnone : r.1 = PairMutation.none := by simpa using hclean
      have hfirst : touchesFirst r.1 = false := by
        rw [hnone]
        rfl
      have hsecond : touchesSecond r.1 = false := by
        rw [hnone]
        rfl
      simp only [r, hrep.first _ _ _ _ hfirst, hrep.second _ _ _ _ hsecond]
      rw [h.writeBack hs0, heq]
      exact h.writeBack hs1)
  refine ⟨⟨?_, ?_⟩, hframe⟩
  · rw [StateVector.length_pairStep]
    exact h.length
  · refine hwritten.congr ?_
    intro k
    rw [StateVector.pairStep, chunkOf_setAmp P.chunkStates_pos, chunkOf_setAmp P.chunkStates_pos,
      ← heq, Function.update_self, Function.update_idem]

end Pair

end CompressedStateBackend

end Tmfqs
