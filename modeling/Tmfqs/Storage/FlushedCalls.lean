import Tmfqs.Storage.BackendRuns
import Tmfqs.Storage.CachedReads

/-!
# Calls that end with a flush

A mutation, and the end of a batch, flushes the cache unless a batch is still open.  A call
that returns while none is open leaves no slot with data that is not stored; reading marks no
slot either.
-/

namespace Tmfqs

open Library ChunkCache

/-!
## Flushed caches
-/

namespace ChunkCache

variable {R σ : Type} {cb : ChunkCallbacks R σ}

/-- Slot `i` carries no chunk or has nothing to store. -/
def FlushedAt (c : ChunkCache R) (i : Nat) : Prop :=
  (c.slot i).chunkIndex = none ∨ (c.slot i).dirty = false

theorem post_flushSlot_flushed (cb : ChunkCallbacks R σ) (t : ChunkCache R × σ) (i : Nat) :
    Call.Post (flushSlot cb i) t
      (fun _ t' => t'.1.slots.length = t.1.slots.length ∧ t'.1.FlushedAt i ∧
        forall j, t.1.FlushedAt j -> t'.1.FlushedAt j)
      (fun _ _ => True) := by
  rw [flushSlot, Call.post_bind_iff, Call.post_get]
  rcases t with ⟨c, s⟩
  cases hindex : (c.slot i).chunkIndex with
  | none =>
      simp only [hindex]
      exact ⟨rfl, Or.inl hindex, fun _ h => h⟩
  | some k =>
      simp only [hindex]
      cases hdirty : (c.slot i).dirty with
      | false =>
          rw [if_neg Bool.false_ne_true]
          exact ⟨rfl, Or.inr hdirty, fun _ h => h⟩
      | true =>
          have hi : i < c.slots.length := by
            by_contra hge
            have hbeyond : c.slots[i]? = none := List.getElem?_eq_none (Nat.not_lt.mp hge)
            rw [ChunkCache.slot, List.getD_eq_getElem?_getD, hbeyond] at hdirty
            cases hdirty
          have hslot := c.slot_modifySlot hi Slot.clean
          rw [if_pos rfl, Call.post_bind_iff, onStore, Call.post_focus_iff]
          apply Call.post_of_forall _ fun _ _ => trivial
          intro count s1
          split
          · exact trivial
          · rw [Call.post_bind_iff, onStore, Call.post_focus_iff]
            apply Call.post_of_forall _ fun _ _ => trivial
            intro _ s2
            rw [onCache, Call.post_modify]
            refine ⟨c.slots_length_modifySlot i _, Or.inr ?_, ?_⟩
            · change ((c.modifySlot i Slot.clean).slot i).dirty = false
              rw [hslot, if_pos rfl]
              rfl
            · intro j hj
              change (c.modifySlot i Slot.clean).FlushedAt j
              rw [FlushedAt, hslot]
              by_cases hji : j = i
              · rw [if_pos hji]
                exact Or.inr rfl
              · rw [if_neg hji]
                exact hj

theorem post_flushAll_flushed (cb : ChunkCallbacks R σ) (t : ChunkCache R × σ) :
    Call.Post (flushAll cb) t
      (fun _ t' => forall i, i < t'.1.slots.length -> t'.1.FlushedAt i) (fun _ _ => True) := by
  rw [flushAll, Call.post_bind_iff, Call.post_get]
  refine (Call.post_forM_range
    (fun done t' => t'.1.slots.length = t.1.slots.length ∧
      forall i, i < done -> t'.1.FlushedAt i) ?_ ⟨rfl, ?_⟩).mono ?_
  · rintro i t1 _ ⟨hlen, hdone⟩
    refine (post_flushSlot_flushed cb t1 i).mono ?_
    rintro _ t2 ⟨hlen', hflushed, hkeep⟩
    refine ⟨hlen'.trans hlen, ?_⟩
    intro j hj
    rcases Nat.lt_succ_iff_lt_or_eq.mp hj with hlt | heq
    · exact hkeep j (hdone j hlt)
    · rw [heq]
      exact hflushed
  · intro i hi
    exact absurd hi (Nat.not_lt_zero i)
  · rintro _ t' ⟨hlen, hflushed⟩ i hi
    exact hflushed i (hlen ▸ hi)

end ChunkCache

namespace CompressedStateBackend

variable {R B : Type} [Field R] {P : CodecPolicy R B} {b : CompressedStateBackend P} {n : Nat}

def NoneDirty (b : CompressedStateBackend P) : Prop :=
  forall k, b.cache.isDirty k = false

/-- Where the call returns with no batch open, the last thing it did was to flush. -/
def EndsFlushed {α : Type} (x : Call (CompressedStateBackend P) α) : Prop :=
  forall b, Call.Post x b
    (fun _ b' => b'.batchDepth = 0 -> forall i, i < b'.cache.slots.length -> b'.cache.FlushedAt i)
    (fun _ _ => True)

section

omit [Field R]

theorem EndsFlushed.after {α β : Type} {f : α -> Call (CompressedStateBackend P) β}
    (h : forall a, EndsFlushed (f a)) (x : Call (CompressedStateBackend P) α) :
    EndsFlushed (x >>= f) := by
  intro b
  rw [Call.post_bind_iff]
  exact Call.post_of_forall (fun a b' => h a b') fun _ _ => trivial

theorem EndsFlushed.afterChecks {α β γ δ : Type}
    {f : α -> β -> γ -> Call (CompressedStateBackend P) δ}
    (h : forall a b c, EndsFlushed (f a b c)) (x : Call (CompressedStateBackend P) α)
    (y : α -> Call (CompressedStateBackend P) β)
    (z : α -> β -> Call (CompressedStateBackend P) γ) :
    EndsFlushed (x >>= fun a => y a >>= fun b => z a b >>= f a b) := by
  apply EndsFlushed.after
  intro a
  apply EndsFlushed.after
  intro b
  exact EndsFlushed.after (h a b) _

theorem endsFlushed_flushCacheIfNeeded :
    EndsFlushed (flushCacheIfNeeded : Call (CompressedStateBackend P) Unit) := by
  intro b
  rw [flushCacheIfNeeded, Call.post_bind_iff, Call.post_get]
  split
  · rw [flushCache, onCached, Call.post_focus_iff]
    exact (post_flushAll_flushed _ _).mono fun _ _ h _ => h
  · rename_i hopen
    exact fun hclosed => absurd hclosed hopen

theorem endsFlushed_mutate (operation : String) (mutateFn : Call (CompressedStateBackend P) Unit) :
    EndsFlushed (mutate operation mutateFn) := by
  apply EndsFlushed.after
  intro _
  apply EndsFlushed.after
  intro _
  exact endsFlushed_flushCacheIfNeeded

theorem EndsFlushed.command {x : Call (CompressedStateBackend P) Unit} (h : EndsFlushed x) :
    EndsFlushed (BackendOp.command (R := R) x) := by
  intro b
  rw [BackendOp.command, Call.post_bind_iff]
  exact h b

/-- In a coherent cache every slot carries a chunk, so a flush leaves none dirty. -/
theorem clean_of_flushed (hc : b.cache.Coherent none)
    (h : forall i, i < b.cache.slots.length -> b.cache.FlushedAt i) : b.NoneDirty := by
  intro k
  cases hslot : b.cache.slotOf k with
  | none => exact isDirty_of_none hslot
  | some i =>
      obtain ⟨hi, hindex, _⟩ := hc.carried hslot
      rw [isDirty_eq hslot]
      rcases h i hi with hnone | hclean
      · rw [hindex] at hnone
        cases hnone
      · exact hclean

end

/-!
## Calls with valid arguments
-/

section

omit [Field R]

theorem endsFlushed_endOperationBatch :
    EndsFlushed (endOperationBatch : Call (CompressedStateBackend P) Unit) := by
  apply EndsFlushed.after
  intro b
  have hclose : EndsFlushed (do
      modify fun b : CompressedStateBackend P => { b with batchDepth := b.batchDepth - 1 }
      flushCacheIfNeeded) :=
    EndsFlushed.after (fun _ => endsFlushed_flushCacheIfNeeded) _
  split
  · exact EndsFlushed.after (fun _ => hclose) _
  · exact hclose

theorem EndsFlushed.flushed {α : Type} {x : Call (CompressedStateBackend P) α}
    (h : EndsFlushed x) (hok : exists a, (x b).1 = .ok a) (hdepth : (x b).2.batchDepth = 0) :
    forall i, i < (x b).2.cache.slots.length -> (x b).2.cache.FlushedAt i := by
  have hpost := h b
  rcases hok with ⟨a, ha⟩
  unfold Call.Post at hpost
  rcases hrun : x b with ⟨r, b'⟩
  rw [hrun] at hpost ha hdepth
  cases r with
  | ok a' => exact hpost hdepth
  | error e => cases ha

theorem NoneDirty.fetched {hP : P.Lossless} {X S : Nat -> List R} {k : Nat} {victim : Option Nat}
    {b' : CompressedStateBackend P} (h : b.NoneDirty) (hf : Fetched hP X S k victim b b') :
    b'.NoneDirty := by
  rcases hf.acquired with ⟨handle, hacq⟩
  intro j
  by_cases hj : victim = some j
  · have hjk : j ≠ k := by
      rintro rfl
      have hslot := (hacq.evicts j hj).2.2
      rw [hf.uncached] at hslot
      cases hslot
    apply isDirty_of_none
    rw [hacq.slotOf j hjk, if_pos hj]
  · rw [hacq.isDirty hj]
    exact h j

end

section Calls

variable [LinearOrder R] [CMath R]

theorem endsFlushed_applyHadamard (qubit : Nat) :
    EndsFlushed (applyHadamard qubit : Call (CompressedStateBackend P) Unit) :=
  EndsFlushed.afterChecks (fun _ _ _ => endsFlushed_mutate _ _) _ _ _

omit [CMath R] in
theorem endsFlushed_applyPauliX (qubit : Nat) :
    EndsFlushed (applyPauliX qubit : Call (CompressedStateBackend P) Unit) :=
  EndsFlushed.afterChecks (fun _ _ _ => endsFlushed_mutate _ _) _ _ _

theorem endsFlushed_applyControlledPhaseShift (control target : Nat) (theta : R) :
    EndsFlushed (applyControlledPhaseShift control target theta :
      Call (CompressedStateBackend P) Unit) :=
  EndsFlushed.afterChecks (fun _ _ _ => endsFlushed_mutate _ _) _ _ _

omit [CMath R] in
theorem endsFlushed_applyControlledNot (control target : Nat) :
    EndsFlushed (applyControlledNot control target : Call (CompressedStateBackend P) Unit) :=
  EndsFlushed.afterChecks (fun _ _ _ => endsFlushed_mutate _ _) _ _ _

theorem endsFlushed_applyGate (gate : QuantumGate R) (qubits : List Nat) :
    EndsFlushed (applyGate gate qubits : Call (CompressedStateBackend P) Unit) := by
  apply EndsFlushed.after
  intro _
  split
  · exact endsFlushed_applyHadamard _
  · exact endsFlushed_applyPauliX _
  · exact endsFlushed_applyControlledNot _ _
  · exact endsFlushed_applyControlledPhaseShift _ _ _
  · exact endsFlushed_mutate _ _

end Calls

end CompressedStateBackend

end Tmfqs
