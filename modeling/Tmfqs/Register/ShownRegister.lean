import Tmfqs.Register.RejectedOperations
import Tmfqs.Storage.AnyBackend

/-!
# The vector a register shows

A register answers every query from the vector its backend shows with the overlay
applied.  The cached sum plays no part in a query.
-/

namespace Tmfqs

open Library

namespace QuantumRegister

variable {R : Type} [Field R] [LinearOrder R] [CMath R] {β : Type} [IStateBackend R β]
  {G : ChecksArguments (R := R) β}

/-- Queries of the checked register are answered from `v`. -/
structure Shown (V : ShowsVector G) (n : Nat) (v : List R) (r : QuantumRegister R β) : Prop where
  checked : Checked G n r
  stored : exists w, V.Shows n w r.backend ∧ v = mapAmplitudes r.applyAffineOverlay w

variable {V : ShowsVector G} {n : Nat} {v : List R} {r : QuantumRegister R β}

omit [CMath R] in
theorem Checked.exists_shown (V : ShowsVector G) (h : Checked G n r) : exists v, Shown V n v r := by
  rcases V.exists_shows h.ready with ⟨w, hw⟩
  exact ⟨_, h, w, hw, rfl⟩

namespace Shown

section

omit [CMath R]

theorem length (h : Shown V n v r) : v.length = 2 * 2 ^ n := by
  rcases h.stored with ⟨w, hw, hv⟩
  rw [hv, length_mapAmplitudes]
  exact V.length hw

theorem shows_inactive (h : Shown V n v r) (hinactive : r.affineOverlayActive = false) :
    V.Shows n v r.backend := by
  rcases h.stored with ⟨w, hw, hv⟩
  rw [applyAffineOverlay_inactive hinactive, mapAmplitudes_id] at hv
  exact hv ▸ hw

theorem of_inactive (h : Checked G n r) (hinactive : r.affineOverlayActive = false)
    (hshows : V.Shows n v r.backend) : Shown V n v r where
  checked := h
  stored := by
    refine ⟨v, hshows, ?_⟩
    rw [applyAffineOverlay_inactive hinactive, mapAmplitudes_id]

end

/-!
## Queries
-/

omit [Field R] [LinearOrder R] [CMath R] [IStateBackend R β] in
theorem answers_onBackend {α : Type} {x : Call β α} {answer : Except ExcKind α}
    (hx : Answers x r.backend answer (fun _ => True)) :
    Answers (onBackend x) r answer (fun _ => True) := by
  refine (post_onBackend hx).imp ?_ ?_
  · rintro a r' ⟨b, ⟨ha, _⟩, _⟩
    exact ⟨ha, trivial⟩
  · rintro e r' ⟨b, ⟨he, _⟩, _⟩
    exact ⟨he, trivial⟩

section

omit [CMath R]

theorem answers_amplitude (h : Shown V n v r) {s : Nat} (hs : s < 2 ^ n) :
    Answers (amplitude s) r (.ok (ampAt v s)) (fun _ => True) := by
  rcases h.stored with ⟨w, hw, hv⟩
  have hlen := V.length hw
  rw [Answers, amplitude, Call.post_bind_iff, Call.post_get, h.checked.numStates,
    validateStateIndex_ok _ h.checked.qubits hs, pure_bind, Call.post_bind_iff]
  refine (answers_onBackend (V.amplitude hw hs)).imp ?_ ?_
  · rintro a r' ⟨ha, _⟩
    cases ha
    rw [Call.post_pure, hv, ampAt_mapAmplitudes _ w s (by omega)]
    exact ⟨rfl, trivial⟩
  · rintro e r' ⟨he, _⟩
    cases he

theorem post_visitLogicalAmplitudeChunks (h : Shown V n v r) :
    Call.Post visitLogicalAmplitudeChunks r
      (fun visits r' => IsChunking 0 visits v ∧ Shown V n v r') (fun _ _ => False) := by
  rcases h.stored with ⟨w, hw, hv⟩
  rw [visitLogicalAmplitudeChunks, Call.post_bind_iff, Call.post_get, Call.post_bind_iff]
  refine (post_onBackend (V.forEachAmplitudeChunk hw)).imp ?_ ?_
  · rintro visits r' ⟨b, ⟨hvisits, hb⟩, hr'⟩
    subst hr'
    have hshown : Shown V n v { r with backend := b } :=
      { checked := h.checked.moved (V.ready hb)
        stored := ⟨w, hb, hv⟩ }
    by_cases hactive : r.affineOverlayActive = true
    · rw [if_pos hactive, Call.post_pure, hv]
      exact ⟨hvisits.map_mapAmplitudes r.applyAffineOverlay, hv ▸ hshown⟩
    · rw [if_neg hactive, Call.post_pure]
      refine ⟨?_, hshown⟩
      rw [hv, applyAffineOverlay_inactive (by simpa using hactive), mapAmplitudes_id]
      exact hvisits
  · rintro e r' ⟨b, hfalse, _⟩
    exact hfalse

theorem answers_amplitudes (h : Shown V n v r) :
    Answers amplitudes r (.ok v) (Shown V n v) := by
  have hlt := two_pow_lt_u32 h.checked.qubits
  have hlen := h.length
  rw [Answers, amplitudes, snapshotLogicalAmplitudes, Call.post_bind_iff, Call.post_get,
    Call.post_bind_iff]
  refine (h.post_visitLogicalAmplitudeChunks).imp ?_ (fun _ _ he => he.elim)
  rintro visits r' ⟨hvisits, hr'⟩
  have hsnapshot := foldl_snapshot hvisits (List.replicate r.amplitudeElementCount 0)
    (by rw [List.length_replicate, h.checked.amplitudeElementCount_eq]; omega) (by omega)
  rw [Call.post_pure, hsnapshot]
  exact ⟨rfl, hr'⟩

theorem answers_totalProbability (h : Shown V n v r) :
    Answers totalProbability r (.ok (StateVector.totalProbability v)) (fun _ => True) := by
  rw [Answers, totalProbability, Call.post_bind_iff, Call.post_get]
  cases hactive : r.affineOverlayActive with
  | true =>
      simp only [if_true]
      rw [Call.post_bind_iff]
      refine (h.post_visitLogicalAmplitudeChunks).imp ?_ (fun _ _ he => he.elim)
      rintro visits r' ⟨hvisits, _⟩
      rw [Call.post_pure,
        hvisits.foldl_amplitudesOf (fun total amp => total + amp.probability) 0]
      exact ⟨rfl, trivial⟩
  | false =>
      simp only [Bool.false_eq_true, if_false]
      exact answers_onBackend (V.totalProbability (h.shows_inactive hactive))

theorem answers_measure (h : Shown V n v r) {rnd : R} (hrnd : 0 ≤ rnd) (hrnd' : rnd < 1) :
    Answers (measure rnd) r (StateVector.sample rnd v) (fun _ => True) := by
  rw [Answers, measure, Call.post_bind_iff, Call.post_get]
  by_cases hactive : r.affineOverlayActive = true
  · rw [if_pos hactive, Call.post_bind_iff]
    refine (h.post_visitLogicalAmplitudeChunks).imp ?_ (fun _ _ he => he.elim)
    rintro visits r' ⟨hvisits, _⟩
    rw [foldl_measureChunk rnd hvisits 0, StateVector.sample,
      if_neg (StateVector.drawn_in_range hrnd hrnd')]
    cases (searchCumulative rnd 0 ((amplitudesOf v).map Amplitude.probability)).1 with
    | none => exact Call.post_of_error rfl ⟨rfl, trivial⟩
    | some i =>
        simp only [Option.map_some, Nat.zero_add]
        exact Call.post_of_ok rfl ⟨rfl, trivial⟩
  · rw [if_neg hactive]
    have hinactive : r.affineOverlayActive = false := by simpa using hactive
    exact answers_onBackend (V.sampleMeasurement (h.shows_inactive hinactive))

end

end Shown

end QuantumRegister

end Tmfqs
