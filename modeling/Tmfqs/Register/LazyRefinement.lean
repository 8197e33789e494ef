import Mathlib.Algebra.Order.Field.Basic
import Tmfqs.Model.VectorSums
import Tmfqs.Register.RegisterRuns
import Tmfqs.Storage.Visits

/-!
# The lazy register refines the eager one

A register represents the vector of its backend under the affine overlay.  The scale
of an active overlay is `1` or `-1`, and a cached sum is the sum of the represented
vector; every operation keeps both.
-/

namespace Tmfqs

open Library

/-!
## The loops over logical chunks
-/

namespace QuantumRegister

section Loops

variable {R : Type} [Field R] [LinearOrder R]

omit [Field R] [LinearOrder R] in
/-- Copying the chunks one after the other fills in the vector from `base` on. -/
theorem foldl_snapshot : forall {visits : List (Nat × List R)} {v : List R} {base : Nat},
    IsChunking base visits v -> forall snapshot : List R,
      snapshot.length = 2 * base + v.length -> 2 * base + v.length < 2 ^ 64 ->
      visits.foldl
        (fun snapshot visit =>
          let beginElem := u64 (visit.1 * 2)
          snapshot.take beginElem ++ visit.2 ++ snapshot.drop (beginElem + visit.2.length))
        snapshot = snapshot.take (2 * base) ++ v
  | [], _, base, h => by
      intro snapshot hlen _
      rw [show _ = [] from h] at hlen ⊢
      rw [List.foldl_nil, List.append_nil, List.take_of_length_le]
      simp only [List.length_nil] at hlen
      omega
  | (begin_, data) :: rest, _, base, ⟨hbase, heven, tail, hv, htail⟩ => by
      intro snapshot hlen hlt
      subst hbase
      subst hv
      rw [List.length_append] at hlen hlt
      have hbegin : u64 (begin_ * 2) = 2 * begin_ := by
        rw [u64_of_lt (by omega)]
        omega
      have hhalf : 2 * (begin_ + data.length / 2) = 2 * begin_ + data.length := by omega
      have htake : (snapshot.take (2 * begin_)).length = 2 * begin_ := by
        rw [List.length_take]
        omega
      rw [List.foldl_cons]
      simp only [hbegin]
      rw [foldl_snapshot htail, hhalf]
      · rw [← List.append_assoc]
        congr 1
        rw [List.take_append_of_le_length (by rw [List.length_append, htake]),
          List.take_of_length_le (by rw [List.length_append, htake])]
      · rw [hhalf]
        simp only [List.length_append, htake, List.length_drop]
        omega
      · rw [hhalf]
        omega

theorem foldl_measureChunk_of_some (rnd : R) (visits : List (Nat × List R)) (s : Nat) (c : R) :
    visits.foldl (measureChunk rnd) (some s, c) = (some s, c) := by
  induction visits with
  | nil => rfl
  | cons visit rest ih =>
      rw [List.foldl_cons, measureChunk]
      exact ih

theorem foldl_measureChunk (rnd : R) : forall {visits : List (Nat × List R)} {v : List R}
    {base : Nat}, IsChunking base visits v -> forall c : R,
      visits.foldl (measureChunk rnd) (none, c) =
        ((searchCumulative rnd c ((amplitudesOf v).map Amplitude.probability)).1.map (base + ·),
          (searchCumulative rnd c ((amplitudesOf v).map Amplitude.probability)).2)
  | [], _, base, h => by
      intro c
      rw [show _ = [] from h]
      rfl
  | (begin_, data) :: rest, _, base, ⟨hbase, heven, tail, hv, htail⟩ => by
      intro c
      subst hbase
      subst hv
      rw [List.foldl_cons, amplitudesOf_append data tail heven, List.map_append,
        searchCumulative_append]
      simp only [measureChunk, Option.isSome_none, Bool.false_eq_true, if_false]
      rcases hsearch : searchCumulative rnd c ((amplitudesOf data).map Amplitude.probability)
        with ⟨found, total⟩
      cases found with
      | some i =>
          simp only [Option.map_some]
          exact foldl_measureChunk_of_some rnd rest _ total
      | none =>
          simp only [Option.map_none]
          rw [foldl_measureChunk rnd htail, List.length_map, length_amplitudesOf]
          cases (searchCumulative rnd total ((amplitudesOf tail).map Amplitude.probability)).1 with
          | none => rfl
          | some i =>
              simp only [Option.map_some, Prod.mk.injEq, Option.some.injEq, and_true]
              omega

theorem printedChunk_eq (epsilon : R) (visit : Nat × List R) :
    printedChunk epsilon visit =
      StateVector.printed epsilon visit.1 (amplitudesOf visit.2) := by
  rw [StateVector.printed_eq_filter, printedChunk, length_amplitudesOf]
  congr 1
  apply List.map_congr_left
  intro i hi
  have hlt : i < visit.2.length / 2 := List.mem_range.mp hi
  have hget : (amplitudesOf visit.2).getD i Amplitude.zero = ampAt visit.2 i := by
    rw [amplitudesOf_eq_map, List.getD_eq_getElem?_getD]
    simp [hlt]
  rw [hget, ampAt, Nat.mul_comm]

theorem flatMap_printedChunk (epsilon : R) : forall {visits : List (Nat × List R)} {v : List R}
    {base : Nat}, IsChunking base visits v ->
      visits.flatMap (printedChunk epsilon) = StateVector.printed epsilon base (amplitudesOf v)
  | [], _, base, h => by
      rw [show _ = [] from h]
      rfl
  | (begin_, data) :: rest, _, base, ⟨hbase, heven, tail, hv, htail⟩ => by
      rw [List.flatMap_cons, flatMap_printedChunk epsilon htail, printedChunk_eq, hv,
        amplitudesOf_append data tail heven, StateVector.printed_append, length_amplitudesOf, hbase]

end Loops

/-!
## The represented vector
-/

variable {R : Type} [Field R] [LinearOrder R] [CMath R] {β : Type} [IStateBackend R β]

/-- The backend stores a vector that the overlay takes to `v`. -/
structure Overlaid (sv : StoresVector (R := R) β) (n : Nat) (v : List R) (depth : Nat)
    (r : QuantumRegister R β) : Prop where
  numQubits : r.numQubits = n
  numStates : r.numStates = 2 ^ n
  stored : exists w, sv.Rep n w depth r.backend ∧ v = mapAmplitudes r.applyAffineOverlay w
  unitScale : r.affineOverlayActive = true ->
    r.affineScale = { real := 1, imag := 0 } ∨ r.affineScale = { real := -1, imag := 0 }

/-- The register represents `v`: a cached sum is the sum of `v` as well. -/
structure Lazy (sv : StoresVector (R := R) β) (n : Nat) (v : List R) (depth : Nat)
    (r : QuantumRegister R β) : Prop extends Overlaid sv n v depth r where
  sum : forall sum, r.cachedLogicalAmplitudeSum = some sum -> sum = StateVector.amplitudeSum v

variable {sv : StoresVector (R := R) β} {n depth : Nat} {v w : List R}
  {r : QuantumRegister R β}

omit [LinearOrder R] [CMath R] [IStateBackend R β] in
theorem applyAffineOverlay_inactive (h : r.affineOverlayActive = false) :
    r.applyAffineOverlay = fun a => a := by
  funext a
  rw [applyAffineOverlay, h]
  rfl

omit [LinearOrder R] [CMath R] [IStateBackend R β] in
theorem applyAffineOverlay_active (h : r.affineOverlayActive = true) :
    r.applyAffineOverlay = StateVector.affineAmp r.affineScale r.affineBias := by
  funext a
  rw [applyAffineOverlay, h]
  rfl

namespace Overlaid

theorem qubits (h : Overlaid sv n v depth r) : n ≤ 31 := by
  obtain ⟨w, hw, _⟩ := h.stored
  exact (sv.bound hw).1

theorem length (h : Overlaid sv n v depth r) : v.length = 2 * 2 ^ n := by
  obtain ⟨w, hw, hv⟩ := h.stored
  rw [hv, length_mapAmplitudes]
  exact (sv.bound hw).2.2

theorem rep (h : Overlaid sv n v depth r) (hinactive : r.affineOverlayActive = false) :
    sv.Rep n v depth r.backend := by
  obtain ⟨w, hw, hv⟩ := h.stored
  rw [applyAffineOverlay_inactive hinactive, mapAmplitudes_id] at hv
  exact hv ▸ hw

theorem of_rep (hqubits : r.numQubits = n) (hstates : r.numStates = 2 ^ n)
    (hrep : sv.Rep n v depth r.backend) (hinactive : r.affineOverlayActive = false) :
    Overlaid sv n v depth r where
  numQubits := hqubits
  numStates := hstates
  stored := by
    refine ⟨v, hrep, ?_⟩
    rw [applyAffineOverlay_inactive hinactive, mapAmplitudes_id]
  unitScale hactive := by
    rw [hinactive] at hactive
    cases hactive

end Overlaid

namespace Lazy

theorem of_rep (hqubits : r.numQubits = n) (hstates : r.numStates = 2 ^ n)
    (hrep : sv.Rep n v depth r.backend) (hinactive : r.affineOverlayActive = false)
    (hsum : forall sum, r.cachedLogicalAmplitudeSum = some sum ->
      sum = StateVector.amplitudeSum v) : Lazy sv n v depth r where
  toOverlaid := Overlaid.of_rep hqubits hstates hrep hinactive
  sum := hsum

theorem moved {b : β} (h : Lazy sv n v depth r) (hb : sv.Rep n w depth b)
    (hv : v = mapAmplitudes r.applyAffineOverlay w) :
    Lazy sv n v depth { r with backend := b } where
  numQubits := h.numQubits
  numStates := h.numStates
  stored := ⟨w, hb, hv⟩
  unitScale := h.unitScale
  sum := h.sum

end Lazy

/-!
## Queries
-/

omit [Field R] [LinearOrder R] [CMath R] [IStateBackend R β] in
theorem post_onBackend {α : Type} {x : Call β α} {Q : α -> β -> Prop} {E : Exc -> β -> Prop}
    (h : Call.Post x r.backend Q E) :
    Call.Post (onBackend x) r
      (fun a r' => exists b, Q a b ∧ r' = { r with backend := b })
      (fun e r' => exists b, E e b ∧ r' = { r with backend := b }) := by
  rw [onBackend, Call.post_focus_iff]
  exact h.imp (fun a b hb => ⟨b, hb, rfl⟩) (fun e b hb => ⟨b, hb, rfl⟩)

theorem answers_onBackend {α : Type} {x : Call β α} {answer : Except ExcKind α}
    (h : Lazy sv n v depth r) (hw : v = mapAmplitudes r.applyAffineOverlay w)
    (hx : Answers x r.backend answer (sv.Rep n w depth)) :
    Answers (onBackend x) r answer (Lazy sv n v depth) := by
  refine (post_onBackend hx).imp ?_ ?_
  · rintro a _ ⟨b, ⟨ha, hb⟩, rfl⟩
    exact ⟨ha, h.moved hb hw⟩
  · rintro e _ ⟨b, ⟨he, hb⟩, rfl⟩
    exact ⟨he, h.moved hb hw⟩

theorem post_amplitude (h : Lazy sv n v depth r) {s : Nat} (hs : s < 2 ^ n) :
    Call.Post (amplitude s) r
      (fun a r' => a = ampAt v s ∧ exists b, r' = { r with backend := b } ∧ Lazy sv n v depth r')
      (fun _ _ => False) := by
  obtain ⟨w, hw, hv⟩ := h.stored
  have hlen := (sv.bound hw).2.2
  have hstate : (validateStateIndex "QuantumRegister::amplitude" s r.numStates :
      Call (QuantumRegister R β) Unit) = pure () := by
    rw [h.numStates]
    exact validateStateIndex_ok _ h.qubits hs
  rw [amplitude, Call.post_bind_iff, Call.post_get, hstate, pure_bind, Call.post_bind_iff]
  refine (post_onBackend (sv.amplitude hw hs)).imp ?_ ?_
  · rintro a _ ⟨b, ⟨ha, hb⟩, rfl⟩
    cases ha
    refine ⟨?_, b, rfl, h.moved hb hv⟩
    rw [hv, ampAt_mapAmplitudes _ w s (by omega)]
  · rintro e _ ⟨b, ⟨he, _⟩, _⟩
    cases he

theorem answers_amplitude (h : Lazy sv n v depth r) {s : Nat} (hs : s < 2 ^ n) :
    Answers (amplitude s) r (.ok (ampAt v s)) (Lazy sv n v depth) := by
  refine (post_amplitude h hs).imp ?_ (fun _ _ he => he.elim)
  rintro _ r' ⟨rfl, _, _, hr'⟩
  exact ⟨rfl, hr'⟩

theorem answers_probability (h : Lazy sv n v depth r) {s : Nat} (hs : s < 2 ^ n) :
    Answers (probability s) r (.ok (ampAt v s).probability) (Lazy sv n v depth) := by
  rw [Answers, probability, Call.post_bind_iff, Call.post_get, h.numStates,
    validateStateIndex_ok _ h.qubits hs, pure_bind, Call.post_bind_iff]
  refine (answers_amplitude h hs).imp ?_ ?_
  · rintro a r' ⟨ha, hr'⟩
    cases ha
    exact ⟨rfl, hr'⟩
  · rintro e r' ⟨he, _⟩
    cases he

theorem post_visitLogicalAmplitudeChunks (h : Lazy sv n v depth r) :
    Call.Post visitLogicalAmplitudeChunks r
      (fun visits r' => IsChunking 0 visits v ∧ Lazy sv n v depth r') (fun _ _ => False) := by
  obtain ⟨w, hw, hv⟩ := h.stored
  rw [visitLogicalAmplitudeChunks, Call.post_bind_iff, Call.post_get, Call.post_bind_iff]
  refine (post_onBackend (sv.forEachAmplitudeChunk hw)).imp ?_ ?_
  · rintro visits _ ⟨b, ⟨hvisits, hb⟩, rfl⟩
    have hlazy := h.moved hb hv
    by_cases hactive : r.affineOverlayActive = true
    · rw [if_pos hactive, Call.post_pure]
      refine ⟨?_, hlazy⟩
      rw [hv]
      exact hvisits.map_mapAmplitudes r.applyAffineOverlay
    · rw [if_neg hactive, Call.post_pure]
      refine ⟨?_, hlazy⟩
      rw [hv, applyAffineOverlay_inactive (by simpa using hactive), mapAmplitudes_id]
      exact hvisits
  · rintro e _ ⟨b, he, _⟩
    exact he

theorem post_logicalAmplitudeSum (h : Lazy sv n v depth r) :
    Call.Post logicalAmplitudeSum r
      (fun sum r' => sum = StateVector.amplitudeSum v ∧ Lazy sv n v depth r')
      (fun _ _ => False) := by
  rw [logicalAmplitudeSum, Call.post_bind_iff, Call.post_get]
  cases hcached : r.cachedLogicalAmplitudeSum with
  | some sum =>
      simp only
      rw [Call.post_pure]
      exact ⟨h.sum sum hcached, h⟩
  | none =>
      simp only
      rw [Call.post_bind_iff]
      refine (post_visitLogicalAmplitudeChunks h).imp ?_ (fun _ _ he => he)
      rintro visits r' ⟨hvisits, hr'⟩
      have hsum := hvisits.foldl_amplitudesOf Amplitude.add Amplitude.zero
      rw [Call.post_bind_iff, Call.post_modify, Call.post_pure, hsum]
      refine ⟨rfl, ?_⟩
      exact
        { numQubits := hr'.numQubits
          numStates := hr'.numStates
          stored := hr'.stored
          unitScale := hr'.unitScale
          sum := by
            intro sum heq
            exact (Option.some.inj heq).symm }

theorem answers_amplitudes (h : Lazy sv n v depth r) :
    Answers amplitudes r (.ok v) (Lazy sv n v depth) := by
  have hlt := two_pow_lt_u32 h.qubits
  have hcount : r.amplitudeElementCount = 2 * 2 ^ n := by
    rw [amplitudeElementCount, h.numStates, u64_of_lt (by omega)]
    omega
  rw [Answers, amplitudes, snapshotLogicalAmplitudes, Call.post_bind_iff, Call.post_get,
    Call.post_bind_iff]
  refine (post_visitLogicalAmplitudeChunks h).imp ?_ (fun _ _ he => he.elim)
  rintro visits r' ⟨hvisits, hr'⟩
  have hsnapshot := foldl_snapshot hvisits (List.replicate r.amplitudeElementCount 0)
    (by rw [List.length_replicate, hcount, h.length]; omega) (by rw [h.length]; omega)
  rw [Call.post_pure, hsnapshot]
  exact ⟨rfl, hr'⟩

/-- The rest of a query that reads the chunks of a register with an active overlay. -/
theorem answers_overlaid {α : Type} {f : List (Nat × List R) -> α} {x : Call β α} {a : α}
    (h : Lazy sv n v depth r)
    (hf : forall visits, IsChunking 0 visits v -> f visits = a)
    (hx : sv.Rep n v depth r.backend -> Answers x r.backend (.ok a) (sv.Rep n v depth)) :
    Answers
      (if r.affineOverlayActive then do
        let visits <- visitLogicalAmplitudeChunks
        pure (f visits)
      else
        onBackend x) r (.ok a) (Lazy sv n v depth) := by
  cases hactive : r.affineOverlayActive with
  | true =>
      simp only [if_true]
      rw [Answers, Call.post_bind_iff]
      refine (post_visitLogicalAmplitudeChunks h).imp ?_ (fun _ _ he => he.elim)
      rintro visits r' ⟨hvisits, hr'⟩
      rw [Call.post_pure, hf visits hvisits]
      exact ⟨rfl, hr'⟩
  | false =>
      simp only [Bool.false_eq_true, if_false]
      have hv : v = mapAmplitudes r.applyAffineOverlay v := by
        rw [applyAffineOverlay_inactive hactive, mapAmplitudes_id]
      exact answers_onBackend h hv (hx (h.rep hactive))

theorem answers_totalProbability (h : Lazy sv n v depth r) :
    Answers totalProbability r (.ok (StateVector.totalProbability v)) (Lazy sv n v depth) := by
  rw [Answers, totalProbability, Call.post_bind_iff, Call.post_get]
  exact answers_overlaid h
    (fun visits hvisits =>
      hvisits.foldl_amplitudesOf (fun total amp => total + amp.probability) 0)
    sv.totalProbability

theorem answers_printStatesVector (h : Lazy sv n v depth r) (epsilon : R) :
    Answers (printStatesVector epsilon) r (StateVector.print epsilon v) (Lazy sv n v depth) := by
  rw [StateVector.print]
  by_cases heps : epsilon < 0
  · rw [if_pos heps, Answers, printStatesVector, if_pos heps]
    exact Call.post_of_error rfl ⟨rfl, h⟩
  · rw [if_neg heps, Answers, printStatesVector, if_neg heps]
    rw [Call.post_bind_iff, Call.post_get]
    exact answers_overlaid h (fun visits hvisits => flatMap_printedChunk epsilon hvisits)
      (fun hrep => by
        have hprint : Answers (IStateBackend.printNonZeroStates epsilon) r.backend
            (StateVector.print epsilon v) (sv.Rep n v depth) :=
          sv.printNonZeroStates hrep
        rw [StateVector.print, if_neg heps] at hprint
        exact hprint)

theorem answers_measure (h : Lazy sv n v depth r) {rnd : R} (hrnd : 0 ≤ rnd) (hrnd' : rnd < 1) :
    Answers (measure rnd) r (StateVector.sample rnd v) (Lazy sv n v depth) := by
  rw [Answers, measure, Call.post_bind_iff, Call.post_get]
  by_cases hactive : r.affineOverlayActive = true
  · rw [if_pos hactive, Call.post_bind_iff]
    refine (post_visitLogicalAmplitudeChunks h).imp ?_ (fun _ _ he => he.elim)
    rintro visits r' ⟨hvisits, hr'⟩
    rw [foldl_measureChunk rnd hvisits 0, StateVector.sample,
      if_neg (StateVector.drawn_in_range hrnd hrnd')]
    cases (searchCumulative rnd 0 ((amplitudesOf v).map Amplitude.probability)).1 with
    | none => exact Call.post_of_error rfl ⟨rfl, hr'⟩
    | some i =>
        simp only [Option.map_some, Nat.zero_add]
        exact Call.post_of_ok rfl ⟨rfl, hr'⟩
  · have hinactive : r.affineOverlayActive = false := by simpa using hactive
    rw [if_neg hactive]
    have hv : v = mapAmplitudes r.applyAffineOverlay v := by
      rw [applyAffineOverlay_inactive hinactive, mapAmplitudes_id]
    exact answers_onBackend h hv (sv.sampleMeasurement (h.rep hinactive))

theorem answers_stream [IsStrictOrderedRing R] (h : Lazy sv n v depth r) :
    Answers stream r (StateVector.print kDefaultPrintEpsilon v) (Lazy sv n v depth) := by
  have heps : ¬ (kDefaultPrintEpsilon : R) < 0 := by
    rw [not_lt, kDefaultPrintEpsilon]
    positivity
  rw [StateVector.print, if_neg heps, Answers, stream, Call.post_bind_iff, Call.post_get]
  exact answers_overlaid h (fun visits hvisits => flatMap_printedChunk kDefaultPrintEpsilon hvisits)
    (fun hrep => by
      have hprint : Answers (IStateBackend.printNonZeroStates kDefaultPrintEpsilon) r.backend
          (StateVector.print kDefaultPrintEpsilon v) (sv.Rep n v depth) :=
        sv.printNonZeroStates hrep
      rw [StateVector.print, if_neg heps] at hprint
      exact hprint)

/-!
## The overlay under mutations
-/

theorem removeAffineOverlay_eq (h : Overlaid sv n v depth r) (a : Amplitude R) :
    exists q, removeAffineOverlay a r = (.ok q, r) ∧ r.applyAffineOverlay q = a := by
  by_cases hactive : r.affineOverlayActive = true
  · have hrun : removeAffineOverlay a r = divideAmplitude (a.sub r.affineBias) r.affineScale r := by
      rw [removeAffineOverlay, Call.bind_apply, Call.get_apply]
      simp only [hactive, if_true]
    rw [hrun, applyAffineOverlay_active hactive]
    rcases h.unitScale hactive with hscale | hscale
    · rw [hscale, divideAmplitude]
      simp only [mul_zero, add_zero, mul_one, sub_zero, one_ne_zero, if_false, div_one]
      refine ⟨_, rfl, ?_⟩
      apply Amplitude.eq_of_parts
      · simp [StateVector.affineAmp, Amplitude.sub]
      · simp [StateVector.affineAmp, Amplitude.sub]
    · rw [hscale, divideAmplitude]
      simp only [mul_zero, add_zero, mul_neg, mul_one, neg_neg, sub_zero, one_ne_zero, if_false,
        div_one]
      refine ⟨_, rfl, ?_⟩
      apply Amplitude.eq_of_parts
      · simp [StateVector.affineAmp, Amplitude.sub]
      · simp [StateVector.affineAmp, Amplitude.sub]
  · have hinactive : r.affineOverlayActive = false := by simpa using hactive
    refine ⟨a, ?_, ?_⟩
    · rw [removeAffineOverlay, Call.bind_apply, Call.get_apply]
      simp only [hinactive, Bool.false_eq_true, if_false]
      rfl
    · rw [applyAffineOverlay_inactive hinactive]

theorem does_writeLogical (h : Overlaid sv n v depth r) {s : Nat} (hs : s < 2 ^ n) {a q : Amplitude R}
    (hq : r.applyAffineOverlay q = a) :
    Call.Post (onBackend (IStateBackend.setAmplitude s q)) r
      (fun _ r' => exists b, r' = { r with backend := b } ∧
        exists w, sv.Rep n w depth b ∧ setAmp v s a = mapAmplitudes r.applyAffineOverlay w)
      (fun _ _ => False) := by
  obtain ⟨w, hw, hv⟩ := h.stored
  have hset : Does (IStateBackend.setAmplitude s q) r.backend
      (sv.Rep n (setAmp w s q) depth) := sv.setAmplitude hw hs
  refine (post_onBackend hset).imp ?_ ?_
  · rintro _ _ ⟨b, hb, rfl⟩
    refine ⟨b, rfl, setAmp w s q, hb, ?_⟩
    rw [mapAmplitudes_setAmp _ q (sv.bound hw).2.2 hs, hq, ← hv]
  · rintro _ _ ⟨b, he, _⟩
    exact he

theorem does_setAmplitude (h : Lazy sv n v depth r) {s : Nat} (hs : s < 2 ^ n) (a : Amplitude R) :
    Does (setAmplitude s a) r (Lazy sv n (setAmp v s a) depth) := by
  obtain ⟨q, hremove, hq⟩ := removeAffineOverlay_eq h.toOverlaid a
  rw [Does, setAmplitude, Call.post_bind_iff, Call.post_get, h.numStates,
    validateStateIndex_ok _ h.qubits hs, pure_bind, Call.post_bind_iff]
  refine Call.post_of_ok hremove ?_
  rw [Call.post_bind_iff]
  refine (does_writeLogical h.toOverlaid hs hq).imp ?_ (fun _ _ he => he)
  rintro _ _ ⟨b, rfl, hstored⟩
  rw [invalidateSum, Call.post_modify]
  exact
    { numQubits := h.numQubits
      numStates := h.numStates
      stored := hstored
      unitScale := h.unitScale
      sum := by
        intro sum heq
        cases heq }

/-- Materializing the overlay keeps the represented vector and whatever sum is cached. -/
theorem does_flushAffineOverlay (h : Overlaid sv n v depth r) :
    Does flushAffineOverlay r
      (fun r' => Overlaid sv n v depth r' ∧ r'.affineOverlayActive = false ∧
        r'.cachedLogicalAmplitudeSum = r.cachedLogicalAmplitudeSum) := by
  rw [Does, flushAffineOverlay, Call.post_bind_iff, Call.post_get]
  by_cases hactive : r.affineOverlayActive = true
  · obtain ⟨w, hw, hv⟩ := h.stored
    rw [applyAffineOverlay_active hactive] at hv
    have hflush : Does (IStateBackend.applyAffineTransform r.affineScale r.affineBias) r.backend
        (sv.Rep n (StateVector.affine r.affineScale r.affineBias w) depth) :=
      sv.applyAffineTransform hw
    rw [if_pos hactive, Call.post_bind_iff]
    refine (post_onBackend hflush).imp ?_ ?_
    · rintro _ _ ⟨b, hb, rfl⟩
      rw [Call.post_bind_iff, resetAffineOverlay, Call.post_modify, Call.post_modify]
      exact ⟨Overlaid.of_rep h.numQubits h.numStates (hv ▸ hb) rfl, rfl, rfl⟩
    · rintro _ _ ⟨b, he, _⟩
      exact he
  · rw [if_neg hactive, Call.post_pure]
    exact ⟨h, by simpa using hactive, rfl⟩

theorem does_applyFlushed (h : Lazy sv n v depth r) {gate : Call β Unit} {v' : List R}
    (hgate : forall b, sv.Rep n v depth b -> Does gate b (sv.Rep n v' depth)) :
    Does (applyFlushed gate) r (Lazy sv n v' depth) := by
  rw [Does, applyFlushed, Call.post_bind_iff]
  refine (does_flushAffineOverlay h.toOverlaid).imp ?_ (fun _ _ he => he)
  rintro _ r1 ⟨h1, hinactive, _⟩
  rw [Call.post_bind_iff]
  refine (post_onBackend (hgate r1.backend (h1.rep hinactive))).imp ?_ ?_
  · rintro _ _ ⟨b, hb, rfl⟩
    rw [invalidateSum, Call.post_modify]
    refine Lazy.of_rep h1.numQubits h1.numStates hb hinactive ?_
    intro sum heq
    cases heq
  · rintro _ _ ⟨b, he, _⟩
    exact he

theorem does_applyGate (h : Lazy sv n v depth r) {gate : QuantumGate R} {qubits : List Nat}
    (hvalid : ValidTargets qubits n gate.dimension) :
    Does (applyGate gate qubits) r (Lazy sv n (sv.gate gate qubits n v) depth) := by
  rw [Does, applyGate, Call.post_bind_iff, Call.post_get, h.numQubits,
    validateGateTargets_ok _ (by have := h.qubits; omega) hvalid, pure_bind]
  exact does_applyFlushed h fun b hb => sv.applyGate hb hvalid

theorem does_applyHadamard (h : Lazy sv n v depth r) {q : Nat} (hq : q < n) :
    Does (applyHadamard q) r (Lazy sv n (StateVector.hadamard n q v) depth) := by
  rw [Does, applyHadamard, Call.post_bind_iff, Call.post_get, h.numQubits,
    validateQubitIndex_ok _ hq, pure_bind]
  exact does_applyFlushed h fun b hb => sv.applyHadamard hb hq

theorem does_applyPauliX (h : Lazy sv n v depth r) {q : Nat} (hq : q < n) :
    Does (applyPauliX q) r (Lazy sv n (StateVector.pauliX n q v) depth) := by
  rw [Does, applyPauliX, Call.post_bind_iff, Call.post_get, h.numQubits,
    validateQubitIndex_ok _ hq, pure_bind]
  exact does_applyFlushed h fun b hb => sv.applyPauliX hb hq

theorem validateTwoQubits_eq (h : Lazy sv n v depth r) (scopeName : String) {a b : Nat}
    (ha : a < n) (hb : b < n) (hne : a ≠ b) :
    (validateTwoQubits scopeName a b : Call (QuantumRegister R β) Unit) r = (.ok (), r) := by
  rw [validateTwoQubits, Call.bind_apply, Call.get_apply]
  simp only [h.numQubits, validateQubitIndex_ok _ ha, validateQubitIndex_ok _ hb,
    validateDistinctQubits_ok _ hne, pure_bind]
  rfl

theorem does_applyControlledPhaseShift (h : Lazy sv n v depth r) {c q : Nat} (hc : c < n)
    (hq : q < n) (hne : c ≠ q) (theta : R) :
    Does (applyControlledPhaseShift c q theta) r
      (Lazy sv n (StateVector.controlledPhaseShift n c q theta v) depth) := by
  rw [Does, applyControlledPhaseShift, Call.post_bind_iff]
  refine Call.post_of_ok (validateTwoQubits_eq h _ hc hq hne) ?_
  exact does_applyFlushed h fun b hb => sv.applyControlledPhaseShift hb hc hq hne

theorem does_applyControlledNot (h : Lazy sv n v depth r) {c q : Nat} (hc : c < n)
    (hq : q < n) (hne : c ≠ q) :
    Does (applyControlledNot c q) r (Lazy sv n (StateVector.controlledNot n c q v) depth) := by
  rw [Does, applyControlledNot, Call.post_bind_iff]
  refine Call.post_of_ok (validateTwoQubits_eq h _ hc hq hne) ?_
  exact does_applyFlushed h fun b hb => sv.applyControlledNot hb hc hq hne

theorem does_applySwap (h : Lazy sv n v depth r) {a b : Nat} (ha : a < n) (hb : b < n)
    (hne : a ≠ b) :
    Does (applySwap a b) r (Lazy sv n (StateVector.swap n a b v) depth) := by
  rw [Does, applySwap, Call.post_bind_iff]
  refine Call.post_of_ok (validateTwoQubits_eq h _ ha hb hne) ?_
  rw [Call.post_bind_iff]
  refine (does_applyControlledNot h ha hb hne).imp ?_ (fun _ _ he => he)
  rintro _ r1 h1
  rw [Call.post_bind_iff]
  refine (does_applyControlledNot h1 hb ha (Ne.symm hne)).imp ?_ (fun _ _ he => he)
  rintro _ r2 h2
  exact does_applyControlledNot h2 ha hb hne

/-!
## Inversion about the mean
-/

theorem sum_of_reflectSum (h : Lazy sv n v depth r) (mean : Amplitude R) {sum : Amplitude R}
    (hsum : (r.cachedLogicalAmplitudeSum.map fun sum =>
      ({ real := 2 * mean.real * (r.numStates : R) - sum.real
         imag := 2 * mean.imag * (r.numStates : R) - sum.imag } : Amplitude R)) = some sum) :
    sum = StateVector.amplitudeSum (StateVector.reflect mean v) := by
  rw [StateVector.amplitudeSum_reflect h.length]
  obtain ⟨old, hold, rfl⟩ := Option.map_eq_some_iff.mp hsum
  rw [h.sum old hold, h.numStates]

theorem does_applyInversionAboutMeanWith (h : Lazy sv n v depth r) (mean : Amplitude R) :
    Does (applyInversionAboutMeanWith mean) r
      (Lazy sv n (StateVector.reflect mean v) depth) := by
  obtain ⟨w, hw, hv⟩ := h.stored
  rw [Does, applyInversionAboutMeanWith, Call.post_bind_iff, reflectSum, Call.post_modify,
    Call.post_modify]
  refine
    { numQubits := h.numQubits
      numStates := h.numStates
      stored := ⟨w, hw, ?_⟩
      unitScale := ?_
      sum := fun sum hsum => sum_of_reflectSum h mean hsum }
  · rw [hv, StateVector.reflect, mapAmplitudes_mapAmplitudes]
    congr 1
    funext a
    by_cases hactive : r.affineOverlayActive = true
    · rw [applyAffineOverlay_active hactive, applyAffineOverlay_active rfl]
      simp only [hactive, if_true]
      apply Amplitude.eq_of_parts
      · simp only [StateVector.reflectAmp, StateVector.affineAmp, Amplitude.negate,
          Amplitude.sub, Amplitude.scale]
        ring
      · simp only [StateVector.reflectAmp, StateVector.affineAmp, Amplitude.negate,
          Amplitude.sub, Amplitude.scale]
        ring
    · have hinactive : r.affineOverlayActive = false := by simpa using hactive
      rw [applyAffineOverlay_inactive hinactive, applyAffineOverlay_active rfl]
      simp only [hinactive, Bool.false_eq_true, if_false]
      apply Amplitude.eq_of_parts
      · simp only [StateVector.reflectAmp, StateVector.affineAmp, Amplitude.negate,
          Amplitude.sub, Amplitude.scale, Amplitude.zero]
        ring
      · simp only [StateVector.reflectAmp, StateVector.affineAmp, Amplitude.negate,
          Amplitude.sub, Amplitude.scale, Amplitude.zero]
        ring
  · intro _
    by_cases hactive : r.affineOverlayActive = true
    · simp only [hactive, if_true]
      rcases h.unitScale hactive with hscale | hscale
      · right
        rw [hscale]
        apply Amplitude.eq_of_parts <;> simp [Amplitude.negate]
      · left
        rw [hscale]
        apply Amplitude.eq_of_parts <;> simp [Amplitude.negate]
    · have hinactive : r.affineOverlayActive = false := by simpa using hactive
      simp only [hinactive, Bool.false_eq_true, if_false]
      right
      apply Amplitude.eq_of_parts <;> simp [Amplitude.negate]

theorem does_applyInversionAboutMeanMaterializedWith (h : Lazy sv n v depth r)
    (mean : Amplitude R) :
    Does (applyInversionAboutMeanMaterializedWith mean) r
      (Lazy sv n (StateVector.reflect mean v) depth) := by
  rw [Does, applyInversionAboutMeanMaterializedWith, Call.post_bind_iff, reflectSum,
    Call.post_modify, Call.post_bind_iff]
  have hover : Overlaid sv n v depth
      { r with
        cachedLogicalAmplitudeSum := r.cachedLogicalAmplitudeSum.map fun sum =>
          { real := 2 * mean.real * (r.numStates : R) - sum.real
            imag := 2 * mean.imag * (r.numStates : R) - sum.imag } } :=
    { numQubits := h.numQubits
      numStates := h.numStates
      stored := h.stored
      unitScale := h.unitScale }
  refine (does_flushAffineOverlay hover).imp ?_ (fun _ _ he => he)
  rintro _ r1 ⟨h1, hinactive, hcached⟩
  have hreflect : Does (IStateBackend.inversionAboutMeanWith mean) r1.backend
      (sv.Rep n (StateVector.reflect mean v) depth) :=
    sv.inversionAboutMeanWith (h1.rep hinactive)
  refine (post_onBackend hreflect).imp ?_ ?_
  · rintro _ _ ⟨b, hb, rfl⟩
    refine Lazy.of_rep h1.numQubits h1.numStates hb hinactive ?_
    intro sum hsum
    rw [hcached] at hsum
    exact sum_of_reflectSum h mean hsum
  · rintro _ _ ⟨b, he, _⟩
    exact he

theorem post_logicalMean (h : Lazy sv n v depth r) :
    Call.Post logicalMean r
      (fun mean r' => mean = StateVector.mean n v ∧ Lazy sv n v depth r') (fun _ _ => False) := by
  rw [logicalMean, Call.post_bind_iff]
  refine (post_logicalAmplitudeSum h).imp ?_ (fun _ _ he => he)
  rintro _ r1 ⟨rfl, h1⟩
  rw [Call.post_bind_iff, Call.post_get, Call.post_pure, h1.numStates]
  exact ⟨rfl, h1⟩

theorem does_applyInversionAboutMean (h : Lazy sv n v depth r) :
    Does applyInversionAboutMean r
      (Lazy sv n (StateVector.reflect (StateVector.mean n v) v) depth) := by
  rw [Does, applyInversionAboutMean, Call.post_bind_iff]
  refine (post_logicalMean h).imp ?_ (fun _ _ he => he)
  rintro _ r1 ⟨rfl, h1⟩
  exact does_applyInversionAboutMeanWith h1 _

theorem does_applyInversionAboutMeanMaterialized (h : Lazy sv n v depth r) :
    Does applyInversionAboutMeanMaterialized r
      (Lazy sv n (StateVector.reflect (StateVector.mean n v) v) depth) := by
  rw [Does, applyInversionAboutMeanMaterialized, Call.post_bind_iff]
  refine (post_logicalMean h).imp ?_ (fun _ _ he => he)
  rintro _ r1 ⟨rfl, h1⟩
  exact does_applyInversionAboutMeanMaterializedWith h1 _

/-!
## Phase flips
-/

omit [LinearOrder R] [CMath R] in
theorem amplitudeSum_phaseFlip (hv : v.length = 2 * 2 ^ n) {s : Nat} (hs : s < 2 ^ n) :
    StateVector.amplitudeSum (StateVector.phaseFlip v s) =
      { real := (StateVector.amplitudeSum v).real - 2 * (ampAt v s).real
        imag := (StateVector.amplitudeSum v).imag - 2 * (ampAt v s).imag } := by
  rw [StateVector.phaseFlip, StateVector.amplitudeSum_setAmp hv hs]
  apply Amplitude.eq_of_parts
  · simp only [Amplitude.negate]
    ring
  · simp only [Amplitude.negate]
    ring

/-- The flip itself, on a register whose cached sum may already belong to the new vector. -/
theorem does_flipStored (h : Overlaid sv n v depth r) {s : Nat} (hs : s < 2 ^ n)
    (hsum : forall sum, r.cachedLogicalAmplitudeSum = some sum ->
      sum = StateVector.amplitudeSum (StateVector.phaseFlip v s)) :
    Does
      (if r.affineOverlayActive then do
        let backendAmp <- removeAffineOverlay (ampAt v s).negate
        onBackend (IStateBackend.setAmplitude s backendAmp)
      else
        onBackend (IStateBackend.phaseFlipBasisState s)) r
      (Lazy sv n (StateVector.phaseFlip v s) depth) := by
  by_cases hactive : r.affineOverlayActive = true
  · obtain ⟨q, hremove, hq⟩ := removeAffineOverlay_eq h (ampAt v s).negate
    rw [if_pos hactive, Does, Call.post_bind_iff]
    refine Call.post_of_ok hremove ?_
    refine (does_writeLogical h hs hq).imp ?_ (fun _ _ he => he)
    rintro _ _ ⟨b, rfl, hstored⟩
    exact
      { numQubits := h.numQubits
        numStates := h.numStates
        stored := hstored
        unitScale := h.unitScale
        sum := hsum }
  · have hinactive : r.affineOverlayActive = false := by simpa using hactive
    rw [if_neg hactive, Does]
    refine (post_onBackend (sv.phaseFlipBasisState (h.rep hinactive) hs)).imp ?_ ?_
    · rintro _ _ ⟨b, hb, rfl⟩
      exact Lazy.of_rep h.numQubits h.numStates hb hinactive hsum
    · rintro _ _ ⟨b, he, _⟩
      exact he

theorem does_applyPhaseFlipBasisState (h : Lazy sv n v depth r) {s : Nat} (hs : s < 2 ^ n) :
    Does (applyPhaseFlipBasisState s) r (Lazy sv n (StateVector.phaseFlip v s) depth) := by
  rw [Does, applyPhaseFlipBasisState, Call.post_bind_iff, Call.post_get, h.numStates,
    validateStateIndex_ok _ h.qubits hs, pure_bind]
  by_cases hlazy : (r.cachedLogicalAmplitudeSum.isSome || r.affineOverlayActive) = true
  · rw [if_pos hlazy, Call.post_bind_iff]
    refine (post_amplitude h hs).imp ?_ (fun _ _ he => he)
    rintro _ _ ⟨rfl, b, rfl, h1⟩
    rw [Call.post_bind_iff, Call.post_modify]
    have hover : Overlaid sv n v depth
        { r with
          backend := b
          cachedLogicalAmplitudeSum := r.cachedLogicalAmplitudeSum.map fun sum =>
            { real := sum.real - 2 * (ampAt v s).real
              imag := sum.imag - 2 * (ampAt v s).imag } } :=
      { numQubits := h1.numQubits
        numStates := h1.numStates
        stored := h1.stored
        unitScale := h1.unitScale }
    refine does_flipStored hover hs ?_
    intro sum hsum
    obtain ⟨old, hold, rfl⟩ := Option.map_eq_some_iff.mp hsum
    rw [amplitudeSum_phaseFlip h.length hs, h.sum old hold]
  · rw [if_neg hlazy]
    have hboth : r.cachedLogicalAmplitudeSum.isSome = false ∧ r.affineOverlayActive = false := by
      simpa [Bool.or_eq_true] using hlazy
    have hflip := does_flipStored h.toOverlaid hs (fun sum hsum => by
      rw [hsum] at hboth
      cases hboth.1)
    rw [if_neg (by rw [hboth.2]; decide)] at hflip
    exact hflip

/-!
## Loading and batches
-/

theorem does_loadAmplitudes (h : Lazy sv n v depth r) {data : List R}
    (hlen : data.length = 2 * 2 ^ n) :
    Does (loadAmplitudes data) r (Lazy sv n data 0) := by
  obtain ⟨w, hw, _⟩ := h.stored
  have hlt := two_pow_lt_u32 h.qubits
  have hcount : r.amplitudeElementCount = 2 * 2 ^ n := by
    rw [amplitudeElementCount, h.numStates, u64_of_lt (by omega)]
    omega
  rw [Does, loadAmplitudes, Call.post_bind_iff, Call.post_get, hcount,
    if_neg (fun hne => hne hlen), Call.post_bind_iff, resetAffineOverlay, Call.post_modify,
    h.numQubits]
  refine (post_onBackend (sv.loadAmplitudes h.qubits (sv.bound hw).2.1 hlen)).imp ?_ ?_
  · rintro _ _ ⟨b, hb, rfl⟩
    refine Lazy.of_rep rfl h.numStates hb rfl ?_
    intro sum hsum
    cases hsum
  · rintro _ _ ⟨b, he, _⟩
    exact he

theorem does_initUniformSuperposition (h : Lazy sv n v depth r) {states : List Nat}
    (hne : states ≠ []) (hlt : forall s, s ∈ states -> s < 2 ^ n) :
    Does (initUniformSuperposition states) r (Lazy sv n (StateVector.uniform n states) 0) := by
  obtain ⟨w, hw, _⟩ := h.stored
  have hempty : ¬ states.isEmpty = true := by
    simpa using hne
  have hforM : (states.forM fun state =>
      validateStateIndex "QuantumRegister::initUniformSuperposition" state (2 ^ n) :
        Call (QuantumRegister R β) PUnit) = pure ⟨⟩ :=
    Call.forM_eq_pure fun s hs => validateStateIndex_ok _ h.qubits (hlt s hs)
  rw [Does, initUniformSuperposition, Call.post_bind_iff, Call.post_get, if_neg hempty,
    h.numStates, hforM, pure_bind, Call.post_bind_iff, resetAffineOverlay, Call.post_modify,
    h.numQubits]
  refine (post_onBackend
    (sv.initUniformSuperposition h.qubits (sv.bound hw).2.1 hne hlt)).imp ?_ ?_
  · rintro _ _ ⟨b, hb, rfl⟩
    refine Lazy.of_rep rfl h.numStates hb rfl ?_
    intro sum hsum
    cases hsum
  · rintro _ _ ⟨b, he, _⟩
    exact he

theorem does_batch {call : Call β Unit} {depth' : Nat} (h : Lazy sv n v depth r)
    (hcall : forall w, sv.Rep n w depth r.backend -> Does call r.backend (sv.Rep n w depth')) :
    Does (onBackend call) r (Lazy sv n v depth') := by
  obtain ⟨w, hw, hv⟩ := h.stored
  refine (post_onBackend (hcall w hw)).imp ?_ ?_
  · rintro _ _ ⟨b, hb, rfl⟩
    exact
      { numQubits := h.numQubits
        numStates := h.numStates
        stored := ⟨w, hb, hv⟩
        unitScale := h.unitScale
        sum := h.sum }
  · rintro _ _ ⟨b, he, _⟩
    exact he

/-!
## Construction
-/

omit [Field R] [LinearOrder R] [CMath R] [IStateBackend R β] in
theorem initializeBackend_eq (selected : β) (hn : n ≤ 63) (r : QuantumRegister R β) :
    initializeBackend selected n r =
      (.ok (), { r with numQubits := n, numStates := 2 ^ n, backend := selected }) := by
  rw [initializeBackend, Call.bind_apply, Call.modify_apply]
  simp only [checkedStateCount_eq (σ := QuantumRegister R β) hn, pure_bind]
  rfl

/-- The constructors represent the vector their backend was initialised with. -/
theorem does_construct {selected : β} (hn : n ≤ 31) {call : Call β Unit}
    (hcall : forall b, Does call b (sv.Rep n v 0)) :
    Does (initializeBackend selected n >>= fun _ => onBackend call)
      (uninitialized selected : QuantumRegister R β) (Lazy sv n v 0) := by
  rw [Does, Call.post_bind_iff]
  refine Call.post_of_ok (initializeBackend_eq selected (by omega) _) ?_
  refine (post_onBackend (hcall _)).imp ?_ ?_
  · rintro _ _ ⟨b, hb, rfl⟩
    refine Lazy.of_rep rfl rfl hb rfl ?_
    intro sum hsum
    cases hsum
  · rintro _ _ ⟨b, he, _⟩
    exact he

theorem does_initBasis (selected : β) (hn : n ≤ 31) (hsize : sv.Size n) {s : Nat}
    (hs : s < 2 ^ n) (amp : Amplitude R) :
    Does (initBasis selected n s amp) (uninitialized selected : QuantumRegister R β)
      (Lazy sv n (StateVector.basis n s amp) 0) :=
  does_construct hn fun _ => sv.initBasis hn hsize hs

theorem does_initAmplitudes (selected : β) (hn : n ≤ 31) (hsize : sv.Size n) {data : List R}
    (hlen : data.length = 2 * 2 ^ n) :
    Does (initAmplitudes selected n data) (uninitialized selected : QuantumRegister R β)
      (Lazy sv n data 0) :=
  does_construct hn fun _ => sv.loadAmplitudes hn hsize hlen

/-- The register was built by one of the constructors, starting in `v`. -/
inductive Constructed (selected : β) (n : Nat) : List R -> QuantumRegister R β -> Prop where
  | basis {s : Nat} {amp : Amplitude R} {r : QuantumRegister R β} (hn : n ≤ 31) (hs : s < 2 ^ n)
      (hr : construct selected (initBasis selected n s amp) = .ok r) :
      Constructed selected n (StateVector.basis n s amp) r
  | amplitudes {v : List R} {r : QuantumRegister R β} (hn : n ≤ 31) (hv : v.length = 2 * 2 ^ n)
      (hr : construct selected (initAmplitudes selected n v) = .ok r) :
      Constructed selected n v r

omit [LinearOrder R] [CMath R] [IStateBackend R β] in
theorem post_construct {selected : β} {init_ : Call (QuantumRegister R β) Unit}
    {Q : QuantumRegister R β -> Prop} (h : Does init_ (uninitialized selected) Q) :
    exists r, construct selected init_ = .ok r ∧ Q r := by
  obtain ⟨_, r, hok, hr⟩ := Call.Post.exists_ok h
  exact ⟨r, by rw [construct, hok], hr⟩

theorem Constructed.lazy {selected : β} (h : Constructed selected n v r) (hsize : sv.Size n) :
    Lazy sv n v 0 r := by
  cases h with
  | basis hn hs hr =>
      obtain ⟨r', hr', hlazy⟩ := post_construct (does_initBasis selected hn hsize hs _)
      rw [hr] at hr'
      cases hr'
      exact hlazy
  | amplitudes hn hv hr =>
      obtain ⟨r', hr', hlazy⟩ := post_construct (does_initAmplitudes selected hn hsize hv)
      rw [hr] at hr'
      cases hr'
      exact hlazy

theorem Lazy.copied (h : Lazy sv n v depth r)
    (hclone : forall w, sv.Rep n w depth r.backend ->
      sv.Rep n w depth (IStateBackend.clone r.backend)) :
    Lazy sv n v depth r.copy := by
  obtain ⟨w, hw, hv⟩ := h.stored
  exact h.moved (hclone w hw) hv

/-!
## Runs
-/

/-- The register represents the vector of the eager register. -/
def Refined (sv : StoresVector (R := R) β) (L : LogicalState R) (r : QuantumRegister R β) :
    Prop :=
  Lazy sv L.numQubits L.amplitudes L.depth r

/-- How a backend answers when no batch is open: the rules of its eager register. -/
def EndsUnmatched (sv : StoresVector (R := R) β) (answer : Except ExcKind (Answer R)) : Prop :=
  forall n v (r : QuantumRegister R β), Lazy sv n v 0 r ->
    Call.Post (RegisterOp.run .endOperationBatch) r
      (fun a r' => answer = .ok a ∧ Lazy sv n v 0 r')
      (fun e r' => answer = .error e.kind ∧ Lazy sv n v 0 r')

def eagerRules (sv : StoresVector (R := R) β) (unmatchedEnd : Except ExcKind (Answer R)) :
    EagerRules R :=
  { gate := sv.gate
    unmatchedEnd := unmatchedEnd }

/-- Every valid operation does, and answers, what it does on the eager register. -/
theorem refines_op [IsStrictOrderedRing R] {unmatched : Except ExcKind (Answer R)}
    (hend : EndsUnmatched sv unmatched) {op : RegisterOp R} {L : LogicalState R}
    (h : Refined sv L r) (hvalid : op.Valid L.numQubits) :
    Refines Exc.kind (Refined sv) op.run (op.spec (eagerRules sv unmatched)) L r := by
  obtain ⟨n, v, depth⟩ := L
  have answers {α : Type} {wrap : α -> Answer R} {call : Call (QuantumRegister R β) α}
      {answer : Except ExcKind α} {spec : Library.Call ExcKind (LogicalState R) (Answer R)}
      (hspec : spec ⟨n, v, depth⟩ = (answer.map wrap, ⟨n, v, depth⟩))
      (hcall : Answers call r answer (Lazy sv n v depth)) :
      Refines Exc.kind (Refined sv) (BackendOp.query wrap call) spec ⟨n, v, depth⟩ r :=
    refines_query hspec hcall
  cases op with
  | setAmplitude s amp => exact refines_command rfl (does_setAmplitude h hvalid amp)
  | loadAmplitudes data => exact refines_command rfl (does_loadAmplitudes h hvalid)
  | initUniformSuperposition states =>
      exact refines_command rfl (does_initUniformSuperposition h hvalid.1 hvalid.2)
  | applyGate gate qubits => exact refines_command rfl (does_applyGate h hvalid)
  | applyPhaseFlipBasisState s =>
      exact refines_command rfl (does_applyPhaseFlipBasisState h hvalid)
  | applyInversionAboutMean => exact refines_command rfl (does_applyInversionAboutMean h)
  | applyInversionAboutMeanWith mean =>
      exact refines_command rfl (does_applyInversionAboutMeanWith h mean)
  | applyInversionAboutMeanMaterialized =>
      exact refines_command rfl (does_applyInversionAboutMeanMaterialized h)
  | applyInversionAboutMeanMaterializedWith mean =>
      exact refines_command rfl (does_applyInversionAboutMeanMaterializedWith h mean)
  | applyHadamard q => exact refines_command rfl (does_applyHadamard h hvalid)
  | applyPauliX q => exact refines_command rfl (does_applyPauliX h hvalid)
  | applyControlledPhaseShift c q theta =>
      exact refines_command rfl
        (does_applyControlledPhaseShift h hvalid.1 hvalid.2.1 hvalid.2.2 theta)
  | applyControlledNot c q =>
      exact refines_command rfl (does_applyControlledNot h hvalid.1 hvalid.2.1 hvalid.2.2)
  | applySwap a b =>
      exact refines_command rfl (does_applySwap h hvalid.1 hvalid.2.1 hvalid.2.2)
  | beginOperationBatch =>
      exact refines_command rfl (does_batch h fun _ hw => sv.beginOperationBatch hw)
  | endOperationBatch =>
      cases depth with
      | zero =>
          apply Call.Post.refines
          refine (hend n v r h).imp ?_ ?_
          · rintro a r' ⟨ha, hr'⟩
            exact ⟨⟨n, v, 0⟩, by rw [← ha]; rfl, hr'⟩
          · rintro e r' ⟨he, hr'⟩
            exact ⟨⟨n, v, 0⟩, by rw [← he]; rfl, hr'⟩
      | succ depth =>
          exact refines_command rfl (does_batch h fun _ hw => sv.endOperationBatch hw)
  | amplitude s => exact answers rfl (answers_amplitude h hvalid)
  | probability s => exact answers rfl (answers_probability h hvalid)
  | totalProbability => exact answers rfl (answers_totalProbability h)
  | amplitudes => exact answers rfl (answers_amplitudes h)
  | measure rnd => exact answers rfl (answers_measure h hvalid.1 hvalid.2)
  | stream => exact answers rfl (answers_stream h)
  | printStatesVector epsilon => exact answers rfl (answers_printStatesVector h epsilon)

theorem trace_eq_eager [IsStrictOrderedRing R] {unmatched : Except ExcKind (Answer R)}
    (hend : EndsUnmatched sv unmatched) (h : Lazy sv n v 0 r) {ops : List (RegisterOp R)}
    (hvalid : forall op, op ∈ ops -> op.Valid n) :
    (outcomes RegisterOp.run ops r).map (Except.mapError Exc.kind) =
        outcomes (RegisterOp.spec (eagerRules sv unmatched)) ops ⟨n, v, 0⟩ ∧
      Refined sv (reached (RegisterOp.spec (eagerRules sv unmatched)) ops ⟨n, v, 0⟩)
        (reached RegisterOp.run ops r) := by
  have hstep : forall (op : RegisterOp R) (L : LogicalState R) (r : QuantumRegister R β),
      Refined sv L r -> op.Valid L.numQubits ->
      Refines Exc.kind (Refined sv) op.run (op.spec (eagerRules sv unmatched)) L r :=
    fun op L r h hop => refines_op hend h hop
  have halong : Along (RegisterOp.spec (eagerRules sv unmatched))
      (fun op L => op.Valid L.numQubits) ops (⟨n, v, 0⟩ : LogicalState R) :=
    along_of_invariant (I := fun L => L.numQubits = n)
      (fun op L hop hL => ⟨hL ▸ hvalid op hop, hL⟩) rfl
  have hstart : Refined sv (⟨n, v, 0⟩ : LogicalState R) r := h
  exact trace_refines hstep hstart halong

end QuantumRegister

end Tmfqs
