import Tmfqs.Core.Types
import Tmfqs.Library.Frame

/-!
# Index-space sizes and argument validation

The checks every entry point makes before it touches amplitudes, from
`core/state_space.h`, `core/validation.h` and `storage/common/backend_validation.h`.
-/

namespace Tmfqs

variable {σ : Type}

def maxSupportedQubitsForStateIndex : Nat :=
  63

def checkedStateCount (numQubits : Nat) : Call σ Nat :=
  if numQubits > maxSupportedQubitsForStateIndex then
    throw (invalidArgument "Number of qubits exceeds supported range for state indexing")
  else
    pure (1 <<< numQubits)

def checkedAmplitudeElementCount (numQubits : Nat) : Call σ Nat := do
  let stateCount <- checkedStateCount numQubits
  pure (u64 (stateCount * 2))

/-- The parameter `stateCount` is an `unsigned int`: a wider count is narrowed here. -/
def validateStateIndex (scopeName : String) (state stateCount : Nat) : Call σ Unit :=
  if state ≥ u32 stateCount then
    throw (outOfRange (scopeName ++ " state index out of range"))
  else
    pure ()

def validateQubitIndex (scopeName : String) (qubit numQubits : Nat) : Call σ Unit :=
  if qubit ≥ numQubits then
    throw (outOfRange (scopeName ++ " qubit index out of range"))
  else
    pure ()

def validateDistinctQubits (scopeName : String) (q0 q1 : Nat) : Call σ Unit :=
  if q0 = q1 then
    throw (invalidArgument (scopeName ++ " requires distinct qubits"))
  else
    pure ()

/-- The loop over the targets; `seen` lists the qubits met so far. -/
def validateTargetsFrom (scopeName : String) (numQubits : Nat) :
    List Nat -> List Nat -> Call σ Unit
  | _, [] => pure ()
  | seen, qubit :: rest => do
      validateQubitIndex scopeName qubit numQubits
      if qubit ∈ seen then
        throw (invalidArgument (scopeName ++ " duplicate qubit index"))
      validateTargetsFrom scopeName numQubits (qubit :: seen) rest

def validateGateTargets (scopeName : String) (qubits : List Nat)
    (numQubits gateDimension : Nat) : Call σ Unit := do
  if qubits.length > maxSupportedQubitsForStateIndex then
    throw (invalidArgument (scopeName ++ " qubit list exceeds supported index width"))
  if qubits.length > numQubits then
    throw (invalidArgument (scopeName ++ " gate acts on more qubits than available"))
  let dimension <- checkedStateCount qubits.length
  if gateDimension ≠ dimension then
    throw (invalidArgument (scopeName ++ " gate dimension does not match qubit list"))
  validateTargetsFrom scopeName numQubits [] qubits

def ensureBackendInitialized (initialized : Bool) (backendName operation : String) :
    Call σ Unit :=
  if initialized then
    pure ()
  else
    throw (logicError (backendName ++ " is not initialized for " ++ operation))

def validateBackendTwoQubits (scopeName : String) (q0 q1 numQubits : Nat) :
    Call σ Unit := do
  validateQubitIndex scopeName q0 numQubits
  validateQubitIndex scopeName q1 numQubits
  validateDistinctQubits scopeName q0 q1

def qubitMaskFromMsbIndex (qubit numQubits : Nat) : Nat :=
  u32 (1 <<< (numQubits - qubit - 1))

/-!
## Accepted arguments
-/

theorem checkedStateCount_eq {n : Nat} (h : n ≤ 63) :
    (checkedStateCount n : Call σ Nat) = pure (2 ^ n) := by
  have hn : ¬ n > maxSupportedQubitsForStateIndex := by
    simpa [maxSupportedQubitsForStateIndex] using h
  simp [checkedStateCount, hn, Nat.one_shiftLeft]

theorem checkedAmplitudeElementCount_eq {n : Nat} (h : n ≤ 62) :
    (checkedAmplitudeElementCount n : Call σ Nat) = pure (2 * 2 ^ n) := by
  have hlt : 2 ^ n * 2 < 2 ^ 64 := by
    have hle : 2 ^ n ≤ 2 ^ 62 := Nat.pow_le_pow_right (by decide) h
    omega
  rw [checkedAmplitudeElementCount, checkedStateCount_eq (by omega)]
  simp only [pure_bind]
  rw [u64_of_lt hlt, Nat.mul_comm]

theorem two_pow_lt_u32 {n : Nat} (h : n ≤ 31) : 2 ^ n < 2 ^ 32 :=
  Nat.pow_lt_pow_right (by decide) (by omega)

theorem validateStateIndex_eq (scopeName : String) {state n : Nat}
    (hn : n ≤ 31) :
    (validateStateIndex scopeName state (2 ^ n) : Call σ Unit) =
      if state < 2 ^ n then pure ()
      else throw (outOfRange (scopeName ++ " state index out of range")) := by
  rw [validateStateIndex, u32_of_lt (two_pow_lt_u32 hn)]
  by_cases h : state < 2 ^ n
  · rw [if_neg (by omega), if_pos h]
  · rw [if_pos (by omega), if_neg h]

theorem validateStateIndex_ok (scopeName : String) {state n : Nat}
    (hn : n ≤ 31) (h : state < 2 ^ n) :
    (validateStateIndex scopeName state (2 ^ n) : Call σ Unit) = pure () := by
  rw [validateStateIndex_eq scopeName hn, if_pos h]

theorem validateQubitIndex_ok (scopeName : String) {qubit numQubits : Nat}
    (h : qubit < numQubits) :
    (validateQubitIndex scopeName qubit numQubits : Call σ Unit) = pure () := by
  simp [validateQubitIndex, Nat.not_le.mpr h]

theorem validateDistinctQubits_ok (scopeName : String) {q0 q1 : Nat}
    (h : q0 ≠ q1) :
    (validateDistinctQubits scopeName q0 q1 : Call σ Unit) = pure () := by
  simp [validateDistinctQubits, h]

theorem validateBackendTwoQubits_ok (scopeName : String) {q0 q1 n : Nat}
    (h0 : q0 < n) (h1 : q1 < n) (hne : q0 ≠ q1) :
    (validateBackendTwoQubits scopeName q0 q1 n : Call σ Unit) = pure () := by
  rw [validateBackendTwoQubits, validateQubitIndex_ok scopeName h0,
    validateQubitIndex_ok scopeName h1, validateDistinctQubits_ok scopeName hne]
  rfl

theorem qubitMaskFromMsbIndex_eq {q n : Nat} (hn : n ≤ 31) :
    qubitMaskFromMsbIndex q n = 2 ^ (n - q - 1) := by
  rw [qubitMaskFromMsbIndex, Nat.one_shiftLeft,
    u32_of_lt (two_pow_lt_u32 (by omega))]

/-- The target lists a gate of the given dimension may be applied to. -/
structure ValidTargets (qubits : List Nat) (numQubits gateDimension : Nat) : Prop where
  dimension : gateDimension = 2 ^ qubits.length
  inRange : forall q, q ∈ qubits -> q < numQubits
  nodup : qubits.Nodup

theorem ValidTargets.one {q n d : Nat} (hq : q < n) (hdim : d = 2) : ValidTargets [q] n d where
  dimension := hdim
  inRange := by simpa using hq
  nodup := List.nodup_singleton q

theorem ValidTargets.two {c q n d : Nat} (hc : c < n) (hq : q < n) (hne : c ≠ q) (hdim : d = 4) :
    ValidTargets [c, q] n d where
  dimension := hdim
  inRange := by
    intro r hr
    simp only [List.mem_cons, List.not_mem_nil, or_false] at hr
    rcases hr with rfl | rfl
    · exact hc
    · exact hq
  nodup := by simpa using hne

theorem ValidTargets.length_le {qubits : List Nat} {n d : Nat}
    (h : ValidTargets qubits n d) : qubits.length ≤ n := by
  have hsub : qubits ⊆ List.range n := by
    intro q hq
    exact List.mem_range.mpr (h.inRange q hq)
  simpa using (h.nodup.subperm hsub).length_le

theorem ValidTargets.getD_lt {qubits : List Nat} {n d : Nat} (h : ValidTargets qubits n d) {i : Nat}
    (hi : i < qubits.length) : qubits.getD i 0 < n := by
  rw [List.getD_eq_getElem?_getD, List.getElem?_eq_getElem hi]
  exact h.inRange _ (List.getElem_mem hi)

theorem ValidTargets.getD_ne {qubits : List Nat} {n d : Nat} (h : ValidTargets qubits n d)
    (hlen : qubits.length = 2) : qubits.getD 0 0 ≠ qubits.getD 1 0 := by
  obtain ⟨q, r, rfl⟩ := List.length_eq_two.mp hlen
  have hnodup := h.nodup
  simpa using hnodup

theorem ValidTargets.of_getD_zero {qubits : List Nat} {n d : Nat} (hlen : qubits.length = 1)
    (hdim : d = 2 ^ qubits.length) (h : qubits.getD 0 0 < n) : ValidTargets qubits n d := by
  rcases List.length_eq_one_iff.mp hlen with ⟨q, rfl⟩
  exact ValidTargets.one h hdim

theorem ValidTargets.of_getD_one {qubits : List Nat} {n d : Nat} (hlen : qubits.length = 2)
    (hdim : d = 2 ^ qubits.length)
    (h : qubits.getD 0 0 < n ∧ qubits.getD 1 0 < n ∧ qubits.getD 0 0 ≠ qubits.getD 1 0) :
    ValidTargets qubits n d := by
  rcases List.length_eq_two.mp hlen with ⟨c, q, rfl⟩
  exact ValidTargets.two h.1 h.2.1 h.2.2 hdim

theorem validateTargetsFrom_ok (scopeName : String) {n : Nat} :
    forall (qubits seen : List Nat),
      (forall q, q ∈ qubits -> q < n) -> qubits.Nodup ->
      (forall q, q ∈ qubits -> q ∉ seen) ->
      (validateTargetsFrom scopeName n seen qubits : Call σ Unit) = pure ()
  | [], _, _, _, _ => rfl
  | q :: rest, seen, hrange, hnodup, hseen => by
      have hq : q ∉ seen := hseen q List.mem_cons_self
      have hrest : forall r, r ∈ rest -> r ∉ q :: seen := by
        intro r hr hmem
        rcases List.mem_cons.mp hmem with heq | hin
        · subst heq
          exact (List.nodup_cons.mp hnodup).1 hr
        · exact hseen r (List.mem_cons_of_mem q hr) hin
      rw [validateTargetsFrom,
        validateQubitIndex_ok scopeName (hrange q List.mem_cons_self), if_neg hq]
      exact validateTargetsFrom_ok scopeName rest (q :: seen)
        (fun r hr => hrange r (List.mem_cons_of_mem q hr))
        (List.nodup_cons.mp hnodup).2 hrest

theorem validateGateTargets_ok (scopeName : String) {qubits : List Nat} {n d : Nat}
    (hn : n ≤ 31) (h : ValidTargets qubits n d) :
    (validateGateTargets scopeName qubits n d : Call σ Unit) = pure () := by
  have hlen := h.length_le
  have h1 : ¬ qubits.length > maxSupportedQubitsForStateIndex := by
    simp only [maxSupportedQubitsForStateIndex]
    omega
  have h2 : ¬ qubits.length > n := by omega
  have htargets : (validateTargetsFrom scopeName n [] qubits : Call σ Unit) = pure () :=
    validateTargetsFrom_ok scopeName qubits [] h.inRange h.nodup (by simp)
  rw [validateGateTargets, if_neg h1, if_neg h2, checkedStateCount_eq (by omega)]
  simp only [pure_bind]
  rw [if_neg (by simpa using h.dimension), htargets]

/-!
## Checks only read
-/

section Frame

open Library

variable {σ γ : Type} {view : σ -> γ} (scopeName : String)

theorem keeps_validateStateIndex (state stateCount : Nat) :
    Call.Keeps view (validateStateIndex scopeName state stateCount : Call σ Unit) :=
  Call.Keeps.ite (Call.keeps_throw _) (Call.keeps_pure _)

theorem keeps_validateQubitIndex (qubit numQubits : Nat) :
    Call.Keeps view (validateQubitIndex scopeName qubit numQubits : Call σ Unit) :=
  Call.Keeps.ite (Call.keeps_throw _) (Call.keeps_pure _)

theorem keeps_validateDistinctQubits (q0 q1 : Nat) :
    Call.Keeps view (validateDistinctQubits scopeName q0 q1 : Call σ Unit) :=
  Call.Keeps.ite (Call.keeps_throw _) (Call.keeps_pure _)

theorem keeps_checkedStateCount (numQubits : Nat) :
    Call.Keeps view (checkedStateCount numQubits : Call σ Nat) :=
  Call.Keeps.ite (Call.keeps_throw _) (Call.keeps_pure _)

theorem keeps_validateTargetsFrom (numQubits : Nat) : forall seen qubits : List Nat,
    Call.Keeps view (validateTargetsFrom scopeName numQubits seen qubits : Call σ Unit)
  | _, [] => Call.keeps_pure _
  | seen, qubit :: rest => by
      apply (keeps_validateQubitIndex scopeName qubit numQubits).bind
      intro _
      apply Call.Keeps.ite
      · exact (Call.keeps_throw _).bind fun _ =>
          keeps_validateTargetsFrom numQubits (qubit :: seen) rest
      · exact keeps_validateTargetsFrom numQubits (qubit :: seen) rest

theorem keeps_validateGateTargets (qubits : List Nat) (numQubits gateDimension : Nat) :
    Call.Keeps view (validateGateTargets scopeName qubits numQubits gateDimension : Call σ Unit) := by
  have hrest : Call.Keeps view (do
      let dimension <- checkedStateCount qubits.length
      if gateDimension ≠ dimension then
        throw (invalidArgument (scopeName ++ " gate dimension does not match qubit list"))
      validateTargetsFrom scopeName numQubits [] qubits : Call σ Unit) := by
    apply (keeps_checkedStateCount qubits.length).bind
    intro dimension
    apply Call.Keeps.ite
    · exact (Call.keeps_throw _).bind fun _ => keeps_validateTargetsFrom scopeName _ _ _
    · exact keeps_validateTargetsFrom scopeName _ _ _
  rw [validateGateTargets]
  apply Call.Keeps.ite
  · exact Call.keeps_throw _
  · apply Call.Keeps.ite
    · exact Call.keeps_throw _
    · exact hrest

end Frame

/-!
## Rejected arguments
-/

section Rejections

open Library

variable {σ α β : Type} {s : σ} {n : Nat}

/-- The call reports an unusable argument and leaves the object as it was. -/
def Rejects (x : Call σ α) (s : σ) : Prop :=
  exists e, x s = (.error e, s) ∧ e.kind.rejection = true

theorem rejects_throw {e : Exc} (h : e.kind.rejection = true) (s : σ) :
    Rejects (throw e : Call σ α) s :=
  ⟨e, rfl, h⟩

theorem Rejects.bind {x : Call σ α} (h : Rejects x s) (f : α -> Call σ β) :
    Rejects (x >>= f) s := by
  rcases h with ⟨e, he, hkind⟩
  exact ⟨e, Call.bind_error he f, hkind⟩

theorem Rejects.after {x : Call σ α} {a : α} {f : α -> Call σ β} (hx : x s = (.ok a, s))
    (h : Rejects (f a) s) : Rejects (x >>= f) s := by
  rcases h with ⟨e, he, hkind⟩
  exact ⟨e, (Call.bind_ok hx f).trans he, hkind⟩

variable (scopeName : String)

theorem rejects_stateIndex (hn : n ≤ 31) {state : Nat} (h : ¬ state < 2 ^ n) :
    Rejects (validateStateIndex scopeName state (2 ^ n)) s := by
  rw [validateStateIndex_eq scopeName hn, if_neg h]
  exact rejects_throw rfl s

theorem rejects_stateIndices (hn : n ≤ 31) {states : List Nat}
    (h : ¬ forall state, state ∈ states -> state < 2 ^ n) :
    Rejects (states.forM fun state => validateStateIndex scopeName state (2 ^ n)) s := by
  induction states with
  | nil => exact absurd (fun state hstate => by cases hstate) h
  | cons state rest ih =>
      by_cases hstate : state < 2 ^ n
      · have hok : (validateStateIndex scopeName state (2 ^ n) : Call σ Unit) s = (.ok (), s) := by
          rw [validateStateIndex_ok scopeName hn hstate, Call.pure_apply]
        apply Rejects.after hok
        apply ih
        intro hrest
        apply h
        intro t ht
        rcases List.mem_cons.mp ht with rfl | hmem
        · exact hstate
        · exact hrest t hmem
      · exact (rejects_stateIndex scopeName hn hstate).bind _

theorem rejects_qubitIndex {qubit : Nat} (h : ¬ qubit < n) :
    Rejects (validateQubitIndex scopeName qubit n) s := by
  rw [validateQubitIndex, if_pos (Nat.not_lt.mp h)]
  exact rejects_throw rfl s

theorem rejects_twoQubits {q0 q1 : Nat} (h : ¬ (q0 < n ∧ q1 < n ∧ q0 ≠ q1)) :
    Rejects (do
      validateQubitIndex scopeName q0 n
      validateQubitIndex scopeName q1 n
      validateDistinctQubits scopeName q0 q1) s := by
  by_cases h0 : q0 < n
  · rw [validateQubitIndex_ok scopeName h0, pure_bind]
    by_cases h1 : q1 < n
    · rw [validateQubitIndex_ok scopeName h1, pure_bind, validateDistinctQubits, if_pos]
      · exact rejects_throw rfl s
      · by_contra hne
        exact h ⟨h0, h1, hne⟩
    · exact (rejects_qubitIndex scopeName h1).bind _
  · exact (rejects_qubitIndex scopeName h0).bind _

theorem rejects_targetsFrom : forall qubits seen : List Nat,
    ¬ ((forall q, q ∈ qubits -> q < n) ∧ qubits.Nodup ∧ forall q, q ∈ qubits -> q ∉ seen) ->
    Rejects (validateTargetsFrom scopeName n seen qubits) s
  | [], seen, h => absurd (by simp) h
  | q :: rest, seen, h => by
      rw [validateTargetsFrom]
      by_cases hq : q < n
      · rw [validateQubitIndex_ok scopeName hq, pure_bind]
        by_cases hseen : q ∈ seen
        · rw [if_pos hseen]
          exact (rejects_throw rfl s).bind _
        · rw [if_neg hseen]
          apply rejects_targetsFrom rest (q :: seen)
          rintro ⟨hrange, hnodup, hfresh⟩
          apply h
          refine ⟨?_, ?_, ?_⟩
          · intro r hr
            rcases List.mem_cons.mp hr with rfl | hmem
            · exact hq
            · exact hrange r hmem
          · exact List.nodup_cons.mpr ⟨fun hmem => hfresh q hmem List.mem_cons_self, hnodup⟩
          · intro r hr
            rcases List.mem_cons.mp hr with rfl | hmem
            · exact hseen
            · exact fun hin => hfresh r hmem (List.mem_cons_of_mem q hin)
      · exact (rejects_qubitIndex scopeName hq).bind _

theorem rejects_gateTargets {qubits : List Nat} {d : Nat} (h : ¬ ValidTargets qubits n d) :
    Rejects (validateGateTargets scopeName qubits n d) s := by
  rw [validateGateTargets]
  by_cases hwide : qubits.length > maxSupportedQubitsForStateIndex
  · rw [if_pos hwide]
    exact (rejects_throw rfl s).bind _
  · rw [if_neg hwide]
    by_cases hmany : qubits.length > n
    · rw [if_pos hmany]
      exact (rejects_throw rfl s).bind _
    · rw [if_neg hmany]
      have hcount : qubits.length ≤ 63 := by
        simpa [maxSupportedQubitsForStateIndex] using hwide
      rw [checkedStateCount_eq hcount]
      simp only [pure_bind]
      by_cases hdim : d = 2 ^ qubits.length
      · rw [if_neg (by simpa using hdim)]
        apply rejects_targetsFrom scopeName qubits []
        rintro ⟨hrange, hnodup, _⟩
        exact h
          { dimension := hdim
            inRange := hrange
            nodup := hnodup }
      · rw [if_pos (by simpa using hdim)]
        exact (rejects_throw rfl s).bind _

end Rejections

end Tmfqs
