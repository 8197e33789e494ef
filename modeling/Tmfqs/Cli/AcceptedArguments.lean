import Tmfqs.Cli.GroverArguments
import Tmfqs.Experiment.Report
import Tmfqs.Library.Csv

/-!
# The accepted arguments

The options a command line leads to are the default ones with a list of settings applied in
their order, and every such list can be spelled as a command line.
-/

namespace Tmfqs

open Library Csv

namespace GroverCli

/-!
## Numbers
-/

theorem strtoul_decimal {n : Nat} (hn : n < 2 ^ 64) : strtoul (decimal n) = some (n, []) := by
  have hdigit : forall c, c ∈ decimal n -> c.isDigit = true := fun c hc =>
    isDigit_of_mem_decimal hc
  have hnumber := ofDigitChars_decimal n
  obtain ⟨c, rest, htext⟩ := List.exists_cons_of_ne_nil (decimal_ne_nil n)
  rw [htext] at hdigit hnumber ⊢
  have hc := hdigit c List.mem_cons_self
  have hspace : isspace c = false := by
    by_contra h
    simp only [isspace, Bool.not_eq_false, Bool.or_eq_true, beq_iff_eq] at h
    rcases h with ((((rfl | rfl) | rfl) | rfl) | rfl) | rfl <;> cases hc
  have hminus : c ≠ '-' := by
    rintro rfl
    cases hc
  have hplus : c ≠ '+' := by
    rintro rfl
    cases hc
  have htake : (c :: rest).takeWhile Char.isDigit = c :: rest :=
    List.takeWhile_eq_self_iff.mpr hdigit
  have hdrop : (c :: rest).dropWhile Char.isDigit = [] := List.dropWhile_eq_nil_iff.mpr hdigit
  have hskip : (c :: rest).dropWhile isspace = c :: rest :=
    List.dropWhile_cons_of_neg (by rw [hspace]; exact Bool.false_ne_true)
  have hsign : sign (c :: rest) = (false, c :: rest) := by
    rw [sign, if_neg hminus, if_neg hplus]
  rw [strtoul, hskip, hsign]
  dsimp only
  rw [htake, hdrop, hnumber, if_neg (List.cons_ne_nil c rest), if_neg (by omega),
    if_neg Bool.false_ne_true]

theorem strtoul_lt {text : List Char} {p : Nat × List Char} (h : strtoul text = some p) :
    p.1 < 2 ^ 64 := by
  rw [strtoul] at h
  dsimp only at h
  split at h
  · cases h
  · cases h
    dsimp only
    split
    · decide
    · split
      · exact Nat.mod_lt _ (by decide)
      · omega

theorem parseUnsigned_decimal {n : Nat} (hn : n < 2 ^ 32) : parseUnsigned (decimal n) = some n := by
  rw [parseUnsigned, strtoul_decimal (by omega), Option.bind_some]
  dsimp only
  rw [if_pos rfl, u32_of_lt hn]

theorem parseUnsigned_lt {text : List Char} {n : Nat} (h : parseUnsigned text = some n) :
    n < 2 ^ 32 := by
  rw [parseUnsigned, Option.bind_eq_some_iff] at h
  obtain ⟨p, _, hp⟩ := h
  split at hp
  · cases hp
    exact Nat.mod_lt _ (by decide)
  · cases hp

theorem parseStateIndex_decimal {n : Nat} (hn : n < 2 ^ 64) :
    parseStateIndex (decimal n) = some n := by
  rw [parseStateIndex, strtoul_decimal hn, Option.bind_some]
  exact if_pos rfl

theorem parseMarkedState_decimal {n : Nat} (hn : n < 2 ^ 64) :
    parseMarkedState (decimal n) = some n := by
  rw [parseMarkedState, if_neg (decimal_ne_nil n), parseStateIndex_decimal hn]

theorem parseMarkedState_lt {token : List Char} {n : Nat} (h : parseMarkedState token = some n) :
    n < 2 ^ 64 := by
  rw [parseMarkedState] at h
  split at h
  · cases h
  · rw [parseStateIndex, Option.bind_eq_some_iff] at h
    obtain ⟨p, hp, hn⟩ := h
    split at hn
    · cases hn
      exact strtoul_lt hp
    · cases hn

/-!
## The marked states
-/

theorem parseMarkedStatesFrom_append {cell : List Char} (hcell : ',' ∉ cell) (states : List Nat)
    (text : List Char) :
    forall token, parseMarkedStatesFrom token states (cell ++ text) =
      parseMarkedStatesFrom (token ++ cell) states text := by
  induction cell with
  | nil =>
      intro token
      rw [List.nil_append, List.append_nil]
  | cons ch rest ih =>
      intro token
      have hch : ch ≠ ',' := by
        rintro rfl
        exact hcell List.mem_cons_self
      have hrest : ',' ∉ rest := fun h => hcell (List.mem_cons_of_mem ch h)
      rw [List.cons_append, parseMarkedStatesFrom, if_neg hch, ih hrest, List.append_assoc,
        List.singleton_append]

theorem comma_decimal (n : Nat) : ',' ∉ decimal n := by
  intro h
  have hdigit := isDigit_of_mem_decimal h
  cases hdigit

theorem parseMarkedStatesFrom_row (states : List Nat) :
    forall seen, states ≠ [] -> (forall s, s ∈ states -> s < 2 ^ 64) ->
      parseMarkedStatesFrom [] seen (rowText (states.map decimal)) = some (seen ++ states) := by
  induction states with
  | nil =>
      intro seen hne
      exact absurd rfl hne
  | cons s rest ih =>
      intro seen _ hlt
      have hs := parseMarkedState_decimal (hlt s List.mem_cons_self)
      cases rest with
      | nil =>
          have htext : rowText ([s].map decimal) = decimal s ++ [] := by
            rw [List.map_singleton, rowText, List.intercalate_singleton, List.append_nil]
          rw [htext, parseMarkedStatesFrom_append (comma_decimal s), List.nil_append,
            parseMarkedStatesFrom, hs, Option.map_some]
      | cons t more =>
          have htext : rowText ((s :: t :: more).map decimal) =
              decimal s ++ ',' :: rowText ((t :: more).map decimal) := by
            rw [List.map_cons, List.map_cons, rowText, List.intercalate_cons_cons, ← List.map_cons,
              ← rowText, List.append_assoc, List.singleton_append]
          have hmore := ih (seen ++ [s]) (List.cons_ne_nil t more)
            fun x hx => hlt x (List.mem_cons_of_mem s hx)
          rw [htext, parseMarkedStatesFrom_append (comma_decimal s), List.nil_append,
            parseMarkedStatesFrom, if_pos rfl, hs, Option.bind_some, hmore, List.append_assoc,
            List.singleton_append]

theorem lt_of_parseMarkedStatesFrom {text : List Char} {states : List Nat} :
    forall token seen, parseMarkedStatesFrom token seen text = some states ->
      (forall s, s ∈ seen -> s < 2 ^ 64) -> states ≠ [] ∧ forall s, s ∈ states -> s < 2 ^ 64 := by
  have hsnoc {seen : List Nat} {s : Nat} {token : List Char}
      (hseen : forall s, s ∈ seen -> s < 2 ^ 64) (hs : parseMarkedState token = some s) :
      forall t, t ∈ seen ++ [s] -> t < 2 ^ 64 := by
    intro t ht
    rcases List.mem_append.mp ht with h | h
    · exact hseen t h
    · rw [List.mem_singleton.mp h]
      exact parseMarkedState_lt hs
  induction text with
  | nil =>
      intro token seen h hseen
      rw [parseMarkedStatesFrom, Option.map_eq_some_iff] at h
      obtain ⟨s, hs, rfl⟩ := h
      exact ⟨List.append_ne_nil_of_right_ne_nil _ (List.cons_ne_nil _ _), hsnoc hseen hs⟩
  | cons ch rest ih =>
      intro token seen h hseen
      rw [parseMarkedStatesFrom] at h
      split at h
      · obtain ⟨s, hs, hrest⟩ := Option.bind_eq_some_iff.mp h
        exact ih _ _ hrest (hsnoc hseen hs)
      · exact ih _ _ h hseen

/-!
## Settings
-/

/-- One option of the command line with its value. -/
inductive Setting (R : Type) where
  | verbose
  | strategy (kind : StorageStrategyKind)
  | chunkStates (value : Nat)
  | cacheSlots (value : Nat)
  | clevel (value : Nat)
  | nthreads (value : Nat)
  | thresholdMb (value : Nat)
  | zfpMode (mode : ZfpCompressionMode)
  | zfpRate (value : Option R)
  | zfpPrecision (value : Nat)
  | zfpAccuracy (value : Option R)
  | zfpChunkStates (value : Nat)
  | zfpCacheSlots (value : Nat)

variable {R : Type} [Field R] [LinearOrder R]

def IsPositive (value : Nat) : Prop :=
  value ≠ 0 ∧ value < 2 ^ 32

def IsPositiveDouble (value : Option R) : Prop :=
  forall x, value = some x -> 0 < x

namespace Setting

def Valid : Setting R -> Prop
  | .verbose => True
  | .strategy _ => True
  | .chunkStates value => IsPositive value
  | .cacheSlots value => IsPositive value
  | .clevel value => value < 2 ^ 32
  | .nthreads value => IsPositive value
  | .thresholdMb value => value < 2 ^ 32
  | .zfpMode _ => True
  | .zfpRate value => IsPositiveDouble value
  | .zfpPrecision value => IsPositive value
  | .zfpAccuracy value => IsPositiveDouble value
  | .zfpChunkStates value => IsPositive value
  | .zfpCacheSlots value => IsPositive value

def apply (options : GroverCliOptions R) : Setting R -> GroverCliOptions R
  | .verbose => setVerbose options
  | .strategy kind => setStrategy options kind
  | .chunkStates value => setChunkStates options value
  | .cacheSlots value => setCacheSlots options value
  | .clevel value => setClevel options value
  | .nthreads value => setNthreads options value
  | .thresholdMb value => setThresholdMb options value
  | .zfpMode mode => setZfpMode options mode
  | .zfpRate value => setZfpRate options value
  | .zfpPrecision value => setZfpPrecision options value
  | .zfpAccuracy value => setZfpAccuracy options value
  | .zfpChunkStates value => setZfpChunkStates options value
  | .zfpCacheSlots value => setZfpCacheSlots options value

def zfpModeText : ZfpCompressionMode -> List Char
  | .fixedRate => "rate".toList
  | .fixedPrecision => "precision".toList
  | .fixedAccuracy => "accuracy".toList

def arguments (printed : Option R -> List Char) : Setting R -> List (List Char)
  | .verbose => ["--verbose".toList]
  | .strategy kind => ["--strategy".toList, StorageStrategyRegistry.toString kind]
  | .chunkStates value => ["--chunk-states".toList, decimal value]
  | .cacheSlots value => ["--cache-slots".toList, decimal value]
  | .clevel value => ["--clevel".toList, decimal value]
  | .nthreads value => ["--nthreads".toList, decimal value]
  | .thresholdMb value => ["--threshold-mb".toList, decimal value]
  | .zfpMode mode => ["--zfp-mode".toList, zfpModeText mode]
  | .zfpRate value => ["--zfp-rate".toList, printed value]
  | .zfpPrecision value => ["--zfp-precision".toList, decimal value]
  | .zfpAccuracy value => ["--zfp-accuracy".toList, printed value]
  | .zfpChunkStates value => ["--zfp-chunk-states".toList, decimal value]
  | .zfpCacheSlots value => ["--zfp-cache-slots".toList, decimal value]

end Setting

namespace Setting

def doubles : Setting R -> List (Option R)
  | .zfpRate value => [value]
  | .zfpAccuracy value => [value]
  | _ => []

end Setting

/-- The texts of the numbers are read as them; `none` is printed as positive infinity. -/
def ReadsDoubles (strtod : List Char -> Option (Double R)) (printed : Option R -> List Char)
    (settings : List (Setting R)) : Prop :=
  forall setting, setting ∈ settings -> forall value, value ∈ setting.doubles ->
    strtod (printed value) = some (value.elim (.infinite false) .finite)

/-!
## Every list of settings is accepted
-/

section Accepts

variable {strtod : List Char -> Option (Double R)} {printed : Option R -> List Char}

theorem parseStrategy_toString (kind : StorageStrategyKind) :
    parseStrategy (StorageStrategyRegistry.toString kind) = .ok kind := by
  cases kind <;> rfl

theorem parseZfpMode_zfpModeText (mode : ZfpCompressionMode) :
    parseZfpMode (Setting.zfpModeText mode) = .ok mode := by
  cases mode <;> rfl

omit [Field R] [LinearOrder R] in
theorem unsigned_decimal (set : GroverCliOptions R -> Nat -> GroverCliOptions R) {value : Nat}
    (h : value < 2 ^ 32) (options : GroverCliOptions R) :
    unsigned set (decimal value) options = .ok (some (set options value)) := by
  rw [unsigned, parseUnsigned_decimal h]
  rfl

omit [Field R] [LinearOrder R] in
theorem positive_decimal (set : GroverCliOptions R -> Nat -> GroverCliOptions R) {value : Nat}
    (h : IsPositive value) (options : GroverCliOptions R) :
    positive set (decimal value) options = .ok (some (set options value)) := by
  rw [positive, parseUnsigned_decimal h.2, Option.bind_some, if_neg h.1]

theorem positiveDouble_printed (set : GroverCliOptions R -> Option R -> GroverCliOptions R)
    {value : Option R} (h : IsPositiveDouble value)
    (hreads : strtod (printed value) = some (value.elim (.infinite false) .finite))
    (options : GroverCliOptions R) :
    positiveDouble strtod set (printed value) options = .ok (some (set options value)) := by
  rw [positiveDouble, hreads]
  cases value with
  | none => rfl
  | some x =>
      have hx : ¬ x ≤ 0 := not_le.mpr (h x rfl)
      have hpositive : (Double.finite x).notPositive = false := decide_eq_false hx
      rw [Option.elim_some, Option.bind_some, hpositive]
      rfl

theorem parseOptions_setter {arg value : List Char} {set : Setter R}
    {options options' : GroverCliOptions R} (harg : arg ≠ "--verbose".toList)
    (hset : setter strtod arg = some set) (hvalue : set value options = .ok (some options'))
    (rest : List (List Char)) :
    parseOptions strtod (arg :: value :: rest) options = parseOptions strtod rest options' := by
  rw [parseOptions.eq_def]
  dsimp only
  rw [if_neg harg, hset]
  dsimp only
  rw [hvalue]

theorem parseOptions_setting {setting : Setting R} (h : setting.Valid)
    (hreads : ReadsDoubles strtod printed [setting]) (rest : List (List Char))
    (options : GroverCliOptions R) :
    parseOptions strtod (setting.arguments printed ++ rest) options =
      parseOptions strtod rest (setting.apply options) := by
  cases setting with
  | verbose => exact if_pos rfl
  | strategy kind =>
      refine parseOptions_setter (by decide) rfl ?_ rest
      rw [strategy, parseStrategy_toString]
      rfl
  | chunkStates value =>
      exact parseOptions_setter (by decide) rfl (positive_decimal setChunkStates h options) rest
  | cacheSlots value =>
      exact parseOptions_setter (by decide) rfl (positive_decimal setCacheSlots h options) rest
  | clevel value =>
      exact parseOptions_setter (by decide) rfl (unsigned_decimal setClevel h options) rest
  | nthreads value =>
      exact parseOptions_setter (by decide) rfl (positive_decimal setNthreads h options) rest
  | thresholdMb value =>
      exact parseOptions_setter (by decide) rfl (unsigned_decimal setThresholdMb h options) rest
  | zfpMode mode =>
      refine parseOptions_setter (by decide) rfl ?_ rest
      rw [zfpMode, parseZfpMode_zfpModeText]
      rfl
  | zfpRate value =>
      exact parseOptions_setter (by decide) rfl
        (positiveDouble_printed setZfpRate h (hreads _ List.mem_cons_self _ List.mem_cons_self)
          options) rest
  | zfpPrecision value =>
      exact parseOptions_setter (by decide) rfl (positive_decimal setZfpPrecision h options) rest
  | zfpAccuracy value =>
      exact parseOptions_setter (by decide) rfl
        (positiveDouble_printed setZfpAccuracy h (hreads _ List.mem_cons_self _ List.mem_cons_self)
          options) rest
  | zfpChunkStates value =>
      exact parseOptions_setter (by decide) rfl (positive_decimal setZfpChunkStates h options) rest
  | zfpCacheSlots value =>
      exact parseOptions_setter (by decide) rfl (positive_decimal setZfpCacheSlots h options) rest

theorem parseOptions_settings {settings : List (Setting R)} :
    forall options, (forall setting, setting ∈ settings -> setting.Valid) ->
      ReadsDoubles strtod printed settings ->
      parseOptions strtod (settings.flatMap fun setting => setting.arguments printed) options =
        .ok (some (settings.foldl Setting.apply options)) := by
  induction settings with
  | nil =>
      intro options _ _
      rfl
  | cons setting rest ih =>
      intro options hvalid hreads
      have hfirst : ReadsDoubles strtod printed [setting] := by
        intro setting' hmem
        rw [List.mem_singleton.mp hmem]
        exact hreads setting List.mem_cons_self
      have hrest : ReadsDoubles strtod printed rest := fun setting' hmem =>
        hreads setting' (List.mem_cons_of_mem setting hmem)
      rw [List.flatMap_cons, parseOptions_setting (hvalid setting List.mem_cons_self) hfirst,
        ih _ (fun setting' hmem => hvalid setting' (List.mem_cons_of_mem setting hmem)) hrest,
        List.foldl_cons]

end Accepts

/-!
## Every accepted list of arguments is one of settings
-/

section Accepted

variable {strtod : List Char -> Option (Double R)}

theorem parseStrategy_error {value : List Char} {e : Exc} (h : parseStrategy value = .error e) :
    e = invalidArgument ("Unknown strategy: " ++ String.ofList value) := by
  rw [parseStrategy] at h
  split_ifs at h
  cases h
  rfl

theorem parseZfpMode_error {value : List Char} {e : Exc} (h : parseZfpMode value = .error e) :
    e = invalidArgument ("Unknown zfp mode: " ++ String.ofList value) := by
  rw [parseZfpMode] at h
  split_ifs at h
  cases h
  rfl

/-- What the arguments lead to: settings, a refusal, or an exception about one of them. -/
inductive Outcome (options : GroverCliOptions R) (args : List (List Char)) :
    Parsed (GroverCliOptions R) -> Prop where
  | accepted (settings : List (Setting R))
      (h : forall setting, setting ∈ settings -> setting.Valid) :
      Outcome options args (.ok (some (settings.foldl Setting.apply options)))
  | refused : Outcome options args (.ok none)
  | unknownStrategy (value : List Char) (h : value ∈ args) :
      Outcome options args
        (.error (invalidArgument ("Unknown strategy: " ++ String.ofList value)))
  | unknownZfpMode (value : List Char) (h : value ∈ args) :
      Outcome options args
        (.error (invalidArgument ("Unknown zfp mode: " ++ String.ofList value)))

theorem Outcome.set {options : GroverCliOptions R} {args : List (List Char)} {s : Setting R}
    (h : s.Valid) : Outcome options args (.ok (some (s.apply options))) := by
  apply Outcome.accepted [s]
  intro setting hmem
  rw [List.mem_singleton.mp hmem]
  exact h

theorem Outcome.after {options : GroverCliOptions R} {args more : List (List Char)}
    {settings : List (Setting R)} (hvalid : forall setting, setting ∈ settings -> setting.Valid)
    (hargs : forall arg, arg ∈ args -> arg ∈ more) {result : Parsed (GroverCliOptions R)}
    (h : Outcome (settings.foldl Setting.apply options) args result) :
    Outcome options more result := by
  cases h with
  | accepted later hlater =>
      rw [← List.foldl_append]
      apply Outcome.accepted
      intro setting hmem
      rcases List.mem_append.mp hmem with hearly | hlate
      · exact hvalid setting hearly
      · exact hlater setting hlate
  | refused => exact .refused
  | unknownStrategy value hvalue => exact .unknownStrategy value (hargs value hvalue)
  | unknownZfpMode value hvalue => exact .unknownZfpMode value (hargs value hvalue)

theorem result_unsigned {set : GroverCliOptions R -> Nat -> GroverCliOptions R}
    {m : Nat -> Setting R} (hmake : forall n, n < 2 ^ 32 -> (m n).Valid)
    (hset : forall options n, (m n).apply options = set options n)
    (options : GroverCliOptions R) (value : List Char) :
    Outcome options [value] (unsigned set value options) := by
  rw [unsigned]
  cases h : parseUnsigned value with
  | none => exact .refused
  | some n =>
      rw [Option.map_some, ← hset]
      exact .set (hmake n (parseUnsigned_lt h))

theorem result_positive {set : GroverCliOptions R -> Nat -> GroverCliOptions R}
    {m : Nat -> Setting R} (hmake : forall n, IsPositive n -> (m n).Valid)
    (hset : forall options n, (m n).apply options = set options n)
    (options : GroverCliOptions R) (value : List Char) :
    Outcome options [value] (positive set value options) := by
  rw [positive]
  cases h : parseUnsigned value with
  | none => exact .refused
  | some n =>
      rw [Option.bind_some]
      by_cases hn : n = 0
      · rw [if_pos hn]
        exact .refused
      · rw [if_neg hn, ← hset]
        exact .set (hmake n ⟨hn, parseUnsigned_lt h⟩)

theorem result_positiveDouble {set : GroverCliOptions R -> Option R -> GroverCliOptions R}
    {m : Option R -> Setting R} (hmake : forall x, IsPositiveDouble x -> (m x).Valid)
    (hset : forall options x, (m x).apply options = set options x)
    (options : GroverCliOptions R) (value : List Char) :
    Outcome options [value] (positiveDouble strtod set value options) := by
  rw [positiveDouble]
  cases strtod value with
  | none => exact .refused
  | some x =>
      rw [Option.bind_some]
      by_cases hx : x.notPositive = true
      · rw [if_pos hx]
        exact .refused
      · rw [if_neg hx, ← hset]
        apply Outcome.set
        apply hmake
        intro r hr
        cases x with
        | finite y =>
            cases hr
            exact not_le.mp fun hle => hx (decide_eq_true hle)
        | infinite negative => cases hr
        | nan => cases hr

theorem result_setter {arg : List Char} {set : Setter R} (hset : setter strtod arg = some set)
    (value : List Char) (options : GroverCliOptions R) :
    Outcome options [value] (set value options) := by
  rw [setter] at hset
  by_cases hstrategy : arg = "--strategy".toList
  · cases (if_pos hstrategy).symm.trans hset
    rw [strategy]
    cases h : parseStrategy value with
    | error e =>
        rw [parseStrategy_error h]
        exact .unknownStrategy value List.mem_cons_self
    | ok kind => exact Outcome.set (s := .strategy kind) trivial
  rw [if_neg hstrategy] at hset
  by_cases hchunkStates : arg = "--chunk-states".toList
  · cases (if_pos hchunkStates).symm.trans hset
    exact result_positive (m := .chunkStates) (fun _ h => h) (fun _ _ => rfl) options value
  rw [if_neg hchunkStates] at hset
  by_cases hcacheSlots : arg = "--cache-slots".toList
  · cases (if_pos hcacheSlots).symm.trans hset
    exact result_positive (m := .cacheSlots) (fun _ h => h) (fun _ _ => rfl) options value
  rw [if_neg hcacheSlots] at hset
  by_cases hclevel : arg = "--clevel".toList
  · cases (if_pos hclevel).symm.trans hset
    exact result_unsigned (m := .clevel) (fun _ h => h) (fun _ _ => rfl) options value
  rw [if_neg hclevel] at hset
  by_cases hnthreads : arg = "--nthreads".toList
  · cases (if_pos hnthreads).symm.trans hset
    exact result_positive (m := .nthreads) (fun _ h => h) (fun _ _ => rfl) options value
  rw [if_neg hnthreads] at hset
  by_cases hthresholdMb : arg = "--threshold-mb".toList
  · cases (if_pos hthresholdMb).symm.trans hset
    exact result_unsigned (m := .thresholdMb) (fun _ h => h) (fun _ _ => rfl) options value
  rw [if_neg hthresholdMb] at hset
  by_cases hzfpMode : arg = "--zfp-mode".toList
  · cases (if_pos hzfpMode).symm.trans hset
    rw [zfpMode]
    cases h : parseZfpMode value with
    | error e =>
        rw [parseZfpMode_error h]
        exact .unknownZfpMode value List.mem_cons_self
    | ok mode => exact Outcome.set (s := .zfpMode mode) trivial
  rw [if_neg hzfpMode] at hset
  by_cases hzfpRate : arg = "--zfp-rate".toList
  · cases (if_pos hzfpRate).symm.trans hset
    exact result_positiveDouble (m := .zfpRate) (fun _ h => h) (fun _ _ => rfl) options value
  rw [if_neg hzfpRate] at hset
  by_cases hzfpPrecision : arg = "--zfp-precision".toList
  · cases (if_pos hzfpPrecision).symm.trans hset
    exact result_positive (m := .zfpPrecision) (fun _ h => h) (fun _ _ => rfl) options value
  rw [if_neg hzfpPrecision] at hset
  by_cases hzfpAccuracy : arg = "--zfp-accuracy".toList
  · cases (if_pos hzfpAccuracy).symm.trans hset
    exact result_positiveDouble (m := .zfpAccuracy) (fun _ h => h) (fun _ _ => rfl) options value
  rw [if_neg hzfpAccuracy] at hset
  by_cases hzfpChunkStates : arg = "--zfp-chunk-states".toList
  · cases (if_pos hzfpChunkStates).symm.trans hset
    exact result_positive (m := .zfpChunkStates) (fun _ h => h) (fun _ _ => rfl) options value
  rw [if_neg hzfpChunkStates] at hset
  by_cases hzfpCacheSlots : arg = "--zfp-cache-slots".toList
  · cases (if_pos hzfpCacheSlots).symm.trans hset
    exact result_positive (m := .zfpCacheSlots) (fun _ h => h) (fun _ _ => rfl) options value
  rw [if_neg hzfpCacheSlots] at hset
  cases hset

variable (strtod) in
theorem outcome_parseOptions (args : List (List Char)) (options : GroverCliOptions R) :
    Outcome options args (parseOptions strtod args options) := by
  fun_induction parseOptions strtod args options with
  | case1 options => exact Outcome.accepted [] fun _ h => absurd h List.not_mem_nil
  | case2 rest options ih =>
      have hverbose :
          forall setting, setting ∈ [(Setting.verbose : Setting R)] -> setting.Valid := by
        intro setting h
        rw [List.mem_singleton.mp h]
        trivial
      exact Outcome.after hverbose (fun _ h => List.mem_cons_of_mem _ h) ih
  | case3 arg options harg set value rest hset e hvalue =>
      have h := result_setter hset value options
      rw [hvalue] at h
      have hvalid : forall setting, setting ∈ ([] : List (Setting R)) -> setting.Valid := by
        intro setting hmem
        cases hmem
      apply Outcome.after hvalid _ h
      intro arg' hmem
      rw [List.mem_singleton.mp hmem]
      exact List.mem_cons_of_mem arg List.mem_cons_self
  | case4 => exact .refused
  | case5 arg options harg set value rest hset options' hvalue ih =>
      have h := result_setter hset value options
      rw [hvalue] at h
      cases h with
      | accepted settings hvalid =>
          exact Outcome.after hvalid
            (fun _ hmem => List.mem_cons_of_mem arg (List.mem_cons_of_mem value hmem)) ih
  | case6 => exact .refused

end Accepted

/-!
## Whole command lines
-/

def commandLine (printed : Option R -> List Char) (qubitCount : Nat) (markedStates : List Nat)
    (settings : List (Setting R)) : List (List Char) :=
  decimal qubitCount :: rowText (markedStates.map decimal) ::
    settings.flatMap fun setting => setting.arguments printed

structure ValidArguments (qubitCount : Nat) (markedStates : List Nat)
    (settings : List (Setting R)) : Prop where
  qubits_ne_zero : qubitCount ≠ 0
  qubits_le : qubitCount ≤ maxSupportedQubitsForU32States
  marked_ne_nil : markedStates ≠ []
  marked_lt : forall state, state ∈ markedStates -> state < 2 ^ 64
  settings_valid : forall setting, setting ∈ settings -> setting.Valid

section CommandLines

variable {strtod : List Char -> Option (Double R)} {printed : Option R -> List Char}

theorem parseGroverArgs_commandLine {qubitCount : Nat} {markedStates : List Nat}
    {settings : List (Setting R)} (h : ValidArguments qubitCount markedStates settings)
    (hreads : ReadsDoubles strtod printed settings) :
    parseGroverArgs strtod (commandLine printed qubitCount markedStates settings) =
      .ok (some (settings.foldl Setting.apply (initialOptions qubitCount markedStates))) := by
  have hle := h.qubits_le
  rw [maxSupportedQubitsForU32States, maxSupportedQubitsForStateIndex] at hle
  have hmarked : parseMarkedStatesCsv (rowText (markedStates.map decimal)) = some markedStates :=
    parseMarkedStatesFrom_row markedStates [] h.marked_ne_nil h.marked_lt
  rw [commandLine, parseGroverArgs, parseUnsigned_decimal (by omega)]
  dsimp only
  rw [if_neg h.qubits_ne_zero, if_neg (Nat.not_lt.mpr h.qubits_le), hmarked]
  dsimp only
  rw [if_neg h.marked_ne_nil, parseOptions_settings _ h.settings_valid hreads]

variable (strtod) in
/-- A command line is refused at once, or its options are read from the default ones. -/
theorem parseGroverArgs_cases (argv : List (List Char)) :
    parseGroverArgs strtod argv = (.ok none : Parsed (GroverCliOptions R)) ∨
      exists qubits states args qubitCount markedStates, argv = qubits :: states :: args ∧
        ValidArguments qubitCount markedStates ([] : List (Setting R)) ∧
        parseGroverArgs strtod argv =
          parseOptions strtod args (initialOptions qubitCount markedStates) := by
  rcases argv with _ | ⟨qubits, _ | ⟨states, args⟩⟩
  · exact .inl rfl
  · exact .inl rfl
  rw [parseGroverArgs]
  cases hqubits : parseUnsigned qubits with
  | none => exact .inl rfl
  | some qubitCount =>
      dsimp only
      by_cases hzero : qubitCount = 0
      · rw [if_pos hzero]
        exact .inl rfl
      by_cases hlarge : qubitCount > maxSupportedQubitsForU32States
      · rw [if_neg hzero, if_pos hlarge]
        exact .inl rfl
      rw [if_neg hzero, if_neg hlarge]
      cases hstates : parseMarkedStatesCsv states with
      | none => exact .inl rfl
      | some markedStates =>
          have hmarked := lt_of_parseMarkedStatesFrom [] [] hstates
            fun _ h => absurd h List.not_mem_nil
          dsimp only
          rw [if_neg hmarked.1]
          exact .inr ⟨qubits, states, args, qubitCount, markedStates, rfl,
            ⟨hzero, Nat.not_lt.mp hlarge, hmarked.1, hmarked.2,
              fun _ h => absurd h List.not_mem_nil⟩, rfl⟩

end CommandLines

/-- `strtod` on a text of digits. -/
def strtodDigits (text : List Char) : Option (Double Rat) :=
  if text.all Char.isDigit then some (.finite (Nat.ofDigitChars 10 text 0 : Nat)) else none

def printedWhole : Option Rat -> List Char
  | none => "inf".toList
  | some x => decimal x.num.toNat

end GroverCli

end Tmfqs
