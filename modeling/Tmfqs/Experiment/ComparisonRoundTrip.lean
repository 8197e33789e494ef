import Tmfqs.Experiment.ReportRoundTrip

/-!
# Reading comparisons back

A comparison is read back from its JSON text, and from its row together with what it compares.
-/

namespace Tmfqs

open Library Json Csv

namespace StateComparison

section Text

variable {R : Type} {printed : R -> List Char} {readDouble : List Char -> Option R}
  (hprinted : Prints printed readDouble)

/-!
## The JSON text
-/

def comparisonValue (printed : R -> List Char) (comparison : StateComparison R) : Json :=
  .object
    [("bitwiseEqual".toList, .bool comparison.bitwiseEqual),
      ("maxAbsAmplitudeError".toList, .number (printed comparison.maxAbsAmplitudeError)),
      ("maxAbsComponentError".toList, .number (printed comparison.maxAbsComponentError)),
      ("relL2".toList, .number (printed comparison.relL2)),
      ("rmseAmplitude".toList, .number (printed comparison.rmseAmplitude)),
      ("maxAbsProbabilityError".toList, .number (printed comparison.maxAbsProbabilityError)),
      ("totalProbabilityDiff".toList, .number (printed comparison.totalProbabilityDiff)),
      ("worstState".toList, .number (decimal comparison.worstState))]

def comparisonText (printed : R -> List Char) (comparison : StateComparison R) : List Char :=
  '\x7b' :: keyText [] "bitwiseEqual".toList (boolText comparison.bitwiseEqual ++ ([] ++
    ',' :: keyText [] "maxAbsAmplitudeError".toList
      (printed comparison.maxAbsAmplitudeError ++ ([] ++
    ',' :: keyText [] "maxAbsComponentError".toList
      (printed comparison.maxAbsComponentError ++ ([] ++
    ',' :: keyText [] "relL2".toList (printed comparison.relL2 ++ ([] ++
    ',' :: keyText [] "rmseAmplitude".toList (printed comparison.rmseAmplitude ++ ([] ++
    ',' :: keyText [] "maxAbsProbabilityError".toList
      (printed comparison.maxAbsProbabilityError ++ ([] ++
    ',' :: keyText [] "totalProbabilityDiff".toList
      (printed comparison.totalProbabilityDiff ++ ([] ++
    ',' :: keyText [] "worstState".toList
      (decimal comparison.worstState ++ ([] ++ ['\x7d']))))))))))))))))

theorem toJson_eq (printed : R -> List Char) (comparison : StateComparison R) :
    toJson printed comparison = comparisonText printed comparison := by
  unfold toJson comparisonText
  simp only [keyText, String.reduceToList, List.append_assoc, List.cons_append, List.nil_append]

def comparisonCells (printed : R -> List Char) (circuit scenario : List Char) (qubits : Nat)
    (comparison : StateComparison R) : List (List Char) :=
  [circuit, scenario, decimal qubits, boolText comparison.bitwiseEqual,
    printed comparison.maxAbsAmplitudeError, printed comparison.maxAbsComponentError,
    printed comparison.relL2, printed comparison.rmseAmplitude,
    printed comparison.maxAbsProbabilityError, printed comparison.totalProbabilityDiff,
    decimal comparison.worstState]

theorem toCsvRow_eq (printed : R -> List Char) (circuit scenario : List Char) (qubits : Nat)
    (comparison : StateComparison R) :
    toCsvRow printed circuit scenario qubits comparison =
      rowText (comparisonCells printed circuit scenario qubits comparison) := by
  unfold toCsvRow comparisonCells rowText
  simp only [String.reduceToList, List.append_assoc, List.cons_append, List.nil_append,
    List.intercalate_cons_cons, List.intercalate_singleton]

/-!
## The comparison of a text
-/

variable (readDouble) in
def comparisonOfJson (value : Json) : Option (StateComparison R) := do
  let bitwiseEqual <- (value.member "bitwiseEqual".toList).bind asBool
  let maxAbsAmplitudeError <- numberAt readDouble "maxAbsAmplitudeError".toList value
  let maxAbsComponentError <- numberAt readDouble "maxAbsComponentError".toList value
  let relL2 <- numberAt readDouble "relL2".toList value
  let rmseAmplitude <- numberAt readDouble "rmseAmplitude".toList value
  let maxAbsProbabilityError <- numberAt readDouble "maxAbsProbabilityError".toList value
  let totalProbabilityDiff <- numberAt readDouble "totalProbabilityDiff".toList value
  let worstState <- natAt "worstState".toList value
  pure
    { bitwiseEqual := bitwiseEqual
      maxAbsAmplitudeError := maxAbsAmplitudeError
      maxAbsComponentError := maxAbsComponentError
      rmseAmplitude := rmseAmplitude
      relL2 := relL2
      maxAbsProbabilityError := maxAbsProbabilityError
      totalProbabilityDiff := totalProbabilityDiff
      worstState := worstState }

def boolOfText (text : List Char) : Option Bool :=
  [false, true].find? fun value => boolText value == text

theorem boolOfText_boolText (value : Bool) : boolOfText (boolText value) = some value := by
  cases value <;> decide

variable (readDouble) in
def comparisonOfCells :
    List (List Char) -> Option (List Char × List Char × Nat × StateComparison R)
  | [circuit, scenario, qubits, equal, amplitude, component, rel, rmse, probability, total,
      worst] => do
      let bitwiseEqual <- boolOfText equal
      let maxAbsAmplitudeError <- readDouble amplitude
      let maxAbsComponentError <- readDouble component
      let relL2 <- readDouble rel
      let rmseAmplitude <- readDouble rmse
      let maxAbsProbabilityError <- readDouble probability
      let totalProbabilityDiff <- readDouble total
      pure
        (circuit, scenario, natOfText qubits,
          { bitwiseEqual := bitwiseEqual
            maxAbsAmplitudeError := maxAbsAmplitudeError
            maxAbsComponentError := maxAbsComponentError
            rmseAmplitude := rmseAmplitude
            relL2 := relL2
            maxAbsProbabilityError := maxAbsProbabilityError
            totalProbabilityDiff := totalProbabilityDiff
            worstState := natOfText worst })
  | _ => none

theorem cell_boolText (value : Bool) : Cell (boolText value) := by
  cases value <;> exact ⟨by decide, by decide⟩

include hprinted

theorem reads_comparisonText (comparison : StateComparison R) :
    Reads (comparisonText printed comparison) (comparisonValue printed comparison) := by
  apply reads_object
  apply readsMembers_cons spaces_nil (readsString_of_all rfl) (reads_bool _) spaces_nil
  apply readsMembers_cons spaces_nil (readsString_of_all rfl) (reads_printed hprinted _) spaces_nil
  apply readsMembers_cons spaces_nil (readsString_of_all rfl) (reads_printed hprinted _) spaces_nil
  apply readsMembers_cons spaces_nil (readsString_of_all rfl) (reads_printed hprinted _) spaces_nil
  apply readsMembers_cons spaces_nil (readsString_of_all rfl) (reads_printed hprinted _) spaces_nil
  apply readsMembers_cons spaces_nil (readsString_of_all rfl) (reads_printed hprinted _) spaces_nil
  apply readsMembers_cons spaces_nil (readsString_of_all rfl) (reads_printed hprinted _) spaces_nil
  exact readsMembers_last spaces_nil (readsString_of_all rfl) (reads_decimal _) spaces_nil

theorem comparisonOfJson_comparisonValue (comparison : StateComparison R) :
    comparisonOfJson readDouble (comparisonValue printed comparison) = some comparison := by
  have hequal : (comparisonValue printed comparison).member "bitwiseEqual".toList =
      some (.bool comparison.bitwiseEqual) := rfl
  rw [comparisonOfJson, hequal, numberAt_eq hprinted rfl, numberAt_eq hprinted rfl,
    numberAt_eq hprinted rfl, numberAt_eq hprinted rfl, numberAt_eq hprinted rfl,
    numberAt_eq hprinted rfl, natAt_eq rfl]
  rfl

theorem comparisonOfJson_toJson (comparison : StateComparison R) :
    (read (toJson printed comparison)).bind (comparisonOfJson readDouble) = some comparison := by
  have hread := read_of_reads (reads_comparisonText hprinted comparison) spaces_nil
  rw [List.append_nil] at hread
  rw [toJson_eq, hread, Option.bind_some, comparisonOfJson_comparisonValue hprinted]

theorem comparisonOfCells_comparisonCells (circuit scenario : List Char) (qubits : Nat)
    (comparison : StateComparison R) :
    comparisonOfCells readDouble (comparisonCells printed circuit scenario qubits comparison) =
      some (circuit, scenario, qubits, comparison) := by
  simp only [comparisonCells, comparisonOfCells, boolOfText_boolText, hprinted.reads,
    Option.bind_eq_bind, Option.bind_some, natOfText_decimal]
  rfl

theorem comparisonOfCells_toCsvRow {circuit scenario : List Char} (hcircuit : Cell circuit)
    (hscenario : Cell scenario) (qubits : Nat) (comparison : StateComparison R) :
    comparisonOfCells readDouble
        ((toCsvRow printed circuit scenario qubits comparison).splitOn ',') =
      some (circuit, scenario, qubits, comparison) := by
  have hcells : forall cell,
      cell ∈ comparisonCells printed circuit scenario qubits comparison -> Cell cell := by
    simp only [comparisonCells, List.forall_mem_cons, List.not_mem_nil, false_implies,
      implies_true, and_true]
    exact ⟨hcircuit, hscenario, cell_decimal _, cell_boolText _, cell_printed hprinted _,
      cell_printed hprinted _, cell_printed hprinted _, cell_printed hprinted _,
      cell_printed hprinted _, cell_printed hprinted _, cell_decimal _⟩
  have hne : comparisonCells printed circuit scenario qubits comparison ≠ [] :=
    List.cons_ne_nil _ _
  rw [toCsvRow_eq, splitOn_rowText hne hcells, comparisonOfCells_comparisonCells hprinted]

end Text

end StateComparison

/-!
## Nothing is lost
-/

section Reports

variable {R : Type} {printed : R -> List Char} {readDouble : List Char -> Option R}

theorem plain_operationName (op : Operation R) :
    forall c, c ∈ operationName op -> 32 ≤ c.toNat ∧ c ≠ ',' := by
  have hall : (operationName op).all (fun c => decide (32 ≤ c.toNat ∧ c ≠ ',')) = true := by
    cases op <;> rfl
  intro c hc
  exact of_decide_eq_true (List.all_eq_true.mp hall c hc)

theorem names_of_traces {operations : List (Operation R)} {seconds : Nat -> R}
    {trace : OperationTrace R} (h : trace ∈ TimedReport.traces operations seconds) :
    Cell trace.name ∧ forall c, c ∈ trace.name -> Writable c := by
  obtain ⟨p, _, rfl⟩ := List.mem_map.mp h
  have hplain := plain_operationName p.1
  constructor
  · constructor
    · intro hcomma
      exact (hplain _ hcomma).2 rfl
    · intro hline
      exact absurd (hplain _ hline).1 (by decide)
  · intro c hc
    exact Or.inl (hplain c hc).1

/--
A report is read back from its JSON text and from its CSV text, a comparison from its JSON text
and from its row.  The names that stand in the texts must have no separators in them; the
names of the operations have none.
-/
theorem reports_read_back (hprinted : Prints printed readDouble) :
    (forall report : TimedReport R,
      (forall op, op ∈ report.operations -> forall c, c ∈ op.name -> Writable c) ->
        (read (TimedReport.toJson printed report)).bind (TimedReport.reportOfJson readDouble) =
          some report) ∧
      (forall report : TimedReport R, (forall op, op ∈ report.operations -> Cell op.name) ->
        TimedReport.reportOfCsv readDouble (TimedReport.toCsv printed report) = some report) ∧
      (forall comparison : StateComparison R,
        (read (StateComparison.toJson printed comparison)).bind
          (StateComparison.comparisonOfJson readDouble) = some comparison) ∧
      (forall (circuit scenario : List Char) (qubits : Nat) (comparison : StateComparison R),
        Cell circuit -> Cell scenario ->
          StateComparison.comparisonOfCells readDouble
              ((StateComparison.toCsvRow printed circuit scenario qubits comparison).splitOn ',') =
            some (circuit, scenario, qubits, comparison)) ∧
      forall (operations : List (Operation R)) (seconds : Nat -> R) (trace : OperationTrace R),
        trace ∈ TimedReport.traces operations seconds ->
          Cell trace.name ∧ forall c, c ∈ trace.name -> Writable c := by
  refine ⟨?_, ?_, ?_, ?_, ?_⟩
  · intro report hnames
    exact TimedReport.reportOfJson_toJson hprinted hnames
  · intro report hnames
    exact TimedReport.reportOfCsv_toCsv hprinted hnames
  · intro comparison
    exact StateComparison.comparisonOfJson_toJson hprinted comparison
  · intro circuit scenario qubits comparison hcircuit hscenario
    exact StateComparison.comparisonOfCells_toCsvRow hprinted hcircuit hscenario qubits comparison
  · intro operations seconds trace htrace
    exact names_of_traces htrace

end Reports

theorem prints_decimal : Prints decimal fun text => some (natOfText text) where
  ne_nil := decimal_ne_nil
  numeric := fun _ _ => numeric_decimal
  reads := fun n => congrArg some (natOfText_decimal n)

theorem reports_read_back_swap :
    let report : TimedReport Nat :=
      { qubits := 2
        operationCount := 2
        strategy := .blosc
        executionSeconds := 12
        operations := TimedReport.traces [.hadamard 0, .swap 0 1] fun k => 5 + k }
    (read (TimedReport.toJson decimal report)).bind
        (TimedReport.reportOfJson fun text => some (natOfText text)) = some report ∧
      TimedReport.reportOfCsv (fun text => some (natOfText text))
        (TimedReport.toCsv decimal report) = some report := by
  intro report
  have hback := reports_read_back prints_decimal
  have hnames : forall trace, trace ∈ report.operations ->
      Cell trace.name ∧ forall c, c ∈ trace.name -> Writable c := hback.2.2.2.2 _ _
  constructor
  · exact hback.1 report fun trace htrace => (hnames trace htrace).2
  · exact hback.2.1 report fun trace htrace => (hnames trace htrace).1

end Tmfqs
