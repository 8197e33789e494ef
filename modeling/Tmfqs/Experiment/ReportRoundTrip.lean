import Tmfqs.Experiment.Report
import Tmfqs.Library.Csv
import Tmfqs.Library.Json

/-!
# Reading reports back

Both files of a report hold all of it: the JSON text is one value, from which the report is
read back, and the rows of the CSV text are as well.
-/

namespace Tmfqs

open Library Json Csv

variable {R : Type}

/-- The printed numbers are made of the characters of numbers, and tell the numbers apart. -/
structure Prints (printed : R -> List Char) (readDouble : List Char -> Option R) : Prop where
  ne_nil : forall x, printed x ≠ []
  numeric : forall x c, c ∈ printed x -> isNumeric c = true
  reads : forall x, readDouble (printed x) = some x

/-!
## Parts of a text
-/

theorem numeric_decimal {n : Nat} {c : Char} (hc : c ∈ decimal n) : isNumeric c = true := by
  rw [isNumeric, isDigit_of_mem_decimal hc]
  rfl

theorem reads_decimal (n : Nat) : Reads (decimal n) (.number (decimal n)) :=
  reads_number (decimal_ne_nil n) fun _ => numeric_decimal

/-- The characters a JSON string may hold, escaped or not. -/
def Writable (c : Char) : Prop :=
  32 ≤ c.toNat ∨ c = '\n' ∨ c = '\r' ∨ c = '\t'

theorem readsString_jsonEscape {name : List Char} (hname : forall c, c ∈ name -> Writable c) :
    ReadsString (jsonEscape name) name := by
  induction name with
  | nil => exact readsString_nil
  | cons c rest ih =>
      have hrest := ih fun c' hc' => hname c' (List.mem_cons_of_mem c hc')
      rw [jsonEscape, List.flatMap_cons, ← jsonEscape]
      by_cases hescape : c = '\\'
      · rw [if_pos hescape, hescape]
        exact hrest.escaped rfl
      by_cases hquote : c = '"'
      · rw [if_neg hescape, if_pos hquote, hquote]
        exact hrest.escaped rfl
      by_cases hnewline : c = '\n'
      · rw [if_neg hescape, if_neg hquote, if_pos hnewline, hnewline]
        exact hrest.escaped rfl
      by_cases hreturn : c = '\r'
      · rw [if_neg hescape, if_neg hquote, if_neg hnewline, if_pos hreturn, hreturn]
        exact hrest.escaped rfl
      by_cases htab : c = '\t'
      · rw [if_neg hescape, if_neg hquote, if_neg hnewline, if_neg hreturn, if_pos htab, htab]
        exact hrest.escaped rfl
      · rw [if_neg hescape, if_neg hquote, if_neg hnewline, if_neg hreturn, if_neg htab]
        have hcontrol : 32 ≤ c.toNat := by
          rcases hname c List.mem_cons_self with h | h | h | h
          · exact h
          · exact absurd h hnewline
          · exact absurd h hreturn
          · exact absurd h htab
        exact hrest.plain hquote hescape hcontrol

theorem readsString_strategy (kind : StorageStrategyKind) :
    ReadsString (StorageStrategyRegistry.toString kind)
      (StorageStrategyRegistry.toString kind) := by
  cases kind <;> exact readsString_of_all rfl

def natOfText (text : List Char) : Nat :=
  Nat.ofDigitChars 10 text 0

theorem natOfText_decimal (n : Nat) : natOfText (decimal n) = n :=
  ofDigitChars_decimal n

def natAt (key : List Char) (value : Json) : Option Nat :=
  ((value.member key).bind asNumber).map natOfText

theorem natAt_eq {key : List Char} {value : Json} {n : Nat}
    (h : value.member key = some (.number (decimal n))) : natAt key value = some n := by
  rw [natAt, h]
  exact congrArg some (natOfText_decimal n)

def numberAt (readDouble : List Char -> Option R) (key : List Char) (value : Json) : Option R :=
  ((value.member key).bind asNumber).bind readDouble

theorem cell_of_numeric {text : List Char} (h : forall c, c ∈ text -> isNumeric c = true) :
    Cell text := by
  constructor
  · intro hc
    have hfalse := h _ hc
    cases hfalse
  · intro hc
    have hfalse := h _ hc
    cases hfalse

theorem cell_decimal (n : Nat) : Cell (decimal n) :=
  cell_of_numeric fun _ => numeric_decimal

section Numbers

variable {printed : R -> List Char} {readDouble : List Char -> Option R}
  (hprinted : Prints printed readDouble)

include hprinted

theorem reads_printed (x : R) : Reads (printed x) (.number (printed x)) :=
  reads_number (hprinted.ne_nil x) (hprinted.numeric x)

theorem numberAt_eq {key : List Char} {value : Json} {x : R}
    (h : value.member key = some (.number (printed x))) :
    numberAt readDouble key value = some x := by
  rw [numberAt, h]
  exact hprinted.reads x

theorem cell_printed (x : R) : Cell (printed x) :=
  cell_of_numeric (hprinted.numeric x)

end Numbers

def strategyOfName (name : List Char) : Option StorageStrategyKind :=
  [.dense, .blosc, .zfp, .auto].find? fun kind => StorageStrategyRegistry.toString kind == name

theorem strategyOfName_toString (kind : StorageStrategyKind) :
    strategyOfName (StorageStrategyRegistry.toString kind) = some kind := by
  cases kind <;> decide

namespace TimedReport

/-!
## The JSON text
-/

section Text

variable {printed : R -> List Char} {readDouble : List Char -> Option R}
  (hprinted : Prints printed readDouble)

def operationValue (printed : R -> List Char) (op : OperationTrace R) : Json :=
  .object
    [("index".toList, .number (decimal op.index)), ("name".toList, .string op.name),
      ("seconds".toList, .number (printed op.seconds))]

def reportValue (printed : R -> List Char) (report : TimedReport R) : Json :=
  .object
    [("qubits".toList, .number (decimal report.qubits)),
      ("operation_count".toList, .number (decimal report.operationCount)),
      ("strategy".toList, .string (StorageStrategyRegistry.toString report.strategy)),
      ("execution_seconds".toList, .number (printed report.executionSeconds)),
      ("operations".toList, .array (report.operations.map (operationValue printed)))]

def operationText (printed : R -> List Char) (op : OperationTrace R) : List Char :=
  "\n    ".toList ++ '\x7b' :: keyText [] "index".toList ([' '] ++ decimal op.index ++ ([] ++
    ',' :: keyText [' '] "name".toList ([' '] ++ '"' :: (jsonEscape op.name ++ ['"']) ++ ([] ++
    ',' :: keyText [' '] "seconds".toList ([' '] ++ printed op.seconds ++ ([] ++ ['\x7d']))))))

theorem operationJson_eq (printed : R -> List Char) (i : Nat) (op : OperationTrace R) :
    operationJson printed i op =
      (if i = 0 then [] else [',']) ++ operationText printed op := by
  unfold operationJson operationText
  by_cases hi : i = 0
  · rw [if_pos hi, if_pos hi]
    simp only [keyText, String.reduceToList, List.append_assoc, List.cons_append, List.nil_append]
  · rw [if_neg hi, if_neg hi]
    simp only [keyText, String.reduceToList, List.append_assoc, List.cons_append, List.nil_append]

def listText (printed : R -> List Char) (ops : List (OperationTrace R)) : List Char :=
  '[' :: ((ops.zipIdx.flatMap fun p => operationJson printed p.2 p.1) ++
    ((if ops.isEmpty then [] else "\n  ".toList) ++ [']']))

def reportText (printed : R -> List Char) (report : TimedReport R) : List Char :=
  '\x7b' :: keyText "\n  ".toList "qubits".toList ([' '] ++ decimal report.qubits ++ ([] ++
    ',' :: keyText "\n  ".toList "operation_count".toList ([' '] ++
      decimal report.operationCount ++ ([] ++
    ',' :: keyText "\n  ".toList "strategy".toList ([' '] ++
      '"' :: (StorageStrategyRegistry.toString report.strategy ++ ['"']) ++ ([] ++
    ',' :: keyText "\n  ".toList "execution_seconds".toList ([' '] ++
      printed report.executionSeconds ++ ([] ++
    ',' :: keyText "\n  ".toList "operations".toList ([' '] ++
      listText printed report.operations ++ ("\n".toList ++ ['\x7d']))))))))))

theorem toJson_eq (printed : R -> List Char) (report : TimedReport R) :
    toJson printed report = reportText printed report ++ "\n".toList := by
  unfold toJson reportText listText
  simp only [keyText, String.reduceToList, List.append_assoc, List.cons_append, List.nil_append]

include hprinted

theorem reads_operationText {op : OperationTrace R} (hname : forall c, c ∈ op.name -> Writable c) :
    Reads (operationText printed op) (operationValue printed op) := by
  have hspace : Spaces [' '] := spaces_of_all rfl
  refine Reads.spaces ?_ (spaces_of_all rfl)
  apply reads_object
  apply readsMembers_cons spaces_nil (readsString_of_all rfl) ((reads_decimal _).spaces hspace)
    spaces_nil
  apply readsMembers_cons hspace (readsString_of_all rfl)
    ((reads_string (readsString_jsonEscape hname)).spaces hspace) spaces_nil
  exact readsMembers_last hspace (readsString_of_all rfl)
    ((reads_printed hprinted _).spaces hspace) spaces_nil

theorem reads_operations {ops : List (OperationTrace R)} :
    forall (op : OperationTrace R) (k : Nat), 0 < k ->
      (forall op', op' ∈ op :: ops -> forall c, c ∈ op'.name -> Writable c) ->
      ReadsItems (operationText printed op ++
          ((ops.zipIdx k).flatMap (fun p => operationJson printed p.2 p.1) ++ "\n  ]".toList))
        ((op :: ops).map (operationValue printed)) := by
  induction ops with
  | nil =>
      intro op k _ hnames
      have hline : Spaces "\n  ".toList := spaces_of_all rfl
      exact readsItems_last (reads_operationText hprinted (hnames op List.mem_cons_self)) hline
  | cons op' rest ih =>
      intro op k hk hnames
      have hmore := ih op' (k + 1) (by omega)
        fun op'' hop => hnames op'' (List.mem_cons_of_mem op hop)
      have hcons := readsItems_cons (reads_operationText hprinted (hnames op List.mem_cons_self))
        spaces_nil hmore
      rw [List.zipIdx_cons, List.flatMap_cons, operationJson_eq, if_neg (by omega)]
      simp only [List.append_assoc, List.cons_append, List.nil_append] at hcons ⊢
      exact hcons

theorem reads_listText {ops : List (OperationTrace R)}
    (hnames : forall op, op ∈ ops -> forall c, c ∈ op.name -> Writable c) :
    Reads (listText printed ops) (.array (ops.map (operationValue printed))) := by
  rw [listText]
  cases ops with
  | nil => exact reads_array_nil
  | cons op rest =>
      have hitems := reads_operations hprinted op 1 Nat.one_pos hnames
      apply reads_array
      rw [List.zipIdx_cons, List.flatMap_cons, operationJson_eq, if_pos rfl, List.isEmpty_cons,
        if_neg Bool.false_ne_true]
      simp only [List.append_assoc, List.nil_append, String.reduceToList, List.cons_append]
        at hitems ⊢
      exact hitems

theorem reads_reportText {report : TimedReport R}
    (hnames : forall op, op ∈ report.operations -> forall c, c ∈ op.name -> Writable c) :
    Reads (reportText printed report) (reportValue printed report) := by
  have hspace : Spaces [' '] := spaces_of_all rfl
  have hline : Spaces "\n  ".toList := spaces_of_all rfl
  apply reads_object
  apply readsMembers_cons hline (readsString_of_all rfl) ((reads_decimal _).spaces hspace)
    spaces_nil
  apply readsMembers_cons hline (readsString_of_all rfl) ((reads_decimal _).spaces hspace)
    spaces_nil
  apply readsMembers_cons hline (readsString_of_all rfl)
    ((reads_string (readsString_strategy _)).spaces hspace) spaces_nil
  apply readsMembers_cons hline (readsString_of_all rfl) ((reads_printed hprinted _).spaces hspace)
    spaces_nil
  exact readsMembers_last hline (readsString_of_all rfl)
    ((reads_listText hprinted hnames).spaces hspace) (spaces_of_all rfl)

theorem read_toJson {report : TimedReport R}
    (hnames : forall op, op ∈ report.operations -> forall c, c ∈ op.name -> Writable c) :
    read (toJson printed report) = some (reportValue printed report) := by
  rw [toJson_eq]
  exact read_of_reads (reads_reportText hprinted hnames) (spaces_of_all rfl)

/-!
## The report of a JSON text
-/

variable (readDouble) in
def traceOfJson (value : Json) : Option (OperationTrace R) := do
  let index <- natAt "index".toList value
  let name <- (value.member "name".toList).bind asString
  let seconds <- numberAt readDouble "seconds".toList value
  pure { index := index, name := name, seconds := seconds }

variable (readDouble) in
def reportOfJson (value : Json) : Option (TimedReport R) := do
  let qubits <- natAt "qubits".toList value
  let count <- natAt "operation_count".toList value
  let name <- (value.member "strategy".toList).bind asString
  let kind <- strategyOfName name
  let seconds <- numberAt readDouble "execution_seconds".toList value
  let items <- (value.member "operations".toList).bind asArray
  let operations <- items.mapM (traceOfJson readDouble)
  pure
    { qubits := qubits
      operationCount := count
      strategy := kind
      executionSeconds := seconds
      operations := operations }

theorem traceOfJson_operationValue (op : OperationTrace R) :
    traceOfJson readDouble (operationValue printed op) = some op := by
  have hname : (operationValue printed op).member "name".toList = some (.string op.name) := rfl
  rw [traceOfJson, natAt_eq rfl, hname, numberAt_eq hprinted rfl]
  rfl

theorem mapM_traceOfJson (ops : List (OperationTrace R)) :
    (ops.map (operationValue printed)).mapM (traceOfJson readDouble) = some ops := by
  induction ops with
  | nil => rfl
  | cons op rest ih =>
      rw [List.map_cons, List.mapM_cons, traceOfJson_operationValue hprinted op, ih]
      rfl

theorem reportOfJson_reportValue (report : TimedReport R) :
    reportOfJson readDouble (reportValue printed report) = some report := by
  have hstrategy : (reportValue printed report).member "strategy".toList =
      some (.string (StorageStrategyRegistry.toString report.strategy)) := rfl
  have hoperations : (reportValue printed report).member "operations".toList =
      some (.array (report.operations.map (operationValue printed))) := rfl
  rw [reportOfJson, natAt_eq rfl, natAt_eq rfl, hstrategy, numberAt_eq hprinted rfl, hoperations]
  simp only [Option.bind_some, asString, asArray, Option.bind_eq_bind, strategyOfName_toString,
    mapM_traceOfJson hprinted]
  rfl

theorem reportOfJson_toJson {report : TimedReport R}
    (hnames : forall op, op ∈ report.operations -> forall c, c ∈ op.name -> Writable c) :
    (read (toJson printed report)).bind (reportOfJson readDouble) = some report := by
  rw [read_toJson hprinted hnames, Option.bind_some, reportOfJson_reportValue hprinted]

end Text

/-!
## The rows of a CSV text
-/

section Rows

variable {printed : R -> List Char} {readDouble : List Char -> Option R}
  (hprinted : Prints printed readDouble)

theorem cell_strategy (kind : StorageStrategyKind) :
    Cell (StorageStrategyRegistry.toString kind) := by
  cases kind <;> exact ⟨by decide, by decide⟩

def startCells (printed : R -> List Char) (report : TimedReport R) : List (List Char) :=
  [decimal report.qubits, StorageStrategyRegistry.toString report.strategy,
    decimal report.operationCount, printed report.executionSeconds]

def traceCells (printed : R -> List Char) (op : OperationTrace R) : List (List Char) :=
  [decimal op.index, op.name, printed op.seconds]

def rows (printed : R -> List Char) (report : TimedReport R) : List (List (List Char)) :=
  if report.operations.isEmpty then
    [startCells printed report ++ [[], [], []]]
  else
    report.operations.map fun op => startCells printed report ++ traceCells printed op

theorem toCsv_eq (printed : R -> List Char) (report : TimedReport R) :
    toCsv printed report =
      csvHeader ++ (rows printed report).flatMap fun row => rowText row ++ ['\n'] := by
  unfold toCsv rows
  by_cases hempty : report.operations.isEmpty = true
  · rw [if_pos hempty, if_pos hempty]
    simp only [List.flatMap_cons, List.flatMap_nil, rowText, startCells, csvStart,
      String.reduceToList, List.cons_append, List.nil_append, List.append_assoc,
      List.intercalate_cons_cons, List.intercalate_singleton, List.append_nil]
  · rw [if_neg hempty, if_neg hempty, List.flatMap_map]
    simp only [rowText, startCells, traceCells, csvStart, String.reduceToList, List.cons_append,
      List.nil_append, List.append_assoc, List.intercalate_cons_cons, List.intercalate_singleton]

/-!
## The report of a CSV text
-/

variable (readDouble) in
def traceOfCells : List (List Char) -> Option (OperationTrace R)
  | [index, name, seconds] =>
      (readDouble seconds).map fun x => { index := natOfText index, name := name, seconds := x }
  | _ => none

variable (readDouble) in
/-- The operations of the rows; a report without one has a row of its own. -/
def tracesOfCells (cells : List (List (List Char))) : Option (List (OperationTrace R)) :=
  if cells = [[[], [], []]] then some [] else cells.mapM (traceOfCells readDouble)

variable (readDouble) in
def reportOfRows : List (List (List Char)) -> Option (TimedReport R)
  | (qubits :: strategy :: count :: seconds :: cells) :: more => do
      let kind <- strategyOfName strategy
      let x <- readDouble seconds
      let operations <- tracesOfCells readDouble (cells :: more.map fun row => row.drop 4)
      pure
        { qubits := natOfText qubits
          operationCount := natOfText count
          strategy := kind
          executionSeconds := x
          operations := operations }
  | _ => none

variable (readDouble) in
def reportOfCsv (text : List Char) : Option (TimedReport R) :=
  reportOfRows readDouble
    (((text.splitOn '\n').drop 1).dropLast.map fun line => line.splitOn ',')

variable {report : TimedReport R}

def Tabular (report : TimedReport R) : Prop :=
  forall op, op ∈ report.operations -> Cell op.name

include hprinted

theorem cells_rows (hreport : Tabular report) :
    forall row, row ∈ rows printed report -> row ≠ [] ∧ forall cell, cell ∈ row -> Cell cell := by
  have hstart : forall cell, cell ∈ startCells printed report -> Cell cell := by
    simp only [startCells, List.forall_mem_cons, List.not_mem_nil, false_implies, implies_true,
      and_true]
    exact ⟨cell_decimal _, cell_strategy _, cell_decimal _, cell_printed hprinted _⟩
  have hrow {more : List (List Char)} (hmore : forall cell, cell ∈ more -> Cell cell) :
      startCells printed report ++ more ≠ [] ∧
        forall cell, cell ∈ startCells printed report ++ more -> Cell cell :=
    ⟨List.cons_ne_nil _ _, fun cell hc => (List.mem_append.mp hc).elim (hstart cell) (hmore cell)⟩
  intro row hmem
  rw [rows] at hmem
  split at hmem
  · rw [List.mem_singleton.mp hmem]
    apply hrow
    simp only [List.forall_mem_cons, List.not_mem_nil, false_implies, implies_true, and_true]
    exact ⟨cell_nil, cell_nil, cell_nil⟩
  · obtain ⟨op, hop, rfl⟩ := List.mem_map.mp hmem
    apply hrow
    simp only [traceCells, List.forall_mem_cons, List.not_mem_nil, false_implies, implies_true,
      and_true]
    exact ⟨cell_decimal _, hreport op hop, cell_printed hprinted _⟩

theorem rows_of_toCsv (hreport : Tabular report) :
    ((((toCsv printed report).splitOn '\n').drop 1).dropLast.map fun line => line.splitOn ',') =
      rows printed report := by
  have hcells := cells_rows hprinted hreport
  have hheader : '\n' ∉ csvHeader.dropLast := by decide
  have hend : csvHeader = csvHeader.dropLast ++ ['\n'] := by decide
  have hlines : ((rows printed report).flatMap fun row => rowText row ++ ['\n']).splitOn '\n' =
      (rows printed report).map rowText ++ [[]] := by
    rw [← splitOn_lines, List.flatMap_map]
    intro line hline
    obtain ⟨row, hrow, rfl⟩ := List.mem_map.mp hline
    exact newline_rowText (hcells row hrow).2
  rw [toCsv_eq, hend, List.append_assoc, List.singleton_append,
    List.splitOn_append_cons_self_of_not_mem hheader, hlines, List.drop_one, List.tail_cons,
    List.dropLast_concat, List.map_map]
  refine (List.map_congr_left fun row hrow => ?_).trans (List.map_id _)
  exact splitOn_rowText (hcells row hrow).1 (hcells row hrow).2

theorem traceOfCells_traceCells (op : OperationTrace R) :
    traceOfCells readDouble (traceCells printed op) = some op := by
  rw [traceCells, traceOfCells, hprinted.reads, natOfText_decimal]
  rfl

theorem mapM_traceOfCells (ops : List (OperationTrace R)) :
    (ops.map (traceCells printed)).mapM (traceOfCells readDouble) = some ops := by
  induction ops with
  | nil => rfl
  | cons op rest ih =>
      rw [List.map_cons, List.mapM_cons, traceOfCells_traceCells hprinted op, ih]
      rfl

theorem reportOfRows_cons (cells : List (List Char)) (more : List (List (List Char))) :
    reportOfRows readDouble ((startCells printed report ++ cells) :: more) =
      (tracesOfCells readDouble (cells :: more.map fun row => row.drop 4)).map
        fun operations => { report with operations := operations } := by
  simp only [startCells, List.cons_append, List.nil_append, reportOfRows, strategyOfName_toString,
    hprinted.reads, Option.bind_eq_bind, Option.bind_some, natOfText_decimal]
  cases tracesOfCells readDouble (cells :: more.map fun row => row.drop 4) <;> rfl

theorem reportOfRows_rows : reportOfRows readDouble (rows printed report) = some report := by
  by_cases hempty : report.operations = []
  · rw [rows, hempty, List.isEmpty_nil, if_pos rfl, reportOfRows_cons hprinted, List.map_nil,
      tracesOfCells, if_pos rfl, Option.map_some, ← hempty]
  · obtain ⟨op, rest, hops⟩ := List.exists_cons_of_ne_nil hempty
    have hne : traceCells printed op :: rest.map (traceCells printed) ≠ [[[], [], []]] := by
      intro h
      rw [traceCells, List.cons.injEq, List.cons.injEq] at h
      exact decimal_ne_nil op.index h.1.1
    have hdrop : (rest.map fun op => startCells printed report ++ traceCells printed op).map
        (fun row => row.drop 4) = rest.map (traceCells printed) := by
      rw [List.map_map]
      rfl
    rw [rows, hops, List.isEmpty_cons, if_neg Bool.false_ne_true, List.map_cons,
      reportOfRows_cons hprinted, hdrop, tracesOfCells, if_neg hne, ← List.map_cons,
      mapM_traceOfCells hprinted, Option.map_some, ← hops]

theorem reportOfCsv_toCsv (hreport : Tabular report) :
    reportOfCsv readDouble (toCsv printed report) = some report := by
  rw [reportOfCsv, rows_of_toCsv hprinted hreport, reportOfRows_rows hprinted]

end Rows

end TimedReport

end Tmfqs
