import JsExport.Report.Diagnostic
import JsExport.Listing.First
import JsExport.Listing.Stable

/-
  Logs of reports.

  A log keeps its reports in order and remembers whether an
  error is among them.  It is printed line by line, or by
  file with the errors of each file before its warnings.

  Key definitions include:
    * `Log`
    * `Log.push`
    * `Log.append`
    * `Log.sort`
    * `Log.blocks`
    * `Log.groupedText`
-/

namespace JsExport

------------------------------------------------------------
-- Logs
------------------------------------------------------------

/- Reports in order, and whether one is an error. -/
structure Log where
  entries : List Diagnostic
  hasErrors : Bool
deriving DecidableEq, Repr

namespace Log

/- The log without reports. -/
def empty : Log :=
  ⟨[], false⟩

/- Put a report at the end. -/
def push
    (log : Log)
    (d : Diagnostic) : Log :=
  ⟨log.entries ++ [d], log.hasErrors || d.isError⟩

/- The log of a list of reports. -/
def ofList
    (ds : List Diagnostic) : Log :=
  ds.foldl push empty

/- Put the reports of another log at the end. -/
def append
    (log more : Log) : Log :=
  ⟨log.entries ++ more.entries,
    log.hasErrors || more.hasErrors⟩

/- Order the reports by file, line and rule. -/
def sort
    (log : Log) : Log :=
  ⟨Listing.sorted Diagnostic.before log.entries,
    log.hasErrors⟩

/- The errors in order. -/
def errors
    (log : Log) : List Diagnostic :=
  log.entries.filter Diagnostic.isError

/- The warnings in order. -/
def warnings
    (log : Log) : List Diagnostic :=
  log.entries.filter Diagnostic.isWarning

/- Whether a warning is among the reports. -/
def hasWarnings
    (log : Log) : Bool :=
  log.entries.any Diagnostic.isWarning

/- A report pushed is the last of the log. -/
@[simp]
theorem entries_push
    (log : Log)
    (d : Diagnostic) :
    (log.push d).entries = log.entries ++ [d] :=
  rfl

/- The reports of an appended log come last. -/
@[simp]
theorem entries_append
    (log more : Log) :
    (log.append more).entries =
      log.entries ++ more.entries :=
  rfl

/- Sorting keeps all reports. -/
theorem entries_sort_perm
    (log : Log) :
    log.sort.entries.Perm log.entries :=
  Listing.sorted_perm _ _

/- Pushing one report after another appends them all. -/
theorem foldl_push
    (ds : List Diagnostic)
    (log : Log) :
    ds.foldl push log =
      ⟨log.entries ++ ds,
        log.hasErrors || ds.any Diagnostic.isError⟩ := by
  induction ds generalizing log with
  | nil => simp
  | cons d ds ih =>
      rw [List.foldl_cons, ih]
      simp [push, Bool.or_assoc]

/- The log of a list holds the list. -/
@[simp]
theorem entries_ofList
    (ds : List Diagnostic) :
    (ofList ds).entries = ds := by
  simp [ofList, foldl_push, empty]

/- The log of a list knows of the errors in it. -/
@[simp]
theorem hasErrors_ofList
    (ds : List Diagnostic) :
    (ofList ds).hasErrors = ds.any Diagnostic.isError := by
  simp [ofList, foldl_push, empty]

------------------------------------------------------------
-- Printing
------------------------------------------------------------

/- Every line with its end. -/
def linesText
    (lines : List String) : String :=
  String.join (lines.map (fun line => line ++ "\n"))

/- All reports, each on a line of its own. -/
def text
    (log : Log) : String :=
  linesText (log.entries.map Diagnostic.text)

/- The reports of one weight in one file. -/
structure Block where
  file : String
  severity : Severity
  entries : List Diagnostic
deriving DecidableEq, Repr

/- The files of the reports, in order. -/
def files
    (log : Log) : List String :=
  Listing.sortedOn id
    (Listing.distinct (log.entries.map (fun d => d.file)))

/- The reports of one weight in one file. -/
def block
    (log : Log)
    (file : String)
    (severity : Severity) : Block :=
  ⟨file, severity, log.entries.filter (fun d =>
    d.file == file && d.severity == severity)⟩

/-
  The parts of a grouped listing: files in order, errors
  before warnings, and no part without reports.
-/
def blocks
    (log : Log) : List Block :=
  (log.files.flatMap (fun file =>
    [log.block file .error, log.block file .warning])).filter
      (fun b => !b.entries.isEmpty)

/- The heading of the reports of one weight in a file. -/
def Block.heading
    (b : Block) : String :=
  match b.severity with
  | .error => s!"Errors in {b.file}"
  | .warning => s!"Warnings in {b.file}"

/- The lines of a block, the heading first. -/
def Block.lines
    (b : Block) : List String :=
  b.heading :: b.entries.map (fun d => "  " ++ d.lineText)

/- All reports, by file and weight. -/
def groupedText
    (log : Log) : String :=
  linesText (log.blocks.flatMap Block.lines)

end Log

end JsExport
