import JsExport.Source.Span
import JsExport.Decl.TypeExpr
import JsExport.Report.Rule

/-
  Single reports.

  Key definitions include:
    * `Subject`
    * `Diagnostic`
    * `Diagnostic.text`
    * `Diagnostic.before`
-/

namespace JsExport

------------------------------------------------------------
-- Diagnostics
------------------------------------------------------------

/- A declaration that a report is about. -/
inductive Subject
| type (id : TypeId)
| member (id : MemberId)
deriving DecidableEq, Repr

/- The written form of a subject. -/
def Subject.text : Subject → String
| .type id => TypeId.text id
| .member id => MemberId.text id

/- A report: its rule, its words, its place, its subjects. -/
structure Diagnostic where
  rule : Rule
  message : String
  file : String
  span : Span
  subjects : List Subject
deriving DecidableEq, Repr

namespace Diagnostic

/- How much the report weighs. -/
def severity
    (d : Diagnostic) : Severity :=
  d.rule.severity

/- Whether the report is an error. -/
def isError
    (d : Diagnostic) : Bool :=
  d.severity == .error

/- Whether the report is a warning. -/
def isWarning
    (d : Diagnostic) : Bool :=
  d.severity == .warning

/- The report within the part of its file. -/
def lineText
    (d : Diagnostic) : String :=
  s!"Line {d.span.line}: {d.message}"

/- The report on a line of its own. -/
def text
    (d : Diagnostic) : String :=
  s!"{d.file}:{d.span.text}: " ++
    s!"{d.severity.text}: {d.message}"

/-
  Whether one report may come before another: by file, then
  line, then rank of the rule.
-/
def before
    (d e : Diagnostic) : Bool :=
  if d.file ≠ e.file then decide (d.file ≤ e.file)
  else if d.span.line ≠ e.span.line then
    decide (d.span.line ≤ e.span.line)
  else decide (d.rule.rank ≤ e.rule.rank)

end Diagnostic

end JsExport
