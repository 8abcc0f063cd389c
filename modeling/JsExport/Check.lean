import JsExport.Report.Log
import JsExport.Rules.NameClash
import JsExport.Rules.GlobalName
import JsExport.Rules.Delegation
import JsExport.Rules.Rename
import JsExport.Rules.AccessorShape
import JsExport.Rules.Property
import JsExport.Rules.Contract
import JsExport.Rules.Usability

/-
  The check of a program.

  The rules fall into four families: names, properties,
  contracts of types, and advice on usability.  The reports
  of all families are put in order by file, line and rule.

  Key definitions include:
    * `Settings`
    * `ExportView.namingFindings`
    * `ExportView.propertyFindings`
    * `Outcome`
    * `Program.check`
    * `Draft.check`
-/

namespace JsExport

------------------------------------------------------------
-- Settings
------------------------------------------------------------

/- What to report and when to be content. -/
structure Settings where
  advice : Advice
  warningsAsErrors : Bool
deriving DecidableEq, Repr

/- Advice is given unless silenced, and does not fail. -/
def Settings.standard : Settings :=
  ⟨⟨true, "unusable-by-js"⟩, false⟩

------------------------------------------------------------
-- Families Of Rules
------------------------------------------------------------

namespace ExportView

/- The reports on names. -/
def namingFindings
    (v : ExportView) :
    Except LookupError (List Finding) := do
  let constructors ← v.constructors
  return v.nameClashes ++ v.globalNames ++ constructors ++
    v.renames

/- The reports on properties. -/
def propertyFindings
    (v : ExportView) :
    Except LookupError (List Finding) := do
  let superAccessors ← v.superAccessors
  return v.accessorShapes ++ v.properties ++ superAccessors

end ExportView

/- The log of a list of findings. -/
def Log.ofFindings
    (findings : List Finding) : Log :=
  Log.ofList (findings.map Finding.diagnostic)

------------------------------------------------------------
-- Checks
------------------------------------------------------------

/- The reports of a check, and how warnings count. -/
structure Outcome where
  log : Log
  warningsAsErrors : Bool
deriving DecidableEq, Repr

/- Whether the check is content. -/
def Outcome.succeeds
    (o : Outcome) : Bool :=
  !o.log.hasErrors &&
    !(o.warningsAsErrors && o.log.hasWarnings)

/- Check a program. -/
def Program.check
    (p : Program)
    (settings : Settings) :
    Except LookupError Outcome := do
  let v ← p.exportView
  let naming ← v.namingFindings
  let property ← v.propertyFindings
  let contract ← p.contractFindings
  let usability ← v.usability settings.advice
  let log :=
    (((Log.ofFindings naming).append
      (Log.ofFindings property)).append
        (Log.ofFindings contract)).append
          (Log.ofFindings usability)
  return ⟨log.sort, settings.warningsAsErrors⟩

------------------------------------------------------------
-- Checks Of Drafts
------------------------------------------------------------

/- Why there is no outcome. -/
inductive CheckError
| malformed (defect : Defect)
| lookup (error : LookupError)
deriving DecidableEq, Repr

/- The message of a check without outcome. -/
def CheckError.message : CheckError → String
| .malformed defect =>
    s!"malformed program: {defect.message}"
| .lookup error => error.message

/- The program of a draft, to be checked. -/
def Draft.program
    (p : Draft) : Except CheckError Program :=
  p.build.mapError CheckError.malformed

/- Check the program of a draft. -/
def Draft.check
    (p : Draft)
    (settings : Settings) : Except CheckError Outcome := do
  let program ← p.program
  (program.check settings).mapError CheckError.lookup

end JsExport
