import JsExport.Program.Basic
import JsExport.Report.Breach
import JsExport.Report.Diagnostic

/-
  Breaches with their places.

  A finding is a breach, the place that is reported for it,
  and the declarations that it is about.

  Key definitions include:
    * `Finding`
    * `Finding.ofMember`
    * `Finding.ofType`
    * `Finding.diagnostic`
-/

namespace JsExport

------------------------------------------------------------
-- Findings
------------------------------------------------------------

/- A breach, where it is reported, and what it is about. -/
structure Finding where
  breach : Breach
  file : String
  span : Span
  subjects : List Subject
deriving DecidableEq, Repr

namespace Finding

/- A breach that is reported where a member is declared. -/
def ofMember
    (m : MemberNode)
    (breach : Breach) : Finding :=
  ⟨breach, m.owner.decl.file, m.decl.span, [.member m.id]⟩

/- A breach that is reported where a type is declared. -/
def ofType
    (t : TypeNode)
    (breach : Breach) : Finding :=
  ⟨breach, t.decl.file, t.decl.span, [.type t.id]⟩

/- A breach in the body of a member, at a place within. -/
def inBody
    (m : MemberNode)
    (span : Span)
    (breach : Breach) : Finding :=
  ⟨breach, m.owner.decl.file, span, [.member m.id]⟩

/- The finding with one more declaration that it is about. -/
def about
    (f : Finding)
    (s : Subject) : Finding :=
  { f with subjects := f.subjects ++ [s] }

/- The report of a finding. -/
def diagnostic
    (f : Finding) : Diagnostic :=
  ⟨f.breach.rule, f.breach.message, f.file, f.span,
    f.subjects⟩

end Finding

end JsExport
