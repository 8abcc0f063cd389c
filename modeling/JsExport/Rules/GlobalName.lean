import JsExport.Export.View
import JsExport.Report.Finding

/-
  Names in JavaScript's global scope.

  A constructor is known there by the name of its type, a
  static member by that name and its own.  A name belongs to
  the first that claims it; types claim in program order,
  and fields of a type before its methods.

  Key definitions include:
    * `ExportView.globalName?`
    * `ExportView.claims`
    * `ExportView.globalNames`
-/

namespace JsExport

------------------------------------------------------------
-- Claims
------------------------------------------------------------

/- A member and the global name that it claims. -/
structure Claim where
  member : MemberNode
  name : String
deriving DecidableEq, Repr

namespace ExportView

/- The global name of a member that has one. -/
def globalName?
    (v : ExportView)
    (m : MemberNode) : Option String :=
  match v.identity? m with
  | none => none
  | some identity =>
      let owner := m.owner.decl.globalName
      if m.decl.isNative then none
      else if identity.role = .constructor then some owner
      else if m.decl.isStatic then
        some s!"{owner}.{identity.name}"
      else none

/- The members of a type, fields first. -/
def fieldsFirst
    (v : ExportView)
    (t : TypeNode) : List MemberNode :=
  let members := v.program.declaredBy t
  members.filter (fun m => m.decl.isField) ++
    members.filter (fun m => m.decl.isCallable)

/- All claims of global names, in order. -/
def claims
    (v : ExportView) : List Claim :=
  (v.types.filter (fun t => !t.decl.isNative)).flatMap
    (fun t => (v.fieldsFirst t).filterMap (fun m =>
      (v.globalName? m).map (fun name => ⟨m, name⟩)))

------------------------------------------------------------
-- Reports
------------------------------------------------------------

/-
  The claims of names that are taken, given the names taken
  before.
-/
def lateClaims
    (taken : List String) : List Claim → List Claim
| [] => []
| c :: rest =>
    if c.name ∈ taken then c :: lateClaims taken rest
    else lateClaims (c.name :: taken) rest

/- The reports on global names claimed again. -/
def globalNames
    (v : ExportView) : List Finding :=
  (lateClaims [] v.claims).map (fun c =>
    Finding.ofMember c.member
      (.globalNameClash (v.signature c.member) c.name))

end ExportView

end JsExport
