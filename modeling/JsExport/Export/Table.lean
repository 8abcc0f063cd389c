import JsExport.Export.Identity
import JsExport.Program.Basic

/-
  The identities of all members of a program.

  Types are taken with supertypes first, so the identities
  of all methods that a member overrides are known before
  its own.

  Key definitions include:
    * `ExportTable`
    * `ExportTable.identity?`
    * `ExportTable.inherited?`
    * `ExportTable.resolve?`
    * `ExportTable.addType`
    * `Program.exportTable`
-/

namespace JsExport

------------------------------------------------------------
-- Tables
------------------------------------------------------------

/- The identity of each member, by number. -/
abbrev ExportTable :=
  List (Option JsIdentity)

namespace ExportTable

/- The identity of a member, if it is exported. -/
def identity?
    (table : ExportTable)
    (m : MemberId) : Option JsIdentity :=
  table[m]?.join

/- Whether a member is exported. -/
def exports
    (table : ExportTable)
    (m : MemberId) : Bool :=
  (table.identity? m).isSome

------------------------------------------------------------
-- Resolution
------------------------------------------------------------

/-
  The identity that a member inherits: the first exported
  method that it overrides, nearest type first, gives it.
-/
def inherited?
    (table : ExportTable)
    (above : List MemberNode)
    (m : MemberDecl) : Option JsIdentity :=
  let overridden := above.filter (fun n =>
    n.decl.isOverridable && n.decl.sharesSignature m)
  (overridden.findSome?
    (fun n => table.identity? n.id)).bind
      (fun identity => identity.passedTo? m)

/-
  The identity of a member of a type, given the members of
  all types above.
-/
def resolve?
    (table : ExportTable)
    (above : List MemberNode)
    (m : MemberNode) : Option JsIdentity :=
  if m.decl.isDirectlyExported m.owner.decl then
    some (JsIdentity.natural m.decl)
  else if m.decl.mayInheritExport then
    table.inherited? above m.decl
  else
    none

/-
  The table with the identities of some members, given all
  members of the types above them.
-/
def addMembers
    (table : ExportTable)
    (above members : List MemberNode) : ExportTable :=
  members.foldl
    (fun (acc : ExportTable) m =>
      acc.set m.id (acc.resolve? above m)) table

/- The table with the identities of the members of a type. -/
def addType
    (p : Program)
    (table : ExportTable)
    (t : TypeId) : Except LookupError ExportTable := do
  let node ← p.type t
  let lineage ← p.lineage t
  let above := lineage.tail.flatMap p.declaredBy
  return table.addMembers above (p.declaredBy node)

end ExportTable

namespace Program

/- The identities of all members of a program. -/
def exportTable
    (p : Program) : Except LookupError ExportTable :=
  p.hierarchy.order.foldlM (ExportTable.addType p)
    (List.replicate p.members.length none)

end Program

end JsExport
