import JsExport.Export.Surface

/-
  Everything that a program shows to JavaScript.

  The view of a program holds its types and members, their
  identities and the surfaces of its types.  The rules read
  it and look up nothing but the targets of references in
  bodies and signatures.

  Key definitions include:
    * `ExportView`
    * `Program.exportView`
    * `ExportView.comeTogetherAt`
    * `ExportView.clashTexts`
-/

namespace JsExport

------------------------------------------------------------
-- Views
------------------------------------------------------------

/-
  A program with the identities of its members and the
  surfaces of its types, supertypes first.
-/
structure ExportView where
  program : Program
  types : List TypeNode
  members : List MemberNode
  table : ExportTable
  surfaces : List Surface
deriving DecidableEq, Repr

/- The view of a program. -/
def Program.exportView
    (p : Program) : Except LookupError ExportView := do
  let table ← p.exportTable
  let members ← p.memberNodes
  let surfaces ← p.hierarchy.order.mapM (p.surface table)
  return ⟨p, p.typeNodes, members, table, surfaces⟩

namespace ExportView

/- The identity of a member, if it is exported. -/
def identity?
    (v : ExportView)
    (m : MemberNode) : Option JsIdentity :=
  v.table.identity? m.id

/- The surface of a type. -/
def surface
    (v : ExportView)
    (t : TypeId) : Except LookupError Surface :=
  match v.surfaces.find? (fun s => s.type.id == t) with
  | some s => .ok s
  | none => .error (.unknownType t)

/- The written form of a member. -/
def signature
    (v : ExportView)
    (m : MemberNode) : String :=
  Signature.text v.program m

/- A slot in quotes, with the type that exposes it. -/
def quoted
    (v : ExportView)
    (slot : Slot) : String :=
  Signature.quoted v.program slot.member slot.exposedBy

------------------------------------------------------------
-- Clashing Slots
------------------------------------------------------------

/-
  Whether two members come together at a type: it declares
  neither, and no type above it has both.
-/
def comeTogetherAt
    (v : ExportView)
    (t : TypeNode)
    (a b : MemberNode) : Bool :=
  let h := v.program.hierarchy
  a.owner.id != t.id && b.owner.id != t.id &&
    !(h.strictAncestry t.id).any (fun above =>
      h.isAncestorOrSelf a.owner.id above &&
        h.isAncestorOrSelf b.owner.id above)

/-
  The written forms of two slots that clash at a type.  Both
  name the type where they come together first.
-/
def clashTexts
    (v : ExportView)
    (t : TypeNode)
    (a b : Slot) : String × String :=
  let here :=
    if v.comeTogetherAt t a.member b.member then some t
    else none
  (Signature.quoted v.program a.member
      (a.exposedBy.or here),
    Signature.quoted v.program b.member
      (b.exposedBy.or here))

end ExportView

/-
  Whether a member stands for existing JavaScript, so that
  its name is not given by the program.
-/
def MemberNode.isNative
    (m : MemberNode) : Bool :=
  m.decl.isNative || m.owner.decl.isNative

end JsExport
