import JsExport.Export.View
import JsExport.Report.Finding

/-
  Advice on values that JavaScript cannot hold.

  The types in the signatures of exported members should be
  types whose values mean something in JavaScript.  Members
  that are exported themselves are looked at once; members
  that become visible through a type that inherits them are
  looked at once too, at the first such type.

  Key definitions include:
    * `Program.isUsable`
    * `Advice`
    * `ExportView.memberAdvice`
    * `ExportView.onlyExposedSlots`
    * `ExportView.usability`
-/

namespace JsExport

------------------------------------------------------------
-- Usable Types
------------------------------------------------------------

namespace Program

/-
  Whether JavaScript can hold the values of a type.  It has
  no 64-bit integers, knows the types of the program only
  with an annotation, knows no others, and an array of
  `Object` may hold anything.
-/
def isUsable
    (p : Program) : TypeExpr → Except LookupError Bool
| .void => .ok true
| .string => .ok true
| .object => .ok true
| .prim kind => .ok (!kind.isLong)
| .boxed kind => .ok (!kind.isLong)
| .external _ => .ok false
| .declared t => return (← p.type t).decl.flags.isUsable
| .array element _ =>
    if element.isObject then .ok false
    else p.isUsable element

end Program

------------------------------------------------------------
-- Advice On One Member
------------------------------------------------------------

/- Whether to give advice, and what silences it. -/
structure Advice where
  isOn : Bool
  key : String
deriving DecidableEq, Repr

namespace ExportView

/- Whether a member or its owner silences advice. -/
def isSilenced
    (key : String)
    (m : MemberNode) : Bool :=
  m.decl.suppresses key || m.owner.decl.suppresses key

/- Advice on the result of a method or constructor. -/
def resultAdvice
    (v : ExportView)
    (m : MemberNode)
    (exposedBy : Option TypeNode)
    (c : Callable) :
    Except LookupError (List Finding) := do
  if c.result.isVoid || (← v.program.isUsable c.result) then
    return []
  else
    return [Finding.ofMember m (.unusableResult
      (Signature.quoted v.program m exposedBy))]

/- Advice on one of their parameters. -/
def paramAdvice
    (v : ExportView)
    (key : String)
    (m : MemberNode)
    (exposedBy : Option TypeNode)
    (param : Param) :
    Except LookupError (List Finding) := do
  if param.suppressions.contains key ||
      (← v.program.isUsable param.type) then
    return []
  else
    return [Finding.ofMember m (.unusableParam param.name
      (Signature.quoted v.program m exposedBy))]

/- Advice on a field. -/
def fieldAdvice
    (v : ExportView)
    (m : MemberNode)
    (f : FieldDecl) :
    Except LookupError (List Finding) := do
  if ← v.program.isUsable f.type then
    return []
  else
    return [Finding.ofMember m
      (.unusableField m.decl.name
        m.owner.decl.qualifiedName)]

/-
  Advice on a member that its own type or another one
  exposes.
-/
def memberAdvice
    (v : ExportView)
    (key : String)
    (m : MemberNode)
    (exposedBy : Option TypeNode) :
    Except LookupError (List Finding) := do
  if isSilenced key m then
    return []
  else
    match m.decl.shape with
    | .field f => v.fieldAdvice m f
    | .callable c =>
        let result ← v.resultAdvice m exposedBy c
        let params ←
          c.params.mapM (v.paramAdvice key m exposedBy)
        return result ++ params.flatten

------------------------------------------------------------
-- Advice On Programs
------------------------------------------------------------

/- Whether a slot is exported by its type alone. -/
def isOnlyExposed
    (v : ExportView)
    (slot : Slot) : Bool :=
  slot.exposedBy.isSome && slot.identity.isSome &&
    !v.table.exports slot.member.id

/- The slots exported by their types alone, each once. -/
def onlyExposedSlots
    (v : ExportView) : List Slot :=
  Listing.firstBy (fun slot => slot.member.id)
    ((v.surfaces.flatMap (fun s => s.slots)).filter
      v.isOnlyExposed)

/- Advice on all members that JavaScript sees. -/
def usability
    (v : ExportView)
    (advice : Advice) :
    Except LookupError (List Finding) := do
  if advice.isOn then
    let exported := v.members.filter
      (fun m => v.table.exports m.id)
    let own ← exported.mapM (fun m =>
      v.memberAdvice advice.key m none)
    let exposed ← v.onlyExposedSlots.mapM (fun slot =>
      v.memberAdvice advice.key slot.member slot.exposedBy)
    return own.flatten ++ exposed.flatten
  else
    return []

end ExportView

end JsExport
