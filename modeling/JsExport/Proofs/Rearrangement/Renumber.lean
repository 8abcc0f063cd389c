import JsExport.Export.Identity
import JsExport.Report.Finding

/-
  Declarations under other numbers of members.

  A member is referred to by number in delegations and in
  calls through `super`.  Renumbering these references
  changes nothing else of a declaration, and so nothing that
  the rules read off the declaration alone.

  Main declarations:
    * `MemberDecl.renumber`
    * `Finding.renumber`
-/

namespace JsExport

variable (number : MemberId → MemberId)

------------------------------------------------------------
-- Renumbering
------------------------------------------------------------

/- The call with another number for its target. -/
def SuperCall.renumber
    (c : SuperCall) : SuperCall :=
  { c with target := number c.target }

/- The body with renumbered references. -/
def Body.renumber
    (b : Body) : Body :=
  { b with
    delegatesTo := b.delegatesTo.map number
    superCalls := b.superCalls.map (.renumber number) }

/- The method or constructor with renumbered references. -/
def Callable.renumber
    (c : Callable) : Callable :=
  { c with body := c.body.renumber number }

def MemberShape.renumber : MemberShape → MemberShape
| .callable c => .callable (c.renumber number)
| .field f => .field f

/- The member with renumbered references. -/
def MemberDecl.renumber
    (m : MemberDecl) : MemberDecl :=
  { m with shape := m.shape.renumber number }

/- The subject under another number, if it is a member. -/
def Subject.renumber : Subject → Subject
| .type t => .type t
| .member m => .member (number m)

/- The finding about the same members under new numbers. -/
def Finding.renumber
    (f : Finding) : Finding :=
  { f with subjects := f.subjects.map (.renumber number) }

------------------------------------------------------------
-- What Renumbering Keeps
------------------------------------------------------------

namespace MemberDecl

variable (m : MemberDecl)

@[simp]
theorem callable?_renumber :
    (m.renumber number).callable? =
      m.callable?.map (.renumber number) := by
  unfold callable? renumber
  cases m.shape <;> rfl

@[simp]
theorem field?_renumber :
    (m.renumber number).field? = m.field? := by
  unfold field? renumber
  cases m.shape <;> rfl

@[simp]
theorem isField_renumber :
    (m.renumber number).isField = m.isField := by
  unfold isField
  rw [field?_renumber]

@[simp]
theorem isCallable_renumber :
    (m.renumber number).isCallable = m.isCallable := by
  unfold isCallable
  rw [callable?_renumber, Option.isSome_map]

@[simp]
theorem isConstructor_renumber :
    (m.renumber number).isConstructor =
      m.isConstructor := by
  unfold isConstructor
  rw [callable?_renumber, Option.any_map]
  rfl

@[simp]
theorem isAbstract_renumber :
    (m.renumber number).isAbstract = m.isAbstract := by
  unfold isAbstract
  rw [callable?_renumber, Option.any_map]
  rfl

@[simp]
theorem isOverridable_renumber :
    (m.renumber number).isOverridable =
      m.isOverridable := by
  unfold isOverridable
  rw [isCallable_renumber, isConstructor_renumber]
  rfl

@[simp]
theorem signature?_renumber :
    (m.renumber number).signature? = m.signature? := by
  unfold signature?
  rw [callable?_renumber, Option.map_map]
  rfl

@[simp]
theorem sharesSignature_renumber
    (n : MemberDecl) :
    (m.renumber number).sharesSignature
        (n.renumber number) =
      m.sharesSignature n := by
  unfold sharesSignature
  rw [signature?_renumber, signature?_renumber]

@[simp]
theorem delegatesTo_renumber :
    (m.renumber number).delegatesTo =
      m.delegatesTo.map number := by
  unfold delegatesTo
  rw [callable?_renumber]
  cases m.callable? <;> rfl

@[simp]
theorem superCalls_renumber :
    (m.renumber number).superCalls =
      m.superCalls.map (.renumber number) := by
  unfold superCalls
  rw [callable?_renumber]
  cases m.callable? <;> rfl

@[simp]
theorem instanceTests_renumber :
    (m.renumber number).instanceTests =
      m.instanceTests := by
  unfold instanceTests
  rw [callable?_renumber, Option.map_map]
  rfl

------------------------------------------------------------
-- Export
------------------------------------------------------------

@[simp]
theorem exportedBy_renumber
    (owner : TypeDecl) :
    (m.renumber number).exportedBy owner =
      m.exportedBy owner := by
  unfold exportedBy
  rw [isAbstract_renumber]
  rfl

@[simp]
theorem isDirectlyExported_renumber
    (owner : TypeDecl) :
    (m.renumber number).isDirectlyExported owner =
      m.isDirectlyExported owner := by
  unfold isDirectlyExported
  rw [exportedBy_renumber]
  rfl

@[simp]
theorem mayInheritExport_renumber :
    (m.renumber number).mayInheritExport =
      m.mayInheritExport := by
  unfold mayInheritExport
  rw [isOverridable_renumber]
  rfl

/- A renumbered member has the identity that it had. -/
@[simp]
theorem natural_renumber :
    JsIdentity.natural (m.renumber number) =
      JsIdentity.natural m := by
  have hRole :
      JsIdentity.naturalRole (m.renumber number) =
        JsIdentity.naturalRole m := by
    unfold JsIdentity.naturalRole
    rw [isField_renumber, isConstructor_renumber]
    rfl
  unfold JsIdentity.natural
  rw [hRole]
  rfl

end MemberDecl

end JsExport
