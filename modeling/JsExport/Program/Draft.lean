import JsExport.Decl.Member
import JsExport.Decl.Type
import JsExport.Program.Defect

/-
  Programs under construction.

  A draft holds declarations that need not fit together yet.
  An edit adds a declaration or a reference between two of
  them; an edit that refers to what is not there is refused
  and leaves the draft as it is.

  Key definitions include:
    * `Draft`
    * `Edit`
    * `Draft.edit?`
    * `Draft.edit`
-/

namespace JsExport

------------------------------------------------------------
-- Drafts
------------------------------------------------------------

/- The declarations collected so far. -/
structure Draft where
  types : List TypeDecl
  members : List MemberDecl
deriving DecidableEq, Repr

/- A change of a draft. -/
inductive Edit
| addType (decl : TypeDecl)
| addMember (owner : TypeId) (decl : MemberDecl)
| setSuperclass (type superclass : TypeId)
| addInterface (type listed : TypeId)
| setDelegation (constructor target : MemberId)
deriving DecidableEq, Repr

namespace TypeDecl

/- The type with one more member. -/
def addMember
    (d : TypeDecl)
    (m : MemberId) : TypeDecl :=
  { d with members := d.members ++ [m] }

/- The type with one more interface. -/
def addInterface
    (d : TypeDecl)
    (t : TypeId) : TypeDecl :=
  { d with interfaces := d.interfaces ++ [t] }

/- The type with another superclass. -/
def setSuperclass
    (d : TypeDecl)
    (t : TypeId) : TypeDecl :=
  { d with superClass := some t }

end TypeDecl

namespace MemberDecl

/- The member with another owner. -/
def setOwner
    (m : MemberDecl)
    (t : TypeId) : MemberDecl :=
  { m with owner := some t }

/-
  The member with another constructor to call first.  Only
  what can be called has a body to hold the call.
-/
def setDelegation
    (m : MemberDecl)
    (target : MemberId) : MemberDecl :=
  match m.shape with
  | .callable c =>
      { m with
        shape := .callable
          { c with
            body :=
              { c.body with
                delegatesTo := some target } } }
  | .field _ => m

end MemberDecl

namespace Draft

/- The draft without declarations. -/
def empty : Draft :=
  ⟨[], []⟩

/- Put another declaration in the place of a type. -/
def putType
    (p : Draft)
    (t : TypeId)
    (d : TypeDecl) : Draft :=
  { p with types := p.types.set t d }

/- Put another declaration in the place of a member. -/
def putMember
    (p : Draft)
    (m : MemberId)
    (d : MemberDecl) : Draft :=
  { p with members := p.members.set m d }

/- A type of the draft, for a reference to it. -/
def type?
    (p : Draft)
    (t : TypeId)
    (place : Reference) : Except Defect TypeDecl :=
  match p.types[t]? with
  | some d => .ok d
  | none => .error (.unknownType t place)

/- A member of the draft, for a reference to it. -/
def member?
    (p : Draft)
    (m : MemberId)
    (place : Reference) : Except Defect MemberDecl :=
  match p.members[m]? with
  | some d => .ok d
  | none => .error (.unknownMember m place)

------------------------------------------------------------
-- Edits
------------------------------------------------------------

/-
  The draft after an edit, and the number of the declaration
  that the edit adds, if it adds one.
-/
def edit?
    (p : Draft) :
    Edit → Except Defect (Draft × Option Nat)
| .addType d =>
    .ok ({ p with types := p.types ++ [d] },
      some p.types.length)
| .addMember owner m => do
    let d ← p.type? owner (.ownerOf m.name)
    let id := p.members.length
    let grown := p.putType owner (d.addMember id)
    return ({ grown with
        members := p.members ++ [m.setOwner owner] },
      some id)
| .setSuperclass t superclass => do
    let d ← p.type? t .superclassEdit
    return (p.putType t (d.setSuperclass superclass), none)
| .addInterface t listed => do
    let d ← p.type? t .interfaceEdit
    return (p.putType t (d.addInterface listed), none)
| .setDelegation constructor target => do
    let m ← p.member? constructor .delegationEdit
    return (p.putMember constructor
      (m.setDelegation target), none)

/- Do an edit, or leave the draft as it is and say why. -/
def edit
    (p : Draft)
    (e : Edit) :
    Draft × Except Defect (Option Nat) :=
  match p.edit? e with
  | .ok (after, id?) => (after, .ok id?)
  | .error defect => (p, .error defect)

end Draft

end JsExport
