import JsExport.Decl.Member
import JsExport.Decl.Type
import JsExport.Text.BeanName

/-
  What a member is to JavaScript.

  An identity has a role and a name.  A member takes its
  identity from its own tags, from its type, or from the
  method that it overrides.

  Key definitions include:
    * `JsRole`
    * `JsIdentity`
    * `JsIdentity.named`
    * `JsIdentity.natural`
    * `JsIdentity.passedTo?`
    * `MemberDecl.exportedBy`
    * `MemberDecl.isDirectlyExported`
-/

namespace JsExport

------------------------------------------------------------
-- Roles
------------------------------------------------------------

/- What JavaScript does with a member. -/
inductive JsRole
| method
| field
| constructor
| property (access : Accessor)
deriving DecidableEq, Repr

namespace JsRole

/- Whether the role is that of a property accessor. -/
def isProperty : JsRole → Bool
| .property _ => true
| _ => false

/- The written form of a role. -/
def text : JsRole → String
| .method => "Method"
| .field => "Field"
| .constructor => "Constructor"
| .property .getter => "Property(Getter)"
| .property .setter => "Property(Setter)"
| .property .invalid => "Property(Invalid)"

end JsRole

------------------------------------------------------------
-- Identities
------------------------------------------------------------

/-
  A role and a name, and whether the name was chosen in an
  annotation.
-/
structure JsIdentity where
  role : JsRole
  name : String
  isExplicit : Bool
deriving DecidableEq, Repr

namespace JsIdentity

/-
  The identity of a member in a given role.  A chosen name
  comes first; an accessor is else named for its property,
  and any other member keeps its name.
-/
def named
    (role : JsRole)
    (m : MemberDecl) : JsIdentity :=
  ⟨role,
    m.jsName.getD
      (if role.isProperty then BeanName.property m.name
        else m.name),
    m.jsName.isSome⟩

/- The role that a member has by its own declaration. -/
def naturalRole
    (m : MemberDecl) : JsRole :=
  if m.isField then .field
  else if m.isConstructor then .constructor
  else if m.tag = .jsProperty then
    .property (Accessor.ofName m.name)
  else .method

/- The identity that a member has by its own declaration. -/
def natural
    (m : MemberDecl) : JsIdentity :=
  named (naturalRole m) m

/-
  The identity that a member takes over from a method that
  it overrides.  Names are not taken over, only roles.
-/
def passedTo?
    (above : JsIdentity)
    (m : MemberDecl) : Option JsIdentity :=
  match above.role with
  | .method => some (named .method m)
  | .property _ =>
      some (named (.property (Accessor.ofName m.name)) m)
  | .field => none
  | .constructor => none

end JsIdentity

------------------------------------------------------------
-- Export By Declaration
------------------------------------------------------------

namespace MemberDecl

/-
  Whether the type of a member exports it without a tag: an
  exported type its public members, a function type its
  abstract methods.
-/
def exportedBy
    (m : MemberDecl)
    (owner : TypeDecl) : Bool :=
  (owner.flags.exportsPublic && m.isPublic) ||
    (owner.isJsFunction && !m.isStatic && m.isAbstract)

/-
  Whether a member is exported by itself, and not because it
  overrides an exported method.
-/
def isDirectlyExported
    (m : MemberDecl)
    (owner : TypeDecl) : Bool :=
  m.tag != .jsOverlay &&
    (m.tag.isExplicit ||
      (!m.isIgnored && m.exportedBy owner))

/- Whether a member may be exported by overriding. -/
def mayInheritExport
    (m : MemberDecl) : Bool :=
  m.tag != .jsOverlay && !m.isIgnored && m.isOverridable

end MemberDecl

end JsExport
