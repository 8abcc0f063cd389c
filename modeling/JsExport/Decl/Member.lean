import JsExport.Source.Span
import JsExport.Decl.TypeExpr
import JsExport.Decl.Modifier

/-
  Members of types: methods, constructors and fields.

  Key definitions include:
    * `Param`
    * `Body`
    * `CallableKind`
    * `Callable`
    * `FieldDecl`
    * `MemberDecl`
    * `MemberDecl.sharesSignature`
    * `MemberDecl.isOverridable`
-/

namespace JsExport

------------------------------------------------------------
-- Methods And Constructors
------------------------------------------------------------

/- A parameter, with the warnings that it silences. -/
structure Param where
  name : String
  type : TypeExpr
  suppressions : List String
deriving DecidableEq, Repr

/- A call of an inherited member through `super`. -/
structure SuperCall where
  target : MemberId
  span : Span
deriving DecidableEq, Repr

/- A test of an object against a type. -/
structure InstanceTest where
  target : TypeId
  span : Span
deriving DecidableEq, Repr

/-
  What the rules need to know of a body: whether it does
  anything, the constructor that it calls first, the members
  called through `super`, and the types tested against.
-/
structure Body where
  nonEmpty : Bool
  delegatesTo : Option MemberId
  superCalls : List SuperCall
  instanceTests : List InstanceTest
deriving DecidableEq, Repr

namespace Body

/- The body that does nothing. -/
def empty : Body :=
  ⟨false, none, [], []⟩

end Body

/-
  A method yields a value, a constructor makes an object.
  Each is declared with a result.
-/
inductive CallableKind
| method (result : TypeExpr)
| maker (result : TypeExpr)
deriving DecidableEq, Repr

namespace CallableKind

/- The constructor as it is mostly declared, without result. -/
def constructor : CallableKind :=
  .maker .void

end CallableKind

/- What methods and constructors have in common. -/
structure Callable where
  kind : CallableKind
  params : List Param
  isAbstract : Bool
  body : Body
deriving DecidableEq, Repr

namespace Callable

/- Whether it makes objects. -/
def isConstructor
    (c : Callable) : Bool :=
  match c.kind with
  | .method _ => false
  | .maker _ => true

/- The result that it is declared with. -/
def result
    (c : Callable) : TypeExpr :=
  match c.kind with
  | .method result => result
  | .maker result => result

/- The parameter types in order. -/
def paramTypes
    (c : Callable) : List TypeExpr :=
  c.params.map (fun p => p.type)

end Callable

------------------------------------------------------------
-- Fields
------------------------------------------------------------

/- How a field gets its first value. -/
inductive Initializer
| absent
| constant
| computed
deriving DecidableEq, Repr

/- A field of a type. -/
structure FieldDecl where
  type : TypeExpr
  initializer : Initializer
deriving DecidableEq, Repr

------------------------------------------------------------
-- Members
------------------------------------------------------------

/- A member is called or it is read. -/
inductive MemberShape
| callable (c : Callable)
| field (f : FieldDecl)
deriving DecidableEq, Repr

/- The declaration of a member. -/
structure MemberDecl where
  name : String
  owner : Option TypeId
  shape : MemberShape
  tag : ExportTag
  jsName : Option String
  access : Access
  isIgnored : Bool
  isStatic : Bool
  isFinal : Bool
  isNative : Bool
  suppressions : List String
  span : Span
deriving DecidableEq, Repr

namespace MemberDecl

/- The method or constructor that the member is. -/
def callable?
    (m : MemberDecl) : Option Callable :=
  match m.shape with
  | .callable c => some c
  | .field _ => none

/- The field that the member is. -/
def field?
    (m : MemberDecl) : Option FieldDecl :=
  match m.shape with
  | .callable _ => none
  | .field f => some f

/- Whether the member is a field. -/
def isField
    (m : MemberDecl) : Bool :=
  m.field?.isSome

/- Whether the member is a method or a constructor. -/
def isCallable
    (m : MemberDecl) : Bool :=
  m.callable?.isSome

/- Whether the member makes objects. -/
def isConstructor
    (m : MemberDecl) : Bool :=
  m.callable?.any Callable.isConstructor

/- Whether the member is visible everywhere. -/
def isPublic
    (m : MemberDecl) : Bool :=
  m.access == .everyone

/- Whether only the owner sees the member. -/
def isPrivate
    (m : MemberDecl) : Bool :=
  m.access == .owner

/- Whether the member has no code of its own. -/
def isAbstract
    (m : MemberDecl) : Bool :=
  m.callable?.any (fun c => c.isAbstract)

/-
  Whether a method can be overridden: constructors, static
  methods and private methods cannot.
-/
def isOverridable
    (m : MemberDecl) : Bool :=
  m.isCallable && !m.isConstructor &&
    !m.isStatic && !m.isPrivate

/- The constructor that the member calls before its body. -/
def delegatesTo
    (m : MemberDecl) : Option MemberId :=
  m.callable?.bind (fun c => c.body.delegatesTo)

/- The calls through `super` in the body. -/
def superCalls
    (m : MemberDecl) : List SuperCall :=
  (m.callable?.map (fun c => c.body.superCalls)).getD []

/- The tests of objects in the body. -/
def instanceTests
    (m : MemberDecl) : List InstanceTest :=
  (m.callable?.map (fun c => c.body.instanceTests)).getD []

/- The types that a signature mentions, result first. -/
def signatureTypes
    (m : MemberDecl) : List TypeExpr :=
  match m.shape with
  | .callable c => c.result :: c.paramTypes
  | .field f => [f.type]

/-
  What makes two methods of different types one method for
  overriding: the name and the parameter types.  A field has
  no such key, since fields are never overridden.
-/
def signature?
    (m : MemberDecl) : Option (String × List TypeExpr) :=
  m.callable?.map (fun c => (m.name, c.paramTypes))

/- Whether two members override each other by signature. -/
def sharesSignature
    (m n : MemberDecl) : Bool :=
  match m.signature?, n.signature? with
  | some s, some t => decide (s = t)
  | _, _ => false

/- Whether the member silences a warning. -/
def suppresses
    (m : MemberDecl)
    (key : String) : Bool :=
  m.suppressions.contains key

end MemberDecl

end JsExport
