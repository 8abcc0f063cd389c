/-
  Types as they are written in Java signatures.

  A type is `void`, a primitive type or its boxed class,
  `String`, `Object`, a type of the program under check, a
  type from elsewhere, or an array of one of these.  The
  written form names the types of the program through a
  function of their number, so that one printer serves both
  messages and listings.

  Key definitions include:
    * `TypeId`
    * `MemberId`
    * `Prim`
    * `TypeExpr`
    * `TypeExpr.arrayOf`
    * `TypeExpr.declared?`
    * `TypeExpr.text`
-/

namespace JsExport

------------------------------------------------------------
-- Numbers Of Types And Members
------------------------------------------------------------

/- The position of a type among the types of a program. -/
abbrev TypeId :=
  Nat

/- The position of a member among the members of a program. -/
abbrev MemberId :=
  Nat

/- The written form of the number of a type. -/
def TypeId.text
    (t : TypeId) : String :=
  s!"type_{t}"

/- The written form of the number of a member. -/
def MemberId.text
    (m : MemberId) : String :=
  s!"member_{m}"

------------------------------------------------------------
-- Primitive Types
------------------------------------------------------------

/- The primitive types. -/
inductive Prim
| boolean
| byte
| char
| short
| int
| long
| float
| double
deriving DecidableEq, Repr

namespace Prim

/- The keyword of a primitive type. -/
def text : Prim → String
| .boolean => "boolean"
| .byte => "byte"
| .char => "char"
| .short => "short"
| .int => "int"
| .long => "long"
| .float => "float"
| .double => "double"

/- The class whose objects hold one value of the type. -/
def boxedText : Prim → String
| .boolean => "Boolean"
| .byte => "Byte"
| .char => "Character"
| .short => "Short"
| .int => "Integer"
| .long => "Long"
| .float => "Float"
| .double => "Double"

/-
  JavaScript has no 64-bit integers, so `long` is the one
  primitive type without a counterpart there.
-/
def isLong
    (p : Prim) : Bool :=
  p == .long

end Prim

------------------------------------------------------------
-- Type Expressions
------------------------------------------------------------

/- A type in a signature. -/
inductive TypeExpr
| void
| prim (p : Prim)
| boxed (p : Prim)
| string
| object
| declared (id : TypeId)
| external (name : String)
| array (element : TypeExpr) (dims : Nat)
deriving DecidableEq, Repr

namespace TypeExpr

/-
  An array with more dimensions.  An array of arrays has one
  element type, so the dimensions of the element are added
  instead of nesting a second array.
-/
def arrayOf
    (element : TypeExpr)
    (dims : Nat) : TypeExpr :=
  match element with
  | .array inner innerDims => .array inner (innerDims + dims)
  | _ => .array element dims

/- Whether the type is `void`. -/
def isVoid : TypeExpr → Bool
| .void => true
| _ => false

/- Whether the type is the primitive `boolean`. -/
def isBoolean : TypeExpr → Bool
| .prim .boolean => true
| _ => false

/- Whether the type is `Object`. -/
def isObject : TypeExpr → Bool
| .object => true
| _ => false

/- The type of the program that a type mentions, if any. -/
def declared? : TypeExpr → Option TypeId
| .declared id => some id
| .array element _ => declared? element
| _ => none

/- The written form of a type. -/
def text
    (nameOf : TypeId → String) : TypeExpr → String
| .void => "void"
| .prim p => p.text
| .boxed p => p.boxedText
| .string => "String"
| .object => "Object"
| .declared id => nameOf id
| .external name => name
| .array element dims =>
    text nameOf element ++
      String.join (List.replicate dims "[]")

end TypeExpr

end JsExport
