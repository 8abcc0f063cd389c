import JsExport.Source.Span
import JsExport.Decl.TypeExpr
import JsExport.Decl.Modifier

/-
  Type declarations.

  Key definitions include:
    * `TypeDecl`
    * `TypeDecl.supertypes`
    * `TypeDecl.globalName`
-/

namespace JsExport

------------------------------------------------------------
-- Type Declarations
------------------------------------------------------------

/-
  The declaration of a class, an interface or an enum.  It
  names its supertypes and its members by their numbers.
-/
structure TypeDecl where
  name : String
  qualifiedName : String
  package : String
  kind : TypeKind
  flags : TypeFlags
  jsNamespace : Option String
  jsName : Option String
  superClass : Option TypeId
  interfaces : List TypeId
  members : List MemberId
  suppressions : List String
  isFinal : Bool
  isAbstract : Bool
  hasStaticInitializer : Bool
  hasInstanceInitializer : Bool
  file : String
  span : Span
deriving DecidableEq, Repr

namespace TypeDecl

/- Whether the declaration is an interface. -/
def isInterface
    (d : TypeDecl) : Bool :=
  d.kind == .interfaceKind

/- Whether the declaration is an enum. -/
def isEnum
    (d : TypeDecl) : Bool :=
  d.kind == .enumKind

/- Whether the declaration is a class and not an enum. -/
def isClass
    (d : TypeDecl) : Bool :=
  d.kind == .classKind

/- Whether the type stands for existing JavaScript. -/
def isNative
    (d : TypeDecl) : Bool :=
  d.flags.native

/- Whether the type stands for a JavaScript function. -/
def isJsFunction
    (d : TypeDecl) : Bool :=
  d.flags.jsFunction

/- Whether the type is exported with its members. -/
def isJsType
    (d : TypeDecl) : Bool :=
  d.flags.jsType

/- The types it directly extends or implements. -/
def supertypes
    (d : TypeDecl) : List TypeId :=
  d.superClass.toList ++ d.interfaces

/-
  The name of the type in JavaScript's global scope.  A name
  without a namespace stands alone.
-/
def globalName
    (d : TypeDecl) : String :=
  let space := d.jsNamespace.getD d.package
  let name := d.jsName.getD d.qualifiedName
  if space = "" then name else s!"{space}.{name}"

/- Whether the type silences a warning for its members. -/
def suppresses
    (d : TypeDecl)
    (key : String) : Bool :=
  d.suppressions.contains key

end TypeDecl

end JsExport
