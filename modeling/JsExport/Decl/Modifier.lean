/-
  What annotations and modifiers say about a declaration.

  Key definitions include:
    * `TypeKind`
    * `TypeFlags`
    * `Access`
    * `ExportTag`
-/

namespace JsExport

------------------------------------------------------------
-- Kinds Of Types
------------------------------------------------------------

/- The kinds of type declarations. -/
inductive TypeKind
| classKind
| interfaceKind
| enumKind
deriving DecidableEq, Repr

/-
  The annotations of a type.  A native type stands for code
  that exists in JavaScript already; a function type stands
  for a JavaScript function.
-/
structure TypeFlags where
  jsType : Bool
  native : Bool
  jsFunction : Bool
deriving DecidableEq, Repr

namespace TypeFlags

/- No annotation at all. -/
def none : TypeFlags :=
  ⟨false, false, false⟩

/- Whether JavaScript can hold values of the type. -/
def isUsable
    (f : TypeFlags) : Bool :=
  f.jsType || f.native || f.jsFunction

/- Whether public members are exported without a tag. -/
def exportsPublic
    (f : TypeFlags) : Bool :=
  f.jsType || f.native

end TypeFlags

------------------------------------------------------------
-- Access
------------------------------------------------------------

/-
  Who may refer to a member: everyone, the package and the
  subtypes of the owner, the package alone, or the owner.
-/
inductive Access
| everyone
| subtypes
| package
| owner
deriving DecidableEq, Repr

/- The modifier that grants an access. -/
def Access.text : Access → String
| .everyone => "public"
| .subtypes => "protected"
| .package => "package-private"
| .owner => "private"

------------------------------------------------------------
-- Export Tags
------------------------------------------------------------

/- The annotation that says how a member is exported. -/
inductive ExportTag
| untagged
| jsType
| jsMethod
| jsProperty
| jsOverlay
| jsConstructor
deriving DecidableEq, Repr

namespace ExportTag

/- The written form of a tag. -/
def text : ExportTag → String
| .untagged => "not exported"
| .jsType => "@JsType"
| .jsMethod => "@JsMethod"
| .jsProperty => "@JsProperty"
| .jsOverlay => "@JsOverlay"
| .jsConstructor => "@JsConstructor"

/-
  Whether the tag exports its member by itself.  An overlay
  is Java code beside a native type and never exported.
-/
def isExplicit : ExportTag → Bool
| .untagged => false
| .jsOverlay => false
| _ => true

end ExportTag

end JsExport
