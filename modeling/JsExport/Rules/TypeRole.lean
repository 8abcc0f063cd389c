import JsExport.Program.Basic

/-
  The roles of types that carry rules of their own.

  Key definitions include:
    * `TypeRole`
    * `Program.implementsFunction`
    * `Program.nearestImplementation?`
    * `Program.roles`
-/

namespace JsExport

------------------------------------------------------------
-- Roles
------------------------------------------------------------

/-
  The roles: a function type, an interface or a class right
  below one, a class further below, a native type, a type
  with overlays, and any type at all.
-/
inductive TypeRole
| function
| functionSubtype
| implementation
| implementationSubtype
| native
| overlaying
| any
deriving DecidableEq, Repr

/- The name of a role. -/
def TypeRole.text : TypeRole → String
| .function => "JsFunction"
| .functionSubtype => "JsFunctionSubtype"
| .implementation => "JsFunctionImplementation"
| .implementationSubtype =>
    "JsFunctionImplementationSubtype"
| .native => "NativeType"
| .overlaying => "OverlayHost"
| .any => "AnyType"

namespace Program

------------------------------------------------------------
-- Implementations Of Function Types
------------------------------------------------------------

/- Whether a type itself lists a function type. -/
def implementsFunction
    (p : Program)
    (t : TypeNode) : Except LookupError Bool :=
  return (← p.interfacesOf t).any
    (fun i => i.decl.isJsFunction)

/- The implementation found within a number of superclasses. -/
def implementationWithin
    (p : Program) :
    Nat → TypeNode → Except LookupError (Option TypeNode)
| 0, _ => .ok none
| classes + 1, t =>
    match t.decl.superClass with
    | none => .ok none
    | some s => do
        let above ← p.type s
        if !above.decl.isInterface &&
            (← p.implementsFunction above) then
          return some above
        else
          p.implementationWithin classes above

/-
  The nearest superclass that lists a function type.  There
  are no more superclasses than types.
-/
def nearestImplementation?
    (p : Program)
    (t : TypeNode) :
    Except LookupError (Option TypeNode) :=
  p.implementationWithin p.types.length t

------------------------------------------------------------
-- The Roles Of A Type
------------------------------------------------------------

/- Whether a type declares an overlay. -/
def hasOverlay
    (p : Program)
    (t : TypeNode) : Bool :=
  (p.declaredBy t).any
    (fun m => decide (m.decl.tag = .jsOverlay))

/- The roles of a type. -/
def roles
    (p : Program)
    (t : TypeNode) :
    Except LookupError (List TypeRole) := do
  let implements ← p.implementsFunction t
  let nearest ← p.nearestImplementation? t
  let held : List (Bool × TypeRole) :=
    [(t.decl.isJsFunction, .function),
     (implements && t.decl.isInterface, .functionSubtype),
     (implements && !t.decl.isInterface, .implementation),
     (nearest.isSome, .implementationSubtype),
     (t.decl.isNative, .native),
     (p.hasOverlay t, .overlaying),
     (true, .any)]
  return held.filterMap
    (fun (holds, role) => if holds then some role else none)

end Program

end JsExport
