import JsExport.Rules.TypeRole
import JsExport.Report.Finding

/-
  Types that stand for JavaScript functions.

  A function has no members besides its call, so a function
  type is an interface with one abstract method, nothing
  above it and no code of its own; a class that implements
  it implements nothing else and is not exported otherwise.

  Key definitions include:
    * `FunctionType.shape`
    * `FunctionType.noSupertypes`
    * `FunctionType.noStaticCode`
    * `FunctionType.notJsType`
    * `FunctionType.notExtended`
    * `Implementation.oneInterface`
    * `Implementation.noSuperclass`
    * `Implementation.notJsType`
    * `Implementation.notExtended`
-/

namespace JsExport

------------------------------------------------------------
-- Reports On Types
------------------------------------------------------------

/- A report at a type, if a condition holds. -/
def reportIf
    (condition : Bool)
    (t : TypeNode)
    (breach : Breach) : List Finding :=
  if condition then [Finding.ofType t breach] else []

/- Whether loading a type runs code. -/
def Program.hasStaticCode
    (p : Program)
    (t : TypeNode) : Bool :=
  t.decl.hasStaticInitializer ||
    (p.declaredBy t).any (fun m =>
      m.decl.isStatic && m.decl.field?.any (fun f =>
        decide (f.initializer = .computed)))

------------------------------------------------------------
-- Function Types
------------------------------------------------------------

namespace FunctionType

/- The methods that an implementation has to provide. -/
def abstractMethods
    (p : Program)
    (t : TypeNode) : List MemberNode :=
  (p.declaredBy t).filter (fun m =>
    !m.decl.isStatic && m.decl.isAbstract)

/- It is an interface with one abstract method. -/
def shape
    (p : Program)
    (t : TypeNode) : List Finding :=
  reportIf
    (!t.decl.isInterface ||
      (abstractMethods p t).length != 1)
    t (.functionShape t.decl.qualifiedName)

/- It extends no interface. -/
def noSupertypes
    (t : TypeNode) : List Finding :=
  reportIf
    (t.decl.isInterface && !t.decl.interfaces.isEmpty)
    t (.functionExtends t.decl.qualifiedName)

/- Loading it runs no code. -/
def noStaticCode
    (p : Program)
    (t : TypeNode) : List Finding :=
  reportIf (p.hasStaticCode t)
    t (.functionStaticCode t.decl.qualifiedName)

/- It is not exported as a type with members. -/
def notJsType
    (t : TypeNode) : List Finding :=
  reportIf t.decl.isJsType
    t (.functionAndJsType t.decl.qualifiedName)

/- No interface extends it. -/
def notExtended
    (p : Program)
    (t : TypeNode) : Except LookupError (List Finding) :=
  return (← p.interfacesOf t).flatMap (fun i =>
    reportIf i.decl.isJsFunction
      t (.extendsFunction t.decl.qualifiedName
        i.decl.qualifiedName))

end FunctionType

------------------------------------------------------------
-- Implementations
------------------------------------------------------------

namespace Implementation

/- It implements nothing but the function type. -/
def oneInterface
    (t : TypeNode) : List Finding :=
  reportIf (decide (1 < t.decl.interfaces.length))
    t (.implInterfaces t.decl.qualifiedName)

/- It extends no class. -/
def noSuperclass
    (t : TypeNode) : List Finding :=
  reportIf t.decl.superClass.isSome
    t (.implSuperclass t.decl.qualifiedName)

/- It is not exported as a type with members. -/
def notJsType
    (t : TypeNode) : List Finding :=
  reportIf t.decl.isJsType
    t (.implAndJsType t.decl.qualifiedName)

/- No class extends it, directly or not. -/
def notExtended
    (p : Program)
    (t : TypeNode) : Except LookupError (List Finding) :=
  return match ← p.nearestImplementation? t with
  | none => []
  | some above =>
      [Finding.ofType t
        (.extendsImpl t.decl.qualifiedName
          above.decl.qualifiedName)]

end Implementation

end JsExport
