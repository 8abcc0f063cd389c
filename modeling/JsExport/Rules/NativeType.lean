import JsExport.Rules.FunctionType
import JsExport.Export.Signature

/-
  Types that stand for existing JavaScript.

  A native type only describes what is there: all its
  members are in view and nothing of it runs.  JavaScript
  has no interfaces, so an object cannot be tested against a
  native one.

  Key definitions include:
    * `NativeType.notEnum`
    * `NativeType.inView`
    * `NativeType.noStaticCode`
    * `NativeType.noConstructorCode`
    * `NativeType.notTested`
-/

namespace JsExport

namespace NativeType

------------------------------------------------------------
-- Declarations
------------------------------------------------------------

/- It is no enum. -/
def notEnum
    (t : TypeNode) : List Finding :=
  reportIf t.decl.isEnum
    t (.enumAsNative t.decl.qualifiedName)

/-
  Whether a member is hidden from JavaScript.  Constructors
  can have any visibility, and overlays are Java code.
-/
def isHidden
    (m : MemberDecl) : Bool :=
  m.tag != .jsOverlay &&
    (m.isIgnored || (!m.isConstructor && !m.isPublic))

/- All its members are in view. -/
def inView
    (p : Program)
    (t : TypeNode) : List Finding :=
  ((p.declaredBy t).filter (fun m => isHidden m.decl)).map
    (fun m => Finding.ofMember m
      (.nativeHidden (Signature.text p m)))

------------------------------------------------------------
-- Code
------------------------------------------------------------

/- Loading it runs no code. -/
def noStaticCode
    (p : Program)
    (t : TypeNode) : List Finding :=
  reportIf (p.hasStaticCode t)
    t (.nativeStaticCode t.decl.qualifiedName)

/- Whether every constructor starts with initializers. -/
def initializesFields
    (p : Program)
    (t : TypeNode) : Bool :=
  t.decl.hasInstanceInitializer ||
    (p.declaredBy t).any (fun m =>
      !m.decl.isStatic && m.decl.field?.any (fun f =>
        decide (f.initializer ≠ .absent)))

/- Its constructors do nothing. -/
def noConstructorCode
    (p : Program)
    (t : TypeNode) : List Finding :=
  let initializes := initializesFields p t
  ((p.declaredBy t).filter (fun m =>
    m.decl.callable?.any (fun c =>
      c.isConstructor &&
        (c.body.nonEmpty || initializes)))).map
    (fun m => Finding.ofMember m
      (.nativeConstructorCode (Signature.text p m)))

------------------------------------------------------------
-- Tests
------------------------------------------------------------

/- The report on one test of an object. -/
def testFinding?
    (p : Program)
    (m : MemberNode)
    (test : InstanceTest) :
    Except LookupError (Option Finding) := do
  let target ← p.type test.target
  if target.decl.isNative && target.decl.isInterface then
    return some ((Finding.inBody m test.span
      (.nativeInterfaceTest target.decl.qualifiedName)).about
        (.type target.id))
  else
    return none

/- No member of a type tests against a native interface. -/
def notTested
    (p : Program)
    (t : TypeNode) : Except LookupError (List Finding) :=
  return (← (p.declaredBy t).mapM (fun m =>
    m.decl.instanceTests.filterMapM
      (testFinding? p m))).flatten

end NativeType

end JsExport
