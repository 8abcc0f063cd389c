import JsExport.Export.View
import JsExport.Report.Finding

/-
  Accessors that JavaScript can use.

  Reading a property passes nothing and yields a value;
  writing it passes one value and yields nothing.  A call
  through `super` cannot be told from reading the object's
  own property, so accessors are not called that way.

  Key definitions include:
    * `shapeBreach?`
    * `ExportView.accessorShapes`
    * `ExportView.superAccessors`
-/

namespace JsExport

------------------------------------------------------------
-- Shapes
------------------------------------------------------------

/- Whether a method reads: no parameters, some result. -/
def Callable.isReader
    (c : Callable) : Bool :=
  c.params.isEmpty && !c.result.isVoid

/- Whether a method writes: one parameter, no result. -/
def Callable.isWriter
    (c : Callable) : Bool :=
  c.params.length == 1 && c.result.isVoid

/-
  What is wrong with an accessor of a given name, as the
  breach that its written form makes.
-/
def shapeBreach?
    (name : String)
    (c : Callable) : Option (String → Breach) :=
  match BeanName.split? name with
  | none => some .accessorName
  | some (.get, _) =>
      if c.isReader then none else some .readerShape
  | some (.is, _) =>
      if !c.isReader then some .readerShape
      else if !c.result.isBoolean then some .isReaderShape
      else none
  | some (.set, _) =>
      if c.isWriter then none else some .writerShape

namespace ExportTable

/- Whether a member is exported as an accessor. -/
def isAccessor
    (table : ExportTable)
    (m : MemberId) : Bool :=
  (table.identity? m).any
    (fun identity => identity.role.isProperty)

end ExportTable

namespace ExportView

/- What is wrong with the shape of one accessor. -/
def shapeFinding?
    (v : ExportView)
    (m : MemberNode) : Option Finding :=
  if v.table.isAccessor m.id then
    (m.decl.callable?.bind
      (shapeBreach? m.decl.name)).map
        (fun breach =>
          Finding.ofMember m (breach (v.signature m)))
  else
    none

/- The reports on the shapes of accessors. -/
def accessorShapes
    (v : ExportView) : List Finding :=
  v.members.filterMap v.shapeFinding?

------------------------------------------------------------
-- Super Calls
------------------------------------------------------------

/- The report on one call of an accessor via `super`. -/
def superAccessor
    (v : ExportView)
    (m : MemberNode)
    (call : SuperCall) : Except LookupError Finding := do
  let target ← v.program.member call.target
  return (Finding.inBody m call.span
    (.superAccessor (v.signature target))).about
      (.member target.id)

/- The reports on accessors called via `super`. -/
def superAccessors
    (v : ExportView) : Except LookupError (List Finding) :=
  return (← v.members.mapM (fun m =>
    ((m.decl.superCalls.filter
      (fun call => v.table.isAccessor call.target)).mapM
        (v.superAccessor m)))).flatten

end ExportView

end JsExport
