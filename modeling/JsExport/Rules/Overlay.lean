import JsExport.Export.Signature
import JsExport.Report.Finding

/-
  Overlays: Java code beside a native type.

  JavaScript does not know of an overlay, so it belongs to a
  native type, and neither does it override a method nor can
  it be overridden.

  Key definitions include:
    * `Overlay.overrides`
    * `Overlay.isFixed`
    * `Overlay.breach?`
    * `Overlay.additive`
-/

namespace JsExport

namespace Overlay

------------------------------------------------------------
-- Conditions
------------------------------------------------------------

/- Whether a member overrides one of the members above. -/
def overrides
    (above : List MemberNode)
    (m : MemberDecl) : Bool :=
  above.any (fun n =>
    n.decl.isOverridable && n.decl.sharesSignature m)

/- Whether no subtype can declare the member again. -/
def isFixed
    (m : MemberNode) : Bool :=
  m.decl.isFinal || m.owner.decl.isFinal ||
    m.decl.isPrivate

/- Whether the modifiers of a method suit an overlay. -/
def hasModifiers
    (m : MemberNode) : Bool :=
  isFixed m && !m.decl.isStatic && !m.decl.isNative

/-
  What is wrong with an overlay, as the breach that its
  written form makes.
-/
def breach?
    (inNative : Bool)
    (above : List MemberNode)
    (m : MemberNode) : Option (String → Breach) :=
  if !inNative then some .overlayOutsideNative
  else if !m.decl.isCallable then none
  else if overrides above m.decl then
    some .overlayOverriding
  else if !hasModifiers m then some .overlayOpen
  else none

------------------------------------------------------------
-- Reports
------------------------------------------------------------

/- The overlays of a type add to it and change nothing. -/
def additive
    (p : Program)
    (t : TypeNode) :
    Except LookupError (List Finding) := do
  let lineage ← p.lineage t.id
  let inNative := lineage.any (fun s => s.decl.isNative)
  let above := lineage.tail.flatMap p.declaredBy
  let overlays := (p.declaredBy t).filter
    (fun m => decide (m.decl.tag = .jsOverlay))
  return overlays.filterMap (fun m =>
    (breach? inNative above m).map (fun breach =>
      Finding.ofMember m (breach (Signature.text p m))))

end Overlay

end JsExport
