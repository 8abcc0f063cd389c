import JsExport.Export.Table
import JsExport.Export.Signature
import JsExport.Listing.First
import JsExport.Listing.Stable

/-
  What objects of a type show to JavaScript.

  The surface of a type has one slot for each method that
  the type declares or inherits, however often it is
  declared again, and one for each field.  The declaration
  that runs when the method is called stands for the slot;
  the others are overridden by it.  Static members and
  constructors do not belong to objects, and private members
  of supertypes are out of reach.

  Key definitions include:
    * `Slot`
    * `Surface`
    * `Surface.reaches`
    * `Surface.representative?`
    * `Surface.ofMembers`
    * `Surface.groups`
    * `Surface.slotWith?`
-/

namespace JsExport

------------------------------------------------------------
-- Slots
------------------------------------------------------------

/-
  One method or field of a surface: the declaration that
  stands for it, its identity, the type that exposes it when
  no single supertype does, and the other declarations.
-/
structure Slot where
  member : MemberNode
  identity : Option JsIdentity
  exposedBy : Option TypeNode
  overridden : List MemberNode
deriving DecidableEq, Repr

/- The slots of a type, methods before fields. -/
structure Surface where
  type : TypeNode
  slots : List Slot
deriving DecidableEq, Repr

namespace Surface

------------------------------------------------------------
-- The Members Within Reach
------------------------------------------------------------

/- Whether objects of a type have a given member. -/
def reaches
    (t : TypeNode)
    (m : MemberNode) : Bool :=
  !m.decl.isStatic && !m.decl.isConstructor &&
    (m.owner.id == t.id || !m.decl.isPrivate)

/-
  The declarations of each method, methods in order of their
  first declaration.
-/
def methodGroups
    (members : List MemberNode) : List (List MemberNode) :=
  (Listing.groupsBy (fun m => m.decl.signature?)
    (members.filter (fun m => m.decl.isCallable))).map
      (fun g => g.2)

------------------------------------------------------------
-- The Declaration That Runs
------------------------------------------------------------

/- Whether a subtype of a member's owner declares it again. -/
def isRedeclared
    (h : Hierarchy)
    (group : List MemberNode)
    (m : MemberNode) : Bool :=
  group.any (fun n => h.isAncestor m.owner.id n.owner.id)

/-
  The declaration that stands for a method.  It is declared
  by no subtype again; code in a class wins over interfaces,
  and what is nearer wins over what is farther.
-/
def representative?
    (h : Hierarchy)
    (group : List MemberNode) : Option MemberNode :=
  let latest := group.filter
    (fun m => !isRedeclared h group m)
  (latest.find?
    (fun m => !m.owner.decl.isInterface)).or latest.head?

/-
  Whether a method is exported by the type alone: its code
  comes from a supertype, and the exported declaration from
  another one that the first knows nothing of.
-/
def isExposedHere
    (h : Hierarchy)
    (table : ExportTable)
    (t : TypeNode)
    (m : MemberNode)
    (overridden : List MemberNode) : Bool :=
  m.owner.id != t.id &&
    overridden.any (fun n =>
      !h.isAncestorOrSelf n.owner.id m.owner.id &&
        table.exports n.id)

/- The identity of a method, its own or an inherited one. -/
def slotIdentity?
    (table : ExportTable)
    (m : MemberNode)
    (overridden : List MemberNode) : Option JsIdentity :=
  match table.identity? m.id with
  | some identity => some identity
  | none =>
      (overridden.findSome?
        (fun n => table.identity? n.id)).bind
          (fun identity => identity.passedTo? m.decl)

/- The slot of a method, from all its declarations. -/
def methodSlot?
    (h : Hierarchy)
    (table : ExportTable)
    (t : TypeNode)
    (group : List MemberNode) : Option Slot :=
  (representative? h group).map (fun m =>
    let overridden := group.filter (fun n => n.id != m.id)
    ⟨m, slotIdentity? table m overridden,
      if isExposedHere h table t m overridden then some t
        else none,
      overridden⟩)

/- The slot of a field. -/
def fieldSlot
    (table : ExportTable)
    (m : MemberNode) : Slot :=
  ⟨m, table.identity? m.id, none, []⟩

------------------------------------------------------------
-- Surfaces
------------------------------------------------------------

/-
  The surface of a type, given all members of the types that
  it inherits from, its own first.
-/
def ofMembers
    (h : Hierarchy)
    (table : ExportTable)
    (t : TypeNode)
    (members : List MemberNode) : Surface :=
  let visible := members.filter (reaches t)
  ⟨t,
    (methodGroups visible).filterMap
        (methodSlot? h table t) ++
      (visible.filter (fun m => m.decl.isField)).map
        (fieldSlot table)⟩

/- The slots that JavaScript sees. -/
def exported
    (s : Surface) : List Slot :=
  s.slots.filter (fun slot => slot.identity.isSome)

/-
  The slots that JavaScript sees with their identities, in
  groups of one name, the groups in order of their names.
-/
def groups
    (s : Surface) : List (String × List (Slot × JsIdentity)) :=
  let named := s.slots.filterMap (fun slot =>
    slot.identity.map (fun identity => (slot, identity)))
  Listing.sortedOn (fun g => g.1)
    (Listing.groupsBy (fun e => e.2.name) named)

/- The slot that a member belongs to. -/
def slotWith?
    (s : Surface)
    (m : MemberId) : Option Slot :=
  s.slots.find? (fun slot =>
    slot.member.id == m ||
      slot.overridden.any (fun n => n.id == m))

end Surface

namespace Program

/- The surface of a type. -/
def surface
    (p : Program)
    (table : ExportTable)
    (t : TypeId) : Except LookupError Surface := do
  let node ← p.type t
  let lineage ← p.lineage t
  return Surface.ofMembers p.hierarchy table node
    (lineage.flatMap p.declaredBy)

end Program

end JsExport
