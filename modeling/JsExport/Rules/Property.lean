import JsExport.Rules.NameClash

/-
  Accessors of one property.

  A property has one method that reads it and one that
  writes it, and both speak of one type.  Each two readers
  or writers are reported once; a mismatch of types is
  reported at every type that has both accessors, since each
  is a place where the property is used.

  Key definitions include:
    * `PropertyIssue`
    * `PropertyIssue.key`
    * `Surface.propertyIssues`
    * `ExportView.properties`
-/

namespace JsExport

------------------------------------------------------------
-- Issues
------------------------------------------------------------

/-
  Two readers or writers of one property, or a reader and a
  writer that disagree on its type.
-/
inductive PropertyIssue
| clash (c : Clash)
| mismatch (c : Clash)
deriving DecidableEq, Repr

namespace PropertyIssue

/-
  What is reported once: two members of a clash, or a
  property of a type for a mismatch.
-/
def key : PropertyIssue →
    (MemberId × MemberId) ⊕ (TypeId × String)
| .clash c => .inl c.key
| .mismatch c => .inr (c.type.id, c.name)

end PropertyIssue

------------------------------------------------------------
-- The Issues Of One Property
------------------------------------------------------------

namespace ExportView

/- The slots that access a property in one way, in order. -/
def accessors
    (v : ExportView)
    (access : Accessor)
    (group : List (Slot × JsIdentity)) : List Slot :=
  Listing.sortedOn (fun slot => v.signature slot.member)
    ((group.filter (fun e =>
      decide (e.2.role = .property access))).map
        (fun e => e.1))

/- Whether a reader and a writer disagree on the type. -/
def typesDiffer
    (getter setter : Slot) : Bool :=
  match getter.member.decl.callable?,
      setter.member.decl.callable?.bind
        (fun c => c.paramTypes.head?) with
  | some c, some type => decide (c.result ≠ type)
  | _, _ => false

/- The issues of the slots of one name. -/
def groupIssues
    (v : ExportView)
    (t : TypeNode)
    (name : String)
    (group : List (Slot × JsIdentity)) :
    List PropertyIssue :=
  let getters := v.accessors .getter group
  let setters := v.accessors .setter group
  let clashes :=
    (Listing.pairs getters ++ Listing.pairs setters).map
      (fun e => PropertyIssue.clash ⟨t, name, e.1, e.2⟩)
  match getters.head?, setters.head? with
  | some getter, some setter =>
      if typesDiffer getter setter then
        clashes ++ [.mismatch ⟨t, name, getter, setter⟩]
      else
        clashes
  | _, _ => clashes

/- The issues of all properties, in order of the types. -/
def propertyIssues
    (v : ExportView) : List PropertyIssue :=
  v.surfaces.flatMap (fun s =>
    s.groups.flatMap (fun g =>
      v.groupIssues s.type g.1 g.2))

------------------------------------------------------------
-- Reports
------------------------------------------------------------

/-
  Where a mismatch is reported: at the accessor that the
  type declares itself, the writer first, or at the type.
-/
def mismatchFinding
    (c : Clash) : Finding :=
  let getter := c.first.member
  let setter := c.second.member
  let breach : Breach :=
    .propertyTypes c.name c.type.decl.qualifiedName
  let placed :=
    if setter.owner.id == c.type.id then
      Finding.ofMember setter breach
    else if getter.owner.id == c.type.id then
      Finding.ofMember getter breach
    else
      Finding.ofType c.type breach
  (placed.about (.member getter.id)).about
    (.member setter.id)

/- The report of an issue. -/
def issueFinding
    (v : ExportView) : PropertyIssue → Finding
| .clash c => c.finding v
| .mismatch c => mismatchFinding c

/- The reports on accessors of one property. -/
def properties
    (v : ExportView) : List Finding :=
  (Listing.firstBy PropertyIssue.key v.propertyIssues).map
    v.issueFinding

end ExportView

end JsExport
