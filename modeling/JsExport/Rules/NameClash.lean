import JsExport.Export.View
import JsExport.Report.Finding

/-
  Clashes of names within one type.

  Two slots of a surface must not have one name.  Two
  accessors of a property may, and are looked at with the
  properties; two native members have their names from
  elsewhere.  Each two members are reported once, at the
  first type that has both.

  Key definitions include:
    * `Clash`
    * `Clash.key`
    * `Clash.finding`
    * `ExportView.nameClashes`
-/

namespace JsExport

------------------------------------------------------------
-- Clashes
------------------------------------------------------------

/- Two slots of one name in a type. -/
structure Clash where
  type : TypeNode
  name : String
  first : Slot
  second : Slot
deriving DecidableEq, Repr

namespace Clash

/- The two members, whichever comes first. -/
def key
    (c : Clash) : MemberId × MemberId :=
  let a := c.first.member.id
  let b := c.second.member.id
  (min a b, max a b)

/- The clash with its members in order of their signatures. -/
def ordered
    (v : ExportView)
    (c : Clash) : Clash :=
  if v.signature c.first.member ≤
      v.signature c.second.member then c
  else ⟨c.type, c.name, c.second, c.first⟩

/- The report of a clash, at the member named first. -/
def finding
    (v : ExportView)
    (c : Clash) : Finding :=
  let texts := v.clashTexts c.type c.first c.second
  (Finding.ofMember c.first.member
    (.nameClash texts.1 texts.2 c.name)).about
      (.member c.second.member.id)

end Clash

------------------------------------------------------------
-- Reports
------------------------------------------------------------

/- Whether two slots of one name clash. -/
def clash
    (a b : Slot × JsIdentity) : Bool :=
  !(a.2.role.isProperty && b.2.role.isProperty) &&
    !(a.1.member.isNative && b.1.member.isNative)

namespace Surface

/- The clashes of one surface. -/
def clashes
    (s : Surface) : List Clash :=
  s.groups.flatMap (fun g =>
    ((Listing.pairs g.2).filter (fun e => clash e.1 e.2)).map
      (fun e => ⟨s.type, g.1, e.1.1, e.2.1⟩))

end Surface

namespace ExportView

/- The reports on clashes of names within one type. -/
def nameClashes
    (v : ExportView) : List Finding :=
  (Listing.firstBy Clash.key
    (v.surfaces.flatMap Surface.clashes)).map
      (fun c => (c.ordered v).finding v)

end ExportView

end JsExport
