import JsExport.Export.View
import JsExport.Report.Finding

/-
  Overriding methods keep their names.

  A method and one that it overrides must have one name in
  JavaScript when either name was chosen in an annotation,
  or a call through the supertype would miss the method.

  Key definitions include:
    * `Rename`
    * `ExportView.renames`
-/

namespace JsExport

------------------------------------------------------------
-- Renames
------------------------------------------------------------

/- A slot and a declaration in it that has another name. -/
structure Rename where
  slot : Slot
  other : MemberNode
deriving DecidableEq, Repr

/- The two members of a rename, the slot's own first. -/
def Rename.key
    (r : Rename) : MemberId × MemberId :=
  (r.slot.member.id, r.other.id)

namespace ExportView

/- Whether two identities disagree on a chosen name. -/
def disagree
    (a b : JsIdentity) : Bool :=
  (a.isExplicit || b.isExplicit) && a.name != b.name

/- The renames in one slot. -/
def slotRenames
    (v : ExportView)
    (slot : Slot) : List Rename :=
  match slot.identity with
  | none => []
  | some identity =>
      (slot.overridden.filter (fun n =>
        (v.identity? n).any (disagree identity))).map
          (fun n => ⟨slot, n⟩)

/- The reports on overriding methods with other names. -/
def renames
    (v : ExportView) : List Finding :=
  (Listing.firstBy Rename.key
    (v.surfaces.flatMap
      (fun s => s.slots.flatMap v.slotRenames))).map
        (fun r =>
          (Finding.ofMember r.slot.member
            (.renamedOverride (v.quoted r.slot))).about
              (.member r.other.id))

end ExportView

end JsExport
