import JsExport.Proofs.Rules.PropertyTypes
import JsExport.Proofs.Text.BeanName

/-
  Accessors that meet in one property.

  Roles are inherited and names are not: every slot that
  JavaScript sees is named for the member that stands for
  it.  So whether two accessors of an object are compared as
  accessors of one property is decided by their own names,
  and without chosen names by the stems of these alone.

  Main declarations:
    * `MemberDecl.NamedByStem`
    * `ExportView.Shows.eq_named_of_mem_named`
    * `ExportView.Shows.mem_group_iff_stem_eq`
-/

namespace JsExport

------------------------------------------------------------
-- Accessors Named By Stems
------------------------------------------------------------

/-
  That no name is chosen for a method, and that its own name
  is a verb with a given stem, which starts with a Latin
  letter.
-/
structure MemberDecl.NamedByStem
    (m : MemberDecl)
    (stem : String) : Prop where
  jsName_eq : m.jsName = none
  exists_split?_eq :
    ∃ verb, BeanName.split? m.name = some (verb, stem)
  isAlpha_head : stem.toList.head?.any Char.isAlpha

------------------------------------------------------------
-- Slots Of One Property
------------------------------------------------------------

namespace ExportView.Shows

variable {v : ExportView}
variable {p : Program}
variable (hShows : v.Shows p)
variable (hSound : p.Sound)
variable {s : Surface}
variable (hSurface : s ∈ v.surfaces)

include hShows hSound hSurface

/- A slot is named for the member that stands for it. -/
theorem eq_named_of_mem_named
    {e : Slot × JsIdentity}
    (hNamed : e ∈ s.named) :
    e.2 = JsIdentity.named e.2.role e.1.member.decl := by
  rcases Surface.mem_named_iff.mp hNamed with
    ⟨hSlot, hIdentity⟩
  cases hOwn : v.identity? e.1.member with
  | some identity =>
      have hMember :=
        (hShows.hasMember_slot hSound hSurface hSlot).1
      have hTable :=
        hSound.resolves_exportTable hShows.table_eq
      rw [hShows.identity_eq_of_mem_named hSurface hNamed
        hOwn]
      exact hTable.eq_named hSound hMember hOwn
  | none =>
      rcases hShows.exists_passedTo?_of_identity_eq hSurface
          hSlot hOwn hIdentity with
        ⟨_, _, _, _, hPassed⟩
      exact JsIdentity.eq_named_of_passedTo?_eq hPassed

/- The name of an accessor named by a stem shows the stem. -/
theorem name_of_namedByStem
    {e : Slot × JsIdentity}
    (hNamed : e ∈ s.named)
    (hProperty : e.2.role.isProperty)
    {stem : String}
    (hStem : e.1.member.decl.NamedByStem stem) :
    e.2.name = BeanName.uncapitalize stem ∧
      BeanName.capitalize e.2.name = stem := by
  rcases hStem.exists_split?_eq with ⟨verb, hSplit⟩
  have hName :
      e.2.name = BeanName.property e.1.member.decl.name := by
    rw [hShows.eq_named_of_mem_named hSound hSurface hNamed]
    unfold JsIdentity.named
    rw [hStem.jsName_eq, Option.getD_none, if_pos hProperty]
  rw [hName]
  exact ⟨BeanName.property_eq_uncapitalize hSplit,
    BeanName.capitalize_property hSplit hStem.isAlpha_head⟩

/-
  Among the accessors of an object, those in the group of
  one of them are the ones with the same stem.
-/
theorem mem_group_iff_stem_eq
    {e other : Slot × JsIdentity}
    (hNamed : e ∈ s.named)
    (hOther : other ∈ s.named)
    (hProperty : e.2.role.isProperty)
    (hOtherProperty : other.2.role.isProperty)
    {stem otherStem : String}
    (hStem : e.1.member.decl.NamedByStem stem)
    (hOtherStem :
      other.1.member.decl.NamedByStem otherStem) :
    other ∈ s.group e.2.name ↔ otherStem = stem := by
  rcases hShows.name_of_namedByStem hSound
      hSurface hNamed hProperty hStem with
    ⟨hName, hShown⟩
  rcases hShows.name_of_namedByStem hSound
      hSurface hOther hOtherProperty hOtherStem with
    ⟨hOtherName, hOtherShown⟩
  rw [Surface.group_eq, List.mem_filter, decide_eq_true_eq,
    and_iff_right hOther]
  constructor
  · intro hSame
    rw [← hOtherShown, hSame, hShown]
  · intro hSame
    rw [hOtherName, hSame, hName]

end ExportView.Shows

end JsExport
