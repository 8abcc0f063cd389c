import JsExport.Proofs.Export.Surface
import JsExport.Proofs.Export.Table
import JsExport.Proofs.Extension.Program

/-
  Views of programs that hold another program.

  The members of the smaller program keep their identities,
  since both tables settle them by the same rules, and its
  types keep their surfaces.  Whatever a view quotes of the
  smaller program reads alike in both.

  Main declarations:
    * `ExportView.Extends`
    * `ExportView.Extends.identity?_eq`
    * `ExportView.Extends.surfaces_prefix`
    * `ExportView.Extends.clashTexts_eq`
-/

namespace JsExport

open Lookup

------------------------------------------------------------
-- Tables
------------------------------------------------------------

namespace Program.Extends

variable {p q : Program}
variable (hExtends : q.Extends p)

include hExtends

/- The larger table settles the members of the smaller one. -/
theorem resolves
    {table : ExportTable}
    (hTable : q.exportTable = .ok table) :
    table.Resolves p := by
  have hAll := hExtends.sound_all.resolves_exportTable hTable
  intro m hMember lineage hLineage
  rw [← hExtends.flatMap_declaredBy_eq hLineage
    (List.tail_sublist lineage).subset]
  apply hAll m (hExtends.hasMember hMember) lineage
  rw [hExtends.lineage_eq hMember.2.2.lt_length]
  exact hLineage

end Program.Extends

------------------------------------------------------------
-- Views
------------------------------------------------------------

namespace ExportView

/- That a view begins with what another one shows. -/
structure Extends
    (w v : ExportView) : Prop where
  program : w.program.Extends v.program
  shows : v.Shows v.program
  shows_all : w.Shows w.program

/- The view of a larger program extends that of a smaller. -/
theorem extends_of_shows
    {v w : ExportView}
    {p q : Program}
    (hExtends : q.Extends p)
    (hShows : v.Shows p)
    (hShowsAll : w.Shows q) :
    w.Extends v := by
  have hFirst := hShows.program_eq
  have hAll := hShowsAll.program_eq
  subst hFirst
  subst hAll
  exact ⟨hExtends, hShows, hShowsAll⟩

namespace Extends

variable {v w : ExportView}
variable (hViews : w.Extends v)

include hViews

theorem identity?_eq
    {m : MemberNode}
    (hMember : v.program.HasMember m) :
    w.table.identity? m.id = v.table.identity? m.id :=
  hViews.program.sound.identity?_eq_of_resolves
    (hViews.program.resolves hViews.shows_all.table_eq)
    (hViews.program.sound.resolves_exportTable
      hViews.shows.table_eq)
    hMember

theorem identity?_eq_of_lt
    {m : MemberId}
    (hLt : m < v.program.members.length) :
    w.table.identity? m = v.table.identity? m := by
  rcases hViews.program.sound.member_succeeds hLt with
    ⟨node, hNode⟩
  rcases Program.member_eq_ok_iff_hasMember.mp hNode with
    ⟨rfl, hMember⟩
  exact hViews.identity?_eq hMember

/- The surface of a type is the same in both programs. -/
theorem program_surface_eq
    {t : TypeId}
    (hLt : t < v.program.types.length) :
    w.program.surface w.table t =
      v.program.surface v.table t := by
  have hProgram := hViews.program
  rcases hProgram.sound.lineage_succeeds hLt with
    ⟨lineage, hLineage⟩
  have hMember :
      ∀ m ∈ lineage.flatMap v.program.declaredBy,
        v.program.HasMember m := fun m hm =>
    (hProgram.sound.hasMember_of_lineage hLineage hm).1
  unfold Program.surface
  rw [hProgram.type_eq hLt, hProgram.lineage_eq hLt,
    hLineage]
  congr 1
  funext node
  have hSurface :
      Surface.ofMembers w.program.hierarchy w.table node
          (lineage.flatMap w.program.declaredBy) =
        Surface.ofMembers v.program.hierarchy v.table node
          (lineage.flatMap v.program.declaredBy) := by
    rw [hProgram.flatMap_declaredBy_eq hLineage
      (List.Subset.refl lineage)]
    apply Surface.ofMembers_congr
    · intro m hm a
      exact hProgram.isAncestor_eq a
        (hMember m hm).2.2.lt_length
    · intro m hm
      exact hViews.identity?_eq (hMember m hm)
  exact congrArg Except.ok hSurface

theorem surface_eq
    {t : TypeId}
    (hLt : t < v.program.types.length) :
    w.surface t = v.surface t := by
  have hProgram := hViews.program
  have hIn := (hProgram.sound.fits.mem_order t).mpr hLt
  rcases hViews.shows.exists_surface hProgram.sound hLt with
    ⟨s, _, hFirst, hs⟩
  have hAll : w.surface t = .ok s :=
    hViews.shows_all.surface_eq_ok_iff.mpr
      ⟨hProgram.order_prefix.subset hIn,
        (hViews.program_surface_eq hLt).trans hs⟩
  rw [hFirst, hAll]

------------------------------------------------------------
-- Lists Of A View
------------------------------------------------------------

theorem types_prefix :
    v.types <+: w.types := by
  rw [hViews.shows.types_eq, hViews.shows_all.types_eq]
  exact hViews.program.typeNodes_prefix

theorem members_prefix :
    v.members <+: w.members :=
  hViews.program.memberNodes_prefix
    hViews.shows.members_eq hViews.shows_all.members_eq

theorem surfaces_prefix :
    v.surfaces <+: w.surfaces := by
  refine Listing.mapM_prefix hViews.program.order_prefix
    hViews.shows.surfaces_eq hViews.shows_all.surfaces_eq ?_
  intro t ht
  exact (hViews.program_surface_eq
    ((hViews.program.sound.fits.mem_order t).mp ht)).symm

theorem hasType_of_mem_types
    {t : TypeNode}
    (hMem : t ∈ v.types) :
    v.program.HasType t := by
  rw [hViews.shows.types_eq] at hMem
  exact Program.mem_typeNodes_iff.mp hMem

theorem hasMember_of_mem_members
    {m : MemberNode}
    (hMem : m ∈ v.members) :
    v.program.HasMember m :=
  hViews.shows.mem_members_iff.mp hMem

theorem hasType_of_mem_surfaces
    {s : Surface}
    (hMem : s ∈ v.surfaces) :
    v.program.HasType s.type := by
  rcases hViews.shows.mem_surfaces_iff.mp hMem with
    ⟨t, _, hSurface⟩
  rcases Program.surface_eq_ok_iff.mp hSurface with
    ⟨node, lineage, hNode, _, rfl⟩
  exact (Program.type_eq_ok_iff_hasType.mp hNode).2

theorem hasMember_slot
    {s : Surface}
    (hMem : s ∈ v.surfaces)
    {slot : Slot}
    (hSlot : slot ∈ s.slots) :
    v.program.HasMember slot.member ∧
      ∀ n ∈ slot.overridden, v.program.HasMember n :=
  hViews.shows.hasMember_slot hViews.program.sound hMem
    hSlot

------------------------------------------------------------
-- Quotations
------------------------------------------------------------

theorem signature_eq
    {m : MemberNode}
    (hMember : v.program.HasMember m) :
    w.signature m = v.signature m :=
  hViews.program.text_eq hMember

theorem comeTogetherAt_eq
    {t : TypeNode}
    (hType : v.program.HasType t)
    (a b : MemberNode) :
    w.comeTogetherAt t a b = v.comeTogetherAt t a b := by
  have hProgram := hViews.program
  have hLt := hType.lt_length
  unfold comeTogetherAt
  dsimp only
  rw [hProgram.strictAncestry_eq hLt]
  rw [Listing.any_congr]
  intro above hAbove
  have hInherits :=
    (hProgram.sound.fits.mem_strictAncestry_iff t.id
      above).mp hAbove
  have hKnown := hInherits.target_lt_length
    hProgram.sound.fits.closed
  rw [hProgram.isAncestorOrSelf_eq _ hKnown,
    hProgram.isAncestorOrSelf_eq _ hKnown]

theorem clashTexts_eq
    {t : TypeNode}
    (hType : v.program.HasType t)
    {a b : Slot}
    (ha : v.program.HasMember a.member)
    (hb : v.program.HasMember b.member) :
    w.clashTexts t a b = v.clashTexts t a b := by
  unfold clashTexts
  dsimp only
  rw [hViews.comeTogetherAt_eq hType,
    hViews.program.quoted_eq ha,
    hViews.program.quoted_eq hb]

end Extends

end ExportView

end JsExport
