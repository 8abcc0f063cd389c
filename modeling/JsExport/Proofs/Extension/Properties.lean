import JsExport.Proofs.Extension.Names
import JsExport.Proofs.Listing.Stable
import JsExport.Proofs.Rules.Property

/-
  Reports on properties, in a program that holds another.

  Main declarations:
    * `ExportView.Extends.accessorShapes_prefix`
    * `ExportView.Extends.properties_prefix`
    * `ExportView.Extends.superAccessors_prefix`
    * `ExportView.Extends.propertyFindings_sublist`
-/

namespace JsExport

open Lookup

namespace ExportView.Extends

variable {v w : ExportView}
variable (hViews : w.Extends v)

include hViews

------------------------------------------------------------
-- Shapes
------------------------------------------------------------

theorem isAccessor_eq_of_lt
    {m : MemberId}
    (hLt : m < v.program.members.length) :
    w.table.isAccessor m = v.table.isAccessor m := by
  unfold ExportTable.isAccessor
  rw [hViews.identity?_eq_of_lt hLt]

theorem accessorShapes_prefix :
    v.accessorShapes <+: w.accessorShapes := by
  apply Listing.filterMap_prefix hViews.members_prefix
  intro m hm
  have hMember := hViews.hasMember_of_mem_members hm
  unfold shapeFinding?
  rw [hViews.isAccessor_eq_of_lt hMember.lt_length,
    hViews.signature_eq hMember]

------------------------------------------------------------
-- Issues Of Properties
------------------------------------------------------------

section Groups

variable {s : Surface}
variable (hSurface : s ∈ v.surfaces)
variable {g : String × List (Slot × JsIdentity)}
variable (hGroup : g ∈ s.groups)

include hSurface hGroup

theorem accessors_eq
    (access : Accessor) :
    w.accessors access g.2 = v.accessors access g.2 := by
  apply Listing.sortedOn_congr
  intro slot hSlot
  rcases List.mem_map.mp hSlot with ⟨e, he, rfl⟩
  exact hViews.signature_eq (hViews.hasMember_of_mem_group
    hSurface hGroup (List.mem_of_mem_filter he))

theorem groupIssues_eq :
    w.groupIssues s.type g.1 g.2 =
      v.groupIssues s.type g.1 g.2 := by
  unfold groupIssues
  rw [hViews.accessors_eq hSurface hGroup .getter,
    hViews.accessors_eq hSurface hGroup .setter]

theorem hasMember_of_mem_accessors
    {access : Accessor}
    {slot : Slot}
    (hSlot : slot ∈ v.accessors access g.2) :
    v.program.HasMember slot.member := by
  rcases mem_accessors_iff.mp hSlot with ⟨e, he, _, rfl⟩
  exact hViews.hasMember_of_mem_group hSurface hGroup he

/- An issue of a group is reported alike. -/
theorem issueFinding_eq
    {issue : PropertyIssue}
    (hIssue : issue ∈ v.groupIssues s.type g.1 g.2) :
    w.issueFinding issue = v.issueFinding issue := by
  cases issue with
  | mismatch c => rfl
  | clash c =>
      apply hViews.clash_finding_eq
      rcases mem_of_clash_mem_groupIssues hIssue with
        ⟨hType, access, hFirst, hSecond⟩
      refine ⟨?_, ?_, ?_⟩
      · rw [hType]
        exact hViews.hasType_of_mem_surfaces hSurface
      · exact hViews.hasMember_of_mem_accessors hSurface
          hGroup hFirst
      · exact hViews.hasMember_of_mem_accessors hSurface
          hGroup hSecond

end Groups

theorem properties_prefix :
    v.properties <+: w.properties := by
  have hIssues : v.propertyIssues <+: w.propertyIssues := by
    apply Listing.flatMap_prefix hViews.surfaces_prefix
    intro s hs
    apply List.flatMap_congr
    intro g hg
    exact (hViews.groupIssues_eq hs hg).symm
  apply Listing.map_prefix
    (Listing.firstBy_prefix hIssues PropertyIssue.key)
  intro issue hIssue
  have hMem := (Listing.firstBy_sublist _ _).subset hIssue
  rcases List.mem_flatMap.mp hMem with ⟨s, hs, hIn⟩
  rcases List.mem_flatMap.mp hIn with ⟨g, hg, hHere⟩
  exact (hViews.issueFinding_eq hs hg hHere).symm

------------------------------------------------------------
-- Calls Through Super
------------------------------------------------------------

theorem superAccessors_prefix
    {first all : List Finding}
    (hFirst : v.superAccessors = .ok first)
    (hAll : w.superAccessors = .ok all) :
    first <+: all := by
  refine Listing.flatten_mapM_prefix hViews.members_prefix
    hFirst hAll ?_
  intro m hm
  have hMember := hViews.hasMember_of_mem_members hm
  have hTarget :
      ∀ call ∈ m.decl.superCalls,
        call.target < v.program.members.length :=
    (hViews.program.sound.wellFormed.bodies m.decl
      (List.mem_of_getElem? hMember.1)).1
  rw [List.filter_congr (fun call hCall =>
    hViews.isAccessor_eq_of_lt (hTarget call hCall))]
  apply mapM_congr
  intro call hCall
  have hLt := hTarget call (List.mem_of_mem_filter hCall)
  rcases hViews.program.sound.member_succeeds hLt with
    ⟨target, hFound⟩
  have hKnown :=
    (Program.member_eq_ok_iff_hasMember.mp hFound).2
  unfold superAccessor
  rw [hViews.program.member_eq hLt, hFound]
  change Except.ok _ = Except.ok _
  rw [hViews.signature_eq hKnown]

/- The reports on properties are among those of the larger. -/
theorem propertyFindings_sublist
    {property all : List Finding}
    (hProperty : v.propertyFindings = .ok property)
    (hAll : w.propertyFindings = .ok all) :
    property.Sublist all := by
  rcases propertyFindings_eq_ok_iff.mp hProperty with
    ⟨first, hFirst, rfl⟩
  rcases propertyFindings_eq_ok_iff.mp hAll with
    ⟨more, hMore, rfl⟩
  exact (hViews.accessorShapes_prefix.sublist.append
    hViews.properties_prefix.sublist).append
      (hViews.superAccessors_prefix hFirst hMore).sublist

end ExportView.Extends

end JsExport
