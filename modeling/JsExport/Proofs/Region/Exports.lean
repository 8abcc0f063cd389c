import JsExport.Proofs.Check.Outcome
import JsExport.Proofs.Check.Severity
import JsExport.Proofs.Region.Basic
import JsExport.Proofs.Rules.Naming

/-
  Rules on exports and the types outside.

  The rules on names, on properties and on usability are
  about what JavaScript sees.  Where that is all outside a
  set of types, each of their findings is about declarations
  outside, but for calls through `super`, which are about
  the calling body as well.

  Main declarations:
    * `ExportView.spares_of_mem_namingFindings`
    * `ExportView.spares_or_onBody_of_mem_propertyFindings`
    * `ExportView.spares_of_mem_usability`
-/

namespace JsExport

open Lookup

namespace ExportView

variable {v : ExportView}
variable {p : Program}
variable {S : Set TypeId}
variable (hShows : v.Shows p)
variable (hSound : p.Sound)
variable (hOutside : v.ShowsOutside p S)
variable {f : Finding}
variable {findings : List Finding}

------------------------------------------------------------
-- Names
------------------------------------------------------------

section NameClashes

include hOutside

/- A named slot and its type are outside. -/
theorem isOutside_of_mem_named
    {s : Surface}
    (hSurface : s ∈ v.surfaces)
    {e : Slot × JsIdentity}
    (hNamed : e ∈ s.named) :
    s.type.IsOutside p S ∧ e.1.member.IsOutside p S := by
  rcases Surface.mem_named_iff.mp hNamed with
    ⟨hSlot, hIdentity⟩
  have hSome : e.1.identity.isSome :=
    Option.isSome_of_eq_some hIdentity
  rcases hOutside.slots s hSurface e.1 hSlot hSome with
    ⟨hType, hMember, _⟩
  exact ⟨hType, hMember⟩

omit hOutside in
theorem spares_finding
    {c : Clash}
    (hFirst : c.first.member.IsOutside p S)
    (hSecond : c.second.member.IsOutside p S) :
    (c.finding v).Spares p S :=
  (Finding.spares_ofMember hFirst _).about
    (.member hSecond)

theorem spares_of_mem_nameClashes
    (hMem : f ∈ v.nameClashes) :
    f.Spares p S := by
  rcases List.mem_map.mp hMem with ⟨c, hc, rfl⟩
  rcases List.mem_flatMap.mp
      ((Listing.firstBy_sublist _ _).subset hc) with
    ⟨s, hSurface, hClash⟩
  rcases Surface.clashes_of_mem_clashes hClash with
    ⟨_, x, y, hBoth, hx, hy, _⟩
  have hFirst : c.first.member.IsOutside p S := by
    rw [hx]
    exact (isOutside_of_mem_named hOutside hSurface
      hBoth.first_mem).2
  have hSecond : c.second.member.IsOutside p S := by
    rw [hy]
    exact (isOutside_of_mem_named hOutside hSurface
      hBoth.second_mem).2
  rcases (c.ordered_cases v).1 with hSame | hSwap
  · rw [hSame]
    exact spares_finding hFirst hSecond
  · rw [hSwap]
    exact spares_finding hSecond hFirst

theorem spares_of_mem_renames
    (hMem : f ∈ v.renames) :
    f.Spares p S := by
  rcases List.mem_map.mp hMem with ⟨r, hr, rfl⟩
  rcases List.mem_flatMap.mp
      ((Listing.firstBy_sublist _ _).subset hr) with
    ⟨s, hSurface, hRenames⟩
  rcases List.mem_flatMap.mp hRenames with
    ⟨slot, hSlot, hRename⟩
  rcases of_mem_slotRenames hRename with
    ⟨hSome, hSame, hOther⟩
  rcases hOutside.slots s hSurface slot hSlot hSome with
    ⟨_, hMember, hOverridden⟩
  rw [← hSame] at hMember
  exact (Finding.spares_ofMember hMember _).about
    (.member (hOverridden _ hOther))

end NameClashes

section Declared

include hShows hSound hOutside

/- An exported member of a type says that it is outside. -/
theorem isOutside_of_mem_declaredBy
    {t : TypeNode}
    (hType : t ∈ v.types)
    {m : MemberNode}
    (hDeclared : m ∈ v.program.declaredBy t)
    (hSome : (v.identity? m).isSome) :
    t.IsOutside p S ∧
      ∀ n ∈ v.program.declaredBy t, n.IsOutside p S := by
  rw [hShows.types_eq] at hType
  rw [hShows.program_eq] at hDeclared ⊢
  have hHere := Program.mem_typeNodes_iff.mp hType
  rcases hSound.hasMember_of_mem_declaredBy hHere
      hDeclared with
    ⟨hMember, hOwner⟩
  have hOut := (hOutside.members m hMember hSome).2
  rw [hOwner] at hOut
  refine ⟨⟨hHere, hOut⟩, ?_⟩
  intro n hn
  rcases hSound.hasMember_of_mem_declaredBy hHere hn with
    ⟨hOther, hSame⟩
  refine ⟨hOther, ?_⟩
  rw [hSame]
  exact hOut

theorem spares_of_mem_globalNames
    (hMem : f ∈ v.globalNames) :
    f.Spares p S := by
  rcases List.mem_map.mp hMem with ⟨c, hc, rfl⟩
  rcases of_mem_claims
      ((lateClaims_sublist _ _).subset hc) with
    ⟨hSome, t, ht, hDeclared⟩
  have hAll := (isOutside_of_mem_declaredBy hShows hSound
    hOutside ht hDeclared hSome).2
  exact Finding.spares_ofMember (hAll _ hDeclared) _

theorem spares_of_mem_constructors
    (hConstructors : v.constructors = .ok findings)
    (hMem : f ∈ findings) :
    f.Spares p S := by
  rcases mem_constructors_cases hConstructors hMem with
    ⟨t, hType, primary, hPrimary, hExport, hCases⟩
  rcases (Option.any_eq_true_iff_get _ _).mp hExport with
    ⟨hSome, _⟩
  rcases isOutside_of_mem_declaredBy hShows hSound hOutside
      hType hPrimary hSome with
    ⟨hOut, hAll⟩
  rcases hCases with rfl | ⟨c, hc, rfl⟩
  · exact Finding.spares_ofType hOut _
  · exact (Finding.spares_ofMember
      (hAll primary hPrimary) _).about (.member (hAll c hc))

theorem spares_of_mem_namingFindings
    (hNaming : v.namingFindings = .ok findings)
    (hMem : f ∈ findings) :
    f.Spares p S := by
  rcases namingFindings_eq_ok_iff.mp hNaming with
    ⟨constructors, hConstructors, rfl⟩
  simp only [List.mem_append] at hMem
  rcases hMem with
    ((hClash | hGlobal) | hConstructor) | hRename
  · exact spares_of_mem_nameClashes hOutside hClash
  · exact spares_of_mem_globalNames hShows hSound hOutside
      hGlobal
  · exact spares_of_mem_constructors hShows hSound hOutside
      hConstructors hConstructor
  · exact spares_of_mem_renames hOutside hRename

end Declared

------------------------------------------------------------
-- Properties
------------------------------------------------------------

section Properties

include hOutside

theorem isOutside_of_isAccessor
    {m : MemberNode}
    (hMember : p.HasMember m)
    (hAccessor : v.table.isAccessor m.id) :
    m.IsOutside p S := by
  rcases (Option.any_eq_true_iff_get _ _).mp hAccessor with
    ⟨hSome, _⟩
  exact hOutside.members m hMember hSome

omit hOutside in
/- A mismatch is placed at one of its declarations. -/
theorem spares_mismatchFinding
    {c : Clash}
    (hType : c.type.IsOutside p S)
    (hFirst : c.first.member.IsOutside p S)
    (hSecond : c.second.member.IsOutside p S) :
    (mismatchFinding c).Spares p S := by
  unfold mismatchFinding
  dsimp only
  refine Finding.Spares.about ?_ (.member hSecond)
  refine Finding.Spares.about ?_ (.member hFirst)
  split
  · exact Finding.spares_ofMember hSecond _
  · split
    · exact Finding.spares_ofMember hFirst _
    · exact Finding.spares_ofType hType _

theorem spares_of_mem_properties
    (hMem : f ∈ v.properties) :
    f.Spares p S := by
  rcases List.mem_map.mp hMem with ⟨issue, hi, rfl⟩
  rcases List.mem_flatMap.mp
      ((Listing.firstBy_sublist _ _).subset hi) with
    ⟨s, hSurface, hIssues⟩
  rcases List.mem_flatMap.mp hIssues with
    ⟨g, hGroup, hIssue⟩
  have hOut :
      ∀ access, ∀ slot ∈ v.accessors access g.2,
        s.type.IsOutside p S ∧
          slot.member.IsOutside p S := by
    intro access slot hSlot
    rcases mem_accessors_iff.mp hSlot with ⟨e, he, _, rfl⟩
    exact isOutside_of_mem_named hOutside hSurface
      ((Surface.mem_of_mem_groups hGroup).mp he).1
  rcases mem_groupIssues_cases hIssue with
    ⟨access, a, b, hPair, rfl⟩ |
      ⟨getter, setter, hGetter, hSetter, rfl⟩
  · rcases Listing.mem_of_mem_pairs hPair with ⟨ha, hb⟩
    exact spares_finding (hOut access a ha).2
      (hOut access b hb).2
  · have hReads := List.mem_of_mem_head? hGetter
    have hWrites := List.mem_of_mem_head? hSetter
    exact spares_mismatchFinding
      (hOut .getter getter hReads).1
      (hOut .getter getter hReads).2
      (hOut .setter setter hWrites).2

include hShows

theorem spares_of_mem_accessorShapes
    (hMem : f ∈ v.accessorShapes) :
    f.Spares p S := by
  rcases List.mem_filterMap.mp hMem with ⟨m, hm, hShape⟩
  unfold shapeFinding? at hShape
  split at hShape
  · rename_i hAccessor
    rcases Option.map_eq_some_iff.mp hShape with
      ⟨breach, _, rfl⟩
    exact Finding.spares_ofMember
      (isOutside_of_isAccessor hOutside
        (hShows.mem_members_iff.mp hm) hAccessor) _
  · cases hShape

/- The accessor called is outside; the caller may not be. -/
theorem spares_or_onBody_of_mem_superAccessors
    (hSuper : v.superAccessors = .ok findings)
    (hMem : f ∈ findings) :
    f.Spares p S ∨ f.OnBody p S := by
  rcases bind_eq_ok_iff.mp hSuper with ⟨lists, hLists, hEq⟩
  cases hEq
  rcases (mem_flatten_of_mapM_eq_ok hLists).mp hMem with
    ⟨m, hm, found, hFound, hHere⟩
  rcases (mem_of_mapM_eq_ok hFound).mp hHere with
    ⟨call, hFiltered, hReport⟩
  rcases List.mem_filter.mp hFiltered with
    ⟨hCall, hAccessor⟩
  rcases bind_eq_ok_iff.mp hReport with
    ⟨target, hTarget, hFinding⟩
  cases hFinding
  have hMember := hShows.mem_members_iff.mp hm
  rw [hShows.program_eq] at hTarget
  rcases Program.member_eq_ok_iff_hasMember.mp hTarget with
    ⟨hId, hThere⟩
  rw [← hId] at hAccessor
  have hOut := isOutside_of_isAccessor hOutside
    hThere hAccessor
  by_cases hIn : m.owner.id ∈ S
  · right
    unfold signature
    rw [hShows.program_eq]
    exact .superCall hMember hIn hCall hTarget hOut.2
  · left
    exact (Finding.spares_inBody ⟨hMember, hIn⟩ _ _).about
      (.member hOut)

theorem spares_or_onBody_of_mem_propertyFindings
    (hProperty : v.propertyFindings = .ok findings)
    (hMem : f ∈ findings) :
    f.Spares p S ∨ f.OnBody p S := by
  rcases propertyFindings_eq_ok_iff.mp hProperty with
    ⟨superAccessors, hSuper, rfl⟩
  simp only [List.mem_append] at hMem
  rcases hMem with (hShape | hProperties) | hCall
  · exact .inl
      (spares_of_mem_accessorShapes hShows hOutside hShape)
  · exact .inl
      (spares_of_mem_properties hOutside hProperties)
  · exact spares_or_onBody_of_mem_superAccessors hShows
      hOutside hSuper hCall

end Properties

------------------------------------------------------------
-- Usability
------------------------------------------------------------

section Usability

include hShows hOutside

theorem spares_of_mem_usability
    {advice : Advice}
    (hUsability : v.usability advice = .ok findings)
    (hMem : f ∈ findings) :
    f.Spares p S := by
  rcases exists_ofMember_of_mem_usability hUsability hMem
    with ⟨m, hCases, breach, _, rfl⟩
  apply Finding.spares_ofMember
  rcases hCases with ⟨hIn, hExports⟩ | ⟨slot, hSlot, rfl⟩
  · exact hOutside.members m
      (hShows.mem_members_iff.mp hIn) hExports
  · rcases List.mem_filter.mp
        ((Listing.firstBy_sublist _ _).subset hSlot) with
      ⟨hIn, hOnly⟩
    rcases List.mem_flatMap.mp hIn with
      ⟨s, hSurface, hHere⟩
    have hSome : slot.identity.isSome :=
      (Bool.and_eq_true_iff.mp
        (Bool.and_eq_true_iff.mp hOnly).1).2
    exact (hOutside.slots s hSurface slot hHere hSome).2.1

end Usability

end ExportView

end JsExport
