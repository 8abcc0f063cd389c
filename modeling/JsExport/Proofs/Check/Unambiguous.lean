import JsExport.Proofs.Check.Outcome
import JsExport.Proofs.Check.Success
import JsExport.Proofs.Rules.AccessorShape
import JsExport.Proofs.Rules.NameClash
import JsExport.Proofs.Rules.Property

/-
  A silent check leaves no name in doubt.

  When a check reports no error, two slots of a surface have
  one name only when both stand for existing JavaScript, or
  when they are the reader and the writer of one property.

  Main declarations:
    * `IsPropertyPair` and `MayShareName`
    * `ExportView.Shows.mayShareName_of_mem_pairs`
    * `surfaces_unambiguous_of_no_errors`
-/

namespace JsExport

------------------------------------------------------------
-- Slots That May Share A Name
------------------------------------------------------------

/-
  That one slot reads a property and another writes it, with
  one parameter of the type that is read.
-/
structure IsPropertyPair
    (getter setter : Slot × JsIdentity) : Prop where
  reads : getter.2.role = .property .getter
  writes : setter.2.role = .property .setter
  agree :
    ∃ c d param,
      getter.1.member.decl.callable? = some c ∧
        setter.1.member.decl.callable? = some d ∧
          d.params = [param] ∧ c.result = param.type

/- That two slots may have one name. -/
inductive MayShareName
    (x y : Slot × JsIdentity) : Prop
| native
    (hFirst : x.1.member.isNative)
    (hSecond : y.1.member.isNative)
    (hRoles : ¬ (x.2.role.isProperty ∧ y.2.role.isProperty))
| property
    (hPair : IsPropertyPair x y ∨ IsPropertyPair y x)

namespace MayShareName

variable {x y : Slot × JsIdentity}

theorem symm
    (hShare : MayShareName x y) :
    MayShareName y x := by
  cases hShare with
  | native hFirst hSecond hRoles =>
      exact .native hSecond hFirst
        (fun hBoth => hRoles ⟨hBoth.2, hBoth.1⟩)
  | property hPair => exact .property hPair.symm

/-
  No accessor without access is next to another accessor, no
  two accessors have one access, and what is no accessor has
  its name from elsewhere.
-/
theorem excludes
    (hShare : MayShareName x y) :
    (x.2.role = .property .invalid →
        ¬ y.2.role.isProperty) ∧
      (x.2.role.isProperty → x.2.role ≠ y.2.role) ∧
        (¬ x.2.role.isProperty → x.1.member.isNative) := by
  cases hShare with
  | native hFirst _ hRoles =>
      refine ⟨?_, ?_, fun _ => hFirst⟩
      · intro hInvalid hProperty
        exact hRoles ⟨by rw [hInvalid]; rfl, hProperty⟩
      · intro hProperty hSame
        exact hRoles ⟨hProperty, hSame ▸ hProperty⟩
  | property hPair =>
      rcases hPair with hPair | hPair
      · rw [hPair.reads, hPair.writes]
        simp [JsRole.isProperty]
      · rw [hPair.reads, hPair.writes]
        simp [JsRole.isProperty]

end MayShareName

------------------------------------------------------------
-- Silent Views
------------------------------------------------------------

namespace ExportView

/- That no rule on names of slots has anything to report. -/
structure Silent
    (v : ExportView) : Prop where
  nameClashes_eq : v.nameClashes = []
  accessorShapes_silent :
    ∀ f ∈ v.accessorShapes, ¬ f.diagnostic.isError
  properties_eq : v.properties = []

namespace Shows

variable {v : ExportView}
variable {p : Program}
variable (hShows : v.Shows p)
variable (hSound : p.Sound)
variable (hSilent : v.Silent)
variable {s : Surface}
variable (hSurface : s ∈ v.surfaces)

include hShows hSound hSilent hSurface

/-
  An accessor of a silent view has an access, and takes one
  parameter if it writes.
-/
theorem access_of_silent
    {e : Slot × JsIdentity}
    (hNamed : e ∈ s.named)
    {access : Accessor}
    (hRole : e.2.role = .property access) :
    access ≠ .invalid ∧
      ∃ c, e.1.member.decl.callable? = some c ∧
        (access = .setter → c.params.length = 1) := by
  rcases hShows.access_of_slot hSound hSurface hNamed
      hRole with
    ⟨hCallable, hName, n, hn, hAccessor, hSignature⟩
  rcases Option.isSome_iff_exists.mp hCallable with ⟨c, hc⟩
  have hSame : n.decl.name = e.1.member.decl.name :=
    MemberDecl.name_eq_of_signature?_eq hCallable
      hSignature
  have hKey :
      e.1.member.decl.signature? =
        some (e.1.member.decl.name, c.paramTypes) :=
    MemberDecl.signature?_eq_some_iff.mpr ⟨c, hc, rfl⟩
  rcases MemberDecl.signature?_eq_some_iff.mp
      (hSignature.trans hKey) with
    ⟨d, hd, _⟩
  have hPasses := shapeBreach?_eq_none_of_silent
    hSilent.accessorShapes_silent
    (hShows.mem_members_iff.mpr hn) hAccessor hd
  rw [hSame] at hPasses
  rw [hName]
  refine ⟨ofName_ne_invalid_of_shapeBreach?_eq_none hPasses,
    c, hc, ?_⟩
  intro hWrites
  rw [← length_params_of_shapeBreach?_eq_none hPasses
    hWrites]
  exact (MemberDecl.length_params_eq_of_signature?_eq hc hd
    hSignature).symm

section Groups

variable {g : String × List (Slot × JsIdentity)}
variable (hGroup : g ∈ s.groups)
variable {x y : Slot × JsIdentity}

include hGroup

/- A reader and a writer of one name agree on the type. -/
theorem isPropertyPair_of_mem_group
    (hx : x ∈ g.2)
    (hy : y ∈ g.2)
    (hReads : x.2.role = .property .getter)
    (hWrites : y.2.role = .property .setter) :
    IsPropertyPair x y := by
  have hxNamed := ((Surface.mem_of_mem_groups hGroup).mp
    hx).1
  have hyNamed := ((Surface.mem_of_mem_groups hGroup).mp
    hy).1
  rcases hShows.access_of_silent hSound hSilent hSurface
      hxNamed hReads with
    ⟨_, c, hc, _⟩
  rcases hShows.access_of_silent hSound hSilent hSurface
      hyNamed hWrites with
    ⟨_, d, hd, hLength⟩
  rcases List.length_eq_one_iff.mp (hLength rfl) with
    ⟨param, hParams⟩
  rcases groupIssues_eq_nil_iff.mp
      (groupIssues_eq_nil_of_properties_eq_nil
        hSilent.properties_eq hSurface hGroup) with
    ⟨hReaders, hWriters, hAgree⟩
  have hGetter : v.accessors .getter g.2 = [x.1] :=
    Listing.eq_singleton_of_mem
      (mem_accessors_iff.mpr ⟨x, hx, hReads, rfl⟩) hReaders
  have hSetter : v.accessors .setter g.2 = [y.1] :=
    Listing.eq_singleton_of_mem
      (mem_accessors_iff.mpr ⟨y, hy, hWrites, rfl⟩) hWriters
  have hDiffer : typesDiffer x.1 y.1 = false := by
    apply hAgree
    · rw [hGetter]
      rfl
    · rw [hSetter]
      rfl
  exact ⟨hReads, hWrites, c, d, param, hc, hd, hParams,
    result_eq_of_typesDiffer_eq_false hc hd hParams hDiffer⟩

/- Two slots of one name are a property or are native. -/
theorem mayShareName_of_mem_pairs
    (hPair : (x, y) ∈ Listing.pairs g.2) :
    MayShareName x y := by
  rcases Listing.mem_of_mem_pairs hPair with ⟨hx, hy⟩
  have hxNamed := ((Surface.mem_of_mem_groups hGroup).mp
    hx).1
  have hyNamed := ((Surface.mem_of_mem_groups hGroup).mp
    hy).1
  by_cases hBoth : x.2.role.isProperty ∧ y.2.role.isProperty
  · rcases JsRole.isProperty_iff.mp hBoth.1 with
      ⟨access, hxRole⟩
    rcases JsRole.isProperty_iff.mp hBoth.2 with
      ⟨other, hyRole⟩
    have hxValid := (hShows.access_of_silent hSound hSilent
      hSurface hxNamed hxRole).1
    have hyValid := (hShows.access_of_silent hSound hSilent
      hSurface hyNamed hyRole).1
    rcases groupIssues_eq_nil_iff.mp
        (groupIssues_eq_nil_of_properties_eq_nil
          hSilent.properties_eq hSurface hGroup) with
      ⟨hReaders, hWriters, _⟩
    cases access with
    | invalid => exact absurd rfl hxValid
    | getter =>
        cases other with
        | invalid => exact absurd rfl hyValid
        | getter =>
            have hTwo := two_le_length_accessors (v := v)
              hPair hxRole hyRole
            omega
        | setter =>
            exact .property (Or.inl
              (hShows.isPropertyPair_of_mem_group hSound
                hSilent hSurface hGroup hx hy hxRole
                hyRole))
    | setter =>
        cases other with
        | invalid => exact absurd rfl hyValid
        | getter =>
            exact .property (Or.inr
              (hShows.isPropertyPair_of_mem_group hSound
                hSilent hSurface hGroup hy hx hyRole
                hxRole))
        | setter =>
            have hTwo := two_le_length_accessors (v := v)
              hPair hxRole hyRole
            omega
  · have hNone := clash_eq_false_of_nameClashes_eq_nil
      hSilent.nameClashes_eq hSurface hGroup hPair
    have hNative :
        x.1.member.isNative ∧ y.1.member.isNative := by
      by_contra hNot
      have hClash := clash_eq_true_iff.mpr ⟨hBoth, hNot⟩
      rw [hNone] at hClash
      cases hClash
    exact .native hNative.1 hNative.2 hBoth

end Groups

end Shows

end ExportView

------------------------------------------------------------
-- Silent Checks
------------------------------------------------------------

/- A check without errors is silent on names of slots. -/
theorem Program.Finds.silent
    {p : Program}
    {advice : Advice}
    {v : ExportView}
    {naming property contract usability : List Finding}
    (hFinds :
      p.Finds advice v naming property contract usability)
    (hSilent :
      (Log.ofFamilies naming property contract
        usability).errors = []) :
    v.Silent := by
  rcases ExportView.namingFindings_eq_ok_iff.mp
      hFinds.naming_eq with
    ⟨constructors, _, hNaming⟩
  rcases ExportView.propertyFindings_eq_ok_iff.mp
      hFinds.property_eq with
    ⟨superAccessors, _, hProperty⟩
  have hNo :
      ∀ f, f ∈ naming ∨ f ∈ property →
        ¬ f.diagnostic.isError := by
    intro f hf
    apply not_isError_of_errors_eq_nil hSilent
    simp only [List.mem_append]
    exact Or.inl (Or.inl hf)
  refine ⟨?_, ?_, ?_⟩
  · apply List.eq_nil_iff_forall_not_mem.mpr
    intro f hf
    have hIn : f ∈ naming := by simp [hNaming, hf]
    exact hNo f (Or.inl hIn)
      (ExportView.isError_of_mem_nameClashes hf)
  · intro f hf
    have hIn : f ∈ property := by simp [hProperty, hf]
    exact hNo f (Or.inr hIn)
  · apply List.eq_nil_iff_forall_not_mem.mpr
    intro f hf
    have hIn : f ∈ property := by simp [hProperty, hf]
    exact hNo f (Or.inr hIn)
      (ExportView.isError_of_mem_properties hf)

/-
  When the check of a built program has no errors, any two
  slots of a type in one group of a name are native members
  or the reader and the writer of one property.
-/
theorem surfaces_unambiguous_of_no_errors
    {draft : Draft}
    {p : Program}
    (hBuild : draft.build = .ok p)
    {settings : Settings}
    {outcome : Outcome}
    (hCheck : p.check settings = .ok outcome)
    (hSilent : outcome.log.errors = []) :
    ∃ v, p.exportView = .ok v ∧
      ∀ t < p.types.length, ∃ s, v.surface t = .ok s ∧
        ∀ g ∈ s.groups, ∀ (i j : Nat) (x y),
          i ≠ j → g.2[i]? = some x → g.2[j]? = some y →
            MayShareName x y ∧
            (x.2.role = .property .invalid →
              ¬ y.2.role.isProperty) ∧
            (x.2.role.isProperty →
              x.2.role ≠ y.2.role) ∧
            (¬ x.2.role.isProperty →
              x.1.member.isNative) := by
  have hSound := Program.sound_of_build hBuild
  rcases Program.check_eq_ok_iff.mp hCheck with
    ⟨v, naming, property, contract, usability, hFinds, rfl⟩
  have hShows := hFinds.shows
  have hQuiet := hFinds.silent hSilent
  refine ⟨v, Program.exportView_eq_ok_iff.mpr hShows, ?_⟩
  intro t hLt
  rcases hShows.exists_surface hSound hLt with
    ⟨s, hSurface, hFound, _⟩
  refine ⟨s, hFound, ?_⟩
  intro g hGroup i j x y hNe hx hy
  have hShare : MayShareName x y := by
    rcases Nat.lt_or_gt_of_ne hNe with hLow | hHigh
    · exact hShows.mayShareName_of_mem_pairs hSound hQuiet
        hSurface hGroup
        (Listing.mem_pairs_iff.mpr ⟨i, j, hLow, hx, hy⟩)
    · exact (hShows.mayShareName_of_mem_pairs hSound hQuiet
        hSurface hGroup (Listing.mem_pairs_iff.mpr
          ⟨j, i, hHigh, hy, hx⟩)).symm
  exact ⟨hShare, hShare.excludes⟩

/- The name of the shop is one property of two accessors. -/
theorem shop_name_is_one_property :
    ∃ p outcome v s x y, Draft.shop.build = .ok p ∧
      p.check Settings.standard = .ok outcome ∧
      outcome.log.errors = [] ∧ p.exportView = .ok v ∧
      v.surface 0 = .ok s ∧ ("name", [x, y]) ∈ s.groups ∧
      MayShareName x y := by
  rcases Draft.exists_build_shop with ⟨p, hBuild⟩
  have hSound := Program.sound_of_build hBuild
  rcases hSound.check_succeeds Settings.standard with
    ⟨outcome, hCheck⟩
  have hQuiet :
      (Draft.shop.check Settings.standard).toOption.map
          (fun outcome => outcome.log.errors) =
        some [] := by
    decide +kernel
  rw [Draft.check_eq_ok_of_build hBuild hCheck] at hQuiet
  have hSilent := Option.some.inj hQuiet
  rcases surfaces_unambiguous_of_no_errors hBuild hCheck
      hSilent with
    ⟨v, hView, hShares⟩
  have hCount : p.types.length = 4 := by
    rw [(Draft.build_eq_ok_iff.mp hBuild).2.2.1]
    rfl
  rcases hShares 0 (by omega) with ⟨s, hs, hGroups⟩
  have hSizes :
      (Draft.shop.build.toOption.bind (fun p =>
        p.exportView.toOption.bind (fun v =>
          (v.surface 0).toOption))).map (fun s =>
            s.groups.map (fun g => (g.1, g.2.length))) =
        some [("name", 2)] := by
    decide +kernel
  simp only [hBuild, hView, hs, Except.toOption,
    Option.bind_some, Option.map_some,
    Option.some.injEq] at hSizes
  have hListed :
      ("name", 2) ∈
        s.groups.map (fun g => (g.1, g.2.length)) := by
    rw [hSizes]
    exact List.mem_singleton_self _
  rcases List.mem_map.mp hListed with ⟨⟨name, g⟩, hg, hEq⟩
  rcases Prod.mk.inj hEq with ⟨rfl, hTwo⟩
  rcases List.length_eq_two.mp hTwo with ⟨x, y, rfl⟩
  exact ⟨p, outcome, v, s, x, y, hBuild, hCheck, hSilent,
    hView, hs, hg,
    (hGroups _ hg 0 1 x y Nat.zero_ne_one rfl rfl).1⟩
end JsExport
