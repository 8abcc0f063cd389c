import JsExport.Proofs.Check.ClashReports
import JsExport.Proofs.Check.Success
import JsExport.Proofs.Extension.Contracts
import JsExport.Proofs.Extension.Properties
import JsExport.Proofs.Extension.Usability

/-
  What a check reports when a program grows.

  Every family finds in the larger program what it found in
  the smaller one, in the same order; and sorting by place
  keeps equals in their order.  So no report is taken back,
  reworded or moved before another one.

  Main declarations:
    * `Program.Extends.entries_sublist`
    * `reports_kept_by_extension`
-/

namespace JsExport

open Lookup

------------------------------------------------------------
-- Entries Of Logs
------------------------------------------------------------

namespace Program

namespace Extends

variable {p q : Program}
variable (hExtends : q.Extends p)

include hExtends

/- The entries of a log are among those of the larger log. -/
theorem entries_sublist
    {advice : Advice}
    {v w : ExportView}
    {naming property contract usability : List Finding}
    {naming' property' contract' usability' : List Finding}
    (hFinds :
      p.Finds advice v naming property contract usability)
    (hFindsAll :
      q.Finds advice w naming' property' contract'
        usability') :
    (Log.ofFamilies naming property contract
        usability).entries.Sublist
      (Log.ofFamilies naming' property' contract'
        usability').entries := by
  have hViews := ExportView.extends_of_shows hExtends
    hFinds.shows hFindsAll.shows
  have hNaming := hViews.namingFindings_sublist
    hFinds.naming_eq hFindsAll.naming_eq
  have hProperty := hViews.propertyFindings_sublist
    hFinds.property_eq hFindsAll.property_eq
  have hContract := hExtends.contractFindings_prefix
    hFinds.contract_eq hFindsAll.contract_eq
  have hUsability := hViews.usability_sublist advice
    hFinds.usability_eq hFindsAll.usability_eq
  have hFindings :
      (naming ++ property ++ contract ++ usability).Sublist
        (naming' ++ property' ++ contract' ++ usability') :=
    ((hNaming.append hProperty).append
      hContract.sublist).append hUsability
  rw [Log.entries_ofFamilies, Log.entries_ofFamilies]
  exact Listing.sorted_sublist Diagnostic.before
    (hFindings.map Finding.diagnostic)

end Extends

end Program

------------------------------------------------------------
-- Built Programs
------------------------------------------------------------

/-
  A program whose declarations begin with those of another
  has the types of that one first in its order, in the same
  order.  The identities of their members and their surfaces
  stay, whatever is declared later.  So do all reports:
  those of the smaller program are what is left of the
  reports of the larger one when some of them are deleted.
-/
theorem reports_kept_by_extension
    {draft wider : Draft}
    {p q : Program}
    (hBuild : draft.build = .ok p)
    (hBuildAll : wider.build = .ok q)
    (hTypes : p.types <+: q.types)
    (hMembers : p.members <+: q.members)
    (settings : Settings) :
    p.hierarchy.order <+: q.hierarchy.order ∧
    (∃ v w, p.exportView = .ok v ∧ q.exportView = .ok w ∧
      (∀ m < p.members.length,
        w.table.identity? m = v.table.identity? m) ∧
      ∀ t < p.types.length,
        ∃ s, v.surface t = .ok s ∧ w.surface t = .ok s) ∧
    ∃ outcome outcome',
      p.check settings = .ok outcome ∧
        q.check settings = .ok outcome' ∧
        outcome.log.entries.Sublist
          outcome'.log.entries := by
  have hSound := Program.sound_of_build hBuild
  have hSoundAll := Program.sound_of_build hBuildAll
  have hExtends : q.Extends p :=
    ⟨hSound, hSoundAll, hTypes, hMembers⟩
  refine ⟨hExtends.order_prefix, ?_, ?_⟩
  · rcases hSound.exportView_succeeds with ⟨v, hView⟩
    rcases hSoundAll.exportView_succeeds with
      ⟨w, hViewAll⟩
    have hShows := Program.exportView_eq_ok_iff.mp hView
    have hViews := ExportView.extends_of_shows hExtends
      hShows (Program.exportView_eq_ok_iff.mp hViewAll)
    have hProgram := hShows.program_eq
    subst hProgram
    refine ⟨v, w, hView, hViewAll, ?_, ?_⟩
    · intro m hLt
      exact hViews.identity?_eq_of_lt hLt
    · intro t hLt
      rcases hShows.exists_surface hSound hLt with
        ⟨s, _, hSurface, _⟩
      exact ⟨s, hSurface,
        (hViews.surface_eq hLt).trans hSurface⟩
  · rcases hSound.check_succeeds settings with
      ⟨outcome, hOutcome⟩
    rcases hSoundAll.check_succeeds settings with
      ⟨outcome', hOutcome'⟩
    refine ⟨outcome, outcome', hOutcome, hOutcome', ?_⟩
    rcases Program.check_eq_ok_iff.mp hOutcome with
      ⟨_, _, _, _, _, hFinds, rfl⟩
    rcases Program.check_eq_ok_iff.mp hOutcome' with
      ⟨_, _, _, _, _, hFindsAll, rfl⟩
    exact hExtends.entries_sublist hFinds hFindsAll

/-
  A box is added to the shelf, in a file that comes before
  that of the shelf.  Its own label clashes with both labels
  that it inherits.
-/
def Draft.shelfAndBox : Draft :=
  let exported : TypeFlags := ⟨true, false, false⟩
  ⟨Draft.shelf.types ++
    [{ TypeDecl.plain "Box" .classKind exported [2] with
      superClass := some 0
      file := "Box.java" }],
  Draft.shelf.members ++
    [.plain "label" 2
      (.plain (.method .string) [.string] .empty)
      .untagged]⟩

/- The report on the shelf stays, after those on the box. -/
theorem shelf_report_kept_beside_box :
    ∃ p q outcome outcome',
      Draft.shelf.build = .ok p ∧
      Draft.shelfAndBox.build = .ok q ∧
      p.types <+: q.types ∧ p.members <+: q.members ∧
      p.check Settings.standard = .ok outcome ∧
      q.check Settings.standard = .ok outcome' ∧
      outcome.log.entries.map (fun d => d.subjects) =
        [[.member 0, .member 1]] ∧
      outcome'.log.entries.map (fun d => d.subjects) =
        [[.member 2, .member 1], [.member 2, .member 0],
          [.member 0, .member 1]] ∧
      outcome.log.entries.Sublist
        outcome'.log.entries := by
  have hBuilt : ∃ p, Draft.shelf.build = .ok p := ⟨_, rfl⟩
  have hBuiltAll : ∃ q, Draft.shelfAndBox.build = .ok q :=
    ⟨_, rfl⟩
  rcases hBuilt with ⟨p, hBuild⟩
  rcases hBuiltAll with ⟨q, hBuildAll⟩
  rcases (Draft.build_eq_ok_iff.mp hBuild).2.2 with
    ⟨hTypes, hMembers⟩
  rcases (Draft.build_eq_ok_iff.mp hBuildAll).2.2 with
    ⟨hTypesAll, hMembersAll⟩
  have hTypesPrefix : p.types <+: q.types := by
    rw [hTypes, hTypesAll]
    exact List.prefix_append _ _
  have hMembersPrefix : p.members <+: q.members := by
    rw [hMembers, hMembersAll]
    exact List.prefix_append _ _
  rcases (reports_kept_by_extension hBuild hBuildAll
      hTypesPrefix hMembersPrefix Settings.standard).2.2 with
    ⟨outcome, outcome', hOutcome, hOutcome', hKept⟩
  have hReports :
      (Draft.shelf.check Settings.standard).toOption.map
          (fun o => o.log.entries.map
            (fun d => d.subjects)) =
        some [[.member 0, .member 1]] := by
    decide +kernel
  have hReportsAll :
      (Draft.shelfAndBox.check
          Settings.standard).toOption.map
          (fun o => o.log.entries.map
            (fun d => d.subjects)) =
        some [[.member 2, .member 1],
          [.member 2, .member 0],
          [.member 0, .member 1]] := by
    decide +kernel
  rw [Draft.check_eq_ok_of_build hBuild hOutcome]
    at hReports
  rw [Draft.check_eq_ok_of_build hBuildAll hOutcome']
    at hReportsAll
  exact ⟨p, q, outcome, outcome', hBuild, hBuildAll,
    hTypesPrefix, hMembersPrefix, hOutcome, hOutcome',
    Option.some.inj hReports, Option.some.inj hReportsAll,
    hKept⟩

end JsExport
