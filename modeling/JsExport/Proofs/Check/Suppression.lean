import JsExport.Proofs.Check.Severity
import JsExport.Proofs.Check.Success
import JsExport.Proofs.Suppression.Contracts
import JsExport.Proofs.Suppression.Names
import JsExport.Proofs.Suppression.Properties
import JsExport.Proofs.Suppression.Usability

/-
  What suppressions and settings change about a check.

  Suppressions are read by the advice on usability and by
  nothing else, and so are the settings.  So they move no
  error: the errors of a check are the same, in the same
  order, whatever is silenced and whether advice is given or
  not.  Silencing more takes warnings away and adds none.

  Main declarations:
    * `ExportView.namingFindings_unsilenced`
    * `ExportView.propertyFindings_unsilenced`
    * `errors_kept_and_warnings_dropped_by_suppressions`
-/

namespace JsExport

open Lookup

------------------------------------------------------------
-- Families Of Rules
------------------------------------------------------------

namespace ExportView

variable (v : ExportView)

theorem namingFindings_unsilenced :
    v.unsilenced.namingFindings = v.namingFindings := by
  unfold namingFindings
  rw [v.constructors_unsilenced, v.nameClashes_unsilenced,
    v.globalNames_unsilenced, v.renames_unsilenced]

theorem propertyFindings_unsilenced :
    v.unsilenced.propertyFindings = v.propertyFindings := by
  unfold propertyFindings
  rw [v.superAccessors_unsilenced,
    v.accessorShapes_unsilenced, v.properties_unsilenced]

end ExportView

namespace Program

/- Programs that differ in suppressions find alike. -/
theorem Finds.eq_of_unsilenced_eq
    {p q : Program}
    (hSame : q.unsilenced = p.unsilenced)
    {advice advice' : Advice}
    {v w : ExportView}
    {naming property contract usability : List Finding}
    {naming' property' contract' usability' : List Finding}
    (hFinds :
      p.Finds advice v naming property contract usability)
    (hFinds' :
      q.Finds advice' w naming' property' contract'
        usability') :
    w.unsilenced = v.unsilenced ∧ naming' = naming ∧
      property' = property ∧ contract' = contract := by
  have hViews : w.unsilenced = v.unsilenced := by
    have hView := p.exportView_unsilenced
    have hView' := q.exportView_unsilenced
    rw [exportView_eq_ok_iff.mpr hFinds.shows] at hView
    rw [exportView_eq_ok_iff.mpr hFinds'.shows, hSame, hView]
      at hView'
    exact (Except.ok.inj hView').symm
  have hNaming := hFinds'.naming_eq
  have hProperty := hFinds'.property_eq
  have hContract := hFinds'.contract_eq
  rw [← ExportView.namingFindings_unsilenced, hViews,
    ExportView.namingFindings_unsilenced, hFinds.naming_eq]
    at hNaming
  rw [← ExportView.propertyFindings_unsilenced, hViews,
    ExportView.propertyFindings_unsilenced,
    hFinds.property_eq] at hProperty
  rw [← contractFindings_unsilenced, hSame,
    contractFindings_unsilenced, hFinds.contract_eq]
    at hContract
  exact ⟨hViews, (Except.ok.inj hNaming).symm,
    (Except.ok.inj hProperty).symm,
    (Except.ok.inj hContract).symm⟩

end Program

------------------------------------------------------------
-- Built Programs
------------------------------------------------------------

/-
  Two programs that differ in what their types, members and
  parameters silence are checked with any two settings.  The
  errors are the same, in the same order.  If the advice is
  wanted and silenced by the same key, and the second program
  silences more, its warnings are what is left of those of
  the first when some are deleted.  If no advice is wanted,
  there is nothing but the errors.
-/
theorem errors_kept_and_warnings_dropped_by_suppressions
    {draft other : Draft}
    (hSame : other.unsilenced = draft.unsilenced)
    {p q : Program}
    (hBuild : draft.build = .ok p)
    (hOther : other.build = .ok q)
    (settings settings' : Settings) :
    ∃ outcome outcome',
      p.check settings = .ok outcome ∧
      q.check settings' = .ok outcome' ∧
      outcome'.log.errors = outcome.log.errors ∧
      (settings.advice.isOn →
        settings'.advice.key = settings.advice.key →
          other.SilencesMore draft →
            outcome'.log.warnings.Sublist
              outcome.log.warnings) ∧
      (settings'.advice.isOn = false →
        outcome'.log.entries = outcome.log.errors) := by
  have hSound := Program.sound_of_build hBuild
  have hSound' := Program.sound_of_build hOther
  rcases hSound.check_succeeds settings with
    ⟨outcome, hOutcome⟩
  rcases hSound'.check_succeeds settings' with
    ⟨outcome', hOutcome'⟩
  refine ⟨outcome, outcome', hOutcome, hOutcome', ?_⟩
  rcases Program.check_eq_ok_iff.mp hOutcome with
    ⟨v, naming, property, contract, usability, hFinds, rfl⟩
  rcases Program.check_eq_ok_iff.mp hOutcome' with
    ⟨w, _, _, _, usability', hFinds', rfl⟩
  rcases hFinds.eq_of_unsilenced_eq
      (Program.unsilenced_eq_of_build hSame hBuild hOther)
      hFinds' with
    ⟨hViews, rfl, rfl, rfl⟩
  dsimp only
  rw [hFinds.errors_eq, hFinds'.errors_eq,
    hFinds.warnings_eq, hFinds'.warnings_eq]
  refine ⟨rfl, ?_, ?_⟩
  · intro hOn hKey hMore
    have hPart :=
      ExportView.usability_sublist_of_silencesMore hViews
        hFinds.shows hFinds'.shows
        (fun m n => hMore.member hBuild hOther) hSound
        hSound' hOn hKey hFinds.usability_eq
        hFinds'.usability_eq
    exact Listing.sorted_sublist Diagnostic.before
      (hPart.map Finding.diagnostic)
  · intro hOff
    have hAdvice := hFinds'.usability_eq
    unfold ExportView.usability at hAdvice
    rw [if_neg (by rw [hOff]; exact Bool.false_ne_true)]
      at hAdvice
    cases hAdvice
    rw [Log.entries_ofFamilies, List.append_nil]

/-
  A bank shows its balance both as a field and as a method,
  in a type that JavaScript lacks.  The amount that it is
  given is of that type too, but advice on it is silenced.
-/
def Draft.bank : Draft :=
  let exported : TypeFlags := ⟨true, false, false⟩
  ⟨[.plain "Bank" .classKind exported [0, 1, 2]],
  [.plain "balance" 0 (.field ⟨.prim .long, .absent⟩)
      .untagged,
    .plain "balance" 0
      (.plain (.method (.prim .long)) [] .empty) .untagged,
    .plain "deposit" 0
      (.callable ⟨.method .void,
        [⟨"amount", .prim .long, ["unusable-by-js"]⟩], false,
        .empty⟩) .untagged]⟩

/-
  Without its suppression there is one more warning.  Without
  advice the clash of the two balances is left.
-/
theorem bank_errors_stay_and_advice_on_amount_goes :
    ∃ p q outcome outcome' silent,
      Draft.bank.unsilenced.build = .ok p ∧
      Draft.bank.build = .ok q ∧
      Draft.bank.SilencesMore Draft.bank.unsilenced ∧
      p.check Settings.standard = .ok outcome ∧
      q.check Settings.standard = .ok outcome' ∧
      q.check ⟨⟨false, "all"⟩, true⟩ = .ok silent ∧
      outcome.log.errors.map (fun d => d.subjects) =
        [[.member 0, .member 1]] ∧
      outcome'.log.errors = outcome.log.errors ∧
      outcome.log.warnings.map (fun d => d.subjects) =
        [[.member 0], [.member 1], [.member 2]] ∧
      outcome'.log.warnings.map (fun d => d.subjects) =
        [[.member 0], [.member 1]] ∧
      outcome'.log.warnings.Sublist outcome.log.warnings ∧
      silent.log.entries = outcome.log.errors := by
  have hBuilt : ∃ p, Draft.bank.unsilenced.build = .ok p :=
    ⟨_, rfl⟩
  have hBuiltOther : ∃ q, Draft.bank.build = .ok q := ⟨_, rfl⟩
  rcases hBuilt with ⟨p, hBuild⟩
  rcases hBuiltOther with ⟨q, hOther⟩
  have hMore := Draft.bank.silencesMore_unsilenced
  rcases errors_kept_and_warnings_dropped_by_suppressions
      hMore.same hBuild hOther Settings.standard
      Settings.standard with
    ⟨outcome, outcome', hOutcome, hOutcome', hErrors,
      hWarnings, _⟩
  rcases errors_kept_and_warnings_dropped_by_suppressions
      hMore.same hBuild hOther Settings.standard
      ⟨⟨false, "all"⟩, true⟩ with
    ⟨again, silent, hAgain, hSilent, _, _, hEntries⟩
  rw [hOutcome] at hAgain
  cases hAgain
  have hReports :
      (Draft.bank.unsilenced.check
          Settings.standard).toOption.map (fun o =>
            (o.log.errors.map (fun d => d.subjects),
              o.log.warnings.map (fun d => d.subjects))) =
        some ([[.member 0, .member 1]],
          [[.member 0], [.member 1], [.member 2]]) := by
    decide +kernel
  have hReportsOther :
      (Draft.bank.check Settings.standard).toOption.map
          (fun o =>
            o.log.warnings.map (fun d => d.subjects)) =
        some [[.member 0], [.member 1]] := by
    decide +kernel
  rw [Draft.check_eq_ok_of_build hBuild hOutcome] at hReports
  rw [Draft.check_eq_ok_of_build hOther hOutcome']
    at hReportsOther
  rcases Prod.mk.inj (Option.some.inj hReports) with
    ⟨hFirst, hSecond⟩
  exact ⟨p, q, outcome, outcome', silent, hBuild, hOther,
    hMore, hOutcome, hOutcome', hSilent, hFirst, hErrors,
    hSecond, Option.some.inj hReportsOther,
    hWarnings rfl rfl hMore, hEntries rfl⟩

end JsExport
