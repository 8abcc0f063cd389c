import JsExport.Proofs.Check.Success

/-
  What a check reports in all, and when it is content.

  The families of rules are asked one after another, and the
  log of the outcome has all their reports in order.  It was
  told of an error when one is among them, so the outcome
  fails for an error, and for a warning if it is to.

  Main declarations:
    * `Log.made_ofFamilies`
    * `Outcome.succeeds_iff`
    * `outcome_arranges_reports_of_all_families`
-/

namespace JsExport

open Lookup

------------------------------------------------------------
-- Outcomes
------------------------------------------------------------

namespace Log

/- The log of an outcome is made step by step. -/
theorem made_ofFamilies
    (naming property contract usability : List Finding) :
    (ofFamilies naming property contract usability).Made := by
  have hEach :
      ∀ findings : List Finding,
        (ofFindings findings).Made :=
    fun _ => made_ofList _
  unfold ofFamilies
  exact ((((hEach naming).append (hEach property)).append
    (hEach contract)).append (hEach usability)).sort

/- Sorting that log again changes nothing. -/
theorem sort_ofFamilies
    (naming property contract usability : List Finding) :
    (ofFamilies naming property contract usability).sort =
      ofFamilies naming property contract usability := by
  unfold ofFamilies
  exact sort_sort _

/- Its entries are all reports in order. -/
theorem arranges_ofFamilies
    (naming property contract usability : List Finding) :
    Diagnostic.Arranges
      ((naming ++ property ++ contract ++ usability).map
        Finding.diagnostic)
      (ofFamilies naming property contract
        usability).entries := by
  rw [entries_ofFamilies]
  exact Diagnostic.arranges_sorted _

/- A log has warnings when one is among its entries. -/
theorem hasWarnings_iff
    {log : Log} :
    log.hasWarnings ↔
      ∃ d ∈ log.entries, d.severity = .warning := by
  unfold hasWarnings
  rw [List.any_eq_true]
  simp only [Diagnostic.isWarning, beq_iff_eq]

end Log

/-
  An outcome is content without errors, and without warnings
  if they count as errors.
-/
theorem Outcome.succeeds_iff
    {o : Outcome}
    (hMade : o.log.Made) :
    o.succeeds ↔
      (∀ d ∈ o.log.entries, d.severity ≠ .error) ∧
        (o.warningsAsErrors →
          ∀ d ∈ o.log.entries, d.severity ≠ .warning) := by
  have hErrors :
      o.log.hasErrors = false ↔
        ∀ d ∈ o.log.entries, d.severity ≠ .error := by
    rw [← Bool.not_eq_true, Log.made_iff.mp hMade]
    simp only [not_exists, not_and, ne_eq]
  have hWarnings :
      o.log.hasWarnings = false ↔
        ∀ d ∈ o.log.entries, d.severity ≠ .warning := by
    rw [← Bool.not_eq_true, Log.hasWarnings_iff]
    simp only [not_exists, not_and, ne_eq]
  rw [← hErrors, ← hWarnings]
  unfold succeeds
  cases o.log.hasErrors <;> cases o.warningsAsErrors <;>
    cases o.log.hasWarnings <;> simp

------------------------------------------------------------
-- Built Programs
------------------------------------------------------------

/-
  The check of a built program has an outcome, whatever the
  settings.  Its entries are the reports on names, those on
  properties, those on contracts and those on usability, put
  in order of file, line and rule with the equal ones as
  they were found, and sorting them again changes nothing.
  It was told of an error if, and only if, one is among
  them, and the logs that are made are those of which that
  holds.  The outcome is content if, and only if, it has no
  error, and no warning where warnings count as errors.
-/
theorem outcome_arranges_reports_of_all_families
    {draft : Draft}
    {p : Program}
    (hBuild : draft.build = .ok p)
    (settings : Settings) :
    ∃ v naming property contract usability outcome,
      p.exportView = .ok v ∧
      v.namingFindings = .ok naming ∧
      v.propertyFindings = .ok property ∧
      p.contractFindings = .ok contract ∧
      v.usability settings.advice = .ok usability ∧
      p.check settings = .ok outcome ∧
      Diagnostic.Arranges
        (naming.map Finding.diagnostic ++
          property.map Finding.diagnostic ++
          contract.map Finding.diagnostic ++
          usability.map Finding.diagnostic)
        outcome.log.entries ∧
      outcome.log.sort = outcome.log ∧
      (outcome.log.hasErrors ↔
        ∃ d ∈ outcome.log.entries, d.severity = .error) ∧
      (∀ log : Log, log.Made ↔
        (log.hasErrors ↔
          ∃ d ∈ log.entries, d.severity = .error)) ∧
      (outcome.succeeds ↔
        (∀ d ∈ outcome.log.entries, d.severity ≠ .error) ∧
          (settings.warningsAsErrors →
            ∀ d ∈ outcome.log.entries,
              d.severity ≠ .warning)) := by
  have hSound := Program.sound_of_build hBuild
  rcases hSound.check_succeeds settings with
    ⟨outcome, hOutcome⟩
  rcases Program.check_eq_ok_iff.mp hOutcome with
    ⟨v, naming, property, contract, usability, hFinds, rfl⟩
  have hMade :=
    Log.made_ofFamilies naming property contract usability
  have hAll :=
    Log.arranges_ofFamilies naming property contract usability
  rw [List.map_append, List.map_append,
    List.map_append] at hAll
  exact ⟨v, naming, property, contract, usability, _,
    Program.exportView_eq_ok_iff.mpr hFinds.shows,
    hFinds.naming_eq, hFinds.property_eq,
    hFinds.contract_eq, hFinds.usability_eq, hOutcome, hAll,
    Log.sort_ofFamilies naming property contract usability,
    Log.made_iff.mp hMade, fun _ => Log.made_iff,
    Outcome.succeeds_iff hMade⟩

/-
  A stall takes a weight that is not for JavaScript on its
  second line, and a field and a method share a name on the
  lines below.
-/
def Draft.stall : Draft :=
  let declared : String → MemberShape → Nat → MemberDecl :=
    fun name shape line =>
      { MemberDecl.plain name 0 shape .untagged with
        span := Span.atLine line }
  ⟨[.plain "Stall" .classKind ⟨true, false, false⟩
      [0, 1, 2]],
    [declared "weigh"
        (.plain (.method .void) [.prim .long] .empty) 2,
      declared "label" (.field ⟨.string, .absent⟩) 3,
      declared "label" (.plain (.method .string) [] .empty)
        4]⟩

/-
  The clash of the stall is found first, and its advice, of
  a line above, is reported first.
-/
theorem stall_advice_reported_before_clash :
    ∃ p v naming usability outcome,
      Draft.stall.build = .ok p ∧
      p.exportView = .ok v ∧
      v.namingFindings = .ok naming ∧
      naming.map (fun f => f.diagnostic.span.line) = [3] ∧
      v.usability Settings.standard.advice =
        .ok usability ∧
      usability.map (fun f => f.diagnostic.span.line) = [2] ∧
      p.check Settings.standard = .ok outcome ∧
      outcome.log.entries.map (fun d =>
          (d.span.line, d.severity)) =
        [(2, .warning), (3, .error)] ∧
      outcome.log.sort = outcome.log ∧
      outcome.log.hasErrors ∧ ¬ outcome.succeeds := by
  have hBuilt : ∃ p, Draft.stall.build = .ok p := ⟨_, rfl⟩
  rcases hBuilt with ⟨p, hBuild⟩
  rcases outcome_arranges_reports_of_all_families hBuild
      Settings.standard with
    ⟨v, naming, property, contract, usability, outcome,
      hView, hNaming, _, _, hUsability, hOutcome, _, hSort,
      hErrors, _, hSucceeds⟩
  have hFound :
      (Draft.stall.build.toOption.bind (fun p =>
        p.exportView.toOption.bind (fun v =>
          v.namingFindings.toOption))).map (fun found =>
            found.map (fun f => f.diagnostic.span.line)) =
        some [3] := by
    decide +kernel
  have hAdvised :
      (Draft.stall.build.toOption.bind (fun p =>
        p.exportView.toOption.bind (fun v =>
          (v.usability
            Settings.standard.advice).toOption))).map
              (fun found => found.map (fun f =>
                f.diagnostic.span.line)) =
        some [2] := by
    decide +kernel
  simp only [hBuild, hView, hNaming, Except.toOption,
    Option.bind_some, Option.map_some, Option.some.injEq]
    at hFound
  simp only [hBuild, hView, hUsability, Except.toOption,
    Option.bind_some, Option.map_some, Option.some.injEq]
    at hAdvised
  have hEntries :
      outcome.log.entries.map (fun d =>
          (d.span.line, d.severity)) =
        [(2, .warning), (3, .error)] :=
    Draft.eq_of_map_check_eq_some hBuild hOutcome
      (fun o => o.log.entries.map (fun d =>
        (d.span.line, d.severity)))
      (by decide +kernel)
  have hError :
      ∃ d ∈ outcome.log.entries, d.severity = .error := by
    have hLast :
        (3, Severity.error) ∈ outcome.log.entries.map
          (fun d => (d.span.line, d.severity)) := by
      rw [hEntries]
      decide
    rcases List.mem_map.mp hLast with ⟨d, hd, hSame⟩
    exact ⟨d, hd, (Prod.mk.inj hSame).2⟩
  refine ⟨p, v, naming, usability, outcome, hBuild, hView,
    hNaming, hFound, hUsability, hAdvised, hOutcome,
    hEntries, hSort, hErrors.mpr hError, ?_⟩
  intro hContent
  rcases hError with ⟨d, hd, hWeight⟩
  exact (hSucceeds.mp hContent).1 d hd hWeight

end JsExport
