import JsExport.Check
import JsExport.Proofs.Export.Surface
import JsExport.Proofs.Report.Log

/-
  What an outcome holds.

  The entries of the log are the findings of all families,
  in order of their places.  So a finding that weighs as an
  error shows in every outcome.

  Main declarations:
    * `Program.Finds`
    * `Program.check_eq_ok_iff`
    * `Program.not_isError_of_errors_eq_nil`
-/

namespace JsExport

open Lookup

------------------------------------------------------------
-- Findings Of A Check
------------------------------------------------------------

namespace Program

/- That a view has certain findings of each family. -/
structure Finds
    (p : Program)
    (advice : Advice)
    (v : ExportView)
    (naming property contract usability : List Finding) :
    Prop where
  shows : v.Shows p
  naming_eq : v.namingFindings = .ok naming
  property_eq : v.propertyFindings = .ok property
  contract_eq : p.contractFindings = .ok contract
  usability_eq : v.usability advice = .ok usability

end Program

/- The log of findings that are found one after another. -/
def Log.ofFamilies
    (naming property contract usability : List Finding) :
    Log :=
  ((((Log.ofFindings naming).append
    (Log.ofFindings property)).append
      (Log.ofFindings contract)).append
        (Log.ofFindings usability)).sort

/- The entries are the reports of all findings, sorted. -/
theorem Log.entries_ofFamilies
    (naming property contract usability : List Finding) :
    (ofFamilies naming property contract usability).entries =
      Listing.sorted Diagnostic.before
        ((naming ++ property ++ contract ++ usability).map
          Finding.diagnostic) := by
  unfold ofFamilies ofFindings sort
  simp only [entries_append, entries_ofList,
    List.map_append]

/- The entries that pass a test come from such findings. -/
theorem Log.filter_entries_ofFamilies
    (naming property contract usability : List Finding)
    (test : Diagnostic → Bool) :
    ((ofFamilies naming property contract
        usability).entries.filter test).Perm
      ((naming.filter (fun f => test f.diagnostic) ++
        property.filter (fun f => test f.diagnostic) ++
        contract.filter (fun f => test f.diagnostic) ++
        usability.filter (fun f => test f.diagnostic)).map
          Finding.diagnostic) := by
  rw [entries_ofFamilies]
  refine ((Listing.sorted_perm _ _).filter _).trans ?_
  rw [List.filter_map, Function.comp_def]
  simp only [List.filter_append]
  exact List.Perm.refl _

namespace Program

variable {p : Program}
variable {settings : Settings}

/- A check collects the findings of all families. -/
theorem check_eq_ok_iff
    {outcome : Outcome} :
    p.check settings = .ok outcome ↔
      ∃ v naming property contract usability,
        p.Finds settings.advice v naming property contract
            usability ∧
          outcome =
            ⟨.ofFamilies naming property contract usability,
              settings.warningsAsErrors⟩ := by
  unfold check
  rw [bind_eq_ok_iff]
  constructor
  · rintro ⟨v, hView, hRest⟩
    rcases bind_eq_ok_iff.mp hRest with
      ⟨naming, hNaming, hRest⟩
    rcases bind_eq_ok_iff.mp hRest with
      ⟨property, hProperty, hRest⟩
    rcases bind_eq_ok_iff.mp hRest with
      ⟨contract, hContract, hRest⟩
    rcases bind_eq_ok_iff.mp hRest with
      ⟨usability, hUsability, hEq⟩
    exact ⟨v, naming, property, contract, usability,
      ⟨exportView_eq_ok_iff.mp hView, hNaming, hProperty,
        hContract, hUsability⟩,
      (Except.ok.inj hEq).symm⟩
  · rintro ⟨v, naming, property, contract, usability,
      hFinds, rfl⟩
    refine ⟨v, exportView_eq_ok_iff.mpr hFinds.shows, ?_⟩
    apply bind_eq_ok_iff.mpr
    refine ⟨naming, hFinds.naming_eq, ?_⟩
    apply bind_eq_ok_iff.mpr
    refine ⟨property, hFinds.property_eq, ?_⟩
    apply bind_eq_ok_iff.mpr
    refine ⟨contract, hFinds.contract_eq, ?_⟩
    apply bind_eq_ok_iff.mpr
    exact ⟨usability, hFinds.usability_eq, rfl⟩

/- An outcome without errors has no finding that is one. -/
theorem not_isError_of_errors_eq_nil
    {naming property contract usability : List Finding}
    (hSilent :
      (Log.ofFamilies naming property contract
        usability).errors = [])
    {f : Finding}
    (hFound :
      f ∈ naming ++ property ++ contract ++ usability) :
    ¬ f.diagnostic.isError := by
  have hEntry :
      f.diagnostic ∈
        (Log.ofFamilies naming property contract
          usability).entries := by
    rw [Log.entries_ofFamilies]
    exact (Listing.sorted_perm _ _).mem_iff.mpr
      (List.mem_map_of_mem hFound)
  exact List.filter_eq_nil_iff.mp hSilent _ hEntry

end Program

------------------------------------------------------------
-- Drafts
------------------------------------------------------------

/- The outcome of a draft is the outcome of its program. -/
theorem Draft.check_eq_ok_of_build
    {draft : Draft}
    {p : Program}
    (hBuild : draft.build = .ok p)
    {settings : Settings}
    {outcome : Outcome}
    (hOutcome : p.check settings = .ok outcome) :
    draft.check settings = .ok outcome := by
  unfold Draft.check
  apply bind_eq_ok_iff.mpr
  refine ⟨p, ?_, ?_⟩
  · unfold Draft.program
    rw [hBuild]
    rfl
  · rw [hOutcome]
    rfl

/- What is read off the check of a draft holds of it. -/
theorem Draft.eq_of_map_check_eq_some
    {draft : Draft}
    {p : Program}
    (hBuild : draft.build = .ok p)
    {settings : Settings}
    {outcome : Outcome}
    (hOutcome : p.check settings = .ok outcome)
    {α : Type}
    (read : Outcome → α)
    {seen : α}
    (hSeen :
      (draft.check settings).toOption.map read = some seen) :
    read outcome = seen := by
  rw [Draft.check_eq_ok_of_build hBuild hOutcome] at hSeen
  exact Option.some.inj hSeen

------------------------------------------------------------
-- Families
------------------------------------------------------------

namespace ExportView

variable {v : ExportView}
variable {findings : List Finding}

/- The findings on names, rule by rule. -/
theorem namingFindings_eq_ok_iff :
    v.namingFindings = .ok findings ↔
      ∃ constructors, v.constructors = .ok constructors ∧
        findings = v.nameClashes ++ v.globalNames ++
          constructors ++ v.renames := by
  unfold namingFindings
  rw [bind_eq_ok_iff]
  constructor
  · rintro ⟨constructors, hConstructors, hEq⟩
    exact ⟨constructors, hConstructors,
      (Except.ok.inj hEq).symm⟩
  · rintro ⟨constructors, hConstructors, rfl⟩
    exact ⟨constructors, hConstructors, rfl⟩

/- The findings on properties, rule by rule. -/
theorem propertyFindings_eq_ok_iff :
    v.propertyFindings = .ok findings ↔
      ∃ superAccessors,
        v.superAccessors = .ok superAccessors ∧
          findings = v.accessorShapes ++ v.properties ++
            superAccessors := by
  unfold propertyFindings
  rw [bind_eq_ok_iff]
  constructor
  · rintro ⟨superAccessors, hSuper, hEq⟩
    exact ⟨superAccessors, hSuper,
      (Except.ok.inj hEq).symm⟩
  · rintro ⟨superAccessors, hSuper, rfl⟩
    exact ⟨superAccessors, hSuper, rfl⟩

/- The advice that is given, unless none is wanted. -/
theorem usability_eq_ok_iff
    {advice : Advice}
    (hOn : advice.isOn = true) :
    v.usability advice = .ok findings ↔
      ∃ own exposed,
        (v.members.filter (fun m =>
          v.table.exports m.id)).mapM (fun m =>
            v.memberAdvice advice.key m none) = .ok own ∧
        v.onlyExposedSlots.mapM (fun slot =>
          v.memberAdvice advice.key slot.member
            slot.exposedBy) = .ok exposed ∧
        findings = own.flatten ++ exposed.flatten := by
  unfold usability
  rw [if_pos hOn, bind_eq_ok_iff]
  constructor
  · rintro ⟨own, hOwn, hRest⟩
    rcases bind_eq_ok_iff.mp hRest with
      ⟨exposed, hExposed, hEq⟩
    exact ⟨own, exposed, hOwn, hExposed,
      (Except.ok.inj hEq).symm⟩
  · rintro ⟨own, exposed, hOwn, hExposed, rfl⟩
    exact ⟨own, hOwn,
      bind_eq_ok_iff.mpr ⟨exposed, hExposed, rfl⟩⟩

end ExportView

end JsExport
