import JsExport.Proofs.Check.ClashCounts

/-
  How the reports of the rules on names are told apart.

  A report is known by its rule and by what it is about, in
  this order.  A clash is about two members and a taken name
  about one, several exported constructors are reported of
  their type, and only one rule each reports constructors
  that are not reached and names that change.

  Main declarations:
    * `Diagnostic.isOn` and `Outcome.Reports`
    * `ExportView.filter_naming_on_renames`
    * `ExportView.filter_naming_on_globalNames`
    * `ExportView.filter_naming_on_constructors`
    * `Program.Finds.reports_of_filter_eq`
-/

namespace JsExport

open Lookup

------------------------------------------------------------
-- Reports By Rule And Subjects
------------------------------------------------------------

/- Whether a report is filed under a rule, about the given. -/
def Diagnostic.isOn
    (rule : Rule)
    (subjects : List Subject)
    (d : Diagnostic) : Bool :=
  decide (d.rule = rule ∧ d.subjects = subjects)

namespace Finding

variable {f : Finding}
variable {rule : Rule}
variable {subjects : List Subject}

theorem isOn_iff :
    f.diagnostic.isOn rule subjects ↔
      f.breach.rule = rule ∧ f.subjects = subjects :=
  decide_eq_true_iff

/- Findings under one other rule are not meant. -/
theorem filter_isOn_eq_nil
    {findings : List Finding}
    {other : Rule}
    (hRules : ∀ f ∈ findings, f.breach.rule = other)
    (hOther : other ≠ rule) :
    findings.filter
        (fun f => f.diagnostic.isOn rule subjects) = [] := by
  apply List.filter_eq_nil_iff.mpr
  intro f hf hOn
  exact hOther ((hRules f hf).symm.trans (isOn_iff.mp hOn).1)

end Finding

------------------------------------------------------------
-- Rules And Subjects Of The Rules On Names
------------------------------------------------------------

namespace ExportView

variable {v : ExportView}
variable {f : Finding}
variable {findings : List Finding}

/- A clash of names is about two members. -/
theorem length_subjects_of_mem_nameClashes
    (hMem : f ∈ v.nameClashes) :
    f.breach.rule = .namingCollision ∧
      f.subjects.length = 2 := by
  rcases List.mem_map.mp hMem with ⟨c, _, rfl⟩
  exact ⟨rfl, rfl⟩

/- Among properties only clashes are about names. -/
theorem length_subjects_of_mem_propertyFindings
    (hProperty : v.propertyFindings = .ok findings)
    (hMem : f ∈ findings) :
    2 ≤ f.breach.rule.rank ∨
      f.breach.rule = .namingCollision ∧
        f.subjects.length = 2 := by
  rcases propertyFindings_eq_ok_iff.mp hProperty with
    ⟨superAccessors, hSuper, rfl⟩
  simp only [List.mem_append] at hMem
  rcases hMem with (hShape | hProperties) | hCall
  · rw [rule_of_mem_accessorShapes hShape]
    exact .inl (Nat.le_refl 2)
  · rcases List.mem_map.mp hProperties with ⟨issue, _, rfl⟩
    cases issue with
    | clash c => exact .inr ⟨rfl, rfl⟩
    | mismatch c =>
        change 2 ≤ (mismatchFinding c).breach.rule.rank ∨ _
        rw [breach_mismatchFinding]
        exact .inl (Nat.le_refl 2)
  · rw [rule_of_mem_superAccessors hSuper hCall]
    exact .inl (Nat.le_refl 2)

theorem rule_of_mem_globalNames
    (hMem : f ∈ v.globalNames) :
    f.breach.rule = .namingCollision := by
  rcases List.mem_map.mp hMem with ⟨c, _, rfl⟩
  rfl

theorem rule_of_mem_renames
    (hMem : f ∈ v.renames) :
    f.breach.rule = .inconsistentRename := by
  rcases List.mem_map.mp hMem with ⟨r, _, rfl⟩
  rfl

/- Constructors are reported of their type or with another. -/
theorem subjects_of_mem_constructors
    (hFound : v.constructors = .ok findings)
    (hMem : f ∈ findings) :
    (f.breach.rule = .namingCollision ∧
        ∃ t : TypeId, f.subjects = [.type t]) ∨
      f.breach.rule = .constructorDelegation := by
  rcases mem_constructors_cases hFound hMem with
    ⟨t, _, primary, _, _, rfl | ⟨c, _, rfl⟩⟩
  · exact .inl ⟨rfl, t.id, rfl⟩
  · exact .inr rfl

------------------------------------------------------------
-- One Rule On Names For Each Kind Of Report
------------------------------------------------------------

variable {naming : List Finding}
variable {constructors : List Finding}

/- Clashes of names apart, there are three rules on names. -/
theorem filter_naming_isOn
    (hNaming : v.namingFindings = .ok naming)
    (hFound : v.constructors = .ok constructors)
    {rule : Rule}
    {subjects : List Subject}
    (hNoClash :
      rule = .namingCollision → subjects.length ≠ 2) :
    naming.filter
        (fun f => f.diagnostic.isOn rule subjects) =
      v.globalNames.filter
          (fun f => f.diagnostic.isOn rule subjects) ++
        constructors.filter
            (fun f => f.diagnostic.isOn rule subjects) ++
          v.renames.filter
            (fun f => f.diagnostic.isOn rule subjects) := by
  rcases namingFindings_eq_ok_iff.mp hNaming with
    ⟨found, hOther, rfl⟩
  cases hFound.symm.trans hOther
  have hClashes :
      v.nameClashes.filter (fun f =>
        f.diagnostic.isOn rule subjects) = [] := by
    apply List.filter_eq_nil_iff.mpr
    intro f hf hOn
    rcases Finding.isOn_iff.mp hOn with ⟨hSame, rfl⟩
    rcases length_subjects_of_mem_nameClashes hf with
      ⟨hRule, hTwo⟩
    exact hNoClash (hSame.symm.trans hRule) hTwo
  simp only [List.filter_append, hClashes, List.nil_append]

/- One rule reports overriding methods with other names. -/
theorem filter_naming_on_renames
    (hNaming : v.namingFindings = .ok naming)
    (subjects : List Subject) :
    naming.filter (fun f =>
        f.diagnostic.isOn .inconsistentRename subjects) =
      v.renames.filter (fun f =>
        f.diagnostic.isOn .inconsistentRename subjects) := by
  rcases namingFindings_eq_ok_iff.mp hNaming with
    ⟨constructors, hFound, _⟩
  have hGlobal :
      v.globalNames.filter (fun f =>
        f.diagnostic.isOn .inconsistentRename subjects) = [] :=
    Finding.filter_isOn_eq_nil
      (fun _ => rule_of_mem_globalNames) Rule.noConfusion
  have hMakers :
      constructors.filter (fun f =>
        f.diagnostic.isOn .inconsistentRename subjects) =
          [] := by
    apply List.filter_eq_nil_iff.mpr
    intro f hf hOn
    have hRule := (Finding.isOn_iff.mp hOn).1
    rcases subjects_of_mem_constructors hFound hf with
      ⟨hOther, _⟩ | hOther
    · cases hRule.symm.trans hOther
    · cases hRule.symm.trans hOther
  rw [filter_naming_isOn hNaming hFound Rule.noConfusion,
    hGlobal, hMakers, List.nil_append, List.nil_append]

/- One rule reports of single members that names are taken. -/
theorem filter_naming_on_globalNames
    (hNaming : v.namingFindings = .ok naming)
    (id : MemberId) :
    naming.filter (fun f =>
        f.diagnostic.isOn .namingCollision [.member id]) =
      v.globalNames.filter (fun f =>
        f.diagnostic.isOn .namingCollision [.member id]) := by
  rcases namingFindings_eq_ok_iff.mp hNaming with
    ⟨constructors, hFound, _⟩
  have hRenames :
      v.renames.filter (fun f =>
        f.diagnostic.isOn .namingCollision [.member id]) =
          [] :=
    Finding.filter_isOn_eq_nil
      (fun _ => rule_of_mem_renames) Rule.noConfusion
  have hMakers :
      constructors.filter (fun f =>
        f.diagnostic.isOn .namingCollision [.member id]) =
          [] := by
    apply List.filter_eq_nil_iff.mpr
    intro f hf hOn
    rcases Finding.isOn_iff.mp hOn with ⟨hRule, hSubjects⟩
    rcases subjects_of_mem_constructors hFound hf with
      ⟨_, t, hType⟩ | hOther
    · cases hSubjects.symm.trans hType
    · cases hRule.symm.trans hOther
  rw [filter_naming_isOn hNaming hFound (fun _ => by simp),
    hRenames, hMakers, List.append_nil, List.append_nil]

/-
  That reports under a rule about some declarations can only
  come from the rule on constructors.
-/
def AboutConstructors
    (rule : Rule)
    (subjects : List Subject) : Prop :=
  rule = .constructorDelegation ∨
    rule = .namingCollision ∧
      ∃ t : TypeId, subjects = [.type t]

theorem AboutConstructors.rank_lt
    {rule : Rule}
    {subjects : List Subject}
    (hAbout : AboutConstructors rule subjects) :
    rule.rank < 2 := by
  rcases hAbout with rfl | ⟨rfl, _⟩
  · decide
  · decide

theorem AboutConstructors.length_ne
    {rule : Rule}
    {subjects : List Subject}
    (hAbout : AboutConstructors rule subjects)
    (hRule : rule = .namingCollision) :
    subjects.length ≠ 2 := by
  rcases hAbout with hOther | ⟨_, t, rfl⟩
  · cases hRule.symm.trans hOther
  · simp

/- One rule reports constructors, alone and of their types. -/
theorem filter_naming_on_constructors
    (hNaming : v.namingFindings = .ok naming)
    (hFound : v.constructors = .ok constructors)
    {rule : Rule}
    {subjects : List Subject}
    (hAbout : AboutConstructors rule subjects) :
    naming.filter
        (fun f => f.diagnostic.isOn rule subjects) =
      constructors.filter
        (fun f => f.diagnostic.isOn rule subjects) := by
  have hGlobal :
      v.globalNames.filter (fun f =>
        f.diagnostic.isOn rule subjects) = [] := by
    apply List.filter_eq_nil_iff.mpr
    intro f hf hOn
    rcases Finding.isOn_iff.mp hOn with ⟨hSame, hSubjects⟩
    rcases hAbout with rfl | ⟨_, t, rfl⟩
    · cases hSame.symm.trans (rule_of_mem_globalNames hf)
    · rcases List.mem_map.mp hf with ⟨c, _, rfl⟩
      cases hSubjects
  have hRenames :
      v.renames.filter (fun f =>
        f.diagnostic.isOn rule subjects) = [] := by
    apply Finding.filter_isOn_eq_nil
      (fun _ => rule_of_mem_renames)
    rintro rfl
    rcases hAbout with hOther | ⟨hOther, _⟩
    · cases hOther
    · cases hOther
  rw [filter_naming_isOn hNaming hFound hAbout.length_ne,
    hGlobal, hRenames, List.nil_append, List.append_nil]

end ExportView

------------------------------------------------------------
-- Reports In The Log
------------------------------------------------------------

/-
  That some findings on names and no others are filed under
  a rule about some declarations, and that the outcome of a
  check reports them and no others.
-/
structure Outcome.Reports
    (outcome : Outcome)
    (naming : List Finding)
    (rule : Rule)
    (subjects : List Subject)
    (found : List Finding) : Prop where
  found_eq :
    naming.filter
      (fun f => f.diagnostic.isOn rule subjects) = found
  entries_eq :
    outcome.log.entries.filter
        (Diagnostic.isOn rule subjects) =
      found.map Finding.diagnostic

namespace Program.Finds

variable {p : Program}
variable {advice : Advice}
variable {v : ExportView}
variable {naming property contract usability : List Finding}
variable
  (hFinds :
    p.Finds advice v naming property contract usability)

include hFinds

/-
  The reports under a rule on names, clashes apart, come from
  the rules on names.
-/
theorem filter_entries_isOn
    {rule : Rule}
    {subjects : List Subject}
    (hRule : rule.rank < 2)
    (hNoClash :
      rule = .namingCollision → subjects.length ≠ 2) :
    ((Log.ofFamilies naming property contract
        usability).entries.filter
          (Diagnostic.isOn rule subjects)).Perm
      ((naming.filter (fun f =>
        f.diagnostic.isOn rule subjects)).map
            Finding.diagnostic) := by
  have hProperty :
      property.filter (fun f =>
        f.diagnostic.isOn rule subjects) = [] := by
    apply List.filter_eq_nil_iff.mpr
    intro f hf hOn
    rcases Finding.isOn_iff.mp hOn with ⟨rfl, rfl⟩
    rcases ExportView.length_subjects_of_mem_propertyFindings
        hFinds.property_eq hf with
      hHigh | ⟨hNaming, hTwo⟩
    · exact absurd hRule (Nat.not_lt.mpr hHigh)
    · exact hNoClash hNaming hTwo
  have hContract :
      contract.filter (fun f =>
        f.diagnostic.isOn rule subjects) = [] := by
    apply Finding.filter_isOn_eq_nil (fun _ hf =>
      rule_of_mem_contractFindings hFinds.contract_eq hf)
    rintro rfl
    exact absurd hRule (by decide)
  have hUsability :
      usability.filter (fun f =>
        f.diagnostic.isOn rule subjects) = [] := by
    apply Finding.filter_isOn_eq_nil (fun _ hf =>
      ExportView.rule_of_mem_usability hFinds.usability_eq hf)
    rintro rfl
    exact absurd hRule (by decide)
  have hAll := Log.filter_entries_ofFamilies naming property
    contract usability (Diagnostic.isOn rule subjects)
  rw [hProperty, hContract, hUsability, List.append_nil,
    List.append_nil, List.append_nil] at hAll
  exact hAll

/- One finding on names is one report. -/
theorem reports_of_filter_eq
    {rule : Rule}
    {subjects : List Subject}
    (hRule : rule.rank < 2)
    (hNoClash :
      rule = .namingCollision → subjects.length ≠ 2)
    {found : List Finding}
    (hFound :
      naming.filter
        (fun f => f.diagnostic.isOn rule subjects) = found)
    (hOne : found.length ≤ 1)
    {outcome : Outcome}
    (hLog :
      outcome.log =
        .ofFamilies naming property contract usability) :
    outcome.Reports naming rule subjects found := by
  refine ⟨hFound, ?_⟩
  have hPerm := hFinds.filter_entries_isOn hRule hNoClash
  rw [hFound] at hPerm
  rw [hLog]
  match found with
  | [] => exact hPerm.eq_nil
  | [_] => exact hPerm.eq_singleton
  | _ :: _ :: _ => simp at hOne

end Program.Finds

end JsExport
