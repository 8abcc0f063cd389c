import JsExport.Proofs.Check.ClashReports
import JsExport.Proofs.Check.Severity
import JsExport.Proofs.Rules.LikeAccessors
import JsExport.Proofs.Rules.Naming

/-
  How often two members are reported to clash.

  Two families of rules report clashes: the rules on names
  leave out two accessors and two native members, the rules
  on properties report like accessors, native or not.  Each
  family reports two members once at most.  A member that is
  not exported itself may be a method at one type and an
  accessor at another one, so both families can report the
  same two members.

  Main declarations:
    * `Diagnostic.isClashOf` and `Log.countClashes`
    * `Program.Finds.countClashes_eq`
    * `clash_reported_twice_iff_both_ways`
-/

namespace JsExport

open Lookup

------------------------------------------------------------
-- Reports On Clashes
------------------------------------------------------------

/- Whether a report says that two members clash. -/
def Diagnostic.isClashOf
    (a b : MemberId)
    (d : Diagnostic) : Bool :=
  decide (d.rule = .namingCollision ∧
    (d.subjects = [.member a, .member b] ∨
      d.subjects = [.member b, .member a]))

/- The number of reports that two members clash. -/
def Log.countClashes
    (log : Log)
    (a b : MemberId) : Nat :=
  log.entries.countP (Diagnostic.isClashOf a b)

namespace Finding

variable {f : Finding}
variable {a b : MemberId}

/-
  That a finding under the rule on names is a clash or has
  one subject.
-/
def TellsClash
    (f : Finding) : Prop :=
  f.breach.rule = .namingCollision →
    (∃ first second name,
      f.breach = .nameClash first second name) ∨
        f.subjects.length = 1

theorem isClashOf_iff :
    f.isClashOf a b = true ↔
      (∃ first second name,
        f.breach = .nameClash first second name) ∧
          (f.subjects = [.member a, .member b] ∨
            f.subjects = [.member b, .member a]) := by
  unfold isClashOf
  split
  · rename_i first second name hBreach
    rw [decide_eq_true_eq, hBreach]
    exact ⟨fun h => ⟨⟨_, _, _, rfl⟩, h⟩, fun h => h.2⟩
  · rename_i hOther
    constructor
    · intro hFalse
      cases hFalse
    · rintro ⟨⟨first, second, name, hBreach⟩, _⟩
      exact absurd hBreach (hOther first second name)

theorem not_isClashOf_of_rule_eq
    {rule : Rule}
    (hRule : f.breach.rule = rule)
    (hOther : rule ≠ .namingCollision) :
    ¬ f.isClashOf a b := by
  rw [isClashOf_iff]
  rintro ⟨⟨first, second, name, hBreach⟩, _⟩
  rw [hBreach] at hRule
  exact hOther hRule.symm

/- Findings under one other rule are not on a clash. -/
theorem filter_isClashOf_eq_nil
    {rule : Rule}
    {findings : List Finding}
    (hRules : ∀ f ∈ findings, f.breach.rule = rule)
    (hOther : rule ≠ .namingCollision)
    (a b : MemberId) :
    findings.filter (Finding.isClashOf a b) = [] :=
  List.filter_eq_nil_iff.mpr (fun f hf =>
    not_isClashOf_of_rule_eq (hRules f hf) hOther)

theorem tellsClash_of_rule_eq
    {rule : Rule}
    (hRule : f.breach.rule = rule)
    (hOther : rule ≠ .namingCollision) :
    f.TellsClash := by
  intro hNaming
  exact absurd (hRule.symm.trans hNaming) hOther

/- The report of a clash can be told from the others. -/
theorem isClashOf_diagnostic
    (hTells : f.TellsClash) :
    f.diagnostic.isClashOf a b = f.isClashOf a b := by
  rw [Bool.eq_iff_iff, isClashOf_iff]
  unfold Diagnostic.isClashOf
  rw [decide_eq_true_eq]
  constructor
  · rintro ⟨hRule, hSubjects⟩
    refine ⟨?_, hSubjects⟩
    rcases hTells hRule with hClash | hOne
    · exact hClash
    · change f.subjects = _ ∨ f.subjects = _ at hSubjects
      rcases hSubjects with hHere | hHere
      · rw [hHere] at hOne
        cases hOne
      · rw [hHere] at hOne
        cases hOne
  · rintro ⟨⟨first, second, name, hBreach⟩, hSubjects⟩
    refine ⟨?_, hSubjects⟩
    change f.breach.rule = .namingCollision
    rw [hBreach]
    rfl

end Finding

------------------------------------------------------------
-- Clashes Among All Reports
------------------------------------------------------------

namespace ExportView

variable {v : ExportView}
variable {f : Finding}
variable {findings : List Finding}

theorem tellsClash_of_mem_namingFindings
    (hNaming : v.namingFindings = .ok findings)
    (hMem : f ∈ findings) :
    f.TellsClash := by
  rcases namingFindings_eq_ok_iff.mp hNaming with
    ⟨constructors, hConstructors, rfl⟩
  simp only [List.mem_append] at hMem
  rcases hMem with
    ((hClash | hGlobal) | hConstructor) | hRename
  · rcases List.mem_map.mp hClash with ⟨c, _, rfl⟩
    exact fun _ => Or.inl ⟨_, _, _, rfl⟩
  · rcases List.mem_map.mp hGlobal with ⟨c, _, rfl⟩
    exact fun _ => Or.inr rfl
  · rcases mem_constructors_cases hConstructors
        hConstructor with
      ⟨t, _, primary, _, _, rfl | ⟨c, _, rfl⟩⟩
    · exact fun _ => Or.inr rfl
    · exact fun hRule => Rule.noConfusion hRule
  · rcases List.mem_map.mp hRename with ⟨r, _, rfl⟩
    exact fun hRule => Rule.noConfusion hRule

theorem tellsClash_of_mem_propertyFindings
    (hProperty : v.propertyFindings = .ok findings)
    (hMem : f ∈ findings) :
    f.TellsClash := by
  rcases propertyFindings_eq_ok_iff.mp hProperty with
    ⟨superAccessors, hSuper, rfl⟩
  simp only [List.mem_append] at hMem
  rcases hMem with (hShape | hProperties) | hCall
  · exact Finding.tellsClash_of_rule_eq
      (rule_of_mem_accessorShapes hShape) Rule.noConfusion
  · rcases List.mem_map.mp hProperties with ⟨issue, _, rfl⟩
    cases issue with
    | clash c => exact fun _ => Or.inl ⟨_, _, _, rfl⟩
    | mismatch c =>
        have hRule : (mismatchFinding c).breach.rule =
            .propertyConsistency := by
          rw [breach_mismatchFinding]
          rfl
        exact Finding.tellsClash_of_rule_eq hRule
          Rule.noConfusion
  · exact Finding.tellsClash_of_rule_eq
      (rule_of_mem_superAccessors hSuper hCall)
      Rule.noConfusion

/- Of the rules on properties one reports clashes. -/
theorem filter_propertyFindings
    (hProperty : v.propertyFindings = .ok findings)
    (a b : MemberId) :
    findings.filter (Finding.isClashOf a b) =
      v.properties.filter (Finding.isClashOf a b) := by
  rcases propertyFindings_eq_ok_iff.mp hProperty with
    ⟨superAccessors, hSuper, rfl⟩
  have hShapes := Finding.filter_isClashOf_eq_nil
    (fun _ => rule_of_mem_accessorShapes (v := v))
    Rule.noConfusion a b
  have hCalls := Finding.filter_isClashOf_eq_nil
    (fun _ => rule_of_mem_superAccessors hSuper)
    Rule.noConfusion a b
  rw [List.filter_append, List.filter_append, hShapes,
    hCalls, List.nil_append, List.append_nil]

/- The two families report two members once at most each. -/
theorem length_filter_nameClashes_le
    (v : ExportView)
    (a b : MemberId) :
    (v.nameClashes.filter
      (Finding.isClashOf a b)).length ≤ 1 := by
  rw [v.filter_nameClashes]
  exact Option.length_toList_le

theorem length_filter_properties_le
    (v : ExportView)
    (a b : MemberId) :
    (v.properties.filter
      (Finding.isClashOf a b)).length ≤ 1 := by
  rw [v.filter_properties]
  exact Option.length_toList_le

namespace Shows

variable {p : Program}
variable (hShows : v.Shows p)
variable {a b : MemberId}

include hShows

theorem length_filter_nameClashes_eq_one_iff
    (hSound : p.Sound)
    (hNe : a ≠ b) :
    (v.nameClashes.filter
        (Finding.isClashOf a b)).length = 1 ↔
      ∃ t, v.ClashAt t a b := by
  rw [v.filter_nameClashes]
  constructor
  · intro hOne
    by_contra hNot
    rw [hShows.find?_clashes_eq_none hNe
      (not_exists.mp hNot)] at hOne
    cases hOne
  · intro hSome
    rcases hShows.exists_find?_clashes hSound hNe hSome with
      ⟨_, _, c, _, _, _, hFind⟩
    rw [hFind]
    rfl

theorem length_filter_properties_eq_one_iff
    (hNe : a ≠ b) :
    (v.properties.filter
        (Finding.isClashOf a b)).length = 1 ↔
      ∃ t, v.LikeAccessorsAt t a b := by
  rw [v.filter_properties, ← hShows.exists_issue_iff hNe]
  cases hFind : v.propertyIssues.find? (fun issue => decide
      (issue.key = .inl (min a b, max a b))) with
  | none =>
      have hNone := List.find?_eq_none.mp hFind
      constructor
      · intro hOne
        cases hOne
      · rintro ⟨issue, hIssue, hKey⟩
        exact absurd (decide_eq_true hKey)
          (hNone issue hIssue)
  | some issue =>
      constructor
      · intro _
        have hKey := List.find?_some hFind
        exact ⟨issue, List.mem_of_find?_eq_some hFind,
          of_decide_eq_true hKey⟩
      · intro _
        rfl

end Shows

end ExportView

namespace Program.Finds

variable {p : Program}
variable {advice : Advice}
variable {v : ExportView}
variable {naming property contract usability : List Finding}
variable
  (hFinds :
    p.Finds advice v naming property contract usability)

include hFinds

theorem tellsClash
    {f : Finding}
    (hMem :
      f ∈ naming ++ property ++ contract ++ usability) :
    f.TellsClash := by
  simp only [List.mem_append] at hMem
  rcases hMem with
    ((hNaming | hProperty) | hContract) | hUsability
  · exact ExportView.tellsClash_of_mem_namingFindings
      hFinds.naming_eq hNaming
  · exact ExportView.tellsClash_of_mem_propertyFindings
      hFinds.property_eq hProperty
  · exact Finding.tellsClash_of_rule_eq
      (rule_of_mem_contractFindings hFinds.contract_eq
        hContract) Rule.noConfusion
  · exact Finding.tellsClash_of_rule_eq
      (ExportView.rule_of_mem_usability hFinds.usability_eq
        hUsability) Rule.noConfusion

/- Clashes are reported by two families and no other. -/
theorem countClashes_eq
    (a b : MemberId) :
    (Log.ofFamilies naming property contract
        usability).countClashes a b =
      (v.nameClashes.filter
          (Finding.isClashOf a b)).length +
        (v.properties.filter
          (Finding.isClashOf a b)).length := by
  have hContract := Finding.filter_isClashOf_eq_nil
    (fun _ =>
      rule_of_mem_contractFindings hFinds.contract_eq)
    Rule.noConfusion a b
  have hUsability := Finding.filter_isClashOf_eq_nil
    (fun _ =>
      ExportView.rule_of_mem_usability hFinds.usability_eq)
    Rule.noConfusion a b
  have hEach :
      ∀ f ∈ naming ++ property ++ contract ++ usability,
        (Diagnostic.isClashOf a b ∘ Finding.diagnostic) f =
          f.isClashOf a b := fun f hf =>
    Finding.isClashOf_diagnostic (hFinds.tellsClash hf)
  unfold Log.countClashes
  rw [Log.entries_ofFamilies,
    (Listing.sorted_perm _ _).countP_eq, List.countP_map,
    List.countP_congr (fun f hf => by rw [hEach f hf]),
    List.countP_eq_length_filter, List.filter_append,
    List.filter_append, List.filter_append, hContract,
    hUsability, List.append_nil, List.append_nil,
    ExportView.filter_namingFindings hFinds.naming_eq,
    ExportView.filter_propertyFindings hFinds.property_eq,
    List.length_append]

/- A report on a clash says so in its message. -/
theorem message_of_isClashOf
    {d : Diagnostic}
    (hMem :
      d ∈ (Log.ofFamilies naming property contract
        usability).entries)
    {a b : MemberId}
    (hClash : d.isClashOf a b) :
    ∃ first second name,
      d.message =
        (Breach.nameClash first second name).message := by
  rw [Log.entries_ofFamilies] at hMem
  rcases List.mem_map.mp
      ((Listing.sorted_perm _ _).mem_iff.mp hMem) with
    ⟨f, hf, rfl⟩
  rw [Finding.isClashOf_diagnostic (hFinds.tellsClash hf),
    Finding.isClashOf_iff] at hClash
  rcases hClash with ⟨⟨first, second, name, hBreach⟩, _⟩
  refine ⟨first, second, name, ?_⟩
  rw [← hBreach]
  rfl

end Program.Finds

------------------------------------------------------------
-- Slots With Identities Of Their Own
------------------------------------------------------------

namespace ExportView.Shows

variable {v : ExportView}
variable {p : Program}
variable (hShows : v.Shows p)

include hShows

/-
  Members that are exported themselves clash in one way: both
  are accessors wherever they are seen, or at most one is.
-/
theorem not_likeAccessorsAt_of_clashAt
    {a b : MemberId}
    (ha : v.table.exports a)
    (hb : v.table.exports b)
    {t u : TypeId}
    (hClash : v.ClashAt t a b) :
    ¬ v.LikeAccessorsAt u a b := by
  rintro ⟨r, hr, x', y', hLike, hx', hy'⟩
  rcases hClash with ⟨s, hs, x, y, hBoth, hx, hy⟩
  have hNamedIn := hShows.mem_surfaces_of_surface_eq_ok hs
  have hLikeIn := hShows.mem_surfaces_of_surface_eq_ok hr
  rcases Option.isSome_iff_exists.mp ha with ⟨i, hi⟩
  rcases Option.isSome_iff_exists.mp hb with ⟨j, hj⟩
  have hFirst := hShows.identity_eq_of_mem_named hNamedIn
    hBoth.first_mem (hx ▸ hi)
  have hSecond := hShows.identity_eq_of_mem_named hNamedIn
    hBoth.second_mem (hy ▸ hj)
  have hFirst' := hShows.identity_eq_of_mem_named hLikeIn
    hLike.first_mem (hx' ▸ hi)
  have hSecond' := hShows.identity_eq_of_mem_named hLikeIn
    hLike.second_mem (hy' ▸ hj)
  have hProperty := hLike.isProperty
  rw [hFirst', hSecond', ← hFirst, ← hSecond] at hProperty
  exact hBoth.notProperty hProperty

end ExportView.Shows

------------------------------------------------------------
-- How Often
------------------------------------------------------------

/-
  Two members are reported to clash twice at most.  They are
  reported twice exactly when they clash by name at one type
  and are like accessors at another, which does not happen
  when both are exported themselves; and they are not
  reported exactly when they do neither at any type.
-/
theorem clash_reported_twice_iff_both_ways
    {draft : Draft}
    {p : Program}
    (hBuild : draft.build = .ok p)
    (settings : Settings) :
    ∃ v outcome, p.exportView = .ok v ∧
      p.check settings = .ok outcome ∧
      (∀ a b, ∀ d ∈ outcome.log.entries, d.isClashOf a b →
        ∃ first second name, d.message =
          (Breach.nameClash first second name).message) ∧
      (∀ a b, outcome.log.countClashes a b ≤ 2) ∧
      ∀ a b, a ≠ b →
        (outcome.log.countClashes a b = 0 ↔
          (∀ t, ¬ v.ClashAt t a b) ∧
            ∀ t, ¬ v.LikeAccessorsAt t a b) ∧
        (outcome.log.countClashes a b = 2 ↔
          (∃ t, v.ClashAt t a b) ∧
            ∃ t, v.LikeAccessorsAt t a b) ∧
        (v.table.exports a → v.table.exports b →
          outcome.log.countClashes a b ≤ 1) := by
  have hSound := Program.sound_of_build hBuild
  rcases hSound.check_succeeds settings with
    ⟨outcome, hOutcome⟩
  rcases Program.check_eq_ok_iff.mp hOutcome with
    ⟨v, naming, property, contract, usability, hFinds, rfl⟩
  have hShows := hFinds.shows
  refine ⟨v, _, Program.exportView_eq_ok_iff.mpr hShows,
    hOutcome, fun a b d hd hClash =>
      hFinds.message_of_isClashOf hd hClash, ?_, ?_⟩
  · intro a b
    rw [hFinds.countClashes_eq]
    have hNames := v.length_filter_nameClashes_le a b
    have hLikes := v.length_filter_properties_le a b
    omega
  · intro a b hNe
    rw [hFinds.countClashes_eq, ← not_exists, ← not_exists,
      ← hShows.length_filter_nameClashes_eq_one_iff hSound
        hNe,
      ← hShows.length_filter_properties_eq_one_iff hNe]
    have hNames := v.length_filter_nameClashes_le a b
    have hLikes := v.length_filter_properties_le a b
    refine ⟨by omega, by omega, ?_⟩
    intro ha hb
    have hOneWay :
        ¬ ((v.nameClashes.filter
              (Finding.isClashOf a b)).length = 1 ∧
          (v.properties.filter
            (Finding.isClashOf a b)).length = 1) := by
      rw [hShows.length_filter_nameClashes_eq_one_iff hSound
          hNe,
        hShows.length_filter_properties_eq_one_iff hNe]
      rintro ⟨⟨t, hClash⟩, ⟨u, hLike⟩⟩
      exact hShows.not_likeAccessorsAt_of_clashAt ha hb
        hClash hLike
    omega

------------------------------------------------------------
-- A Wheel And A Gear
------------------------------------------------------------

/-
  A part has a size that can be set in two ways.  The wheel
  shows both to JavaScript as methods, the gear shows both
  as writers of a property.
-/
def Draft.parts : Draft :=
  let setSize : TypeId → TypeExpr → ExportTag → MemberDecl :=
    fun owner param tag =>
      .plain "setSize" owner
        (.plain (.method .void) [param] .empty) tag
  let exported : TypeFlags := ⟨true, false, false⟩
  ⟨[.plain "Part" .classKind .none [0, 1],
    .plain "ByInt" .interfaceKind exported [2],
    .plain "ByText" .interfaceKind exported [3],
    .plain "AsInt" .interfaceKind .none [4],
    .plain "AsText" .interfaceKind .none [5],
    { TypeDecl.plain "Wheel" .classKind .none [] with
      superClass := some 0
      interfaces := [1, 2] },
    { TypeDecl.plain "Gear" .classKind .none [] with
      superClass := some 0
      interfaces := [3, 4] }],
  [setSize 0 (.prim .int) .untagged,
    setSize 0 .string .untagged,
    setSize 1 (.prim .int) .untagged,
    setSize 2 .string .untagged,
    setSize 3 (.prim .int) .jsProperty,
    setSize 4 .string .jsProperty]⟩

/- The two ways to set the size are reported twice. -/
theorem parts_clash_counted_twice :
    ∃ p outcome, Draft.parts.build = .ok p ∧
      p.check Settings.standard = .ok outcome ∧
      outcome.log.countClashes 0 1 = 2 := by
  have hBuilt : ∃ p, Draft.parts.build = .ok p := ⟨_, rfl⟩
  rcases hBuilt with ⟨p, hBuild⟩
  rcases (Program.sound_of_build hBuild).check_succeeds
      Settings.standard with
    ⟨outcome, hOutcome⟩
  exact ⟨p, outcome, hBuild, hOutcome,
    Draft.eq_of_map_check_eq_some hBuild hOutcome
      (fun o => o.log.countClashes 0 1)
      (by decide +kernel)⟩

/-
  The two reports come from a clash by name and from a clash
  of writers.  The writers of the interfaces come together
  nowhere else.
-/
theorem parts_clash_in_both_ways :
    ∃ p v outcome, Draft.parts.build = .ok p ∧
      p.exportView = .ok v ∧
      p.check Settings.standard = .ok outcome ∧
      outcome.log.countClashes 0 1 = 2 ∧
      (∃ t, v.ClashAt t 0 1) ∧
      (∃ t, v.LikeAccessorsAt t 0 1) ∧
      outcome.log.countClashes 4 5 = 0 ∧
      (∀ t, ¬ v.ClashAt t 4 5) ∧
      ∀ t, ¬ v.LikeAccessorsAt t 4 5 := by
  have hBuilt : ∃ p, Draft.parts.build = .ok p := ⟨_, rfl⟩
  rcases hBuilt with ⟨p, hBuild⟩
  rcases clash_reported_twice_iff_both_ways hBuild
      Settings.standard with
    ⟨v, outcome, hView, hOutcome, _, _, hEach⟩
  have hTwice : outcome.log.countClashes 0 1 = 2 :=
    Draft.eq_of_map_check_eq_some hBuild hOutcome
      (fun o => o.log.countClashes 0 1) (by decide +kernel)
  have hNever : outcome.log.countClashes 4 5 = 0 :=
    Draft.eq_of_map_check_eq_some hBuild hOutcome
      (fun o => o.log.countClashes 4 5) (by decide +kernel)
  rcases (hEach 0 1 Nat.zero_ne_one).2.1.mp hTwice with
    ⟨hClash, hLike⟩
  rcases (hEach 4 5 (by decide)).1.mp hNever with
    ⟨hNoClash, hNoLike⟩
  exact ⟨p, v, outcome, hBuild, hView, hOutcome, hTwice,
    hClash, hLike, hNever, hNoClash, hNoLike⟩

end JsExport
