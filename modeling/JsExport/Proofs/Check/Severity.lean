import JsExport.Proofs.Check.Outcome
import JsExport.Proofs.Listing.Stable
import JsExport.Proofs.Rules.AccessorShape
import JsExport.Proofs.Rules.Delegation
import JsExport.Proofs.Rules.NameClash
import JsExport.Proofs.Rules.Property

/-
  What weighs as an error.

  The findings on names, on properties and on contracts of
  types are errors, every one of them, and all advice on
  usability is a warning.

  Main declarations:
    * `ExportView.isError_of_mem_namingFindings`
    * `ExportView.isError_of_mem_propertyFindings`
    * `Breach.role?` and `Contract.role?_of_mem`
    * `Program.isError_of_mem_contractFindings`
    * `ExportView.isWarning_of_mem_usability`
    * `Program.Finds.errors_eq`
    * `Program.Finds.warnings_eq`
-/

namespace JsExport

open Lookup

namespace Finding

theorem isError_of_rule_ne
    {f : Finding}
    (hRule : f.breach.rule ≠ .unusable) :
    f.diagnostic.isError := by
  unfold Diagnostic.isError Diagnostic.severity
  change (f.breach.rule.severity == .error) = true
  cases hFamily : f.breach.rule with
  | unusable => exact absurd hFamily hRule
  | _ => rfl

theorem isWarning_of_rule_eq
    {f : Finding}
    (hRule : f.breach.rule = .unusable) :
    f.diagnostic.isWarning := by
  unfold Diagnostic.isWarning Diagnostic.severity
  change (f.breach.rule.severity == .warning) = true
  rw [hRule]
  rfl

end Finding

/- No report is both an error and a warning. -/
theorem Diagnostic.isError_eq_not_isWarning
    (d : Diagnostic) :
    d.isError = !d.isWarning := by
  unfold isError isWarning
  cases d.severity <;> rfl

------------------------------------------------------------
-- Names
------------------------------------------------------------

namespace ExportView

variable {v : ExportView}
variable {f : Finding}
variable {findings : List Finding}

theorem isError_of_mem_namingFindings
    (hNaming : v.namingFindings = .ok findings)
    (hMem : f ∈ findings) :
    f.diagnostic.isError := by
  rcases namingFindings_eq_ok_iff.mp hNaming with
    ⟨constructors, hConstructors, rfl⟩
  simp only [List.mem_append] at hMem
  rcases hMem with
    ((hClash | hGlobal) | hConstructor) | hRename
  · exact isError_of_mem_nameClashes hClash
  · rcases List.mem_map.mp hGlobal with ⟨c, _, rfl⟩
    rfl
  · rcases breach_of_mem_constructors hConstructors
        hConstructor with
      ⟨type, hBreach⟩ | ⟨primary, hBreach⟩
    · exact Finding.isError_of_rule_ne
        (by rw [hBreach]; exact Rule.noConfusion)
    · exact Finding.isError_of_rule_ne
        (by rw [hBreach]; exact Rule.noConfusion)
  · rcases List.mem_map.mp hRename with ⟨r, _, rfl⟩
    rfl

------------------------------------------------------------
-- Properties
------------------------------------------------------------

theorem rule_of_mem_superAccessors
    (hSuper : v.superAccessors = .ok findings)
    (hMem : f ∈ findings) :
    f.breach.rule = .propertyAccess := by
  rcases bind_eq_ok_iff.mp hSuper with ⟨lists, hLists, hEq⟩
  cases hEq
  rcases (mem_flatten_of_mapM_eq_ok hLists).mp hMem with
    ⟨m, _, found, hMember, hHere⟩
  rcases (mem_of_mapM_eq_ok hMember).mp hHere with
    ⟨call, _, hCall⟩
  rcases bind_eq_ok_iff.mp hCall with ⟨target, _, hFinding⟩
  cases hFinding
  rfl

theorem isError_of_mem_propertyFindings
    (hProperty : v.propertyFindings = .ok findings)
    (hMem : f ∈ findings) :
    f.diagnostic.isError := by
  rcases propertyFindings_eq_ok_iff.mp hProperty with
    ⟨superAccessors, hSuper, rfl⟩
  simp only [List.mem_append] at hMem
  rcases hMem with (hShape | hProperties) | hCall
  · exact isError_of_mem_accessorShapes hShape
  · exact isError_of_mem_properties hProperties
  · apply Finding.isError_of_rule_ne
    rw [rule_of_mem_superAccessors hSuper hCall]
    exact Rule.noConfusion

end ExportView

------------------------------------------------------------
-- Contracts
------------------------------------------------------------

/- The role whose contract a breach breaks, if any. -/
def Breach.role? : Breach → Option TypeRole
| .functionShape _ => some .function
| .functionExtends _ => some .function
| .functionStaticCode _ => some .function
| .functionAndJsType _ => some .function
| .extendsFunction _ _ => some .functionSubtype
| .implInterfaces _ => some .implementation
| .implSuperclass _ => some .implementation
| .implAndJsType _ => some .implementation
| .extendsImpl _ _ => some .implementationSubtype
| .nativeHidden _ => some .native
| .enumAsNative _ => some .native
| .nativeStaticCode _ => some .native
| .nativeConstructorCode _ => some .native
| .overlayOutsideNative _ => some .overlaying
| .overlayOverriding _ => some .overlaying
| .overlayOpen _ => some .overlaying
| .nativeInterfaceTest _ => some .any
| _ => none

/- What breaks a contract is filed under contracts. -/
theorem Breach.rule_of_role?_eq_some
    {breach : Breach}
    {role : TypeRole}
    (hRole : breach.role? = some role) :
    breach.rule = .structuralContract := by
  cases breach with
  | _ => first | rfl | cases hRole

section Contracts

variable {p : Program}
variable {t : TypeNode}
variable {f : Finding}
variable {findings : List Finding}

theorem breach_of_mem_reportIf
    {condition : Bool}
    {breach : Breach}
    (hMem : f ∈ reportIf condition t breach) :
    f.breach = breach := by
  unfold reportIf at hMem
  split at hMem
  · rw [List.mem_singleton.mp hMem]
    rfl
  · cases hMem

theorem role?_of_breach?_eq_some
    {inNative : Bool}
    {above : List MemberNode}
    {m : MemberNode}
    {breach : String → Breach}
    (hFails : Overlay.breach? inNative above m = some breach)
    (text : String) :
    (breach text).role? = some .overlaying := by
  unfold Overlay.breach? at hFails
  split at hFails
  · cases hFails
    rfl
  · split at hFails
    · cases hFails
    · split at hFails
      · cases hFails
        rfl
      · split at hFails
        · cases hFails
          rfl
        · cases hFails

theorem exists_breach_of_testFinding?_eq_ok
    {m : MemberNode}
    {test : InstanceTest}
    (hTest :
      NativeType.testFinding? p m test = .ok (some f)) :
    ∃ type, f.breach = .nativeInterfaceTest type := by
  rcases bind_eq_ok_iff.mp hTest with ⟨target, _, hRest⟩
  split at hRest
  · cases hRest
    exact ⟨_, rfl⟩
  · cases hRest

/- A report on a contract that is looked up in one step. -/
theorem role?_of_mem_reportIf
    {condition : Bool}
    {breach : Breach}
    {role : TypeRole}
    (hRole : breach.role? = some role)
    (hFound :
      (.ok (reportIf condition t breach) :
        Except LookupError (List Finding)) = .ok findings)
    (hMem : f ∈ findings) :
    f.breach.role? = some role := by
  cases hFound
  rw [breach_of_mem_reportIf hMem, hRole]

/- A contract is broken by what its role does not allow. -/
theorem Contract.role?_of_mem
    {c : Contract}
    (hContract : c ∈ contracts)
    (hFound : c.findings p t = .ok findings)
    (hMem : f ∈ findings) :
    f.breach.role? = some c.role := by
  unfold contracts at hContract
  simp only [List.mem_cons, List.not_mem_nil, or_false]
    at hContract
  rcases hContract with rfl | rfl | rfl | rfl | rfl | rfl |
    rfl | rfl | rfl | rfl | rfl | rfl | rfl | rfl | rfl
  · exact role?_of_mem_reportIf rfl hFound hMem
  · exact role?_of_mem_reportIf rfl hFound hMem
  · exact role?_of_mem_reportIf rfl hFound hMem
  · exact role?_of_mem_reportIf rfl hFound hMem
  · rcases bind_eq_ok_iff.mp hFound with
      ⟨interfaces, _, hEq⟩
    cases hEq
    rcases List.mem_flatMap.mp hMem with ⟨i, _, hHere⟩
    rw [breach_of_mem_reportIf hHere]
    rfl
  · exact role?_of_mem_reportIf rfl hFound hMem
  · exact role?_of_mem_reportIf rfl hFound hMem
  · exact role?_of_mem_reportIf rfl hFound hMem
  · rcases bind_eq_ok_iff.mp hFound with ⟨above, _, hEq⟩
    cases above with
    | none =>
        cases hEq
        cases hMem
    | some above =>
        cases hEq
        rw [List.mem_singleton.mp hMem]
        rfl
  · exact role?_of_mem_reportIf rfl hFound hMem
  · cases hFound
    rcases List.mem_map.mp hMem with ⟨m, _, rfl⟩
    rfl
  · exact role?_of_mem_reportIf rfl hFound hMem
  · cases hFound
    rcases List.mem_map.mp hMem with ⟨m, _, rfl⟩
    rfl
  · rcases bind_eq_ok_iff.mp hFound with
      ⟨lineage, _, hEq⟩
    cases hEq
    rcases List.mem_filterMap.mp hMem with ⟨m, _, hHere⟩
    rcases Option.map_eq_some_iff.mp hHere with
      ⟨breach, hBreach, rfl⟩
    exact role?_of_breach?_eq_some hBreach _
  · rcases bind_eq_ok_iff.mp hFound with ⟨lists, hLists, hEq⟩
    cases hEq
    rcases (mem_flatten_of_mapM_eq_ok hLists).mp hMem with
      ⟨m, _, found, hTests, hHere⟩
    rcases exists_of_mem_filterMapM hTests hHere with
      ⟨test, _, hTest⟩
    rcases exists_breach_of_testFinding?_eq_ok hTest with
      ⟨type, hBreach⟩
    rw [hBreach]
    rfl

theorem Program.rule_of_mem_contractFindings
    (hContract : p.contractFindings = .ok findings)
    (hMem : f ∈ findings) :
    f.breach.rule = .structuralContract := by
  rcases bind_eq_ok_iff.mp hContract with
    ⟨lists, hLists, hEq⟩
  cases hEq
  rcases (mem_flatten_of_mapM_eq_ok hLists).mp hMem with
    ⟨t, _, found, hType, hHere⟩
  rcases bind_eq_ok_iff.mp hType with ⟨roles, _, hRest⟩
  rcases bind_eq_ok_iff.mp hRest with ⟨each, hEach, hEq⟩
  cases hEq
  rcases (mem_flatten_of_mapM_eq_ok hEach).mp hHere with
    ⟨c, hc, own, hRule, hLast⟩
  exact Breach.rule_of_role?_eq_some (Contract.role?_of_mem
    (List.mem_of_mem_filter hc) hRule hLast)

theorem Program.isError_of_mem_contractFindings
    (hContract : p.contractFindings = .ok findings)
    (hMem : f ∈ findings) :
    f.diagnostic.isError := by
  apply Finding.isError_of_rule_ne
  rw [rule_of_mem_contractFindings hContract hMem]
  exact Rule.noConfusion

end Contracts

------------------------------------------------------------
-- Usability
------------------------------------------------------------

namespace ExportView

variable {v : ExportView}
variable {f : Finding}
variable {findings : List Finding}

/- What hangs on a lookup is reported or nothing is. -/
theorem mem_of_mem_bind_ite
    {x : Except LookupError Bool}
    (quiet : Bool → Bool)
    {report : List Finding}
    (hFound :
      (x >>= fun b =>
        if quiet b then
          (pure [] : Except LookupError (List Finding))
        else pure report) = .ok findings)
    (hMem : f ∈ findings) :
    f ∈ report := by
  rcases eq_ite_of_bind_eq_ok quiet hFound with
    ⟨b, _, rfl⟩
  split at hMem
  · cases hMem
  · exact hMem

/- Advice on a member is placed at that member. -/
theorem exists_ofMember_of_mem_memberAdvice
    {key : String}
    {m : MemberNode}
    {exposedBy : Option TypeNode}
    (hAdvice : v.memberAdvice key m exposedBy = .ok findings)
    (hMem : f ∈ findings) :
    ∃ breach : Breach, breach.rule = .unusable ∧
      f = .ofMember m breach := by
  unfold memberAdvice at hAdvice
  split at hAdvice
  · cases hAdvice
    cases hMem
  · cases hShape : m.decl.shape with
    | field field =>
        rw [hShape] at hAdvice
        have hReport := mem_of_mem_bind_ite id hAdvice hMem
        exact ⟨_, rfl, List.mem_singleton.mp hReport⟩
    | callable c =>
        rw [hShape] at hAdvice
        rcases bind_eq_ok_iff.mp hAdvice with
          ⟨result, hResult, hRest⟩
        rcases bind_eq_ok_iff.mp hRest with
          ⟨params, hParams, hEq⟩
        cases hEq
        rcases List.mem_append.mp hMem with hHere | hHere
        · have hReport := mem_of_mem_bind_ite
            (c.result.isVoid || ·) hResult hHere
          exact ⟨_, rfl, List.mem_singleton.mp hReport⟩
        · rcases (mem_flatten_of_mapM_eq_ok hParams).mp
              hHere with
            ⟨param, _, found, hParam, hLast⟩
          have hReport := mem_of_mem_bind_ite
            (param.suppressions.contains key || ·)
            hParam hLast
          exact ⟨_, rfl, List.mem_singleton.mp hReport⟩

/- Advice is on exported members and on exposed slots. -/
theorem exists_ofMember_of_mem_usability
    {advice : Advice}
    (hUsability : v.usability advice = .ok findings)
    (hMem : f ∈ findings) :
    ∃ m, ((m ∈ v.members ∧ v.table.exports m.id) ∨
        ∃ slot ∈ v.onlyExposedSlots, slot.member = m) ∧
      ∃ breach : Breach, breach.rule = .unusable ∧
        f = .ofMember m breach := by
  by_cases hOn : advice.isOn = true
  · rcases (usability_eq_ok_iff hOn).mp hUsability with
      ⟨own, exposed, hOwn, hExposed, rfl⟩
    rcases List.mem_append.mp hMem with hHere | hHere
    · rcases (mem_flatten_of_mapM_eq_ok hOwn).mp hHere with
        ⟨m, hm, found, hAdvice, hLast⟩
      exact ⟨m, Or.inl (List.mem_filter.mp hm),
        exists_ofMember_of_mem_memberAdvice hAdvice hLast⟩
    · rcases (mem_flatten_of_mapM_eq_ok hExposed).mp
          hHere with
        ⟨slot, hSlot, found, hAdvice, hLast⟩
      exact ⟨slot.member, Or.inr ⟨slot, hSlot, rfl⟩,
        exists_ofMember_of_mem_memberAdvice hAdvice hLast⟩
  · unfold usability at hUsability
    rw [if_neg hOn] at hUsability
    cases hUsability
    cases hMem

theorem rule_of_mem_usability
    {advice : Advice}
    (hUsability : v.usability advice = .ok findings)
    (hMem : f ∈ findings) :
    f.breach.rule = .unusable := by
  rcases exists_ofMember_of_mem_usability hUsability hMem
    with ⟨m, _, breach, hRule, rfl⟩
  exact hRule

theorem isWarning_of_mem_usability
    {advice : Advice}
    (hUsability : v.usability advice = .ok findings)
    (hMem : f ∈ findings) :
    f.diagnostic.isWarning :=
  Finding.isWarning_of_rule_eq
    (rule_of_mem_usability hUsability hMem)

end ExportView

------------------------------------------------------------
-- Errors And Warnings Of A Log
------------------------------------------------------------

namespace Program.Finds

variable {p : Program}
variable {advice : Advice}
variable {v : ExportView}
variable {naming property contract usability : List Finding}
variable
  (hFinds :
    p.Finds advice v naming property contract usability)

include hFinds

theorem isError_of_mem
    {f : Finding}
    (hMem : f ∈ naming ++ property ++ contract) :
    f.diagnostic.isError := by
  simp only [List.mem_append] at hMem
  rcases hMem with (hNaming | hProperty) | hContract
  · exact ExportView.isError_of_mem_namingFindings
      hFinds.naming_eq hNaming
  · exact ExportView.isError_of_mem_propertyFindings
      hFinds.property_eq hProperty
  · exact isError_of_mem_contractFindings
      hFinds.contract_eq hContract

theorem isWarning_of_mem
    {f : Finding}
    (hMem : f ∈ usability) :
    f.diagnostic.isWarning :=
  ExportView.isWarning_of_mem_usability hFinds.usability_eq
    hMem

/- The errors of a log are the findings but for advice. -/
theorem errors_eq :
    (Log.ofFamilies naming property contract
        usability).errors =
      Listing.sorted Diagnostic.before
        ((naming ++ property ++ contract).map
          Finding.diagnostic) := by
  have hErrors :
      ((naming ++ property ++ contract).map
          Finding.diagnostic).filter Diagnostic.isError =
        (naming ++ property ++ contract).map
          Finding.diagnostic := by
    apply List.filter_eq_self.mpr
    intro d hd
    rcases List.mem_map.mp hd with ⟨f, hf, rfl⟩
    exact hFinds.isError_of_mem hf
  have hAdvice :
      (usability.map Finding.diagnostic).filter
        Diagnostic.isError = [] := by
    apply List.filter_eq_nil_iff.mpr
    intro d hd
    rcases List.mem_map.mp hd with ⟨f, hf, rfl⟩
    rw [Diagnostic.isError_eq_not_isWarning,
      hFinds.isWarning_of_mem hf]
    exact Bool.false_ne_true
  unfold Log.errors
  rw [Log.entries_ofFamilies, Listing.filter_sorted,
    List.map_append, List.filter_append, hErrors, hAdvice,
    List.append_nil]

/- The warnings of a log are the advice. -/
theorem warnings_eq :
    (Log.ofFamilies naming property contract
        usability).warnings =
      Listing.sorted Diagnostic.before
        (usability.map Finding.diagnostic) := by
  have hErrors :
      ((naming ++ property ++ contract).map
          Finding.diagnostic).filter
            Diagnostic.isWarning = [] := by
    apply List.filter_eq_nil_iff.mpr
    intro d hd
    rcases List.mem_map.mp hd with ⟨f, hf, rfl⟩
    have hError := hFinds.isError_of_mem hf
    rw [Diagnostic.isError_eq_not_isWarning] at hError
    simpa using hError
  have hAdvice :
      (usability.map Finding.diagnostic).filter
          Diagnostic.isWarning =
        usability.map Finding.diagnostic := by
    apply List.filter_eq_self.mpr
    intro d hd
    rcases List.mem_map.mp hd with ⟨f, hf, rfl⟩
    exact hFinds.isWarning_of_mem hf
  unfold Log.warnings
  rw [Log.entries_ofFamilies, Listing.filter_sorted,
    List.map_append, List.filter_append, hErrors, hAdvice,
    List.nil_append]

end Program.Finds

end JsExport
