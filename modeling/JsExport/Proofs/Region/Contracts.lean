import JsExport.Proofs.Check.Severity
import JsExport.Proofs.Check.Success
import JsExport.Proofs.Region.Basic

/-
  Contracts of types and a plain region.

  A type of a plain region has no role but that of any type:
  it has no annotation, and neither have its interfaces and
  its superclasses.  So the one contract that can fail there
  is that on tests against native interfaces, which are
  outside.

  Main declarations:
    * `Contract.placed_of_mem`
    * `NativeType.mem_notTested`
    * `Program.Sound.roles_eq_of_region`
    * `Program.Sound.spares_or_onBody_of_mem_contractFindings`
-/

namespace JsExport

open Lookup

------------------------------------------------------------
-- Where Contracts Are Reported
------------------------------------------------------------

/- That a finding is placed at a type or a member of it. -/
inductive Finding.PlacedAt
    (p : Program)
    (t : TypeNode) : Finding → Prop
| type
    (breach : Breach) :
    PlacedAt p t (.ofType t breach)
| member
    {m : MemberNode}
    (hDeclared : m ∈ p.declaredBy t)
    (breach : Breach) :
    PlacedAt p t (.ofMember m breach)

section Contracts

variable {p : Program}
variable {t : TypeNode}
variable {f : Finding}
variable {findings : List Finding}

theorem placed_of_mem_reportIf
    {condition : Bool}
    {breach : Breach}
    (hMem : f ∈ reportIf condition t breach) :
    f.PlacedAt p t := by
  unfold reportIf at hMem
  split at hMem
  · rw [List.mem_singleton.mp hMem]
    exact .type breach
  · cases hMem

/- A report on a contract that is looked up in one step. -/
theorem placed_of_reportIf_eq_ok
    {condition : Bool}
    {breach : Breach}
    (hFound :
      (.ok (reportIf condition t breach) :
        Except LookupError (List Finding)) = .ok findings)
    (hMem : f ∈ findings) :
    f.PlacedAt p t := by
  cases hFound
  exact placed_of_mem_reportIf hMem

/- A report on each of some members of a type. -/
theorem placed_of_mem_map_filter
    {fails : MemberNode → Bool}
    {breach : MemberNode → Breach}
    (hFound :
      (.ok (((p.declaredBy t).filter fails).map
          (fun m => Finding.ofMember m (breach m))) :
        Except LookupError (List Finding)) = .ok findings)
    (hMem : f ∈ findings) :
    f.PlacedAt p t := by
  cases hFound
  rcases List.mem_map.mp hMem with ⟨m, hm, rfl⟩
  exact .member (List.mem_of_mem_filter hm) _

/- Contracts of special roles are reported in the type. -/
theorem Contract.placed_of_mem
    {c : Contract}
    (hContract : c ∈ contracts)
    (hSpecial : c.role ≠ .any)
    (hFound : c.findings p t = .ok findings)
    (hMem : f ∈ findings) :
    f.PlacedAt p t := by
  unfold contracts at hContract
  simp only [List.mem_cons, List.not_mem_nil, or_false]
    at hContract
  rcases hContract with rfl | rfl | rfl | rfl | rfl | rfl |
    rfl | rfl | rfl | rfl | rfl | rfl | rfl | rfl | rfl
  · exact placed_of_reportIf_eq_ok hFound hMem
  · exact placed_of_reportIf_eq_ok hFound hMem
  · exact placed_of_reportIf_eq_ok hFound hMem
  · exact placed_of_reportIf_eq_ok hFound hMem
  · rcases bind_eq_ok_iff.mp hFound with
      ⟨interfaces, _, hEq⟩
    cases hEq
    rcases List.mem_flatMap.mp hMem with ⟨i, _, hHere⟩
    exact placed_of_mem_reportIf hHere
  · exact placed_of_reportIf_eq_ok hFound hMem
  · exact placed_of_reportIf_eq_ok hFound hMem
  · exact placed_of_reportIf_eq_ok hFound hMem
  · rcases bind_eq_ok_iff.mp hFound with ⟨above, _, hEq⟩
    cases above with
    | none =>
        cases hEq
        cases hMem
    | some above =>
        cases hEq
        rw [List.mem_singleton.mp hMem]
        exact .type _
  · exact placed_of_reportIf_eq_ok hFound hMem
  · exact placed_of_mem_map_filter hFound hMem
  · exact placed_of_reportIf_eq_ok hFound hMem
  · exact placed_of_mem_map_filter hFound hMem
  · rcases bind_eq_ok_iff.mp hFound with
      ⟨lineage, _, hEq⟩
    cases hEq
    rcases List.mem_filterMap.mp hMem with ⟨m, hm, hHere⟩
    rcases Option.map_eq_some_iff.mp hHere with
      ⟨breach, _, rfl⟩
    exact .member (List.mem_of_mem_filter hm) _
  · exact absurd rfl hSpecial

/- The contract of any type is that on tests of objects. -/
theorem Contract.findings_eq_of_any
    {c : Contract}
    (hContract : c ∈ contracts)
    (hAny : c.role = .any) :
    c.findings = NativeType.notTested := by
  have hOnly :
      contracts.filter (fun c => decide (c.role = .any)) =
        [⟨.any, NativeType.notTested⟩] := rfl
  have hMem :
      c ∈ contracts.filter
        (fun c => decide (c.role = .any)) :=
    List.mem_filter.mpr ⟨hContract, decide_eq_true hAny⟩
  rw [hOnly] at hMem
  rw [List.mem_singleton.mp hMem]

/- A test is reported when it is against a native type. -/
theorem NativeType.mem_notTested
    (hFound : NativeType.notTested p t = .ok findings)
    (hMem : f ∈ findings) :
    ∃ m ∈ p.declaredBy t, ∃ test ∈ m.decl.instanceTests,
      ∃ target, p.type test.target = .ok target ∧
        target.decl.isNative ∧
        f = (Finding.inBody m test.span
          (.nativeInterfaceTest
            target.decl.qualifiedName)).about
              (.type target.id) := by
  rcases bind_eq_ok_iff.mp hFound with ⟨lists, hLists, hEq⟩
  cases hEq
  rcases (mem_flatten_of_mapM_eq_ok hLists).mp hMem with
    ⟨m, hm, found, hTests, hHere⟩
  rcases exists_of_mem_filterMapM hTests hHere with
    ⟨test, hTest, hReport⟩
  rcases bind_eq_ok_iff.mp hReport with
    ⟨target, hTarget, hRest⟩
  split at hRest
  · rename_i hNative
    cases hRest
    exact ⟨m, hm, test, hTest, target, hTarget,
      (Bool.and_eq_true_iff.mp hNative).1, rfl⟩
  · cases hRest

/- A finding of a type comes from a contract of a role. -/
theorem Program.exists_contract_of_mem_typeFindings
    {roles : List TypeRole}
    (hRoles : p.roles t = .ok roles)
    (hFound : p.typeFindings t = .ok findings)
    (hMem : f ∈ findings) :
    ∃ c ∈ contracts, c.role ∈ roles ∧
      ∃ found, c.findings p t = .ok found ∧ f ∈ found := by
  rcases bind_eq_ok_iff.mp hFound with
    ⟨roles', hRoles', hRest⟩
  rw [hRoles] at hRoles'
  cases hRoles'
  rcases bind_eq_ok_iff.mp hRest with ⟨each, hEach, hEq⟩
  cases hEq
  rcases (mem_flatten_of_mapM_eq_ok hEach).mp hMem with
    ⟨c, hc, found, hContract, hHere⟩
  rcases List.mem_filter.mp hc with ⟨hIn, hRole⟩
  exact ⟨c, hIn, List.contains_iff_mem.mp hRole, found,
    hContract, hHere⟩

end Contracts

------------------------------------------------------------
-- Roles In A Plain Region
------------------------------------------------------------

namespace Program.Sound

variable {p : Program}
variable {S : Set TypeId}
variable (hSound : p.Sound)
variable (hRegion : p.IsRegion S)
variable (hPlain : p.IsPlain S)
variable {t : TypeNode}

include hSound hRegion hPlain

/- No type of the region lists a function type. -/
theorem implementsFunction_eq_of_region
    (hType : p.HasType t)
    (hIn : t.id ∈ S) :
    p.implementsFunction t = .ok false := by
  rcases hSound.interfacesOf_succeeds hType with
    ⟨interfaces, hInterfaces⟩
  apply bind_eq_ok_iff.mpr
  refine ⟨interfaces, hInterfaces, ?_⟩
  apply congrArg Except.ok
  apply List.any_eq_false.mpr
  intro i hi
  rcases (mem_of_mapM_eq_ok hInterfaces).mp hi with
    ⟨s, hs, hFound⟩
  rcases type_eq_ok_iff_hasType.mp hFound with ⟨hId, hAbove⟩
  have hSuper : i.id ∈ t.decl.supertypes := by
    rw [hId]
    exact List.mem_append_right _ hs
  have hFlags := hPlain.flags i hAbove
    (hRegion.above t hType hIn i.id hSuper)
  unfold TypeDecl.isJsFunction
  rw [hFlags]
  exact Bool.false_ne_true

/- Neither does one of its superclasses. -/
theorem implementationWithin_eq_of_region
    (classes : Nat)
    (hType : p.HasType t)
    (hIn : t.id ∈ S) :
    p.implementationWithin classes t = .ok none := by
  induction classes generalizing t with
  | zero => rfl
  | succ classes ih =>
      unfold implementationWithin
      cases hSuper : t.decl.superClass with
      | none => rfl
      | some s =>
          rcases hSound.superclass_succeeds hType hSuper with
            ⟨above, hFound⟩
          rcases type_eq_ok_iff_hasType.mp hFound with
            ⟨hId, hAbove⟩
          have hListed : above.id ∈ t.decl.supertypes := by
            unfold TypeDecl.supertypes
            rw [hId, hSuper]
            exact List.mem_append_left _ List.mem_cons_self
          have hInAbove :=
            hRegion.above t hType hIn above.id hListed
          apply bind_eq_ok_iff.mpr
          refine ⟨above, hFound, ?_⟩
          apply bind_eq_ok_iff.mpr
          refine ⟨false,
            hSound.implementsFunction_eq_of_region hRegion
              hPlain hAbove hInAbove, ?_⟩
          rw [Bool.and_false, if_neg Bool.false_ne_true]
          exact ih hAbove hInAbove

/- A type of the region is any type, and nothing more. -/
theorem roles_eq_of_region
    (hType : p.HasType t)
    (hIn : t.id ∈ S) :
    p.roles t = .ok [.any] := by
  have hFlags := hPlain.flags t hType hIn
  have hOverlay : p.hasOverlay t = false := by
    apply List.any_eq_false.mpr
    intro m hm
    rcases hSound.hasMember_of_mem_declaredBy hType hm with
      ⟨hMember, hOwner⟩
    have hTag := hPlain.tags m hMember (by rwa [hOwner])
    rw [hTag]
    exact Bool.false_ne_true
  apply bind_eq_ok_iff.mpr
  refine ⟨false, hSound.implementsFunction_eq_of_region
    hRegion hPlain hType hIn, ?_⟩
  apply bind_eq_ok_iff.mpr
  refine ⟨none, hSound.implementationWithin_eq_of_region
    hRegion hPlain _ hType hIn, ?_⟩
  unfold TypeDecl.isJsFunction TypeDecl.isNative
  rw [hFlags, hOverlay]
  rfl

------------------------------------------------------------
-- Reports On Contracts
------------------------------------------------------------

omit hRegion in
/- A native type that is tested against is outside. -/
theorem spares_or_onBody_of_mem_notTested
    {f : Finding}
    {findings : List Finding}
    (hType : p.HasType t)
    (hFound : NativeType.notTested p t = .ok findings)
    (hMem : f ∈ findings) :
    f.Spares p S ∨ f.OnBody p S := by
  rcases NativeType.mem_notTested hFound hMem with
    ⟨m, hm, test, hTest, target, hTarget, hNative, rfl⟩
  have hMember :=
    (hSound.hasMember_of_mem_declaredBy hType hm).1
  have hThere := (type_eq_ok_iff_hasType.mp hTarget).2
  have hOut : target.id ∉ S := by
    intro hIn
    unfold TypeDecl.isNative at hNative
    rw [hPlain.flags target hThere hIn] at hNative
    cases hNative
  by_cases hIn : m.owner.id ∈ S
  · exact .inr
      (.instanceTest hMember hIn hTest hTarget hOut)
  · exact .inl ((Finding.spares_inBody ⟨hMember, hIn⟩
      _ _).about (.type ⟨hThere, hOut⟩))

theorem spares_or_onBody_of_mem_contractFindings
    {f : Finding}
    {findings : List Finding}
    (hContract : p.contractFindings = .ok findings)
    (hMem : f ∈ findings) :
    f.Spares p S ∨ f.OnBody p S := by
  rcases bind_eq_ok_iff.mp hContract with
    ⟨lists, hLists, hEq⟩
  cases hEq
  rcases (mem_flatten_of_mapM_eq_ok hLists).mp hMem with
    ⟨t, ht, found, hFound, hHere⟩
  have hType := mem_typeNodes_iff.mp ht
  rcases hSound.roles_succeeds hType with ⟨roles, hRoles⟩
  rcases exists_contract_of_mem_typeFindings hRoles hFound
      hHere with
    ⟨c, hc, hRole, reports, hReports, hLast⟩
  by_cases hAny : c.role = .any
  · rw [Contract.findings_eq_of_any hc hAny] at hReports
    exact hSound.spares_or_onBody_of_mem_notTested hPlain
      hType hReports hLast
  · have hOut : t.id ∉ S := by
      intro hIn
      rw [hSound.roles_eq_of_region hRegion hPlain hType
        hIn] at hRoles
      cases hRoles
      exact hAny (List.mem_singleton.mp hRole)
    left
    cases Contract.placed_of_mem hc hAny hReports hLast with
    | type breach =>
        exact Finding.spares_ofType ⟨hType, hOut⟩ _
    | @member m hDeclared breach =>
        rcases hSound.hasMember_of_mem_declaredBy hType
            hDeclared with
          ⟨hMember, hOwner⟩
        exact Finding.spares_ofMember
          ⟨hMember, by rwa [hOwner]⟩ _

end Program.Sound

end JsExport
