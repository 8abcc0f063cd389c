import JsExport.Proofs.Rearrangement.Program
import JsExport.Rules.Contract

/-
  Reports on roles of types, of members in another order.

  A type keeps its roles, as these depend on which members
  it declares and not on their order.  So each contract is
  checked on the same types, and its reports on the members
  of a type come in the order of the members.

  Main declarations:
    * `Program.Rearranges.roles_eq_ok`
    * `Program.Rearranges.contract_perm`
    * `Program.Rearranges.contractFindings_perm`
-/

namespace JsExport

open Lookup

namespace Rearrangement

variable (r : Rearrangement)

theorem reportIf_type
    (condition : Bool)
    (t : TypeNode)
    (breach : Breach) :
    reportIf condition (r.type t) breach =
      (reportIf condition t breach).map r.finding := by
  unfold reportIf
  cases condition <;> rfl

end Rearrangement

namespace Program.Rearranges

variable {p q : Program}
variable {r : Rearrangement}
variable (hMoves : q.Rearranges r p)

include hMoves

------------------------------------------------------------
-- Roles
------------------------------------------------------------

theorem implementsFunction_eq_ok
    {t : TypeNode}
    {implements : Bool}
    (hImplements : p.implementsFunction t = .ok implements) :
    q.implementsFunction (r.type t) = .ok implements := by
  rcases bind_eq_ok_iff.mp hImplements with
    ⟨interfaces, hInterfaces, hEq⟩
  cases hEq
  apply bind_eq_ok_iff.mpr
  refine ⟨interfaces.map r.type,
    hMoves.interfacesOf_eq_ok hInterfaces, ?_⟩
  rw [List.any_map]
  rfl

theorem implementationWithin_eq_ok
    {classes : Nat}
    {t : TypeNode}
    {nearest : Option TypeNode}
    (hNearest :
      p.implementationWithin classes t = .ok nearest) :
    q.implementationWithin classes (r.type t) =
      .ok (nearest.map r.type) := by
  induction classes generalizing t with
  | zero =>
      cases hNearest
      rfl
  | succ classes ih =>
      unfold implementationWithin at hNearest ⊢
      have hSuper :
          (r.type t).decl.superClass = t.decl.superClass :=
        rfl
      rw [hSuper]
      cases hClass : t.decl.superClass with
      | none =>
          rw [hClass] at hNearest
          cases hNearest
          rfl
      | some s =>
          rw [hClass] at hNearest
          rcases bind_eq_ok_iff.mp hNearest with
            ⟨above, hAbove, hRest⟩
          rcases bind_eq_ok_iff.mp hRest with
            ⟨implements, hImplements, hRest⟩
          apply bind_eq_ok_iff.mpr
          refine ⟨r.type above, hMoves.type_eq_ok hAbove, ?_⟩
          apply bind_eq_ok_iff.mpr
          refine ⟨implements,
            hMoves.implementsFunction_eq_ok hImplements, ?_⟩
          change (if !above.decl.isInterface && implements
            then _ else _) = _
          by_cases hHere :
              !above.decl.isInterface && implements
          · rw [if_pos hHere] at hRest ⊢
            cases hRest
            rfl
          · rw [if_neg hHere] at hRest ⊢
            exact ih hRest

theorem nearestImplementation?_eq_ok
    {t : TypeNode}
    {nearest : Option TypeNode}
    (hNearest : p.nearestImplementation? t = .ok nearest) :
    q.nearestImplementation? (r.type t) =
      .ok (nearest.map r.type) := by
  unfold nearestImplementation?
  rw [hMoves.length_types_eq]
  exact hMoves.implementationWithin_eq_ok hNearest

------------------------------------------------------------
-- What A Type Refers To
------------------------------------------------------------

theorem notExtended_eq_ok
    {found : List Finding}
    (hFound : FunctionType.notExtended p t = .ok found) :
    FunctionType.notExtended q (r.type t) =
      .ok (found.map r.finding) := by
  rcases bind_eq_ok_iff.mp hFound with
    ⟨interfaces, hInterfaces, hEq⟩
  cases hEq
  apply bind_eq_ok_iff.mpr
  refine ⟨interfaces.map r.type,
    hMoves.interfacesOf_eq_ok hInterfaces, ?_⟩
  apply congrArg Except.ok
  rw [List.flatMap_map, List.map_flatMap]
  apply List.flatMap_congr
  intro i _
  exact r.reportIf_type _ t _

theorem implementationNotExtended_eq_ok
    {found : List Finding}
    (hFound : Implementation.notExtended p t = .ok found) :
    Implementation.notExtended q (r.type t) =
      .ok (found.map r.finding) := by
  rcases bind_eq_ok_iff.mp hFound with
    ⟨nearest, hNearest, hEq⟩
  cases hEq
  apply bind_eq_ok_iff.mpr
  refine ⟨nearest.map r.type,
    hMoves.nearestImplementation?_eq_ok hNearest, ?_⟩
  cases nearest <;> rfl

theorem testFinding?_eq_ok
    {m : MemberNode}
    {test : InstanceTest}
    {found : Option Finding}
    (hFound :
      NativeType.testFinding? p m test = .ok found) :
    NativeType.testFinding? q (r.member m) test =
      .ok (found.map r.finding) := by
  rcases bind_eq_ok_iff.mp hFound with
    ⟨target, hTarget, hRest⟩
  apply bind_eq_ok_iff.mpr
  refine ⟨r.type target, hMoves.type_eq_ok hTarget, ?_⟩
  change (if target.decl.isNative && target.decl.isInterface
    then _ else _) = _
  by_cases hNative :
      target.decl.isNative && target.decl.isInterface
  · rw [if_pos hNative] at hRest ⊢
    cases hRest
    rfl
  · rw [if_neg hNative] at hRest ⊢
    cases hRest
    rfl

theorem overrides_eq
    {types : List TypeNode}
    (hTypes : ∀ s ∈ types, p.HasType s)
    (m : MemberNode) :
    Overlay.overrides
        ((types.map r.type).flatMap q.declaredBy)
        (r.member m).decl =
      Overlay.overrides (types.flatMap p.declaredBy)
        m.decl := by
  apply Listing.any_perm_map
    (hMoves.flatMap_declaredBy_perm hTypes)
  intro n _
  rw [r.decl_member, r.decl_member,
    MemberDecl.isOverridable_renumber,
    MemberDecl.sharesSignature_renumber]

theorem overlayBreach?_eq
    {types : List TypeNode}
    (hTypes : ∀ s ∈ types, p.HasType s)
    (inNative : Bool)
    (m : MemberNode) :
    Overlay.breach? inNative
        ((types.map r.type).flatMap q.declaredBy)
        (r.member m) =
      Overlay.breach? inNative (types.flatMap p.declaredBy)
        m := by
  unfold Overlay.breach?
  rw [hMoves.overrides_eq hTypes, r.decl_member,
    MemberDecl.isCallable_renumber]
  rfl

------------------------------------------------------------
-- Members Of A Type
------------------------------------------------------------

section Types

variable {t : TypeNode}
variable (hType : p.HasType t)

include hType

theorem hasOverlay_eq :
    q.hasOverlay (r.type t) = p.hasOverlay t :=
  Listing.any_perm_map (hMoves.declaredBy_perm hType)
    (fun _ _ => rfl)

/- A type keeps its roles. -/
theorem roles_eq_ok
    {roles : List TypeRole}
    (hRoles : p.roles t = .ok roles) :
    q.roles (r.type t) = .ok roles := by
  rcases bind_eq_ok_iff.mp hRoles with
    ⟨implements, hImplements, hRest⟩
  rcases bind_eq_ok_iff.mp hRest with
    ⟨nearest, hNearest, hEq⟩
  apply bind_eq_ok_iff.mpr
  refine ⟨implements,
    hMoves.implementsFunction_eq_ok hImplements, ?_⟩
  apply bind_eq_ok_iff.mpr
  refine ⟨nearest.map r.type,
    hMoves.nearestImplementation?_eq_ok hNearest, ?_⟩
  rw [hMoves.hasOverlay_eq hType, Option.isSome_map]
  exact hEq

theorem hasStaticCode_eq :
    q.hasStaticCode (r.type t) = p.hasStaticCode t := by
  unfold hasStaticCode
  apply congrArg (t.decl.hasStaticInitializer || ·)
  apply Listing.any_perm_map (hMoves.declaredBy_perm hType)
  intro m _
  rw [r.decl_member, MemberDecl.field?_renumber]
  rfl

theorem initializesFields_eq :
    NativeType.initializesFields q (r.type t) =
      NativeType.initializesFields p t := by
  unfold NativeType.initializesFields
  apply congrArg (t.decl.hasInstanceInitializer || ·)
  apply Listing.any_perm_map (hMoves.declaredBy_perm hType)
  intro m _
  rw [r.decl_member, MemberDecl.field?_renumber]
  rfl

theorem shape_eq :
    FunctionType.shape q (r.type t) =
      (FunctionType.shape p t).map r.finding := by
  have hAbstract :
      (FunctionType.abstractMethods q (r.type t)).Perm
        ((FunctionType.abstractMethods p t).map
          r.member) := by
    apply Listing.filter_perm_map
      (hMoves.declaredBy_perm hType)
    intro m _
    rw [r.decl_member, MemberDecl.isAbstract_renumber]
    rfl
  have hLength := hAbstract.length_eq
  rw [List.length_map] at hLength
  unfold FunctionType.shape
  rw [hLength]
  exact r.reportIf_type _ t _

/- Reports on members that are kept by a condition. -/
theorem memberFindings_perm
    {keep keep' : MemberNode → Bool}
    {breach : String → Breach}
    (hKeep : ∀ m, keep' (r.member m) = keep m) :
    (((q.declaredBy (r.type t)).filter keep').map (fun m =>
        Finding.ofMember m
          (breach (Signature.text q m)))).Perm
      ((((p.declaredBy t).filter keep).map (fun m =>
        Finding.ofMember m
          (breach (Signature.text p m)))).map r.finding) := by
  have hKept :=
    Listing.filter_perm_map (hMoves.declaredBy_perm hType)
      (fun m _ => hKeep m)
  refine (hKept.map _).trans (List.Perm.of_eq ?_)
  rw [List.map_map, List.map_map]
  apply List.map_congr_left
  intro m _
  rw [Function.comp, hMoves.text_eq]
  rfl

theorem inView_perm :
    (NativeType.inView q (r.type t)).Perm
      ((NativeType.inView p t).map r.finding) := by
  apply hMoves.memberFindings_perm hType
  intro m
  unfold NativeType.isHidden
  rw [r.decl_member, MemberDecl.isConstructor_renumber]
  rfl

theorem noConstructorCode_perm :
    (NativeType.noConstructorCode q (r.type t)).Perm
      ((NativeType.noConstructorCode p t).map
        r.finding) := by
  unfold NativeType.noConstructorCode
  rw [hMoves.initializesFields_eq hType]
  apply hMoves.memberFindings_perm hType
  intro m
  rw [r.decl_member, MemberDecl.callable?_renumber,
    Option.any_map]
  rfl

theorem notTested_perm
    {found found' : List Finding}
    (hFound : NativeType.notTested p t = .ok found)
    (hFound' :
      NativeType.notTested q (r.type t) = .ok found') :
    found'.Perm (found.map r.finding) := by
  refine bind_flatten_perm (hMoves.declaredBy_perm hType)
    ?_ hFound hFound'
  intro m _ here here' hHere hHere'
  rw [r.decl_member, MemberDecl.instanceTests_renumber]
    at hHere'
  have hMoved := filterMapM_eq_ok_map_of_filterMapM_eq_ok
    (fun _ _ _ hOne => hMoves.testFinding?_eq_ok hOne)
    hHere
  rw [Except.ok.inj (hHere'.symm.trans hMoved)]

theorem additive_perm
    {found found' : List Finding}
    (hFound : Overlay.additive p t = .ok found)
    (hFound' : Overlay.additive q (r.type t) = .ok found') :
    found'.Perm (found.map r.finding) := by
  rcases bind_eq_ok_iff.mp hFound with
    ⟨lineage, hLineage, hEq⟩
  rcases bind_eq_ok_iff.mp hFound' with
    ⟨lineage', hLineage', hEq'⟩
  cases hEq
  cases hEq'
  cases hLineage'.symm.trans (hMoves.lineage_eq_ok hLineage)
  have hTypes : ∀ s ∈ lineage.tail, p.HasType s := by
    intro s hs
    exact ((mem_of_lineage_eq_ok hLineage).mp
      (List.mem_of_mem_tail hs)).2
  have hOverlays :
      ((q.declaredBy (r.type t)).filter (fun m =>
          decide (m.decl.tag = .jsOverlay))).Perm
        (((p.declaredBy t).filter (fun m =>
          decide (m.decl.tag = .jsOverlay))).map
            r.member) :=
    Listing.filter_perm_map (hMoves.declaredBy_perm hType)
      (fun _ _ => rfl)
  have hNative :
      (lineage.map r.type).any (fun s => s.decl.isNative) =
        lineage.any (fun s => s.decl.isNative) := by
    rw [List.any_map]
    rfl
  refine (hOverlays.filterMap _).trans (List.Perm.of_eq ?_)
  rw [List.filterMap_map, List.map_filterMap, hNative,
    ← List.map_tail]
  apply List.filterMap_congr
  intro m _
  rw [Function.comp, hMoves.overlayBreach?_eq hTypes,
    hMoves.text_eq, Option.map_map]
  rfl

------------------------------------------------------------
-- Contracts
------------------------------------------------------------

/- A contract makes the same reports but for order. -/
theorem contract_perm
    {c : Contract}
    (hContract : c ∈ contracts)
    {found found' : List Finding}
    (hFound : c.findings p t = .ok found)
    (hFound' : c.findings q (r.type t) = .ok found') :
    found'.Perm (found.map r.finding) := by
  unfold contracts at hContract
  simp only [List.mem_cons, List.not_mem_nil, or_false]
    at hContract
  -- What is only about the type is reported in one order.
  have hSame :
      c.findings q (r.type t) = .ok (found.map r.finding) →
        found'.Perm (found.map r.finding) :=
    fun hEq =>
      List.Perm.of_eq (Except.ok.inj (hFound'.symm.trans hEq))
  rcases hContract with rfl | rfl | rfl | rfl | rfl | rfl |
    rfl | rfl | rfl | rfl | rfl | rfl | rfl | rfl | rfl
  · cases hFound
    exact hSame (congrArg Except.ok (hMoves.shape_eq hType))
  · cases hFound
    exact hSame (congrArg Except.ok (r.reportIf_type _ t _))
  · cases hFound
    apply hSame
    unfold FunctionType.noStaticCode
    rw [← hMoves.hasStaticCode_eq hType]
    exact congrArg Except.ok (r.reportIf_type _ t _)
  · cases hFound
    exact hSame (congrArg Except.ok (r.reportIf_type _ t _))
  · exact hSame (hMoves.notExtended_eq_ok hFound)
  · cases hFound
    exact hSame (congrArg Except.ok (r.reportIf_type _ t _))
  · cases hFound
    exact hSame (congrArg Except.ok (r.reportIf_type _ t _))
  · cases hFound
    exact hSame (congrArg Except.ok (r.reportIf_type _ t _))
  · exact hSame
      (hMoves.implementationNotExtended_eq_ok hFound)
  · cases hFound
    exact hSame (congrArg Except.ok (r.reportIf_type _ t _))
  · cases hFound
    cases hFound'
    exact hMoves.inView_perm hType
  · cases hFound
    apply hSame
    unfold NativeType.noStaticCode
    rw [← hMoves.hasStaticCode_eq hType]
    exact congrArg Except.ok (r.reportIf_type _ t _)
  · cases hFound
    cases hFound'
    exact hMoves.noConstructorCode_perm hType
  · exact hMoves.additive_perm hType hFound hFound'
  · exact hMoves.notTested_perm hType hFound hFound'

theorem typeFindings_perm
    {found found' : List Finding}
    (hFound : p.typeFindings t = .ok found)
    (hFound' : q.typeFindings (r.type t) = .ok found') :
    found'.Perm (found.map r.finding) := by
  rcases bind_eq_ok_iff.mp hFound with
    ⟨roles, hRoles, hRest⟩
  rcases bind_eq_ok_iff.mp hFound' with
    ⟨roles', hRoles', hRest'⟩
  cases hRoles'.symm.trans (hMoves.roles_eq_ok hType hRoles)
  refine bind_flatten_perm (List.Perm.of_eq
    (List.map_id _).symm) ?_ hRest hRest'
  intro c hc here here' hHere hHere'
  exact hMoves.contract_perm hType
    (List.mem_of_mem_filter hc) hHere hHere'

end Types

/- The reports on roles are the same but for order. -/
theorem contractFindings_perm
    {found found' : List Finding}
    (hFound : p.contractFindings = .ok found)
    (hFound' : q.contractFindings = .ok found') :
    found'.Perm (found.map r.finding) := by
  refine bind_flatten_perm
    (List.Perm.of_eq hMoves.typeNodes_eq) ?_ hFound hFound'
  intro t ht here here' hHere hHere'
  exact hMoves.typeFindings_perm (mem_typeNodes_iff.mp ht)
    hHere hHere'

end Program.Rearranges

end JsExport
