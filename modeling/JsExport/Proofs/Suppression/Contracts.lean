import JsExport.Proofs.Suppression.View
import JsExport.Rules.Contract

/-
  Reports on contracts of types without suppressions.

  A type has the same roles whatever it silences, and every
  rule of a role reports the same of it.

  Main declarations:
    * `Program.roles_unsilenced`
    * `Program.contract_unsilenced`
    * `Program.contractFindings_unsilenced`
-/

namespace JsExport

open Lookup

namespace Program

variable (p : Program)
variable (t : TypeNode)

------------------------------------------------------------
-- Roles
------------------------------------------------------------

theorem implementsFunction_unsilenced :
    p.unsilenced.implementsFunction t.unsilenced =
      p.implementsFunction t := by
  unfold implementsFunction
  rw [p.interfacesOf_unsilenced, bind_map_left]
  congr 1
  funext interfaces
  rw [List.any_map]
  rfl

theorem implementationWithin_unsilenced
    (classes : Nat) :
    p.unsilenced.implementationWithin classes t.unsilenced =
      Option.map .unsilenced <$>
        p.implementationWithin classes t := by
  induction classes generalizing t with
  | zero => rfl
  | succ classes ih =>
      have hSuper :
          t.unsilenced.decl.superClass = t.decl.superClass :=
        rfl
      unfold implementationWithin
      rw [hSuper]
      cases t.decl.superClass with
      | none => rfl
      | some s =>
          dsimp only
          rw [p.type_unsilenced, bind_map_left, map_bind]
          congr 1
          funext above
          have hKind :
              above.unsilenced.decl.isInterface =
                above.decl.isInterface := rfl
          rw [p.implementsFunction_unsilenced, ih, hKind]
          rw [map_bind]
          congr 1
          funext implements
          split <;> rfl

theorem nearestImplementation?_unsilenced :
    p.unsilenced.nearestImplementation? t.unsilenced =
      Option.map .unsilenced <$>
        p.nearestImplementation? t := by
  have hCount :
      p.unsilenced.types.length = p.types.length :=
    List.length_map _
  unfold nearestImplementation?
  rw [hCount, p.implementationWithin_unsilenced]

/- A type without suppressions has the same roles. -/
theorem roles_unsilenced :
    p.unsilenced.roles t.unsilenced = p.roles t := by
  have hOverlay :
      p.unsilenced.hasOverlay t.unsilenced =
        p.hasOverlay t := by
    unfold hasOverlay
    rw [p.declaredBy_unsilenced, List.any_map]
    rfl
  unfold roles
  rw [p.implementsFunction_unsilenced,
    p.nearestImplementation?_unsilenced, hOverlay]
  simp only [bind_map_left, Option.isSome_map]
  rfl

------------------------------------------------------------
-- Function Types
------------------------------------------------------------

theorem hasStaticCode_unsilenced :
    p.unsilenced.hasStaticCode t.unsilenced =
      p.hasStaticCode t := by
  unfold hasStaticCode
  rw [p.declaredBy_unsilenced, List.any_map]
  simp only [Function.comp_def, MemberNode.decl_unsilenced,
    MemberDecl.field?_unsilenced]
  rfl

theorem shape_unsilenced :
    FunctionType.shape p.unsilenced t.unsilenced =
      FunctionType.shape p t := by
  have hAbstract :
      FunctionType.abstractMethods p.unsilenced
          t.unsilenced =
        (FunctionType.abstractMethods p t).map
          .unsilenced := by
    unfold FunctionType.abstractMethods
    rw [p.declaredBy_unsilenced]
    apply Listing.filter_map_eq
    intro m
    rw [m.decl_unsilenced, m.decl.isAbstract_unsilenced]
    rfl
  unfold FunctionType.shape
  rw [hAbstract, List.length_map]
  rfl

theorem functionNotExtended_unsilenced :
    FunctionType.notExtended p.unsilenced t.unsilenced =
      FunctionType.notExtended p t := by
  unfold FunctionType.notExtended
  rw [p.interfacesOf_unsilenced, bind_map_left]
  simp only [List.flatMap_map]
  rfl

theorem implementationNotExtended_unsilenced :
    Implementation.notExtended p.unsilenced t.unsilenced =
      Implementation.notExtended p t := by
  unfold Implementation.notExtended
  rw [p.nearestImplementation?_unsilenced, bind_map_left]
  congr 1
  funext above
  cases above <;> rfl

------------------------------------------------------------
-- Native Types
------------------------------------------------------------

theorem inView_unsilenced :
    NativeType.inView p.unsilenced t.unsilenced =
      NativeType.inView p t := by
  have hHidden (m : MemberNode) :
      NativeType.isHidden m.unsilenced.decl =
        NativeType.isHidden m.decl := by
    unfold NativeType.isHidden
    rw [m.decl_unsilenced, m.decl.isConstructor_unsilenced]
    rfl
  unfold NativeType.inView
  rw [p.declaredBy_unsilenced,
    Listing.filter_map_eq (f := MemberNode.unsilenced)
      hHidden, List.map_map]
  simp only [Function.comp_def, Signature.text_unsilenced]
  rfl

theorem noConstructorCode_unsilenced :
    NativeType.noConstructorCode p.unsilenced t.unsilenced =
      NativeType.noConstructorCode p t := by
  have hInitializes :
      NativeType.initializesFields p.unsilenced
          t.unsilenced =
        NativeType.initializesFields p t := by
    unfold NativeType.initializesFields
    rw [p.declaredBy_unsilenced, List.any_map]
    simp only [Function.comp_def,
      MemberNode.decl_unsilenced,
      MemberDecl.field?_unsilenced]
    rfl
  have hCode (m : MemberNode) :
      m.unsilenced.decl.callable?.any (fun c =>
          c.isConstructor && (c.body.nonEmpty ||
            NativeType.initializesFields p t)) =
        m.decl.callable?.any (fun c =>
          c.isConstructor && (c.body.nonEmpty ||
            NativeType.initializesFields p t)) := by
    rw [m.decl_unsilenced, m.decl.callable?_unsilenced,
      Option.any_map]
    rfl
  unfold NativeType.noConstructorCode
  dsimp only
  rw [hInitializes, p.declaredBy_unsilenced,
    Listing.filter_map_eq (f := MemberNode.unsilenced)
      hCode, List.map_map]
  simp only [Function.comp_def, Signature.text_unsilenced]
  rfl

theorem notTested_unsilenced :
    NativeType.notTested p.unsilenced t.unsilenced =
      NativeType.notTested p t := by
  have hTest (m : MemberNode) :
      NativeType.testFinding? p.unsilenced m.unsilenced =
        NativeType.testFinding? p m := by
    funext test
    unfold NativeType.testFinding?
    rw [p.type_unsilenced, bind_map_left]
    rfl
  unfold NativeType.notTested
  rw [p.declaredBy_unsilenced, List.mapM_map]
  simp only [Function.comp_def, hTest,
    MemberNode.decl_unsilenced,
    MemberDecl.instanceTests_unsilenced]

------------------------------------------------------------
-- Overlays
------------------------------------------------------------

theorem breach?_unsilenced
    (inNative : Bool)
    (above : List MemberNode)
    (m : MemberNode) :
    Overlay.breach? inNative (above.map .unsilenced)
        m.unsilenced =
      Overlay.breach? inNative above m := by
  have hOverrides :
      Overlay.overrides (above.map .unsilenced)
          m.decl.unsilenced =
        Overlay.overrides above m.decl := by
    unfold Overlay.overrides
    rw [List.any_map]
    simp only [Function.comp_def,
      MemberNode.decl_unsilenced,
      MemberDecl.isOverridable_unsilenced,
      MemberDecl.sharesSignature_unsilenced]
  unfold Overlay.breach?
  rw [m.decl_unsilenced, m.decl.isCallable_unsilenced,
    hOverrides]
  rfl

theorem additive_unsilenced :
    Overlay.additive p.unsilenced t.unsilenced =
      Overlay.additive p t := by
  have hId : t.unsilenced.id = t.id := rfl
  unfold Overlay.additive
  rw [hId, p.lineage_unsilenced, bind_map_left]
  congr 1
  funext lineage
  have hOverlays :
      ((p.declaredBy t).map MemberNode.unsilenced).filter
          (fun m => decide (m.decl.tag = .jsOverlay)) =
        ((p.declaredBy t).filter (fun m =>
          decide (m.decl.tag = .jsOverlay))).map
            .unsilenced :=
    Listing.filter_map_eq (fun _ => rfl) _
  dsimp only
  rw [← List.map_tail, p.flatMap_declaredBy_unsilenced,
    p.declaredBy_unsilenced, hOverlays, List.any_map,
    List.filterMap_map]
  simp only [Function.comp_def, breach?_unsilenced,
    Signature.text_unsilenced]
  rfl

------------------------------------------------------------
-- Contracts
------------------------------------------------------------

/- Every rule of a role reports the same of the type. -/
theorem contract_unsilenced
    {c : Contract}
    (hContract : c ∈ contracts) :
    c.findings p.unsilenced t.unsilenced =
      c.findings p t := by
  unfold contracts at hContract
  simp only [List.mem_cons, List.not_mem_nil, or_false]
    at hContract
  rcases hContract with rfl | rfl | rfl | rfl | rfl | rfl |
    rfl | rfl | rfl | rfl | rfl | rfl | rfl | rfl | rfl
  · exact congrArg Except.ok (p.shape_unsilenced t)
  · rfl
  · unfold FunctionType.noStaticCode
    dsimp only
    rw [p.hasStaticCode_unsilenced]
    rfl
  · rfl
  · exact p.functionNotExtended_unsilenced t
  · rfl
  · rfl
  · rfl
  · exact p.implementationNotExtended_unsilenced t
  · rfl
  · exact congrArg Except.ok (p.inView_unsilenced t)
  · unfold NativeType.noStaticCode
    dsimp only
    rw [p.hasStaticCode_unsilenced]
    rfl
  · exact congrArg Except.ok
      (p.noConstructorCode_unsilenced t)
  · exact p.additive_unsilenced t
  · exact p.notTested_unsilenced t

theorem typeFindings_unsilenced :
    p.unsilenced.typeFindings t.unsilenced =
      p.typeFindings t := by
  unfold typeFindings
  rw [p.roles_unsilenced]
  congr 1
  funext roles
  dsimp only
  rw [mapM_congr (fun c hc => p.contract_unsilenced t
    (List.mem_of_mem_filter hc))]

/- The reports on roles are the same. -/
theorem contractFindings_unsilenced :
    p.unsilenced.contractFindings = p.contractFindings := by
  unfold contractFindings
  rw [p.typeNodes_unsilenced, List.mapM_map]
  simp only [Function.comp_def, typeFindings_unsilenced]

end Program

end JsExport
