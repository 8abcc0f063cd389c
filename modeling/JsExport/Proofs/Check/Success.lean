import JsExport.Proofs.Check.Outcome
import JsExport.Proofs.Rules.Delegation
import JsExport.Proofs.Rules.Usability

/-
  The check of a built program comes to an end.

  A check looks up numbers wherever the program refers to a
  type or a member.  Each kind of reference is one that the
  validation of drafts has looked at, so in a sound program
  every lookup succeeds, and so does every rule.

  Main declarations:
    * `ExportView.namingFindings_succeeds`
    * `ExportView.propertyFindings_succeeds`
    * `Program.Sound.contractFindings_succeeds`
    * `ExportView.usability_succeeds`
    * `Program.Sound.check_succeeds`
-/

namespace JsExport

open Lookup

------------------------------------------------------------
-- Usable Types
------------------------------------------------------------

namespace Program

namespace Sound

variable {p : Program}
variable (hSound : p.Sound)

include hSound

/-
  Whether a type is usable can be told when the type of the
  program that it mentions is there.
-/
omit hSound in
theorem isUsable_succeeds_of_declared
    {e : TypeExpr}
    (hDeclared :
      ∀ t, e.declared? = some t → t < p.types.length) :
    Succeeds (p.isUsable e) := by
  induction e with
  | void => exact ⟨true, rfl⟩
  | prim kind => exact ⟨!kind.isLong, rfl⟩
  | boxed kind => exact ⟨!kind.isLong, rfl⟩
  | string => exact ⟨true, rfl⟩
  | object => exact ⟨true, rfl⟩
  | declared t => exact (type_succeeds (hDeclared t rfl)).map _
  | external name => exact ⟨false, rfl⟩
  | array element dims ih =>
      unfold isUsable
      by_cases hObject : element.isObject
      · rw [if_pos hObject]
        exact ⟨false, rfl⟩
      · rw [if_neg hObject]
        exact ih hDeclared

/- Whether a type in a signature is usable can be told. -/
theorem isUsable_succeeds
    {m : MemberNode}
    (hMember : p.HasMember m)
    {e : TypeExpr}
    (hMention : e ∈ m.decl.signatureTypes) :
    Succeeds (p.isUsable e) :=
  isUsable_succeeds_of_declared
    (hSound.wellFormed.signatures m.decl
      (List.mem_of_getElem? hMember.1) e hMention)

end Sound

end Program

------------------------------------------------------------
-- Constructors
------------------------------------------------------------

namespace ExportView

variable {v : ExportView}
variable {p : Program}

theorem strandedConstructors_succeeds
    (hSound : p.Sound)
    (hShows : v.Shows p)
    (primary : MemberNode)
    {constructors : List MemberNode}
    (hMembers : ∀ c ∈ constructors, p.HasMember c) :
    Succeeds
      (v.strandedConstructors primary constructors) := by
  apply filterM_succeeds
  intro c hc
  by_cases hSame : c.id == primary.id
  · rw [if_pos hSame]
    exact ⟨false, rfl⟩
  · rw [if_neg hSame, hShows.program_eq]
    exact (hSound.reachesWithin_succeeds primary _
      (hMembers c hc)).map _

theorem constructorFindings_succeeds
    (hSound : p.Sound)
    (hShows : v.Shows p)
    {t : TypeNode}
    (hType : p.HasType t) :
    Succeeds (v.constructorFindings t) := by
  have hMembers :
      ∀ c ∈ (v.program.declaredBy t).filter
          (fun m => m.decl.isConstructor),
        p.HasMember c := by
    intro c hc
    rw [hShows.program_eq] at hc
    exact (hSound.hasMember_of_mem_declaredBy hType
      (List.mem_of_mem_filter hc)).1
  simp only [constructorFindings]
  split
  · exact ⟨[], rfl⟩
  · exact (strandedConstructors_succeeds hSound hShows _
      hMembers).map _
  · exact ⟨_, rfl⟩

theorem constructors_succeeds
    (hSound : p.Sound)
    (hShows : v.Shows p) :
    Succeeds v.constructors := by
  refine Succeeds.map (mapM_succeeds ?_) _
  intro t ht
  have hMem := List.mem_of_mem_filter ht
  rw [hShows.types_eq] at hMem
  exact constructorFindings_succeeds hSound hShows
    (Program.mem_typeNodes_iff.mp hMem)

/- The rules on names come to an end. -/
theorem namingFindings_succeeds
    (hSound : p.Sound)
    (hShows : v.Shows p) :
    Succeeds v.namingFindings :=
  (constructors_succeeds hSound hShows).map _

------------------------------------------------------------
-- Properties
------------------------------------------------------------

/- The rules on properties come to an end. -/
theorem propertyFindings_succeeds
    (hSound : p.Sound)
    (hShows : v.Shows p) :
    Succeeds v.propertyFindings := by
  refine Succeeds.map ?_ _
  refine Succeeds.map (mapM_succeeds ?_) _
  intro m hm
  apply mapM_succeeds
  intro call hCall
  have hMember := hShows.mem_members_iff.mp hm
  refine Succeeds.map ?_ _
  rw [hShows.program_eq]
  exact hSound.superCall_succeeds hMember
    (List.mem_of_mem_filter hCall)

------------------------------------------------------------
-- Usability
------------------------------------------------------------

/- A report that hangs on a lookup is made or not. -/
private theorem succeeds_bind_ite
    {x : Except LookupError Bool}
    (hFirst : Succeeds x)
    (quiet : Bool → Bool)
    (findings : List Finding) :
    Succeeds (x >>= fun b =>
      if quiet b then
        (pure [] : Except LookupError (List Finding))
      else pure findings) := by
  refine hFirst.bind ?_
  intro b _
  by_cases hQuiet : quiet b
  · rw [if_pos hQuiet]
    exact succeeds_pure []
  · rw [if_neg hQuiet]
    exact succeeds_pure findings

theorem memberAdvice_succeeds
    (hSound : p.Sound)
    (hShows : v.Shows p)
    (key : String)
    (exposedBy : Option TypeNode)
    {m : MemberNode}
    (hMember : p.HasMember m) :
    Succeeds (v.memberAdvice key m exposedBy) := by
  have hUsable :
      ∀ e ∈ m.decl.signatureTypes,
        Succeeds (v.program.isUsable e) := by
    intro e he
    rw [hShows.program_eq]
    exact hSound.isUsable_succeeds hMember he
  unfold memberAdvice
  by_cases hSilenced : isSilenced key m
  · rw [if_pos hSilenced]
    exact succeeds_pure []
  · rw [if_neg hSilenced]
    cases hShape : m.decl.shape with
    | field f =>
        have hMention :=
          MemberDecl.type_mem_signatureTypes hShape
        exact succeeds_bind_ite
          (hUsable f.type hMention) id _
    | callable c =>
        have hMention :=
          MemberDecl.result_mem_signatureTypes hShape
        have hParams :=
          MemberDecl.paramTypes_subset_signatureTypes hShape
        have hResult :=
          succeeds_bind_ite (hUsable c.result hMention)
            (c.result.isVoid || ·)
            [Finding.ofMember m (.unusableResult
              (Signature.quoted v.program m exposedBy))]
        refine hResult.bind ?_
        intro result _
        refine Succeeds.map (mapM_succeeds ?_) _
        intro param hParam
        exact succeeds_bind_ite
          (hUsable param.type
            (hParams (List.mem_map_of_mem hParam)))
          (param.suppressions.contains key || ·) _

/- The advice on usability comes to an end. -/
theorem usability_succeeds
    (hSound : p.Sound)
    (hShows : v.Shows p)
    (advice : Advice) :
    Succeeds (v.usability advice) := by
  unfold usability
  by_cases hOn : advice.isOn
  · rw [if_pos hOn]
    refine Succeeds.bind (mapM_succeeds ?_) ?_
    · intro m hm
      exact memberAdvice_succeeds hSound hShows advice.key
        none (hShows.mem_members_iff.mp
          (List.mem_of_mem_filter hm))
    · intro own _
      refine Succeeds.map (mapM_succeeds ?_) _
      intro slot hSlot
      exact memberAdvice_succeeds hSound hShows advice.key
        slot.exposedBy
        (hShows.hasMember_of_mem_onlyExposedSlots hSound
          hSlot)
  · rw [if_neg hOn]
    exact succeeds_pure []

end ExportView

------------------------------------------------------------
-- Contracts Of Types
------------------------------------------------------------

namespace Program

namespace Sound

variable {p : Program}
variable (hSound : p.Sound)

include hSound

theorem implementsFunction_succeeds
    {t : TypeNode}
    (hType : p.HasType t) :
    Succeeds (p.implementsFunction t) :=
  (hSound.interfacesOf_succeeds hType).map _

theorem implementationWithin_succeeds
    (classes : Nat)
    {t : TypeNode}
    (hType : p.HasType t) :
    Succeeds (p.implementationWithin classes t) := by
  induction classes generalizing t with
  | zero => exact ⟨none, rfl⟩
  | succ classes ih =>
      unfold implementationWithin
      cases hSuper : t.decl.superClass with
      | none => exact ⟨none, rfl⟩
      | some s =>
          refine (hSound.superclass_succeeds hType
            hSuper).bind ?_
          intro above hAbove
          have hAboveType :=
            (type_eq_ok_iff_hasType.mp hAbove).2
          refine (hSound.implementsFunction_succeeds
            hAboveType).bind ?_
          intro implements _
          split
          · exact ⟨some above, rfl⟩
          · exact ih hAboveType

theorem nearestImplementation?_succeeds
    {t : TypeNode}
    (hType : p.HasType t) :
    Succeeds (p.nearestImplementation? t) :=
  hSound.implementationWithin_succeeds _ hType

theorem roles_succeeds
    {t : TypeNode}
    (hType : p.HasType t) :
    Succeeds (p.roles t) := by
  refine (hSound.implementsFunction_succeeds hType).bind ?_
  intro implements _
  exact (hSound.nearestImplementation?_succeeds hType).map _

theorem additive_succeeds
    {t : TypeNode}
    (hType : p.HasType t) :
    Succeeds (Overlay.additive p t) :=
  (hSound.lineage_succeeds hType.lt_length).map _

theorem notTested_succeeds
    {t : TypeNode}
    (hType : p.HasType t) :
    Succeeds (NativeType.notTested p t) := by
  refine Succeeds.map (mapM_succeeds ?_) _
  intro m hm
  have hMember :=
    (hSound.hasMember_of_mem_declaredBy hType hm).1
  apply filterMapM_succeeds
  intro test hTest
  refine (hSound.instanceTest_succeeds hMember
    hTest).bind ?_
  intro target _
  split
  · exact succeeds_pure _
  · exact succeeds_pure _

/- Every rule for a role comes to an end. -/
theorem contract_succeeds
    {t : TypeNode}
    (hType : p.HasType t)
    {c : Contract}
    (hContract : c ∈ contracts) :
    Succeeds (c.findings p t) := by
  unfold contracts at hContract
  simp only [List.mem_cons, List.not_mem_nil, or_false]
    at hContract
  rcases hContract with rfl | rfl | rfl | rfl | rfl | rfl |
    rfl | rfl | rfl | rfl | rfl | rfl | rfl | rfl | rfl
  · exact succeeds_pure (FunctionType.shape p t)
  · exact succeeds_pure (FunctionType.noSupertypes t)
  · exact succeeds_pure (FunctionType.noStaticCode p t)
  · exact succeeds_pure (FunctionType.notJsType t)
  · exact (hSound.interfacesOf_succeeds hType).map _
  · exact succeeds_pure (Implementation.oneInterface t)
  · exact succeeds_pure (Implementation.noSuperclass t)
  · exact succeeds_pure (Implementation.notJsType t)
  · exact (hSound.nearestImplementation?_succeeds
      hType).map _
  · exact succeeds_pure (NativeType.notEnum t)
  · exact succeeds_pure (NativeType.inView p t)
  · exact succeeds_pure (NativeType.noStaticCode p t)
  · exact succeeds_pure (NativeType.noConstructorCode p t)
  · exact hSound.additive_succeeds hType
  · exact hSound.notTested_succeeds hType

/- The rules for roles come to an end. -/
theorem contractFindings_succeeds :
    Succeeds p.contractFindings := by
  refine Succeeds.map (mapM_succeeds ?_) _
  intro t ht
  have hType := mem_typeNodes_iff.mp ht
  refine (hSound.roles_succeeds hType).bind ?_
  intro roles _
  refine Succeeds.map (mapM_succeeds ?_) _
  intro c hc
  exact hSound.contract_succeeds hType
    (List.mem_of_mem_filter hc)

------------------------------------------------------------
-- Checks
------------------------------------------------------------

/- The check of a sound program has an outcome. -/
theorem check_succeeds
    (settings : Settings) :
    Succeeds (p.check settings) := by
  refine hSound.exportView_succeeds.bind ?_
  intro v hView
  have hShows := exportView_eq_ok_iff.mp hView
  refine (ExportView.namingFindings_succeeds hSound
    hShows).bind ?_
  intro naming _
  refine (ExportView.propertyFindings_succeeds hSound
    hShows).bind ?_
  intro property _
  refine hSound.contractFindings_succeeds.bind ?_
  intro contract _
  exact (ExportView.usability_succeeds hSound hShows
    settings.advice).map _

end Sound

end Program

------------------------------------------------------------
-- Built Programs
------------------------------------------------------------

/-
  A built program is checked to the end, whatever the
  settings.  Every number of a type or a member that it
  mentions is found, members with their owners, and the
  surfaces of its types are made of such members.
-/
theorem lookups_succeed_of_build
    {draft : Draft}
    {p : Program}
    (hBuild : draft.build = .ok p)
    (settings : Settings) :
    (∃ outcome, draft.check settings = .ok outcome) ∧
    (∀ t < p.types.length,
      ∃ node lineage, p.type t = .ok node ∧
        p.lineage t = .ok lineage ∧
        (p.declaredBy node).map (fun m => m.id) =
          node.decl.members ∧
        ∀ m ∈ p.declaredBy node, p.member m.id = .ok m) ∧
    (∀ m < p.members.length,
      ∃ node, p.member m = .ok node ∧
        (∀ target, node.decl.delegatesTo = some target →
          ∃ next, p.member target = .ok next) ∧
        (∀ call ∈ node.decl.superCalls,
          ∃ called, p.member call.target = .ok called) ∧
        (∀ test ∈ node.decl.instanceTests,
          ∃ tested, p.type test.target = .ok tested) ∧
        ∀ e ∈ node.decl.signatureTypes,
          (∃ usable, p.isUsable e = .ok usable) ∧
          ∀ t, e.declared? = some t →
            ∃ mentioned, p.type t = .ok mentioned) ∧
    ∃ v, p.exportView = .ok v ∧
      ∀ t < p.types.length,
        ∃ s, v.surface t = .ok s ∧
          p.type t = .ok s.type ∧
          ∀ slot ∈ s.slots,
            p.member slot.member.id = .ok slot.member ∧
            ∀ n ∈ slot.overridden,
              p.member n.id = .ok n := by
  have hSound := Program.sound_of_build hBuild
  refine ⟨?_, ?_, ?_, ?_⟩
  · rcases hSound.check_succeeds settings with
      ⟨outcome, hOutcome⟩
    exact ⟨outcome,
      Draft.check_eq_ok_of_build hBuild hOutcome⟩
  · intro t ht
    rcases Program.type_succeeds ht with ⟨node, hNode⟩
    rcases hSound.lineage_succeeds ht with
      ⟨lineage, hLineage⟩
    have hType :=
      (Program.type_eq_ok_iff_hasType.mp hNode).2
    refine ⟨node, lineage, hNode, hLineage,
      hSound.map_id_declaredBy hType, ?_⟩
    intro m hm
    exact Program.member_eq_ok_iff_hasMember.mpr
      ⟨rfl, (hSound.hasMember_of_mem_declaredBy hType
        hm).1⟩
  · intro m hm
    rcases hSound.member_succeeds hm with ⟨node, hNode⟩
    have hMember :=
      (Program.member_eq_ok_iff_hasMember.mp hNode).2
    refine ⟨node, hNode, ?_, ?_, ?_, ?_⟩
    · intro target hTarget
      exact hSound.delegation_succeeds hMember hTarget
    · intro call hCall
      exact hSound.superCall_succeeds hMember hCall
    · intro test hTest
      exact hSound.instanceTest_succeeds hMember hTest
    · intro e he
      exact ⟨hSound.isUsable_succeeds hMember he,
        fun t ht => hSound.mention_succeeds hMember he ht⟩
  · rcases hSound.exportView_succeeds with ⟨v, hView⟩
    have hShows := Program.exportView_eq_ok_iff.mp hView
    refine ⟨v, hView, ?_⟩
    intro t ht
    rcases hShows.exists_surface hSound ht with
      ⟨s, hMem, hSurface, hFound⟩
    rcases Program.surface_eq_ok_iff.mp hFound with
      ⟨node, lineage, hNode, _, hEq⟩
    refine ⟨s, hSurface, ?_, ?_⟩
    · rw [hEq]
      exact hNode
    · intro slot hSlot
      have hMember :=
        hShows.hasMember_slot hSound hMem hSlot
      refine ⟨Program.member_eq_ok_iff_hasMember.mpr
        ⟨rfl, hMember.1⟩, ?_⟩
      intro n hn
      exact Program.member_eq_ok_iff_hasMember.mpr
        ⟨rfl, hMember.2 n hn⟩

/- The shop is checked to the end. -/
theorem shop_check_succeeds :
    ∃ p, Draft.shop.build = .ok p ∧
      (∃ outcome,
        Draft.shop.check Settings.standard =
          .ok outcome) ∧
      ∃ v, p.exportView = .ok v ∧
        ∃ s, v.surface 3 = .ok s := by
  rcases Draft.exists_build_shop with ⟨p, hBuild⟩
  have hAll :=
    lookups_succeed_of_build hBuild Settings.standard
  rcases hAll.2.2.2 with ⟨v, hView, hSurfaces⟩
  have hCount : p.types.length = 4 := by
    rw [(Draft.build_eq_ok_iff.mp hBuild).2.2.1]
    rfl
  rcases hSurfaces 3 (by omega) with ⟨s, hs, _⟩
  exact ⟨p, hBuild, hAll.1, v, hView, s, hs⟩

end JsExport
