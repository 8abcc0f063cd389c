import JsExport.Proofs.Extension.Program
import JsExport.Rules.Contract

/-
  Reports on roles of types, in a program that holds another.

  The superclasses of a type rank lower and lower, so the
  search for an implementation ends before the types run
  out, whether there are more of them or not.

  Main declarations:
    * `Program.Extends.implementationWithin_eq`
    * `Program.Extends.roles_eq`
    * `Program.Extends.contract_eq`
    * `Program.Extends.contractFindings_prefix`
-/

namespace JsExport

open Lookup

namespace Program.Extends

variable {p q : Program}
variable (hExtends : q.Extends p)

include hExtends

------------------------------------------------------------
-- Roles
------------------------------------------------------------

theorem implementsFunction_eq
    {t : TypeNode}
    (hType : p.HasType t) :
    q.implementsFunction t = p.implementsFunction t := by
  unfold implementsFunction
  rw [hExtends.interfacesOf_eq hType]

/- What is searched far enough is found alike. -/
theorem implementationWithin_eq
    {rank : TypeId → Nat}
    (hRank : ∀ t a, Inherits p.types t a → rank a < rank t)
    {t : TypeNode}
    (hType : p.HasType t)
    {n m : Nat}
    (hn : rank t.id ≤ n)
    (hm : rank t.id ≤ m) :
    q.implementationWithin n t =
      p.implementationWithin m t := by
  induction n generalizing t m with
  | zero =>
      have hNone : t.decl.superClass = none := by
        cases hSuper : t.decl.superClass with
        | none => rfl
        | some s =>
            have hLess := hRank t.id s
              (hType.inherits_superclass hSuper)
            omega
      cases m with
      | zero => rfl
      | succ m =>
          unfold implementationWithin
          rw [hNone]
  | succ n ih =>
      cases hSuper : t.decl.superClass with
      | none =>
          cases m with
          | zero =>
              unfold implementationWithin
              rw [hSuper]
          | succ m =>
              unfold implementationWithin
              rw [hSuper]
      | some s =>
          have hLess := hRank t.id s
            (hType.inherits_superclass hSuper)
          cases m with
          | zero => omega
          | succ m =>
              rcases hExtends.sound.superclass_succeeds
                  hType hSuper with
                ⟨above, hAbove⟩
              rcases type_eq_ok_iff_hasType.mp hAbove with
                ⟨rfl, hKnown⟩
              have hRest := ih hKnown (m := m)
                (by omega) (by omega)
              unfold implementationWithin
              simp only [hSuper,
                hExtends.type_eq hKnown.lt_length, hAbove,
                bind, Except.bind,
                hExtends.implementsFunction_eq hKnown, hRest]

theorem nearestImplementation?_eq
    {t : TypeNode}
    (hType : p.HasType t) :
    q.nearestImplementation? t =
      p.nearestImplementation? t := by
  rcases hExtends.sound.fits.exists_rank with
    ⟨rank, hLt, hRank⟩
  have hFirst := hLt t.id hType.lt_length
  rcases hExtends.exists_length_eq with ⟨more, hLength⟩
  unfold nearestImplementation?
  exact hExtends.implementationWithin_eq hRank hType
    (by omega) (by omega)

theorem roles_eq
    {t : TypeNode}
    (hType : p.HasType t) :
    q.roles t = p.roles t := by
  have hOverlay : q.hasOverlay t = p.hasOverlay t := by
    unfold hasOverlay
    rw [hExtends.declaredBy_eq hType]
  unfold roles
  rw [hExtends.implementsFunction_eq hType,
    hExtends.nearestImplementation?_eq hType, hOverlay]

------------------------------------------------------------
-- Contracts
------------------------------------------------------------

section Contracts

variable {t : TypeNode}
variable (hType : p.HasType t)

include hType

theorem hasStaticCode_eq :
    q.hasStaticCode t = p.hasStaticCode t := by
  unfold hasStaticCode
  rw [hExtends.declaredBy_eq hType]

theorem text_eq_of_mem_declaredBy
    {m : MemberNode}
    (hMem : m ∈ p.declaredBy t) :
    Signature.text q m = Signature.text p m :=
  hExtends.text_eq
    (hExtends.sound.hasMember_of_mem_declaredBy hType
      hMem).1

theorem shape_eq :
    FunctionType.shape q t = FunctionType.shape p t := by
  unfold FunctionType.shape FunctionType.abstractMethods
  rw [hExtends.declaredBy_eq hType]

theorem notExtended_eq :
    FunctionType.notExtended q t =
      FunctionType.notExtended p t := by
  unfold FunctionType.notExtended
  rw [hExtends.interfacesOf_eq hType]

theorem inView_eq :
    NativeType.inView q t = NativeType.inView p t := by
  unfold NativeType.inView
  rw [hExtends.declaredBy_eq hType]
  apply List.map_congr_left
  intro m hm
  rw [hExtends.text_eq_of_mem_declaredBy hType
    (List.mem_of_mem_filter hm)]

theorem noConstructorCode_eq :
    NativeType.noConstructorCode q t =
      NativeType.noConstructorCode p t := by
  have hInitializes :
      NativeType.initializesFields q t =
        NativeType.initializesFields p t := by
    unfold NativeType.initializesFields
    rw [hExtends.declaredBy_eq hType]
  unfold NativeType.noConstructorCode
  rw [hExtends.declaredBy_eq hType, hInitializes]
  apply List.map_congr_left
  intro m hm
  rw [hExtends.text_eq_of_mem_declaredBy hType
    (List.mem_of_mem_filter hm)]

theorem notTested_eq :
    NativeType.notTested q t = NativeType.notTested p t := by
  have hTests :
      ∀ m ∈ p.declaredBy t,
        m.decl.instanceTests.filterMapM
            (NativeType.testFinding? q m) =
          m.decl.instanceTests.filterMapM
            (NativeType.testFinding? p m) := by
    intro m hm
    apply filterMapM_congr
    intro test hTest
    have hMember :=
      (hExtends.sound.hasMember_of_mem_declaredBy hType
        hm).1
    have hLt := (hExtends.sound.wellFormed.bodies m.decl
      (List.mem_of_getElem? hMember.1)).2 test hTest
    unfold NativeType.testFinding?
    rw [hExtends.type_eq hLt]
  unfold NativeType.notTested
  rw [hExtends.declaredBy_eq hType, mapM_congr hTests]

theorem additive_eq :
    Overlay.additive q t = Overlay.additive p t := by
  have hLt := hType.lt_length
  rcases hExtends.sound.lineage_succeeds hLt with
    ⟨lineage, hLineage⟩
  have hAbove := hExtends.flatMap_declaredBy_eq hLineage
    (List.tail_sublist lineage).subset
  unfold Overlay.additive
  simp only [hExtends.lineage_eq hLt, hLineage,
    hExtends.declaredBy_eq hType, bind, Except.bind, hAbove]
  apply congrArg Except.ok
  apply List.filterMap_congr
  intro m hm
  rw [hExtends.text_eq_of_mem_declaredBy hType
    (List.mem_of_mem_filter hm)]

/- Every contract makes the same reports on a type. -/
theorem contract_eq
    {c : Contract}
    (hContract : c ∈ contracts) :
    c.findings q t = c.findings p t := by
  unfold contracts at hContract
  simp only [List.mem_cons, List.not_mem_nil, or_false]
    at hContract
  rcases hContract with rfl | rfl | rfl | rfl | rfl | rfl |
    rfl | rfl | rfl | rfl | rfl | rfl | rfl | rfl | rfl
  · exact congrArg Except.ok (hExtends.shape_eq hType)
  · rfl
  · unfold FunctionType.noStaticCode
    dsimp only
    rw [hExtends.hasStaticCode_eq hType]
  · rfl
  · exact hExtends.notExtended_eq hType
  · rfl
  · rfl
  · rfl
  · unfold Implementation.notExtended
    dsimp only
    rw [hExtends.nearestImplementation?_eq hType]
  · rfl
  · exact congrArg Except.ok (hExtends.inView_eq hType)
  · unfold NativeType.noStaticCode
    dsimp only
    rw [hExtends.hasStaticCode_eq hType]
  · exact congrArg Except.ok
      (hExtends.noConstructorCode_eq hType)
  · exact hExtends.additive_eq hType
  · exact hExtends.notTested_eq hType

theorem typeFindings_eq :
    q.typeFindings t = p.typeFindings t := by
  unfold typeFindings
  rw [hExtends.roles_eq hType]
  congr 1
  funext roles
  dsimp only
  rw [mapM_congr (fun c hc => hExtends.contract_eq hType
    (List.mem_of_mem_filter hc))]

end Contracts

/- The reports on roles begin with those of before. -/
theorem contractFindings_prefix
    {first all : List Finding}
    (hFirst : p.contractFindings = .ok first)
    (hAll : q.contractFindings = .ok all) :
    first <+: all := by
  refine Listing.flatten_mapM_prefix
    hExtends.typeNodes_prefix hFirst hAll ?_
  intro t ht
  exact (hExtends.typeFindings_eq
    (mem_typeNodes_iff.mp ht)).symm

end Program.Extends

end JsExport
