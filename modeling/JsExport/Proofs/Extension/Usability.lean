import JsExport.Proofs.Check.Outcome
import JsExport.Proofs.Extension.View
import JsExport.Proofs.Rules.Usability

/-
  Advice on usability, in a program that holds another.

  The advice on a member only looks at the types in its
  signature, which the smaller program knows; and a member
  that an earlier type exposes is not exposed first by a
  later one.

  Main declarations:
    * `ExportView.Extends.memberAdvice_eq`
    * `ExportView.Extends.onlyExposedSlots_prefix`
    * `ExportView.Extends.usability_sublist`
-/

namespace JsExport

open Lookup

namespace ExportView.Extends

variable {v w : ExportView}
variable (hViews : w.Extends v)

include hViews

------------------------------------------------------------
-- Advice On One Member
------------------------------------------------------------

section Members

variable {m : MemberNode}
variable (hMember : v.program.HasMember m)

include hMember

/- The types in a signature are judged alike. -/
theorem isUsable_eq
    {e : TypeExpr}
    (hMention : e ∈ m.decl.signatureTypes) :
    w.program.isUsable e = v.program.isUsable e :=
  hViews.program.isUsable_eq e
    (hViews.program.declared_lt hMember e hMention)

theorem fieldAdvice_eq
    {f : FieldDecl}
    (hMention : f.type ∈ m.decl.signatureTypes) :
    w.fieldAdvice m f = v.fieldAdvice m f := by
  unfold fieldAdvice
  rw [hViews.isUsable_eq hMember hMention]

theorem resultAdvice_eq
    (exposedBy : Option TypeNode)
    {c : Callable}
    (hMention : c.result ∈ m.decl.signatureTypes) :
    w.resultAdvice m exposedBy c =
      v.resultAdvice m exposedBy c := by
  unfold resultAdvice
  rw [hViews.isUsable_eq hMember hMention,
    hViews.program.quoted_eq hMember]

theorem paramAdvice_eq
    (key : String)
    (exposedBy : Option TypeNode)
    {param : Param}
    (hMention : param.type ∈ m.decl.signatureTypes) :
    w.paramAdvice key m exposedBy param =
      v.paramAdvice key m exposedBy param := by
  unfold paramAdvice
  rw [hViews.isUsable_eq hMember hMention,
    hViews.program.quoted_eq hMember]

/- The advice on a member is the same in both views. -/
theorem memberAdvice_eq
    (key : String)
    (exposedBy : Option TypeNode) :
    w.memberAdvice key m exposedBy =
      v.memberAdvice key m exposedBy := by
  unfold memberAdvice
  cases hShape : m.decl.shape with
  | field f =>
      dsimp only
      rw [hViews.fieldAdvice_eq hMember
        (MemberDecl.type_mem_signatureTypes hShape)]
  | callable c =>
      have hParams :=
        MemberDecl.paramTypes_subset_signatureTypes hShape
      dsimp only
      rw [hViews.resultAdvice_eq hMember exposedBy
        (MemberDecl.result_mem_signatureTypes hShape)]
      rw [mapM_congr (fun param hIn =>
        hViews.paramAdvice_eq hMember key exposedBy
          (hParams (List.mem_map_of_mem hIn)))]

end Members

------------------------------------------------------------
-- Members That Are Exposed
------------------------------------------------------------

theorem exports_eq
    {m : MemberNode}
    (hMember : v.program.HasMember m) :
    w.table.exports m.id = v.table.exports m.id := by
  unfold ExportTable.exports
  rw [hViews.identity?_eq hMember]

/- Slots that are exposed first keep being exposed first. -/
theorem onlyExposedSlots_prefix :
    v.onlyExposedSlots <+: w.onlyExposedSlots := by
  have hSlots :
      v.surfaces.flatMap (fun s => s.slots) <+:
        w.surfaces.flatMap (fun s => s.slots) :=
    Listing.flatMap_prefix hViews.surfaces_prefix
      (fun _ _ => rfl)
  unfold onlyExposedSlots
  refine Listing.firstBy_prefix
    (Listing.filter_prefix hSlots ?_) _
  intro slot hSlot
  rcases List.mem_flatMap.mp hSlot with ⟨s, hs, hMem⟩
  unfold isOnlyExposed
  rw [hViews.exports_eq (hViews.hasMember_slot hs hMem).1]

------------------------------------------------------------
-- All Advice
------------------------------------------------------------

/- The advice is among the advice of the larger view. -/
theorem usability_sublist
    (advice : Advice)
    {usability all : List Finding}
    (hUsability : v.usability advice = .ok usability)
    (hAll : w.usability advice = .ok all) :
    usability.Sublist all := by
  by_cases hOn : advice.isOn = true
  · rcases (usability_eq_ok_iff hOn).mp hUsability with
      ⟨own, exposed, hOwn, hExposed, rfl⟩
    rcases (usability_eq_ok_iff hOn).mp hAll with
      ⟨own', exposed', hOwn', hExposed', rfl⟩
    have hOwnAll : own <+: own' := by
      refine Listing.mapM_prefix
        (Listing.filter_prefix hViews.members_prefix ?_)
        hOwn hOwn' ?_
      · intro m hm
        exact (hViews.exports_eq
          (hViews.hasMember_of_mem_members hm)).symm
      · intro m hm
        exact (hViews.memberAdvice_eq
          (hViews.hasMember_of_mem_members
            (List.mem_of_mem_filter hm)) _ none).symm
    have hExposedAll : exposed <+: exposed' := by
      refine Listing.mapM_prefix
        hViews.onlyExposedSlots_prefix hExposed
        hExposed' ?_
      intro slot hSlot
      exact (hViews.memberAdvice_eq
        (hViews.shows.hasMember_of_mem_onlyExposedSlots
          hViews.program.sound hSlot)
        _ _).symm
    have hOwnFlat := Listing.flatten_prefix hOwnAll
    have hExposedFlat := Listing.flatten_prefix hExposedAll
    exact hOwnFlat.sublist.append hExposedFlat.sublist
  · unfold ExportView.usability at hUsability
    rw [if_neg hOn] at hUsability
    cases hUsability
    exact List.nil_sublist all

end ExportView.Extends

end JsExport
