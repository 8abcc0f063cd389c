import JsExport.Proofs.Check.Outcome
import JsExport.Proofs.Rearrangement.View
import JsExport.Rules.Usability

/-
  Advice on usability, of members in another order.

  A member that only other types expose is looked at where
  it is first exposed.  The types keep their order and each
  has one slot for the member, so that is where it was.

  Main declarations:
    * `ExportView.Rearranges.memberAdvice_eq_ok`
    * `ExportView.Rearranges.onlyExposedSlots_perm`
    * `ExportView.Rearranges.usability_perm`
-/

namespace JsExport

open Lookup

/- Advice that hangs on a lookup is given as before. -/
theorem Rearrangement.bind_ite_eq_ok
    (r : Rearrangement)
    {lookup : Except LookupError Bool}
    {quiet : Bool → Bool}
    {finding finding' : Finding}
    (hFinding : finding' = r.finding finding)
    {found : List Finding}
    (hFound :
      (lookup >>= fun b =>
        if quiet b then
          (pure [] : Except LookupError (List Finding))
        else pure [finding]) = .ok found) :
    (lookup >>= fun b =>
      if quiet b then
        (pure [] : Except LookupError (List Finding))
      else pure [finding']) = .ok (found.map r.finding) := by
  rcases eq_ite_of_bind_eq_ok quiet hFound with
    ⟨b, hb, rfl⟩
  apply bind_eq_ok_iff.mpr
  refine ⟨b, hb, ?_⟩
  rw [hFinding]
  split
  · rfl
  · rfl

namespace ExportView.Rearranges

variable {v w : ExportView}
variable {r : Rearrangement}
variable (hViews : w.Rearranges r v)

include hViews

------------------------------------------------------------
-- Advice On One Member
------------------------------------------------------------

section Advice

variable {key : String}
variable {m : MemberNode}
variable {exposedBy : Option TypeNode}
variable {found : List Finding}

theorem resultAdvice_eq_ok
    {c : Callable}
    (hFound : v.resultAdvice m exposedBy c = .ok found) :
    w.resultAdvice (r.member m) (exposedBy.map r.type)
        (c.renumber r.number) =
      .ok (found.map r.finding) := by
  unfold resultAdvice
  rw [hViews.program.quoted_eq, hViews.program.isUsable_eq]
  exact r.bind_ite_eq_ok rfl hFound

theorem paramAdvice_eq_ok
    {param : Param}
    (hFound :
      v.paramAdvice key m exposedBy param = .ok found) :
    w.paramAdvice key (r.member m) (exposedBy.map r.type)
        param = .ok (found.map r.finding) := by
  unfold paramAdvice
  rw [hViews.program.quoted_eq, hViews.program.isUsable_eq]
  exact r.bind_ite_eq_ok rfl hFound

theorem fieldAdvice_eq_ok
    {f : FieldDecl}
    (hFound : v.fieldAdvice m f = .ok found) :
    w.fieldAdvice (r.member m) f =
      .ok (found.map r.finding) := by
  unfold fieldAdvice
  rw [hViews.program.isUsable_eq]
  exact r.bind_ite_eq_ok rfl hFound

/- The same advice is given on a member. -/
theorem memberAdvice_eq_ok
    (hFound : v.memberAdvice key m exposedBy = .ok found) :
    w.memberAdvice key (r.member m) (exposedBy.map r.type) =
      .ok (found.map r.finding) := by
  have hSilenced :
      isSilenced key (r.member m) = isSilenced key m :=
    rfl
  have hShape :
      (r.member m).decl.shape =
        m.decl.shape.renumber r.number :=
    rfl
  unfold memberAdvice at hFound ⊢
  rw [hSilenced, hShape]
  by_cases hSilent : isSilenced key m
  · rw [if_pos hSilent] at hFound ⊢
    cases hFound
    rfl
  · rw [if_neg hSilent] at hFound ⊢
    cases hOwn : m.decl.shape with
    | field f =>
        rw [hOwn] at hFound
        exact hViews.fieldAdvice_eq_ok hFound
    | callable c =>
        rw [hOwn] at hFound
        rcases bind_eq_ok_iff.mp hFound with
          ⟨result, hResult, hRest⟩
        rcases bind_eq_ok_iff.mp hRest with
          ⟨params, hParams, hEq⟩
        cases hEq
        have hMoved :=
          mapM_eq_ok_map_of_mapM_eq_ok
            (fun _ _ _ hOne =>
              hViews.paramAdvice_eq_ok hOne) hParams
        apply bind_eq_ok_iff.mpr
        refine ⟨result.map r.finding,
          hViews.resultAdvice_eq_ok hResult, ?_⟩
        apply bind_eq_ok_iff.mpr
        refine ⟨params.map (List.map r.finding), hMoved, ?_⟩
        rw [List.map_append, List.map_flatten]
        rfl

end Advice

------------------------------------------------------------
-- Slots Exposed By Their Types
------------------------------------------------------------

theorem isOnlyExposed_eq
    (slot : Slot) :
    w.isOnlyExposed (r.slot slot) = v.isOnlyExposed slot := by
  have hExposed :
      (r.slot slot).exposedBy.isSome =
        slot.exposedBy.isSome :=
    Option.isSome_map
  have hExports :
      w.table.exports (r.slot slot).member.id =
        v.table.exports slot.member.id :=
    hViews.exports_eq slot.member.id
  unfold isOnlyExposed
  rw [hExposed, hExports]
  rfl

/- The same slots are exposed first by the same types. -/
theorem onlyExposedSlots_perm :
    w.onlyExposedSlots.Perm
      (v.onlyExposedSlots.map r.slot) := by
  have hBlocks :
      List.Forall₂
        (fun block' block => block'.Perm (block.map r.slot))
        (w.surfaces.map (fun s =>
          s.slots.filter w.isOnlyExposed))
        (v.surfaces.map (fun s =>
          s.slots.filter v.isOnlyExposed)) := by
    rw [List.forall₂_map_left_iff,
      List.forall₂_map_right_iff]
    refine hViews.surfaces_moved.imp ?_
    intro s' s hMoved
    exact Listing.filter_perm_map hMoved.1.slots_perm
      (fun slot _ => hViews.isOnlyExposed_eq slot)
  unfold onlyExposedSlots
  rw [List.filter_flatMap, List.filter_flatMap,
    List.flatMap_def, List.flatMap_def]
  apply Listing.firstBy_flatten_perm_map _ hBlocks
  · intro a _ b _
    exact r.number_eq_iff
  · intro block hBlock a ha b hb hId
    rcases List.mem_map.mp hBlock with ⟨s, hs, rfl⟩
    exact hViews.shows.slot_eq_of_member_id_eq
      hViews.program.sound hs (List.mem_of_mem_filter ha)
      (List.mem_of_mem_filter hb) hId

------------------------------------------------------------
-- Advice On Programs
------------------------------------------------------------

theorem exported_perm :
    (w.members.filter (fun m => w.table.exports m.id)).Perm
      ((v.members.filter (fun m =>
        v.table.exports m.id)).map r.member) :=
  Listing.filter_perm_map hViews.members_perm
    (fun m _ => hViews.exports_eq m.id)

/- The same advice is given, but for its order. -/
theorem usability_perm
    {advice : Advice}
    {found found' : List Finding}
    (hFound : v.usability advice = .ok found)
    (hFound' : w.usability advice = .ok found') :
    found'.Perm (found.map r.finding) := by
  by_cases hOn : advice.isOn = true
  · rcases (usability_eq_ok_iff hOn).mp hFound with
      ⟨own, exposed, hOwn, hExposed, rfl⟩
    rcases (usability_eq_ok_iff hOn).mp hFound' with
      ⟨own', exposed', hOwn', hExposed', rfl⟩
    rw [List.map_append]
    apply List.Perm.append
    · refine flatten_mapM_perm hViews.exported_perm ?_ hOwn
        hOwn'
      intro m _ here here' hHere hHere'
      have hMoved := hViews.memberAdvice_eq_ok hHere
      exact List.Perm.of_eq
        (Except.ok.inj (hHere'.symm.trans hMoved))
    · refine flatten_mapM_perm hViews.onlyExposedSlots_perm
        ?_ hExposed hExposed'
      intro slot _ here here' hHere hHere'
      have hMoved := hViews.memberAdvice_eq_ok hHere
      exact List.Perm.of_eq
        (Except.ok.inj (hHere'.symm.trans hMoved))
  · unfold usability at hFound hFound'
    rw [if_neg hOn] at hFound hFound'
    cases hFound
    cases hFound'
    exact List.Perm.refl []

end ExportView.Rearranges

end JsExport
