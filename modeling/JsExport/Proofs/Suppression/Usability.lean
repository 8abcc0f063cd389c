import JsExport.Proofs.Check.Outcome
import JsExport.Proofs.Rules.Usability
import JsExport.Proofs.Suppression.View

/-
  Advice on usability where more of it is silenced.

  Two programs that differ in suppressions only expose the
  same members in the same order.  Advice on a member speaks
  of nothing but its signature, so where a member, its owner
  or a parameter silences more, the advice is the same or
  missing.

  Main declarations:
    * `MemberNode.SilencesMore`
    * `ExportView.memberAdvice_sublist`
    * `ExportView.onlyExposedSlots_unsilenced`
    * `ExportView.usability_sublist_of_silencesMore`
-/

namespace JsExport

open Lookup

------------------------------------------------------------
-- Members That Silence More
------------------------------------------------------------

/-
  That a member is that of another program and that it, its
  owner and its parameters silence at least what they silence
  there.
-/
structure MemberNode.SilencesMore
    (n m : MemberNode) : Prop where
  same : n.unsilenced = m.unsilenced
  own : m.decl.suppressions ⊆ n.decl.suppressions
  owner :
    m.owner.decl.suppressions ⊆ n.owner.decl.suppressions
  params :
    ∀ (i : Nat) (a b : Param),
      m.decl.params[i]? = some a →
        n.decl.params[i]? = some b →
          a.suppressions ⊆ b.suppressions

/-
  That a parameter is that of another program and silences at
  least what it silences there.
-/
structure Param.SilencesMore
    (b a : Param) : Prop where
  same : b.unsilenced = a.unsilenced
  own : a.suppressions ⊆ b.suppressions

namespace MemberNode.SilencesMore

variable {m n : MemberNode}
variable (hMore : n.SilencesMore m)

include hMore

/- Where advice was silenced, it still is. -/
theorem isSilenced
    {key : String}
    (hSilenced : ExportView.isSilenced key m) :
    ExportView.isSilenced key n := by
  rw [ExportView.isSilenced_iff] at hSilenced ⊢
  exact hSilenced.imp (fun hKey => hMore.own hKey)
    (fun hKey => hMore.owner hKey)

/- Parameters silence at least what they silenced. -/
theorem params_silenceMore :
    List.Forall₂ (fun a b : Param => b.SilencesMore a)
      m.decl.params n.decl.params := by
  have hSame :
      n.decl.params.map Param.unsilenced =
        m.decl.params.map .unsilenced := by
    rw [← MemberDecl.params_unsilenced,
      ← MemberDecl.params_unsilenced, ← n.decl_unsilenced,
      hMore.same]
    rfl
  exact Listing.forall₂_of_map_eq hSame
    (fun i a b ha hb hParam =>
      ⟨hParam, hMore.params i a b ha hb⟩)

theorem shape_unsilenced_eq :
    n.decl.shape.unsilenced = m.decl.shape.unsilenced := by
  change n.unsilenced.decl.shape = m.unsilenced.decl.shape
  rw [hMore.same]

/- A field goes with the same field. -/
theorem shape_eq_field
    {f : FieldDecl}
    (hShape : m.decl.shape = .field f) :
    n.decl.shape = .field f := by
  have hShapes := hMore.shape_unsilenced_eq
  rw [hShape] at hShapes
  cases hOther : n.decl.shape with
  | callable d =>
      rw [hOther] at hShapes
      cases hShapes
  | field g =>
      rw [hOther] at hShapes
      exact hShapes

/- A method goes with a method of the same parameters. -/
theorem exists_callable
    {c : Callable}
    (hShape : m.decl.shape = .callable c) :
    ∃ d, n.decl.shape = .callable d ∧
      d.unsilenced = c.unsilenced ∧
      List.Forall₂ (fun a b : Param => b.SilencesMore a)
        c.params d.params := by
  have hShapes := hMore.shape_unsilenced_eq
  have hParams := hMore.params_silenceMore
  unfold MemberDecl.params MemberDecl.callable? at hParams
  rw [hShape] at hShapes hParams
  cases hOther : n.decl.shape with
  | field f =>
      rw [hOther] at hShapes
      cases hShapes
  | callable d =>
      rw [hOther] at hShapes hParams
      exact ⟨d, rfl, MemberShape.callable.inj hShapes,
        hParams⟩

end MemberNode.SilencesMore

namespace ExportView

------------------------------------------------------------
-- Advice That Is Not Silenced
------------------------------------------------------------

section Unsilenced

variable (v : ExportView)
variable (m : MemberNode)
variable (exposedBy : Option TypeNode)

theorem fieldAdvice_unsilenced
    (f : FieldDecl) :
    v.unsilenced.fieldAdvice m.unsilenced f =
      v.fieldAdvice m f := by
  unfold fieldAdvice
  change (v.program.unsilenced.isUsable f.type >>= _) = _
  rw [Program.isUsable_unsilenced]
  rfl

theorem resultAdvice_unsilenced
    (c : Callable) :
    v.unsilenced.resultAdvice m.unsilenced
        (exposedBy.map .unsilenced) c.unsilenced =
      v.resultAdvice m exposedBy c := by
  have hProgram :
      v.unsilenced.program = v.program.unsilenced := rfl
  unfold resultAdvice
  rw [hProgram, Program.isUsable_unsilenced,
    Signature.quoted_unsilenced]
  rfl

/- A parameter that silences nothing of the advice. -/
theorem paramAdvice_unsilenced
    {key : String}
    {param : Param}
    (hLoud : key ∉ param.suppressions) :
    v.unsilenced.paramAdvice key m.unsilenced
        (exposedBy.map .unsilenced) param.unsilenced =
      v.paramAdvice key m exposedBy param := by
  have hProgram :
      v.unsilenced.program = v.program.unsilenced := rfl
  have hKey :
      param.suppressions.contains key = false := by
    simpa using hLoud
  unfold paramAdvice
  rw [hProgram, Program.isUsable_unsilenced,
    Signature.quoted_unsilenced, hKey]
  rfl

theorem eq_nil_of_paramAdvice_eq_ok
    {key : String}
    {param : Param}
    (hSilenced : key ∈ param.suppressions)
    {findings : List Finding}
    (hAdvice :
      v.paramAdvice key m exposedBy param = .ok findings) :
    findings = [] := by
  rcases bind_eq_ok_iff.mp hAdvice with ⟨usable, _, hRest⟩
  rw [List.contains_iff_mem.mpr hSilenced] at hRest
  exact (Except.ok.inj hRest).symm

end Unsilenced

------------------------------------------------------------
-- Advice On One Member
------------------------------------------------------------

section Members

variable {v w : ExportView}
variable (hViews : w.unsilenced = v.unsilenced)
variable {m n : MemberNode}
variable {exposedBy exposedBy' : Option TypeNode}
variable
  (hExposed :
    exposedBy'.map TypeNode.unsilenced =
      exposedBy.map .unsilenced)

include hViews hExposed

/- Advice on a parameter is the same or missing. -/
theorem paramAdvice_sublist
    (hSame : n.unsilenced = m.unsilenced)
    {key : String}
    {a b : Param}
    (hMore : b.SilencesMore a)
    {old new : List Finding}
    (hOld : v.paramAdvice key m exposedBy a = .ok old)
    (hNew : w.paramAdvice key n exposedBy' b = .ok new) :
    new.Sublist old := by
  by_cases hSilenced : key ∈ b.suppressions
  · rw [eq_nil_of_paramAdvice_eq_ok w n exposedBy' hSilenced
      hNew]
    exact List.nil_sublist old
  · have hLoud : key ∉ a.suppressions :=
      fun hKey => hSilenced (hMore.own hKey)
    rw [← paramAdvice_unsilenced w n exposedBy' hSilenced,
      hViews, hSame, hExposed, hMore.same,
      paramAdvice_unsilenced v m exposedBy hLoud, hOld]
      at hNew
    cases hNew
    exact List.Sublist.refl _

/- Advice on a member is part of what it was. -/
theorem memberAdvice_sublist
    (hMore : n.SilencesMore m)
    {key : String}
    {old new : List Finding}
    (hOld : v.memberAdvice key m exposedBy = .ok old)
    (hNew : w.memberAdvice key n exposedBy' = .ok new) :
    new.Sublist old := by
  unfold memberAdvice at hOld hNew
  by_cases hSilenced : isSilenced key n
  · rw [if_pos hSilenced] at hNew
    cases hNew
    exact List.nil_sublist old
  · have hLoud : ¬ isSilenced key m := fun hBefore =>
      hSilenced (hMore.isSilenced hBefore)
    rw [if_neg hSilenced] at hNew
    rw [if_neg hLoud] at hOld
    cases hShape : m.decl.shape with
    | field f =>
        rw [hShape] at hOld
        rw [hMore.shape_eq_field hShape] at hNew
        dsimp only at hOld hNew
        rw [← fieldAdvice_unsilenced, hViews, hMore.same,
          fieldAdvice_unsilenced, hOld] at hNew
        cases hNew
        exact List.Sublist.refl _
    | callable c =>
        rcases hMore.exists_callable hShape with
          ⟨d, hShape', hCallable, hParams⟩
        rw [hShape] at hOld
        rw [hShape'] at hNew
        rcases bind_eq_ok_iff.mp hOld with
          ⟨result, hResult, hRest⟩
        rcases bind_eq_ok_iff.mp hRest with
          ⟨params, hOlds, hEq⟩
        rcases bind_eq_ok_iff.mp hNew with
          ⟨result', hResult', hRest'⟩
        rcases bind_eq_ok_iff.mp hRest' with
          ⟨params', hNews, hEq'⟩
        cases hEq
        cases hEq'
        rw [← resultAdvice_unsilenced, hViews, hMore.same,
          hExposed, hCallable, resultAdvice_unsilenced,
          hResult] at hResult'
        cases hResult'
        refine (List.Sublist.refl _).append ?_
        exact flatten_mapM_sublist hParams
          (fun a b hPair _ _ hOne hTwo =>
            paramAdvice_sublist hViews hExposed hMore.same
              hPair hOne hTwo) hOlds hNews

end Members

------------------------------------------------------------
-- Members That Are Exposed
------------------------------------------------------------

theorem onlyExposedSlots_unsilenced
    (v : ExportView) :
    v.unsilenced.onlyExposedSlots =
      v.onlyExposedSlots.map .unsilenced := by
  have hOnly (slot : Slot) :
      v.unsilenced.isOnlyExposed slot.unsilenced =
        v.isOnlyExposed slot := by
    unfold isOnlyExposed Slot.unsilenced
    rw [Option.isSome_map]
    rfl
  have hSlots :
      v.unsilenced.surfaces.flatMap (fun s => s.slots) =
        (v.surfaces.flatMap (fun s => s.slots)).map
          .unsilenced := by
    change (v.surfaces.map Surface.unsilenced).flatMap _ = _
    rw [List.flatMap_map, List.map_flatMap]
    rfl
  unfold onlyExposedSlots
  rw [hSlots, Listing.filter_map_eq hOnly]
  exact Listing.firstBy_map_of_key_eq (fun _ => rfl) _

------------------------------------------------------------
-- All Advice
------------------------------------------------------------

section Advice

variable {v w : ExportView}
variable (hViews : w.unsilenced = v.unsilenced)

include hViews

/- The members that are exported are the same. -/
theorem map_unsilenced_exported :
    (w.members.filter (fun m =>
        w.table.exports m.id)).map MemberNode.unsilenced =
      (v.members.filter (fun m =>
        v.table.exports m.id)).map .unsilenced := by
  have hExported (u : ExportView) :
      u.unsilenced.members.filter (fun m =>
          u.unsilenced.table.exports m.id) =
        (u.members.filter (fun m =>
          u.table.exports m.id)).map .unsilenced :=
    Listing.filter_map_eq (fun _ => rfl) _
  rw [← hExported w, hViews, hExported v]

theorem map_unsilenced_onlyExposedSlots :
    w.onlyExposedSlots.map Slot.unsilenced =
      v.onlyExposedSlots.map .unsilenced := by
  rw [← onlyExposedSlots_unsilenced, hViews,
    onlyExposedSlots_unsilenced]

variable {p q : Program}
variable (hShows : v.Shows p)
variable (hShows' : w.Shows q)
variable
  (hMembers :
    ∀ m n, p.HasMember m → q.HasMember n →
      n.unsilenced = m.unsilenced → n.SilencesMore m)

include hShows hShows' hMembers

/- Exported members go with members that silence more. -/
theorem exported_silenceMore :
    List.Forall₂ (fun m n : MemberNode => n.SilencesMore m)
      (v.members.filter (fun m => v.table.exports m.id))
      (w.members.filter (fun m => w.table.exports m.id)) := by
  apply Listing.forall₂_of_map_eq
    (map_unsilenced_exported hViews)
  intro i m n hm hn hSame
  have hHas := hShows.mem_members_iff.mp
    (List.mem_of_mem_filter (List.mem_of_getElem? hm))
  have hHas' := hShows'.mem_members_iff.mp
    (List.mem_of_mem_filter (List.mem_of_getElem? hn))
  exact hMembers m n hHas hHas' hSame

variable (hSound : p.Sound)
variable (hSound' : q.Sound)

include hSound hSound'

/- Slots that types expose are exposed by the same types. -/
theorem onlyExposedSlots_silenceMore :
    List.Forall₂
      (fun a b : Slot => b.member.SilencesMore a.member ∧
        b.exposedBy.map TypeNode.unsilenced =
          a.exposedBy.map .unsilenced)
      v.onlyExposedSlots w.onlyExposedSlots := by
  apply Listing.forall₂_of_map_eq
    (map_unsilenced_onlyExposedSlots hViews)
  intro i a b ha hb hSame
  rcases Slot.mk.inj hSame with ⟨hMember, _, hExposed, _⟩
  have hHas := hShows.hasMember_of_mem_onlyExposedSlots
    hSound (List.mem_of_getElem? ha)
  have hHas' := hShows'.hasMember_of_mem_onlyExposedSlots
    hSound' (List.mem_of_getElem? hb)
  exact ⟨hMembers a.member b.member hHas hHas' hMember,
    hExposed⟩

/-
  Where members silence more, the advice on a program is part
  of what it was, in the same order.
-/
theorem usability_sublist_of_silencesMore
    {advice advice' : Advice}
    (hOn : advice.isOn)
    (hKey : advice'.key = advice.key)
    {old new : List Finding}
    (hOld : v.usability advice = .ok old)
    (hNew : w.usability advice' = .ok new) :
    new.Sublist old := by
  by_cases hOn' : advice'.isOn = true
  · rcases (usability_eq_ok_iff hOn).mp hOld with
      ⟨own, exposed, hOwn, hExposed, rfl⟩
    rcases (usability_eq_ok_iff hOn').mp hNew with
      ⟨own', exposed', hOwn', hExposed', rfl⟩
    rw [hKey] at hOwn' hExposed'
    apply List.Sublist.append
    · exact flatten_mapM_sublist
        (exported_silenceMore hViews hShows hShows' hMembers)
        (fun m n hMore _ _ hOne hTwo =>
          memberAdvice_sublist hViews rfl hMore hOne hTwo)
        hOwn hOwn'
    · exact flatten_mapM_sublist
        (onlyExposedSlots_silenceMore hViews hShows hShows'
          hMembers hSound hSound')
        (fun a b hMore _ _ hOne hTwo =>
          memberAdvice_sublist hViews hMore.2 hMore.1
            hOne hTwo) hExposed hExposed'
  · unfold usability at hNew
    rw [if_neg hOn'] at hNew
    cases hNew
    exact List.nil_sublist old

end Advice

end ExportView

------------------------------------------------------------
-- Members Of Drafts
------------------------------------------------------------

/-
  Where a draft silences more than another one, so do all
  members of its program.
-/
theorem Draft.SilencesMore.member
    {draft other : Draft}
    (hMore : other.SilencesMore draft)
    {p q : Program}
    (hBuild : draft.build = .ok p)
    (hOther : other.build = .ok q)
    {m n : MemberNode}
    (hm : p.HasMember m)
    (hn : q.HasMember n)
    (hSame : n.unsilenced = m.unsilenced) :
    n.SilencesMore m := by
  rcases (Draft.build_eq_ok_iff.mp hBuild).2.2 with
    ⟨hTypes, hMembers⟩
  rcases (Draft.build_eq_ok_iff.mp hOther).2.2 with
    ⟨hTypes', hMembers'⟩
  rcases MemberNode.mk.inj hSame with ⟨hId, _, hOwners⟩
  have hOwner : n.owner.id = m.owner.id :=
    (TypeNode.mk.inj hOwners).1
  rcases hm with ⟨hDecl, _, hType⟩
  rcases hn with ⟨hDecl', _, hType'⟩
  unfold Program.HasType at hType hType'
  rw [hTypes] at hType
  rw [hTypes', hOwner] at hType'
  rw [hMembers] at hDecl
  rw [hMembers', hId] at hDecl'
  exact ⟨hSame, hMore.members m.id _ _ hDecl hDecl',
    hMore.types m.owner.id _ _ hType hType',
    hMore.params m.id _ _ hDecl hDecl'⟩

end JsExport
