import JsExport.Proofs.Export.Inherited
import JsExport.Proofs.Export.Surface
import JsExport.Proofs.Rearrangement.Program

/-
  Views of programs in another order.

  What a member overrides is found type by type, and a type
  has at most one method of a signature.  So the members
  keep their identities, each method keeps its declarations
  in their order, and the slots of a type are permuted.

  Main declarations:
    * `Surface.Rearranges`
    * `ExportView.Rearranges`
    * `ExportView.Rearranges.identity?_eq`
    * `ExportView.Rearranges.surfaces_moved`
    * `ExportView.Rearranges.clashTexts_eq`
-/

namespace JsExport

open Lookup

------------------------------------------------------------
-- Slots And Surfaces
------------------------------------------------------------

/- The slot of the same members under their new numbers. -/
def Rearrangement.slot
    (r : Rearrangement)
    (s : Slot) : Slot :=
  ⟨r.member s.member, s.identity, s.exposedBy.map r.type,
    s.overridden.map r.member⟩

/- That a surface has the slots of another one. -/
structure Surface.Rearranges
    (s' : Surface)
    (r : Rearrangement)
    (s : Surface) : Prop where
  type_eq : s'.type = r.type s.type
  slots_perm : s'.slots.Perm (s.slots.map r.slot)

------------------------------------------------------------
-- Tables
------------------------------------------------------------

theorem Rearrangement.isOverriddenBy_member
    (r : Rearrangement)
    (m n : MemberNode) :
    ExportTable.isOverriddenBy (r.member m).decl
        (r.member n) =
      ExportTable.isOverriddenBy m.decl n := by
  unfold ExportTable.isOverriddenBy
  rw [r.decl_member, r.decl_member,
    MemberDecl.isOverridable_renumber,
    MemberDecl.sharesSignature_renumber]

namespace Program.Rearranges

variable {p q : Program}
variable {r : Rearrangement}
variable (hMoves : q.Rearranges r p)
variable (hApart : p.KeepsApart)
variable {table table' : ExportTable}

include hMoves hApart

/- What a member overrides is found in the same order. -/
theorem filter_isOverriddenBy_eq
    {types : List TypeNode}
    (hTypes : ∀ t ∈ types, p.HasType t)
    (m : MemberNode) :
    ((types.map r.type).flatMap q.declaredBy).filter
        (ExportTable.isOverriddenBy (r.member m).decl) =
      ((types.flatMap p.declaredBy).filter
        (ExportTable.isOverriddenBy m.decl)).map
          r.member := by
  apply hMoves.filter_declaredBy_eq hApart hTypes
  · exact r.isOverriddenBy_member m
  · intro n hOver
    exact MemberDecl.isInstanceMethod_of_isOverridable
      (Bool.and_eq_true_iff.mp hOver).1
  · intro n k hn hk
    have hnShares := (Bool.and_eq_true_iff.mp hn).2
    have hkShares := (Bool.and_eq_true_iff.mp hk).2
    rcases MemberDecl.sharesSignature_iff.mp hnShares with
      ⟨key, hnKey, hmKey⟩
    rcases MemberDecl.sharesSignature_iff.mp hkShares with
      ⟨_, hkKey, hmKey'⟩
    rw [hnKey, hkKey, ← hmKey, ← hmKey']

/- A member is resolved as before by tables that agree. -/
theorem resolve?_eq
    {types : List TypeNode}
    (hTypes : ∀ t ∈ types, p.HasType t)
    (hAgree :
      ∀ a ∈ types.flatMap p.declaredBy,
        table'.identity? (r.number a.id) =
          table.identity? a.id)
    (m : MemberNode) :
    table'.resolve?
        ((types.map r.type).flatMap q.declaredBy)
        (r.member m) =
      table.resolve? (types.flatMap p.declaredBy) m := by
  have hInherited :
      table'.inherited?
          ((types.map r.type).flatMap q.declaredBy)
          (r.member m).decl =
        table.inherited? (types.flatMap p.declaredBy)
          m.decl := by
    have hFound :
        (((types.map r.type).flatMap q.declaredBy).filter
          (ExportTable.isOverriddenBy
            (r.member m).decl)).findSome?
              (fun n => table'.identity? n.id) =
          ((types.flatMap p.declaredBy).filter
            (ExportTable.isOverriddenBy m.decl)).findSome?
              (fun n => table.identity? n.id) := by
      rw [hMoves.filter_isOverriddenBy_eq hApart hTypes m,
        List.findSome?_map]
      apply Listing.findSome?_congr
      intro n hn
      exact hAgree n (List.mem_of_mem_filter hn)
    exact congrArg
      (fun found : Option JsIdentity =>
        found.bind (fun identity =>
          identity.passedTo? m.decl)) hFound
  unfold ExportTable.resolve?
  rw [hInherited, r.decl_member,
    MemberDecl.isDirectlyExported_renumber,
    MemberDecl.mayInheritExport_renumber,
    MemberDecl.natural_renumber]
  rfl

/- The members keep their identities. -/
theorem identity?_eq_of_hasMember
    (hTable : table.Resolves p)
    (hTable' : table'.Resolves q)
    {m : MemberNode}
    (hMember : p.HasMember m) :
    table'.identity? (r.number m.id) =
      table.identity? m.id := by
  have hType :
      ∀ t, t < p.types.length →
        ∀ n, p.HasMember n → n.owner.id = t →
          table'.identity? (r.number n.id) =
            table.identity? n.id := by
    refine hMoves.sound.fits.induction_above ?_
    intro t hLt hAbove n hn hOwner
    subst hOwner
    rcases hMoves.sound.lineage_succeeds hLt with
      ⟨lineage, hLineage⟩
    have hLineage' := hMoves.lineage_eq_ok hLineage
    have hSettles := hTable n hn lineage hLineage
    have hSettles' := hTable' (r.member n)
      (hMoves.hasMember hn) _ hLineage'
    rw [r.id_member, ← List.map_tail] at hSettles'
    rw [hSettles, hSettles']
    apply hMoves.resolve?_eq hApart
    · intro s hs
      exact ((mem_of_lineage_eq_ok hLineage).mp
        (List.mem_of_mem_tail hs)).2
    · intro a ha
      rcases hMoves.sound.inherits_of_mem_tail hLineage ha
        with ⟨hMem, hInherits⟩
      exact hAbove a.owner.id hInherits a hMem rfl
  exact hType m.owner.id hMember.2.2.lt_length m hMember rfl

theorem identity?_eq
    (hTable : p.exportTable = .ok table)
    (hTable' : q.exportTable = .ok table')
    (m : MemberId) :
    table'.identity? (r.number m) = table.identity? m := by
  rcases hMoves.sound.resolves_tableInOrder
    hMoves.sound.fits.orders hTable with
    ⟨hLength, hResolves⟩
  rcases hMoves.sound_other.resolves_tableInOrder
    hMoves.sound_other.fits.orders hTable' with
    ⟨hLength', hResolves'⟩
  by_cases hLt : m < p.members.length
  · rcases hMoves.sound.member_succeeds hLt with
      ⟨node, hNode⟩
    rcases member_eq_ok_iff_hasMember.mp hNode with
      ⟨rfl, hMember⟩
    exact hMoves.identity?_eq_of_hasMember hApart hResolves
      hResolves' hMember
  · have hNone : table[m]? = none := by
      apply List.getElem?_eq_none
      rw [hLength]
      exact Nat.not_lt.mp hLt
    have hNone' : table'[r.number m]? = none := by
      apply List.getElem?_eq_none
      rw [hLength']
      rw [← hMoves.number_lt_iff] at hLt
      exact Nat.not_lt.mp hLt
    unfold ExportTable.identity?
    rw [hNone, hNone']

end Program.Rearranges

------------------------------------------------------------
-- Groups Of Methods
------------------------------------------------------------

namespace Rearrangement

variable (r : Rearrangement)
variable (h : Hierarchy)

theorem reaches_member
    (t : TypeNode)
    (m : MemberNode) :
    Surface.reaches (r.type t) (r.member m) =
      Surface.reaches t m := by
  unfold Surface.reaches
  rw [r.decl_member, MemberDecl.isConstructor_renumber]
  rfl

/- The declaration that runs is the one that ran. -/
theorem representative?_map
    (group : List MemberNode) :
    Surface.representative? h (group.map r.member) =
      (Surface.representative? h group).map r.member := by
  have hRedeclared :
      ∀ m, Surface.isRedeclared h (group.map r.member)
          (r.member m) =
        Surface.isRedeclared h group m := by
    intro m
    unfold Surface.isRedeclared
    rw [List.any_map]
    rfl
  have hLatest :
      (group.map r.member).filter (fun m =>
          !Surface.isRedeclared h (group.map r.member) m) =
        (group.filter (fun m =>
          !Surface.isRedeclared h group m)).map
            r.member := by
    rw [List.filter_map]
    apply congrArg (List.map r.member)
    apply List.filter_congr
    intro m _
    rw [Function.comp, hRedeclared]
  unfold Surface.representative?
  dsimp only
  rw [hLatest, List.find?_map, List.head?_map]
  generalize group.filter (fun m =>
    !Surface.isRedeclared h group m) = latest
  cases hFind : latest.find? (fun m =>
      !m.owner.decl.isInterface) with
  | none =>
      have hNone :
          latest.find? ((fun m : MemberNode =>
            !m.owner.decl.isInterface) ∘ r.member) =
            none :=
        hFind
      rw [hNone]
      rfl
  | some m =>
      have hSome :
          latest.find? ((fun m : MemberNode =>
            !m.owner.decl.isInterface) ∘ r.member) =
            some m :=
        hFind
      rw [hSome]
      rfl

variable {table table' : ExportTable}
variable (hAgree :
  ∀ m, table'.identity? (r.number m) = table.identity? m)

include hAgree

theorem slotIdentity?_member
    (m : MemberNode)
    (overridden : List MemberNode) :
    Surface.slotIdentity? table' (r.member m)
        (overridden.map r.member) =
      Surface.slotIdentity? table m overridden := by
  have hFound :
      (overridden.map r.member).findSome?
          (fun n => table'.identity? n.id) =
        overridden.findSome?
          (fun n => table.identity? n.id) := by
    rw [List.findSome?_map]
    apply Listing.findSome?_congr
    intro n _
    exact hAgree n.id
  unfold Surface.slotIdentity?
  rw [hFound, r.id_member, hAgree]
  rfl

theorem isExposedHere_member
    (t : TypeNode)
    (m : MemberNode)
    (overridden : List MemberNode) :
    Surface.isExposedHere h table' (r.type t) (r.member m)
        (overridden.map r.member) =
      Surface.isExposedHere h table t m overridden := by
  have hAny :
      (overridden.map r.member).any (fun n =>
          !h.isAncestorOrSelf n.owner.id
              (r.member m).owner.id &&
            table'.exports n.id) =
        overridden.any (fun n =>
          !h.isAncestorOrSelf n.owner.id m.owner.id &&
            table.exports n.id) := by
    rw [List.any_map]
    apply Listing.any_congr
    intro n _
    unfold ExportTable.exports
    rw [Function.comp, r.id_member, hAgree]
    rfl
  unfold Surface.isExposedHere
  rw [hAny]
  rfl

/- A group of the same methods makes the same slot. -/
theorem methodSlot?_map
    (t : TypeNode)
    (group : List MemberNode) :
    Surface.methodSlot? h table' (r.type t)
        (group.map r.member) =
      (Surface.methodSlot? h table t group).map r.slot := by
  have hOverridden :
      ∀ m, (group.map r.member).filter
          (fun n => n.id != (r.member m).id) =
        (group.filter (fun n => n.id != m.id)).map
          r.member := by
    intro m
    rw [List.filter_map]
    apply congrArg (List.map r.member)
    apply List.filter_congr
    intro n _
    rw [Function.comp, r.id_member, r.id_member, bne,
      r.number_beq]
    rfl
  unfold Surface.methodSlot?
  rw [r.representative?_map]
  cases Surface.representative? h group with
  | none => rfl
  | some m =>
      simp only [Option.map_some, hOverridden,
        r.slotIdentity?_member hAgree,
        r.isExposedHere_member h hAgree]
      unfold Rearrangement.slot
      split <;> rfl

theorem fieldSlot_member
    (m : MemberNode) :
    Surface.fieldSlot table' (r.member m) =
      r.slot (Surface.fieldSlot table m) := by
  unfold Surface.fieldSlot
  rw [r.id_member, hAgree]
  rfl

end Rearrangement

------------------------------------------------------------
-- Surfaces
------------------------------------------------------------

namespace Program.Rearranges

variable {p q : Program}
variable {r : Rearrangement}
variable (hMoves : q.Rearranges r p)
variable (hApart : p.KeepsApart)

include hMoves hApart

/- The methods of a type are gathered as before. -/
theorem methodGroups_perm
    {types : List TypeNode}
    (hTypes : ∀ t ∈ types, p.HasType t)
    (t : TypeNode) :
    (Surface.methodGroups
      (((types.map r.type).flatMap q.declaredBy).filter
        (Surface.reaches (r.type t)))).Perm
      ((Surface.methodGroups
        ((types.flatMap p.declaredBy).filter
          (Surface.reaches t))).map (List.map r.member)) := by
  let methods (m : MemberNode) : Bool := m.decl.isCallable
  let key (m : MemberNode) : Option (String × List TypeExpr) :=
    m.decl.signature?
  have hMethod : ∀ m, methods (r.member m) = methods m :=
    fun m =>
      MemberDecl.isCallable_renumber r.number m.decl
  have hKey : ∀ m, key (r.member m) = key m :=
    fun m =>
      MemberDecl.signature?_renumber r.number m.decl
  have hVisible :=
    Listing.filter_perm_map
      (hMoves.flatMap_declaredBy_perm hTypes)
      (fun m _ => r.reaches_member t m)
  have hMethods :=
    Listing.filter_perm_map hVisible
      (fun m _ => hMethod m)
  have hGroups :=
    Listing.groupsBy_perm (fun m _ => hKey m) hMethods (by
      intro k
      rw [List.filter_filter, List.filter_filter,
        List.filter_filter, List.filter_filter]
      apply hMoves.filter_declaredBy_eq hApart hTypes
      · intro m
        rw [r.reaches_member, hKey, hMethod]
      · intro m hKeep
        simp only [Bool.and_eq_true, Surface.reaches]
          at hKeep
        unfold MemberDecl.isInstanceMethod
        simp only [Bool.and_eq_true]
        exact ⟨⟨hKeep.1.2, hKeep.2.1.2⟩, hKeep.2.1.1⟩
      · intro m n hm hn
        simp only [Bool.and_eq_true, decide_eq_true_eq]
          at hm hn
        exact hm.1.1.trans hn.1.1.symm)
  have hLists := hGroups.map (fun g => g.2)
  unfold Surface.methodGroups
  rw [List.map_map] at hLists ⊢
  exact hLists

/- The surface of a type has the slots that it had. -/
theorem ofMembers_rearranges
    {table table' : ExportTable}
    (hAgree :
      ∀ m, table'.identity? (r.number m) =
        table.identity? m)
    {types : List TypeNode}
    (hTypes : ∀ t ∈ types, p.HasType t)
    (t : TypeNode) :
    (Surface.ofMembers q.hierarchy table' (r.type t)
        ((types.map r.type).flatMap q.declaredBy)).Rearranges r
      (Surface.ofMembers p.hierarchy table t
        (types.flatMap p.declaredBy)) := by
  have hVisible :=
    Listing.filter_perm_map
      (hMoves.flatMap_declaredBy_perm hTypes)
      (fun m _ => r.reaches_member t m)
  let fields (m : MemberNode) : Bool := m.decl.isField
  have hField : ∀ m, fields (r.member m) = fields m :=
    fun m => MemberDecl.isField_renumber r.number m.decl
  have hFields :=
    Listing.filter_perm_map hVisible (fun m _ => hField m)
  have hGroups := hMoves.methodGroups_perm hApart hTypes t
  rw [hMoves.hierarchy_eq]
  constructor
  · rfl
  · unfold Surface.ofMembers
    dsimp only
    rw [List.map_append]
    apply List.Perm.append
    · refine (hGroups.filterMap _).trans ?_
      rw [List.filterMap_map, List.map_filterMap]
      refine List.Perm.of_eq (List.filterMap_congr ?_)
      intro group _
      exact r.methodSlot?_map p.hierarchy hAgree t group
    · refine (hFields.map _).trans ?_
      rw [List.map_map, List.map_map]
      refine List.Perm.of_eq (List.map_congr_left ?_)
      intro m _
      exact r.fieldSlot_member hAgree m

end Program.Rearranges

------------------------------------------------------------
-- Views
------------------------------------------------------------

namespace ExportView

/-
  That a view shows the declarations that another view shows
  in another order.
-/
structure Rearranges
    (w : ExportView)
    (r : Rearrangement)
    (v : ExportView) : Prop where
  program : w.program.Rearranges r v.program
  apart : v.program.KeepsApart
  shows : v.Shows v.program
  shows_other : w.Shows w.program

namespace Rearranges

variable {v w : ExportView}
variable {r : Rearrangement}
variable (hViews : w.Rearranges r v)

include hViews

theorem table_identity?_eq
    (m : MemberId) :
    w.table.identity? (r.number m) = v.table.identity? m :=
  hViews.program.identity?_eq hViews.apart
    hViews.shows.table_eq hViews.shows_other.table_eq m

theorem exports_eq
    (m : MemberId) :
    w.table.exports (r.number m) = v.table.exports m := by
  unfold ExportTable.exports
  rw [hViews.table_identity?_eq]

theorem types_eq :
    w.types = v.types.map r.type := by
  rw [hViews.shows.types_eq, hViews.shows_other.types_eq]
  exact hViews.program.typeNodes_eq

theorem members_perm :
    w.members.Perm (v.members.map r.member) :=
  hViews.program.memberNodes_perm hViews.shows.members_eq
    hViews.shows_other.members_eq

/- The surfaces keep their order, slots in any order. -/
theorem surfaces_moved :
    List.Forall₂
      (fun s' s => s'.Rearranges r s ∧ s ∈ v.surfaces)
      w.surfaces v.surfaces := by
  have hFirst := hViews.shows.surfaces_eq
  have hSecond := hViews.shows_other.surfaces_eq
  rw [hViews.program.hierarchy_eq] at hSecond
  refine forall₂_of_mapM_eq_ok hFirst hSecond ?_
  intro t ht s s' hSurface hSurface'
  refine ⟨?_, hViews.shows.mem_surfaces_iff.mpr
    ⟨t, ht, hSurface⟩⟩
  rcases Program.surface_eq_ok_iff.mp hSurface with
    ⟨node, lineage, hNode, hLineage, rfl⟩
  rcases Program.surface_eq_ok_iff.mp hSurface' with
    ⟨node', lineage', hNode', hLineage', rfl⟩
  have hSameNode := Except.ok.inj (hNode'.symm.trans
    (hViews.program.type_eq_ok hNode))
  have hSameLineage := Except.ok.inj (hLineage'.symm.trans
    (hViews.program.lineage_eq_ok hLineage))
  rw [hSameNode, hSameLineage]
  apply hViews.program.ofMembers_rearranges hViews.apart
    hViews.table_identity?_eq
  intro s hs
  exact ((Program.mem_of_lineage_eq_ok hLineage).mp hs).2

------------------------------------------------------------
-- Quotations
------------------------------------------------------------

theorem signature_eq
    (m : MemberNode) :
    w.signature (r.member m) = v.signature m :=
  hViews.program.text_eq m

theorem comeTogetherAt_eq
    (t : TypeNode)
    (a b : MemberNode) :
    w.comeTogetherAt (r.type t) (r.member a) (r.member b) =
      v.comeTogetherAt t a b := by
  unfold comeTogetherAt
  rw [hViews.program.hierarchy_eq]
  rfl

theorem clashTexts_eq
    (t : TypeNode)
    (a b : Slot) :
    w.clashTexts (r.type t) (r.slot a) (r.slot b) =
      v.clashTexts t a b := by
  have hQuoted :
      ∀ (slot : Slot) (here : Option TypeNode),
        Signature.quoted w.program (r.slot slot).member
            ((r.slot slot).exposedBy.or
              (here.map r.type)) =
          Signature.quoted v.program slot.member
            (slot.exposedBy.or here) := by
    intro slot here
    have hPlace :
        (r.slot slot).exposedBy.or (here.map r.type) =
          (slot.exposedBy.or here).map r.type := by
      change (slot.exposedBy.map r.type).or _ = _
      cases slot.exposedBy <;> rfl
    rw [hPlace]
    exact hViews.program.quoted_eq slot.member _
  have hHere :
      (if w.comeTogetherAt (r.type t) (r.slot a).member
          (r.slot b).member then some (r.type t) else none) =
        (if v.comeTogetherAt t a.member b.member then some t
          else none).map r.type := by
    have hSame := hViews.comeTogetherAt_eq t a.member b.member
    change (if w.comeTogetherAt (r.type t)
      (r.member a.member) (r.member b.member) then _
        else _) = _
    rw [hSame]
    split <;> rfl
  unfold clashTexts
  dsimp only
  rw [hHere, hQuoted, hQuoted]

end Rearranges

end ExportView

end JsExport
