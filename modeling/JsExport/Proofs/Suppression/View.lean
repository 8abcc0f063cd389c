import JsExport.Proofs.Export.Surface
import JsExport.Proofs.Listing.Mapped
import JsExport.Proofs.Suppression.Program

/-
  Views without the warnings that declarations silence.

  The identities of members do not depend on suppressions.
  The surfaces of types have the same slots, made of the same
  members without their suppressions.

  Main declarations:
    * `ExportView.unsilenced`
    * `Program.exportTable_unsilenced`
    * `Surface.ofMembers_unsilenced`
    * `Program.exportView_unsilenced`
    * `ExportView.clashTexts_unsilenced`
-/

namespace JsExport

open Lookup

------------------------------------------------------------
-- Slots, Surfaces And Views
------------------------------------------------------------

/- The slot of the same members without suppressions. -/
def Slot.unsilenced
    (slot : Slot) : Slot :=
  ⟨slot.member.unsilenced, slot.identity,
    slot.exposedBy.map .unsilenced,
    slot.overridden.map .unsilenced⟩

def Surface.unsilenced
    (s : Surface) : Surface :=
  ⟨s.type.unsilenced, s.slots.map .unsilenced⟩

/- The view of the program without suppressions. -/
def ExportView.unsilenced
    (v : ExportView) : ExportView :=
  ⟨v.program.unsilenced, v.types.map .unsilenced,
    v.members.map .unsilenced, v.table,
    v.surfaces.map .unsilenced⟩

------------------------------------------------------------
-- Tables
------------------------------------------------------------

namespace ExportTable

variable (table : ExportTable)
variable (above members : List MemberNode)

theorem inherited?_unsilenced
    (m : MemberDecl) :
    table.inherited? (above.map .unsilenced) m.unsilenced =
      table.inherited? above m := by
  have hOverridden :
      (above.map MemberNode.unsilenced).filter (fun n =>
          n.decl.isOverridable &&
            n.decl.sharesSignature m.unsilenced) =
        (above.filter (fun n =>
          n.decl.isOverridable &&
            n.decl.sharesSignature m)).map .unsilenced := by
    apply Listing.filter_map_eq
    intro n
    rw [n.decl_unsilenced, n.decl.isOverridable_unsilenced,
      n.decl.sharesSignature_unsilenced]
  unfold inherited?
  dsimp only
  rw [hOverridden, List.findSome?_map]
  rfl

theorem resolve?_unsilenced
    (m : MemberNode) :
    table.resolve? (above.map .unsilenced) m.unsilenced =
      table.resolve? above m := by
  unfold resolve?
  rw [m.decl_unsilenced, table.inherited?_unsilenced,
    m.decl.mayInheritExport_unsilenced,
    m.decl.natural_unsilenced]
  have hDirect :=
    m.decl.isDirectlyExported_unsilenced m.owner.decl
  change (if m.decl.unsilenced.isDirectlyExported
    m.owner.decl.unsilenced then _ else _) = _
  rw [hDirect]

theorem addMembers_unsilenced :
    table.addMembers (above.map .unsilenced)
        (members.map .unsilenced) =
      table.addMembers above members := by
  unfold addMembers
  rw [List.foldl_map]
  simp only [resolve?_unsilenced]
  rfl

theorem addType_unsilenced
    (p : Program)
    (t : TypeId) :
    addType p.unsilenced table t = addType p table t := by
  unfold addType
  rw [p.type_unsilenced, p.lineage_unsilenced]
  simp only [bind_map_left, ← List.map_tail,
    p.flatMap_declaredBy_unsilenced,
    p.declaredBy_unsilenced, addMembers_unsilenced]

end ExportTable

/- Members have the same identities. -/
theorem Program.exportTable_unsilenced
    (p : Program) :
    p.unsilenced.exportTable = p.exportTable := by
  have hCount :
      p.unsilenced.members.length = p.members.length :=
    List.length_map _
  have hStep :
      ExportTable.addType p.unsilenced =
        ExportTable.addType p := by
    funext table t
    exact table.addType_unsilenced p t
  unfold exportTable
  rw [hCount, hStep]
  rfl

------------------------------------------------------------
-- Groups Of Methods
------------------------------------------------------------

namespace Surface

variable (h : Hierarchy)
variable (table : ExportTable)
variable (t : TypeNode)
variable (m : MemberNode)
variable (group : List MemberNode)

theorem reaches_unsilenced :
    reaches t.unsilenced m.unsilenced = reaches t m := by
  unfold reaches
  rw [m.decl_unsilenced, m.decl.isConstructor_unsilenced]
  rfl

theorem methodGroups_unsilenced :
    methodGroups (group.map .unsilenced) =
      (methodGroups group).map (List.map .unsilenced) := by
  have hCallable :
      (group.map MemberNode.unsilenced).filter
          (fun m => m.decl.isCallable) =
        (group.filter (fun m => m.decl.isCallable)).map
          .unsilenced :=
    Listing.filter_map_eq
      (fun n => n.decl.isCallable_unsilenced) group
  unfold methodGroups
  rw [hCallable, Listing.groupsBy_map
    (fun n => n.decl.signature?_unsilenced), List.map_map,
    List.map_map]
  rfl

theorem isRedeclared_unsilenced :
    isRedeclared h (group.map .unsilenced) m.unsilenced =
      isRedeclared h group m := by
  unfold isRedeclared
  rw [List.any_map]
  rfl

/- The declaration that runs is the one that ran. -/
theorem representative?_unsilenced :
    representative? h (group.map .unsilenced) =
      (representative? h group).map .unsilenced := by
  have hLatest :
      (group.map MemberNode.unsilenced).filter (fun m =>
          !isRedeclared h (group.map .unsilenced) m) =
        (group.filter
          (fun m => !isRedeclared h group m)).map
            .unsilenced :=
    Listing.filter_map_eq
      (fun n => by rw [isRedeclared_unsilenced]) group
  unfold representative?
  dsimp only
  rw [hLatest, List.find?_map, List.head?_map,
    ← Option.map_or]
  rfl

theorem isExposedHere_unsilenced :
    isExposedHere h table t.unsilenced m.unsilenced
        (group.map .unsilenced) =
      isExposedHere h table t m group := by
  unfold isExposedHere
  rw [List.any_map]
  rfl

theorem slotIdentity?_unsilenced :
    slotIdentity? table m.unsilenced
        (group.map .unsilenced) =
      slotIdentity? table m group := by
  unfold slotIdentity?
  rw [List.findSome?_map]
  rfl

theorem methodSlot?_unsilenced :
    methodSlot? h table t.unsilenced
        (group.map .unsilenced) =
      (methodSlot? h table t group).map .unsilenced := by
  unfold methodSlot?
  rw [representative?_unsilenced, Option.map_map,
    Option.map_map]
  apply congrArg (fun f => (representative? h group).map f)
  funext m
  have hRest :
      (group.map MemberNode.unsilenced).filter
          (fun n => n.id != m.id) =
        (group.filter (fun n => n.id != m.id)).map
          .unsilenced :=
    List.filter_map
  simp only [Function.comp, MemberNode.id_unsilenced, hRest,
    slotIdentity?_unsilenced, isExposedHere_unsilenced]
  unfold Slot.unsilenced
  split <;> rfl

/- The slots of a type are the same. -/
theorem ofMembers_unsilenced :
    ofMembers h table t.unsilenced
        (group.map .unsilenced) =
      (ofMembers h table t group).unsilenced := by
  have hVisible :
      (group.map MemberNode.unsilenced).filter
          (reaches t.unsilenced) =
        (group.filter (reaches t)).map .unsilenced :=
    Listing.filter_map_eq (reaches_unsilenced t) group
  have hFields :
      ((group.filter (reaches t)).map
          MemberNode.unsilenced).filter
            (fun m => m.decl.isField) =
        ((group.filter (reaches t)).filter
          (fun m => m.decl.isField)).map .unsilenced :=
    Listing.filter_map_eq
      (fun n => n.decl.isField_unsilenced) _
  unfold ofMembers unsilenced
  dsimp only
  rw [hVisible, hFields, methodGroups_unsilenced,
    List.filterMap_map, List.map_append, List.map_filterMap,
    List.map_map, List.map_map]
  apply congrArg (Surface.mk t.unsilenced)
  congr 1
  apply List.filterMap_congr
  intro g _
  exact methodSlot?_unsilenced h table t g

end Surface

------------------------------------------------------------
-- Views
------------------------------------------------------------

theorem Program.surface_unsilenced
    (p : Program)
    (table : ExportTable)
    (t : TypeId) :
    p.unsilenced.surface table t =
      .unsilenced <$> p.surface table t := by
  unfold surface
  rw [p.type_unsilenced, p.lineage_unsilenced]
  simp only [bind_map_left, map_bind, map_pure,
    p.flatMap_declaredBy_unsilenced]
  simp only [← Surface.ofMembers_unsilenced]
  rfl

/- What a program shows is the same but for suppressions. -/
theorem Program.exportView_unsilenced
    (p : Program) :
    p.unsilenced.exportView =
      .unsilenced <$> p.exportView := by
  have hSurfaces (table : ExportTable) :
      p.hierarchy.order.mapM (p.unsilenced.surface table) =
        List.map .unsilenced <$>
          p.hierarchy.order.mapM (p.surface table) :=
    mapM_eq_map_mapM
      (fun t _ => p.surface_unsilenced table t)
  unfold exportView
  rw [p.exportTable_unsilenced, p.memberNodes_unsilenced,
    p.typeNodes_unsilenced]
  have hOrder :
      p.unsilenced.hierarchy.order = p.hierarchy.order := rfl
  simp only [hOrder, hSurfaces, bind_map_left, map_bind,
    map_pure]
  rfl

namespace ExportView

variable (v : ExportView)

theorem signature_unsilenced
    (m : MemberNode) :
    v.unsilenced.signature m.unsilenced = v.signature m :=
  Signature.text_unsilenced v.program m

theorem quoted_unsilenced
    (slot : Slot) :
    v.unsilenced.quoted slot.unsilenced = v.quoted slot :=
  Signature.quoted_unsilenced v.program slot.member
    slot.exposedBy

theorem clashTexts_unsilenced
    (t : TypeNode)
    (a b : Slot) :
    v.unsilenced.clashTexts t.unsilenced a.unsilenced
        b.unsilenced =
      v.clashTexts t a b := by
  have hTogether :
      v.unsilenced.comeTogetherAt t.unsilenced
          a.unsilenced.member b.unsilenced.member =
        v.comeTogetherAt t a.member b.member := rfl
  have hHere :
      (if v.comeTogetherAt t a.member b.member then
          some t.unsilenced else none) =
        (if v.comeTogetherAt t a.member b.member then
          some t else none).map .unsilenced := by
    split <;> rfl
  unfold clashTexts
  dsimp only
  rw [hTogether, hHere]
  unfold Slot.unsilenced
  dsimp only
  rw [← Option.map_or, ← Option.map_or]
  apply congrArg₂ Prod.mk
  · exact Signature.quoted_unsilenced v.program a.member _
  · exact Signature.quoted_unsilenced v.program b.member _

end ExportView

namespace Surface

variable (s : Surface)

theorem named_unsilenced :
    s.unsilenced.named =
      s.named.map (fun e => (e.1.unsilenced, e.2)) := by
  unfold named
  rw [List.map_filterMap]
  unfold unsilenced
  rw [List.filterMap_map]
  apply List.filterMap_congr
  intro slot _
  rw [Option.map_map]
  rfl

/- The slots of one name are the same. -/
theorem groups_unsilenced :
    s.unsilenced.groups =
      s.groups.map (fun g =>
        (g.1, g.2.map (fun e => (e.1.unsilenced, e.2)))) := by
  change Listing.sortedOn (fun g => g.1)
    (Listing.groupsBy (fun e => e.2.name)
      s.unsilenced.named) = _
  rw [s.named_unsilenced,
    Listing.groupsBy_map (fun _ => rfl),
    Listing.sortedOn_map (fun _ => rfl)]
  rfl

end Surface

end JsExport
