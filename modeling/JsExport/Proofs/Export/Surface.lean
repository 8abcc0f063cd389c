import JsExport.Export.View
import JsExport.Proofs.Export.Table

/-
  Where the slots of a surface come from.

  A slot of methods comes from a group of declarations that
  share their signature, a slot of a field from the field
  alone.  The surfaces of a sound program are made of members
  of the program.

  Main declarations:
    * `Surface.mem_of_mem_methodGroups`
    * `Surface.IsMethodSlot` and `Surface.IsFieldSlot`
    * `Surface.mem_slots_iff` and `Surface.mem_groups_iff`
    * `ExportView.Shows` and `Program.exportView_eq_ok_iff`
    * `ExportView.Shows.hasMember_slot`
    * `ExportView.Shows.identity_eq_of_unexported`
    * `Program.Sound.exportView_succeeds`
-/

namespace JsExport

open Lookup

------------------------------------------------------------
-- Signatures
------------------------------------------------------------

/- Only what can be called has a signature. -/
theorem MemberDecl.signature?_eq_some_iff
    {m : MemberDecl}
    {key : String × List TypeExpr} :
    m.signature? = some key ↔
      ∃ c, m.callable? = some c ∧
        key = (m.name, c.paramTypes) := by
  unfold signature?
  rw [Option.map_eq_some_iff]
  constructor
  · rintro ⟨c, hc, rfl⟩
    exact ⟨c, hc, rfl⟩
  · rintro ⟨c, hc, rfl⟩
    exact ⟨c, hc, rfl⟩

/- Methods of one signature have one name. -/
theorem MemberDecl.name_eq_of_signature?_eq
    {m n : MemberDecl}
    (hCallable : m.isCallable)
    (hSame : n.signature? = m.signature?) :
    n.name = m.name := by
  rcases Option.isSome_iff_exists.mp hCallable with ⟨c, hc⟩
  have hKey : m.signature? = some (m.name, c.paramTypes) :=
    signature?_eq_some_iff.mpr ⟨c, hc, rfl⟩
  rcases signature?_eq_some_iff.mp (hSame.trans hKey) with
    ⟨_, _, hEq⟩
  exact (Prod.mk.inj hEq).1.symm

/- Methods of one signature have as many parameters. -/
theorem MemberDecl.length_params_eq_of_signature?_eq
    {m n : MemberDecl}
    {c d : Callable}
    (hm : m.callable? = some c)
    (hn : n.callable? = some d)
    (hSame : n.signature? = m.signature?) :
    d.params.length = c.params.length := by
  have hKey : m.signature? = some (m.name, c.paramTypes) :=
    signature?_eq_some_iff.mpr ⟨c, hm, rfl⟩
  rcases signature?_eq_some_iff.mp (hSame.trans hKey) with
    ⟨d', hn', hEq⟩
  cases hn.symm.trans hn'
  have hTypes := congrArg List.length (Prod.mk.inj hEq).2
  simpa [Callable.paramTypes] using hTypes.symm

namespace Surface

variable {h : Hierarchy}
variable {table : ExportTable}
variable {t : TypeNode}
variable {members : List MemberNode}

------------------------------------------------------------
-- Groups And Representatives
------------------------------------------------------------

/- A group holds the methods of one signature. -/
theorem mem_methodGroups_iff
    {group : List MemberNode} :
    group ∈ methodGroups members ↔
      ∃ m ∈ members, m.decl.isCallable ∧
        group = members.filter (fun n =>
          n.decl.isCallable &&
            decide (n.decl.signature? =
              m.decl.signature?)) := by
  unfold methodGroups Listing.groupsBy
  rw [List.map_map, List.mem_map]
  constructor
  · rintro ⟨key, hKey, rfl⟩
    rcases List.mem_map.mp
        (Listing.mem_distinct_iff.mp hKey) with
      ⟨m, hm, rfl⟩
    rcases List.mem_filter.mp hm with ⟨hIn, hCallable⟩
    refine ⟨m, hIn, hCallable, ?_⟩
    simp only [Function.comp, List.filter_filter]
    apply List.filter_congr
    intro n _
    exact Bool.and_comm _ _
  · rintro ⟨m, hIn, hCallable, rfl⟩
    refine ⟨m.decl.signature?, ?_, ?_⟩
    · apply Listing.mem_distinct_iff.mpr
      exact List.mem_map.mpr
        ⟨m, List.mem_filter.mpr ⟨hIn, hCallable⟩, rfl⟩
    · simp only [Function.comp, List.filter_filter]
      apply List.filter_congr
      intro n _
      exact Bool.and_comm _ _

theorem mem_of_mem_methodGroups
    {group : List MemberNode}
    (hGroup : group ∈ methodGroups members)
    {m n : MemberNode}
    (hm : m ∈ group)
    (hn : n ∈ group) :
    m ∈ members ∧ m.decl.isCallable ∧
      n.decl.signature? = m.decl.signature? := by
  rcases mem_methodGroups_iff.mp hGroup with
    ⟨first, _, _, rfl⟩
  simp only [List.mem_filter, Bool.and_eq_true,
    decide_eq_true_eq] at hm hn
  exact ⟨hm.1, hm.2.1, hn.2.2.trans hm.2.2.symm⟩

/- What stands for a method is one of its declarations. -/
theorem mem_of_representative?_eq_some
    {group : List MemberNode}
    {m : MemberNode}
    (hFirst : representative? h group = some m) :
    m ∈ group := by
  unfold representative? at hFirst
  rcases Option.or_eq_some_iff.mp hFirst with
    hCode | ⟨_, hHead⟩
  · exact List.mem_of_mem_filter (List.mem_of_find?_eq_some hCode)
  · exact List.mem_of_mem_filter (List.mem_of_mem_head? hHead)

------------------------------------------------------------
-- Slots
------------------------------------------------------------

/- That a slot is made of one group of methods. -/
structure IsMethodSlot
    (h : Hierarchy)
    (table : ExportTable)
    (t : TypeNode)
    (members : List MemberNode)
    (slot : Slot) : Prop where
  from_group :
    ∃ group ∈ methodGroups (members.filter (reaches t)),
      representative? h group = some slot.member ∧
        slot.overridden =
          group.filter (fun n => n.id != slot.member.id)
  identity_eq :
    slot.identity =
      slotIdentity? table slot.member slot.overridden
  exposedBy_eq :
    slot.exposedBy =
      if isExposedHere h table t slot.member
          slot.overridden then some t else none

/- That a slot is made of one field. -/
structure IsFieldSlot
    (table : ExportTable)
    (t : TypeNode)
    (members : List MemberNode)
    (slot : Slot) : Prop where
  member_mem : slot.member ∈ members.filter (reaches t)
  isField : slot.member.decl.isField
  eq_fieldSlot : slot = fieldSlot table slot.member

/- Slots are made of methods or of fields. -/
theorem mem_slots_iff
    {slot : Slot} :
    slot ∈ (ofMembers h table t members).slots ↔
      IsMethodSlot h table t members slot ∨
        IsFieldSlot table t members slot := by
  unfold ofMembers
  rw [List.mem_append, List.mem_filterMap, List.mem_map]
  apply or_congr
  · constructor
    · rintro ⟨group, hGroup, hSlot⟩
      rcases Option.map_eq_some_iff.mp hSlot with
        ⟨m, hFirst, rfl⟩
      exact ⟨⟨group, hGroup, hFirst, rfl⟩, rfl, rfl⟩
    · rintro ⟨⟨group, hGroup, hFirst, hRest⟩,
        hIdentity, hExposed⟩
      refine ⟨group, hGroup, ?_⟩
      unfold methodSlot?
      rw [hFirst, Option.map_some]
      rcases slot with ⟨m, identity, exposedBy, overridden⟩
      simp only at hRest hIdentity hExposed
      rw [hIdentity, hExposed, hRest]
  · constructor
    · rintro ⟨m, hm, rfl⟩
      rcases List.mem_filter.mp hm with ⟨hIn, hField⟩
      exact ⟨hIn, hField, rfl⟩
    · rintro ⟨hIn, hField, hEq⟩
      exact ⟨slot.member,
        List.mem_filter.mpr ⟨hIn, hField⟩, hEq.symm⟩

/- A slot stands for members within reach. -/
theorem member_mem_of_mem_slots
    {slot : Slot}
    (hSlot : slot ∈ (ofMembers h table t members).slots) :
    slot.member ∈ members.filter (reaches t) := by
  rcases mem_slots_iff.mp hSlot with hMethod | hField
  · rcases hMethod.from_group with
      ⟨group, hGroup, hFirst, _⟩
    have hIn := mem_of_representative?_eq_some hFirst
    exact (mem_of_mem_methodGroups hGroup hIn hIn).1
  · exact hField.member_mem

/- What a slot overrides are methods of its signature. -/
theorem mem_of_mem_overridden
    {slot : Slot}
    (hSlot : slot ∈ (ofMembers h table t members).slots)
    {n : MemberNode}
    (hn : n ∈ slot.overridden) :
    n ∈ members.filter (reaches t) ∧
      slot.member.decl.isCallable ∧
        n.decl.signature? = slot.member.decl.signature? := by
  rcases mem_slots_iff.mp hSlot with hMethod | hField
  · rcases hMethod.from_group with
      ⟨group, hGroup, hFirst, hRest⟩
    have hIn := mem_of_representative?_eq_some hFirst
    rw [hRest] at hn
    have hOther := List.mem_of_mem_filter hn
    exact ⟨(mem_of_mem_methodGroups hGroup hOther hIn).1,
      (mem_of_mem_methodGroups hGroup hIn hOther).2⟩
  · rw [hField.eq_fieldSlot] at hn
    cases hn

/- What stands for a slot is not overridden in it. -/
theorem id_ne_of_mem_overridden
    {slot : Slot}
    (hSlot : slot ∈ (ofMembers h table t members).slots)
    {n : MemberNode}
    (hn : n ∈ slot.overridden) :
    n.id ≠ slot.member.id := by
  rcases mem_slots_iff.mp hSlot with hMethod | hField
  · rcases hMethod.from_group with ⟨group, _, _, hRest⟩
    rw [hRest] at hn
    exact bne_iff_ne.mp (List.mem_filter.mp hn).2
  · rw [hField.eq_fieldSlot] at hn
    cases hn

/- A method is in one group. -/
theorem methodGroups_eq_of_mem
    {group other : List MemberNode}
    (hGroup : group ∈ methodGroups members)
    (hOther : other ∈ methodGroups members)
    {m : MemberNode}
    (hm : m ∈ group)
    (hmOther : m ∈ other) :
    group = other := by
  rcases mem_methodGroups_iff.mp hGroup with
    ⟨first, _, _, rfl⟩
  rcases mem_methodGroups_iff.mp hOther with
    ⟨second, _, _, rfl⟩
  simp only [List.mem_filter, Bool.and_eq_true,
    decide_eq_true_eq] at hm hmOther
  have hSame := hm.2.2.symm.trans hmOther.2.2
  rw [hSame]

/- Slots of methods that one member stands for are one. -/
theorem IsMethodSlot.eq_of_member_eq
    {a b : Slot}
    (ha : IsMethodSlot h table t members a)
    (hb : IsMethodSlot h table t members b)
    (hMember : a.member = b.member) :
    a = b := by
  rcases ha.from_group with ⟨group, hGroup, hFirst, hRest⟩
  rcases hb.from_group with
    ⟨other, hOther, hFirst', hRest'⟩
  have hIn := mem_of_representative?_eq_some hFirst
  have hIn' := mem_of_representative?_eq_some hFirst'
  rw [← hMember] at hIn'
  have hGroups :=
    methodGroups_eq_of_mem hGroup hOther hIn hIn'
  have hOverridden : a.overridden = b.overridden := by
    rw [hRest, hRest', hGroups, hMember]
  have hIdentity : a.identity = b.identity := by
    rw [ha.identity_eq, hb.identity_eq, hMember, hOverridden]
  have hExposedBy : a.exposedBy = b.exposedBy := by
    rw [ha.exposedBy_eq, hb.exposedBy_eq, hMember,
      hOverridden]
  calc
    a = ⟨a.member, a.identity, a.exposedBy, a.overridden⟩ :=
      rfl
    _ = ⟨b.member, b.identity, b.exposedBy, b.overridden⟩ := by
      rw [hMember, hIdentity, hExposedBy, hOverridden]
    _ = b := rfl

theorem IsMethodSlot.isCallable
    {slot : Slot}
    (hMethod : IsMethodSlot h table t members slot) :
    slot.member.decl.isCallable := by
  rcases hMethod.from_group with ⟨group, hGroup, hFirst, _⟩
  have hIn := mem_of_representative?_eq_some hFirst
  exact (mem_of_mem_methodGroups hGroup hIn hIn).2.1

/- A member stands for one slot. -/
theorem eq_of_member_eq
    {a b : Slot}
    (ha : a ∈ (ofMembers h table t members).slots)
    (hb : b ∈ (ofMembers h table t members).slots)
    (hMember : a.member = b.member) :
    a = b := by
  rcases mem_slots_iff.mp ha with hMethod | hField
  · rcases mem_slots_iff.mp hb with hMethod' | hField'
    · exact hMethod.eq_of_member_eq hMethod' hMember
    · have hNot := hField'.isField
      rw [← hMember] at hNot
      rw [MemberDecl.isField_eq, hMethod.isCallable] at hNot
      cases hNot
  · rcases mem_slots_iff.mp hb with hMethod' | hField'
    · have hNot := hField.isField
      rw [hMember] at hNot
      rw [MemberDecl.isField_eq, hMethod'.isCallable] at hNot
      cases hNot
    · rw [hField.eq_fieldSlot, hField'.eq_fieldSlot,
        hMember]

------------------------------------------------------------
-- Surfaces That Agree
------------------------------------------------------------

section Agreement

variable {other : Hierarchy}
variable {table' : ExportTable}

/- Who stands for a method depends on what is below it. -/
theorem representative?_congr
    {group : List MemberNode}
    (hAncestor :
      ∀ m ∈ group, ∀ a,
        other.isAncestor a m.owner.id =
          h.isAncestor a m.owner.id) :
    representative? other group =
      representative? h group := by
  have hRedeclared :
      ∀ m ∈ group,
        (!isRedeclared other group m) =
          !isRedeclared h group m := by
    intro m _
    unfold isRedeclared
    rw [Listing.any_congr
      (fun n hn => hAncestor n hn m.owner.id)]
  unfold representative?
  rw [List.filter_congr hRedeclared]

theorem slotIdentity?_congr
    {m : MemberNode}
    {overridden : List MemberNode}
    (hOwn : table'.identity? m.id = table.identity? m.id)
    (hRest :
      ∀ n ∈ overridden,
        table'.identity? n.id = table.identity? n.id) :
    slotIdentity? table' m overridden =
      slotIdentity? table m overridden := by
  unfold slotIdentity?
  rw [hOwn, Listing.findSome?_congr hRest]

theorem methodSlot?_congr
    {group : List MemberNode}
    (hAncestor :
      ∀ m ∈ group, ∀ a,
        other.isAncestor a m.owner.id =
          h.isAncestor a m.owner.id)
    (hIdentity :
      ∀ m ∈ group,
        table'.identity? m.id = table.identity? m.id) :
    methodSlot? other table' t group =
      methodSlot? h table t group := by
  unfold methodSlot?
  rw [representative?_congr hAncestor]
  apply Option.map_congr
  intro m hFirst
  have hm := mem_of_representative?_eq_some hFirst
  let overridden := group.filter (fun n => n.id != m.id)
  have hRest :
      ∀ n ∈ overridden,
        table'.identity? n.id = table.identity? n.id :=
    fun n hn => hIdentity n (List.mem_of_mem_filter hn)
  have hExposed :
      isExposedHere other table' t m overridden =
        isExposedHere h table t m overridden := by
    unfold isExposedHere
    rw [Listing.any_congr]
    intro n hn
    unfold Hierarchy.isAncestorOrSelf ExportTable.exports
    rw [hAncestor m hm, hRest n hn]
  dsimp only
  rw [slotIdentity?_congr (hIdentity m hm) hRest, hExposed]

/-
  Surfaces agree when the owners of the members have the
  same types above them and the members one identity.
-/
theorem ofMembers_congr
    (hAncestor :
      ∀ m ∈ members, ∀ a,
        other.isAncestor a m.owner.id =
          h.isAncestor a m.owner.id)
    (hIdentity :
      ∀ m ∈ members,
        table'.identity? m.id = table.identity? m.id) :
    ofMembers other table' t members =
      ofMembers h table t members := by
  have hMethods :
      ∀ group ∈ methodGroups (members.filter (reaches t)),
        methodSlot? other table' t group =
          methodSlot? h table t group := by
    intro group hGroup
    have hIn : ∀ m ∈ group, m ∈ members :=
      fun m hm => List.mem_of_mem_filter
        (mem_of_mem_methodGroups hGroup hm hm).1
    exact methodSlot?_congr
      (fun m hm => hAncestor m (hIn m hm))
      (fun m hm => hIdentity m (hIn m hm))
  have hFields :
      ∀ m ∈ (members.filter (reaches t)).filter
          (fun m => m.decl.isField),
        fieldSlot table' m = fieldSlot table m := by
    intro m hm
    unfold fieldSlot
    rw [hIdentity m (List.mem_of_mem_filter
      (List.mem_of_mem_filter hm))]
  unfold ofMembers
  dsimp only
  rw [List.filterMap_congr hMethods,
    List.map_congr_left hFields]

end Agreement

------------------------------------------------------------
-- Groups Of One Name
------------------------------------------------------------

/- The slots that JavaScript sees, with their identities. -/
def named
    (s : Surface) : List (Slot × JsIdentity) :=
  s.slots.filterMap (fun slot =>
    slot.identity.map (fun identity => (slot, identity)))

theorem mem_named_iff
    {s : Surface}
    {e : Slot × JsIdentity} :
    e ∈ s.named ↔
      e.1 ∈ s.slots ∧ e.1.identity = some e.2 := by
  unfold named
  rw [List.mem_filterMap]
  constructor
  · rintro ⟨slot, hSlot, hEntry⟩
    rcases Option.map_eq_some_iff.mp hEntry with
      ⟨identity, hIdentity, rfl⟩
    exact ⟨hSlot, hIdentity⟩
  · rintro ⟨hSlot, hIdentity⟩
    exact ⟨e.1, hSlot, by rw [hIdentity]; rfl⟩

/- What JavaScript sees are slots in their order. -/
theorem map_fst_named_sublist
    (s : Surface) :
    (s.named.map (fun e => e.1)).Sublist s.slots := by
  unfold named
  induction s.slots with
  | nil => exact .slnil
  | cons slot slots ih =>
      cases hIdentity : slot.identity with
      | none =>
          rw [List.filterMap_cons_none (by rw [hIdentity]; rfl)]
          exact ih.cons slot
      | some identity =>
          rw [List.filterMap_cons_some (by rw [hIdentity]; rfl),
            List.map_cons]
          exact ih.cons_cons slot

/- A group holds the slots of one name. -/
theorem mem_groups_iff
    {s : Surface}
    {g : String × List (Slot × JsIdentity)} :
    g ∈ s.groups ↔
      (∃ e ∈ s.named, e.2.name = g.1) ∧
        g.2 = s.named.filter
          (fun e => decide (e.2.name = g.1)) := by
  rw [← Listing.mem_groupsBy_iff]
  exact (Listing.sorted_perm _ _).mem_iff

theorem mem_of_mem_groups
    {s : Surface}
    {g : String × List (Slot × JsIdentity)}
    (hGroup : g ∈ s.groups)
    {e : Slot × JsIdentity} :
    e ∈ g.2 ↔ e ∈ s.named ∧ e.2.name = g.1 := by
  rw [(mem_groups_iff.mp hGroup).2, List.mem_filter,
    decide_eq_true_eq]

end Surface

------------------------------------------------------------
-- Views Of Programs
------------------------------------------------------------

namespace ExportView

/- That a view is what a program shows. -/
structure Shows
    (v : ExportView)
    (p : Program) : Prop where
  program_eq : v.program = p
  types_eq : v.types = p.typeNodes
  members_eq : p.memberNodes = .ok v.members
  table_eq : p.exportTable = .ok v.table
  surfaces_eq :
    p.hierarchy.order.mapM (p.surface v.table) =
      .ok v.surfaces

end ExportView

theorem Program.exportView_eq_ok_iff
    {p : Program}
    {v : ExportView} :
    p.exportView = .ok v ↔ v.Shows p := by
  unfold Program.exportView
  constructor
  · intro hView
    rcases bind_eq_ok_iff.mp hView with
      ⟨table, hTable, hRest⟩
    rcases bind_eq_ok_iff.mp hRest with
      ⟨members, hMembers, hLast⟩
    rcases bind_eq_ok_iff.mp hLast with
      ⟨surfaces, hSurfaces, hEq⟩
    cases hEq
    exact ⟨rfl, rfl, hMembers, hTable, hSurfaces⟩
  · intro hShows
    apply bind_eq_ok_iff.mpr
    refine ⟨v.table, hShows.table_eq, ?_⟩
    apply bind_eq_ok_iff.mpr
    refine ⟨v.members, hShows.members_eq, ?_⟩
    apply bind_eq_ok_iff.mpr
    refine ⟨v.surfaces, hShows.surfaces_eq, ?_⟩
    rcases v with ⟨program, types, members, table, surfaces⟩
    have hProgram : program = p := hShows.program_eq
    have hTypes : types = p.typeNodes := hShows.types_eq
    rw [hProgram, hTypes]
    rfl

/- A surface is made of the members of the types above. -/
theorem Program.surface_eq_ok_iff
    {p : Program}
    {table : ExportTable}
    {t : TypeId}
    {s : Surface} :
    p.surface table t = .ok s ↔
      ∃ node lineage, p.type t = .ok node ∧
        p.lineage t = .ok lineage ∧
          s = Surface.ofMembers p.hierarchy table node
            (lineage.flatMap p.declaredBy) := by
  unfold Program.surface
  constructor
  · intro hSurface
    rcases bind_eq_ok_iff.mp hSurface with
      ⟨node, hNode, hRest⟩
    rcases bind_eq_ok_iff.mp hRest with
      ⟨lineage, hLineage, hEq⟩
    cases hEq
    exact ⟨node, lineage, hNode, hLineage, rfl⟩
  · rintro ⟨node, lineage, hNode, hLineage, rfl⟩
    exact bind_eq_ok_iff.mpr ⟨node, hNode,
      bind_eq_ok_iff.mpr ⟨lineage, hLineage, rfl⟩⟩

/- A surface knows the number of its type. -/
theorem Program.type_id_of_surface_eq_ok
    {p : Program}
    {table : ExportTable}
    {t : TypeId}
    {s : Surface}
    (hSurface : p.surface table t = .ok s) :
    s.type.id = t := by
  rcases surface_eq_ok_iff.mp hSurface with
    ⟨node, lineage, hNode, _, rfl⟩
  exact (type_eq_ok_iff_hasType.mp hNode).1

/- The members of the types above are in the program. -/
theorem Program.Sound.hasMember_of_lineage
    {p : Program}
    (hSound : p.Sound)
    {t : TypeId}
    {lineage : List TypeNode}
    (hLineage : p.lineage t = .ok lineage)
    {m : MemberNode}
    (hMem : m ∈ lineage.flatMap p.declaredBy) :
    p.HasMember m ∧ m.owner ∈ lineage := by
  rcases List.mem_flatMap.mp hMem with ⟨s, hs, hm⟩
  have hType := ((mem_of_lineage_eq_ok hLineage).mp hs).2
  rcases hSound.hasMember_of_mem_declaredBy hType hm with
    ⟨hMember, hOwner⟩
  exact ⟨hMember, hOwner ▸ hs⟩

namespace ExportView.Shows

variable {v : ExportView}
variable {p : Program}
variable (hShows : v.Shows p)

include hShows

theorem mem_members_iff
    {m : MemberNode} :
    m ∈ v.members ↔ p.HasMember m :=
  Program.mem_of_memberNodes_eq_ok hShows.members_eq

/- The surfaces of a view are those of its types. -/
theorem mem_surfaces_iff
    {s : Surface} :
    s ∈ v.surfaces ↔
      ∃ t ∈ p.hierarchy.order, p.surface v.table t = .ok s :=
  mem_of_mapM_eq_ok hShows.surfaces_eq

/- The surface of a type is found under its number. -/
theorem surface_eq_ok_iff
    {t : TypeId}
    {s : Surface} :
    v.surface t = .ok s ↔
      t ∈ p.hierarchy.order ∧ p.surface v.table t = .ok s := by
  unfold ExportView.surface
  constructor
  · intro hSurface
    cases hFind :
        v.surfaces.find? (fun r => r.type.id == t) with
    | none => simp [hFind] at hSurface
    | some r =>
        rw [hFind] at hSurface
        cases hSurface
        rcases hShows.mem_surfaces_iff.mp
            (List.mem_of_find?_eq_some hFind) with
          ⟨u, hu, hFound⟩
        have hSame : s.type.id = t := by
          simpa using List.find?_some hFind
        have hEq : u = t :=
          (Program.type_id_of_surface_eq_ok
            hFound).symm.trans hSame
        exact hEq ▸ ⟨hu, hFound⟩
  · rintro ⟨ht, hFound⟩
    have hMem :=
      hShows.mem_surfaces_iff.mpr ⟨t, ht, hFound⟩
    cases hFind :
        v.surfaces.find? (fun r => r.type.id == t) with
    | none =>
        have hNot := List.find?_eq_none.mp hFind s hMem
        exact absurd (beq_iff_eq.mpr
          (Program.type_id_of_surface_eq_ok hFound)) hNot
    | some r =>
        rcases hShows.mem_surfaces_iff.mp
            (List.mem_of_find?_eq_some hFind) with
          ⟨u, hu, hOther⟩
        have hSame : r.type.id = t := by
          simpa using List.find?_some hFind
        have hEq : u = t :=
          (Program.type_id_of_surface_eq_ok
            hOther).symm.trans hSame
        rw [hEq, hFound] at hOther
        exact congrArg Except.ok
          (Except.ok.inj hOther).symm

theorem mem_surfaces_of_surface_eq_ok
    {t : TypeId}
    {s : Surface}
    (hSurface : v.surface t = .ok s) :
    s ∈ v.surfaces :=
  hShows.mem_surfaces_iff.mpr
    ⟨t, hShows.surface_eq_ok_iff.mp hSurface⟩

/- There is one surface for each type, in their order. -/
theorem map_type_id_surfaces :
    v.surfaces.map (fun s => s.type.id) =
      p.hierarchy.order :=
  map_eq_of_mapM_eq_ok hShows.surfaces_eq
    (fun _ _ hSurface =>
      Program.type_id_of_surface_eq_ok hSurface)

/- A surface of the view is found again. -/
theorem surface_type_id
    {s : Surface}
    (hSurface : s ∈ v.surfaces) :
    v.surface s.type.id = .ok s := by
  rcases hShows.mem_surfaces_iff.mp hSurface with
    ⟨t, ht, hFound⟩
  apply hShows.surface_eq_ok_iff.mpr
  rw [Program.type_id_of_surface_eq_ok hFound]
  exact ⟨ht, hFound⟩

/- There is one surface of each type. -/
theorem eq_of_type_id_eq
    {s r : Surface}
    (hSurface : s ∈ v.surfaces)
    (hOther : r ∈ v.surfaces)
    (hId : r.type.id = s.type.id) :
    r = s := by
  have hFound := hShows.surface_type_id hOther
  rw [hId, hShows.surface_type_id hSurface] at hFound
  exact (Except.ok.inj hFound).symm

/- Where a type stands its supertypes have come before. -/
theorem exists_surface_before
    (hSound : p.Sound)
    {s : Surface}
    {low high : List Surface}
    (hSplit : v.surfaces = low ++ s :: high)
    {t : TypeId}
    (hAbove : Inherits p.types s.type.id t) :
    ∃ r ∈ low, r.type.id = t := by
  have hOrder :
      p.hierarchy.order =
        low.map (fun r => r.type.id) ++
          s.type.id :: high.map (fun r => r.type.id) := by
    rw [← hShows.map_type_id_surfaces, hSplit,
      List.map_append, List.map_cons]
  exact List.mem_map.mp
    (hSound.fits.orders.above_first _ _ _ hOrder _ hAbove)

/- A surface of a view is made for its type. -/
theorem exists_ofMembers_eq
    {s : Surface}
    (hSurface : s ∈ v.surfaces) :
    ∃ lineage, p.lineage s.type.id = .ok lineage ∧
      p.HasType s.type ∧
      s = Surface.ofMembers p.hierarchy v.table s.type
        (lineage.flatMap p.declaredBy) := by
  rcases hShows.mem_surfaces_iff.mp hSurface with
    ⟨t, _, hFound⟩
  rcases Program.surface_eq_ok_iff.mp hFound with
    ⟨node, lineage, hNode, hLineage, rfl⟩
  rcases Program.type_eq_ok_iff_hasType.mp hNode with
    ⟨rfl, hType⟩
  exact ⟨lineage, hLineage, hType, rfl⟩

/- A slot that a type exposes names the type. -/
theorem exposedBy_eq_of_isSome
    {s : Surface}
    (hSurface : s ∈ v.surfaces)
    {slot : Slot}
    (hSlot : slot ∈ s.slots)
    (hExposed : slot.exposedBy.isSome) :
    slot.exposedBy = some s.type := by
  rcases hShows.exists_ofMembers_eq hSurface with
    ⟨_, _, _, hMade⟩
  rw [hMade] at hSlot
  rcases Surface.mem_slots_iff.mp hSlot with hMethod | hField
  · rw [hMethod.exposedBy_eq] at hExposed ⊢
    split
    · rfl
    · rename_i hNot
      rw [if_neg hNot] at hExposed
      cases hExposed
  · rw [hField.eq_fieldSlot] at hExposed
    cases hExposed

/- The slots of a sound program are made of its members. -/
theorem hasMember_slot
    (hSound : p.Sound)
    {s : Surface}
    (hSurface : s ∈ v.surfaces)
    {slot : Slot}
    (hSlot : slot ∈ s.slots) :
    p.HasMember slot.member ∧
      ∀ n ∈ slot.overridden, p.HasMember n := by
  rcases hShows.mem_surfaces_iff.mp hSurface with
    ⟨t, _, hFound⟩
  rcases Program.surface_eq_ok_iff.mp hFound with
    ⟨node, lineage, _, hLineage, rfl⟩
  constructor
  · have hMem := List.mem_of_mem_filter
      (Surface.member_mem_of_mem_slots hSlot)
    exact (hSound.hasMember_of_lineage hLineage hMem).1
  · intro n hn
    have hMem := List.mem_of_mem_filter
      (Surface.mem_of_mem_overridden hSlot hn).1
    exact (hSound.hasMember_of_lineage hLineage hMem).1

/- A slot of a surface is known by the number it stands by. -/
theorem slot_eq_of_member_id_eq
    (hSound : p.Sound)
    {s : Surface}
    (hSurface : s ∈ v.surfaces)
    {a b : Slot}
    (ha : a ∈ s.slots)
    (hb : b ∈ s.slots)
    (hId : a.member.id = b.member.id) :
    a = b := by
  have hMember :=
    (hShows.hasMember_slot hSound hSurface ha).1.eq_of_id_eq
      (hShows.hasMember_slot hSound hSurface hb).1 hId
  rcases hShows.exists_ofMembers_eq hSurface with
    ⟨_, _, _, hMade⟩
  rw [hMade] at ha hb
  exact Surface.eq_of_member_eq ha hb hMember

section Identities

variable {s : Surface}
variable (hSurface : s ∈ v.surfaces)
variable {slot : Slot}
variable (hSlot : slot ∈ s.slots)

include hSurface hSlot

/- The table comes first for the identity of a slot. -/
theorem identity_eq_of_exported
    {identity : JsIdentity}
    (hOwn : v.identity? slot.member = some identity) :
    slot.identity = some identity := by
  rcases hShows.exists_ofMembers_eq hSurface with
    ⟨_, _, _, hMade⟩
  rw [hMade] at hSlot
  rcases Surface.mem_slots_iff.mp hSlot with hMethod | hField
  · rw [hMethod.identity_eq]
    unfold Surface.slotIdentity?
    have hTable :
        v.table.identity? slot.member.id = some identity :=
      hOwn
    rw [hTable]
  · rw [hField.eq_fieldSlot]
    exact hOwn

/- Without an entry, the other declarations are asked. -/
theorem identity_eq_of_unexported
    (hOwn : v.identity? slot.member = none) :
    slot.identity =
      (slot.overridden.findSome? v.identity?).bind
        (fun above => above.passedTo? slot.member.decl) := by
  rcases hShows.exists_ofMembers_eq hSurface with
    ⟨_, _, _, hMade⟩
  rw [hMade] at hSlot
  rcases Surface.mem_slots_iff.mp hSlot with hMethod | hField
  · rw [hMethod.identity_eq]
    unfold Surface.slotIdentity?
    have hTable : v.table.identity? slot.member.id = none :=
      hOwn
    rw [hTable]
    rfl
  · rw [hField.eq_fieldSlot]
    exact hOwn

/- One of them then passes its identity on. -/
theorem exists_passedTo?_of_identity_eq
    (hOwn : v.identity? slot.member = none)
    {identity : JsIdentity}
    (hIdentity : slot.identity = some identity) :
    ∃ n ∈ slot.overridden, ∃ above,
      v.identity? n = some above ∧
        above.passedTo? slot.member.decl = some identity := by
  rw [hShows.identity_eq_of_unexported hSurface hSlot hOwn]
    at hIdentity
  rcases Option.bind_eq_some_iff.mp hIdentity with
    ⟨above, hFound, hPassed⟩
  rcases List.exists_of_findSome?_eq_some hFound with
    ⟨n, hn, hAbove⟩
  exact ⟨n, hn, above, hAbove, hPassed⟩

end Identities

/- An exported member has one identity at all types. -/
theorem identity_eq_of_mem_named
    {s : Surface}
    (hSurface : s ∈ v.surfaces)
    {e : Slot × JsIdentity}
    (hNamed : e ∈ s.named)
    {identity : JsIdentity}
    (hOwn : v.table.identity? e.1.member.id = some identity) :
    e.2 = identity := by
  rcases Surface.mem_named_iff.mp hNamed with
    ⟨hSlot, hIdentity⟩
  have hSame := hShows.identity_eq_of_exported hSurface
    hSlot hOwn
  exact Option.some.inj (hIdentity.symm.trans hSame)

end ExportView.Shows

------------------------------------------------------------
-- Views That Are Found
------------------------------------------------------------

namespace Program.Sound

variable {p : Program}
variable (hSound : p.Sound)

include hSound

theorem exportTable_succeeds :
    Succeeds p.exportTable :=
  hSound.tableInOrder_succeeds
    (fun t ht => (hSound.fits.mem_order t).mp ht)

theorem surface_succeeds
    (table : ExportTable)
    {t : TypeId}
    (hLt : t < p.types.length) :
    Succeeds (p.surface table t) :=
  (type_succeeds hLt).bind (fun _ _ =>
    (hSound.lineage_succeeds hLt).map _)

/- A sound program has a view. -/
theorem exportView_succeeds :
    Succeeds p.exportView := by
  refine hSound.exportTable_succeeds.bind ?_
  intro table _
  refine hSound.memberNodes_succeeds.bind ?_
  intro members _
  refine Succeeds.map ?_ _
  apply mapM_succeeds
  intro t ht
  exact hSound.surface_succeeds table
    ((hSound.fits.mem_order t).mp ht)

end Program.Sound

/- The view of a sound program knows the surface of a type. -/
theorem ExportView.Shows.exists_surface
    {v : ExportView}
    {p : Program}
    (hShows : v.Shows p)
    (hSound : p.Sound)
    {t : TypeId}
    (hLt : t < p.types.length) :
    ∃ s ∈ v.surfaces, v.surface t = .ok s ∧
      p.surface v.table t = .ok s := by
  rcases hSound.surface_succeeds v.table hLt with ⟨s, hs⟩
  have hIn := (hSound.fits.mem_order t).mpr hLt
  exact ⟨s, hShows.mem_surfaces_iff.mpr ⟨t, hIn, hs⟩,
    hShows.surface_eq_ok_iff.mpr ⟨hIn, hs⟩, hs⟩

/- That surface is made for the type itself. -/
theorem ExportView.Shows.exists_surface_of_hasType
    {v : ExportView}
    {p : Program}
    (hShows : v.Shows p)
    (hSound : p.Sound)
    {t : TypeNode}
    (hType : p.HasType t) :
    ∃ s ∈ v.surfaces, v.surface t.id = .ok s ∧
      s.type = t := by
  rcases hShows.exists_surface hSound hType.lt_length with
    ⟨s, hSurface, hFound, hMade⟩
  rcases hShows.exists_ofMembers_eq hSurface with
    ⟨_, _, hOwn, _⟩
  exact ⟨s, hSurface, hFound, hOwn.eq_of_id_eq hType
    (Program.type_id_of_surface_eq_ok hMade)⟩

end JsExport
