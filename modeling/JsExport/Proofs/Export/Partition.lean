import JsExport.Proofs.Export.Agreement
import Mathlib.Data.Finset.Max

/-
  The slots of a type share out its members.

  Of the declarations of a method one is declared furthest
  below, and no subtype of its owner declares the method
  again; so every method has a declaration that stands for
  it and no group is lost.  What stands for a group and what
  it overrides are the group again.  Hence the declarations
  of all slots are the members that objects of the type
  have, each once.

  Main declarations:
    * `Slot.declarations`
    * `Hierarchy.Fits.exists_representative?_eq`
    * `Surface.exists_methodSlot?_eq`
    * `Surface.flatten_methodGroups_perm`
    * `Surface.flatMap_declarations_perm`
    * `slots_share_out_members`
-/

namespace JsExport

open Lookup

------------------------------------------------------------
-- Declarations Of A Slot
------------------------------------------------------------

/- What stands for a slot, and what it overrides. -/
def Slot.declarations
    (slot : Slot) : List MemberNode :=
  slot.member :: slot.overridden

/- A member is asked for among the declarations of a slot. -/
theorem Slot.holds_iff
    {slot : Slot}
    {id : MemberId} :
    (slot.member.id == id ||
        slot.overridden.any (fun n => n.id == id)) = true ↔
      ∃ m ∈ slot.declarations, m.id = id := by
  unfold declarations
  simp only [Bool.or_eq_true, beq_iff_eq, List.any_eq_true,
    List.mem_cons, exists_eq_or_imp]

------------------------------------------------------------
-- Methods With Someone To Stand For Them
------------------------------------------------------------

/- One of the declarations of a method is declared last. -/
theorem Hierarchy.Fits.exists_not_isRedeclared
    {types : List TypeDecl}
    {h : Hierarchy}
    (hFits : h.Fits types)
    {group : List MemberNode}
    (hSome : group ≠ []) :
    ∃ m ∈ group, ¬ Surface.isRedeclared h group m := by
  rcases hFits.exists_rank with ⟨rank, _, hRank⟩
  have hFinite : group.toFinset.Nonempty :=
    List.toFinset_nonempty_iff group |>.mpr hSome
  rcases group.toFinset.exists_max_image
      (fun m => rank m.owner.id) hFinite with
    ⟨m, hm, hMax⟩
  refine ⟨m, List.mem_toFinset.mp hm, ?_⟩
  intro hRedeclared
  rcases List.any_eq_true.mp hRedeclared with
    ⟨n, hn, hBelow⟩
  have hLess := hRank _ _ ((hFits.isAncestor_iff _ _).mp hBelow)
  have hMost := hMax n (List.mem_toFinset.mpr hn)
  omega

/- So every method has a declaration that stands for it. -/
theorem Hierarchy.Fits.exists_representative?_eq
    {types : List TypeDecl}
    {h : Hierarchy}
    (hFits : h.Fits types)
    {group : List MemberNode}
    (hSome : group ≠ []) :
    ∃ m, Surface.representative? h group = some m := by
  rcases hFits.exists_not_isRedeclared hSome with
    ⟨m, hm, hLatest⟩
  have hKept :
      m ∈ group.filter
        (fun n => !Surface.isRedeclared h group n) :=
    List.mem_filter.mpr ⟨hm, by simpa using hLatest⟩
  rcases Option.isSome_iff_exists.mp
      (List.isSome_head?.mpr (List.ne_nil_of_mem hKept)) with
    ⟨first, hFirst⟩
  apply Option.isSome_iff_exists.mp
  unfold Surface.representative?
  dsimp only
  rw [hFirst, Option.isSome_or]
  exact Bool.or_true _

namespace Surface

variable {h : Hierarchy}
variable {table : ExportTable}
variable {t : TypeNode}
variable {members : List MemberNode}

------------------------------------------------------------
-- Groups That Are Kept
------------------------------------------------------------

/- A member and all others of a group are the group. -/
theorem cons_filter_perm
    {group : List MemberNode}
    (hNodup : (group.map (fun m => m.id)).Nodup)
    {m : MemberNode}
    (hm : m ∈ group) :
    (m :: group.filter (fun n => n.id != m.id)).Perm
      group := by
  have hOthers :
      group.filter (fun n => n.id != m.id) =
        group.erase m := by
    rw [(List.Nodup.of_map _ hNodup).erase_eq_filter]
    apply List.filter_congr
    intro n hn
    have hSame : n.id = m.id ↔ n = m :=
      ⟨List.inj_on_of_nodup_map hNodup hn hm,
        congrArg MemberNode.id⟩
    rw [Bool.eq_iff_iff, bne_iff_ne, bne_iff_ne, ne_eq,
      ne_eq, hSame]
  rw [hOthers]
  exact (List.perm_cons_erase hm).symm

/- A method with declarations has a slot for all of them. -/
theorem exists_methodSlot?_eq
    {types : List TypeDecl}
    (hFits : h.Fits types)
    {group : List MemberNode}
    (hNodup : (group.map (fun m => m.id)).Nodup)
    (hSome : group ≠ []) :
    ∃ slot, methodSlot? h table t group = some slot ∧
      slot.declarations.Perm group := by
  rcases hFits.exists_representative?_eq hSome with
    ⟨m, hFirst⟩
  refine ⟨_, congrArg (Option.map _) hFirst, ?_⟩
  exact cons_filter_perm hNodup
    (mem_of_representative?_eq_some hFirst)

/- The groups have every method once. -/
theorem flatten_methodGroups_perm
    (hNodup : members.Nodup) :
    (methodGroups members).flatten.Perm
      (members.filter (fun m => m.decl.isCallable)) := by
  have hFlat : (methodGroups members).flatten.Nodup := by
    apply List.nodup_flatten.mpr
    refine ⟨?_, pairwise_methodGroups⟩
    intro group hGroup
    rcases mem_methodGroups_iff.mp hGroup with
      ⟨first, _, _, rfl⟩
    exact hNodup.filter _
  apply (List.perm_ext_iff_of_nodup hFlat
    (hNodup.filter _)).mpr
  intro m
  rw [List.mem_flatten, List.mem_filter]
  constructor
  · rintro ⟨group, hGroup, hm⟩
    have hBoth := mem_of_mem_methodGroups hGroup hm hm
    exact ⟨hBoth.1, hBoth.2.1⟩
  · rintro ⟨hm, hCallable⟩
    refine ⟨_, mem_methodGroups_iff.mpr
      ⟨m, hm, hCallable, rfl⟩, ?_⟩
    simp [hm, hCallable]

/- When all groups have slots, no declaration is lost. -/
theorem flatMap_declarations_filterMap_perm
    {slot? : List MemberNode → Option Slot}
    {groups : List (List MemberNode)}
    (hEach :
      ∀ group ∈ groups, ∃ slot, slot? group = some slot ∧
        slot.declarations.Perm group) :
    ((groups.filterMap slot?).flatMap
      Slot.declarations).Perm groups.flatten := by
  induction groups with
  | nil => exact .nil
  | cons group groups ih =>
      rcases hEach group List.mem_cons_self with
        ⟨slot, hSlot, hPerm⟩
      rw [List.filterMap_cons_some hSlot, List.flatMap_cons,
        List.flatten_cons]
      exact hPerm.append (ih (fun other hOther =>
        hEach other (List.mem_cons_of_mem group hOther)))

/-
  The declarations of all slots are the members within
  reach, each once.
-/
theorem flatMap_declarations_perm
    {types : List TypeDecl}
    (hFits : h.Fits types)
    (hNodup : (members.map (fun m => m.id)).Nodup) :
    ((ofMembers h table t members).slots.flatMap
      Slot.declarations).Perm (members.filter (reaches t)) := by
  let visible := members.filter (reaches t)
  have hIds : (visible.map (fun m => m.id)).Nodup :=
    hNodup.sublist (List.filter_sublist.map _)
  have hMethods :
      (((methodGroups visible).filterMap
          (methodSlot? h table t)).flatMap
            Slot.declarations).Perm
        (visible.filter (fun m => m.decl.isCallable)) := by
    refine (flatMap_declarations_filterMap_perm ?_).trans
      (flatten_methodGroups_perm (List.Nodup.of_map _ hIds))
    intro group hGroup
    rcases mem_methodGroups_iff.mp hGroup with
      ⟨first, hFirst, hCallable, rfl⟩
    have hSome :
        visible.filter (fun n =>
          n.decl.isCallable &&
            decide (n.decl.signature? =
              first.decl.signature?)) ≠ [] := by
      apply List.ne_nil_of_mem (a := first)
      simp [hFirst, hCallable]
    exact exists_methodSlot?_eq hFits
      (hIds.sublist (List.filter_sublist.map _)) hSome
  have hFields :
      ((visible.filter (fun m => m.decl.isField)).map
          (fieldSlot table)).flatMap Slot.declarations =
        visible.filter (fun m => !m.decl.isCallable) := by
    have hOne :
        (fun m => (fieldSlot table m).declarations) =
          fun m => [m] := rfl
    rw [List.flatMap_map, hOne, List.flatMap_singleton']
    apply List.filter_congr
    intro m _
    exact m.decl.isField_eq
  unfold ofMembers
  dsimp only
  rw [List.flatMap_append, hFields]
  exact (hMethods.append_right _).trans
    (List.filter_append_perm _ _)

------------------------------------------------------------
-- Declarations Of One Slot
------------------------------------------------------------

/- With a method a slot has all methods of its signature. -/
theorem mem_declarations_iff_of_isCallable
    (hNodup : (members.map (fun m => m.id)).Nodup)
    {slot : Slot}
    (hSlot : slot ∈ (ofMembers h table t members).slots)
    {m : MemberNode}
    (hm : m ∈ slot.declarations)
    (hCallable : m.decl.isCallable)
    (n : MemberNode) :
    n ∈ slot.declarations ↔
      n ∈ members.filter (reaches t) ∧
        n.decl.signature? = m.decl.signature? := by
  rcases mem_slots_iff.mp hSlot with hMethod | hField
  · rcases hMethod.from_group with
      ⟨group, hGroup, hFirst, hRest⟩
    have hIn := mem_of_representative?_eq_some hFirst
    rcases mem_methodGroups_iff.mp hGroup with
      ⟨first, _, _, rfl⟩
    have hPerm := cons_filter_perm
      (hNodup.sublist ((List.filter_sublist.trans
        List.filter_sublist).map _)) hIn
    rw [← hRest] at hPerm
    have hGroup := (hPerm.mem_iff (a := m)).mp hm
    have hSame := (List.mem_filter.mp hGroup).2
    simp only [Bool.and_eq_true, decide_eq_true_eq] at hSame
    unfold Slot.declarations
    rw [hPerm.mem_iff, List.mem_filter, Bool.and_eq_true,
      decide_eq_true_eq, hSame.2]
    refine and_congr_right (fun _ => and_iff_right_of_imp ?_)
    intro hKey
    exact MemberDecl.isCallable_of_signature?_eq hCallable
      (hKey.trans hSame.2.symm)
  · have hSelf : m = slot.member := by
      unfold Slot.declarations at hm
      rw [hField.eq_fieldSlot] at hm
      exact List.mem_singleton.mp hm
    have hNot := hField.isField
    rw [← hSelf, MemberDecl.isField_eq, hCallable] at hNot
    cases hNot

------------------------------------------------------------
-- The Slot Of A Member
------------------------------------------------------------

section Shared

variable {s : Surface}
variable (hNodup :
  ((s.slots.flatMap Slot.declarations).map
    (fun m => m.id)).Nodup)

include hNodup

/- No two slots have declarations of one number. -/
theorem slot_eq_of_id_eq
    {a b : Slot}
    (ha : a ∈ s.slots)
    (hb : b ∈ s.slots)
    {m n : MemberNode}
    (hm : m ∈ a.declarations)
    (hn : n ∈ b.declarations)
    (hId : m.id = n.id) :
    a = b := by
  rw [List.map_flatMap, List.nodup_flatMap] at hNodup
  by_contra hNe
  have hSymm :
      Std.Symm (Function.onFun List.Disjoint
        (fun slot : Slot => slot.declarations.map
          (fun m => m.id))) :=
    ⟨fun _ _ hDisjoint => List.Disjoint.symm hDisjoint⟩
  have hApart := hNodup.2.forall ha hb hNe
  exact hApart (List.mem_map_of_mem hm)
    (hId ▸ List.mem_map_of_mem hn)

/- A member is found in the slot that has it. -/
theorem slotWith?_eq_some_iff
    {id : MemberId}
    {slot : Slot} :
    s.slotWith? id = some slot ↔
      slot ∈ s.slots ∧ ∃ m ∈ slot.declarations, m.id = id := by
  unfold slotWith?
  constructor
  · intro hFound
    have hHolds := List.find?_some hFound
    exact ⟨List.mem_of_find?_eq_some hFound,
      Slot.holds_iff.mp hHolds⟩
  · rintro ⟨hSlot, m, hm, rfl⟩
    have hSome :
        (s.slots.find? (fun e =>
          e.member.id == m.id ||
            e.overridden.any (fun n => n.id == m.id))).isSome :=
      List.find?_isSome.mpr
        ⟨slot, hSlot, Slot.holds_iff.mpr ⟨m, hm, rfl⟩⟩
    rcases Option.isSome_iff_exists.mp hSome with
      ⟨other, hOther⟩
    have hHolds := List.find?_some hOther
    rcases Slot.holds_iff.mp hHolds with ⟨n, hn, hId⟩
    rw [hOther, slot_eq_of_id_eq hNodup
      (List.mem_of_find?_eq_some hOther) hSlot hn hm hId]

end Shared

end Surface

------------------------------------------------------------
-- Members Within Reach
------------------------------------------------------------

namespace Program.Sound

variable {p : Program}
variable (hSound : p.Sound)

include hSound

/- The members within reach are those that objects have. -/
theorem mem_filter_reaches_iff
    {t : TypeNode}
    (hType : p.HasType t)
    {lineage : List TypeNode}
    (hLineage : p.lineage t.id = .ok lineage)
    {m : MemberNode} :
    m ∈ (lineage.flatMap p.declaredBy).filter
        (Surface.reaches t) ↔
      p.Reached t m := by
  constructor
  · exact hSound.reached_of_mem hType hLineage
  · intro hReached
    have hAbove :
        m.owner.id = t.id ∨ Inherits p.types t.id m.owner.id := by
      rcases hReached.owned_or_inherited with
        rfl | ⟨hInherits, _⟩
      · exact .inl rfl
      · exact .inr hInherits
    have hOwner : m.owner ∈ lineage :=
      (mem_of_lineage_eq_ok hLineage).mpr
        ⟨(hSound.fits.mem_ancestry_iff hType.lt_length
          _).mpr hAbove, hReached.member.2.2⟩
    have hAccess :
        m.owner.id = t.id ∨ m.decl.isPrivate = false := by
      rcases hReached.owned_or_inherited with
        rfl | ⟨_, hOpen⟩
      · exact .inl rfl
      · exact .inr hOpen
    apply List.mem_filter.mpr
    refine ⟨List.mem_flatMap.mpr ⟨m.owner, hOwner,
      hSound.mem_declaredBy_of_hasMember hReached.member⟩, ?_⟩
    simpa [Surface.reaches, hReached.isStatic_eq,
      hReached.isConstructor_eq] using hAccess

/- A type and those above it list no number twice. -/
theorem nodup_ids_of_lineage
    (hOnce : ∀ d ∈ p.types, d.members.Nodup)
    {t : TypeId}
    (hLt : t < p.types.length)
    {lineage : List TypeNode}
    (hLineage : p.lineage t = .ok lineage) :
    ((lineage.flatMap p.declaredBy).map
      (fun m => m.id)).Nodup := by
  apply (hSound.nodup_members_of_lineage hOnce hLt
    hLineage).map_on
  intro m hm n hn hId
  exact (hSound.hasMember_of_lineage hLineage
    hm).1.eq_of_id_eq
      (hSound.hasMember_of_lineage hLineage hn).1 hId

end Program.Sound

/- Methods override each other by their names and parameters. -/
theorem MemberDecl.signature?_eq_iff
    {m n : MemberDecl}
    {c d : Callable}
    (hm : m.callable? = some c)
    (hn : n.callable? = some d) :
    n.signature? = m.signature? ↔
      m.name = n.name ∧ c.paramTypes = d.paramTypes := by
  unfold signature?
  rw [hm, hn, Option.map_some, Option.map_some,
    Option.some.injEq, Prod.mk.injEq, eq_comm,
    eq_comm (a := d.paramTypes)]

namespace ExportView.Shows

variable {v : ExportView}
variable {p : Program}
variable (hShows : v.Shows p)
variable (hSound : p.Sound)
variable {s : Surface}
variable (hSurface : s ∈ v.surfaces)

include hShows hSound hSurface

/- A field has a slot of its own. -/
theorem exists_slot_of_isField
    {m : MemberNode}
    (hm : p.Reached s.type m)
    (hField : m.decl.isField) :
    ∃ slot ∈ s.slots, slot.declarations = [m] := by
  rcases hShows.exists_ofMembers_eq hSurface with
    ⟨lineage, hLineage, hType, hMade⟩
  rw [← hSound.mem_filter_reaches_iff hType hLineage] at hm
  refine ⟨Surface.fieldSlot v.table m, ?_, rfl⟩
  rw [hMade]
  exact Surface.mem_slots_iff.mpr (.inr ⟨hm, hField, rfl⟩)

variable (hOnce : ∀ d ∈ p.types, d.members.Nodup)

include hOnce

/- No number stands twice in the slots of a type. -/
theorem nodup_ids_declarations :
    ((s.slots.flatMap Slot.declarations).map
      (fun m => m.id)).Nodup := by
  rcases hShows.exists_ofMembers_eq hSurface with
    ⟨lineage, hLineage, hType, hMade⟩
  have hIds := hSound.nodup_ids_of_lineage hOnce
    hType.lt_length hLineage
  rw [hMade]
  apply ((Surface.flatMap_declarations_perm hSound.fits
    hIds).map _).nodup_iff.mpr
  exact hIds.sublist (List.filter_sublist.map _)

/- The slots of a type have the members of its objects. -/
theorem exists_mem_declarations_iff
    (m : MemberNode) :
    (∃ slot ∈ s.slots, m ∈ slot.declarations) ↔
      p.Reached s.type m := by
  rcases hShows.exists_ofMembers_eq hSurface with
    ⟨lineage, hLineage, hType, hMade⟩
  have hPerm :
      (s.slots.flatMap Slot.declarations).Perm
        ((lineage.flatMap p.declaredBy).filter
          (Surface.reaches s.type)) := by
    rw [hMade]
    exact Surface.flatMap_declarations_perm hSound.fits
      (hSound.nodup_ids_of_lineage hOnce hType.lt_length
        hLineage)
  rw [← hSound.mem_filter_reaches_iff hType hLineage,
    ← hPerm.mem_iff, List.mem_flatMap]

/- Methods are in one slot when they share a signature. -/
theorem in_one_slot_iff
    {m n : MemberNode}
    (hm : p.Reached s.type m)
    (hn : p.Reached s.type n)
    (hCallable : m.decl.isCallable) :
    (∃ slot ∈ s.slots,
      m ∈ slot.declarations ∧ n ∈ slot.declarations) ↔
        n.decl.signature? = m.decl.signature? := by
  have hIn := (hShows.exists_mem_declarations_iff hSound
    hSurface hOnce m).mpr hm
  rcases hShows.exists_ofMembers_eq hSurface with
    ⟨lineage, hLineage, hType, hMade⟩
  rw [← hSound.mem_filter_reaches_iff hType hLineage] at hn
  have hEach := fun slot (hSlot : slot ∈ s.slots) hm =>
    Surface.mem_declarations_iff_of_isCallable
      (hSound.nodup_ids_of_lineage hOnce hType.lt_length
        hLineage) (hMade ▸ hSlot) hm hCallable n
  constructor
  · rintro ⟨slot, hSlot, hFirst, hSecond⟩
    exact ((hEach slot hSlot hFirst).mp hSecond).2
  · intro hSame
    rcases hIn with ⟨slot, hSlot, hFirst⟩
    exact ⟨slot, hSlot, hFirst,
      (hEach slot hSlot hFirst).mpr ⟨hn, hSame⟩⟩

end ExportView.Shows

------------------------------------------------------------
-- Slots Of Built Programs
------------------------------------------------------------

/-
  Where no type lists a member twice, the slots of a type
  share out the members that its objects have: each is in
  one slot, once, and nothing else is in any.  Two methods
  are in one slot when they have the same name and the same
  parameter types; a field is in a slot alone.  What is
  found for a member is the slot that has it.
-/
theorem slots_share_out_members
    {draft : Draft}
    {p : Program}
    (hBuild : draft.build = .ok p)
    (hOnce : ∀ d ∈ p.types, d.members.Nodup) :
    ∃ v, p.exportView = .ok v ∧
      ∀ t < p.types.length, ∃ s, v.surface t = .ok s ∧
        s.type.id = t ∧
        ((s.slots.flatMap Slot.declarations).map
          (fun m => m.id)).Nodup ∧
        (∀ m, (∃ slot ∈ s.slots, m ∈ slot.declarations) ↔
          p.Reached s.type m) ∧
        (∀ m n c d, p.Reached s.type m →
          p.Reached s.type n →
          m.decl.callable? = some c →
          n.decl.callable? = some d →
            ((∃ slot ∈ s.slots, m ∈ slot.declarations ∧
                n ∈ slot.declarations) ↔
              m.decl.name = n.decl.name ∧
                c.paramTypes = d.paramTypes)) ∧
        (∀ m, p.Reached s.type m → m.decl.isField →
          ∃ slot ∈ s.slots,
            slot.member = m ∧ slot.overridden = []) ∧
        (∀ id slot, s.slotWith? id = some slot ↔
          slot ∈ s.slots ∧
            ∃ m ∈ slot.declarations, m.id = id) ∧
        ∀ id, (s.slotWith? id).isSome ↔
          ∃ m, p.Reached s.type m ∧ m.id = id := by
  have hSound := Program.sound_of_build hBuild
  rcases hSound.exportView_succeeds with ⟨v, hView⟩
  have hShows := Program.exportView_eq_ok_iff.mp hView
  refine ⟨v, hView, ?_⟩
  intro t hLt
  rcases hShows.exists_surface hSound hLt with
    ⟨s, hSurface, hFound, hMade⟩
  have hNodup := hShows.nodup_ids_declarations hSound
    hSurface hOnce
  have hMem := hShows.exists_mem_declarations_iff hSound
    hSurface hOnce
  refine ⟨s, hFound, Program.type_id_of_surface_eq_ok hMade,
    hNodup, hMem, ?_, ?_,
    fun id slot => Surface.slotWith?_eq_some_iff hNodup, ?_⟩
  · intro m n c d hm hn hc hd
    rw [← MemberDecl.signature?_eq_iff hc hd]
    apply hShows.in_one_slot_iff hSound hSurface hOnce hm hn
    unfold MemberDecl.isCallable
    rw [hc]
    rfl
  · intro m hm hField
    rcases hShows.exists_slot_of_isField hSound hSurface
        hm hField with
      ⟨slot, hSlot, hOnly⟩
    rcases List.cons_eq_cons.mp hOnly with ⟨hSelf, hNone⟩
    exact ⟨slot, hSlot, hSelf, hNone⟩
  · intro id
    rw [Option.isSome_iff_exists]
    simp only [Surface.slotWith?_eq_some_iff hNodup, ← hMem]
    constructor
    · rintro ⟨slot, hSlot, m, hm, hId⟩
      exact ⟨m, ⟨slot, hSlot, hm⟩, hId⟩
    · rintro ⟨m, ⟨slot, hSlot, hm⟩, hId⟩
      exact ⟨slot, hSlot, m, hm, hId⟩

/-
  A clock ticks as its gears do, and as all that is ticking;
  it can also be told how often.  How gears are oiled and
  how they are made is not for the clock.
-/
def Draft.clock : Draft :=
  let method (params : List TypeExpr) : MemberShape :=
    .plain (.method .void) params .empty
  ⟨[.plain "Ticking" .interfaceKind .none [0],
      .plain "Gear" .classKind .none [1, 2, 3, 4],
      { TypeDecl.plain "Clock" .classKind .none [5] with
        superClass := some 1
        interfaces := [0] }],
    [.plain "tick" 0 (method []) .untagged,
      .plain "tick" 1 (method []) .untagged,
      { MemberDecl.plain "oil" 1 (method []) .untagged with
        access := .owner },
      { MemberDecl.plain "make" 1 (method []) .untagged with
        isStatic := true },
      .plain "teeth" 1 (.field ⟨.prim .int, .absent⟩) .untagged,
      .plain "tick" 2 (method [.prim .int]) .untagged]⟩

/- The clock has both ticks of its gears in one slot. -/
theorem clock_has_ticks_in_one_slot :
    ∃ p v s, Draft.clock.build = .ok p ∧
      (∀ d ∈ p.types, d.members.Nodup) ∧
      p.exportView = .ok v ∧ v.surface 2 = .ok s ∧
      s.slots.map (fun slot =>
          slot.declarations.map (fun m => m.id)) =
        [[5], [1, 0], [4]] ∧
      (∃ slot, s.slotWith? 0 = some slot ∧
        slot.member.id = 1) ∧
      s.slotWith? 2 = none ∧
      ∃ m, p.Reached s.type m ∧ m.id = 4 := by
  have hBuilt : ∃ p, Draft.clock.build = .ok p := ⟨_, rfl⟩
  rcases hBuilt with ⟨p, hBuild⟩
  rcases Draft.build_eq_ok_iff.mp hBuild with
    ⟨_, _, hTypes, _⟩
  have hOnce : ∀ d ∈ p.types, d.members.Nodup := by
    rw [hTypes]
    decide
  rcases slots_share_out_members hBuild hOnce with
    ⟨v, hView, hEach⟩
  rcases hEach 2 (by rw [hTypes]; decide) with
    ⟨s, hSurface, _, _, hMem, _, _, hFind, _⟩
  have hSeen :
      (Draft.clock.build.toOption.bind (fun p =>
        p.exportView.toOption.bind (fun v =>
          (v.surface 2).toOption.map (fun s =>
            s.slots.map (fun slot =>
              slot.declarations.map (fun m => m.id)))))) =
        some [[5], [1, 0], [4]] := by
    decide +kernel
  simp only [hBuild, hView, hSurface, Except.toOption,
    Option.bind_some, Option.map_some, Option.some.injEq]
    at hSeen
  have hHeld :
      ∀ ids ∈ [[5], [1, 0], [4]], ∃ slot ∈ s.slots,
        slot.declarations.map (fun m => m.id) = ids := by
    rw [← hSeen]
    intro ids hIds
    exact List.mem_map.mp hIds
  refine ⟨p, v, s, hBuild, hOnce, hView, hSurface, hSeen,
    ?_, ?_, ?_⟩
  · rcases hHeld [1, 0] (by decide) with ⟨slot, hSlot, hIds⟩
    refine ⟨slot, (hFind 0 slot).mpr ⟨hSlot, ?_⟩,
      (List.cons_eq_cons.mp hIds).1⟩
    apply List.mem_map.mp
    rw [hIds]
    decide
  · apply Option.eq_none_iff_forall_ne_some.mpr
    intro slot hFound
    rcases (hFind 2 slot).mp hFound with ⟨hSlot, hHolds⟩
    have hIds := List.mem_map_of_mem
      (f := fun slot =>
        slot.declarations.map (fun m => m.id)) hSlot
    rw [hSeen] at hIds
    have hNot :
        ∀ ids ∈ [[5], [1, 0], [4]], 2 ∉ ids := by decide
    exact hNot _ hIds (List.mem_map.mpr hHolds)
  · rcases hHeld [4] (by decide) with ⟨slot, hSlot, hIds⟩
    exact ⟨slot.member,
      (hMem _).mp ⟨slot, hSlot, List.mem_cons_self⟩,
      (List.cons_eq_cons.mp hIds).1⟩

end JsExport
