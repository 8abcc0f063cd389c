import JsExport.Proofs.Export.Surface

/-
  Who stands for the slots of a surface.

  Where no type lists a member twice, a member stands for at
  most one slot.  Where no type has two methods of one
  signature, what a type declares itself stands for its slot:
  it comes first in its group, no subtype declares it again,
  and above an interface there is no class to run instead.

  Main declarations:
    * `Program.MethodsApart`
    * `Surface.nodup_members_slots`
    * `Surface.nodup_slots_of_methods`
    * `Surface.representative?_cons`
    * `ExportView.Shows.nodup_members_slots`
    * `ExportView.Shows.exists_slot_of_own`
-/

namespace JsExport

open Lookup

------------------------------------------------------------
-- Slots Of Different Members
------------------------------------------------------------

namespace Surface

variable {h : Hierarchy}
variable {table : ExportTable}
variable {t : TypeNode}
variable {members : List MemberNode}

/- No method is in two groups. -/
theorem pairwise_methodGroups :
    (methodGroups members).Pairwise List.Disjoint := by
  unfold methodGroups Listing.groupsBy
  rw [List.map_map, List.pairwise_map]
  apply (Listing.nodup_distinct _).imp
  intro key other hNe m hm hmOther
  have hKey := of_decide_eq_true (List.mem_filter.mp hm).2
  have hOther :=
    of_decide_eq_true (List.mem_filter.mp hmOther).2
  exact hNe (hKey.symm.trans hOther)

/- The members that slots stand by, methods before fields. -/
theorem map_member_slots :
    (ofMembers h table t members).slots.map
        (fun slot => slot.member) =
      (methodGroups (members.filter (reaches t))).filterMap
          (representative? h) ++
        (members.filter (reaches t)).filter
          (fun m => m.decl.isField) := by
  have hMethod :
      ∀ group : List MemberNode,
        (methodSlot? h table t group).map
            (fun slot => slot.member) =
          representative? h group := by
    intro group
    unfold methodSlot?
    rw [Option.map_map]
    exact Option.map_id'
  have hField :
      (fun slot => slot.member) ∘ fieldSlot table = id := rfl
  unfold ofMembers
  dsimp only
  rw [List.map_append, List.map_filterMap, List.map_map,
    hField, List.map_id]
  simp only [hMethod]

/- No two slots of methods stand by one member. -/
theorem nodup_members_of_methods :
    ((methodGroups members).filterMap
      (representative? h)).Nodup := by
  apply List.pairwise_filterMap.mpr
  apply pairwise_methodGroups.imp
  intro group other hApart m hm n hn hSame
  apply hApart (mem_of_representative?_eq_some hm)
  rw [hSame]
  exact mem_of_representative?_eq_some hn

/- What stands for a slot of methods is a method. -/
theorem isCallable_of_mem_methods
    {m : MemberNode}
    (hm :
      m ∈ (methodGroups members).filterMap
        (representative? h)) :
    m.decl.isCallable := by
  rcases List.mem_filterMap.mp hm with
    ⟨group, hGroup, hFirst⟩
  have hIn := mem_of_representative?_eq_some hFirst
  exact (mem_of_mem_methodGroups hGroup hIn hIn).2.1

/- A member that is listed once stands for at most one slot. -/
theorem nodup_members_slots
    (hNodup : members.Nodup) :
    ((ofMembers h table t members).slots.map
      (fun slot => slot.member)).Nodup := by
  rw [map_member_slots, List.nodup_append]
  refine ⟨nodup_members_of_methods,
    (hNodup.filter _).filter _, ?_⟩
  intro m hm n hn hSame
  have hCallable := isCallable_of_mem_methods hm
  have hField : n.decl.isField := (List.mem_filter.mp hn).2
  rw [← hSame, MemberDecl.isField_eq, hCallable] at hField
  cases hField

/- A method stands for at most one slot in any case. -/
theorem nodup_slots_of_methods :
    ((ofMembers h table t members).slots.filter (fun slot =>
      slot.member.decl.isCallable)).Nodup := by
  apply List.Nodup.of_map (fun slot : Slot => slot.member)
  have hFields :
      (((members.filter (reaches t)).filter
          (fun m => m.decl.isField)).filter
        (fun m => m.decl.isCallable)) = [] := by
    apply List.filter_eq_nil_iff.mpr
    intro m hm hCallable
    have hField : m.decl.isField := (List.mem_filter.mp hm).2
    rw [MemberDecl.isField_eq, hCallable] at hField
    cases hField
  have hMap := List.filter_map
    (f := fun slot : Slot => slot.member)
    (p := fun m => m.decl.isCallable)
    (l := (ofMembers h table t members).slots)
  rw [Function.comp_def] at hMap
  rw [← hMap, map_member_slots, List.filter_append, hFields,
    List.append_nil]
  exact nodup_members_of_methods.filter _

------------------------------------------------------------
-- Slots Of Own Members
------------------------------------------------------------

/-
  What comes first in a group stands for it, unless it is
  declared again by a subtype, or stands in an interface and
  leaves the code to a class.
-/
theorem representative?_cons
    {m : MemberNode}
    {rest : List MemberNode}
    (hLatest : ¬ isRedeclared h (m :: rest) m)
    (hCode :
      m.owner.decl.isInterface →
        ∀ n ∈ rest, n.owner.decl.isInterface) :
    representative? h (m :: rest) = some m := by
  have hKept :
      (m :: rest).filter
          (fun n => !isRedeclared h (m :: rest) n) =
        m :: rest.filter
          (fun n => !isRedeclared h (m :: rest) n) :=
    List.filter_cons_of_pos (by simpa using hLatest)
  unfold representative?
  rw [hKept]
  by_cases hInterface : m.owner.decl.isInterface
  · have hNone :
        (m :: rest.filter
            (fun n => !isRedeclared h (m :: rest) n)).find?
          (fun n => !n.owner.decl.isInterface) = none := by
      rw [List.find?_eq_none]
      intro n hn
      rcases List.mem_cons.mp hn with rfl | hRest
      · simpa using hInterface
      · simpa using
          hCode hInterface n (List.mem_of_mem_filter hRest)
    dsimp only
    rw [hNone]
    rfl
  · dsimp only
    rw [List.find?_cons_of_pos (by simpa using hInterface)]
    rfl

end Surface

/- That no type has two methods of one signature. -/
def Program.MethodsApart
    (p : Program) : Prop :=
  ∀ m n, p.HasMember m → p.HasMember n →
    m.owner = n.owner →
      m.decl.isInstanceMethod → n.decl.isInstanceMethod →
        m.decl.signature? = n.decl.signature? → m = n

namespace Program.Sound

variable {p : Program}
variable (hSound : p.Sound)

include hSound

/- A type and those above it are all different. -/
theorem nodup_lineage
    {t : TypeId}
    (hLt : t < p.types.length)
    {lineage : List TypeNode}
    (hLineage : p.lineage t = .ok lineage) :
    lineage.Nodup := by
  apply List.Nodup.of_map (fun s : TypeNode => s.id)
  rw [map_id_of_lineage_eq_ok hLineage]
  exact hSound.fits.nodup_ancestry hLt

/- A type and those above it have no member in common. -/
theorem nodup_members_of_lineage
    (hOnce : ∀ d ∈ p.types, d.members.Nodup)
    {t : TypeId}
    (hLt : t < p.types.length)
    {lineage : List TypeNode}
    (hLineage : p.lineage t = .ok lineage) :
    (lineage.flatMap p.declaredBy).Nodup := by
  have hHas : ∀ s ∈ lineage, p.HasType s :=
    fun s hs => ((mem_of_lineage_eq_ok hLineage).mp hs).2
  rw [List.nodup_flatMap]
  constructor
  · intro s hs
    exact hSound.nodup_declaredBy (hHas s hs)
      (hOnce s.decl (List.mem_of_getElem? (hHas s hs)))
  · apply (hSound.nodup_lineage hLt hLineage).imp
    intro s u hNe m hm hmOther
    exact hNe
      (((p.mem_declaredBy_iff s m).mp hm).2.1.symm.trans
        ((p.mem_declaredBy_iff u m).mp hmOther).2.1)

/- A type declares no other method of one's signature. -/
theorem filter_declaredBy_eq
    (hApart : p.MethodsApart)
    (hOnce : ∀ d ∈ p.types, d.members.Nodup)
    {m : MemberNode}
    (hMember : p.HasMember m)
    (hMethod : m.decl.isInstanceMethod) :
    ((p.declaredBy m.owner).filter
        (Surface.reaches m.owner)).filter (fun n =>
          n.decl.isCallable &&
            decide (n.decl.signature? = m.decl.signature?)) =
      [m] := by
  rcases MemberDecl.isInstanceMethod_iff.mp hMethod with
    ⟨hCallable, hMaker, hStatic⟩
  have hListed := hOnce m.owner.decl
    (List.mem_of_getElem? hMember.2.2)
  have hReaches : Surface.reaches m.owner m := by
    simp [Surface.reaches, hStatic, hMaker]
  apply Listing.filter_eq_singleton
  · exact (hSound.nodup_declaredBy hMember.2.2
      hListed).filter _
  · exact List.mem_filter.mpr
      ⟨hSound.mem_declaredBy_of_hasMember hMember, hReaches⟩
  · simp [hCallable]
  · intro n hn hSame
    rcases List.mem_filter.mp hn with ⟨hIn, hReach⟩
    rcases hSound.hasMember_of_mem_declaredBy
        hMember.2.2 hIn with
      ⟨hHas, hOwner⟩
    simp only [Bool.and_eq_true, decide_eq_true_eq] at hSame
    simp only [Surface.reaches, Bool.and_eq_true,
      Bool.not_eq_true'] at hReach
    exact hApart n m hHas hMember hOwner
      (MemberDecl.isInstanceMethod_iff.mpr
        ⟨hSame.1, hReach.1.2, hReach.1.1⟩)
      hMethod hSame.2

/-
  The declarations of a method start with the one of the
  type itself; the others are inherited.
-/
theorem exists_group_of_own
    (hApart : p.MethodsApart)
    (hOnce : ∀ d ∈ p.types, d.members.Nodup)
    {m : MemberNode}
    (hMember : p.HasMember m)
    (hMethod : m.decl.isInstanceMethod)
    {ancestors : List TypeNode}
    (hLineage :
      p.lineage m.owner.id = .ok (m.owner :: ancestors)) :
    ∃ rest,
      m :: rest ∈ Surface.methodGroups
        (((m.owner :: ancestors).flatMap p.declaredBy).filter
          (Surface.reaches m.owner)) ∧
      ∀ n ∈ rest, p.HasMember n ∧
        Inherits p.types m.owner.id n.owner.id := by
  let same : MemberNode → Bool := fun n =>
    n.decl.isCallable &&
      decide (n.decl.signature? = m.decl.signature?)
  have hFirst := hSound.filter_declaredBy_eq hApart hOnce
    hMember hMethod
  refine ⟨((ancestors.flatMap p.declaredBy).filter
    (Surface.reaches m.owner)).filter same, ?_, ?_⟩
  · have hGroup :
        (((m.owner :: ancestors).flatMap p.declaredBy).filter
            (Surface.reaches m.owner)).filter same =
          m :: ((ancestors.flatMap p.declaredBy).filter
            (Surface.reaches m.owner)).filter same := by
      rw [List.flatMap_cons, List.filter_append,
        List.filter_append, hFirst]
      rfl
    have hOwn : m ∈ ((p.declaredBy m.owner).filter
        (Surface.reaches m.owner)).filter same := by
      rw [hFirst]
      exact List.mem_singleton_self m
    rw [← hGroup]
    apply Surface.mem_methodGroups_iff.mpr
    refine ⟨m, ?_,
      (MemberDecl.isInstanceMethod_iff.mp hMethod).1, rfl⟩
    rw [List.flatMap_cons, List.filter_append]
    exact List.mem_append_left _ (List.mem_of_mem_filter hOwn)
  · intro n hn
    exact hSound.inherits_of_mem_tail hLineage
      (List.mem_of_mem_filter (List.mem_of_mem_filter hn))

/- What a type declares itself stands for its method. -/
theorem representative?_of_own
    {m : MemberNode}
    (hMember : p.HasMember m)
    {rest : List MemberNode}
    (hAbove :
      ∀ n ∈ rest, p.HasMember n ∧
        Inherits p.types m.owner.id n.owner.id) :
    Surface.representative? p.hierarchy (m :: rest) =
      some m := by
  apply Surface.representative?_cons
  · intro hRedeclared
    rcases List.any_eq_true.mp hRedeclared with
      ⟨n, hn, hAncestor⟩
    have hBelow :=
      (hSound.fits.isAncestor_iff _ _).mp hAncestor
    rcases List.mem_cons.mp hn with rfl | hRest
    · exact hSound.fits.acyclic _ hBelow
    · exact hSound.fits.acyclic _
        (hBelow.trans (hAbove n hRest).2)
  · intro hInterface n hn
    rcases hAbove n hn with ⟨hOther, hInherits⟩
    exact hSound.isInterface_of_inherits hInherits
      hMember.2.2 hOther.2.2 hInterface

end Program.Sound

namespace ExportView.Shows

variable {v : ExportView}
variable {p : Program}
variable (hShows : v.Shows p)
variable (hSound : p.Sound)
variable {s : Surface}
variable (hSurface : s ∈ v.surfaces)

include hShows hSound hSurface

theorem nodup_members_slots
    (hOnce : ∀ d ∈ p.types, d.members.Nodup) :
    (s.slots.map (fun slot => slot.member)).Nodup := by
  rcases hShows.exists_ofMembers_eq hSurface with
    ⟨lineage, hLineage, hType, hMade⟩
  rw [hMade]
  exact Surface.nodup_members_slots
    (hSound.nodup_members_of_lineage hOnce hType.lt_length
      hLineage)

/- A member that stands for a slot stands for no other. -/
theorem filter_member_eq
    (hOnce : ∀ d ∈ p.types, d.members.Nodup)
    {slot : Slot}
    (hSlot : slot ∈ s.slots) :
    s.slots.filter (fun e => e.member = slot.member) =
      [slot] := by
  have hNodup := hShows.nodup_members_slots hSound hSurface
    hOnce
  apply Listing.filter_eq_singleton
    (List.Nodup.of_map _ hNodup) hSlot (decide_eq_true rfl)
  intro e he hSame
  exact List.inj_on_of_nodup_map hNodup he hSlot
    (of_decide_eq_true hSame)

/- A type has a slot for each member that it declares. -/
theorem exists_slot_of_own
    (hApart : p.MethodsApart)
    (hOnce : ∀ d ∈ p.types, d.members.Nodup)
    {m : MemberNode}
    (hDeclared : m ∈ p.declaredBy s.type)
    (hStatic : m.decl.isStatic = false)
    (hMaker : m.decl.isConstructor = false) :
    ∃ slot ∈ s.slots, slot.member = m := by
  rcases hShows.exists_ofMembers_eq hSurface with
    ⟨lineage, hLineage, hType, hMade⟩
  rcases hSound.hasMember_of_mem_declaredBy hType hDeclared
    with ⟨hMember, hOwner⟩
  rcases hSound.exists_lineage_eq_cons hType with
    ⟨ancestors, hCons⟩
  cases hLineage.symm.trans hCons
  rw [← hOwner] at hMade hCons hDeclared
  apply List.mem_map.mp
  rw [hMade, Surface.map_member_slots, List.mem_append]
  by_cases hCallable : m.decl.isCallable
  · left
    have hMethod : m.decl.isInstanceMethod :=
      MemberDecl.isInstanceMethod_iff.mpr
        ⟨hCallable, hMaker, hStatic⟩
    rcases hSound.exists_group_of_own hApart hOnce hMember
        hMethod hCons with
      ⟨rest, hGroup, hAbove⟩
    exact List.mem_filterMap.mpr ⟨m :: rest, hGroup,
      hSound.representative?_of_own hMember hAbove⟩
  · right
    apply List.mem_filter.mpr
    constructor
    · apply List.mem_filter.mpr
      rw [List.flatMap_cons]
      refine ⟨List.mem_append_left _ hDeclared, ?_⟩
      simp [Surface.reaches, hStatic, hMaker]
    · simpa [MemberDecl.isField_eq] using hCallable

end ExportView.Shows

end JsExport
