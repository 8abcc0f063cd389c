import JsExport.Proofs.Export.Slots
import JsExport.Proofs.Listing.Permuted
import JsExport.Proofs.Rules.AccessorShape
import JsExport.Proofs.Rules.Property
import Mathlib.Tactic.MkIffOfInductiveProp

/-
  Readers and writers that disagree on a type.

  Two readers of a property are an issue once, wherever they
  meet; a reader and a writer of different types are an issue
  of every type that has both.  So each type and each name
  has at most one issue of this kind, which is decided by the
  slots of that name alone.

  Main declarations:
    * `Surface.group` and `Surface.accessedBy`
    * `MemberDecl.Mismatches`
    * `ExportView.Shows.mismatch_mem_propertyIssues_iff`
    * `ExportView.Shows.filter_key_firstBy`
    * `ExportView.Shows.accessedBy_eq_singleton`
-/

namespace JsExport

open Lookup

------------------------------------------------------------
-- Entries Of One Name
------------------------------------------------------------

namespace Surface

variable {s : Surface}

/- The slots of a name, none if no slot has the name. -/
def group
    (s : Surface)
    (name : String) : List (Slot × JsIdentity) :=
  ((s.groups.find? (fun g => g.1 == name)).map
    (fun g => g.2)).getD []

/- The slots of a name that access a property in one way. -/
def accessedBy
    (s : Surface)
    (access : Accessor)
    (name : String) : List Slot :=
  ((s.group name).filter (fun e =>
    decide (e.2.role = .property access))).map
      (fun e => e.1)

/- A group is what has the name among all that is named. -/
theorem group_eq
    (name : String) :
    s.group name =
      s.named.filter (fun e => decide (e.2.name = name)) := by
  unfold group
  cases hFind : s.groups.find? (fun g => g.1 == name) with
  | some g =>
      have hHolds := List.find?_some hFind
      have hName : g.1 = name := beq_iff_eq.mp hHolds
      have hGroup := List.mem_of_find?_eq_some hFind
      rw [Option.map_some, Option.getD_some,
        (mem_groups_iff.mp hGroup).2, hName]
  | none =>
      symm
      apply List.filter_eq_nil_iff.mpr
      intro e he hName
      have hGroup :
          (e.2.name, s.named.filter (fun x =>
            decide (x.2.name = e.2.name))) ∈ s.groups :=
        mem_groups_iff.mpr ⟨⟨e, he, rfl⟩, rfl⟩
      have hNot := List.find?_eq_none.mp hFind _ hGroup
      exact hNot (beq_iff_eq.mpr (of_decide_eq_true hName))

/- Every group is found by its name. -/
theorem group_eq_of_mem_groups
    {g : String × List (Slot × JsIdentity)}
    (hGroup : g ∈ s.groups) :
    s.group g.1 = g.2 := by
  rw [group_eq, (mem_groups_iff.mp hGroup).2]

theorem mem_groups_of_mem_group
    {name : String}
    {e : Slot × JsIdentity}
    (he : e ∈ s.group name) :
    (name, s.group name) ∈ s.groups := by
  rw [group_eq, List.mem_filter] at he
  exact mem_groups_iff.mpr
    ⟨⟨e, he.1, of_decide_eq_true he.2⟩, group_eq name⟩

theorem mem_accessedBy_iff
    {access : Accessor}
    {name : String}
    {slot : Slot} :
    slot ∈ s.accessedBy access name ↔
      slot ∈ s.slots ∧ ∃ identity,
        slot.identity = some identity ∧
          identity.name = name ∧
            identity.role = .property access := by
  unfold accessedBy
  rw [group_eq, List.mem_map]
  constructor
  · rintro ⟨e, he, rfl⟩
    simp only [List.mem_filter, decide_eq_true_eq] at he
    rcases mem_named_iff.mp he.1.1 with ⟨hSlot, hIdentity⟩
    exact ⟨hSlot, e.2, hIdentity, he.1.2, he.2⟩
  · rintro ⟨hSlot, identity, hIdentity, hName, hRole⟩
    refine ⟨(slot, identity), ?_, rfl⟩
    simp only [List.mem_filter, decide_eq_true_eq]
    exact ⟨⟨mem_named_iff.mpr ⟨hSlot, hIdentity⟩, hName⟩,
      hRole⟩

/- What accesses a property are slots, each listed once. -/
theorem accessedBy_sublist
    (access : Accessor)
    (name : String) :
    (s.accessedBy access name).Sublist s.slots := by
  unfold accessedBy
  rw [group_eq]
  exact ((List.filter_sublist.trans
    List.filter_sublist).map _).trans s.map_fst_named_sublist

end Surface

------------------------------------------------------------
-- Types That Differ
------------------------------------------------------------

/-
  That a writer takes a first parameter, of another type than
  a reader yields.
-/
def MemberDecl.Mismatches
    (getter setter : MemberDecl) : Prop :=
  ∃ c d param rest, getter.callable? = some c ∧
    setter.callable? = some d ∧ d.params = param :: rest ∧
      param.type ≠ c.result

namespace ExportView

theorem typesDiffer_iff
    {getter setter : Slot} :
    typesDiffer getter setter ↔
      getter.member.decl.Mismatches setter.member.decl := by
  unfold typesDiffer MemberDecl.Mismatches
  cases getter.member.decl.callable? with
  | none => simp
  | some c =>
      cases setter.member.decl.callable? with
      | none => simp
      | some d =>
          cases hParams : d.params with
          | nil => simp [Callable.paramTypes, hParams]
          | cons param rest =>
              simp only [Callable.paramTypes, hParams,
                List.map_cons, List.head?_cons,
                Option.bind_some, decide_eq_true_eq]
              constructor
              · intro hNe
                exact ⟨c, d, param, rest, rfl, rfl, hParams,
                  hNe.symm⟩
              · rintro ⟨_, _, _, _, hFirst, hSecond, hSame,
                  hNe⟩
                cases hFirst
                cases hSecond
                cases hParams.symm.trans hSame
                exact hNe.symm

variable {v : ExportView}
variable {t : TypeNode}
variable {name : String}

/- A mismatch is one of the first reader and writer. -/
theorem mismatch_mem_groupIssues_iff
    {group : List (Slot × JsIdentity)}
    {c : Clash} :
    .mismatch c ∈ v.groupIssues t name group ↔
      c.type = t ∧ c.name = name ∧
        (v.accessors .getter group).head? = some c.first ∧
        (v.accessors .setter group).head? = some c.second ∧
        typesDiffer c.first c.second := by
  rcases c with ⟨type, own, first, second⟩
  have hClash :
      PropertyIssue.mismatch ⟨type, own, first, second⟩ ∉
        (Listing.pairs (v.accessors .getter group) ++
          Listing.pairs (v.accessors .setter group)).map
            (fun e => PropertyIssue.clash
              ⟨t, name, e.1, e.2⟩) := by
    intro hMem
    rcases List.mem_map.mp hMem with ⟨_, _, hEq⟩
    cases hEq
  unfold groupIssues
  dsimp only
  cases (v.accessors .getter group).head? with
  | none => simp
  | some getter =>
      cases (v.accessors .setter group).head? with
      | none => simp
      | some setter =>
          cases hDiffer : typesDiffer getter setter with
          | false =>
              simp only [hDiffer, Bool.false_eq_true,
                if_false, hClash, false_iff,
                Option.some.injEq]
              rintro ⟨_, _, rfl, rfl, hSame⟩
              rw [hDiffer] at hSame
              cases hSame
          | true =>
              simp only [hDiffer, if_true, List.mem_append,
                hClash, false_or, List.mem_singleton,
                PropertyIssue.mismatch.injEq,
                Clash.mk.injEq, Option.some.injEq]
              constructor
              · rintro ⟨rfl, rfl, rfl, rfl⟩
                exact ⟨rfl, rfl, rfl, rfl, hDiffer⟩
              · rintro ⟨rfl, rfl, rfl, rfl, _⟩
                exact ⟨rfl, rfl, rfl, rfl⟩

/- One slot that accesses a property is in order. -/
theorem accessors_eq_of_accessedBy
    (v : ExportView)
    {s : Surface}
    {access : Accessor}
    {found : List Slot}
    (hFound : s.accessedBy access name = found)
    (hOne : found.length ≤ 1) :
    v.accessors access (s.group name) = found := by
  have hPerm :
      (v.accessors access (s.group name)).Perm
        (s.accessedBy access name) :=
    accessors_perm access
  rw [hFound] at hPerm
  exact Listing.eq_of_perm_of_length_le_one hPerm hOne

theorem exists_of_key_eq_inr
    {issue : PropertyIssue}
    {t : TypeId}
    (hKey : issue.key = .inr (t, name)) :
    ∃ c, issue = .mismatch c ∧ c.type.id = t ∧
      c.name = name := by
  cases issue with
  | clash => cases hKey
  | mismatch c =>
      cases hKey
      exact ⟨c, rfl, rfl, rfl⟩

------------------------------------------------------------
-- Issues Of All Types
------------------------------------------------------------

namespace Shows

variable {p : Program}
variable (hShows : v.Shows p)
variable {s : Surface}
variable (hSurface : s ∈ v.surfaces)

include hShows hSurface

/- The issues of a type and a name are those of its slots. -/
theorem mismatch_mem_propertyIssues_iff
    {c : Clash}
    (hType : c.type.id = s.type.id) :
    .mismatch c ∈ v.propertyIssues ↔
      c.type = s.type ∧
        (v.accessors .getter (s.group c.name)).head? =
            some c.first ∧
        (v.accessors .setter (s.group c.name)).head? =
            some c.second ∧
        typesDiffer c.first c.second := by
  unfold propertyIssues
  simp only [List.mem_flatMap, mismatch_mem_groupIssues_iff]
  constructor
  · rintro ⟨r, hr, g, hGroup, hEq, hName, hFirst, hSecond,
      hDiffer⟩
    rw [hEq] at hType
    cases hShows.eq_of_type_id_eq hSurface hr hType
    rw [hName, Surface.group_eq_of_mem_groups hGroup]
    exact ⟨hEq, hFirst, hSecond, hDiffer⟩
  · rintro ⟨hEq, hFirst, hSecond, hDiffer⟩
    rcases mem_accessors_iff.mp
        (List.mem_of_mem_head? hFirst) with
      ⟨e, he, _⟩
    exact ⟨s, hSurface, _,
      Surface.mem_groups_of_mem_group he, hEq, rfl, hFirst,
      hSecond, hDiffer⟩

variable {name : String}

/- Where one reads and one writes these two are compared. -/
theorem filter_key_of_mismatches
    {getter setter : Slot}
    (hReads : s.accessedBy .getter name = [getter])
    (hWrites : s.accessedBy .setter name = [setter])
    (hDiffer :
      getter.member.decl.Mismatches setter.member.decl) :
    (Listing.firstBy PropertyIssue.key
        v.propertyIssues).filter (fun issue =>
          decide (issue.key = .inr (s.type.id, name))) =
      [.mismatch ⟨s.type, name, getter, setter⟩] := by
  have hGetter := v.accessors_eq_of_accessedBy hReads
    (Nat.le_refl 1)
  have hSetter := v.accessors_eq_of_accessedBy hWrites
    (Nat.le_refl 1)
  refine Listing.filter_firstBy_eq_singleton
    PropertyIssue.key
    (x := .mismatch ⟨s.type, name, getter, setter⟩) ?_ ?_
  · apply (hShows.mismatch_mem_propertyIssues_iff hSurface
      rfl).mpr
    rw [hGetter, hSetter]
    exact ⟨rfl, rfl, rfl, typesDiffer_iff.mpr hDiffer⟩
  · intro issue hIssue hKey
    rcases exists_of_key_eq_inr hKey with
      ⟨⟨type, own, first, second⟩, rfl, hId, rfl⟩
    rcases (hShows.mismatch_mem_propertyIssues_iff hSurface
        hId).mp hIssue with
      ⟨hType, hFirst, hSecond, _⟩
    rw [hGetter] at hFirst
    rw [hSetter] at hSecond
    cases hType
    cases hFirst
    cases hSecond
    rfl

/- Where no reader and writer disagree, nothing is found. -/
theorem filter_key_eq_nil
    (hAgree :
      ∀ getter setter,
        (v.accessors .getter (s.group name)).head? =
            some getter →
        (v.accessors .setter (s.group name)).head? =
            some setter →
          ¬ typesDiffer getter setter) :
    (Listing.firstBy PropertyIssue.key
        v.propertyIssues).filter (fun issue =>
          decide (issue.key = .inr (s.type.id, name))) =
      [] := by
  apply List.filter_eq_nil_iff.mpr
  intro issue hFirst hKey
  rcases exists_of_key_eq_inr (of_decide_eq_true hKey) with
    ⟨c, rfl, hId, rfl⟩
  rcases (hShows.mismatch_mem_propertyIssues_iff hSurface
      hId).mp ((Listing.firstBy_sublist _ _).subset hFirst)
    with ⟨_, hGetter, hSetter, hDiffer⟩
  exact hAgree c.first c.second hGetter hSetter hDiffer

end Shows

end ExportView

------------------------------------------------------------
-- Accessors With Identities Of Their Own
------------------------------------------------------------

/-
  That two members stand for slots of a surface and nothing
  else reads or writes the property of a name there.
-/
@[mk_iff]
structure Surface.AccessedAlone
    (s : Surface)
    (name : String)
    (getter setter : MemberNode) : Prop where
  getter_stands : ∃ slot ∈ s.slots, slot.member = getter
  setter_stands : ∃ slot ∈ s.slots, slot.member = setter
  readers_alone :
    ∀ slot ∈ s.accessedBy .getter name,
      slot.member = getter ∨ slot.member = setter
  writers_alone :
    ∀ slot ∈ s.accessedBy .setter name,
      slot.member = getter ∨ slot.member = setter

instance
    {s : Surface}
    {name : String}
    {getter setter : MemberNode} :
    Decidable (s.AccessedAlone name getter setter) :=
  decidable_of_iff' _
    (Surface.accessedAlone_iff s name getter setter)

/- That a member is exported itself to access a property. -/
def ExportView.Accesses
    (v : ExportView)
    (m : MemberNode)
    (access : Accessor)
    (name : String) : Prop :=
  ∃ identity ∈ v.identity? m,
    identity.role = .property access ∧ identity.name = name

instance
    {v : ExportView}
    {m : MemberNode}
    {access : Accessor}
    {name : String} :
    Decidable (v.Accesses m access name) :=
  Option.decidableExistsMem _

namespace ExportView.Shows

variable {v : ExportView}
variable {p : Program}
variable (hShows : v.Shows p)
variable (hSound : p.Sound)
variable {s : Surface}
variable (hSurface : s ∈ v.surfaces)

include hShows hSurface

/- An identity of its own stays with a member everywhere. -/
theorem mem_accessedBy_of_accesses
    {slot : Slot}
    (hSlot : slot ∈ s.slots)
    {access : Accessor}
    {name : String}
    (hOwn : v.Accesses slot.member access name) :
    slot ∈ s.accessedBy access name := by
  rcases hOwn with ⟨identity, hIdentity, hRole, hName⟩
  exact Surface.mem_accessedBy_iff.mpr ⟨hSlot, identity,
    hShows.identity_eq_of_exported hSurface hSlot hIdentity,
    hName, hRole⟩

include hSound

/- Accessors are methods, which stand for one slot each. -/
theorem nodup_accessedBy
    (access : Accessor)
    (name : String) :
    (s.accessedBy access name).Nodup := by
  have hMethods :
      (s.accessedBy access name).filter (fun slot =>
          slot.member.decl.isCallable) =
        s.accessedBy access name := by
    apply List.filter_eq_self.mpr
    intro slot hIn
    rcases Surface.mem_accessedBy_iff.mp hIn with
      ⟨hSlot, identity, hIdentity, _, hRole⟩
    exact (hShows.access_of_slot hSound hSurface
      (e := (slot, identity))
      (Surface.mem_named_iff.mpr ⟨hSlot, hIdentity⟩) hRole).1
  have hNodup :
      (s.slots.filter (fun slot =>
        slot.member.decl.isCallable)).Nodup := by
    rcases hShows.exists_ofMembers_eq hSurface with
      ⟨lineage, _, _, hMade⟩
    rw [hMade]
    exact Surface.nodup_slots_of_methods
  rw [← hMethods]
  exact hNodup.sublist
    ((Surface.accessedBy_sublist access name).filter _)

/- What alone accesses a property in its way is in its slot. -/
theorem accessedBy_eq_singleton
    {slot : Slot}
    (hSlot : slot ∈ s.slots)
    {access : Accessor}
    {name : String}
    (hOwn : v.Accesses slot.member access name)
    (hOnly :
      ∀ other ∈ s.accessedBy access name,
        other.member = slot.member) :
    s.accessedBy access name = [slot] := by
  have hIn := hShows.mem_accessedBy_of_accesses hSurface hSlot
    hOwn
  have hSame :
      ∀ other ∈ s.accessedBy access name, other = slot := by
    intro other hOther
    exact hShows.slot_eq_of_member_id_eq hSound hSurface
      ((Surface.accessedBy_sublist access name).subset hOther)
      hSlot (congrArg MemberNode.id (hOnly other hOther))
  apply Listing.eq_singleton_of_mem hIn
  apply Listing.length_le_one_of_nodup
    (hShows.nodup_accessedBy hSound hSurface access name)
  intro x hx y hy
  rw [hSame x hx, hSame y hy]

/- So a reader and a writer that are alone are one each. -/
theorem exists_accessedBy_eq_of_accessedAlone
    {getter setter : MemberNode}
    {name : String}
    (hReads : v.Accesses getter .getter name)
    (hWrites : v.Accesses setter .setter name)
    (hAlone : s.AccessedAlone name getter setter) :
    ∃ x y, x.member = getter ∧ y.member = setter ∧
      s.accessedBy .getter name = [x] ∧
        s.accessedBy .setter name = [y] := by
  rcases hAlone.getter_stands with ⟨x, hx, rfl⟩
  rcases hAlone.setter_stands with ⟨y, hy, rfl⟩
  -- The role of a slot tells which of the two stands for it.
  have hMember :
      ∀ access slot, slot ∈ s.accessedBy access name →
        slot.member = x.member ∨ slot.member = y.member →
          (slot.member = x.member ∧ access = .getter) ∨
            (slot.member = y.member ∧ access = .setter) := by
    intro access slot hIn hStands
    rcases Surface.mem_accessedBy_iff.mp hIn with
      ⟨hSlot, identity, hIdentity, _, hRole⟩
    have hOwn :
        ∀ other, v.Accesses slot.member other name →
          access = other := by
      rintro other ⟨own, hOwn, hOwnRole, _⟩
      have hSame := hShows.identity_eq_of_exported hSurface
        hSlot hOwn
      rw [hIdentity] at hSame
      cases hSame
      rw [hRole] at hOwnRole
      exact JsRole.property.inj hOwnRole
    rcases hStands with hGetter | hSetter
    · exact .inl ⟨hGetter, hOwn .getter
        (by rw [hGetter]; exact hReads)⟩
    · exact .inr ⟨hSetter, hOwn .setter
        (by rw [hSetter]; exact hWrites)⟩
  refine ⟨x, y, rfl, rfl, ?_, ?_⟩
  · apply hShows.accessedBy_eq_singleton hSound hSurface hx
      hReads
    intro other hOther
    rcases hMember .getter other hOther
        (hAlone.readers_alone other hOther) with
      ⟨hSame, _⟩ | ⟨_, hAccess⟩
    · exact hSame
    · cases hAccess
  · apply hShows.accessedBy_eq_singleton hSound hSurface hy
      hWrites
    intro other hOther
    rcases hMember .setter other hOther
        (hAlone.writers_alone other hOther) with
      ⟨_, hAccess⟩ | ⟨hSame, _⟩
    · cases hAccess
    · exact hSame

end ExportView.Shows

end JsExport
