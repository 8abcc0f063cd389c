import JsExport.Proofs.Export.Inherited
import JsExport.Proofs.Rules.Claims
import JsExport.Proofs.Rules.LikeAccessors
import Mathlib.Tactic.MkIffOfInductiveProp

/-
  The reader and the writer of one property.

  Two accessors may share a name on a surface when one of
  them reads and the other one writes.  So where nothing else
  has their name, a reader and a writer clash with nothing.
  In the global scope the two claim one name if they are
  static, and the claim of the one that their type lists
  later is late.

  Main declarations:
    * `ExportView.IsAccessorPair`
    * `ExportView.IsAccessorPair.not_clashesOn`
    * `ExportView.IsAccessorPair.not_likeAccessorsOn`
    * `ExportView.IsAccessorPair.filter_lateClaims`
-/

namespace JsExport

open Lookup

------------------------------------------------------------
-- Accessors
------------------------------------------------------------

/-
  That a method is tagged as an accessor, announces an
  access by its name, and has a name in JavaScript.
-/
@[mk_iff]
structure MemberNode.IsAccessor
    (m : MemberNode)
    (access : Accessor)
    (name : String) : Prop where
  tag_eq : m.decl.tag = .jsProperty
  isCallable : m.decl.isCallable
  isConstructor_eq : m.decl.isConstructor = false
  access_eq : Accessor.ofName m.decl.name = access
  name_eq : (JsIdentity.natural m.decl).name = name

instance
    {m : MemberNode}
    {access : Accessor}
    {name : String} :
    Decidable (m.IsAccessor access name) :=
  decidable_of_iff' _ (MemberNode.isAccessor_iff m access name)

namespace MemberNode.IsAccessor

variable {m : MemberNode}
variable {access : Accessor}
variable {name : String}
variable (hAccessor : m.IsAccessor access name)

include hAccessor

theorem role_natural :
    (JsIdentity.natural m.decl).role = .property access := by
  change JsIdentity.naturalRole m.decl = _
  unfold JsIdentity.naturalRole
  rw [MemberDecl.isField_eq, hAccessor.isCallable,
    hAccessor.isConstructor_eq, hAccessor.tag_eq,
    hAccessor.access_eq]
  rfl

theorem isDirectlyExported :
    m.decl.isDirectlyExported m.owner.decl := by
  unfold MemberDecl.isDirectlyExported
  rw [hAccessor.tag_eq]
  rfl

end MemberNode.IsAccessor

/-
  That one method of a type reads a property and another one
  writes it, both of objects or both of the type, and that
  nothing else has their name: no slot of a surface where
  one of them stands for a slot, and no other claim.
-/
@[mk_iff]
structure ExportView.IsAccessorPair
    (v : ExportView)
    (getter setter : MemberNode)
    (name : String) : Prop where
  reads : getter.IsAccessor .getter name
  writes : setter.IsAccessor .setter name
  owner_eq : setter.owner = getter.owner
  isStatic_eq : setter.decl.isStatic = getter.decl.isStatic
  alone_on_surfaces :
    ∀ s ∈ v.surfaces, ∀ slot ∈ s.slots,
      slot.member = getter ∨ slot.member = setter →
        ∀ other ∈ s.slots, ∀ identity ∈ other.identity,
          identity.name = name →
            other.member = getter ∨ other.member = setter
  alone_in_scope :
    ∀ c ∈ v.claims,
      v.globalName? getter = some c.name ∨
        v.globalName? setter = some c.name →
          c.member = getter ∨ c.member = setter

instance
    {v : ExportView}
    {getter setter : MemberNode}
    {name : String} :
    Decidable (v.IsAccessorPair getter setter name) :=
  decidable_of_iff' _
    (ExportView.isAccessorPair_iff v getter setter name)

------------------------------------------------------------
-- Accessors On Surfaces
------------------------------------------------------------

namespace ExportView.Shows

variable {v : ExportView}
variable {p : Program}
variable (hShows : v.Shows p)
variable (hSound : p.Sound)

include hShows hSound

/- An accessor has the identity that its tag gives it. -/
theorem identity?_of_isAccessor
    {m : MemberNode}
    (hMember : p.HasMember m)
    {access : Accessor}
    {name : String}
    (hAccessor : m.IsAccessor access name) :
    v.identity? m = some (.natural m.decl) := by
  have hFixed :=
    hSound.isFixedPoint_exportTable hShows.table_eq
  exact hFixed.identity?_of_direct hMember
    hAccessor.isDirectlyExported

/- Where an accessor stands for a slot, it names the slot. -/
theorem named_of_isAccessor
    {m : MemberNode}
    (hMember : p.HasMember m)
    {access : Accessor}
    {name : String}
    (hAccessor : m.IsAccessor access name)
    {s : Surface}
    (hSurface : s ∈ v.surfaces)
    {e : Slot × JsIdentity}
    (hNamed : e ∈ s.named)
    (hStands : e.1.member = m) :
    e.2.role = .property access ∧ e.2.name = name := by
  subst hStands
  have hOwn := hShows.identity?_of_isAccessor hSound hMember
    hAccessor
  rw [hShows.identity_eq_of_mem_named hSurface hNamed hOwn]
  exact ⟨hAccessor.role_natural, hAccessor.name_eq⟩

/- Two like accessors that are compared are two slots. -/
theorem ne_of_mem_pairs_accessors
    (hOnce : ∀ d ∈ p.types, d.members.Nodup)
    {s : Surface}
    (hSurface : s ∈ v.surfaces)
    {g : String × List (Slot × JsIdentity)}
    (hGroup : g ∈ s.groups)
    {access : Accessor}
    {a b : Slot}
    (hPair :
      (a, b) ∈ Listing.pairs (v.accessors access g.2)) :
    a.member.id ≠ b.member.id := by
  have hSlots : s.slots.Nodup := List.Nodup.of_map _
    (hShows.nodup_members_slots hSound hSurface hOnce)
  have hKept :
      ((g.2.filter (fun e =>
        decide (e.2.role = .property access))).map
          (fun e => e.1)).Sublist s.slots := by
    rw [(Surface.mem_groups_iff.mp hGroup).2]
    exact ((List.filter_sublist.trans
      List.filter_sublist).map _).trans
        s.map_fst_named_sublist
  have hNodup : (v.accessors access g.2).Nodup :=
    (accessors_perm access).nodup_iff.mpr
      (hSlots.sublist hKept)
  rcases Listing.mem_of_mem_pairs hPair with ⟨ha, hb⟩
  have hIn :
      ∀ slot ∈ v.accessors access g.2, slot ∈ s.slots :=
    fun slot hSlot => hKept.subset
      ((accessors_perm access).mem_iff.mp hSlot)
  intro hId
  exact Listing.related_of_mem_pairs hNodup hPair
    (hShows.slot_eq_of_member_id_eq hSound hSurface
      (hIn a ha) (hIn b hb) hId)

end ExportView.Shows

------------------------------------------------------------
-- Pairs On Surfaces
------------------------------------------------------------

namespace ExportView.IsAccessorPair

variable {v : ExportView}
variable {p : Program}
variable {getter setter : MemberNode}
variable {name : String}
variable (hPair : v.IsAccessorPair getter setter name)
variable (hShows : v.Shows p)
variable (hSound : p.Sound)
variable (hGetter : p.HasMember getter)
variable (hSetter : p.HasMember setter)

include hPair hShows hSound hGetter hSetter

section Surfaces

variable {s : Surface}
variable (hSurface : s ∈ v.surfaces)

include hSurface

/- A slot that a pair stands for has the role of its member. -/
theorem role_of_named
    {e : Slot × JsIdentity}
    (hNamed : e ∈ s.named)
    (hStands :
      e.1.member = getter ∨ e.1.member = setter) :
    (e.1.member = getter ∧ e.2.role = .property .getter ∨
      e.1.member = setter ∧ e.2.role = .property .setter) ∧
        e.2.name = name := by
  rcases hStands with hReads | hWrites
  · rcases hShows.named_of_isAccessor hSound hGetter
        hPair.reads hSurface hNamed hReads with
      ⟨hRole, hName⟩
    exact ⟨.inl ⟨hReads, hRole⟩, hName⟩
  · rcases hShows.named_of_isAccessor hSound hSetter
        hPair.writes hSurface hNamed hWrites with
      ⟨hRole, hName⟩
    exact ⟨.inr ⟨hWrites, hRole⟩, hName⟩

/- What has the name of a pair is one of its accessors. -/
theorem roles_of_name_eq
    {x y : Slot × JsIdentity}
    (hx : x ∈ s.named)
    (hy : y ∈ s.named)
    (hName : x.2.name = y.2.name)
    (hStands :
      x.1.member.id = getter.id ∨
        x.1.member.id = setter.id) :
    (x.1.member = getter ∧ x.2.role = .property .getter ∨
        x.1.member = setter ∧
          x.2.role = .property .setter) ∧
      (y.1.member = getter ∧ y.2.role = .property .getter ∨
        y.1.member = setter ∧
          y.2.role = .property .setter) := by
  rcases Surface.mem_named_iff.mp hx with ⟨hxSlot, _⟩
  rcases Surface.mem_named_iff.mp hy with
    ⟨hySlot, hyIdentity⟩
  have hMember :=
    (hShows.hasMember_slot hSound hSurface hxSlot).1
  have hNode :
      x.1.member = getter ∨ x.1.member = setter :=
    hStands.imp (hMember.eq_of_id_eq hGetter)
      (hMember.eq_of_id_eq hSetter)
  rcases hPair.role_of_named hShows hSound hGetter hSetter
      hSurface hx hNode with
    ⟨hFirst, hSame⟩
  have hOther := hPair.alone_on_surfaces s hSurface x.1
    hxSlot hNode y.1 hySlot y.2 hyIdentity
    (hName.symm.trans hSame)
  exact ⟨hFirst, (hPair.role_of_named hShows hSound hGetter
    hSetter hSurface hy hOther).1⟩

/- The accessors of a pair do not clash by name. -/
theorem not_clashesOn
    {i j : MemberId}
    (hClash : s.ClashesOn i j) :
    ¬ (i = getter.id ∨ i = setter.id) := by
  rcases hClash with ⟨x, y, hBoth, rfl, rfl⟩
  intro hStands
  rcases hPair.roles_of_name_eq hShows hSound hGetter
      hSetter hSurface hBoth.first_mem hBoth.second_mem
      hBoth.name_eq hStands with
    ⟨hFirst, hSecond⟩
  apply hBoth.notProperty
  constructor
  · rcases hFirst with ⟨_, hRole⟩ | ⟨_, hRole⟩
    · rw [hRole]
      rfl
    · rw [hRole]
      rfl
  · rcases hSecond with ⟨_, hRole⟩ | ⟨_, hRole⟩
    · rw [hRole]
      rfl
    · rw [hRole]
      rfl

/- No other accessor is like one of a pair. -/
theorem not_likeAccessorsOn
    {i j : MemberId}
    (hLike : s.LikeAccessorsOn i j)
    (hNe : i ≠ j) :
    ¬ (i = getter.id ∨ i = setter.id) := by
  rcases hLike with ⟨x, y, hBoth, rfl, rfl⟩
  intro hStands
  rcases hPair.roles_of_name_eq hShows hSound hGetter
      hSetter hSurface hBoth.first_mem hBoth.second_mem
      hBoth.name_eq hStands with
    ⟨hFirst, hSecond⟩
  rcases hBoth.access with ⟨access, _, hx, hy⟩
  rw [hx] at hFirst
  rw [hy] at hSecond
  rcases hFirst with ⟨hx, hReads⟩ | ⟨hx, hWrites⟩
  · rcases hSecond with ⟨hy, _⟩ | ⟨_, hOther⟩
    · exact hNe (by rw [hx, hy])
    · cases hReads.symm.trans hOther
  · rcases hSecond with ⟨_, hOther⟩ | ⟨hy, _⟩
    · cases hWrites.symm.trans hOther
    · exact hNe (by rw [hx, hy])

end Surfaces

end ExportView.IsAccessorPair

------------------------------------------------------------
-- Pairs In The Global Scope
------------------------------------------------------------

namespace ExportView.Shows

variable {v : ExportView}
variable {p : Program}
variable (hShows : v.Shows p)
variable (hSound : p.Sound)

include hShows hSound

/- An accessor claims a name if it is static and has code. -/
theorem claim?_of_isAccessor
    {m : MemberNode}
    (hMember : p.HasMember m)
    {access : Accessor}
    {name : String}
    (hAccessor : m.IsAccessor access name) :
    v.claim? m =
      if m.decl.isStatic ∧ ¬ m.isNative then
        some ⟨m, s!"{m.owner.decl.globalName}.{name}"⟩
      else none := by
  have hOwn := hShows.identity?_of_isAccessor hSound hMember
    hAccessor
  unfold claim? globalName? MemberNode.isNative
  rw [hOwn]
  dsimp only
  rw [hAccessor.role_natural, hAccessor.name_eq]
  cases m.owner.decl.isNative <;>
    cases m.decl.isNative <;>
      cases m.decl.isStatic <;> simp

/- What an accessor claims is its name within its type. -/
theorem name_eq_of_mem_claims
    {m : MemberNode}
    (hMember : p.HasMember m)
    {access : Accessor}
    {name : String}
    (hAccessor : m.IsAccessor access name)
    {c : Claim}
    (hClaim : c ∈ v.claims)
    (hIs : c.member = m) :
    c.name = s!"{m.owner.decl.globalName}.{name}" := by
  have hFound := hShows.claim?_eq_some_of_mem hClaim
  rw [hIs, hShows.claim?_of_isAccessor hSound hMember
    hAccessor] at hFound
  split at hFound
  · cases hFound
    rfl
  · cases hFound

/-
  Of two accessors of one name that a type declares, the
  later one claims the name late, if both are static and
  neither is native and nothing else claims it.
-/
theorem filter_lateClaims_of_accessors
    (hOnce : ∀ d ∈ p.types, d.members.Nodup)
    {t : TypeNode}
    (hType : p.HasType t)
    {a b : MemberNode}
    (hListed : (a, b) ∈ Listing.pairs (p.declaredBy t))
    {access other : Accessor}
    {name : String}
    (ha : a.IsAccessor access name)
    (hb : b.IsAccessor other name)
    (hStatic : b.decl.isStatic = a.decl.isStatic)
    (hAlone :
      ∀ c ∈ v.claims,
        v.globalName? a = some c.name ∨
          v.globalName? b = some c.name →
        c.member = a ∨ c.member = b) :
    (lateClaims [] v.claims).filter (fun c =>
        decide (c.member = a ∨ c.member = b)) =
      if a.decl.isStatic ∧ ¬ a.isNative ∧ ¬ b.isNative then
        [⟨b, s!"{t.decl.globalName}.{name}"⟩]
      else [] := by
  rcases Listing.mem_of_mem_pairs hListed with ⟨haIn, hbIn⟩
  rcases hSound.hasMember_of_mem_declaredBy hType haIn with
    ⟨haMember, haOwner⟩
  rcases hSound.hasMember_of_mem_declaredBy hType hbIn with
    ⟨hbMember, hbOwner⟩
  have haClaim := hShows.claim?_of_isAccessor hSound haMember
    ha
  have hbClaim := hShows.claim?_of_isAccessor hSound hbMember
    hb
  rw [haOwner] at haClaim
  rw [hbOwner, hStatic] at hbClaim
  have hName :
      ∀ c ∈ v.claims, c.member = a ∨ c.member = b →
        c.name = s!"{t.decl.globalName}.{name}" := by
    intro c hc hIs
    rcases hIs with hIs | hIs
    · rw [← haOwner]
      exact hShows.name_eq_of_mem_claims hSound haMember ha
        hc hIs
    · rw [← hbOwner]
      exact hShows.name_eq_of_mem_claims hSound hbMember hb
        hc hIs
  rw [hShows.filter_lateClaims_of_alone hName hAlone,
    hShows.filter_claims_eq hSound hOnce hType hListed
      ha.isCallable hb.isCallable]
  by_cases haOwn : a.decl.isStatic ∧ ¬ a.isNative
  · rw [if_pos haOwn] at haClaim
    rw [List.filterMap_cons_some haClaim, List.tail_cons]
    by_cases hbOwn : ¬ b.isNative
    · rw [if_pos ⟨haOwn.1, hbOwn⟩] at hbClaim
      rw [if_pos ⟨haOwn.1, haOwn.2, hbOwn⟩,
        List.filterMap_cons_some hbClaim]
      rfl
    · rw [if_neg (fun hBoth => hbOwn hBoth.2)] at hbClaim
      rw [if_neg (fun hAll => hbOwn hAll.2.2),
        List.filterMap_cons_none hbClaim]
      rfl
  · rw [if_neg haOwn] at haClaim
    rw [if_neg (fun hAll => haOwn ⟨hAll.1, hAll.2.1⟩),
      List.filterMap_cons_none haClaim]
    cases hClaim : v.claim? b with
    | none => rw [List.filterMap_cons_none hClaim]; rfl
    | some c => rw [List.filterMap_cons_some hClaim]; rfl

end ExportView.Shows

/- Of two methods of a type the one that it lists later. -/
def Program.lastDeclared
    (p : Program)
    (a b : MemberNode) : MemberNode :=
  if (a, b) ∈ Listing.pairs (p.declaredBy a.owner) then b
  else a

namespace ExportView

variable {v : ExportView}
variable {p : Program}
variable {getter setter : MemberNode}
variable {name : String}

/- Of a pair the claim that is made last is late. -/
theorem IsAccessorPair.filter_lateClaims
    (hPair : v.IsAccessorPair getter setter name)
    (hShows : v.Shows p)
    (hSound : p.Sound)
    (hOnce : ∀ d ∈ p.types, d.members.Nodup)
    (hGetter : p.HasMember getter)
    (hSetter : p.HasMember setter) :
    (lateClaims [] v.claims).filter (fun c =>
        decide (c.member = getter ∨ c.member = setter)) =
      if getter.decl.isStatic ∧ ¬ getter.isNative ∧
          ¬ setter.isNative then
        [⟨p.lastDeclared getter setter,
          s!"{getter.owner.decl.globalName}.{name}"⟩]
      else [] := by
  have hReads := hSound.mem_declaredBy_of_hasMember hGetter
  have hWrites := hSound.mem_declaredBy_of_hasMember hSetter
  rw [hPair.owner_eq] at hWrites
  have hNe : getter ≠ setter := by
    intro hSame
    have hAccess := hPair.writes.access_eq
    rw [← hSame, hPair.reads.access_eq] at hAccess
    cases hAccess
  unfold Program.lastDeclared
  by_cases hFirst :
      (getter, setter) ∈
        Listing.pairs (p.declaredBy getter.owner)
  · rw [if_pos hFirst]
    exact hShows.filter_lateClaims_of_accessors hSound hOnce
      hGetter.2.2 hFirst hPair.reads hPair.writes
      hPair.isStatic_eq hPair.alone_in_scope
  · have hLast := (Listing.mem_pairs_or_mem_pairs hReads
      hWrites hNe).resolve_left hFirst
    have hFound :=
      hShows.filter_lateClaims_of_accessors hSound hOnce
        hGetter.2.2 hLast hPair.writes hPair.reads
        hPair.isStatic_eq.symm
        (fun c hc hName =>
          (hPair.alone_in_scope c hc hName.symm).symm)
    rw [if_neg hFirst]
    simp only [or_comm (a := _ = setter),
      hPair.isStatic_eq,
      and_comm (a := ¬ setter.isNative)] at hFound
    exact hFound

end ExportView

end JsExport
