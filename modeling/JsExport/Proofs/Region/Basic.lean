import JsExport.Proofs.Export.Agreement
import JsExport.Report.Finding
import Mathlib.Data.Set.Basic

/-
  Regions that inheritance does not leave.

  A region holds with a type all its supertypes and all its
  subtypes.  When nothing in it is annotated, no member of
  it is exported, and no surface of it shows anything to
  JavaScript: identities come from annotations and travel
  along inheritance only.

  Main declarations:
    * `Program.IsRegion` and `Program.IsPlain`
    * `Program.isRegion_iff` and `Program.isPlain_iff`
    * `Program.IsRegion.mem_iff_of_inherits`
    * `Program.IsPlain.not_isDirectlyExported`
    * `ExportView.ShowsOutside`
    * `ExportView.Shows.showsOutside_of_region`
    * `Finding.Spares` and `Finding.OnBody`
-/

namespace JsExport

------------------------------------------------------------
-- Regions
------------------------------------------------------------

/- That a set of types holds all above and below its types. -/
structure Program.IsRegion
    (p : Program)
    (S : Set TypeId) : Prop where
  above :
    ∀ t, p.HasType t → t.id ∈ S →
      ∀ s ∈ t.decl.supertypes, s ∈ S
  below :
    ∀ t, p.HasType t →
      ∀ s ∈ t.decl.supertypes, s ∈ S → t.id ∈ S

/- That no type of a set and none of its members is tagged. -/
structure Program.IsPlain
    (p : Program)
    (S : Set TypeId) : Prop where
  flags :
    ∀ t, p.HasType t → t.id ∈ S → t.decl.flags = .none
  tags :
    ∀ m, p.HasMember m → m.owner.id ∈ S →
      m.decl.tag = .untagged

namespace Program

variable {p : Program}
variable {S : Set TypeId}

/- Whether a set is a region can be seen type by type. -/
theorem isRegion_iff :
    p.IsRegion S ↔
      ∀ t ∈ p.typeNodes, ∀ s ∈ t.decl.supertypes,
        (t.id ∈ S ↔ s ∈ S) := by
  constructor
  · intro hRegion t ht s hs
    have hType := mem_typeNodes_iff.mp ht
    exact ⟨fun hIn => hRegion.above t hType hIn s hs,
      hRegion.below t hType s hs⟩
  · intro hEach
    constructor
    · intro t hType hIn s hs
      exact (hEach t (mem_typeNodes_iff.mpr hType) s
        hs).mp hIn
    · intro t hType s hs
      exact (hEach t (mem_typeNodes_iff.mpr hType) s
        hs).mpr

theorem isPlain_iff
    {members : List MemberNode}
    (hMembers : p.memberNodes = .ok members) :
    p.IsPlain S ↔
      (∀ t ∈ p.typeNodes, t.id ∈ S →
        t.decl.flags = .none) ∧
      ∀ m ∈ members, m.owner.id ∈ S →
        m.decl.tag = .untagged := by
  constructor
  · intro hPlain
    exact ⟨fun t ht => hPlain.flags t
        (mem_typeNodes_iff.mp ht),
      fun m hm => hPlain.tags m
        ((mem_of_memberNodes_eq_ok hMembers).mp hm)⟩
  · rintro ⟨hFlags, hTags⟩
    exact ⟨fun t hType => hFlags t
        (mem_typeNodes_iff.mpr hType),
      fun m hMember => hTags m
        ((mem_of_memberNodes_eq_ok hMembers).mpr hMember)⟩

namespace IsRegion

variable (hRegion : p.IsRegion S)

include hRegion

theorem mem_iff_of_supertype
    {t s : TypeId}
    (hSuper : s ∈ Supertypes.ofTypes p.types t) :
    t ∈ S ↔ s ∈ S := by
  rcases Supertypes.mem_ofTypes_iff.mp hSuper with
    ⟨d, hType, hListed⟩
  exact ⟨fun ht =>
      hRegion.above ⟨t, d⟩ hType ht s hListed,
    fun hs => hRegion.below ⟨t, d⟩ hType s hListed hs⟩

/- Inheritance stays inside or outside. -/
theorem mem_iff_of_inherits
    {t a : TypeId}
    (hInherits : Inherits p.types t a) :
    t ∈ S ↔ a ∈ S := by
  induction hInherits with
  | direct hSuper =>
      exact hRegion.mem_iff_of_supertype hSuper
  | above hSuper _ ih =>
      exact (hRegion.mem_iff_of_supertype hSuper).trans ih

/- A type and the members within its reach are together. -/
theorem mem_iff_of_reached
    {t : TypeNode}
    {m : MemberNode}
    (hReached : p.Reached t m) :
    t.id ∈ S ↔ m.owner.id ∈ S := by
  rcases hReached.owned_or_inherited with
    hOwn | ⟨hInherits, _⟩
  · rw [hOwn]
  · exact hRegion.mem_iff_of_inherits hInherits

end IsRegion

/- Nothing in a plain set is exported by itself. -/
theorem IsPlain.not_isDirectlyExported
    (hPlain : p.IsPlain S)
    {m : MemberNode}
    (hMember : p.HasMember m)
    (hIn : m.owner.id ∈ S) :
    ¬ m.decl.isDirectlyExported m.owner.decl := by
  have hFlags := hPlain.flags m.owner hMember.2.2 hIn
  have hByType :
      m.decl.exportedBy m.owner.decl = false := by
    unfold MemberDecl.exportedBy TypeDecl.isJsFunction
    rw [hFlags]
    rfl
  rw [ExportTable.isDirectlyExported_of_untagged
    (hPlain.tags m hMember hIn), hByType, Bool.and_false]
  exact Bool.false_ne_true

end Program

------------------------------------------------------------
-- What A Plain Region Shows
------------------------------------------------------------

/- That a type of a program is outside a set of types. -/
def TypeNode.IsOutside
    (p : Program)
    (S : Set TypeId)
    (t : TypeNode) : Prop :=
  p.HasType t ∧ t.id ∉ S

/- That a member of a program has its owner outside. -/
def MemberNode.IsOutside
    (p : Program)
    (S : Set TypeId)
    (m : MemberNode) : Prop :=
  p.HasMember m ∧ m.owner.id ∉ S

/- That all that JavaScript sees is outside a set of types. -/
structure ExportView.ShowsOutside
    (v : ExportView)
    (p : Program)
    (S : Set TypeId) : Prop where
  members :
    ∀ m, p.HasMember m → (v.identity? m).isSome →
      m.IsOutside p S
  slots :
    ∀ s ∈ v.surfaces, ∀ slot ∈ s.slots,
      slot.identity.isSome →
        s.type.IsOutside p S ∧
          slot.member.IsOutside p S ∧
            ∀ n ∈ slot.overridden, n.IsOutside p S

namespace ExportView.Shows

variable {v : ExportView}
variable {p : Program}
variable {S : Set TypeId}
variable (hShows : v.Shows p)
variable (hSound : p.Sound)
variable (hRegion : p.IsRegion S)
variable (hPlain : p.IsPlain S)

include hShows hSound hRegion hPlain

/-
  No member of a plain region is exported: an exported
  method that it overrides would be in the region as well.
-/
theorem identity?_eq_none_of_region
    {m : MemberNode}
    (hMember : p.HasMember m)
    (hIn : m.owner.id ∈ S) :
    v.identity? m = none := by
  have hFixed :=
    hSound.isFixedPoint_exportTable hShows.table_eq
  apply Option.eq_none_iff_forall_not_mem.mpr
  intro identity hIdentity
  rcases hSound.exists_overrides_of_identity?_eq hFixed
      hMember (hPlain.not_isDirectlyExported hMember hIn)
      hIdentity with
    ⟨_, r, hOverrides, _⟩
  have hInAbove :=
    (hRegion.mem_iff_of_inherits hOverrides.above).mp hIn
  exact hPlain.not_isDirectlyExported hOverrides.member
    hInAbove hOverrides.direct

section Slots

variable {s : Surface}
variable (hSurface : s ∈ v.surfaces)
variable {slot : Slot}
variable (hSlot : slot ∈ s.slots)

include hSurface hSlot

omit hPlain in
/- A slot belongs where its type belongs. -/
theorem mem_iff_of_slot :
    (s.type.id ∈ S ↔ slot.member.owner.id ∈ S) ∧
      ∀ n ∈ slot.overridden,
        (s.type.id ∈ S ↔ n.owner.id ∈ S) := by
  rcases hShows.exists_ofMembers_eq hSurface with
    ⟨lineage, hLineage, hType, hEq⟩
  rw [hEq] at hSlot
  constructor
  · exact hRegion.mem_iff_of_reached
      (hSound.reached_of_mem hType hLineage
        (Surface.member_mem_of_mem_slots hSlot))
  · intro n hn
    exact hRegion.mem_iff_of_reached
      (hSound.reached_of_mem hType hLineage
        (Surface.mem_of_mem_overridden hSlot hn).1)

/- No surface of a plain region shows anything. -/
theorem slot_identity_eq_none_of_region
    (hIn : s.type.id ∈ S) :
    slot.identity = none := by
  rcases hShows.hasMember_slot hSound hSurface hSlot with
    ⟨hMember, hOverridden⟩
  rcases hShows.mem_iff_of_slot hSound hRegion hSurface
      hSlot with
    ⟨hOwner, hOwners⟩
  have hOwn :=
    hShows.identity?_eq_none_of_region hSound hRegion hPlain
      hMember (hOwner.mp hIn)
  have hAbove :
      slot.overridden.findSome? v.identity? = none := by
    rw [List.findSome?_eq_none_iff]
    intro n hn
    exact hShows.identity?_eq_none_of_region hSound hRegion
      hPlain (hOverridden n hn) ((hOwners n hn).mp hIn)
  rw [hShows.identity_eq_of_unexported hSurface hSlot hOwn,
    hAbove]
  rfl

end Slots

/- What a program shows is outside its plain regions. -/
theorem showsOutside_of_region :
    v.ShowsOutside p S := by
  constructor
  · intro m hMember hSome
    refine ⟨hMember, fun hIn => ?_⟩
    rw [hShows.identity?_eq_none_of_region hSound hRegion
      hPlain hMember hIn] at hSome
    cases hSome
  · intro s hSurface slot hSlot hSome
    have hOut : s.type.id ∉ S := by
      intro hIn
      rw [hShows.slot_identity_eq_none_of_region hSound
        hRegion hPlain hSurface hSlot hIn] at hSome
      cases hSome
    rcases hShows.exists_ofMembers_eq hSurface with
      ⟨_, _, hType, _⟩
    rcases hShows.hasMember_slot hSound hSurface hSlot with
      ⟨hMember, hOverridden⟩
    rcases hShows.mem_iff_of_slot hSound hRegion hSurface
        hSlot with
      ⟨hOwner, hOwners⟩
    exact ⟨⟨hType, hOut⟩,
      ⟨hMember, fun hIn => hOut (hOwner.mpr hIn)⟩,
      fun n hn => ⟨hOverridden n hn,
        fun hIn => hOut ((hOwners n hn).mpr hIn)⟩⟩

end ExportView.Shows

------------------------------------------------------------
-- Findings Outside
------------------------------------------------------------

/- That a subject is a declaration outside a set of types. -/
inductive Subject.Outside
    (p : Program)
    (S : Set TypeId) : Subject → Prop
| type
    {t : TypeNode}
    (hOut : t.IsOutside p S) :
    Outside p S (.type t.id)
| member
    {m : MemberNode}
    (hOut : m.IsOutside p S) :
    Outside p S (.member m.id)

/- That a subject is a type of a set or a member of one. -/
inductive Subject.Inside
    (p : Program)
    (S : Set TypeId) : Subject → Prop
| type
    {t : TypeId}
    (hIn : t ∈ S) :
    Inside p S (.type t)
| member
    {m : MemberNode}
    (hMember : p.HasMember m)
    (hIn : m.owner.id ∈ S) :
    Inside p S (.member m.id)

/- That a finding is about declarations outside, all told. -/
structure Finding.Spares
    (p : Program)
    (S : Set TypeId)
    (f : Finding) : Prop where
  some : f.subjects ≠ []
  outside : ∀ s ∈ f.subjects, s.Outside p S

/-
  The findings that can be about a member inside: its body
  calls an accessor outside through `super`, or tests an
  object against a type outside.
-/
inductive Finding.OnBody
    (p : Program)
    (S : Set TypeId) : Finding → Prop
| superCall
    {m target : MemberNode}
    {call : SuperCall}
    (hMember : p.HasMember m)
    (hIn : m.owner.id ∈ S)
    (hCall : call ∈ m.decl.superCalls)
    (hTarget : p.member call.target = .ok target)
    (hOut : target.owner.id ∉ S) :
    OnBody p S
      ⟨.superAccessor (Signature.text p target),
        m.owner.decl.file, call.span,
        [.member m.id, .member target.id]⟩
| instanceTest
    {m : MemberNode}
    {target : TypeNode}
    {test : InstanceTest}
    (hMember : p.HasMember m)
    (hIn : m.owner.id ∈ S)
    (hTest : test ∈ m.decl.instanceTests)
    (hTarget : p.type test.target = .ok target)
    (hOut : target.id ∉ S) :
    OnBody p S
      ⟨.nativeInterfaceTest target.decl.qualifiedName,
        m.owner.decl.file, test.span,
        [.member m.id, .type target.id]⟩

/- No subject is on both sides. -/
theorem Subject.Outside.not_inside
    {p : Program}
    {S : Set TypeId}
    {s : Subject}
    (hOutside : s.Outside p S) :
    ¬ s.Inside p S := by
  intro hInside
  cases hOutside with
  | type hOut =>
      cases hInside with
      | type hIn => exact hOut.2 hIn
  | @member m hOut =>
      generalize hId : Subject.member m.id = s at hInside
      cases hInside with
      | type _ => cases hId
      | @member n hMember hIn =>
          have hSame := hOut.1.eq_of_id_eq hMember
            (Subject.member.inj hId)
          exact hOut.2 (hSame ▸ hIn)

namespace Finding

variable {p : Program}
variable {S : Set TypeId}

theorem spares_ofMember
    {m : MemberNode}
    (hOut : m.IsOutside p S)
    (breach : Breach) :
    (ofMember m breach).Spares p S :=
  ⟨List.cons_ne_nil _ _,
    List.forall_mem_singleton.mpr (.member hOut)⟩

theorem spares_ofType
    {t : TypeNode}
    (hOut : t.IsOutside p S)
    (breach : Breach) :
    (ofType t breach).Spares p S :=
  ⟨List.cons_ne_nil _ _,
    List.forall_mem_singleton.mpr (.type hOut)⟩

theorem spares_inBody
    {m : MemberNode}
    (hOut : m.IsOutside p S)
    (span : Span)
    (breach : Breach) :
    (inBody m span breach).Spares p S :=
  ⟨List.cons_ne_nil _ _,
    List.forall_mem_singleton.mpr (.member hOut)⟩

theorem Spares.about
    {f : Finding}
    (hSpares : f.Spares p S)
    {s : Subject}
    (hOut : s.Outside p S) :
    (f.about s).Spares p S := by
  constructor
  · exact List.append_ne_nil_of_right_ne_nil _
      (List.cons_ne_nil _ _)
  · intro r hr
    rcases List.mem_append.mp hr with hOld | hNew
    · exact hSpares.outside r hOld
    · rw [List.mem_singleton.mp hNew]
      exact hOut

end Finding

end JsExport
