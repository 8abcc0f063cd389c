import JsExport.Proofs.Check.Constructors
import JsExport.Proofs.Export.Partition
import JsExport.Proofs.Program.Ownership
import JsExport.Proofs.Rules.NameClash

/-
  Members that a type lists more than once.

  A build looks at each entry of a member list on its own,
  so a list may repeat a number.  No other type lists it
  then, but the member is met as often as its owner lists
  it: a field has as many slots, a static member or a
  constructor makes as many claims of one global name, and
  an exported constructor is counted as often.  So a member
  is compared with itself when, and only when, its owner
  lists it again, and a field is then reported to clash
  with itself.

  Main declarations:
    * `MemberNode.timesListed`
    * `Program.Sound.count_flatMap_declaredBy`
    * `ExportView.PairsWithItself`
    * `ExportView.ClaimsAgainstItself`
    * `ExportView.IsConstructorAgain`
    * `members_met_as_often_as_listed`
-/

namespace JsExport

open Lookup

/- How often the owner of a member lists it. -/
def MemberNode.timesListed
    (m : MemberNode) : Nat :=
  m.owner.decl.members.count m.id

------------------------------------------------------------
-- Members Of Types
------------------------------------------------------------

namespace Program.Sound

variable {p : Program}
variable (hSound : p.Sound)
variable {m : MemberNode}
variable (hMember : p.HasMember m)

include hSound hMember

/- A member is met in its owner as often as it is listed. -/
theorem count_declaredBy :
    (p.declaredBy m.owner).count m = m.timesListed := by
  unfold MemberNode.timesListed
  rw [← hSound.map_id_declaredBy hMember.2.2]
  unfold List.count
  rw [List.countP_map]
  apply List.countP_congr
  intro n hn
  have hOther :=
    (hSound.hasMember_of_mem_declaredBy hMember.2.2 hn).1
  rw [Function.comp_apply, beq_iff_eq, beq_iff_eq]
  exact ⟨congrArg MemberNode.id,
    hOther.eq_of_id_eq hMember⟩

/- Other types do not add to that. -/
theorem count_flatMap_declaredBy
    {types : List TypeNode}
    (hNodup : types.Nodup)
    (hOwner : m.owner ∈ types) :
    (types.flatMap p.declaredBy).count m =
      m.timesListed := by
  rw [Listing.count_flatMap_eq_of_mem hNodup hOwner]
  · exact hSound.count_declaredBy hMember
  · intro t _ hNe hIn
    exact hNe ((p.mem_declaredBy_iff t m).mp hIn).2.1.symm

/- Its number is listed as often in all types together. -/
theorem count_listed :
    p.draft.listed.count m.id = m.timesListed :=
  Draft.count_listed_eq hSound.wellFormed.memberLists
    hMember.1 hMember.2.1 hMember.2.2

/- Every member is listed. -/
theorem one_le_timesListed :
    1 ≤ m.timesListed := by
  apply List.one_le_count_iff.mpr
  exact ((p.mem_declaredBy_iff m.owner m).mp
    (hSound.mem_declaredBy_of_hasMember hMember)).1

end Program.Sound

/- Going through all types meets what is listed, in order. -/
theorem Program.Sound.map_id_flatMap_declaredBy
    {p : Program}
    (hSound : p.Sound) :
    (p.typeNodes.flatMap p.declaredBy).map
        (fun m => m.id) = p.draft.listed := by
  have hEach :
      ∀ t ∈ p.typeNodes,
        (p.declaredBy t).map (fun m => m.id) =
          t.decl.members := by
    intro t ht
    exact hSound.map_id_declaredBy (mem_typeNodes_iff.mp ht)
  have hDecls :
      p.typeNodes.map (fun t => t.decl) = p.types := by
    unfold typeNodes
    rw [List.map_map]
    exact List.zipIdx_map_fst 0 p.types
  rw [List.map_flatMap, List.flatMap_congr hEach]
  unfold Draft.listed draft
  rw [← hDecls, List.flatMap_map]

namespace ExportView

------------------------------------------------------------
-- Comparisons
------------------------------------------------------------

/- That a name of objects is shared by a member and itself. -/
def PairsWithItself
    (v : ExportView)
    (m : MemberNode) : Prop :=
  ∃ s ∈ v.surfaces, ∃ g ∈ s.groups,
    ∃ e ∈ Listing.pairs g.2,
      e.1.1.member = m ∧ e.2.1.member = m

/- That a global name is claimed twice by one member. -/
def ClaimsAgainstItself
    (v : ExportView)
    (m : MemberNode) : Prop :=
  ∃ e ∈ Listing.pairs v.claims,
    e.1.member = m ∧ e.2.member = m

/- That an exported constructor is counted as another one. -/
def IsConstructorAgain
    (v : ExportView)
    (m : MemberNode) : Prop :=
  ∃ t ∈ v.types, t.decl.isNative = false ∧
    ∃ e ∈ Listing.pairs
        (((v.program.declaredBy t).filter
          (fun c => c.decl.isConstructor)).filter
            v.isJsConstructor),
      e.1 = m ∧ e.2 = m

/- Putting the fields first keeps all members. -/
theorem fieldsFirst_perm_declaredBy
    (v : ExportView)
    (t : TypeNode) :
    (v.fieldsFirst t).Perm (v.program.declaredBy t) := by
  have hOthers :
      (fun m : MemberNode => !m.decl.isField) =
        fun m => m.decl.isCallable := by
    funext m
    rw [MemberDecl.isField_eq, Bool.not_not]
  unfold fieldsFirst
  dsimp only
  rw [← hOthers]
  exact List.filter_append_perm _ _

namespace Shows

variable {v : ExportView}
variable {p : Program}
variable (hShows : v.Shows p)
variable (hSound : p.Sound)

include hShows hSound

------------------------------------------------------------
-- Names Of Objects
------------------------------------------------------------

section Slots

variable {s : Surface}
variable (hSurface : s ∈ v.surfaces)

include hSurface

/- A field has as many slots as it is listed times. -/
theorem count_members_of_field
    {m : MemberNode}
    (hField : m.decl.isField)
    (hReached : p.Reached s.type m) :
    (s.slots.map (fun slot => slot.member)).count m =
      m.timesListed := by
  rcases hShows.exists_ofMembers_eq hSurface with
    ⟨lineage, hLineage, hType, hMade⟩
  have hMethods :
      m ∉ (Surface.methodGroups
          ((lineage.flatMap p.declaredBy).filter
            (Surface.reaches s.type))).filterMap
              (Surface.representative? p.hierarchy) := by
    intro hm
    have hCallable := Surface.isCallable_of_mem_methods hm
    rw [MemberDecl.isField_eq, hCallable] at hField
    cases hField
  rcases List.mem_filter.mp
      ((hSound.mem_filter_reaches_iff hType hLineage).mpr
        hReached) with
    ⟨hIn, hReaches⟩
  have hOwner :=
    (hSound.hasMember_of_lineage hLineage hIn).2
  have hKept :
      (((lineage.flatMap p.declaredBy).filter
          (Surface.reaches s.type)).filter
            (fun n => n.decl.isField)).count m =
        ((lineage.flatMap p.declaredBy).filter
          (Surface.reaches s.type)).count m :=
    List.count_filter hField
  rw [hMade, Surface.map_member_slots, List.count_append,
    List.count_eq_zero_of_not_mem hMethods, Nat.zero_add,
    hKept, List.count_filter hReaches]
  exact hSound.count_flatMap_declaredBy hReached.member
    (hSound.nodup_lineage hType.lt_length hLineage) hOwner

omit hSound in
/- A method stands for one slot at most. -/
theorem count_members_of_method
    {m : MemberNode}
    (hCallable : m.decl.isCallable) :
    (s.slots.map (fun slot => slot.member)).count m ≤ 1 := by
  rcases hShows.exists_ofMembers_eq hSurface with
    ⟨lineage, _, _, hMade⟩
  have hFields :
      m ∉ ((lineage.flatMap p.declaredBy).filter
        (Surface.reaches s.type)).filter
          (fun n => n.decl.isField) := by
    intro hm
    have hField : m.decl.isField := (List.mem_filter.mp hm).2
    rw [MemberDecl.isField_eq, hCallable] at hField
    cases hField
  rw [hMade, Surface.map_member_slots, List.count_append,
    List.count_eq_zero_of_not_mem hFields, Nat.add_zero]
  exact List.nodup_iff_count_le_one.mp
    Surface.nodup_members_of_methods m

/- A slot of a field has the identity of the field. -/
theorem identity_eq_of_isField
    {slot : Slot}
    (hSlot : slot ∈ s.slots)
    (hField : slot.member.decl.isField) :
    slot.identity = v.identity? slot.member ∧
      p.Reached s.type slot.member := by
  rcases hShows.exists_ofMembers_eq hSurface with
    ⟨lineage, hLineage, hType, hMade⟩
  rw [hMade] at hSlot
  rcases Surface.mem_slots_iff.mp hSlot with
    hMethod | hOwn
  · rw [MemberDecl.isField_eq, hMethod.isCallable] at hField
    cases hField
  · refine ⟨congrArg Slot.identity hOwn.eq_fieldSlot, ?_⟩
    exact (hSound.mem_filter_reaches_iff hType
      hLineage).mp hOwn.member_mem

/- All slots of an exported field are in one group. -/
theorem count_group_of_field
    {m : MemberNode}
    (hField : m.decl.isField)
    {identity : JsIdentity}
    (hIdentity : v.identity? m = some identity) :
    ((s.named.filter (fun e =>
        decide (e.2.name = identity.name))).map
          (fun e => e.1.member)).count m =
      (s.slots.map (fun slot => slot.member)).count m := by
  unfold List.count Surface.named
  rw [List.countP_map, List.countP_map, List.countP_filter,
    List.countP_filterMap]
  apply List.countP_congr
  intro slot hSlot
  by_cases hSame : slot.member = m
  · subst hSame
    have hHere := (hShows.identity_eq_of_isField hSound
      hSurface hSlot hField).1.trans hIdentity
    simp [hHere]
  · cases hHere : slot.identity <;> simp [hSame]

end Slots

/- A field that is listed again is paired with itself. -/
theorem pairsWithItself_iff
    {m : MemberNode}
    (hMember : p.HasMember m) :
    v.PairsWithItself m ↔
      m.decl.isField ∧ m.decl.isStatic = false ∧
        (v.identity? m).isSome ∧ 2 ≤ m.timesListed := by
  constructor
  · rintro ⟨s, hSurface, g, hGroup, e, hPair, hFirst, hSecond⟩
    have hMany :
        2 ≤ (s.slots.map (fun slot => slot.member)).count m := by
      apply (Listing.exists_mem_pairs_iff_two_le_count
        (fun slot : Slot => slot.member) m s.slots).mp
      refine ⟨(e.1.1, e.2.1), ?_, hFirst, hSecond⟩
      apply Listing.mem_pairs_iff_sublist.mpr
      have hBoth := Listing.sublist_of_mem_pairs hPair
      rw [(Surface.mem_groups_iff.mp hGroup).2] at hBoth
      exact ((hBoth.trans List.filter_sublist).map
        (fun e => e.1)).trans s.map_fst_named_sublist
    have hField : m.decl.isField := by
      rw [MemberDecl.isField_eq, Bool.not_eq_true']
      by_contra hNot
      have hOnce := hShows.count_members_of_method hSurface
        (Bool.not_eq_false _ ▸ hNot : m.decl.isCallable)
      omega
    have hNamed := ((Surface.mem_of_mem_groups hGroup).mp
      (Listing.mem_of_mem_pairs hPair).1).1
    rcases Surface.mem_named_iff.mp hNamed with
      ⟨hSlot, hIdentity⟩
    rcases hShows.identity_eq_of_isField hSound hSurface
        hSlot (hFirst ▸ hField) with
      ⟨hSame, hReached⟩
    rw [hFirst] at hSame hReached
    refine ⟨hField, hReached.isStatic_eq, ?_, ?_⟩
    · rw [← hSame, hIdentity]
      rfl
    · rwa [← hShows.count_members_of_field hSound hSurface
        hField hReached]
  · rintro ⟨hField, hStatic, hExported, hMany⟩
    rcases Option.isSome_iff_exists.mp hExported with
      ⟨identity, hIdentity⟩
    rcases hShows.exists_surface_of_hasType hSound
        hMember.2.2 with
      ⟨s, hSurface, _, hType⟩
    have hMaker :=
      MemberDecl.isConstructor_eq_false_of_isField hField
    have hReached : p.Reached s.type m :=
      ⟨hMember, hStatic, hMaker, .inl hType.symm⟩
    rw [← hShows.count_members_of_field hSound hSurface
        hField hReached,
      ← hShows.count_group_of_field hSound hSurface hField
        hIdentity,
      ← Listing.exists_mem_pairs_iff_two_le_count] at hMany
    rcases hMany with ⟨e, hPair, hFirst, hSecond⟩
    have hNamed := (List.mem_filter.mp
      (Listing.mem_of_mem_pairs hPair).1)
    exact ⟨s, hSurface, (identity.name, _),
      Surface.mem_groups_iff.mpr
        ⟨⟨e.1, hNamed.1, of_decide_eq_true hNamed.2⟩, rfl⟩,
      e, hPair, hFirst, hSecond⟩

/- An exported field is a field to JavaScript. -/
theorem role_eq_field
    {m : MemberNode}
    (hMember : p.HasMember m)
    (hField : m.decl.isField)
    {identity : JsIdentity}
    (hIdentity : v.identity? m = some identity) :
    identity.role = .field := by
  have hFixed :=
    hSound.isFixedPoint_exportTable hShows.table_eq
  by_cases hDirect : m.decl.isDirectlyExported m.owner.decl
  · have hOwn := hFixed.identity?_of_direct hMember hDirect
    cases hOwn.symm.trans hIdentity
    have hNatural : JsIdentity.naturalRole m.decl = .field := by
      unfold JsIdentity.naturalRole
      rw [if_pos hField]
    exact hNatural
  · have hMay := (hSound.exists_passedTo?_of_identity?_eq
      hFixed hMember hDirect hIdentity).1
    unfold MemberDecl.mayInheritExport at hMay
    have hMethod := MemberDecl.isInstanceMethod_of_isOverridable
      (Bool.and_eq_true_iff.mp hMay).2
    rw [MemberDecl.isField_eq,
      (MemberDecl.isInstanceMethod_iff.mp hMethod).1] at hField
    cases hField

/- What is named is known by the number it stands by. -/
theorem member_eq_of_mem_named
    {s : Surface}
    (hSurface : s ∈ v.surfaces)
    {e : Slot × JsIdentity}
    (hNamed : e ∈ s.named)
    {m : MemberNode}
    (hMember : p.HasMember m)
    (hId : e.1.member.id = m.id) :
    e.1.member = m :=
  (hShows.hasMember_slot hSound hSurface
    (Surface.mem_named_iff.mp hNamed).1).1.eq_of_id_eq
      hMember hId

/- A field that is not native clashes with its own entry. -/
theorem clash_of_isField
    {s : Surface}
    (hSurface : s ∈ v.surfaces)
    {x y : Slot × JsIdentity}
    (hNamed : x ∈ s.named)
    (hSame : y.1.member = x.1.member)
    (hField : x.1.member.decl.isField)
    (hCode : x.1.member.isNative = false) :
    clash x y := by
  rcases Surface.mem_named_iff.mp hNamed with
    ⟨hSlot, hIdentity⟩
  have hOwn := (hShows.identity_eq_of_isField hSound
    hSurface hSlot hField).1.symm.trans hIdentity
  have hRole := hShows.role_eq_field hSound
    (hShows.hasMember_slot hSound hSurface hSlot).1 hField
    hOwn
  apply clash_eq_true_iff.mpr
  rw [hSame, hCode, and_self, hRole]
  refine ⟨?_, Bool.false_ne_true⟩
  rintro ⟨hProperty, _⟩
  cases hProperty

/-
  Of the fields that are paired with themselves, those that
  are not native are reported to clash with themselves.
-/
theorem exists_isClashOf_iff
    {m : MemberNode}
    (hMember : p.HasMember m) :
    (∃ f ∈ v.nameClashes, f.isClashOf m.id m.id) ↔
      v.PairsWithItself m ∧ m.isNative = false := by
  have hClashes :
      (∃ f ∈ v.nameClashes, f.isClashOf m.id m.id) ↔
        ∃ c ∈ v.surfaces.flatMap Surface.clashes,
          c.key = (m.id, m.id) := by
    rw [← Listing.exists_mem_firstBy_iff Clash.key]
    unfold nameClashes
    simp only [List.mem_map, exists_exists_and_eq_and,
      Clash.isClashOf_finding, min_self, max_self,
      decide_eq_true_eq]
  rw [hClashes]
  constructor
  · rintro ⟨c, hc, hKey⟩
    rcases List.mem_flatMap.mp hc with ⟨s, hSurface, hHere⟩
    rcases Surface.mem_clashes_iff.mp hHere with
      ⟨g, hGroup, x, y, hPair, hClash, rfl⟩
    have hIds :
        x.1.member.id = m.id ∧ y.1.member.id = m.id := by
      rw [← min_self m.id, ← max_self m.id] at hKey
      simpa using Clash.key_eq_iff.mp hKey
    rcases Listing.mem_of_mem_pairs hPair with ⟨hx, hy⟩
    have hFirst := hShows.member_eq_of_mem_named hSound
      hSurface ((Surface.mem_of_mem_groups hGroup).mp hx).1
      hMember hIds.1
    have hSecond := hShows.member_eq_of_mem_named hSound
      hSurface ((Surface.mem_of_mem_groups hGroup).mp hy).1
      hMember hIds.2
    have hCode := (clash_eq_true_iff.mp hClash).2
    rw [hFirst, hSecond, and_self, Bool.not_eq_true] at hCode
    exact ⟨⟨s, hSurface, g, hGroup, (x, y), hPair, hFirst,
      hSecond⟩, hCode⟩
  · rintro ⟨hPaired, hCode⟩
    have hField :=
      ((hShows.pairsWithItself_iff hSound hMember).mp
        hPaired).1
    rcases hPaired with
      ⟨s, hSurface, g, hGroup, ⟨x, y⟩, hPair, hFirst,
        hSecond⟩
    have hNamed := ((Surface.mem_of_mem_groups hGroup).mp
      (Listing.mem_of_mem_pairs hPair).1).1
    have hClash : clash x y :=
      hShows.clash_of_isField hSound hSurface hNamed
        (hSecond.trans hFirst.symm) (hFirst ▸ hField)
        (hFirst ▸ hCode)
    refine ⟨⟨s.type, g.1, x.1, y.1⟩,
      List.mem_flatMap.mpr ⟨s, hSurface,
        Surface.mem_clashes_iff.mpr
          ⟨g, hGroup, x, y, hPair, hClash, rfl⟩⟩, ?_⟩
    have hKey :
        Clash.key ⟨s.type, g.1, x.1, y.1⟩ =
          (min m.id m.id, max m.id m.id) :=
      Clash.key_eq_iff.mpr (.inl
        ⟨congrArg MemberNode.id hFirst,
          congrArg MemberNode.id hSecond⟩)
    rwa [min_self, max_self] at hKey

------------------------------------------------------------
-- Global Names
------------------------------------------------------------

/- A member makes its claim as often as it is listed. -/
theorem count_claims
    {m : MemberNode}
    (hMember : p.HasMember m) :
    (v.claims.map (fun c => c.member)).count m =
      if (v.claim? m).isSome then m.timesListed else 0 := by
  have hOthers :
      ∀ t ∈ p.typeNodes, t ≠ m.owner →
        m ∉ ((v.fieldsFirst t).filterMap v.claim?).map
          (fun c => c.member) := by
    intro t _ hNe hm
    rcases List.mem_map.mp hm with ⟨c, hc, rfl⟩
    rcases List.mem_filterMap.mp hc with ⟨n, hn, hClaim⟩
    rw [(claim?_eq_some_iff.mp hClaim).2.1] at hNe
    exact hNe (hShows.owner_eq_of_mem_fieldsFirst hn).symm
  have hFields :
      (v.fieldsFirst m.owner).count m = m.timesListed := by
    rw [← hSound.count_declaredBy hMember,
      ← hShows.program_eq]
    exact (fieldsFirst_perm_declaredBy v m.owner).count_eq m
  rw [hShows.claims_eq_flatMap, List.map_flatMap,
    hShows.types_eq,
    Listing.count_flatMap_eq_of_mem p.nodup_typeNodes
      (Program.mem_typeNodes_iff.mpr hMember.2.2) hOthers,
    ← hFields]
  unfold List.count
  rw [List.countP_map, List.countP_filterMap]
  cases hClaim : v.claim? m with
  | none =>
      rw [Option.isSome_none, if_neg (by decide)]
      apply List.countP_eq_zero.mpr
      intro n _ hSame
      cases hFound : v.claim? n with
      | none => simp [hFound] at hSame
      | some c =>
          have hOf := (claim?_eq_some_iff.mp hFound).2.1
          simp only [hFound, Option.map_some,
            Option.getD_some, Function.comp_apply,
            beq_iff_eq] at hSame
          rw [← hOf, hSame, hClaim] at hFound
          cases hFound
  | some claim =>
      rw [Option.isSome_some, if_pos rfl]
      apply List.countP_congr
      intro n _
      cases hFound : v.claim? n with
      | none =>
          have hNe : n ≠ m := by
            rintro rfl
            cases hClaim.symm.trans hFound
          simp [hNe]
      | some c =>
          have hOf := (claim?_eq_some_iff.mp hFound).2.1
          simp [hOf]

/- A claim that is made again is made against itself. -/
theorem claimsAgainstItself_iff
    {m : MemberNode}
    (hMember : p.HasMember m) :
    v.ClaimsAgainstItself m ↔
      m.owner.decl.isNative = false ∧
        (v.globalName? m).isSome ∧ 2 ≤ m.timesListed := by
  unfold ClaimsAgainstItself
  rw [Listing.exists_mem_pairs_iff_two_le_count,
    hShows.count_claims hSound hMember]
  unfold claim?
  cases hNative : m.owner.decl.isNative with
  | true => simp
  | false => cases v.globalName? m <;> simp

------------------------------------------------------------
-- Constructors
------------------------------------------------------------

/- An exported constructor listed again counts as another. -/
theorem isConstructorAgain_iff
    {m : MemberNode}
    (hMember : p.HasMember m) :
    v.IsConstructorAgain m ↔
      m.owner.decl.isNative = false ∧
        m.decl.isConstructor ∧ (v.identity? m).isSome ∧
          2 ≤ m.timesListed := by
  have hCount :
      m.decl.isConstructor → (v.identity? m).isSome →
        (((v.program.declaredBy m.owner).filter
          (fun c => c.decl.isConstructor)).filter
            v.isJsConstructor).count m = m.timesListed := by
    intro hMaker hExported
    have hKept :
        ((v.program.declaredBy m.owner).filter
            (fun c => c.decl.isConstructor)).count m =
          (v.program.declaredBy m.owner).count m :=
      List.count_filter hMaker
    rw [List.count_filter ((hShows.isJsConstructor_iff hSound
        hMember).mpr ⟨hExported, hMaker⟩),
      hKept, hShows.program_eq]
    exact hSound.count_declaredBy hMember
  constructor
  · rintro ⟨t, hType, hCode, e, hPair, hFirst, hSecond⟩
    have hIn := (Listing.mem_of_mem_pairs hPair).1
    rw [hFirst] at hIn
    rw [hShows.types_eq, Program.mem_typeNodes_iff] at hType
    have hExports :=
      (hShows.mem_exported_iff hSound hType).mp hIn
    cases hExports.owner_eq
    refine ⟨hCode, hExports.isConstructor,
      hExports.isExported, ?_⟩
    rw [← hCount hExports.isConstructor hExports.isExported]
    have hMany :=
      (Listing.exists_mem_pairs_iff_two_le_count id m _).mp
        ⟨e, hPair, hFirst, hSecond⟩
    rwa [List.map_id] at hMany
  · rintro ⟨hCode, hMaker, hExported, hMany⟩
    refine ⟨m.owner, ?_, hCode, ?_⟩
    · rw [hShows.types_eq]
      exact Program.mem_typeNodes_iff.mpr hMember.2.2
    · apply (Listing.exists_mem_pairs_iff_two_le_count id m
        _).mpr
      rwa [List.map_id, hCount hMaker hExported]

end Shows

end ExportView

------------------------------------------------------------
-- Programs
------------------------------------------------------------

/-
  A build accepts lists that repeat a number.  All members
  are listed, and going through all types meets each member
  as often as its owner lists it.  So all are met once if,
  and only if, no list has a number twice, and the rules on
  names compare a field of objects, a claim of a global name
  or an exported constructor with itself if, and only if, it
  is listed again.
-/
theorem members_met_as_often_as_listed
    {draft : Draft}
    {p : Program}
    (hBuild : draft.build = .ok p) :
    (∀ id, id ∈ draft.listed ↔ id < draft.members.length) ∧
      (p.typeNodes.flatMap p.declaredBy).map
          (fun m => m.id) = draft.listed ∧
      (∀ m, p.HasMember m →
        draft.listed.count m.id = m.timesListed ∧
          (p.typeNodes.flatMap p.declaredBy).count m =
            m.timesListed ∧
          1 ≤ m.timesListed) ∧
      (draft.listed.Perm (List.range draft.members.length) ↔
        ∀ d ∈ draft.types, d.members.Nodup) ∧
      ∃ v, p.exportView = .ok v ∧
        ∀ m, p.HasMember m →
          (v.PairsWithItself m ↔
            m.decl.isField ∧ m.decl.isStatic = false ∧
              (v.identity? m).isSome ∧
                2 ≤ m.timesListed) ∧
          ((∃ f ∈ v.nameClashes, f.isClashOf m.id m.id) ↔
            v.PairsWithItself m ∧ m.isNative = false) ∧
          (v.ClaimsAgainstItself m ↔
            m.owner.decl.isNative = false ∧
              (v.globalName? m).isSome ∧
                2 ≤ m.timesListed) ∧
          (v.IsConstructorAgain m ↔
            m.owner.decl.isNative = false ∧
              m.decl.isConstructor ∧
                (v.identity? m).isSome ∧
                  2 ≤ m.timesListed) := by
  have hSound := Program.sound_of_build hBuild
  have hSame := Program.draft_of_build hBuild
  have hLists := hSame ▸ hSound.wellFormed.memberLists
  have hOwners := hSame ▸ hSound.wellFormed.owners
  refine ⟨fun _ => Draft.mem_listed_iff hLists hOwners,
    hSame ▸ hSound.map_id_flatMap_declaredBy, ?_, ?_, ?_⟩
  · intro m hMember
    exact ⟨hSame ▸ hSound.count_listed hMember,
      hSound.count_flatMap_declaredBy hMember
        p.nodup_typeNodes
        (Program.mem_typeNodes_iff.mpr hMember.2.2),
      hSound.one_le_timesListed hMember⟩
  · constructor
    · intro hPerm
      exact (Draft.ownsEach_iff.mp ⟨hPerm, hLists⟩).2.2
    · intro hOnce
      exact (Draft.ownsEach_iff.mpr
        ⟨hLists, hOwners, hOnce⟩).listed_perm
  · rcases hSound.exportView_succeeds with ⟨v, hView⟩
    have hShows := Program.exportView_eq_ok_iff.mp hView
    refine ⟨v, hView, fun m hMember => ⟨?_, ?_, ?_, ?_⟩⟩
    · exact hShows.pairsWithItself_iff hSound hMember
    · exact hShows.exists_isClashOf_iff hSound hMember
    · exact hShows.claimsAgainstItself_iff hSound hMember
    · exact hShows.isConstructorAgain_iff hSound hMember

/-
  A tray lists each of its members twice: a field, a static
  method and its constructor.
-/
def Draft.tray : Draft :=
  ⟨[.plain "Tray" .classKind ⟨true, false, false⟩
      [0, 0, 1, 1, 2, 2]],
    [.plain "cup" 0 (.field ⟨.prim .int, .absent⟩)
        .untagged,
      { MemberDecl.plain "stack" 0
          (.plain (.method .void) [] .empty) .untagged with
        isStatic := true },
      .plain "Tray" 0 (.plain .constructor [] .empty)
        .jsConstructor]⟩

/- The members of the tray with the tray. -/
def Draft.trayNode
    (i : Fin 3) : MemberNode :=
  ⟨i, Draft.tray.members[i], 0, Draft.tray.types[0]⟩

theorem Draft.hasMember_trayNode
    {p : Program}
    (hBuild : Draft.tray.build = .ok p)
    (i : Fin 3) :
    p.HasMember (Draft.trayNode i) := by
  have hOwner :
      ∀ d ∈ Draft.tray.members, d.owner = some 0 := by
    decide
  exact Program.hasMember_of_build hBuild
    (List.getElem?_eq_getElem i.isLt)
    (hOwner _ (List.getElem_mem i.isLt)) rfl

/- All three are exported, and two of them by name. -/
theorem Draft.tray_exports
    {p : Program}
    (hBuild : Draft.tray.build = .ok p)
    {v : ExportView}
    (hView : p.exportView = .ok v) :
    (v.identity? (Draft.trayNode 0)).isSome ∧
      (v.globalName? (Draft.trayNode 1)).isSome ∧
      (v.identity? (Draft.trayNode 2)).isSome := by
  have hSeen :
      (Draft.tray.build.toOption.bind (fun p =>
        p.exportView.toOption.map (fun v => decide
          ((v.identity? (Draft.trayNode 0)).isSome ∧
            (v.globalName? (Draft.trayNode 1)).isSome ∧
            (v.identity? (Draft.trayNode 2)).isSome)))) =
        some true := by
    decide +kernel
  simp only [hBuild, hView, Except.toOption,
    Option.bind_some, Option.map_some, Option.some.injEq,
    decide_eq_true_eq] at hSeen
  exact hSeen

/-
  The tray is accepted, each of its members is met twice,
  and the check reports that the field clashes with itself,
  that the method finds its global name taken, and that
  the tray has more than one exported constructor.
-/
theorem tray_members_listed_twice :
    ∃ p outcome, Draft.tray.build = .ok p ∧
      (∀ i, p.HasMember (Draft.trayNode i) ∧
        Draft.tray.listed.count (Draft.trayNode i).id = 2 ∧
        (p.typeNodes.flatMap p.declaredBy).count
          (Draft.trayNode i) = 2) ∧
      p.check Settings.standard = .ok outcome ∧
      outcome.log.entries.map
          (fun d => (d.message, d.subjects)) =
        [("'int Tray.cup' and 'int Tray.cup' cannot both " ++
            "use the same JavaScript name 'cup'.",
          [.member 0, .member 0]),
        ("'void Tray.stack()' cannot be exported because " ++
            "the global name 'Tray.stack' is already taken.",
          [.member 1]),
        ("'Tray.Tray()' cannot be exported because " ++
            "the global name 'Tray' is already taken.",
          [.member 2]),
        ("More than one JsConstructor exists for Tray.",
          [.type 0])] := by
  have hBuilt : ∃ p, Draft.tray.build = .ok p := ⟨_, rfl⟩
  rcases hBuilt with ⟨p, hBuild⟩
  have hSound := Program.sound_of_build hBuild
  rcases hSound.check_succeeds Settings.standard with
    ⟨outcome, hOutcome⟩
  refine ⟨p, outcome, hBuild, ?_, hOutcome, ?_⟩
  · intro i
    have hMember := Draft.hasMember_trayNode hBuild i
    have hTwice : ∀ i, (Draft.trayNode i).timesListed = 2 := by
      decide
    have hDraft := hSound.count_listed hMember
    rw [Program.draft_of_build hBuild, hTwice] at hDraft
    refine ⟨hMember, hDraft, ?_⟩
    rw [hSound.count_flatMap_declaredBy hMember
      p.nodup_typeNodes
      (Program.mem_typeNodes_iff.mpr hMember.2.2), hTwice]
  · apply Draft.eq_of_map_check_eq_some hBuild hOutcome
      (fun o => o.log.entries.map
        (fun d => (d.message, d.subjects)))
    decide +kernel

/-
  So the field is paired with itself, the method claims its
  name against itself, and the constructor is another one.
-/
theorem tray_members_met_twice :
    ∃ p v, Draft.tray.build = .ok p ∧
      ¬ Draft.tray.listed.Perm
        (List.range Draft.tray.members.length) ∧
      p.exportView = .ok v ∧
      v.PairsWithItself (Draft.trayNode 0) ∧
      (∃ f ∈ v.nameClashes, f.isClashOf 0 0) ∧
      v.ClaimsAgainstItself (Draft.trayNode 1) ∧
      v.IsConstructorAgain (Draft.trayNode 2) := by
  have hBuilt : ∃ p, Draft.tray.build = .ok p := ⟨_, rfl⟩
  rcases hBuilt with ⟨p, hBuild⟩
  rcases members_met_as_often_as_listed hBuild with
    ⟨_, _, _, hOnce, v, hView, hEach⟩
  rcases Draft.tray_exports hBuild hView with
    ⟨hField, hMethod, hMaker⟩
  have hMember := Draft.hasMember_trayNode hBuild
  have hPairs := (hEach _ (hMember 0)).1.mpr
    ⟨rfl, rfl, hField, by decide⟩
  exact ⟨p, v, hBuild, mt hOnce.mp (by decide), hView, hPairs,
    (hEach _ (hMember 0)).2.1.mpr ⟨hPairs, rfl⟩,
    (hEach _ (hMember 1)).2.2.1.mpr
      ⟨rfl, hMethod, by decide⟩,
    (hEach _ (hMember 2)).2.2.2.mpr
      ⟨rfl, rfl, hMaker, by decide⟩⟩

end JsExport
