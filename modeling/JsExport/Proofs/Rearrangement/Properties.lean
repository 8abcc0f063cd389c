import JsExport.Proofs.Rearrangement.Globals
import JsExport.Proofs.Rules.Property

/-
  Reports on properties, of members in another order.

  Readers and writers of a property are sorted by signature,
  so the first reader and the first writer are the ones that
  they were, and so is each pair.

  Main declarations:
    * `ExportView.Rearranges.accessorShapes_perm`
    * `ExportView.Rearranges.groupIssues_eq`
    * `ExportView.Rearranges.properties_perm`
    * `ExportView.Rearranges.superAccessors_perm`
    * `ExportView.Rearranges.propertyFindings_perm`
-/

namespace JsExport

open Lookup

/- The issue with the same members. -/
def Rearrangement.issue
    (r : Rearrangement) : PropertyIssue → PropertyIssue
| .clash c => .clash (r.clash c)
| .mismatch c => .mismatch (r.clash c)

theorem Rearrangement.key_issue_iff
    (r : Rearrangement)
    (a b : PropertyIssue) :
    (r.issue a).key = (r.issue b).key ↔ a.key = b.key := by
  cases a with
  | clash c =>
      cases b with
      | clash d =>
          unfold issue PropertyIssue.key
          rw [Sum.inl.injEq, Sum.inl.injEq]
          exact r.key_clash_iff c d
      | mismatch d =>
          constructor
          · intro hKey
            cases hKey
          · intro hKey
            cases hKey
  | mismatch c =>
      cases b with
      | clash d =>
          constructor
          · intro hKey
            cases hKey
          · intro hKey
            cases hKey
      | mismatch d => exact Iff.rfl

theorem Rearrangement.typesDiffer_slot
    (r : Rearrangement)
    (getter setter : Slot) :
    ExportView.typesDiffer (r.slot getter) (r.slot setter) =
      ExportView.typesDiffer getter setter := by
  have hGetter :
      (r.slot getter).member.decl.callable? =
        getter.member.decl.callable?.map
          (.renumber r.number) :=
    MemberDecl.callable?_renumber r.number _
  have hType :
      (r.slot setter).member.decl.callable?.bind
          (fun c => c.paramTypes.head?) =
        setter.member.decl.callable?.bind
          (fun c => c.paramTypes.head?) := by
    change (setter.member.decl.renumber
      r.number).callable?.bind _ = _
    rw [MemberDecl.callable?_renumber]
    cases setter.member.decl.callable? <;> rfl
  unfold ExportView.typesDiffer
  rw [hGetter, hType]
  cases getter.member.decl.callable? with
  | none => rfl
  | some c =>
      cases setter.member.decl.callable?.bind
        (fun c => c.paramTypes.head?) <;> rfl

theorem Rearrangement.mismatchFinding_clash
    (r : Rearrangement)
    (c : Clash) :
    ExportView.mismatchFinding (r.clash c) =
      r.finding (ExportView.mismatchFinding c) := by
  unfold ExportView.mismatchFinding
  dsimp only
  change Finding.about (Finding.about
    (if c.second.member.owner.id == c.type.id then _
    else if c.first.member.owner.id == c.type.id then _
      else _) _) _ = _
  by_cases hSetter : c.second.member.owner.id == c.type.id
  · rw [if_pos hSetter, if_pos hSetter]
    rfl
  · rw [if_neg hSetter, if_neg hSetter]
    by_cases hGetter : c.first.member.owner.id == c.type.id
    · rw [if_pos hGetter, if_pos hGetter]
      rfl
    · rw [if_neg hGetter, if_neg hGetter]
      rfl

namespace ExportView.Rearranges

variable {v w : ExportView}
variable {r : Rearrangement}
variable (hViews : w.Rearranges r v)

include hViews

------------------------------------------------------------
-- Shapes
------------------------------------------------------------

theorem isAccessor_eq
    (m : MemberId) :
    w.table.isAccessor (r.number m) =
      v.table.isAccessor m := by
  unfold ExportTable.isAccessor
  rw [hViews.table_identity?_eq]

theorem shapeFinding?_eq
    (m : MemberNode) :
    w.shapeFinding? (r.member m) =
      (v.shapeFinding? m).map r.finding := by
  have hBreach :
      (r.member m).decl.callable?.bind
          (shapeBreach? (r.member m).decl.name) =
        m.decl.callable?.bind
          (shapeBreach? m.decl.name) := by
    rw [r.decl_member, MemberDecl.callable?_renumber]
    cases m.decl.callable? <;> rfl
  unfold shapeFinding?
  rw [r.id_member, hViews.isAccessor_eq,
    hViews.signature_eq, hBreach]
  by_cases hAccessor : v.table.isAccessor m.id
  · rw [if_pos hAccessor, if_pos hAccessor, Option.map_map]
    rfl
  · rw [if_neg hAccessor, if_neg hAccessor]
    rfl

/- The reports on shapes are the same but for order. -/
theorem accessorShapes_perm :
    w.accessorShapes.Perm
      (v.accessorShapes.map r.finding) := by
  unfold accessorShapes
  refine (hViews.members_perm.filterMap _).trans
    (List.Perm.of_eq ?_)
  rw [List.filterMap_map, List.map_filterMap]
  apply List.filterMap_congr
  intro m _
  exact hViews.shapeFinding?_eq m

------------------------------------------------------------
-- Issues Of Properties
------------------------------------------------------------

section Groups

variable {s : Surface}
variable (hSurface : s ∈ v.surfaces)
variable {g : String × List (Slot × JsIdentity)}
variable (hGroup : g ∈ s.groups)

include hSurface hGroup

omit hViews hSurface in
theorem slot_mem_of_mem_accessors
    {access : Accessor}
    {slot : Slot}
    (hSlot : slot ∈ v.accessors access g.2) :
    slot ∈ s.slots ∧
      ∃ identity, slot.identity = some identity ∧
        identity.name = g.1 := by
  rcases mem_accessors_iff.mp hSlot with ⟨e, he, _, rfl⟩
  rcases (Surface.mem_of_mem_groups hGroup).mp he with
    ⟨hNamed, hName⟩
  rcases Surface.mem_named_iff.mp hNamed with
    ⟨hIn, hIdentity⟩
  exact ⟨hIn, e.2, hIdentity, hName⟩

/- Like accessors that read alike are one. -/
theorem accessor_eq_of_signature_eq
    {access : Accessor}
    {a b : Slot}
    (ha : a ∈ v.accessors access g.2)
    (hb : b ∈ v.accessors access g.2)
    (hText : v.signature a.member = v.signature b.member) :
    a = b :=
  hViews.slot_eq_of_signature_eq hSurface
    (slot_mem_of_mem_accessors hGroup ha).1
    (slot_mem_of_mem_accessors hGroup hb).1 hText

/- Accessors are sorted as before. -/
theorem accessors_eq
    {group : List (Slot × JsIdentity)}
    (hPerm : group.Perm (g.2.map r.entry))
    (access : Accessor) :
    w.accessors access group =
      (v.accessors access g.2).map r.slot := by
  let keep (e : Slot × JsIdentity) : Bool :=
    decide (e.2.role = .property access)
  have hKept :
      (group.filter keep).Perm
        ((g.2.filter keep).map r.entry) :=
    Listing.filter_perm_map hPerm (fun _ _ => rfl)
  have hSlots := hKept.map (fun e => e.1)
  rw [List.map_map] at hSlots
  have hIn :
      ∀ slot ∈ (g.2.filter keep).map (fun e => e.1),
        slot ∈ v.accessors access g.2 := by
    intro slot hSlot
    exact (accessors_perm access).mem_iff.mpr hSlot
  apply Listing.sortedOn_eq_map_of_perm
  · intro slot _
    exact hViews.signature_eq slot.member
  · rw [List.map_map]
    exact hSlots
  · intro a ha b hb hText
    exact congrArg r.slot
      (hViews.accessor_eq_of_signature_eq hSurface hGroup
        (hIn a ha) (hIn b hb) hText)

/- A group has the issues that it had, in the same order. -/
theorem groupIssues_eq
    {group : List (Slot × JsIdentity)}
    (hPerm : group.Perm (g.2.map r.entry)) :
    w.groupIssues (r.type s.type) g.1 group =
      (v.groupIssues s.type g.1 g.2).map r.issue := by
  have hAccessors :=
    hViews.accessors_eq hSurface hGroup hPerm
  have hClashes :
      (Listing.pairs (w.accessors .getter group) ++
          Listing.pairs (w.accessors .setter group)).map
            (fun e => PropertyIssue.clash
              ⟨r.type s.type, g.1, e.1, e.2⟩) =
        ((Listing.pairs (v.accessors .getter g.2) ++
          Listing.pairs (v.accessors .setter g.2)).map
            (fun e => PropertyIssue.clash
              ⟨s.type, g.1, e.1, e.2⟩)).map r.issue := by
    rw [hAccessors, hAccessors, Listing.pairs_map,
      Listing.pairs_map, ← List.map_append, List.map_map,
      List.map_map]
    rfl
  unfold groupIssues
  dsimp only
  rw [hClashes, hAccessors, hAccessors, List.head?_map,
    List.head?_map]
  cases (v.accessors .getter g.2).head? with
  | none => rfl
  | some getter =>
      cases (v.accessors .setter g.2).head? with
      | none => rfl
      | some setter =>
          dsimp only [Option.map_some]
          rw [r.typesDiffer_slot]
          by_cases hTypes : typesDiffer getter setter
          · rw [if_pos hTypes, if_pos hTypes]
            refine Eq.trans ?_ List.map_append.symm
            rfl
          · rw [if_neg hTypes, if_neg hTypes]

end Groups

omit hViews in
/- The accessors of a pair are in order. -/
theorem signature_le_of_mem_pairs
    {access : Accessor}
    {group : List (Slot × JsIdentity)}
    {a b : Slot}
    (hPair :
      (a, b) ∈ Listing.pairs (v.accessors access group)) :
    v.signature a.member ≤ v.signature b.member :=
  Listing.related_of_mem_pairs
    (Listing.pairwise_sortedOn
      (fun slot : Slot => v.signature slot.member) _) hPair

/- Pairs of like accessors with one key are one pair. -/
theorem accessorPair_eq_of_key_eq
    {s : Surface}
    (hSurface : s ∈ v.surfaces)
    {g h : String × List (Slot × JsIdentity)}
    (hg : g ∈ s.groups)
    (hh : h ∈ s.groups)
    {access access' : Accessor}
    {a b a' b' : Slot}
    (hPair :
      (a, b) ∈ Listing.pairs (v.accessors access g.2))
    (hPair' :
      (a', b') ∈ Listing.pairs (v.accessors access' h.2))
    (hKey :
      (Clash.mk s.type g.1 a b).key =
        (Clash.mk s.type h.1 a' b').key) :
    a = a' ∧ b = b' := by
  have hSlots :
      ∀ x ∈ s.slots, ∀ y ∈ s.slots,
        x.member.id = y.member.id → x = y := by
    intro x hx y hy hId
    exact hViews.shows.slot_eq_of_member_id_eq
      hViews.program.sound hSurface hx hy hId
  rcases Listing.mem_of_mem_pairs hPair with ⟨ha, hb⟩
  rcases Listing.mem_of_mem_pairs hPair' with ⟨ha', hb'⟩
  have haIn := (slot_mem_of_mem_accessors hg ha).1
  have hbIn := (slot_mem_of_mem_accessors hg hb).1
  have haIn' := (slot_mem_of_mem_accessors hh ha').1
  have hbIn' := (slot_mem_of_mem_accessors hh hb').1
  rcases Clash.key_eq_key_iff.mp hKey with
    ⟨hFirst, hSecond⟩ | ⟨hFirst, hSecond⟩
  · exact ⟨hSlots a haIn a' haIn' hFirst,
      hSlots b hbIn b' hbIn' hSecond⟩
  · -- Both pairs are in order, so their slots read alike.
    have hCross := hSlots a haIn b' hbIn' hFirst
    have hCross' := hSlots b hbIn a' haIn' hSecond
    have hLe := signature_le_of_mem_pairs hPair
    have hGe := signature_le_of_mem_pairs hPair'
    rw [← hCross, ← hCross'] at hGe
    have hOne :=
      hViews.slot_eq_of_signature_eq hSurface haIn hbIn
        (String.le_antisymm hLe hGe)
    exact ⟨hOne.trans hCross', hOne.symm.trans hCross⟩

/- At one type a key means one issue. -/
theorem issue_eq_of_key_eq
    {s : Surface}
    (hSurface : s ∈ v.surfaces)
    {a b : PropertyIssue}
    (ha :
      a ∈ s.groups.flatMap (fun g =>
        v.groupIssues s.type g.1 g.2))
    (hb :
      b ∈ s.groups.flatMap (fun g =>
        v.groupIssues s.type g.1 g.2))
    (hKey : a.key = b.key) :
    a = b := by
  rcases List.mem_flatMap.mp ha with ⟨g, hg, haIn⟩
  rcases List.mem_flatMap.mp hb with ⟨h, hh, hbIn⟩
  rcases mem_groupIssues_cases haIn with
    ⟨access, x, y, hPair, rfl⟩ |
      ⟨getter, setter, hGetter, hSetter, rfl⟩
  · rcases mem_groupIssues_cases hbIn with
      ⟨access', x', y', hPair', rfl⟩ | ⟨_, _, _, _, rfl⟩
    · rcases hViews.accessorPair_eq_of_key_eq hSurface hg hh
          hPair hPair' (Sum.inl.inj hKey) with
        ⟨rfl, rfl⟩
      have hx := (Listing.mem_of_mem_pairs hPair).1
      have hx' := (Listing.mem_of_mem_pairs hPair').1
      rcases slot_mem_of_mem_accessors hg hx with
        ⟨_, identity, hIdentity, hName⟩
      rcases slot_mem_of_mem_accessors hh hx' with
        ⟨_, identity', hIdentity', hName'⟩
      rw [hIdentity] at hIdentity'
      rw [← hName, ← hName', Option.some.inj hIdentity']
    · cases hKey
  · rcases mem_groupIssues_cases hbIn with
      ⟨_, _, _, _, rfl⟩ |
        ⟨getter', setter', hGetter', hSetter', rfl⟩
    · cases hKey
    · have hName : g.1 = h.1 :=
        congrArg Prod.snd (Sum.inr.inj hKey)
      have hGroups : g.2 = h.2 := by
        rw [(Surface.mem_groups_iff.mp hg).2,
          (Surface.mem_groups_iff.mp hh).2, hName]
      rw [hGroups] at hGetter hSetter
      rw [hGetter] at hGetter'
      rw [hSetter] at hSetter'
      rw [hName, Option.some.inj hGetter',
        Option.some.inj hSetter']

theorem issueFinding_eq
    (issue : PropertyIssue) :
    w.issueFinding (r.issue issue) =
      r.finding (v.issueFinding issue) := by
  cases issue with
  | clash c => exact hViews.clash_finding_eq c
  | mismatch c => exact r.mismatchFinding_clash c

/- The reports on properties are the same but for order. -/
theorem properties_perm :
    w.properties.Perm (v.properties.map r.finding) := by
  have hBlocks :
      List.Forall₂
        (fun block' block =>
          block'.Perm (block.map r.issue))
        (w.surfaces.map (fun s =>
          s.groups.flatMap (fun g =>
            w.groupIssues s.type g.1 g.2)))
        (v.surfaces.map (fun s =>
          s.groups.flatMap (fun g =>
            v.groupIssues s.type g.1 g.2))) := by
    rw [List.forall₂_map_left_iff,
      List.forall₂_map_right_iff]
    refine hViews.surfaces_moved.imp ?_
    intro s' s hMoved
    rw [List.map_flatMap, hMoved.1.type_eq]
    apply hMoved.1.flatMap_groups_perm
    intro g hg group hPerm
    exact List.Perm.of_eq
      (hViews.groupIssues_eq hMoved.2 hg hPerm)
  unfold properties propertyIssues
  rw [List.flatMap_def, List.flatMap_def, List.map_map]
  refine ((Listing.firstBy_flatten_perm_map
    PropertyIssue.key hBlocks ?_ ?_).map _).trans
      (List.Perm.of_eq ?_)
  · intro a _ b _
    exact r.key_issue_iff a b
  · intro block hBlock a ha b hb hKey
    rcases List.mem_map.mp hBlock with ⟨s, hs, rfl⟩
    exact hViews.issue_eq_of_key_eq hs ha hb hKey
  · rw [List.map_map]
    apply List.map_congr_left
    intro issue _
    exact hViews.issueFinding_eq issue

------------------------------------------------------------
-- Calls Through Super
------------------------------------------------------------

theorem superAccessor_eq_ok
    {m : MemberNode}
    {call : SuperCall}
    {found : Finding}
    (hFound : v.superAccessor m call = .ok found) :
    w.superAccessor (r.member m) (call.renumber r.number) =
      .ok (r.finding found) := by
  rcases bind_eq_ok_iff.mp hFound with
    ⟨target, hTarget, hEq⟩
  cases hEq
  apply bind_eq_ok_iff.mpr
  refine ⟨r.member target,
    hViews.program.member_eq_ok hTarget, ?_⟩
  rw [hViews.signature_eq]
  rfl

/- The reports on super calls are the same but for order. -/
theorem superAccessors_perm
    {found found' : List Finding}
    (hFound : v.superAccessors = .ok found)
    (hFound' : w.superAccessors = .ok found') :
    found'.Perm (found.map r.finding) := by
  refine bind_flatten_perm hViews.members_perm ?_ hFound
    hFound'
  intro m _ here here' hHere hHere'
  have hCalls :
      (r.member m).decl.superCalls.filter (fun call =>
          w.table.isAccessor call.target) =
        (m.decl.superCalls.filter (fun call =>
          v.table.isAccessor call.target)).map
            (.renumber r.number) := by
    rw [r.decl_member, MemberDecl.superCalls_renumber,
      List.filter_map]
    apply congrArg (List.map _)
    apply List.filter_congr
    intro call _
    exact hViews.isAccessor_eq call.target
  rw [hCalls, List.mapM_map] at hHere'
  have hMoved := mapM_eq_ok_map_of_mapM_eq_ok
    (fun _ _ _ hOne => hViews.superAccessor_eq_ok hOne)
    hHere
  rw [Except.ok.inj (hHere'.symm.trans hMoved)]

/- The reports on properties are the same but for order. -/
theorem propertyFindings_perm
    {found found' : List Finding}
    (hFound : v.propertyFindings = .ok found)
    (hFound' : w.propertyFindings = .ok found') :
    found'.Perm (found.map r.finding) := by
  rcases propertyFindings_eq_ok_iff.mp hFound with
    ⟨calls, hSome, rfl⟩
  rcases propertyFindings_eq_ok_iff.mp hFound' with
    ⟨calls', hSome', rfl⟩
  rw [List.map_append, List.map_append]
  exact (hViews.accessorShapes_perm.append
    hViews.properties_perm).append
      (hViews.superAccessors_perm hSome hSome')

end ExportView.Rearranges

end JsExport
