import JsExport.Proofs.Rearrangement.View
import JsExport.Proofs.Rules.NameClash
import JsExport.Proofs.Rules.Naming

/-
  Reports on names of slots, of members in another order.

  The slots of one name are permuted, so each two of them
  make a pair in one order or the other.  The report on a
  pair names its members in the order of their signatures,
  which does not depend on the pair.  Each two members are
  reported at the same type, since types keep their order.

  Main declarations:
    * `Surface.Rearranges.flatMap_groups_perm`
    * `ExportView.Rearranges.nameClashes_perm`
    * `ExportView.Rearranges.renames_perm`
-/

namespace JsExport

open Lookup

------------------------------------------------------------
-- Groups Of One Name
------------------------------------------------------------

/- The entry of a slot of the same members. -/
def Rearrangement.entry
    (r : Rearrangement)
    (e : Slot × JsIdentity) : Slot × JsIdentity :=
  (r.slot e.1, e.2)

namespace Surface.Rearranges

variable {s s' : Surface}
variable {r : Rearrangement}
variable (hMoved : s'.Rearranges r s)

include hMoved

theorem named_perm :
    s'.named.Perm (s.named.map r.entry) := by
  unfold Surface.named
  rw [List.map_filterMap]
  refine (hMoved.slots_perm.filterMap _).trans ?_
  rw [List.filterMap_map]
  refine List.Perm.of_eq (List.filterMap_congr ?_)
  intro slot _
  rw [Function.comp, Option.map_map]
  rfl

/- What is read off the groups of a surface is permuted. -/
theorem flatMap_groups_perm
    {α : Type}
    {read read' :
      String × List (Slot × JsIdentity) → List α}
    (hEach :
      ∀ g ∈ s.groups, ∀ group,
        group.Perm (g.2.map r.entry) →
          (read' (g.1, group)).Perm (read g)) :
    (s'.groups.flatMap read').Perm
      (s.groups.flatMap read) := by
  let name (e : Slot × JsIdentity) : String := e.2.name
  have hSorted :
      s.groups.Perm (Listing.groupsBy name s.named) :=
    Listing.sorted_perm _ _
  have hSorted' :
      s'.groups.Perm (Listing.groupsBy name s'.named) :=
    Listing.sorted_perm _ _
  refine (hSorted'.flatMap_right read').trans ?_
  refine List.Perm.trans ?_
    (hSorted.flatMap_right read).symm
  apply Listing.flatMap_groupsBy_perm (fun _ _ => rfl)
    hMoved.named_perm
  intro g hg
  exact hEach g (hSorted.mem_iff.mpr hg)

end Surface.Rearranges

------------------------------------------------------------
-- Clashes
------------------------------------------------------------

/- The clash of the same members. -/
def Rearrangement.clash
    (r : Rearrangement)
    (c : Clash) : Clash :=
  ⟨r.type c.type, c.name, r.slot c.first, r.slot c.second⟩

namespace Clash

/- The same clash with its members the other way round. -/
def swap
    (c : Clash) : Clash :=
  ⟨c.type, c.name, c.second, c.first⟩

theorem key_swap
    (c : Clash) :
    c.swap.key = c.key :=
  Prod.ext (Nat.min_comm _ _) (Nat.max_comm _ _)

/-
  Clashes are ordered by signatures, so it does not matter
  which way round they are given.
-/
theorem ordered_swap
    {v : ExportView}
    {c : Clash}
    (hApart :
      v.signature c.first.member =
          v.signature c.second.member →
        c.first = c.second) :
    c.swap.ordered v = c.ordered v := by
  rcases c with ⟨type, name, a, b⟩
  unfold ordered swap
  dsimp only at hApart ⊢
  by_cases hLe : v.signature a.member ≤ v.signature b.member
  · by_cases hGe : v.signature b.member ≤ v.signature a.member
    · rw [if_pos hLe, if_pos hGe,
        hApart (String.le_antisymm hLe hGe)]
    · rw [if_pos hLe, if_neg hGe]
  · have hGe := (String.le_total _ _).resolve_left hLe
    rw [if_neg hLe, if_pos hGe]

theorem key_eq_key_iff
    {c d : Clash} :
    c.key = d.key ↔
      c.first.member.id = d.first.member.id ∧
          c.second.member.id = d.second.member.id ∨
        c.first.member.id = d.second.member.id ∧
          c.second.member.id = d.first.member.id :=
  key_eq_iff

end Clash

namespace Rearrangement

variable (r : Rearrangement)

theorem key_clash_iff
    (c d : Clash) :
    (r.clash c).key = (r.clash d).key ↔
      c.key = d.key := by
  rw [Clash.key_eq_key_iff, Clash.key_eq_key_iff]
  unfold clash slot
  simp only [r.id_member, r.number_eq_iff]

end Rearrangement

theorem clash_comm
    (x y : Slot × JsIdentity) :
    clash x y = clash y x := by
  unfold clash
  rw [Bool.and_comm x.2.role.isProperty,
    Bool.and_comm x.1.member.isNative]

/- What is read off the clashes of a surface. -/
theorem Surface.map_clashes
    {α : Type}
    (s : Surface)
    (read : Clash → α) :
    s.clashes.map read =
      s.groups.flatMap (fun g =>
        (Listing.pairs g.2).filterMap (fun e =>
          if clash e.1 e.2 then
            some (read ⟨s.type, g.1, e.1.1, e.2.1⟩)
          else none)) := by
  unfold clashes
  rw [List.map_flatMap]
  apply List.flatMap_congr
  intro g _
  rw [List.map_map, ← List.filterMap_eq_map,
    List.filterMap_filter]
  rfl

/- The rename of the same members. -/
def Rearrangement.rename
    (r : Rearrangement)
    (e : Rename) : Rename :=
  ⟨r.slot e.slot, r.member e.other⟩

theorem Rearrangement.key_rename_iff
    (r : Rearrangement)
    (c d : Rename) :
    (r.rename c).key = (r.rename d).key ↔
      c.key = d.key := by
  unfold Rename.key rename slot
  rw [Prod.ext_iff, Prod.ext_iff]
  simp only [r.id_member, r.number_eq_iff]

namespace ExportView.Rearranges

variable {v w : ExportView}
variable {r : Rearrangement}
variable (hViews : w.Rearranges r v)

include hViews

/- Slots of one surface are apart when they read apart. -/
theorem slot_eq_of_signature_eq
    {s : Surface}
    (hSurface : s ∈ v.surfaces)
    {a b : Slot}
    (ha : a ∈ s.slots)
    (hb : b ∈ s.slots)
    (hText : v.signature a.member = v.signature b.member) :
    a = b := by
  have hSound := hViews.program.sound
  have hMember := hViews.apart.texts_apart a.member b.member
    (hViews.shows.hasMember_slot hSound hSurface ha).1
    (hViews.shows.hasMember_slot hSound hSurface hb).1 hText
  exact hViews.shows.slot_eq_of_member_id_eq hSound hSurface
    ha hb (congrArg MemberNode.id hMember)

theorem ordered_clash_eq
    (c : Clash) :
    (r.clash c).ordered w = r.clash (c.ordered v) := by
  have hFirst :
      w.signature (r.clash c).first.member =
        v.signature c.first.member :=
    hViews.signature_eq c.first.member
  have hSecond :
      w.signature (r.clash c).second.member =
        v.signature c.second.member :=
    hViews.signature_eq c.second.member
  unfold Clash.ordered
  rw [hFirst, hSecond]
  split <;> rfl

theorem clash_finding_eq
    (c : Clash) :
    (r.clash c).finding w = r.finding (c.finding v) := by
  have hTexts :
      w.clashTexts (r.clash c).type (r.clash c).first
          (r.clash c).second =
        v.clashTexts c.type c.first c.second :=
    hViews.clashTexts_eq c.type c.first c.second
  unfold Clash.finding
  rw [hTexts]
  rfl

theorem report_clash_eq
    (c : Clash) :
    ((r.clash c).ordered w).finding w =
      r.finding ((c.ordered v).finding v) := by
  rw [hViews.ordered_clash_eq, hViews.clash_finding_eq]

/- The report on two members does not depend on their order. -/
theorem ordered_finding_swap
    {s : Surface}
    (hSurface : s ∈ v.surfaces)
    {c : Clash}
    (hFirst : c.first ∈ s.slots)
    (hSecond : c.second ∈ s.slots) :
    (c.swap.ordered v).finding v =
      (c.ordered v).finding v := by
  rw [Clash.ordered_swap]
  intro hText
  exact hViews.slot_eq_of_signature_eq hSurface hFirst
    hSecond hText

/- Two clashes at a type with one key are about one pair. -/
theorem clash_eq_or_swap
    {s : Surface}
    (hSurface : s ∈ v.surfaces)
    {c d : Clash}
    (hc : c ∈ s.clashes)
    (hd : d ∈ s.clashes)
    (hKey : c.key = d.key) :
    d = c ∨ d = c.swap := by
  have hSlot :
      ∀ x ∈ s.named, ∀ y ∈ s.named,
        x.1.member.id = y.1.member.id → x = y := by
    intro x hx y hy hId
    rcases Surface.mem_named_iff.mp hx with ⟨hxIn, hxName⟩
    rcases Surface.mem_named_iff.mp hy with ⟨hyIn, hyName⟩
    have hSame := hViews.shows.slot_eq_of_member_id_eq
      hViews.program.sound hSurface hxIn hyIn hId
    rw [hSame, hyName] at hxName
    exact Prod.ext hSame (Option.some.inj hxName).symm
  rcases Surface.clashes_of_mem_clashes hc with
    ⟨hType, x, y, hClash, hx, hy, hName⟩
  rcases Surface.clashes_of_mem_clashes hd with
    ⟨hType', x', y', hClash', hx', hy', hName'⟩
  rw [Clash.key_eq_key_iff, hx, hy, hx', hy'] at hKey
  rcases c with ⟨type, name, first, second⟩
  rcases d with ⟨type', name', first', second'⟩
  dsimp only at hType hType' hx hy hx' hy' hName hName'
  subst hType hType' hx hy hx' hy' hName hName'
  rcases hKey with ⟨hFirst, hSecond⟩ | ⟨hFirst, hSecond⟩
  · left
    rw [hSlot x hClash.first_mem x' hClash'.first_mem hFirst,
      hSlot y hClash.second_mem y' hClash'.second_mem
        hSecond]
  · right
    unfold Clash.swap
    rw [hSlot x hClash.first_mem y' hClash'.second_mem
        hFirst,
      hSlot y hClash.second_mem x' hClash'.first_mem
        hSecond, hClash'.name_eq]

/- The clashes of a surface are the same but for order. -/
theorem clashes_perm
    {s s' : Surface}
    (hMoved : s'.Rearranges r s)
    (hSurface : s ∈ v.surfaces) :
    (s'.clashes.map (fun c =>
        (c.key, (c.ordered w).finding w))).Perm
      (s.clashes.map (fun c =>
        ((r.clash c).key,
          ((r.clash c).ordered w).finding w))) := by
  rw [Surface.map_clashes, Surface.map_clashes]
  apply hMoved.flatMap_groups_perm
  intro g hg group hGroup
  dsimp only
  have hSlots :
      ∀ e ∈ group, ∃ x ∈ g.2, e = r.entry x := by
    intro e he
    rcases List.mem_map.mp (hGroup.mem_iff.mp he) with
      ⟨x, hx, rfl⟩
    exact ⟨x, hx, rfl⟩
  refine (Listing.filterMap_pairs_perm hGroup ?_).trans ?_
  · intro a ha b hb
    rcases hSlots a ha with ⟨x, hx, rfl⟩
    rcases hSlots b hb with ⟨y, hy, rfl⟩
    have hxNamed := ((Surface.mem_of_mem_groups hg).mp hx).1
    have hyNamed := ((Surface.mem_of_mem_groups hg).mp hy).1
    let c : Clash := ⟨s.type, g.1, x.1, y.1⟩
    have hSwap :
        ((r.clash c.swap).ordered w).finding w =
          ((r.clash c).ordered w).finding w := by
      rw [hViews.report_clash_eq, hViews.report_clash_eq,
        hViews.ordered_finding_swap hSurface
          (Surface.mem_named_iff.mp hxNamed).1
          (Surface.mem_named_iff.mp hyNamed).1]
    have hKey : (r.clash c.swap).key = (r.clash c).key :=
      (r.clash c).key_swap
    have hMarks :
        ((r.clash c.swap).key,
            ((r.clash c.swap).ordered w).finding w) =
          ((r.clash c).key,
            ((r.clash c).ordered w).finding w) :=
      Prod.ext hKey hSwap
    rw [clash_comm, hMoved.type_eq]
    exact congrArg (fun mark =>
      if clash (r.entry y) (r.entry x) then some mark
      else none) hMarks.symm
  · rw [Listing.pairs_map, List.filterMap_map,
      hMoved.type_eq]
    exact List.Perm.refl _

/- The reports on clashes are the same but for order. -/
theorem nameClashes_perm :
    w.nameClashes.Perm (v.nameClashes.map r.finding) := by
  have hBlocks :
      List.Forall₂
        (fun block' block =>
          (block'.map (fun c : Clash =>
              (c.key, (c.ordered w).finding w))).Perm
            (block.map (fun c =>
              ((r.clash c).key,
                ((r.clash c).ordered w).finding w))))
        (w.surfaces.map Surface.clashes)
        (v.surfaces.map Surface.clashes) := by
    rw [List.forall₂_map_left_iff,
      List.forall₂_map_right_iff]
    refine hViews.surfaces_moved.imp ?_
    intro s' s hMoved
    exact hViews.clashes_perm hMoved.1 hMoved.2
  have hPerm := Listing.map_firstBy_flatten_perm Clash.key
    hBlocks (fun c _ d _ => r.key_clash_iff c d) (by
      intro block hBlock c hc d hd hKey
      rcases List.mem_map.mp hBlock with ⟨s, hs, rfl⟩
      rcases Surface.clashes_of_mem_clashes hc with
        ⟨_, x, y, hClash, hx, hy, _⟩
      rw [hViews.report_clash_eq, hViews.report_clash_eq]
      rcases hViews.clash_eq_or_swap hs hc hd hKey with
        hSame | hSwap
      · rw [hSame]
      · rw [hSwap, hViews.ordered_finding_swap hs
          (hx ▸ (Surface.mem_named_iff.mp
            hClash.first_mem).1)
          (hy ▸ (Surface.mem_named_iff.mp
            hClash.second_mem).1)])
  unfold nameClashes
  rw [List.flatMap_def, List.flatMap_def, List.map_map]
  refine hPerm.trans (List.Perm.of_eq ?_)
  apply List.map_congr_left
  intro c _
  exact hViews.report_clash_eq c

------------------------------------------------------------
-- Renames
------------------------------------------------------------

theorem quoted_eq
    (slot : Slot) :
    w.quoted (r.slot slot) = v.quoted slot :=
  hViews.program.quoted_eq slot.member slot.exposedBy

theorem rename_finding_eq
    (e : Rename) :
    (Finding.ofMember (r.rename e).slot.member
        (.renamedOverride (w.quoted (r.rename e).slot))).about
          (.member (r.rename e).other.id) =
      r.finding ((Finding.ofMember e.slot.member
        (.renamedOverride (v.quoted e.slot))).about
          (.member e.other.id)) := by
  have hQuoted :
      w.quoted (r.rename e).slot = v.quoted e.slot :=
    hViews.quoted_eq e.slot
  rw [hQuoted]
  rfl

/- At one type a key means one rename. -/
theorem rename_eq_of_key_eq
    {s : Surface}
    (hSurface : s ∈ v.surfaces)
    {c d : Rename}
    (hc : c ∈ s.slots.flatMap v.slotRenames)
    (hd : d ∈ s.slots.flatMap v.slotRenames)
    (hKey : c.key = d.key) :
    c = d := by
  have hSound := hViews.program.sound
  rcases List.mem_flatMap.mp hc with ⟨a, ha, hcIn⟩
  rcases List.mem_flatMap.mp hd with ⟨b, hb, hdIn⟩
  rcases of_mem_slotRenames hcIn with
    ⟨_, hcSlot, hcOther⟩
  rcases of_mem_slotRenames hdIn with
    ⟨_, hdSlot, hdOther⟩
  rcases c with ⟨slot, other⟩
  rcases d with ⟨slot', other'⟩
  dsimp only at hcSlot hcOther hdSlot hdOther
  subst hcSlot hdSlot
  have hSlots :=
    hViews.shows.slot_eq_of_member_id_eq hSound hSurface
      ha hb (congrArg Prod.fst hKey)
  have hOthers :=
    ((hViews.shows.hasMember_slot hSound hSurface ha).2
        other hcOther).eq_of_id_eq
      ((hViews.shows.hasMember_slot hSound hSurface hb).2
        other' hdOther) (congrArg Prod.snd hKey)
  rw [hSlots, hOthers]

theorem slotRenames_eq
    (slot : Slot) :
    w.slotRenames (r.slot slot) =
      (v.slotRenames slot).map r.rename := by
  unfold slotRenames
  have hIdentity : (r.slot slot).identity = slot.identity :=
    rfl
  rw [hIdentity]
  cases slot.identity with
  | none => rfl
  | some identity =>
      have hOthers :
          ((r.slot slot).overridden.filter (fun n =>
              (w.identity? n).any (disagree identity))) =
            (slot.overridden.filter (fun n =>
              (v.identity? n).any
                (disagree identity))).map r.member := by
        change (slot.overridden.map r.member).filter _ = _
        rw [List.filter_map]
        apply congrArg (List.map r.member)
        apply List.filter_congr
        intro n _
        unfold identity?
        rw [Function.comp, r.id_member,
          hViews.table_identity?_eq]
      dsimp only
      rw [hOthers, List.map_map, List.map_map]
      rfl

/- The reports on renames are the same but for order. -/
theorem renames_perm :
    w.renames.Perm (v.renames.map r.finding) := by
  have hBlocks :
      List.Forall₂
        (fun block' block =>
          block'.Perm (block.map r.rename))
        (w.surfaces.map (fun s =>
          s.slots.flatMap w.slotRenames))
        (v.surfaces.map (fun s =>
          s.slots.flatMap v.slotRenames)) := by
    rw [List.forall₂_map_left_iff,
      List.forall₂_map_right_iff]
    refine hViews.surfaces_moved.imp ?_
    intro s' s hMoved
    refine (hMoved.1.slots_perm.flatMap_right _).trans ?_
    rw [List.flatMap_map, List.map_flatMap]
    refine List.Perm.of_eq (List.flatMap_congr ?_)
    intro slot _
    exact hViews.slotRenames_eq slot
  unfold renames
  rw [List.flatMap_def, List.flatMap_def, List.map_map]
  refine ((Listing.firstBy_flatten_perm_map Rename.key
    hBlocks ?_ ?_).map _).trans (List.Perm.of_eq ?_)
  · intro c _ d _
    exact r.key_rename_iff c d
  · intro block hBlock c hc d hd hKey
    rcases List.mem_map.mp hBlock with ⟨s, hs, rfl⟩
    exact hViews.rename_eq_of_key_eq hs hc hd hKey
  · rw [List.map_map]
    apply List.map_congr_left
    intro e _
    exact hViews.rename_finding_eq e

end ExportView.Rearranges

end JsExport
