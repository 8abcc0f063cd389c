import JsExport.Proofs.Export.Surface
import JsExport.Rules.NameClash
import Mathlib.Data.String.Basic
import Mathlib.Tactic.Tauto

/-
  Which clashes of names are reported.

  Two members clash at a type when two of its slots have one
  name and neither exemption applies.  The report on two
  members comes from the first type where they clash.

  Main declarations:
    * `Surface.Clashes` and `Surface.ClashesOn`
    * `Surface.exists_clash_iff`
    * `ExportView.filter_nameClashes`
    * `Clash.isClashOf_finding_eq`
-/

namespace JsExport

------------------------------------------------------------
-- Clashes At A Surface
------------------------------------------------------------

namespace Surface

/- That two slots with one name clash. -/
structure Clashes
    (s : Surface)
    (x y : Slot × JsIdentity) : Prop where
  first_mem : x ∈ s.named
  second_mem : y ∈ s.named
  name_eq : x.2.name = y.2.name
  notProperty : ¬ (x.2.role.isProperty ∧ y.2.role.isProperty)
  notNative : ¬ (x.1.member.isNative ∧ y.1.member.isNative)

/- That slots of two members clash. -/
def ClashesOn
    (s : Surface)
    (a b : MemberId) : Prop :=
  ∃ x y, s.Clashes x y ∧
    x.1.member.id = a ∧ y.1.member.id = b

theorem Clashes.symm
    {s : Surface}
    {x y : Slot × JsIdentity}
    (hClash : s.Clashes x y) :
    s.Clashes y x :=
  ⟨hClash.second_mem, hClash.first_mem,
    hClash.name_eq.symm,
    fun hBoth => hClash.notProperty ⟨hBoth.2, hBoth.1⟩,
    fun hBoth => hClash.notNative ⟨hBoth.2, hBoth.1⟩⟩

theorem ClashesOn.symm
    {s : Surface}
    {a b : MemberId}
    (hClash : s.ClashesOn a b) :
    s.ClashesOn b a := by
  rcases hClash with ⟨x, y, hBoth, hx, hy⟩
  exact ⟨y, x, hBoth.symm, hy, hx⟩

end Surface

theorem clash_eq_true_iff
    {x y : Slot × JsIdentity} :
    clash x y = true ↔
      ¬ (x.2.role.isProperty ∧ y.2.role.isProperty) ∧
        ¬ (x.1.member.isNative ∧ y.1.member.isNative) := by
  unfold clash
  rw [Bool.and_eq_true, Bool.not_eq_true',
    Bool.not_eq_true', ← Bool.not_eq_true,
    ← Bool.not_eq_true, Bool.and_eq_true, Bool.and_eq_true]

namespace Surface

variable {s : Surface}

/- The clashes listed are pairs of slots that clash. -/
theorem mem_clashes_iff
    {c : Clash} :
    c ∈ s.clashes ↔
      ∃ g ∈ s.groups, ∃ x y,
        (x, y) ∈ Listing.pairs g.2 ∧ clash x y ∧
          c = ⟨s.type, g.1, x.1, y.1⟩ := by
  unfold clashes
  rw [List.mem_flatMap]
  constructor
  · rintro ⟨g, hGroup, hClash⟩
    rcases List.mem_map.mp hClash with ⟨⟨x, y⟩, hIn, rfl⟩
    rcases List.mem_filter.mp hIn with ⟨hPair, hHere⟩
    exact ⟨g, hGroup, x, y, hPair, hHere, rfl⟩
  · rintro ⟨g, hGroup, x, y, hPair, hHere, rfl⟩
    exact ⟨g, hGroup, List.mem_map.mpr ⟨(x, y),
      List.mem_filter.mpr ⟨hPair, hHere⟩, rfl⟩⟩

/- A clash that is listed names two slots that clash. -/
theorem clashes_of_mem_clashes
    {c : Clash}
    (hMem : c ∈ s.clashes) :
    c.type = s.type ∧
      ∃ x y, s.Clashes x y ∧ c.first = x.1 ∧
        c.second = y.1 ∧ c.name = x.2.name := by
  rcases mem_clashes_iff.mp hMem with
    ⟨g, hGroup, x, y, hPair, hClash, rfl⟩
  rcases Listing.mem_of_mem_pairs hPair with ⟨hx, hy⟩
  rcases (mem_of_mem_groups hGroup).mp hx with
    ⟨hxNamed, hxName⟩
  rcases (mem_of_mem_groups hGroup).mp hy with
    ⟨hyNamed, hyName⟩
  rcases clash_eq_true_iff.mp hClash with
    ⟨hProperty, hNative⟩
  exact ⟨rfl, x, y,
    ⟨hxNamed, hyNamed, hxName.trans hyName.symm, hProperty,
      hNative⟩, rfl, rfl, hxName.symm⟩

end Surface

------------------------------------------------------------
-- Keys
------------------------------------------------------------

/- Two numbers are known by the smaller and the larger. -/
theorem Clash.min_max_eq_iff
    (x y a b : Nat) :
    min x y = min a b ∧ max x y = max a b ↔
      x = a ∧ y = b ∨ x = b ∧ y = a := by
  omega

/- The key of a clash says which members it is about. -/
theorem Clash.key_eq_iff
    {c : Clash}
    {a b : MemberId} :
    c.key = (min a b, max a b) ↔
      c.first.member.id = a ∧ c.second.member.id = b ∨
        c.first.member.id = b ∧ c.second.member.id = a := by
  unfold Clash.key
  rw [Prod.mk.injEq]
  exact min_max_eq_iff _ _ a b

/- A surface lists a clash of each two members that clash. -/
theorem Surface.exists_clash_iff
    {s : Surface}
    {a b : MemberId}
    (hNe : a ≠ b) :
    (∃ c ∈ s.clashes, c.key = (min a b, max a b)) ↔
      s.ClashesOn a b := by
  constructor
  · rintro ⟨c, hMem, hKey⟩
    rcases clashes_of_mem_clashes hMem with
      ⟨_, x, y, hClash, hFirst, hSecond, _⟩
    have hHere : s.ClashesOn c.first.member.id
        c.second.member.id :=
      ⟨x, y, hClash, by rw [hFirst], by rw [hSecond]⟩
    rcases Clash.key_eq_iff.mp hKey with
      ⟨ha, hb⟩ | ⟨hb, ha⟩
    · rw [ha, hb] at hHere
      exact hHere
    · rw [ha, hb] at hHere
      exact hHere.symm
  · rintro ⟨x, y, hClash, rfl, rfl⟩
    have hGroup :
        (x.2.name, s.named.filter
          (fun e => decide (e.2.name = x.2.name))) ∈
            s.groups :=
      mem_groups_iff.mpr ⟨⟨x, hClash.first_mem, rfl⟩, rfl⟩
    have hx := (mem_of_mem_groups hGroup).mpr
      ⟨hClash.first_mem, rfl⟩
    have hy := (mem_of_mem_groups hGroup).mpr
      ⟨hClash.second_mem, hClash.name_eq.symm⟩
    have hOther : x ≠ y := fun hSame => hNe (by rw [hSame])
    rcases Listing.mem_pairs_or_mem_pairs hx hy hOther with
      hPair | hPair
    · refine ⟨_, mem_clashes_iff.mpr ⟨_, hGroup, x, y, hPair,
        clash_eq_true_iff.mpr ⟨hClash.notProperty,
          hClash.notNative⟩, rfl⟩, ?_⟩
      exact Clash.key_eq_iff.mpr (Or.inl ⟨rfl, rfl⟩)
    · refine ⟨_, mem_clashes_iff.mpr ⟨_, hGroup, y, x, hPair,
        clash_eq_true_iff.mpr ⟨hClash.symm.notProperty,
          hClash.symm.notNative⟩, rfl⟩, ?_⟩
      exact Clash.key_eq_iff.mpr (Or.inr ⟨rfl, rfl⟩)

------------------------------------------------------------
-- Reports
------------------------------------------------------------

/- Whether a finding reports that two members clash. -/
def Finding.isClashOf
    (a b : MemberId)
    (f : Finding) : Bool :=
  match f.breach with
  | .nameClash _ _ _ =>
      decide (f.subjects = [.member a, .member b] ∨
        f.subjects = [.member b, .member a])
  | _ => false

theorem Clash.subjects_finding
    (v : ExportView)
    (c : Clash) :
    (c.finding v).subjects =
      [.member c.first.member.id,
        .member c.second.member.id] :=
  rfl

/- Putting a clash in order swaps at most its members. -/
theorem Clash.ordered_cases
    (v : ExportView)
    (c : Clash) :
    (c.ordered v = c ∨
      c.ordered v = ⟨c.type, c.name, c.second, c.first⟩) ∧
        v.signature (c.ordered v).first.member ≤
          v.signature (c.ordered v).second.member := by
  unfold Clash.ordered
  split
  · rename_i hLe
    exact ⟨Or.inl rfl, hLe⟩
  · rename_i hNot
    exact ⟨Or.inr rfl, le_of_not_ge hNot⟩

/- The report of a clash is about the members of its key. -/
theorem Clash.isClashOf_finding_eq
    (v : ExportView)
    (c : Clash)
    (a b : MemberId) :
    (c.finding v).isClashOf a b =
      decide (c.key = (min a b, max a b)) := by
  have hSubjects :
      (c.finding v).isClashOf a b =
        decide ((c.finding v).subjects =
            [.member a, .member b] ∨
          (c.finding v).subjects =
            [.member b, .member a]) := rfl
  rw [hSubjects, c.subjects_finding, decide_eq_decide,
    Clash.key_eq_iff]
  simp

theorem Clash.isClashOf_finding
    (v : ExportView)
    (c : Clash)
    (a b : MemberId) :
    ((c.ordered v).finding v).isClashOf a b =
      decide (c.key = (min a b, max a b)) := by
  rcases (c.ordered_cases v).1 with hSame | hSwap
  · rw [hSame, c.isClashOf_finding_eq]
  · rw [hSwap, Clash.isClashOf_finding_eq, decide_eq_decide,
      Clash.key_eq_iff, Clash.key_eq_iff]
    tauto

namespace ExportView

theorem isError_of_mem_nameClashes
    {v : ExportView}
    {f : Finding}
    (hMem : f ∈ v.nameClashes) :
    f.diagnostic.isError := by
  rcases List.mem_map.mp hMem with ⟨c, _, rfl⟩
  rfl

/- Without reports no surface has a clash. -/
theorem clash_eq_false_of_nameClashes_eq_nil
    {v : ExportView}
    (hNone : v.nameClashes = [])
    {s : Surface}
    (hSurface : s ∈ v.surfaces)
    {g : String × List (Slot × JsIdentity)}
    (hGroup : g ∈ s.groups)
    {x y : Slot × JsIdentity}
    (hPair : (x, y) ∈ Listing.pairs g.2) :
    clash x y = false := by
  have hClashes :=
    Listing.eq_nil_of_firstBy_eq_nil Clash.key
      (List.map_eq_nil_iff.mp hNone)
  have hHere := List.flatMap_eq_nil_iff.mp hClashes s
    hSurface
  cases hClash : clash x y with
  | false => rfl
  | true =>
      have hMem := Surface.mem_clashes_iff.mpr
        ⟨g, hGroup, x, y, hPair, hClash, rfl⟩
      rw [hHere] at hMem
      cases hMem

/- The report on two members is that of the first clash. -/
theorem filter_nameClashes
    (v : ExportView)
    (a b : MemberId) :
    v.nameClashes.filter (Finding.isClashOf a b) =
      ((v.surfaces.findSome? (fun s => s.clashes.find?
        (fun c => decide
          (c.key = (min a b, max a b))))).map
            (fun c => (c.ordered v).finding v)).toList := by
  unfold nameClashes
  rw [List.filter_map]
  have hEach :
      ∀ c ∈ Listing.firstBy Clash.key
          (v.surfaces.flatMap Surface.clashes),
        (Finding.isClashOf a b ∘
            fun c => (c.ordered v).finding v) c =
          decide (c.key = (min a b, max a b)) :=
    fun c _ => c.isClashOf_finding v a b
  rw [List.filter_congr hEach, Listing.filter_firstBy,
    List.find?_flatMap, Option.toList_map]

end ExportView

end JsExport
