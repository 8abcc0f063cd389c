import JsExport.Proofs.Check.Outcome
import JsExport.Proofs.Check.Success
import JsExport.Proofs.Rules.NameClash

/-
  Clashes of names are reported once.

  Two members that clash at some type are the subjects of
  one report on clashes, and it comes from the first type
  where they clash.  Members that clash nowhere are the
  subjects of none.

  Main declarations:
    * `ExportView.ClashAt`
    * `ExportView.IsFirstClash`
    * `clash_reported_once_at_first_type`
-/

namespace JsExport

open Lookup

------------------------------------------------------------
-- Other Rules On Names
------------------------------------------------------------

namespace ExportView

variable {v : ExportView}
variable {a b : MemberId}
variable {f : Finding}

theorem not_isClashOf_of_mem_globalNames
    (hMem : f ∈ v.globalNames) :
    ¬ f.isClashOf a b := by
  rcases List.mem_map.mp hMem with ⟨c, _, rfl⟩
  exact Bool.false_ne_true

theorem not_isClashOf_of_mem_renames
    (hMem : f ∈ v.renames) :
    ¬ f.isClashOf a b := by
  rcases List.mem_map.mp hMem with ⟨r, _, rfl⟩
  exact Bool.false_ne_true

theorem not_isClashOf_of_mem_constructors
    {findings : List Finding}
    (hFound : v.constructors = .ok findings)
    (hMem : f ∈ findings) :
    ¬ f.isClashOf a b := by
  unfold Finding.isClashOf
  rcases breach_of_mem_constructors hFound hMem with
    ⟨type, hBreach⟩ | ⟨primary, hBreach⟩
  · rw [hBreach]
    exact Bool.false_ne_true
  · rw [hBreach]
    exact Bool.false_ne_true

/- Of the rules on names one reports clashes. -/
theorem filter_namingFindings
    {naming : List Finding}
    (hNaming : v.namingFindings = .ok naming) :
    naming.filter (Finding.isClashOf a b) =
      v.nameClashes.filter (Finding.isClashOf a b) := by
  rcases namingFindings_eq_ok_iff.mp hNaming with
    ⟨constructors, hConstructors, rfl⟩
  have hGlobal : v.globalNames.filter
      (Finding.isClashOf a b) = [] :=
    List.filter_eq_nil_iff.mpr
      (fun _ hf => not_isClashOf_of_mem_globalNames hf)
  have hOwn : constructors.filter
      (Finding.isClashOf a b) = [] :=
    List.filter_eq_nil_iff.mpr (fun _ hf =>
      not_isClashOf_of_mem_constructors hConstructors hf)
  have hRenames : v.renames.filter
      (Finding.isClashOf a b) = [] :=
    List.filter_eq_nil_iff.mpr
      (fun _ hf => not_isClashOf_of_mem_renames hf)
  simp only [List.filter_append, hGlobal, hOwn, hRenames,
    List.append_nil]

------------------------------------------------------------
-- The First Type
------------------------------------------------------------

/- That two members clash at a type. -/
def ClashAt
    (v : ExportView)
    (t : TypeId)
    (a b : MemberId) : Prop :=
  ∃ s, v.surface t = .ok s ∧ s.ClashesOn a b

/-
  That a type is the first where two members clash, in the
  order of the types and so among all that it inherits from.
-/
structure IsFirstClash
    (v : ExportView)
    (t : TypeId)
    (a b : MemberId) : Prop where
  clashes : v.ClashAt t a b
  before :
    ∃ before after,
      v.program.hierarchy.order = before ++ t :: after ∧
        ∀ u ∈ before, ¬ v.ClashAt u a b
  above :
    ∀ u, Inherits v.program.types t u → ¬ v.ClashAt u a b

/- The report on two slots of a type, the first one first. -/
def clashReport
    (v : ExportView)
    (t : TypeNode)
    (x y : Slot × JsIdentity) : Finding :=
  let texts := v.clashTexts t x.1 y.1
  ⟨.nameClash texts.1 texts.2 x.2.name,
    x.1.member.owner.decl.file, x.1.member.decl.span,
    [.member x.1.member.id, .member y.1.member.id]⟩

namespace Shows

variable {p : Program}
variable (hShows : v.Shows p)

include hShows

/- A surface lists a clash where two members clash. -/
theorem clashAt_iff_of_mem_surfaces
    {s : Surface}
    (hSurface : s ∈ v.surfaces)
    (hNe : a ≠ b) :
    v.ClashAt s.type.id a b ↔
      ∃ c ∈ s.clashes, c.key = (min a b, max a b) := by
  rw [Surface.exists_clash_iff hNe]
  have hFound := hShows.surface_type_id hSurface
  constructor
  · rintro ⟨r, hr, hClash⟩
    rw [hFound] at hr
    cases hr
    exact hClash
  · intro hClash
    exact ⟨s, hFound, hClash⟩

/- Members that clash nowhere are not found to clash. -/
theorem find?_clashes_eq_none
    (hNe : a ≠ b)
    (hNone : ∀ t, ¬ v.ClashAt t a b) :
    v.surfaces.findSome? (fun s => s.clashes.find?
      (fun c => decide
        (c.key = (min a b, max a b)))) = none := by
  rw [List.findSome?_eq_none_iff]
  intro s hs
  rw [List.find?_eq_none]
  intro c hc hKey
  exact hNone s.type.id
    ((hShows.clashAt_iff_of_mem_surfaces hs hNe).mpr
      ⟨c, hc, of_decide_eq_true hKey⟩)

/- The first surface with a clash is of the first type. -/
theorem isFirstClash_of_surfaces_eq
    (hSound : p.Sound)
    {low high : List Surface}
    {s : Surface}
    (hSplit : v.surfaces = low ++ s :: high)
    (hHere : v.ClashAt s.type.id a b)
    (hBefore : ∀ r ∈ low, ¬ v.ClashAt r.type.id a b) :
    v.IsFirstClash s.type.id a b := by
  have hOrder :
      p.hierarchy.order =
        low.map (fun r => r.type.id) ++
          s.type.id :: high.map (fun r => r.type.id) := by
    rw [← hShows.map_type_id_surfaces, hSplit,
      List.map_append, List.map_cons]
  have hNotBefore :
      ∀ u ∈ low.map (fun r => r.type.id),
        ¬ v.ClashAt u a b := by
    intro u hu
    rcases List.mem_map.mp hu with ⟨r, hr, rfl⟩
    exact hBefore r hr
  refine ⟨hHere, ?_, ?_⟩
  · rw [hShows.program_eq]
    exact ⟨_, _, hOrder, hNotBefore⟩
  · intro u hInherits
    rw [hShows.program_eq] at hInherits
    exact hNotBefore u
      (hSound.fits.orders.above_first _ _ _ hOrder u
        hInherits)

/- The clash that is found is at the first type. -/
theorem exists_find?_clashes
    (hSound : p.Sound)
    (hNe : a ≠ b)
    (hSome : ∃ t, v.ClashAt t a b) :
    ∃ s ∈ v.surfaces, ∃ c ∈ s.clashes,
      v.IsFirstClash s.type.id a b ∧
        c.key = (min a b, max a b) ∧
          v.surfaces.findSome? (fun s => s.clashes.find?
            (fun c => decide
              (c.key = (min a b, max a b)))) = some c := by
  cases hFind : v.surfaces.findSome? (fun s =>
      s.clashes.find? (fun c => decide
        (c.key = (min a b, max a b)))) with
  | none =>
      rcases hSome with ⟨t, s, hs, hClash⟩
      have hSurface :=
        hShows.mem_surfaces_of_surface_eq_ok hs
      rcases (Surface.exists_clash_iff hNe).mpr hClash with
        ⟨c, hc, hKey⟩
      have hNot := List.find?_eq_none.mp
        (List.findSome?_eq_none_iff.mp hFind s hSurface) c hc
      exact absurd (decide_eq_true hKey) hNot
  | some c =>
      rcases List.findSome?_eq_some_iff.mp hFind with
        ⟨low, s, high, hSplit, hHere, hBefore⟩
      have hMem := List.mem_of_find?_eq_some hHere
      have hFirst := List.find?_some hHere
      have hKey : c.key = (min a b, max a b) :=
        of_decide_eq_true hFirst
      have hIn : ∀ r, r = s ∨ r ∈ low → r ∈ v.surfaces := by
        intro r hr
        rw [hSplit]
        rcases hr with rfl | hr
        · exact List.mem_append_right _ List.mem_cons_self
        · exact List.mem_append_left _ hr
      have hClash : v.ClashAt s.type.id a b :=
        (hShows.clashAt_iff_of_mem_surfaces
          (hIn s (Or.inl rfl)) hNe).mpr ⟨c, hMem, hKey⟩
      have hNotBefore :
          ∀ r ∈ low, ¬ v.ClashAt r.type.id a b := by
        intro r hr hEarlier
        rcases (hShows.clashAt_iff_of_mem_surfaces
            (hIn r (Or.inr hr)) hNe).mp hEarlier with
          ⟨d, hd, hSame⟩
        exact List.find?_eq_none.mp (hBefore r hr) d hd
          (decide_eq_true hSame)
      exact ⟨s, hIn s (Or.inl rfl), c, hMem,
        hShows.isFirstClash_of_surfaces_eq hSound hSplit
          hClash hNotBefore, hKey, rfl⟩

end Shows

end ExportView

------------------------------------------------------------
-- Reports
------------------------------------------------------------

/-
  Members that clash nowhere are not reported as a clash.
  Members that clash somewhere are reported once, from the
  first type where they do, at the member whose signature
  comes first; the two are named in that order.
-/
theorem clash_reported_once_at_first_type
    {draft : Draft}
    {p : Program}
    (hBuild : draft.build = .ok p) :
    ∃ v naming, p.exportView = .ok v ∧
      v.namingFindings = .ok naming ∧
      ∀ a b : MemberId, a ≠ b →
        ((∀ t, ¬ v.ClashAt t a b) →
          naming.filter (Finding.isClashOf a b) = []) ∧
        ((∃ t, v.ClashAt t a b) →
          ∃ t s x y,
            v.IsFirstClash t a b ∧ v.surface t = .ok s ∧
            s.Clashes x y ∧
            (x.1.member.id = a ∧ y.1.member.id = b ∨
              x.1.member.id = b ∧ y.1.member.id = a) ∧
            v.signature x.1.member ≤
              v.signature y.1.member ∧
            naming.filter (Finding.isClashOf a b) =
              [v.clashReport s.type x y]) := by
  have hSound := Program.sound_of_build hBuild
  rcases hSound.exportView_succeeds with ⟨v, hView⟩
  have hShows := Program.exportView_eq_ok_iff.mp hView
  rcases ExportView.namingFindings_succeeds hSound
      hShows with
    ⟨naming, hNaming⟩
  refine ⟨v, naming, hView, hNaming, ?_⟩
  intro a b hNe
  rw [ExportView.filter_namingFindings hNaming,
    v.filter_nameClashes]
  constructor
  · intro hNone
    rw [hShows.find?_clashes_eq_none hNe hNone]
    rfl
  · intro hSome
    rcases hShows.exists_find?_clashes hSound hNe hSome with
      ⟨s, hs, c, hc, hFirst, hKey, hFind⟩
    rcases Surface.clashes_of_mem_clashes hc with
      ⟨hType, x, y, hClash, hx, hy, hName⟩
    rcases c.ordered_cases v with ⟨hCases, hLe⟩
    rw [hFind]
    rw [Clash.key_eq_iff, hx, hy] at hKey
    have hSurface := hShows.surface_type_id hs
    rcases hCases with hSame | hSwap
    · rw [hSame, hx, hy] at hLe
      refine ⟨s.type.id, s, x, y, hFirst, hSurface, hClash,
        hKey, hLe, ?_⟩
      rw [Option.map_some, hSame]
      unfold Clash.finding ExportView.clashReport
      rw [hType, hx, hy, hName]
      rfl
    · rw [hSwap, hx, hy] at hLe
      refine ⟨s.type.id, s, y, x, hFirst, hSurface,
        hClash.symm, ?_, hLe, ?_⟩
      · rcases hKey with ⟨ha, hb⟩ | ⟨hb, ha⟩
        · exact Or.inr ⟨hb, ha⟩
        · exact Or.inl ⟨ha, hb⟩
      · rw [Option.map_some, hSwap]
        unfold Clash.finding ExportView.clashReport
        rw [hType, hx, hy, hName, hClash.name_eq]
        rfl

------------------------------------------------------------
-- A Sample Clash
------------------------------------------------------------

/-
  A shelf has a field and a method of one name, and so has
  the drawer that inherits them.
-/
def Draft.shelf : Draft :=
  let exported : TypeFlags := ⟨true, false, false⟩
  ⟨[.plain "Shelf" .classKind exported [0, 1],
    { TypeDecl.plain "Drawer" .classKind exported [] with
      superClass := some 0 }],
  [.plain "label" 0 (.field ⟨.string, .absent⟩) .untagged,
    .plain "label" 0
      (.plain (.method .string) [] .empty) .untagged]⟩

/- The clash shows at both types, and is reported once. -/
theorem shelf_clash_reported_once :
    ∃ p v naming, Draft.shelf.build = .ok p ∧
      p.exportView = .ok v ∧
      v.namingFindings = .ok naming ∧
      v.ClashAt 0 0 1 ∧ v.ClashAt 1 0 1 ∧
      ∃ t s x y, v.IsFirstClash t 0 1 ∧
        v.surface t = .ok s ∧
        naming.filter (Finding.isClashOf 0 1) =
          [v.clashReport s.type x y] := by
  have hBuilt : ∃ p, Draft.shelf.build = .ok p := ⟨_, rfl⟩
  rcases hBuilt with ⟨p, hBuild⟩
  rcases clash_reported_once_at_first_type hBuild with
    ⟨v, naming, hView, hNaming, hReports⟩
  have hShows := Program.exportView_eq_ok_iff.mp hView
  have hBoth :
      (Draft.shelf.build.toOption.bind (fun p =>
        p.exportView.toOption)).map (fun v =>
          v.surfaces.map (fun s => (s.type.id,
            s.clashes.map Clash.key))) =
        some [(0, [(0, 1)]), (1, [(0, 1)])] := by
    decide +kernel
  rw [hBuild] at hBoth
  simp only [Except.toOption, Option.bind_some, hView,
    Option.map_some, Option.some.injEq] at hBoth
  have hAt : ∀ t ∈ [0, 1], v.ClashAt t 0 1 := by
    intro t ht
    have hListed :
        (t, [(0, 1)]) ∈ v.surfaces.map (fun s =>
          (s.type.id, s.clashes.map Clash.key)) := by
      rw [hBoth]
      rcases List.mem_pair.mp ht with rfl | rfl
      · exact List.mem_cons_self
      · exact List.mem_cons_of_mem _ List.mem_cons_self
    rcases List.mem_map.mp hListed with ⟨s, hs, hEq⟩
    rcases Prod.mk.inj hEq with ⟨rfl, hKeys⟩
    apply (hShows.clashAt_iff_of_mem_surfaces hs
      Nat.zero_ne_one).mpr
    apply List.mem_map.mp
    rw [hKeys]
    exact List.mem_cons_self
  have hFirst := hAt 0 List.mem_cons_self
  have hSecond :=
    hAt 1 (List.mem_cons_of_mem _ List.mem_cons_self)
  rcases (hReports 0 1 Nat.zero_ne_one).2 ⟨0, hFirst⟩ with
    ⟨t, s, x, y, hHere, hSurface, _, _, _, hReport⟩
  exact ⟨p, v, naming, hBuild, hView, hNaming, hFirst,
    hSecond, t, s, x, y, hHere, hSurface, hReport⟩

end JsExport
