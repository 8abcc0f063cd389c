import JsExport.Proofs.Check.NamingReports
import JsExport.Proofs.Export.Representative

/-
  Overriding methods with other names are reported once.

  The rule compares what stands for a slot with the other
  declarations in it, at every type.  A method that alone
  overrides another one in its type stands for both there,
  and what is overridden stands for no slot with the method.
  All other types that have the two of them are below that
  type and come later, so the first report on the two is
  from their own type.

  Main declarations:
    * `Program.OverridesAlone`
    * `ExportView.Shows.eq_owner_of_mem_declarations`
    * `ExportView.Shows.find?_slotRenames`
    * `renamed_override_reported_once`
-/

namespace JsExport

open Lookup

------------------------------------------------------------
-- Overriding Methods
------------------------------------------------------------

/-
  That a method of objects overrides one of a supertype, and
  no other method of its type does.
-/
structure Program.OverridesAlone
    (p : Program)
    (m o : MemberNode) : Prop where
  member : p.HasMember m
  overridden : p.HasMember o
  isInstanceMethod : m.decl.isInstanceMethod
  overridden_isInstanceMethod : o.decl.isInstanceMethod
  signature?_eq : o.decl.signature? = m.decl.signature?
  isPrivate_eq : o.decl.isPrivate = false
  inherits : Inherits p.types m.owner.id o.owner.id
  alone :
    ∀ n, p.HasMember n → n.owner = m.owner →
      n.decl.isInstanceMethod →
        n.decl.signature? = m.decl.signature? → n = m

namespace Program

variable {p : Program}
variable {m o : MemberNode}

/- The type of a method has the method. -/
theorem reached_of_isInstanceMethod
    (hMember : p.HasMember m)
    (hMethod : m.decl.isInstanceMethod) :
    p.Reached m.owner m := by
  rcases MemberDecl.isInstanceMethod_iff.mp hMethod with
    ⟨_, hMaker, hStatic⟩
  exact ⟨hMember, hStatic, hMaker, .inl rfl⟩

/- It also has what the method overrides. -/
theorem OverridesAlone.reached_overridden
    (hOver : p.OverridesAlone m o) :
    p.Reached m.owner o := by
  rcases MemberDecl.isInstanceMethod_iff.mp
      hOver.overridden_isInstanceMethod with
    ⟨_, hMaker, hStatic⟩
  exact ⟨hOver.overridden, hStatic, hMaker,
    .inr ⟨hOver.inherits, hOver.isPrivate_eq⟩⟩

end Program

------------------------------------------------------------
-- Renames At One Type
------------------------------------------------------------

namespace ExportView

/- The report that an overriding method has another name. -/
def renamedOverride
    (v : ExportView)
    (m o : MemberNode) : Finding :=
  (Finding.ofMember m (.renamedOverride
    (Signature.quoted v.program m none))).about (.member o.id)

namespace Shows

variable {v : ExportView}
variable {p : Program}
variable (hShows : v.Shows p)
variable (hSound : p.Sound)
variable {s : Surface}
variable (hSurface : s ∈ v.surfaces)
variable {m o : MemberNode}

include hShows

section Surfaces

include hSurface

/- A rename is found in a slot of methods. -/
theorem of_mem_slotRenames
    {e : Rename}
    (hMem : e ∈ s.slots.flatMap v.slotRenames) :
    ∃ slot ∈ s.slots, slot.member.decl.isCallable ∧
      e.slot = slot ∧ e.other ∈ slot.declarations := by
  rcases List.mem_flatMap.mp hMem with ⟨slot, hSlot, hHere⟩
  rcases ExportView.of_mem_slotRenames hHere with
    ⟨_, hEq, hOther⟩
  refine ⟨slot, hSlot, ?_, hEq,
    List.mem_cons_of_mem _ hOther⟩
  rcases hShows.exists_ofMembers_eq hSurface with
    ⟨lineage, _, _, hMade⟩
  rw [hMade] at hSlot
  exact (Surface.mem_of_mem_overridden hSlot hOther).2.1

/- At the type of a method nothing else exposes its slot. -/
theorem exposedBy_eq_none_of_own
    {slot : Slot}
    (hSlot : slot ∈ s.slots)
    (hOwn : slot.member.owner.id = s.type.id) :
    slot.exposedBy = none := by
  rcases hShows.exists_ofMembers_eq hSurface with
    ⟨lineage, _, _, hMade⟩
  rw [hMade] at hSlot
  rcases Surface.mem_slots_iff.mp hSlot with hMethod | hField
  · rw [hMethod.exposedBy_eq]
    unfold Surface.isExposedHere
    rw [hOwn, bne_self_eq_false, Bool.false_and]
    rfl
  · rw [hField.eq_fieldSlot]
    rfl

include hSound

/- What a type declares leaves its slot to the type. -/
theorem eq_owner_of_mem_declarations
    {slot : Slot}
    (hSlot : slot ∈ s.slots)
    (hCallable : slot.member.decl.isCallable)
    (hm : m ∈ slot.declarations)
    (hOwn : m.owner = s.type) :
    slot.member.owner = s.type := by
  have hReached := ((hShows.mem_declarations_iff hSound
    hSurface hSlot hCallable _).mp List.mem_cons_self).1
  rcases hReached.owned_or_inherited with
    hHere | ⟨hInherits, _⟩
  · exact hHere
  · have hLatest := hShows.isLatest_member hSound hSurface
      hSlot hCallable
    rw [← hOwn] at hInherits
    exact absurd hInherits (hLatest.not_below m hm)

/- A method that overrides alone stands for what it does. -/
theorem exists_slot_of_overridesAlone
    (hOver : p.OverridesAlone m o)
    (hOwn : m.owner = s.type) :
    ∃ slot ∈ s.slots, slot.member = m ∧
      o ∈ slot.overridden := by
  have hm := Program.reached_of_isInstanceMethod
    hOver.member hOver.isInstanceMethod
  have ho := hOver.reached_overridden
  rw [hOwn] at hm ho
  rcases hShows.exists_slot_of_isCallable hSound hSurface hm
      (MemberDecl.isInstanceMethod_iff.mp
        hOver.isInstanceMethod).1 with
    ⟨slot, hSlot, hCallable, hKey, hDeclared⟩
  have hMem := hShows.mem_declarations_iff hSound hSurface
    hSlot hCallable
  have hStands := ((hMem _).mp List.mem_cons_self).1
  have hSame : slot.member = m := by
    apply hOver.alone _ hStands.member
    · rw [hOwn]
      exact hShows.eq_owner_of_mem_declarations hSound
        hSurface hSlot hCallable hDeclared hOwn
    · exact hStands.isInstanceMethod hCallable
    · exact hKey
  refine ⟨slot, hSlot, hSame, ?_⟩
  have hOther : o ∈ slot.declarations :=
    (hMem o).mpr ⟨ho, hOver.signature?_eq.trans hKey.symm⟩
  rcases List.mem_cons.mp hOther with hFirst | hIn
  · have hSelf := hOver.inherits
    rw [← hSame, ← hFirst] at hSelf
    exact absurd hSelf (hSound.fits.acyclic _)
  · exact hIn

/- Nothing that is overridden is renamed with its override. -/
theorem not_below_of_mem_slotRenames
    {e : Rename}
    (hMem : e ∈ s.slots.flatMap v.slotRenames) :
    ¬ Inherits p.types e.other.owner.id
      e.slot.member.owner.id := by
  rcases hShows.of_mem_slotRenames hSurface hMem with
    ⟨slot, hSlot, hCallable, rfl, hOther⟩
  exact (hShows.isLatest_member hSound hSurface hSlot
    hCallable).not_below _ hOther

/- A rename is made of members of the program. -/
theorem reached_of_mem_slotRenames
    {e : Rename}
    (hMem : e ∈ s.slots.flatMap v.slotRenames) :
    p.Reached s.type e.slot.member ∧
      p.Reached s.type e.other := by
  rcases hShows.of_mem_slotRenames hSurface hMem with
    ⟨slot, hSlot, hCallable, rfl, hOther⟩
  have hIn := hShows.mem_declarations_iff hSound hSurface
    hSlot hCallable
  exact ⟨((hIn _).mp List.mem_cons_self).1,
    ((hIn _).mp hOther).1⟩

/- The two methods are compared at the type of the first. -/
theorem exists_mem_slotRenames
    (hOver : p.OverridesAlone m o)
    {a b : JsIdentity}
    (ha : v.identity? m = some a)
    (hb : v.identity? o = some b)
    (hDiffer : disagree a b)
    (hOwn : m.owner.id = s.type.id) :
    ∃ e ∈ s.slots.flatMap v.slotRenames,
      e.key = (m.id, o.id) := by
  rcases hShows.exists_ofMembers_eq hSurface with
    ⟨_, _, hType, _⟩
  rcases hShows.exists_slot_of_overridesAlone hSound hSurface
      hOver (hOver.member.2.2.eq_of_id_eq hType hOwn) with
    ⟨slot, hSlot, rfl, hOther⟩
  have hIdentity := hShows.identity_eq_of_exported hSurface
    hSlot ha
  refine ⟨⟨slot, o⟩, List.mem_flatMap.mpr
    ⟨slot, hSlot, ?_⟩, rfl⟩
  unfold slotRenames
  rw [hIdentity]
  apply List.mem_map_of_mem
  rw [List.mem_filter, hb]
  exact ⟨hOther, hDiffer⟩

end Surfaces

------------------------------------------------------------
-- The First Rename Of Two Methods
------------------------------------------------------------

include hSound

/-
  The first type that compares the two methods is the type
  of the first one: a type below comes later in the order,
  and the type itself compares them.
-/
theorem owner_id_eq_of_first
    (hOver : p.OverridesAlone m o)
    {a b : JsIdentity}
    (ha : v.identity? m = some a)
    (hb : v.identity? o = some b)
    (hDiffer : disagree a b)
    {low high : List Surface}
    (hSplit : v.surfaces = low ++ s :: high)
    (hReached : p.Reached s.type m)
    (hBefore :
      ∀ r ∈ low, ∀ e ∈ r.slots.flatMap v.slotRenames,
        e.key ≠ (m.id, o.id)) :
    m.owner.id = s.type.id := by
  rcases hReached.owned_or_inherited with
    hOwn | ⟨hBelow, _⟩
  · exact congrArg TypeNode.id hOwn
  · rcases hShows.exists_surface_before hSound hSplit
        hBelow with
      ⟨r, hr, hId⟩
    have hIn : r ∈ v.surfaces := by
      rw [hSplit]
      exact List.mem_append_left _ hr
    rcases hShows.exists_mem_slotRenames hSound hIn hOver ha
        hb hDiffer hId.symm with
      ⟨e, he, hKey⟩
    exact absurd hKey (hBefore r hr e he)

/-
  The first rename of two methods is found at the type of
  the one that overrides the other.
-/
theorem find?_slotRenames
    (hOver : p.OverridesAlone m o)
    {a b : JsIdentity}
    (ha : v.identity? m = some a)
    (hb : v.identity? o = some b)
    (hDiffer : disagree a b) :
    ∃ e : Rename,
      (v.surfaces.flatMap
          (fun s => s.slots.flatMap v.slotRenames)).find?
        (fun e => decide (e.key = (m.id, o.id))) = some e ∧
      e.slot.member = m ∧ e.slot.exposedBy = none ∧
        e.other.id = o.id := by
  rw [List.find?_flatMap]
  cases hFind : v.surfaces.findSome? (fun s =>
      (s.slots.flatMap v.slotRenames).find?
        (fun e => decide (e.key = (m.id, o.id)))) with
  | none =>
      rcases hShows.exists_surface hSound
          hOver.member.2.2.lt_length with
        ⟨home, hHome, _, hMade⟩
      have hHomeId := Program.type_id_of_surface_eq_ok hMade
      rcases hShows.exists_mem_slotRenames hSound hHome hOver
          ha hb hDiffer hHomeId.symm with
        ⟨e, he, hKey⟩
      have hNot := List.find?_eq_none.mp
        (List.findSome?_eq_none_iff.mp hFind home hHome) e he
      exact absurd (decide_eq_true hKey) hNot
  | some e =>
      rcases List.findSome?_eq_some_iff.mp hFind with
        ⟨low, s, high, hSplit, hHere, hBefore⟩
      have hSurface : s ∈ v.surfaces := by
        rw [hSplit]
        exact List.mem_append_right _ List.mem_cons_self
      have he := List.mem_of_find?_eq_some hHere
      have hFirst := List.find?_some hHere
      have hKey : e.key = (m.id, o.id) :=
        of_decide_eq_true hFirst
      have hReached := (hShows.reached_of_mem_slotRenames
        hSound hSurface he).1
      have hMember : e.slot.member = m :=
        hReached.member.eq_of_id_eq hOver.member
          (congrArg Prod.fst hKey)
      have hOwn := hShows.owner_id_eq_of_first hSound hOver
        ha hb hDiffer hSplit (hMember ▸ hReached)
        (fun r hr d hd hSame =>
          List.find?_eq_none.mp (hBefore r hr) d hd
            (decide_eq_true hSame))
      rcases hShows.of_mem_slotRenames hSurface he with
        ⟨slot, hSlot, _, hEq, _⟩
      have hExposed := hShows.exposedBy_eq_none_of_own
        hSurface hSlot (by rw [← hEq, hMember, hOwn])
      exact ⟨e, rfl, hMember, hEq ▸ hExposed,
        congrArg Prod.snd hKey⟩

/- What is overridden is not found before its override. -/
theorem find?_slotRenames_eq_none
    (hOver : p.OverridesAlone m o) :
    (v.surfaces.flatMap
        (fun s => s.slots.flatMap v.slotRenames)).find?
      (fun e => decide (e.key = (o.id, m.id))) = none := by
  rw [List.find?_eq_none]
  intro e he hKey
  rcases List.mem_flatMap.mp he with ⟨s, hSurface, hHere⟩
  have hSame := Prod.mk.inj (of_decide_eq_true hKey)
  have hReached := hShows.reached_of_mem_slotRenames hSound
    hSurface hHere
  have hNot := hShows.not_below_of_mem_slotRenames hSound
    hSurface hHere
  rw [hReached.1.member.eq_of_id_eq hOver.overridden hSame.1,
    hReached.2.member.eq_of_id_eq hOver.member hSame.2] at hNot
  exact hNot hOver.inherits

end Shows

------------------------------------------------------------
-- Reports
------------------------------------------------------------

variable {v : ExportView}

/- The report on two members is that of their first rename. -/
theorem filter_renames
    (v : ExportView)
    (a b : MemberId) :
    v.renames.filter (fun f =>
        f.diagnostic.isOn .inconsistentRename
          [.member a, .member b]) =
      ((v.surfaces.flatMap
          (fun s => s.slots.flatMap v.slotRenames)).find?
        (fun e => decide (e.key = (a, b)))).toList.map
          (fun e =>
            (Finding.ofMember e.slot.member
              (.renamedOverride (v.quoted e.slot))).about
                (.member e.other.id)) := by
  unfold renames
  rw [List.filter_map, ← Listing.filter_firstBy]
  apply congrArg
  apply List.filter_congr
  intro e _
  rw [Bool.eq_iff_iff, decide_eq_true_eq]
  change Diagnostic.isOn _ _ (Finding.diagnostic _) = true ↔ _
  rw [Finding.isOn_iff]
  unfold Rename.key
  rw [Prod.mk.injEq]
  constructor
  · rintro ⟨_, hSubjects⟩
    cases hSubjects
    exact ⟨rfl, rfl⟩
  · rintro ⟨rfl, rfl⟩
    exact ⟨rfl, rfl⟩

end ExportView

/-
  A method that alone in its type overrides a method of a
  supertype, both with names in JavaScript that differ and
  of which one is explicit, is reported once with the
  overridden method, where the method is declared.  The two
  are not reported the other way round.
-/
theorem renamed_override_reported_once
    {draft : Draft}
    {p : Program}
    (hBuild : draft.build = .ok p)
    (settings : Settings) :
    ∃ v naming outcome, p.exportView = .ok v ∧
      v.namingFindings = .ok naming ∧
      p.check settings = .ok outcome ∧
      ∀ m o a b, p.OverridesAlone m o →
        v.identity? m = some a → v.identity? o = some b →
        a.name ≠ b.name → a.isExplicit ∨ b.isExplicit →
          outcome.Reports naming .inconsistentRename
              [.member m.id, .member o.id]
              [v.renamedOverride m o] ∧
            outcome.Reports naming .inconsistentRename
              [.member o.id, .member m.id] [] := by
  have hSound := Program.sound_of_build hBuild
  rcases hSound.check_succeeds settings with
    ⟨outcome, hOutcome⟩
  rcases Program.check_eq_ok_iff.mp hOutcome with
    ⟨v, naming, property, contract, usability, hFinds, hEq⟩
  have hLog := congrArg Outcome.log hEq
  have hShows := hFinds.shows
  refine ⟨v, naming, outcome,
    Program.exportView_eq_ok_iff.mpr hShows,
    hFinds.naming_eq, hOutcome, ?_⟩
  intro m o a b hOver ha hb hName hExplicit
  have hDiffer : ExportView.disagree a b := by
    unfold ExportView.disagree
    rw [Bool.and_eq_true, Bool.or_eq_true, bne_iff_ne]
    exact ⟨hExplicit, hName⟩
  constructor
  · rcases hShows.find?_slotRenames hSound hOver ha hb hDiffer
      with ⟨e, hFound, hMember, hExposed, hOther⟩
    refine hFinds.reports_of_filter_eq (by decide)
      Rule.noConfusion ?_ (by simp) hLog
    rw [ExportView.filter_naming_on_renames hFinds.naming_eq,
      v.filter_renames, hFound]
    unfold ExportView.quoted ExportView.renamedOverride
    rw [Option.toList_some, List.map_singleton, hMember,
      hExposed, hOther]
  · refine hFinds.reports_of_filter_eq (by decide)
      Rule.noConfusion ?_ (by simp) hLog
    rw [ExportView.filter_naming_on_renames hFinds.naming_eq,
      v.filter_renames,
      hShows.find?_slotRenames_eq_none hSound hOver]
    rfl

/-
  A lantern shines as a light does, which JavaScript calls
  to glow, and a deck lantern is a lantern.
-/
def Draft.lantern : Draft :=
  let method : MemberShape := .plain (.method .void) [] .empty
  ⟨[.plain "Light" .interfaceKind ⟨true, false, false⟩ [0],
    { TypeDecl.plain "Lantern" .classKind .none [1] with
      interfaces := [0] },
    { TypeDecl.plain "DeckLantern" .classKind .none [] with
      superClass := some 1 }],
  [.plain "shine" 0 method .untagged,
    { MemberDecl.plain "shine" 1 method .jsMethod with
      jsName := some "glow" }]⟩

/- What shines by another name alone overrides the light. -/
theorem Draft.lantern.exists_overridesAlone
    {p : Program}
    {v : ExportView}
    (hBuild : lantern.build = .ok p)
    (hView : p.exportView = .ok v) :
    ∃ m o, m.id = 1 ∧ o.id = 0 ∧ p.OverridesAlone m o ∧
      v.identity? m = some ⟨.method, "glow", true⟩ ∧
      v.identity? o = some ⟨.method, "shine", false⟩ := by
  have hSound := Program.sound_of_build hBuild
  have hShows := Program.exportView_eq_ok_iff.mp hView
  rcases Draft.build_eq_ok_iff.mp hBuild with
    ⟨_, _, _, hMembers⟩
  rcases hSound.exists_hasMember 1
      (by rw [hMembers]; decide) with
    ⟨m, hFirst, hFirstId, hm⟩
  rcases hSound.exists_hasMember 0
      (by rw [hMembers]; decide) with
    ⟨o, hSecond, hSecondId, ho⟩
  have hShown :
      (lantern.build.toOption.bind (fun p =>
        p.exportView.toOption.bind (fun v =>
          (p.member 1).toOption.bind (fun m =>
            (p.member 0).toOption.map (fun o => decide
              ((m.decl.isInstanceMethod ∧
                o.decl.isInstanceMethod ∧
                o.decl.signature? = m.decl.signature? ∧
                o.decl.isPrivate = false ∧
                p.hierarchy.isAncestor o.owner.id
                  m.owner.id) ∧
                (∀ n ∈ v.members, n.owner = m.owner →
                  n.decl.isInstanceMethod →
                    n.decl.signature? = m.decl.signature? →
                      n = m) ∧
                v.identity? m =
                  some ⟨.method, "glow", true⟩ ∧
                v.identity? o =
                  some ⟨.method, "shine", false⟩)))))) =
        some true := by
    decide +kernel
  simp only [hBuild, hView, hFirst, hSecond,
    Except.toOption, Option.bind_some, Option.map_some,
    Option.some.injEq, decide_eq_true_eq] at hShown
  rcases hShown with
    ⟨⟨hMethod, hAbove, hSame, hAccess, hAncestor⟩, hAlone,
      hGlow, hShine⟩
  refine ⟨m, o, hFirstId, hSecondId, ?_, hGlow, hShine⟩
  exact ⟨hm, ho, hMethod, hAbove, hSame, hAccess,
    (hSound.fits.isAncestor_iff _ _).mp hAncestor,
    fun n hn => hAlone n (hShows.mem_members_iff.mpr hn)⟩

/- Both lanterns share one report. -/
theorem glow_of_lantern_reported :
    ∃ p v naming outcome m o, Draft.lantern.build = .ok p ∧
      p.exportView = .ok v ∧
      v.namingFindings = .ok naming ∧
      p.check Settings.standard = .ok outcome ∧
      m.id = 1 ∧ o.id = 0 ∧ p.OverridesAlone m o ∧
      outcome.Reports naming .inconsistentRename
        [.member m.id, .member o.id]
        [v.renamedOverride m o] ∧
      outcome.Reports naming .inconsistentRename
        [.member o.id, .member m.id] [] := by
  have hBuilt : ∃ p, Draft.lantern.build = .ok p := ⟨_, rfl⟩
  rcases hBuilt with ⟨p, hBuild⟩
  rcases renamed_override_reported_once hBuild
      Settings.standard with
    ⟨v, naming, outcome, hView, hNaming, hOutcome, hEach⟩
  rcases Draft.lantern.exists_overridesAlone hBuild hView with
    ⟨m, o, hFirst, hSecond, hOver, hGlow, hShine⟩
  exact ⟨p, v, naming, outcome, m, o, hBuild, hView, hNaming,
    hOutcome, hFirst, hSecond, hOver,
    hEach m o _ _ hOver hGlow hShine (by decide)
      (.inl rfl)⟩

end JsExport
