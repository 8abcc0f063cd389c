import JsExport.Proofs.Check.Outcome
import JsExport.Proofs.Check.Success
import JsExport.Proofs.Region.Contracts
import JsExport.Proofs.Region.Exports

/-
  Regions without annotations are left alone.

  A check says nothing of a plain region, unless a body in
  it calls an accessor outside through `super` or tests an
  object against a native interface outside.  A program
  without annotations is met with silence.

  Main declarations:
    * `Program.Finds.spares_or_onBody`
    * `plain_region_reported_for_bodies_only`
-/

namespace JsExport

------------------------------------------------------------
-- All Families Of Rules
------------------------------------------------------------

section Findings

variable {p : Program}
variable {S : Set TypeId}
variable {f : Finding}

/- Each finding is about types outside or about a body. -/
theorem Program.Finds.spares_or_onBody
    {advice : Advice}
    {v : ExportView}
    {naming property contract usability : List Finding}
    (hFinds :
      p.Finds advice v naming property contract usability)
    (hSound : p.Sound)
    (hRegion : p.IsRegion S)
    (hPlain : p.IsPlain S)
    (hMem :
      f ∈ naming ++ property ++ contract ++ usability) :
    f.Spares p S ∨ f.OnBody p S := by
  have hShows := hFinds.shows
  have hOutside :=
    hShows.showsOutside_of_region hSound hRegion hPlain
  simp only [List.mem_append] at hMem
  rcases hMem with
    ((hNaming | hProperty) | hContract) | hUsability
  · exact .inl (ExportView.spares_of_mem_namingFindings
      hShows hSound hOutside hFinds.naming_eq hNaming)
  · exact ExportView.spares_or_onBody_of_mem_propertyFindings
      hShows hOutside hFinds.property_eq hProperty
  · exact hSound.spares_or_onBody_of_mem_contractFindings
      hRegion hPlain hFinds.contract_eq hContract
  · exact .inl (ExportView.spares_of_mem_usability hShows
      hOutside hFinds.usability_eq hUsability)

/- A finding is about something outside. -/
theorem Finding.exists_outside
    (hCases : f.Spares p S ∨ f.OnBody p S) :
    ∃ t < p.types.length, t ∉ S := by
  rcases hCases with hSpares | hBody
  · rcases List.exists_mem_of_ne_nil _ hSpares.some with
      ⟨s, hs⟩
    cases hSpares.outside s hs with
    | @type t hOut => exact ⟨t.id, hOut.1.lt_length, hOut.2⟩
    | @member m hOut =>
        exact ⟨m.owner.id, hOut.1.2.2.lt_length, hOut.2⟩
  · cases hBody with
    | superCall _ _ _ hTarget hOut =>
        rcases Program.member_eq_ok_iff_hasMember.mp hTarget
          with ⟨_, hMember⟩
        exact ⟨_, hMember.2.2.lt_length, hOut⟩
    | instanceTest _ _ _ hTarget hOut =>
        rcases Program.type_eq_ok_iff_hasType.mp hTarget with
          ⟨_, hType⟩
        exact ⟨_, hType.lt_length, hOut⟩

end Findings

------------------------------------------------------------
-- Reports
------------------------------------------------------------

/-
  Take a set of types that is closed under supertypes and
  subtypes and has no annotation on its types and members.
  A report about one of them is about a body: it calls an
  accessor of a type outside through `super`, or it tests an
  object against a type outside.  When the set holds all
  types of the program, there is no report at all.
-/
theorem plain_region_reported_for_bodies_only
    {draft : Draft}
    {p : Program}
    (hBuild : draft.build = .ok p)
    (settings : Settings)
    {S : Set TypeId}
    (hRegion : p.IsRegion S)
    (hPlain : p.IsPlain S) :
    ∃ outcome, p.check settings = .ok outcome ∧
      (∀ d ∈ outcome.log.entries,
        (∃ s ∈ d.subjects, s.Inside p S) →
          ∃ f : Finding, f.OnBody p S ∧ d = f.diagnostic) ∧
      ((∀ t < p.types.length, t ∈ S) →
        outcome.log = Log.empty) := by
  have hSound := Program.sound_of_build hBuild
  rcases hSound.check_succeeds settings with
    ⟨outcome, hOutcome⟩
  refine ⟨outcome, hOutcome, ?_⟩
  rcases Program.check_eq_ok_iff.mp hOutcome with
    ⟨v, naming, property, contract, usability, hFinds, rfl⟩
  have hEach :
      ∀ f ∈ naming ++ property ++ contract ++ usability,
        f.Spares p S ∨ f.OnBody p S := fun f hf =>
    hFinds.spares_or_onBody hSound hRegion hPlain hf
  constructor
  · intro d hd hInside
    rcases hInside with ⟨s, hs, hIn⟩
    rw [Log.entries_ofFamilies] at hd
    rcases List.mem_map.mp
        ((Listing.sorted_perm _ _).mem_iff.mp hd) with
      ⟨f, hf, rfl⟩
    rcases hEach f hf with hSpares | hBody
    · exact absurd hIn (hSpares.outside s hs).not_inside
    · exact ⟨f, hBody, rfl⟩
  · intro hWhole
    have hNone :
        naming ++ property ++ contract ++ usability = [] := by
      apply List.eq_nil_iff_forall_not_mem.mpr
      intro f hf
      rcases Finding.exists_outside (hEach f hf) with
        ⟨t, hLt, hOut⟩
      exact hOut (hWhole t hLt)
    simp only [List.append_eq_nil_iff] at hNone
    rcases hNone with ⟨⟨⟨rfl, rfl⟩, rfl⟩, rfl⟩
    rfl

------------------------------------------------------------
-- A Lamp In The Dark
------------------------------------------------------------

/-
  A lamp and the torch that extends it have no annotations.
  The lamp looks for power through `super` and tests for a
  native interface.
-/
def Draft.lamp : Draft :=
  let exported : TypeFlags := ⟨true, false, false⟩
  let native : TypeFlags := ⟨true, true, false⟩
  ⟨[.plain "Lamp" .classKind .none [0],
    { TypeDecl.plain "Torch" .classKind .none [1] with
      superClass := some 0 },
    .plain "Socket" .classKind exported [2],
    .plain "Grid" .interfaceKind native []],
  [.plain "light" 0
      (.plain (.method .void) []
        ⟨true, none, [⟨2, Span.atLine 2⟩],
          [⟨3, Span.atLine 3⟩]⟩) .untagged,
    .plain "light" 1 (.plain (.method .void) [] .empty)
      .untagged,
    .plain "getPower" 2 (.plain (.method .string) [] .empty)
      .jsProperty]⟩

theorem Draft.exists_light_of_lamp
    {p : Program}
    (hBuild : Draft.lamp.build = .ok p) :
    ∃ m, p.HasMember m ∧ m.id = 0 ∧ m.owner.id < 2 := by
  refine ⟨⟨0, Draft.lamp.members[0], 0,
    Draft.lamp.types[0]⟩, ?_, rfl, by decide⟩
  exact Program.hasMember_of_build hBuild rfl rfl rfl

/- The lamp and the torch without the rest. -/
def Draft.candle : Draft :=
  ⟨[.plain "Candle" .classKind .none [0],
    { TypeDecl.plain "Torch" .classKind .none [1] with
      superClass := some 0 }],
  [.plain "light" 0 (.plain (.method .void) [] .empty)
      .untagged,
    .plain "light" 1 (.plain (.method .void) [] .empty)
      .untagged]⟩

/- The first two types of a sample, to be looked through. -/
theorem Draft.plain_region_of_first_two
    {draft : Draft}
    {p : Program}
    (hBuild : draft.build = .ok p)
    (hHere :
      draft.build.toOption.bind (fun p =>
        p.memberNodes.toOption.map (fun members =>
          decide ((∀ t ∈ p.typeNodes,
              (∀ s ∈ t.decl.supertypes,
                (t.id < 2 ↔ s < 2)) ∧
              (t.id < 2 → t.decl.flags = .none)) ∧
            ∀ m ∈ members, m.owner.id < 2 →
              m.decl.tag = .untagged))) = some true) :
    p.IsRegion {t | t < 2} ∧ p.IsPlain {t | t < 2} := by
  rcases (Program.sound_of_build
      hBuild).memberNodes_succeeds with
    ⟨members, hMembers⟩
  rw [hBuild] at hHere
  simp only [Except.toOption, Option.bind_some, hMembers,
    Option.map_some, Option.some.injEq, decide_eq_true_eq]
    at hHere
  rcases hHere with ⟨hTypes, hTags⟩
  exact ⟨Program.isRegion_iff.mpr
      (fun t ht => (hTypes t ht).1),
    (Program.isPlain_iff hMembers).mpr
      ⟨fun t ht => (hTypes t ht).2, hTags⟩⟩

/-
  Both reports about the lamp are about its body, and there
  are no others.  Nothing is reported of the candle.
-/
theorem lamp_reported_for_its_body_and_candle_left_alone :
    ∃ p q outcome silent,
      Draft.lamp.build = .ok p ∧
      p.IsRegion {t | t < 2} ∧ p.IsPlain {t | t < 2} ∧
      p.check Settings.standard = .ok outcome ∧
      outcome.log.entries.map (fun d => d.subjects) =
        [[.member 0, .member 2], [.member 0, .type 3]] ∧
      (∀ d ∈ outcome.log.entries,
        ∃ f : Finding, f.OnBody p {t | t < 2} ∧
          d = f.diagnostic) ∧
      Draft.candle.build = .ok q ∧
      q.IsRegion {t | t < 2} ∧ q.IsPlain {t | t < 2} ∧
      q.check Settings.standard = .ok silent ∧
      silent.log = Log.empty := by
  have hBuilt : ∃ p, Draft.lamp.build = .ok p := ⟨_, rfl⟩
  have hBuiltOther : ∃ q, Draft.candle.build = .ok q :=
    ⟨_, rfl⟩
  rcases hBuilt with ⟨p, hBuild⟩
  rcases hBuiltOther with ⟨q, hOther⟩
  rcases Draft.plain_region_of_first_two hBuild
      (by decide +kernel) with
    ⟨hRegion, hPlain⟩
  rcases Draft.plain_region_of_first_two hOther
      (by decide +kernel) with
    ⟨hRegion', hPlain'⟩
  rcases plain_region_reported_for_bodies_only hBuild
      Settings.standard hRegion hPlain with
    ⟨outcome, hOutcome, hBodies, _⟩
  rcases plain_region_reported_for_bodies_only hOther
      Settings.standard hRegion' hPlain' with
    ⟨silent, hSilent, _, hEmpty⟩
  have hListed :
      outcome.log.entries.map (fun d => d.subjects) =
        [[.member 0, .member 2], [.member 0, .type 3]] :=
    Draft.eq_of_map_check_eq_some hBuild hOutcome
      (fun o => o.log.entries.map (fun d => d.subjects))
      (by decide +kernel)
  have hInside :
      ∀ d ∈ outcome.log.entries,
        ∃ s ∈ d.subjects, s.Inside p {t | t < 2} := by
    rcases Draft.exists_light_of_lamp hBuild with
      ⟨m, hMember, hId, hIn⟩
    intro d hd
    have hShown :=
      List.mem_map_of_mem (f := fun d => d.subjects) hd
    rw [hListed] at hShown
    refine ⟨.member 0, ?_, hId ▸ .member hMember hIn⟩
    rcases List.mem_pair.mp hShown with hFirst | hSecond
    · rw [hFirst]
      exact List.mem_cons_self
    · rw [hSecond]
      exact List.mem_cons_self
  have hAll : ∀ t < q.types.length, t ∈ {t | t < 2} := by
    rcases Draft.build_eq_ok_iff.mp hOther with
      ⟨_, _, hTypes, _⟩
    rw [hTypes]
    exact fun t ht => ht
  exact ⟨p, q, outcome, silent, hBuild, hRegion, hPlain,
    hOutcome, hListed,
    fun d hd => hBodies d hd (hInside d hd), hOther,
    hRegion', hPlain', hSilent, hEmpty hAll⟩

end JsExport
