import JsExport.Proofs.Check.AccessorPairs
import JsExport.Proofs.Check.NamingReports
import JsExport.Proofs.Rules.Claimants

/-
  Global names stay unique.

  The first member that claims a global name keeps it.  All
  others that claim the name are reported, each once, and no
  member is reported that claims nothing.

  Main declarations:
    * `ExportView.filter_naming_takenName`
    * `Program.Finds.exists_first_claimant`
    * `first_claimant_keeps_global_name`
-/

namespace JsExport

open Lookup

------------------------------------------------------------
-- Reports Of Late Claims
------------------------------------------------------------

namespace ExportView

/- A report on a taken name is about the one that is late. -/
theorem isOn_takenName_iff
    {v : ExportView}
    {m : MemberNode}
    {name : String}
    {id : MemberId} :
    (v.takenName m name).diagnostic.isOn .namingCollision
        [.member id] ↔
      m.id = id := by
  rw [Finding.isOn_iff]
  constructor
  · rintro ⟨_, hSubjects⟩
    cases hSubjects
    rfl
  · rintro rfl
    exact ⟨rfl, rfl⟩

/- The reports on a member are those of its late claims. -/
theorem filter_naming_takenName
    {v : ExportView}
    {naming : List Finding}
    (hNaming : v.namingFindings = .ok naming)
    (id : MemberId) :
    naming.filter (fun f =>
        f.diagnostic.isOn .namingCollision [.member id]) =
      ((lateClaims [] v.claims).filter
        (fun c => decide (c.member.id = id))).map
          (fun c => v.takenName c.member c.name) := by
  rw [filter_naming_on_globalNames hNaming]
  unfold globalNames
  rw [List.filter_map]
  apply congrArg
  apply List.filter_congr
  intro c _
  rw [Bool.eq_iff_iff, decide_eq_true_eq]
  exact isOn_takenName_iff

end ExportView

namespace Program.Finds

variable {p : Program}
variable {advice : Advice}
variable {v : ExportView}
variable {naming property contract usability : List Finding}
variable
  (hFinds :
    p.Finds advice v naming property contract usability)
variable (hSound : p.Sound)
variable {outcome : Outcome}
variable (hLog :
  outcome.log = .ofFamilies naming property contract usability)

include hFinds hSound hLog

/- A claimant is reported when its claim is late, and once. -/
theorem reports_of_mem_claims
    (hOnce : ∀ d ∈ p.types, d.members.Nodup)
    {c : Claim}
    (hc : c ∈ v.claims) :
    outcome.Reports naming .namingCollision
      [.member c.member.id]
      (if c ∈ ExportView.lateClaims [] v.claims then
        [v.takenName c.member c.name]
      else []) := by
  refine hFinds.reports_of_filter_eq (by decide)
    (fun _ => by simp) ?_ ?_ hLog
  · rw [ExportView.filter_naming_takenName hFinds.naming_eq,
      hFinds.shows.filter_lateClaims_of_mem hSound hOnce hc]
    split
    · rfl
    · rfl
  · split
    · exact Nat.le_refl 1
    · exact Nat.zero_le 1

/- One claimant of a name is not reported, all others are. -/
theorem exists_first_claimant
    (hOnce : ∀ d ∈ p.types, d.members.Nodup)
    {name : String}
    (hSome : ∃ m, v.ClaimsName m name) :
    ∃ first, v.ClaimsName first name ∧
      outcome.Reports naming .namingCollision
        [.member first.id] [] ∧
      ∀ m, v.ClaimsName m name → m ≠ first →
        first.ComesBefore m ∧
          outcome.Reports naming .namingCollision
            [.member m.id] [v.takenName m name] := by
  have hMem := fun c =>
    hFinds.shows.mem_claims_iff hSound (c := c)
  have hEach := fun c (hc : c ∈ v.claims) =>
    hFinds.reports_of_mem_claims hSound hLog hOnce hc
  rcases hSome with ⟨m, hClaims⟩
  rcases hFinds.shows.exists_first_claim hSound hOnce
      ((hMem ⟨m, name⟩).mpr hClaims) with
    ⟨first, hIn, hName, hTime, hOthers⟩
  refine ⟨first.member, ?_, ?_, ?_⟩
  · have hOwn := (hMem first).mp hIn
    rw [hName] at hOwn
    exact hOwn
  · have hReports := hEach first hIn
    rw [if_neg hTime] at hReports
    exact hReports
  · intro n hOther hNe
    have hAlso := (hMem ⟨n, name⟩).mpr hOther
    rcases hOthers _ hAlso rfl
        (fun hSame => hNe (congrArg Claim.member hSame))
      with ⟨hBefore, hLate⟩
    have hReports := hEach _ hAlso
    rw [if_pos hLate] at hReports
    exact ⟨hBefore, hReports⟩

/- What claims no name is not reported. -/
theorem reports_of_no_claim
    {id : MemberId}
    (hNone :
      ∀ m name, v.ClaimsName m name → m.id ≠ id) :
    outcome.Reports naming .namingCollision
      [.member id] [] := by
  refine hFinds.reports_of_filter_eq (by decide)
    (fun _ => by simp) ?_ (by simp) hLog
  rw [ExportView.filter_naming_takenName hFinds.naming_eq,
    List.map_eq_nil_iff, List.filter_eq_nil_iff]
  intro c hc hId
  have hClaim :=
    (ExportView.lateClaims_sublist [] v.claims).subset hc
  exact hNone c.member c.name
    ((hFinds.shows.mem_claims_iff hSound).mp hClaim)
    (of_decide_eq_true hId)

end Program.Finds

/-
  Where no type lists a member twice, one of the members that
  claim a global name comes before all others and is not
  reported, while each other one is reported once, since the
  name is taken.  What claims no name is not reported.  So
  where no name is reported as taken, no two members claim
  one name.
-/
theorem first_claimant_keeps_global_name
    {draft : Draft}
    {p : Program}
    (hBuild : draft.build = .ok p)
    (hOnce : ∀ d ∈ p.types, d.members.Nodup)
    (settings : Settings) :
    ∃ v naming outcome, p.exportView = .ok v ∧
      v.namingFindings = .ok naming ∧
      p.check settings = .ok outcome ∧
      (∀ name, (∃ m, v.ClaimsName m name) →
        ∃ first, v.ClaimsName first name ∧
          outcome.Reports naming .namingCollision
            [.member first.id] [] ∧
          ∀ m, v.ClaimsName m name → m ≠ first →
            first.ComesBefore m ∧
              outcome.Reports naming .namingCollision
                [.member m.id] [v.takenName m name]) ∧
      (∀ id, (∀ m name, v.ClaimsName m name → m.id ≠ id) →
        outcome.Reports naming .namingCollision
          [.member id] []) ∧
      ((∀ id, outcome.log.entries.filter
          (Diagnostic.isOn .namingCollision
            [.member id]) = []) →
        ∀ m n name, v.ClaimsName m name →
          v.ClaimsName n name → m = n) := by
  have hSound := Program.sound_of_build hBuild
  rcases hSound.check_succeeds settings with
    ⟨outcome, hOutcome⟩
  rcases Program.check_eq_ok_iff.mp hOutcome with
    ⟨v, naming, property, contract, usability, hFinds, hEq⟩
  have hLog := congrArg Outcome.log hEq
  have hShows := hFinds.shows
  have hFirst := fun name
      (hSome : ∃ m, v.ClaimsName m name) =>
    hFinds.exists_first_claimant hSound hLog hOnce hSome
  refine ⟨v, naming, outcome,
    Program.exportView_eq_ok_iff.mpr hShows,
    hFinds.naming_eq, hOutcome, hFirst, ?_, ?_⟩
  · intro id hNone
    exact hFinds.reports_of_no_claim hSound hLog hNone
  · intro hNone m n name hm hn
    rcases hFirst name ⟨m, hm⟩ with ⟨first, _, _, hOthers⟩
    have hSame :
        ∀ k, v.ClaimsName k name → k = first := by
      intro k hk
      by_contra hNe
      have hEntries := (hOthers k hk hNe).2.entries_eq
      rw [hNone k.id] at hEntries
      cases hEntries
    rw [hSame m hm, hSame n hn]

/-
  A mill grinds by a static method and has a static field of
  the same name, and what makes flour there is called by
  that name too.
-/
def Draft.mill : Draft :=
  let exported : TypeFlags := ⟨true, false, false⟩
  ⟨[.plain "Mill" .classKind exported [0, 1],
    { TypeDecl.plain "Flour" .classKind exported [2] with
      jsNamespace := some "Mill"
      jsName := some "grind" }],
  [{ MemberDecl.plain "grind" 0
      (.plain (.method .void) [] .empty) .untagged with
      isStatic := true },
    { MemberDecl.plain "grind" 0
      (.field ⟨.prim .int, .absent⟩) .untagged with
      isStatic := true },
    .plain "Flour" 1 (.plain .constructor [] .empty)
      .untagged]⟩

/- The field and the constructor claim the same name. -/
theorem Draft.mill.exists_claimants
    {p : Program}
    {v : ExportView}
    (hBuild : mill.build = .ok p)
    (hView : p.exportView = .ok v) :
    ∃ field maker, field.id = 1 ∧ maker.id = 2 ∧
      v.ClaimsName field "Mill.grind" ∧
      v.ClaimsName maker "Mill.grind" ∧
      maker.decl.isConstructor := by
  have hSound := Program.sound_of_build hBuild
  have hShows := Program.exportView_eq_ok_iff.mp hView
  rcases Draft.build_eq_ok_iff.mp hBuild with
    ⟨_, _, _, hMembers⟩
  rcases hSound.exists_hasMember 1
      (by rw [hMembers]; decide) with
    ⟨field, hFirst, hFirstId, _⟩
  rcases hSound.exists_hasMember 2
      (by rw [hMembers]; decide) with
    ⟨maker, hSecond, hSecondId, _⟩
  have hShown :
      (mill.build.toOption.bind (fun p =>
        p.exportView.toOption.bind (fun v =>
          (p.member 1).toOption.bind (fun field =>
            (p.member 2).toOption.map (fun maker => decide
              (⟨field, "Mill.grind"⟩ ∈ v.claims ∧
                ⟨maker, "Mill.grind"⟩ ∈ v.claims ∧
                maker.decl.isConstructor)))))) =
        some true := by
    decide +kernel
  simp only [hBuild, hView, hFirst, hSecond,
    Except.toOption, Option.bind_some, Option.map_some,
    Option.some.injEq, decide_eq_true_eq,
    hShows.mem_claims_iff hSound] at hShown
  exact ⟨field, maker, hFirstId, hSecondId, hShown⟩

/- The field keeps the name; the constructor is reported. -/
theorem grind_of_mill_is_the_field :
    ∃ p v naming outcome, Draft.mill.build = .ok p ∧
      (∀ d ∈ p.types, d.members.Nodup) ∧
      p.exportView = .ok v ∧
      v.namingFindings = .ok naming ∧
      p.check Settings.standard = .ok outcome ∧
      (∃ field, field.id = 1 ∧
        v.ClaimsName field "Mill.grind" ∧
        outcome.Reports naming .namingCollision
          [.member field.id] []) ∧
      ∃ maker, maker.id = 2 ∧ maker.decl.isConstructor ∧
        v.ClaimsName maker "Mill.grind" ∧
        outcome.Reports naming .namingCollision
          [.member maker.id]
          [v.takenName maker "Mill.grind"] := by
  have hBuilt : ∃ p, Draft.mill.build = .ok p := ⟨_, rfl⟩
  rcases hBuilt with ⟨p, hBuild⟩
  rcases Draft.build_eq_ok_iff.mp hBuild with
    ⟨_, _, hTypes, _⟩
  have hOnce : ∀ d ∈ p.types, d.members.Nodup := by
    rw [hTypes]
    decide
  rcases first_claimant_keeps_global_name hBuild hOnce
      Settings.standard with
    ⟨v, naming, outcome, hView, hNaming, hOutcome, hFirst, _⟩
  rcases Draft.mill.exists_claimants hBuild hView with
    ⟨field, maker, hFieldId, hMakerId, hFieldClaims,
      hMakerClaims, hKind⟩
  rcases hFirst "Mill.grind" ⟨field, hFieldClaims⟩ with
    ⟨first, _, hTime, hOthers⟩
  have hKept :
      outcome.log.entries.filter
        (Diagnostic.isOn .namingCollision [.member 1]) = [] :=
    Draft.eq_of_map_check_eq_some hBuild hOutcome
      (fun o => o.log.entries.filter
        (Diagnostic.isOn .namingCollision [.member 1]))
      (by decide +kernel)
  have hIs : field = first := by
    by_contra hNe
    have hEntries :=
      (hOthers field hFieldClaims hNe).2.entries_eq
    rw [hFieldId, hKept] at hEntries
    cases hEntries
  have hNe : maker ≠ first := by
    rintro rfl
    rw [hIs, hMakerId] at hFieldId
    cases hFieldId
  exact ⟨p, v, naming, outcome, hBuild, hOnce, hView, hNaming,
    hOutcome, ⟨field, hFieldId, hFieldClaims, hIs ▸ hTime⟩,
    maker, hMakerId, hKind, hMakerClaims,
    (hOthers maker hMakerClaims hNe).2⟩

end JsExport
