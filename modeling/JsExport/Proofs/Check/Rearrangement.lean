import JsExport.Proofs.Rearrangement.Contracts
import JsExport.Proofs.Rearrangement.Properties
import JsExport.Proofs.Rearrangement.Usability

/-
  What a check reports of declarations in another order.

  The findings of each family are permuted, and sorting by
  place forgets in which order they were found.  So whether
  a program is reported on, and in which words, does not
  depend on the order of its members.  Only the member that
  comes too late for a global name does.

  Main declarations:
    * `Draft.Rearranges`
    * `Program.findings`
    * `findings_of_rearranged_declarations`
-/

namespace JsExport

open Lookup

------------------------------------------------------------
-- Drafts
------------------------------------------------------------

/-
  That a draft has the declarations of another one: each
  member under a new number, with all references to it, and
  the list of each type in any order.
-/
structure Draft.Rearranges
    (other : Draft)
    (r : Rearrangement)
    (draft : Draft) : Prop where
  types_eq :
    ∀ t, other.types[t]? =
      draft.types[t]?.map
        (fun d : TypeDecl =>
          { d with members := r.listed t })
  members_eq :
    ∀ m, other.members[r.number m]? =
      draft.members[m]?.map (.renumber r.number)
  listed_perm :
    ∀ t d, draft.types[t]? = some d →
      (r.listed t).Perm (d.members.map r.number)

theorem Draft.Rearranges.program
    {other draft : Draft}
    {r : Rearrangement}
    (hMoved : other.Rearranges r draft)
    {p q : Program}
    (hBuild : draft.build = .ok p)
    (hBuildOther : other.build = .ok q) :
    q.Rearranges r p := by
  rcases (Draft.build_eq_ok_iff.mp hBuild).2.2 with
    ⟨hTypes, hMembers⟩
  rcases (Draft.build_eq_ok_iff.mp hBuildOther).2.2 with
    ⟨hTypesOther, hMembersOther⟩
  constructor
  · exact Program.sound_of_build hBuild
  · exact Program.sound_of_build hBuildOther
  · rw [hTypes, hTypesOther]
    exact hMoved.types_eq
  · rw [hMembers, hMembersOther]
    exact hMoved.members_eq
  · intro t hType
    unfold Program.HasType at hType
    rw [hTypes] at hType
    exact hMoved.listed_perm t.id t.decl hType

------------------------------------------------------------
-- Findings
------------------------------------------------------------

namespace Program

/- All findings of a check, before they are put in order. -/
def findings
    (p : Program)
    (advice : Advice) :
    Except LookupError (List Finding) := do
  let v ← p.exportView
  let naming ← v.namingFindings
  let property ← v.propertyFindings
  let contract ← p.contractFindings
  let usability ← v.usability advice
  return naming ++ property ++ contract ++ usability

/- What the families find is all that is found. -/
theorem Finds.findings_eq_ok
    {p : Program}
    {advice : Advice}
    {v : ExportView}
    {naming property contract usability : List Finding}
    (hFinds :
      p.Finds advice v naming property contract usability) :
    p.findings advice =
      .ok (naming ++ property ++ contract ++ usability) := by
  unfold findings
  apply bind_eq_ok_iff.mpr
  refine ⟨v, exportView_eq_ok_iff.mpr hFinds.shows, ?_⟩
  apply bind_eq_ok_iff.mpr
  refine ⟨naming, hFinds.naming_eq, ?_⟩
  apply bind_eq_ok_iff.mpr
  refine ⟨property, hFinds.property_eq, ?_⟩
  apply bind_eq_ok_iff.mpr
  refine ⟨contract, hFinds.contract_eq, ?_⟩
  apply bind_eq_ok_iff.mpr
  exact ⟨usability, hFinds.usability_eq, rfl⟩

/- The findings of all families are restated. -/
theorem Rearranges.restates
    {p q : Program}
    {r : Rearrangement}
    (hMoves : q.Rearranges r p)
    (hApart : p.KeepsApart)
    {advice : Advice}
    {v w : ExportView}
    {naming property contract usability : List Finding}
    {naming' property' contract' usability' : List Finding}
    (hFinds :
      p.Finds advice v naming property contract usability)
    (hFindsOther :
      q.Finds advice w naming' property' contract'
        usability') :
    r.Restates
      (naming' ++ property' ++ contract' ++ usability')
      (naming ++ property ++ contract ++ usability) := by
  have hShows := hFinds.shows
  have hShowsOther := hFindsOther.shows
  have hViews : w.Rearranges r v := by
    constructor
    · rw [hShows.program_eq, hShowsOther.program_eq]
      exact hMoves
    · rw [hShows.program_eq]
      exact hApart
    · rw [hShows.program_eq]
      exact hShows
    · rw [hShowsOther.program_eq]
      exact hShowsOther
  have hNaming := hViews.namingFindings_restates
    hFinds.naming_eq hFindsOther.naming_eq
  have hProperty := hViews.propertyFindings_perm
    hFinds.property_eq hFindsOther.property_eq
  have hContract := hMoves.contractFindings_perm
    hFinds.contract_eq hFindsOther.contract_eq
  have hUsability := hViews.usability_perm
    hFinds.usability_eq hFindsOther.usability_eq
  exact ((hNaming.append (.of_perm hProperty)).append
    (.of_perm hContract)).append (.of_perm hUsability)

end Program

------------------------------------------------------------
-- Built Programs
------------------------------------------------------------

/-
  Two programs of the same declarations in different orders
  are reported on alike, whatever the settings, when members
  can be told apart.  The reports have the same rules, words
  and places and are about the same declarations.  The only
  exceptions are reports that a global name is taken: there
  are as many for each name, but which of its members comes
  too late depends on the order.
-/
theorem findings_of_rearranged_declarations
    {draft other : Draft}
    {p q : Program}
    {r : Rearrangement}
    (hBuild : draft.build = .ok p)
    (hBuildOther : other.build = .ok q)
    (hApart : p.KeepsApart)
    (hMoved : other.Rearranges r draft)
    (settings : Settings) :
    ∃ found found' outcome outcome',
      p.findings settings.advice = .ok found ∧
      q.findings settings.advice = .ok found' ∧
      p.check settings = .ok outcome ∧
      q.check settings = .ok outcome' ∧
      outcome.log.entries.Perm
        (found.map Finding.diagnostic) ∧
      outcome'.log.entries.Perm
        (found'.map Finding.diagnostic) ∧
      (found'.filter (fun f => f.takenName?.isNone)).Perm
        ((found.filter (fun f => f.takenName?.isNone)).map
          (.renumber r.number)) ∧
      ∀ name,
        found'.countP (Finding.saysTaken name) =
          found.countP (Finding.saysTaken name) := by
  have hSound := Program.sound_of_build hBuild
  have hSoundOther := Program.sound_of_build hBuildOther
  rcases hSound.check_succeeds settings with
    ⟨outcome, hOutcome⟩
  rcases hSoundOther.check_succeeds settings with
    ⟨outcome', hOutcome'⟩
  rcases Program.check_eq_ok_iff.mp hOutcome with
    ⟨_, _, _, _, _, hFinds, rfl⟩
  rcases Program.check_eq_ok_iff.mp hOutcome' with
    ⟨_, _, _, _, _, hFindsOther, rfl⟩
  have hRestates :=
    (hMoved.program hBuild hBuildOther).restates hApart
      hFinds hFindsOther
  refine ⟨_, _, _, _, hFinds.findings_eq_ok,
    hFindsOther.findings_eq_ok, hOutcome, hOutcome', ?_, ?_,
    hRestates.others, hRestates.taken⟩
  · rw [Log.entries_ofFamilies]
    exact Listing.sorted_perm _ _
  · rw [Log.entries_ofFamilies]
    exact Listing.sorted_perm _ _

/-
  A tailor has two methods `cut` of the class and two
  methods `sew` of its objects.
-/
def Draft.tailor : Draft :=
  let exported : TypeFlags := ⟨true, false, false⟩
  let cut (params : List TypeExpr) : MemberDecl :=
    { MemberDecl.plain "cut" 0
        (.plain (.method .void) params .empty) .untagged with
      isStatic := true }
  let sew (params : List TypeExpr) : MemberDecl :=
    .plain "sew" 0
      (.plain (.method .void) params .empty) .untagged
  ⟨[.plain "Tailor" .classKind exported [0, 1, 2, 3]],
  [cut [], cut [.string], sew [], sew [.string]]⟩

/- The first members swap numbers, the last ones places. -/
def Rearrangement.turned : Rearrangement :=
  ⟨Equiv.swap 0 1, fun _ => [0, 1, 3, 2]⟩

/- The tailor with its members the other way round. -/
def Draft.tailorTurned : Draft :=
  ⟨Draft.tailor.types.map (fun d =>
      { d with members := [0, 1, 3, 2] }),
  [1, 0, 2, 3].filterMap
    (fun m : MemberId => Draft.tailor.members[m]?)⟩

theorem Draft.tailorTurned_rearranges :
    Draft.tailorTurned.Rearranges .turned Draft.tailor := by
  constructor
  · intro t
    exact List.getElem?_map
  · intro m
    match m with
    | 0 => rfl
    | 1 => rfl
    | 2 => rfl
    | 3 => rfl
    | m + 4 =>
        have hSame :
            Rearrangement.turned.number (m + 4) = m + 4 :=
          Equiv.swap_apply_of_ne_of_ne
            (Nat.succ_ne_zero (m + 3))
            (fun hOne => Nat.succ_ne_zero (m + 2)
              (Nat.succ.inj hOne))
        rw [hSame]
        rfl
  · intro t d hd
    match t with
    | 0 =>
        cases hd
        decide
    | t + 1 => cases hd

/- The members of the tailor can be told apart. -/
theorem Draft.tailor_keepsApart
    {p : Program}
    (hBuild : Draft.tailor.build = .ok p) :
    p.KeepsApart := by
  rcases (Program.sound_of_build
      hBuild).memberNodes_succeeds with
    ⟨members, hMembers⟩
  have hAll :
      (Draft.tailor.build.toOption.bind (fun p =>
        p.memberNodes.toOption.map (fun members =>
          decide ((∀ d ∈ p.types, d.members.Nodup) ∧
            ∀ m ∈ members, ∀ n ∈ members,
              m.decl.signature? = n.decl.signature? ∧
                  m.decl.isStatic = n.decl.isStatic ∨
                Signature.text p m = Signature.text p n →
                  m = n)))) = some true := by
    decide +kernel
  rw [hBuild] at hAll
  simp only [Except.toOption, Option.bind_some, hMembers,
    Option.map_some, Option.some.injEq, decide_eq_true_eq]
    at hAll
  have hMem :
      ∀ m, p.HasMember m → m ∈ members := fun m hm =>
    (Program.mem_of_memberNodes_eq_ok hMembers).mpr hm
  constructor
  · exact hAll.1
  · intro m n hm hn _ hMethod hMethod' hSame
    unfold MemberDecl.isInstanceMethod at hMethod hMethod'
    simp only [Bool.and_eq_true, Bool.not_eq_true']
      at hMethod hMethod'
    exact hAll.2 m (hMem m hm) n (hMem n hn)
      (Or.inl ⟨hSame, hMethod.2.trans hMethod'.2.symm⟩)
  · intro m n hm hn hText
    exact hAll.2 m (hMem m hm) n (hMem n hn) (Or.inr hText)

/-
  The clash is reported in the same words in both orders.
  The name of the class methods is taken by either of them.
-/
theorem tailor_reports_in_both_orders :
    ∃ p q found found' outcome outcome',
      Draft.tailor.build = .ok p ∧
      Draft.tailorTurned.build = .ok q ∧
      p.findings Settings.standard.advice = .ok found ∧
      q.findings Settings.standard.advice = .ok found' ∧
      p.check Settings.standard = .ok outcome ∧
      q.check Settings.standard = .ok outcome' ∧
      found.map (fun f => f.breach) =
        [.nameClash "'void Tailor.sew()'"
            "'void Tailor.sew(String)'" "sew",
          .globalNameClash "void Tailor.cut(String)"
            "Tailor.cut"] ∧
      found'.map (fun f => f.breach) =
        [.nameClash "'void Tailor.sew()'"
            "'void Tailor.sew(String)'" "sew",
          .globalNameClash "void Tailor.cut()"
            "Tailor.cut"] ∧
      (found'.filter (fun f => f.takenName?.isNone)).Perm
        ((found.filter (fun f => f.takenName?.isNone)).map
          (.renumber Rearrangement.turned.number)) ∧
      ∀ name,
        found'.countP (Finding.saysTaken name) =
          found.countP (Finding.saysTaken name) := by
  have hBuilt : ∃ p, Draft.tailor.build = .ok p := ⟨_, rfl⟩
  have hBuiltTurned :
      ∃ q, Draft.tailorTurned.build = .ok q := ⟨_, rfl⟩
  rcases hBuilt with ⟨p, hBuild⟩
  rcases hBuiltTurned with ⟨q, hBuildTurned⟩
  rcases findings_of_rearranged_declarations hBuild
      hBuildTurned (Draft.tailor_keepsApart hBuild)
      Draft.tailorTurned_rearranges Settings.standard with
    ⟨found, found', outcome, outcome', hFound, hFound',
      hOutcome, hOutcome', _, _, hOthers, hTaken⟩
  have hBreaches :
      (Draft.tailor.build.toOption.bind (fun p =>
        (p.findings Settings.standard.advice).toOption)).map
          (List.map (fun f => f.breach)) =
        some [.nameClash "'void Tailor.sew()'"
            "'void Tailor.sew(String)'" "sew",
          .globalNameClash "void Tailor.cut(String)"
            "Tailor.cut"] := by
    decide +kernel
  have hBreachesTurned :
      (Draft.tailorTurned.build.toOption.bind (fun p =>
        (p.findings Settings.standard.advice).toOption)).map
          (List.map (fun f => f.breach)) =
        some [.nameClash "'void Tailor.sew()'"
            "'void Tailor.sew(String)'" "sew",
          .globalNameClash "void Tailor.cut()"
            "Tailor.cut"] := by
    decide +kernel
  rw [hBuild] at hBreaches
  rw [hBuildTurned] at hBreachesTurned
  simp only [Except.toOption, Option.bind_some, hFound,
    Option.map_some, Option.some.injEq] at hBreaches
  simp only [Except.toOption, Option.bind_some, hFound',
    Option.map_some, Option.some.injEq] at hBreachesTurned
  exact ⟨p, q, found, found', outcome, outcome', hBuild,
    hBuildTurned, hFound, hFound', hOutcome, hOutcome',
    hBreaches, hBreachesTurned, hOthers, hTaken⟩

end JsExport
