import JsExport.Proofs.Check.NamingReports
import JsExport.Proofs.Export.Inherited
import JsExport.Proofs.Rules.Claims
import JsExport.Proofs.Rules.DelegationLoop

/-
  What is reported of constructors.

  A type that exports several constructors is reported once.
  Where it exports one, each constructor that does not reach
  this one by its calls is reported once with it.  Nothing
  else is reported, and nothing of native types.

  Main declarations:
    * `ExportView.ExportsSeveral` and `ExportView.Strands`
    * `ExportView.Shows.mem_constructors_iff`
    * `ExportView.Shows.filter_constructors_eq`
    * `constructors_reported_by_delegation`
-/

namespace JsExport

open Lookup Listing

------------------------------------------------------------
-- Exported Constructors
------------------------------------------------------------

namespace ExportView

/- That a type exports a constructor. -/
structure ExportsConstructor
    (v : ExportView)
    (t : TypeNode)
    (m : MemberNode) : Prop where
  member : v.program.HasMember m
  owner_eq : m.owner = t
  isConstructor : m.decl.isConstructor
  isExported : (v.identity? m).isSome

/- That a type, not native, exports several constructors. -/
structure ExportsSeveral
    (v : ExportView)
    (t : TypeNode) : Prop where
  isNative_eq : t.decl.isNative = false
  several :
    ∃ a b, v.ExportsConstructor t a ∧
      v.ExportsConstructor t b ∧ a ≠ b

/-
  That a type, not native, exports one constructor, which
  another one of its constructors does not reach by calls.
-/
structure Strands
    (v : ExportView)
    (primary c : MemberNode) : Prop where
  isNative_eq : primary.owner.decl.isNative = false
  exports : v.ExportsConstructor primary.owner primary
  alone :
    ∀ m, v.ExportsConstructor primary.owner m → m = primary
  member : v.program.HasMember c
  owner_eq : c.owner = primary.owner
  isConstructor : c.decl.isConstructor
  ne : c ≠ primary
  not_reached :
    ¬ Relation.TransGen v.program.Delegates c primary

/- The report that a type exports several constructors. -/
def severalConstructors
    (t : TypeNode) : Finding :=
  .ofType t (.severalJsConstructors t.decl.qualifiedName)

/- The report that a constructor does not reach another. -/
def strandedConstructor
    (v : ExportView)
    (primary c : MemberNode) : Finding :=
  (Finding.ofMember primary
    (.constructorNotReached (v.signature primary))).about
      (.member c.id)

/- Each constructor that does not reach it has a report. -/
theorem nodup_map_strandedConstructor
    (v : ExportView)
    (primary : MemberNode)
    {p : Program}
    {stranded : List MemberNode}
    (hNodup : stranded.Nodup)
    (hMembers : ∀ c ∈ stranded, p.HasMember c) :
    (stranded.map (v.strandedConstructor primary)).Nodup := by
  apply hNodup.map_on
  intro c hc d hd hSame
  have hSubjects := congrArg Finding.subjects hSame
  simp only [strandedConstructor, Finding.about,
    Finding.ofMember, List.cons_append, List.nil_append,
    List.cons.injEq, Subject.member.injEq, and_true,
    true_and] at hSubjects
  exact (hMembers c hc).eq_of_id_eq (hMembers d hd) hSubjects

/- The reports that the constructors of a type deserve. -/
inductive FindsConstructors
    (v : ExportView) : TypeNode → Finding → Prop
| several
    {t : TypeNode}
    (hSeveral : v.ExportsSeveral t) :
    FindsConstructors v t (severalConstructors t)
| stranded
    {primary c : MemberNode}
    (hStrands : v.Strands primary c) :
    FindsConstructors v primary.owner
      (v.strandedConstructor primary c)

variable {v : ExportView}

theorem FindsConstructors.hasType
    {t : TypeNode}
    {f : Finding}
    (hFinds : v.FindsConstructors t f) :
    v.program.HasType t ∧ t.decl.isNative = false := by
  cases hFinds with
  | several hSeveral =>
      rcases hSeveral.several with ⟨a, _, ha, _⟩
      exact ⟨ha.owner_eq ▸ ha.member.2.2,
        hSeveral.isNative_eq⟩
  | stranded hStrands =>
      exact ⟨hStrands.exports.member.2.2,
        hStrands.isNative_eq⟩

/- A report is known by what it is about. -/
theorem FindsConstructors.unique
    {t u : TypeNode}
    {f g : Finding}
    (hFirst : v.FindsConstructors t f)
    (hSecond : v.FindsConstructors u g)
    (hSubjects : f.subjects = g.subjects) :
    t = u ∧ f = g := by
  have hType := hFirst.hasType.1
  have hOther := hSecond.hasType.1
  cases hFirst with
  | several _ =>
      cases hSecond with
      | several _ =>
          have hId : t.id = u.id := by
            simpa [severalConstructors, Finding.ofType]
              using hSubjects
          cases hType.eq_of_id_eq hOther hId
          exact ⟨rfl, rfl⟩
      | stranded _ => cases hSubjects
  | @stranded primary c hStrands =>
      cases hSecond with
      | several _ => cases hSubjects
      | @stranded other d hAlso =>
          have hIds : primary.id = other.id ∧ c.id = d.id := by
            simpa [strandedConstructor, Finding.about,
              Finding.ofMember] using hSubjects
          have hPrimary :=
            hStrands.exports.member.eq_of_id_eq
              hAlso.exports.member hIds.1
          have hCalls := hStrands.member.eq_of_id_eq
            hAlso.member hIds.2
          rw [hPrimary, hCalls]
          exact ⟨rfl, rfl⟩

------------------------------------------------------------
-- Reports Of One Type
------------------------------------------------------------

namespace Shows

variable {p : Program}
variable (hShows : v.Shows p)
variable (hSound : p.Sound)

include hShows hSound

theorem isJsConstructor_iff
    {m : MemberNode}
    (hMember : p.HasMember m) :
    v.isJsConstructor m ↔
      (v.identity? m).isSome ∧ m.decl.isConstructor := by
  have hFixed :=
    hSound.isFixedPoint_exportTable hShows.table_eq
  unfold isJsConstructor
  cases hIdentity : v.identity? m with
  | none => simp
  | some identity =>
      have hRole := hSound.role_eq_constructor_iff hFixed
        hMember hIdentity
      simp [hRole]

/- The exported constructors of a type, found by the rule. -/
theorem mem_exported_iff
    {t : TypeNode}
    (hType : p.HasType t)
    {m : MemberNode} :
    m ∈ ((v.program.declaredBy t).filter
        (fun m => m.decl.isConstructor)).filter
          v.isJsConstructor ↔
      v.ExportsConstructor t m := by
  rw [List.mem_filter, List.mem_filter, hShows.program_eq]
  constructor
  · rintro ⟨⟨hIn, hMaker⟩, hExported⟩
    rcases hSound.hasMember_of_mem_declaredBy hType hIn with
      ⟨hMember, hOwner⟩
    refine ⟨?_, hOwner, hMaker,
      ((hShows.isJsConstructor_iff hSound hMember).mp
        hExported).1⟩
    rw [hShows.program_eq]
    exact hMember
  · rintro ⟨hMember, rfl, hMaker, hExported⟩
    rw [hShows.program_eq] at hMember
    exact ⟨⟨hSound.mem_declaredBy_of_hasMember hMember,
      hMaker⟩, (hShows.isJsConstructor_iff hSound
        hMember).mpr ⟨hExported, hMaker⟩⟩

/- The search keeps the constructors that reach nothing. -/
theorem strandedConstructors_eq
    {primary : MemberNode}
    (hPrimary : p.HasMember primary)
    {constructors stranded : List MemberNode}
    (hMembers :
      ∀ c ∈ constructors,
        p.HasMember c ∧ c.owner = primary.owner)
    (hFound :
      v.strandedConstructors primary constructors =
        .ok stranded) :
    stranded.Sublist constructors ∧
      ∀ c, c ∈ stranded ↔
        c ∈ constructors ∧ c ≠ primary ∧
          ¬ Relation.TransGen p.Delegates c primary := by
  classical
  let keep : MemberNode → Bool := fun c =>
    decide (c ≠ primary ∧
      ¬ Relation.TransGen p.Delegates c primary)
  have hKept :
      v.strandedConstructors primary constructors =
        .ok (constructors.filter keep) := by
    apply filterM_eq_ok_filter
    intro c hc
    rcases hMembers c hc with ⟨hMember, hOwner⟩
    rcases hSound.follows_iff hMember hPrimary hOwner with
      ⟨answer, _, hAnswer, hMeans⟩
    by_cases hSame : c = primary
    · rw [if_pos (by rw [hSame]; exact beq_self_eq_true _)]
      simp [keep, hSame, pure, Except.pure]
    · have hId : ¬ (c.id == primary.id) := by
        intro hEq
        exact hSame (hMember.eq_of_id_eq hPrimary
          (eq_of_beq hEq))
      rw [if_neg hId, hShows.program_eq, hAnswer]
      change Except.ok (!answer) = Except.ok (keep c)
      apply congrArg
      rw [Bool.eq_iff_iff, Bool.not_eq_true',
        ← Bool.not_eq_true, hMeans]
      simp [keep, hSame]
  rw [hKept] at hFound
  cases hFound
  refine ⟨List.filter_sublist, ?_⟩
  intro c
  rw [List.mem_filter, decide_eq_true_eq]

/- With one exported constructor the others must reach it. -/
theorem mem_map_strandedConstructor_iff
    {t : TypeNode}
    (hType : p.HasType t)
    (hNative : t.decl.isNative = false)
    (hOnce : t.decl.members.Nodup)
    {primary : MemberNode}
    (hOnly : ∀ m, v.ExportsConstructor t m ↔ m = primary)
    {stranded : List MemberNode}
    (hFound :
      v.strandedConstructors primary
          ((v.program.declaredBy t).filter
            (fun m => m.decl.isConstructor)) =
        .ok stranded) :
    (stranded.map (v.strandedConstructor primary)).Nodup ∧
      ∀ f, f ∈ stranded.map (v.strandedConstructor primary) ↔
        v.FindsConstructors t f := by
  have hExports := (hOnly primary).mpr rfl
  have hPrimary := hExports.member
  have hOwner := hExports.owner_eq
  rw [hShows.program_eq] at hPrimary hFound
  have hMembers :
      ∀ c ∈ (p.declaredBy t).filter
          (fun m => m.decl.isConstructor),
        p.HasMember c ∧ c.owner = primary.owner := by
    intro c hc
    rw [hOwner]
    exact hSound.hasMember_of_mem_declaredBy hType
      (List.mem_of_mem_filter hc)
  rcases hShows.strandedConstructors_eq hSound hPrimary
      hMembers hFound with
    ⟨hSublist, hMem⟩
  constructor
  · exact v.nodup_map_strandedConstructor primary
      (((hSound.nodup_declaredBy hType hOnce).filter
        _).sublist hSublist)
      (fun c hc => (hMembers c (hSublist.subset hc)).1)
  · intro f
    rw [List.mem_map]
    constructor
    · rintro ⟨c, hc, rfl⟩
      rcases (hMem c).mp hc with ⟨hIn, hNe, hNot⟩
      rcases hMembers c hIn with ⟨hMember, hBeside⟩
      rw [← hShows.program_eq] at hMember hNot
      rw [← hOwner] at hNative hExports hOnly ⊢
      exact .stranded ⟨hNative, hExports,
        fun m hm => (hOnly m).mp hm, hMember, hBeside,
        (List.mem_filter.mp hIn).2, hNe, hNot⟩
    · intro hFinds
      cases hFinds with
      | several hSeveral =>
          rcases hSeveral.several with ⟨a, b, ha, hb, hNe⟩
          exact absurd
            (((hOnly a).mp ha).trans ((hOnly b).mp hb).symm)
            hNe
      | @stranded other c hStrands =>
          have hSame := (hOnly other).mp hStrands.exports
          have hMember := hStrands.member
          have hNot := hStrands.not_reached
          rw [hShows.program_eq] at hMember hNot
          have hIn :=
            hSound.mem_declaredBy_of_hasMember hMember
          rw [hStrands.owner_eq] at hIn
          refine ⟨c, (hMem c).mpr ⟨List.mem_filter.mpr
            ⟨hIn, hStrands.isConstructor⟩, ?_, ?_⟩, ?_⟩
          · exact hSame ▸ hStrands.ne
          · exact hSame ▸ hNot
          · rw [hSame]

/- What is reported of the constructors of one type. -/
theorem mem_constructorFindings_iff
    {t : TypeNode}
    (hType : p.HasType t)
    (hNative : t.decl.isNative = false)
    (hOnce : t.decl.members.Nodup)
    {found : List Finding}
    (hFound : v.constructorFindings t = .ok found) :
    found.Nodup ∧
      ∀ f, f ∈ found ↔ v.FindsConstructors t f := by
  have hExported := fun m =>
    hShows.mem_exported_iff hSound hType (m := m)
  have hNodup :
      (((v.program.declaredBy t).filter
        (fun m => m.decl.isConstructor)).filter
          v.isJsConstructor).Nodup := by
    rw [hShows.program_eq]
    exact ((hSound.nodup_declaredBy hType hOnce).filter
      _).filter _
  unfold constructorFindings at hFound
  dsimp only at hFound
  split at hFound
  · rename_i hNone
    rw [hNone] at hExported
    cases hFound
    refine ⟨List.nodup_nil, fun f => iff_of_false
      List.not_mem_nil ?_⟩
    intro hFinds
    cases hFinds with
    | several hSeveral =>
        rcases hSeveral.several with ⟨a, _, ha, _⟩
        cases (hExported a).mpr ha
    | stranded hStrands =>
        cases (hExported _).mpr hStrands.exports
  · rename_i primary hOne
    rw [hOne] at hExported
    rcases bind_eq_ok_iff.mp hFound with
      ⟨stranded, hStranded, hEq⟩
    cases hEq
    have hOnly :
        ∀ m, v.ExportsConstructor t m ↔ m = primary := by
      intro m
      rw [← hExported, List.mem_singleton]
    exact hShows.mem_map_strandedConstructor_iff hSound
      hType hNative hOnce hOnly hStranded
  · rename_i hSome hMore
    cases hFound
    refine ⟨List.nodup_singleton _, fun f => ?_⟩
    have hSeveral : v.ExportsSeveral t := by
      rcases List.exists_mem_of_ne_nil _ hSome with ⟨a, ha⟩
      rcases (hNodup.ne_singleton_iff a).mp (hMore a) with
        hNone | ⟨b, hb, hNe⟩
      · exact absurd hNone hSome
      · exact ⟨hNative, b, a, (hExported b).mp hb,
          (hExported a).mp ha, hNe⟩
    rw [List.mem_singleton]
    constructor
    · rintro rfl
      exact .several hSeveral
    · intro hFinds
      cases hFinds with
      | several _ => rfl
      | stranded hStrands =>
          rcases hSeveral.several with ⟨a, b, ha, hb, hNe⟩
          exact absurd ((hStrands.alone a ha).trans
            (hStrands.alone b hb).symm) hNe

------------------------------------------------------------
-- Reports Of All Types
------------------------------------------------------------

variable (hOnce : ∀ d ∈ p.types, d.members.Nodup)
variable {findings : List Finding}
variable (hFound : v.constructors = .ok findings)

include hOnce hFound

/- What is reported of constructors, each once. -/
theorem mem_constructors_iff :
    findings.Nodup ∧
      ∀ f, f ∈ findings ↔
        ∃ t, v.FindsConstructors t f := by
  rcases bind_eq_ok_iff.mp hFound with ⟨lists, hLists, hEq⟩
  cases hEq
  have hListed :
      ∀ t, t ∈ v.types.filter (fun t => !t.decl.isNative) ↔
        p.HasType t ∧ t.decl.isNative = false := by
    intro t
    rw [List.mem_filter, hShows.types_eq,
      Program.mem_typeNodes_iff, Bool.not_eq_true']
  have hEach :
      ∀ t ∈ v.types.filter (fun t => !t.decl.isNative),
        ∀ found, v.constructorFindings t = .ok found →
          found.Nodup ∧
            ∀ f, f ∈ found ↔ v.FindsConstructors t f := by
    intro t ht found hHere
    rcases (hListed t).mp ht with ⟨hType, hNative⟩
    exact hShows.mem_constructorFindings_iff hSound hType
      hNative (hOnce t.decl (List.mem_of_getElem? hType))
      hHere
  constructor
  · refine nodup_flatten_of_mapM_eq_ok hLists ?_
      (fun t ht found hHere => (hEach t ht found hHere).1) ?_
    · rw [hShows.types_eq]
      exact p.nodup_typeNodes.filter _
    · intro t ht u hu found others hHere hThere f hf hOther
      exact ((((hEach t ht found hHere).2 f).mp hf).unique
        (((hEach u hu others hThere).2 f).mp hOther) rfl).1
  · intro f
    rw [mem_flatten_of_mapM_eq_ok hLists]
    constructor
    · rintro ⟨t, ht, found, hHere, hf⟩
      exact ⟨t, ((hEach t ht found hHere).2 f).mp hf⟩
    · rintro ⟨t, hFinds⟩
      have ht := hFinds.hasType
      rw [hShows.program_eq, ← hListed] at ht
      rcases succeeds_of_mapM_eq_ok hLists ht with
        ⟨found, hHere⟩
      exact ⟨t, ht, found, hHere,
        ((hEach t ht found hHere).2 f).mpr hFinds⟩

/- A report on constructors is the only one of its kind. -/
theorem filter_constructors_eq
    {t : TypeNode}
    {f : Finding}
    (hFinds : v.FindsConstructors t f) :
    findings.filter (fun g =>
        g.diagnostic.isOn f.breach.rule f.subjects) = [f] := by
  rcases hShows.mem_constructors_iff hSound hOnce hFound with
    ⟨hNodup, hMem⟩
  apply filter_eq_singleton hNodup
  · exact (hMem f).mpr ⟨t, hFinds⟩
  · exact Finding.isOn_iff.mpr ⟨rfl, rfl⟩
  · intro g hg hOn
    rcases (hMem g).mp hg with ⟨u, hOther⟩
    exact (hOther.unique hFinds
      (Finding.isOn_iff.mp hOn).2).2

end Shows

end ExportView

------------------------------------------------------------
-- Reports In The Log
------------------------------------------------------------

namespace Program.Finds

variable {p : Program}
variable {advice : Advice}
variable {v : ExportView}
variable {naming property contract usability : List Finding}
variable
  (hFinds :
    p.Finds advice v naming property contract usability)
variable (hSound : p.Sound)
variable (hOnce : ∀ d ∈ p.types, d.members.Nodup)
variable {outcome : Outcome}
variable (hLog :
  outcome.log = .ofFamilies naming property contract usability)

include hFinds hSound hOnce hLog

/- What is found of constructors is reported. -/
theorem reports_of_findsConstructors
    {t : TypeNode}
    {f : Finding}
    (hKind : v.FindsConstructors t f) :
    outcome.Reports naming f.breach.rule f.subjects [f] := by
  rcases ExportView.namingFindings_eq_ok_iff.mp
      hFinds.naming_eq with
    ⟨constructors, hFound, _⟩
  have hAbout :
      ExportView.AboutConstructors f.breach.rule
        f.subjects := by
    cases hKind with
    | several _ => exact .inr ⟨rfl, _, rfl⟩
    | stranded _ => exact .inl rfl
  refine hFinds.reports_of_filter_eq hAbout.rank_lt
    hAbout.length_ne ?_ (by simp) hLog
  rw [ExportView.filter_naming_on_constructors
    hFinds.naming_eq hFound hAbout]
  exact hFinds.shows.filter_constructors_eq hSound hOnce
    hFound hKind

/- What is not found of constructors is not reported. -/
theorem reports_of_no_constructor
    {rule : Rule}
    {subjects : List Subject}
    (hAbout : ExportView.AboutConstructors rule subjects)
    (hNone :
      ∀ t f, v.FindsConstructors t f →
        f.breach.rule = rule → f.subjects ≠ subjects) :
    outcome.Reports naming rule subjects [] := by
  rcases ExportView.namingFindings_eq_ok_iff.mp
      hFinds.naming_eq with
    ⟨constructors, hFound, _⟩
  refine hFinds.reports_of_filter_eq hAbout.rank_lt
    hAbout.length_ne ?_ (by simp) hLog
  rw [ExportView.filter_naming_on_constructors
    hFinds.naming_eq hFound hAbout, List.filter_eq_nil_iff]
  intro f hf hOn
  rcases ((hFinds.shows.mem_constructors_iff hSound hOnce
      hFound).2 f).mp hf with
    ⟨t, hKind⟩
  rcases Finding.isOn_iff.mp hOn with ⟨hRule, hSubjects⟩
  exact hNone t f hKind hRule hSubjects

end Program.Finds

/-
  Where no type lists a member twice, following the calls of
  the constructors of a type comes to an end, even when they
  go round, and tells whether any chain of calls leads from
  one to the other.  A type, unless native, that exports
  several constructors is reported once.  When it exports
  one, each other constructor from which no chain leads
  there is reported once with it.  Nothing else is reported
  of constructors.
-/
theorem constructors_reported_by_delegation
    {draft : Draft}
    {p : Program}
    (hBuild : draft.build = .ok p)
    (hOnce : ∀ d ∈ p.types, d.members.Nodup)
    (settings : Settings) :
    (∀ primary c, p.HasMember primary → p.HasMember c →
      c.owner = primary.owner →
        ∃ answer,
          (∀ other, p.Follows primary [] c other ↔
            other = answer) ∧
          p.reachesConstructor primary c = .ok answer ∧
          (answer = true ↔
            Relation.TransGen p.Delegates c primary)) ∧
    ∃ v naming outcome, p.exportView = .ok v ∧
      v.namingFindings = .ok naming ∧
      p.check settings = .ok outcome ∧
      (∀ t, v.ExportsSeveral t →
        outcome.Reports naming .namingCollision
          [.type t.id]
          [ExportView.severalConstructors t]) ∧
      (∀ id, (∀ t, v.ExportsSeveral t → t.id ≠ id) →
        outcome.Reports naming .namingCollision
          [.type id] []) ∧
      (∀ primary c, v.Strands primary c →
        outcome.Reports naming .constructorDelegation
          [.member primary.id, .member c.id]
          [v.strandedConstructor primary c]) ∧
      ∀ subjects,
        (∀ primary c, v.Strands primary c →
          [.member primary.id, .member c.id] ≠ subjects) →
        outcome.Reports naming .constructorDelegation
          subjects [] := by
  have hSound := Program.sound_of_build hBuild
  rcases hSound.check_succeeds settings with
    ⟨outcome, hOutcome⟩
  rcases Program.check_eq_ok_iff.mp hOutcome with
    ⟨v, naming, property, contract, usability, hFinds, hEq⟩
  have hLog := congrArg Outcome.log hEq
  refine ⟨?_, v, naming, outcome,
    Program.exportView_eq_ok_iff.mpr hFinds.shows,
    hFinds.naming_eq, hOutcome, ?_, ?_, ?_, ?_⟩
  · intro primary c hPrimary hMember hOwner
    exact hSound.follows_iff hMember hPrimary hOwner
  · intro t hSeveral
    exact hFinds.reports_of_findsConstructors hSound hOnce
      hLog (.several hSeveral)
  · intro id hNone
    apply hFinds.reports_of_no_constructor hSound hOnce hLog
      (.inr ⟨rfl, id, rfl⟩)
    intro t f hKind hRule hSubjects
    cases hKind with
    | several hSeveral =>
        cases hSubjects
        exact hNone t hSeveral rfl
    | stranded _ => cases hRule
  · intro primary c hStrands
    exact hFinds.reports_of_findsConstructors hSound hOnce
      hLog (.stranded hStrands)
  · intro subjects hNone
    apply hFinds.reports_of_no_constructor hSound hOnce hLog
      (.inl rfl)
    intro t f hKind hRule hSubjects
    cases hKind with
    | several _ => cases hRule
    | stranded hStrands =>
        exact hNone _ _ hStrands hSubjects

/-
  A kite is made in four ways.  One is exported and one more
  begins with it, the two others begin with each other.  A
  spool exports both ways to make it.
-/
def Draft.kite : Draft :=
  let maker (name : String) (owner : TypeId)
      (params : List TypeExpr) (target : Option MemberId)
      (tag : ExportTag) : MemberDecl :=
    .plain name owner
      (.plain .constructor params
        { Body.empty with delegatesTo := target }) tag
  ⟨[.plain "Kite" .classKind .none [0, 1, 2, 3],
    .plain "Spool" .classKind ⟨true, false, false⟩ [4, 5]],
  [maker "Kite" 0 [] none .jsConstructor,
    maker "Kite" 0 [.prim .int] (some 2) .untagged,
    maker "Kite" 0 [.string] (some 1) .untagged,
    maker "Kite" 0 [.string, .prim .int] (some 0) .untagged,
    maker "Spool" 1 [] none .untagged,
    maker "Spool" 1 [.string] none .untagged]⟩

namespace Draft.kite

variable {p : Program}
variable {v : ExportView}
variable (hBuild : kite.build = .ok p)
variable (hView : p.exportView = .ok v)

include hBuild

theorem nodup_members :
    ∀ d ∈ p.types, d.members.Nodup := by
  rcases Draft.build_eq_ok_iff.mp hBuild with ⟨_, _, hTypes, _⟩
  rw [hTypes]
  decide

include hView

/- The way round does not lead to the exported constructor. -/
theorem exists_strands :
    ∃ primary c, primary.id = 0 ∧ c.id = 1 ∧
      p.Follows primary [] c false ∧
      v.Strands primary c := by
  have hSound := Program.sound_of_build hBuild
  have hShows := Program.exportView_eq_ok_iff.mp hView
  rcases Draft.build_eq_ok_iff.mp hBuild with
    ⟨_, _, _, hMembers⟩
  rcases hSound.exists_hasMember 0
      (by rw [hMembers]; decide) with
    ⟨primary, hFirst, hFirstId, hPrimary⟩
  rcases hSound.exists_hasMember 1
      (by rw [hMembers]; decide) with
    ⟨c, hSecond, hSecondId, hCalls⟩
  have hShown :
      (kite.build.toOption.bind (fun p =>
        p.exportView.toOption.bind (fun v =>
          (p.member 0).toOption.bind (fun primary =>
            (p.member 1).toOption.map (fun c => decide
              ((primary.owner.decl.isNative = false ∧
                  primary.decl.isConstructor ∧
                  (v.identity? primary).isSome) ∧
                (∀ m ∈ v.members, m.owner = primary.owner →
                  (v.identity? m).isSome → m = primary) ∧
                (c.owner = primary.owner ∧
                  c.decl.isConstructor) ∧
                p.reachesConstructor primary c =
                  .ok false)))))) = some true := by
    decide +kernel
  simp only [hBuild, hView, hFirst, hSecond,
    Except.toOption, Option.bind_some, Option.map_some,
    Option.some.injEq, decide_eq_true_eq] at hShown
  rcases hShown with
    ⟨⟨hNative, hMaker, hExported⟩, hAlone, ⟨hOwner, hOther⟩,
      hAnswer⟩
  rcases hSound.follows_iff hCalls hPrimary hOwner with
    ⟨answer, hFollows, hFound, hMeans⟩
  cases hAnswer.symm.trans hFound
  refine ⟨primary, c, hFirstId, hSecondId,
    (hFollows false).mpr rfl, ?_⟩
  rw [← hShows.program_eq] at hPrimary hCalls hMeans
  refine ⟨hNative, ⟨hPrimary, rfl, hMaker, hExported⟩, ?_,
    hCalls, hOwner, hOther, ?_, ?_⟩
  · intro m hm
    have hMember := hm.member
    rw [hShows.program_eq] at hMember
    exact hAlone m (hShows.mem_members_iff.mpr hMember)
      hm.owner_eq hm.isExported
  · rintro rfl
    cases hFirstId.symm.trans hSecondId
  · exact fun hReached =>
      Bool.false_ne_true (hMeans.mpr hReached)

/- Both ways to make a spool are exported with it. -/
theorem exists_exportsSeveral :
    ∃ t, t.id = 1 ∧ v.ExportsSeveral t := by
  have hSound := Program.sound_of_build hBuild
  have hShows := Program.exportView_eq_ok_iff.mp hView
  rcases Draft.build_eq_ok_iff.mp hBuild with
    ⟨_, _, _, hMembers⟩
  rcases hSound.exists_hasMember 4
      (by rw [hMembers]; decide) with
    ⟨a, hFirst, hFirstId, ha⟩
  rcases hSound.exists_hasMember 5
      (by rw [hMembers]; decide) with
    ⟨b, hSecond, hSecondId, hb⟩
  have hShown :
      (kite.build.toOption.bind (fun p =>
        p.exportView.toOption.bind (fun v =>
          (p.member 4).toOption.bind (fun a =>
            (p.member 5).toOption.map (fun b => decide
              (a.owner.id = 1 ∧
                a.owner.decl.isNative = false ∧
                b.owner = a.owner ∧
                (a.decl.isConstructor ∧
                  (v.identity? a).isSome) ∧
                b.decl.isConstructor ∧
                  (v.identity? b).isSome)))))) =
        some true := by
    decide +kernel
  simp only [hBuild, hView, hFirst, hSecond,
    Except.toOption, Option.bind_some, Option.map_some,
    Option.some.injEq, decide_eq_true_eq] at hShown
  rcases hShown with
    ⟨hSpool, hNative, hOwner, ⟨hMaker, hExported⟩, hOther,
      hAlso⟩
  rw [← hShows.program_eq] at ha hb
  refine ⟨a.owner, hSpool, hNative, a, b,
    ⟨ha, rfl, hMaker, hExported⟩,
    ⟨hb, hOwner, hOther, hAlso⟩, ?_⟩
  rintro rfl
  cases hFirstId.symm.trans hSecondId

end Draft.kite

/- A way round is left, reported, and the spool is too. -/
theorem kite_makers_go_round :
    ∃ p v naming outcome, Draft.kite.build = .ok p ∧
      (∀ d ∈ p.types, d.members.Nodup) ∧
      p.exportView = .ok v ∧
      v.namingFindings = .ok naming ∧
      p.check Settings.standard = .ok outcome ∧
      (∃ primary c, primary.id = 0 ∧ c.id = 1 ∧
        p.Follows primary [] c false ∧
        v.Strands primary c ∧
        outcome.Reports naming .constructorDelegation
          [.member primary.id, .member c.id]
          [v.strandedConstructor primary c]) ∧
      ∃ t, t.id = 1 ∧ v.ExportsSeveral t ∧
        outcome.Reports naming .namingCollision [.type t.id]
          [ExportView.severalConstructors t] := by
  have hBuilt : ∃ p, Draft.kite.build = .ok p := ⟨_, rfl⟩
  rcases hBuilt with ⟨p, hBuild⟩
  have hOnce := Draft.kite.nodup_members hBuild
  rcases constructors_reported_by_delegation hBuild hOnce
      Settings.standard with
    ⟨_, v, naming, outcome, hView, hNaming, hOutcome,
      hSeveral, _, hStranded, _⟩
  rcases Draft.kite.exists_strands hBuild hView with
    ⟨primary, c, hFirst, hSecond, hFollows, hStrands⟩
  rcases Draft.kite.exists_exportsSeveral hBuild hView with
    ⟨t, hSpool, hBoth⟩
  exact ⟨p, v, naming, outcome, hBuild, hOnce, hView, hNaming,
    hOutcome,
    ⟨primary, c, hFirst, hSecond, hFollows, hStrands,
      hStranded primary c hStrands⟩,
    t, hSpool, hBoth, hSeveral t hBoth⟩

end JsExport
