import JsExport.Proofs.Check.ClashCounts
import JsExport.Proofs.Rules.AccessorPairs

/-
  What is reported of the reader and the writer of one
  property.

  Where nothing else has their name, no rule on surfaces or
  on properties reports one of the two.  The rule on global
  names knows nothing of accessors, and reports the one that
  their type lists later if both of them claim a name.

  Main declarations:
    * `Diagnostic.isNamingOf`
    * `Program.Finds.filter_entries_of_isAccessorPair`
    * `accessor_pair_reported_iff_global`
-/

namespace JsExport

open Lookup

------------------------------------------------------------
-- Reports On Names
------------------------------------------------------------

/- Whether a report on names is about one of two members. -/
def Diagnostic.isNamingOf
    (a b : MemberId)
    (d : Diagnostic) : Bool :=
  decide (d.rule = .namingCollision ∧
    (.member a ∈ d.subjects ∨ .member b ∈ d.subjects))

theorem Finding.not_isNamingOf_of_rule_eq
    {f : Finding}
    {rule : Rule}
    (hRule : f.breach.rule = rule)
    (hOther : rule ≠ .namingCollision)
    (a b : MemberId) :
    ¬ f.diagnostic.isNamingOf a b := by
  intro hNaming
  exact hOther (hRule.symm.trans
    (of_decide_eq_true hNaming).1)

/- The report of a clash is about its two members. -/
theorem Clash.isNamingOf_finding_iff
    {v : ExportView}
    {c : Clash}
    {a b : MemberId} :
    (c.finding v).diagnostic.isNamingOf a b ↔
      (c.first.member.id = a ∨ c.second.member.id = a) ∨
        c.first.member.id = b ∨ c.second.member.id = b := by
  have hRule :
      (c.finding v).diagnostic.rule = .namingCollision := rfl
  have hSubjects :
      (c.finding v).diagnostic.subjects =
        [.member c.first.member.id,
          .member c.second.member.id] := rfl
  unfold Diagnostic.isNamingOf
  rw [decide_eq_true_eq, hRule, hSubjects]
  simp [eq_comm]

theorem Clash.isNamingOf_ordered_iff
    {v : ExportView}
    {c : Clash}
    {a b : MemberId} :
    ((c.ordered v).finding v).diagnostic.isNamingOf a b ↔
      (c.first.member.id = a ∨ c.second.member.id = a) ∨
        c.first.member.id = b ∨ c.second.member.id = b := by
  rcases (c.ordered_cases v).1 with hSame | hSwap
  · rw [hSame, isNamingOf_finding_iff]
  · rw [hSwap, isNamingOf_finding_iff]
    tauto

------------------------------------------------------------
-- Reports On Surfaces
------------------------------------------------------------

namespace ExportView.IsAccessorPair

variable {v : ExportView}
variable {p : Program}
variable {getter setter : MemberNode}
variable {name : String}
variable (hPair : v.IsAccessorPair getter setter name)
variable (hShows : v.Shows p)
variable (hSound : p.Sound)
variable (hGetter : p.HasMember getter)
variable (hSetter : p.HasMember setter)

include hPair hShows hSound hGetter hSetter

/- No clash of names is about an accessor of a pair. -/
theorem not_isNamingOf_of_mem_nameClashes
    {f : Finding}
    (hMem : f ∈ v.nameClashes) :
    ¬ f.diagnostic.isNamingOf getter.id setter.id := by
  rcases List.mem_map.mp hMem with ⟨c, hFirst, rfl⟩
  rcases List.mem_flatMap.mp
      ((Listing.firstBy_sublist _ _).subset hFirst) with
    ⟨s, hSurface, hHere⟩
  rcases Surface.clashes_of_mem_clashes hHere with
    ⟨_, x, y, hClash, hx, hy, _⟩
  have hOn :
      s.ClashesOn c.first.member.id c.second.member.id :=
    ⟨x, y, hClash, by rw [hx], by rw [hy]⟩
  have hLow := hPair.not_clashesOn hShows hSound hGetter
    hSetter hSurface hOn
  have hHigh := hPair.not_clashesOn hShows hSound hGetter
    hSetter hSurface hOn.symm
  rw [Clash.isNamingOf_ordered_iff]
  tauto

/- No issue of a property is a clash with one of a pair. -/
theorem not_isNamingOf_of_mem_properties
    (hOnce : ∀ d ∈ p.types, d.members.Nodup)
    {f : Finding}
    (hMem : f ∈ v.properties) :
    ¬ f.diagnostic.isNamingOf getter.id setter.id := by
  rcases List.mem_map.mp hMem with ⟨issue, hFirst, rfl⟩
  rcases List.mem_flatMap.mp
      ((Listing.firstBy_sublist _ _).subset hFirst) with
    ⟨s, hSurface, hHere⟩
  rcases List.mem_flatMap.mp hHere with ⟨g, hGroup, hIssue⟩
  cases issue with
  | mismatch c =>
      have hRule : (mismatchFinding c).breach.rule =
          .propertyConsistency := by
        rw [breach_mismatchFinding]
        rfl
      exact Finding.not_isNamingOf_of_rule_eq hRule
        Rule.noConfusion _ _
  | clash c =>
      rcases clash_mem_groupIssues_iff.mp hIssue with
        ⟨access, hValid, a, b, rfl, hListed⟩
      rcases Listing.mem_of_mem_pairs hListed with ⟨ha, hb⟩
      have hNe := hShows.ne_of_mem_pairs_accessors hSound
        hOnce hSurface hGroup hListed
      have hLike := likeAccessorsOn_of_mem_accessors hGroup
        hValid ha hb
      have hLow := hPair.not_likeAccessorsOn hShows hSound
        hGetter hSetter hSurface hLike hNe
      have hHigh := hPair.not_likeAccessorsOn hShows hSound
        hGetter hSetter hSurface hLike.symm hNe.symm
      change ¬ (Clash.finding v _).diagnostic.isNamingOf _ _
      rw [Clash.isNamingOf_finding_iff]
      tauto

end ExportView.IsAccessorPair

------------------------------------------------------------
-- Reports On Global Names
------------------------------------------------------------

namespace ExportView

variable {v : ExportView}
variable {p : Program}
variable {name : String}

/- The finding that the global name of a member is taken. -/
def takenName
    (v : ExportView)
    (m : MemberNode)
    (name : String) : Finding :=
  .ofMember m (.globalNameClash (v.signature m) name)

theorem isNamingOf_takenName_iff
    {m : MemberNode}
    {a b : MemberId} :
    (v.takenName m name).diagnostic.isNamingOf a b ↔
      m.id = a ∨ m.id = b := by
  have hRule :
      (v.takenName m name).diagnostic.rule =
        .namingCollision := rfl
  have hSubjects :
      (v.takenName m name).diagnostic.subjects =
        [.member m.id] := rfl
  unfold Diagnostic.isNamingOf
  rw [decide_eq_true_eq, hRule, hSubjects]
  simp [eq_comm]

/- The reports on global names are about late claims. -/
theorem Shows.filter_globalNames
    (hShows : v.Shows p)
    (hSound : p.Sound)
    {a b : MemberNode}
    (ha : p.HasMember a)
    (hb : p.HasMember b) :
    v.globalNames.filter
        (fun f => f.diagnostic.isNamingOf a.id b.id) =
      ((lateClaims [] v.claims).filter (fun c =>
        decide (c.member = a ∨ c.member = b))).map
          (fun c => v.takenName c.member c.name) := by
  have hEach :
      ∀ c ∈ lateClaims [] v.claims,
        (v.takenName c.member c.name).diagnostic.isNamingOf
            a.id b.id =
          decide (c.member = a ∨ c.member = b) := by
    intro c hc
    have hClaim := (lateClaims_sublist [] v.claims).subset hc
    rcases (of_mem_claims hClaim).2 with ⟨t, ht, hIn⟩
    rw [hShows.types_eq] at ht
    rw [hShows.program_eq] at hIn
    have hMember := (hSound.hasMember_of_mem_declaredBy
      (Program.mem_typeNodes_iff.mp ht) hIn).1
    rw [Bool.eq_iff_iff, isNamingOf_takenName_iff,
      decide_eq_true_eq]
    constructor
    · exact Or.imp (hMember.eq_of_id_eq ha)
        (hMember.eq_of_id_eq hb)
    · exact Or.imp (congrArg MemberNode.id)
        (congrArg MemberNode.id)
  unfold globalNames
  rw [List.filter_map]
  exact congrArg _ (List.filter_congr hEach)

/- A report on constructors is about no name of a member. -/
theorem not_isNamingOf_of_mem_constructors
    {findings : List Finding}
    (hFound : v.constructors = .ok findings)
    {f : Finding}
    (hMem : f ∈ findings)
    (a b : MemberId) :
    ¬ f.diagnostic.isNamingOf a b := by
  rcases mem_constructors_cases hFound hMem with
    ⟨t, _, primary, _, _, rfl | ⟨c, _, rfl⟩⟩
  · intro hNaming
    rcases (of_decide_eq_true hNaming).2 with hIn | hIn
    · cases List.mem_singleton.mp hIn
    · cases List.mem_singleton.mp hIn
  · exact Finding.not_isNamingOf_of_rule_eq rfl
      Rule.noConfusion a b

end ExportView

------------------------------------------------------------
-- Reports On A Pair
------------------------------------------------------------

namespace Program.Finds

variable {p : Program}
variable {advice : Advice}
variable {v : ExportView}
variable {naming property contract usability : List Finding}
variable
  (hFinds :
    p.Finds advice v naming property contract usability)
variable {getter setter : MemberNode}
variable {name : String}
variable (hPair : v.IsAccessorPair getter setter name)
variable (hSound : p.Sound)
variable (hGetter : p.HasMember getter)
variable (hSetter : p.HasMember setter)

include hFinds hPair hSound hGetter hSetter

/- Of the rules on names one reports accessors of a pair. -/
theorem filter_naming_of_isAccessorPair :
    naming.filter (fun f =>
        f.diagnostic.isNamingOf getter.id setter.id) =
      v.globalNames.filter (fun f =>
        f.diagnostic.isNamingOf getter.id setter.id) := by
  rcases ExportView.namingFindings_eq_ok_iff.mp
      hFinds.naming_eq with
    ⟨constructors, hConstructors, rfl⟩
  have hClashes := List.filter_eq_nil_iff.mpr (fun _ =>
    hPair.not_isNamingOf_of_mem_nameClashes hFinds.shows
      hSound hGetter hSetter)
  have hMakers := List.filter_eq_nil_iff.mpr (fun _ hf =>
    ExportView.not_isNamingOf_of_mem_constructors
      hConstructors hf getter.id setter.id)
  have hRenames :
      v.renames.filter (fun f =>
        f.diagnostic.isNamingOf getter.id setter.id) =
          [] := by
    apply List.filter_eq_nil_iff.mpr
    intro f hf
    rcases List.mem_map.mp hf with ⟨r, _, rfl⟩
    exact Finding.not_isNamingOf_of_rule_eq rfl
      Rule.noConfusion _ _
  simp only [List.filter_append, hClashes, hMakers, hRenames,
    List.nil_append, List.append_nil]

/- No rule on properties reports accessors of a pair. -/
theorem filter_property_of_isAccessorPair
    (hOnce : ∀ d ∈ p.types, d.members.Nodup) :
    property.filter (fun f =>
      f.diagnostic.isNamingOf getter.id setter.id) = [] := by
  apply List.filter_eq_nil_iff.mpr
  intro f hf
  rcases ExportView.propertyFindings_eq_ok_iff.mp
      hFinds.property_eq with
    ⟨superAccessors, hSuper, rfl⟩
  simp only [List.mem_append] at hf
  rcases hf with (hShape | hProperties) | hCall
  · exact Finding.not_isNamingOf_of_rule_eq
      (ExportView.rule_of_mem_accessorShapes hShape)
      Rule.noConfusion _ _
  · exact hPair.not_isNamingOf_of_mem_properties hFinds.shows
      hSound hGetter hSetter hOnce hProperties
  · exact Finding.not_isNamingOf_of_rule_eq
      (ExportView.rule_of_mem_superAccessors hSuper hCall)
      Rule.noConfusion _ _

/- Of all rules one reports accessors of a pair. -/
theorem filter_entries_of_isAccessorPair
    (hOnce : ∀ d ∈ p.types, d.members.Nodup) :
    ((Log.ofFamilies naming property contract
        usability).entries.filter
          (Diagnostic.isNamingOf getter.id setter.id)).Perm
      ((v.globalNames.filter (fun f =>
        f.diagnostic.isNamingOf getter.id setter.id)).map
          Finding.diagnostic) := by
  have hContract := List.filter_eq_nil_iff.mpr (fun _ hf =>
    Finding.not_isNamingOf_of_rule_eq
      (rule_of_mem_contractFindings hFinds.contract_eq hf)
      Rule.noConfusion getter.id setter.id)
  have hUsability := List.filter_eq_nil_iff.mpr (fun _ hf =>
    Finding.not_isNamingOf_of_rule_eq
      (ExportView.rule_of_mem_usability hFinds.usability_eq
        hf)
      Rule.noConfusion getter.id setter.id)
  have hNaming := hFinds.filter_naming_of_isAccessorPair
    hPair hSound hGetter hSetter
  have hProperty := hFinds.filter_property_of_isAccessorPair
    hPair hSound hGetter hSetter hOnce
  have hAll := Log.filter_entries_ofFamilies naming property
    contract usability
    (Diagnostic.isNamingOf getter.id setter.id)
  rw [hNaming, hProperty, hContract, hUsability,
    List.append_nil, List.append_nil, List.append_nil] at hAll
  exact hAll

end Program.Finds

/-
  Where nothing else has the name of a reader and a writer
  of one type, one of them is reported exactly when they are
  static and neither is native: the claim of the one that
  the type lists later is late.  Nothing else on names is
  reported of either.
-/
theorem accessor_pair_reported_iff_global
    {draft : Draft}
    {p : Program}
    (hBuild : draft.build = .ok p)
    (hOnce : ∀ d ∈ p.types, d.members.Nodup)
    (settings : Settings) :
    ∃ v outcome, p.exportView = .ok v ∧
      p.check settings = .ok outcome ∧
      ∀ getter setter name,
        p.HasMember getter → p.HasMember setter →
        v.IsAccessorPair getter setter name →
        outcome.log.entries.filter
            (Diagnostic.isNamingOf getter.id setter.id) =
          if getter.decl.isStatic ∧ ¬ getter.isNative ∧
              ¬ setter.isNative then
            [(v.takenName (p.lastDeclared getter setter)
              s!"{getter.owner.decl.globalName}.{name}"
              ).diagnostic]
          else [] := by
  have hSound := Program.sound_of_build hBuild
  rcases hSound.check_succeeds settings with
    ⟨outcome, hOutcome⟩
  rcases Program.check_eq_ok_iff.mp hOutcome with
    ⟨v, naming, property, contract, usability, hFinds, rfl⟩
  have hShows := hFinds.shows
  refine ⟨v, _, Program.exportView_eq_ok_iff.mpr hShows,
    hOutcome, ?_⟩
  intro getter setter name hGetter hSetter hPair
  have hEntries := hFinds.filter_entries_of_isAccessorPair
    hPair hSound hGetter hSetter hOnce
  rw [hShows.filter_globalNames hSound hGetter hSetter,
    hPair.filter_lateClaims hShows hSound hOnce hGetter
      hSetter] at hEntries
  split
  · rename_i hGlobal
    rw [if_pos hGlobal] at hEntries
    exact hEntries.eq_singleton
  · rename_i hLocal
    rw [if_neg hLocal] at hEntries
    exact hEntries.eq_nil

------------------------------------------------------------
-- A Gauge
------------------------------------------------------------

/- All gauges share a level, and each one has a unit. -/
def Draft.gauge : Draft :=
  let reader : String → TypeExpr → MemberDecl :=
    fun name type =>
      .plain name 0 (.plain (.method type) [] .empty)
        .jsProperty
  let writer : String → TypeExpr → MemberDecl :=
    fun name type =>
      .plain name 0 (.plain (.method .void) [type] .empty)
        .jsProperty
  ⟨[.plain "Gauge" .classKind ⟨true, false, false⟩
      [0, 1, 2, 3]],
    [{ reader "getLevel" (.prim .int) with isStatic := true },
      { writer "setLevel" (.prim .int) with
        isStatic := true },
      reader "getUnit" .string,
      writer "setUnit" .string]⟩

/- The members of the gauge with the gauge. -/
def Draft.gaugeNode
    (i : Fin 4) : MemberNode :=
  ⟨i, Draft.gauge.members[i], 0, Draft.gauge.types[0]⟩

theorem Draft.hasMember_gaugeNode
    {p : Program}
    (hBuild : Draft.gauge.build = .ok p)
    (i : Fin 4) :
    p.HasMember (Draft.gaugeNode i) := by
  have hOwner :
      ∀ d ∈ Draft.gauge.members, d.owner = some 0 := by
    decide
  exact Program.hasMember_of_build hBuild
    (List.getElem?_eq_getElem i.isLt)
    (hOwner _ (List.getElem_mem i.isLt)) rfl

/-
  Both pairs of the gauge have their names for themselves,
  have the right shapes and types, and override nothing.
-/
theorem Draft.gauge_pairs
    {p : Program}
    (hBuild : Draft.gauge.build = .ok p)
    {v : ExportView}
    (hView : p.exportView = .ok v) :
    v.IsAccessorPair (Draft.gaugeNode 0) (Draft.gaugeNode 1)
        "level" ∧
      v.IsAccessorPair (Draft.gaugeNode 2)
        (Draft.gaugeNode 3) "unit" ∧
      v.accessorShapes = [] ∧ v.properties = [] ∧
      ∀ s ∈ v.surfaces, ∀ slot ∈ s.slots,
        slot.overridden = [] := by
  have hSeen :
      (Draft.gauge.build.toOption.bind (fun p =>
        p.exportView.toOption.map (fun v => decide
          (v.IsAccessorPair (Draft.gaugeNode 0)
              (Draft.gaugeNode 1) "level" ∧
            v.IsAccessorPair (Draft.gaugeNode 2)
              (Draft.gaugeNode 3) "unit" ∧
            v.accessorShapes = [] ∧ v.properties = [] ∧
            ∀ s ∈ v.surfaces, ∀ slot ∈ s.slots,
              slot.overridden = [])))) = some true := by
    decide +kernel
  simp only [hBuild, hView, Except.toOption,
    Option.bind_some, Option.map_some, Option.some.injEq,
    decide_eq_true_eq] at hSeen
  exact hSeen

theorem Draft.gauge_members_nodup
    {p : Program}
    (hBuild : Draft.gauge.build = .ok p) :
    ∀ d ∈ p.types, d.members.Nodup := by
  rcases Draft.build_eq_ok_iff.mp hBuild with
    ⟨_, _, hTypes, _⟩
  rw [hTypes]
  decide

/- The writer of the level is reported as a collision. -/
theorem level_of_gauge_reported :
    ∃ p v outcome getter setter, Draft.gauge.build = .ok p ∧
      (∀ d ∈ p.types, d.members.Nodup) ∧
      p.exportView = .ok v ∧
      p.check Settings.standard = .ok outcome ∧
      p.HasMember getter ∧ p.HasMember setter ∧
      v.IsAccessorPair getter setter "level" ∧
      v.accessorShapes = [] ∧ v.properties = [] ∧
      (∀ s ∈ v.surfaces, ∀ slot ∈ s.slots,
        slot.overridden = []) ∧
      ∃ d ∈ outcome.log.entries,
        d.rule = .namingCollision ∧
          .member setter.id ∈ d.subjects := by
  have hBuilt : ∃ p, Draft.gauge.build = .ok p := ⟨_, rfl⟩
  rcases hBuilt with ⟨p, hBuild⟩
  have hSound := Program.sound_of_build hBuild
  rcases hSound.check_succeeds Settings.standard with
    ⟨outcome, hOutcome⟩
  rcases Program.check_eq_ok_iff.mp hOutcome with
    ⟨v, _, _, _, _, hFinds, _⟩
  have hView := Program.exportView_eq_ok_iff.mpr hFinds.shows
  rcases Draft.gauge_pairs hBuild hView with
    ⟨hLevel, _, hShapes, hProperties, hApart⟩
  have hFound :
      outcome.log.entries.any (fun d => decide
        (d.rule = .namingCollision ∧
          .member 1 ∈ d.subjects)) = true :=
    Draft.eq_of_map_check_eq_some hBuild hOutcome
      (fun o => o.log.entries.any (fun d => decide
        (d.rule = .namingCollision ∧
          .member 1 ∈ d.subjects)))
      (by decide +kernel)
  rcases List.any_eq_true.mp hFound with ⟨d, hd, hNaming⟩
  exact ⟨p, v, outcome, Draft.gaugeNode 0,
    Draft.gaugeNode 1, hBuild,
    Draft.gauge_members_nodup hBuild, hView, hOutcome,
    Draft.hasMember_gaugeNode hBuild 0,
    Draft.hasMember_gaugeNode hBuild 1, hLevel, hShapes,
    hProperties, hApart, d, hd, of_decide_eq_true hNaming⟩

/-
  Of the accessors of the gauge the writer of the level is
  reported, once, and those of the unit are not.
-/
theorem gauge_level_reported_and_unit_not :
    ∃ p v outcome, Draft.gauge.build = .ok p ∧
      (∀ d ∈ p.types, d.members.Nodup) ∧
      p.exportView = .ok v ∧
      p.check Settings.standard = .ok outcome ∧
      v.IsAccessorPair (Draft.gaugeNode 0)
        (Draft.gaugeNode 1) "level" ∧
      outcome.log.entries.filter
          (Diagnostic.isNamingOf 0 1) =
        [(v.takenName (Draft.gaugeNode 1)
          "Gauge.level").diagnostic] ∧
      v.IsAccessorPair (Draft.gaugeNode 2)
        (Draft.gaugeNode 3) "unit" ∧
      outcome.log.entries.filter
        (Diagnostic.isNamingOf 2 3) = [] := by
  have hBuilt : ∃ p, Draft.gauge.build = .ok p := ⟨_, rfl⟩
  rcases hBuilt with ⟨p, hBuild⟩
  have hOnce := Draft.gauge_members_nodup hBuild
  rcases accessor_pair_reported_iff_global hBuild hOnce
      Settings.standard with
    ⟨v, outcome, hView, hOutcome, hEach⟩
  rcases Draft.gauge_pairs hBuild hView with
    ⟨hLevel, hUnit, _⟩
  have hLast :
      p.lastDeclared (Draft.gaugeNode 0)
        (Draft.gaugeNode 1) = Draft.gaugeNode 1 := by
    have hSeen :
        Draft.gauge.build.toOption.map (fun p =>
          p.lastDeclared (Draft.gaugeNode 0)
            (Draft.gaugeNode 1)) =
          some (Draft.gaugeNode 1) := by
      decide +kernel
    rw [hBuild] at hSeen
    exact Option.some.inj hSeen
  have hGlobal := hEach _ _ _
    (Draft.hasMember_gaugeNode hBuild 0)
    (Draft.hasMember_gaugeNode hBuild 1) hLevel
  have hLocal := hEach _ _ _
    (Draft.hasMember_gaugeNode hBuild 2)
    (Draft.hasMember_gaugeNode hBuild 3) hUnit
  rw [if_pos (by decide), hLast] at hGlobal
  rw [if_neg (by decide)] at hLocal
  exact ⟨p, v, outcome, hBuild, hOnce, hView, hOutcome,
    hLevel, hGlobal, hUnit, hLocal⟩

end JsExport
