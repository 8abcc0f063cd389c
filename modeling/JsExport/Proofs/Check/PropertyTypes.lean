import JsExport.Proofs.Check.NamingReports
import JsExport.Proofs.Rules.PropertyTypes

/-
  Mismatches of property types are reported type by type.

  A report of a mismatch names the property and the type, and
  is placed at a member of the type or at the type itself, so
  the place tells types of one name apart.  Each type and
  each name has at most one such report, and a type below has
  its own where the same two accessors meet again.

  Main declarations:
    * `Diagnostic.isMismatchAt` and `Finding.IsMismatch`
    * `Program.Sound.isMismatchAt_mismatchFinding_iff`
    * `Program.Finds.filter_property_isMismatchAt`
    * `Program.Finds.filter_entries_isMismatchAt`
    * `property_mismatch_reported_per_type`
-/

namespace JsExport

open Lookup

------------------------------------------------------------
-- Reports By Type And Property
------------------------------------------------------------

/- Whether a declaration is a type or one of its members. -/
def Subject.isWithin
    (t : TypeNode) : Subject → Bool
| .type id => decide (id = t.id)
| .member id => t.decl.members.contains id

/-
  Whether a report says that a property of a type has two
  types, and is placed within that type.
-/
def Diagnostic.isMismatchAt
    (t : TypeNode)
    (name : String)
    (d : Diagnostic) : Bool :=
  decide (d.rule = .propertyConsistency ∧
      d.message = (Breach.propertyTypes name
        t.decl.qualifiedName).message) &&
    d.subjects.head?.any (Subject.isWithin t)

/-
  That a finding reports of a type that a reader and a writer
  of a property disagree.  It is placed at the writer if the
  type declares the writer, else at the reader if the type
  declares the reader, and else at the type.
-/
structure Finding.IsMismatch
    (f : Finding)
    (t : TypeNode)
    (name : String)
    (getter setter : MemberNode) : Prop where
  breach_eq :
    f.breach = .propertyTypes name t.decl.qualifiedName
  at_setter :
    setter.owner.id = t.id →
      f = ((Finding.ofMember setter f.breach).about
        (.member getter.id)).about (.member setter.id)
  at_getter :
    setter.owner.id ≠ t.id → getter.owner.id = t.id →
      f = ((Finding.ofMember getter f.breach).about
        (.member getter.id)).about (.member setter.id)
  at_type :
    setter.owner.id ≠ t.id → getter.owner.id ≠ t.id →
      f = ((Finding.ofType t f.breach).about
        (.member getter.id)).about (.member setter.id)

theorem ExportView.isMismatch_mismatchFinding
    (c : Clash) :
    (mismatchFinding c).IsMismatch c.type c.name
      c.first.member c.second.member := by
  have hBreach := breach_mismatchFinding c
  refine ⟨hBreach, ?_, ?_, ?_⟩
  · intro hOwn
    rw [hBreach]
    unfold mismatchFinding
    dsimp only
    rw [if_pos (beq_iff_eq.mpr hOwn)]
  · intro hOther hOwn
    rw [hBreach]
    unfold mismatchFinding
    dsimp only
    rw [if_neg (fun hSame => hOther (beq_iff_eq.mp hSame)),
      if_pos (beq_iff_eq.mpr hOwn)]
  · intro hOther hBoth
    rw [hBreach]
    unfold mismatchFinding
    dsimp only
    rw [if_neg (fun hSame => hOther (beq_iff_eq.mp hSame)),
      if_neg (fun hSame => hBoth (beq_iff_eq.mp hSame))]

/- The message tells the properties of a type apart. -/
theorem Breach.message_propertyTypes_inj
    {name other type : String} :
    (Breach.propertyTypes name type).message =
        (Breach.propertyTypes other type).message ↔
      name = other := by
  constructor
  · intro hSame
    unfold message at hSame
    simpa [String.append_left_inj, String.append_right_inj,
      toString] using hSame
  · rintro rfl
    rfl

namespace Program.Sound

variable {p : Program}
variable (hSound : p.Sound)
variable {t : TypeNode}
variable (hType : p.HasType t)

include hSound hType

/- A member is within the type that owns it. -/
theorem isWithin_member_iff
    {m : MemberNode}
    (hMember : p.HasMember m) :
    Subject.isWithin t (.member m.id) ↔
      m.owner.id = t.id := by
  unfold Subject.isWithin
  rw [List.contains_iff_mem]
  constructor
  · intro hListed
    rcases hSound.wellFormed.memberLists t.id t.decl hType
        m.id hListed with
      ⟨d, hFound, hOwner⟩
    cases hFound.symm.trans hMember.1
    exact Option.some.inj (hMember.2.1.symm.trans hOwner)
  · intro hId
    have hOwner := hMember.2.2.eq_of_id_eq hType hId
    have hDeclared :=
      hSound.mem_declaredBy_of_hasMember hMember
    rw [hOwner] at hDeclared
    exact ((p.mem_declaredBy_iff t m).mp hDeclared).1

/- A mismatch is placed within its type. -/
theorem isWithin_head?_mismatchFinding
    {c : Clash}
    (hGetter : p.HasMember c.first.member)
    (hSetter : p.HasMember c.second.member) :
    (ExportView.mismatchFinding c).subjects.head?.any
        (Subject.isWithin t) ↔
      c.type.id = t.id := by
  have hPlaced := ExportView.isMismatch_mismatchFinding c
  by_cases hSet : c.second.member.owner.id = c.type.id
  · rw [hPlaced.at_setter hSet, ← hSet]
    exact hSound.isWithin_member_iff hType hSetter
  · by_cases hGet : c.first.member.owner.id = c.type.id
    · rw [hPlaced.at_getter hSet hGet, ← hGet]
      exact hSound.isWithin_member_iff hType hGetter
    · rw [hPlaced.at_type hSet hGet]
      exact decide_eq_true_iff

/- So a report is of the type and the name of its issue. -/
theorem isMismatchAt_mismatchFinding_iff
    {c : Clash}
    (hOwn : p.HasType c.type)
    (hGetter : p.HasMember c.first.member)
    (hSetter : p.HasMember c.second.member)
    {name : String} :
    (ExportView.mismatchFinding c).diagnostic.isMismatchAt t
        name ↔
      c.type.id = t.id ∧ c.name = name := by
  have hBreach := ExportView.breach_mismatchFinding c
  have hWithin := hSound.isWithin_head?_mismatchFinding hType
    hGetter hSetter
  have hRule :
      (ExportView.mismatchFinding c).diagnostic.rule =
        .propertyConsistency := by
    change (ExportView.mismatchFinding c).breach.rule = _
    rw [hBreach]
    rfl
  have hMessage :
      (ExportView.mismatchFinding c).diagnostic.message =
        (Breach.propertyTypes c.name
          c.type.decl.qualifiedName).message := by
    change (ExportView.mismatchFinding c).breach.message = _
    rw [hBreach]
  unfold Diagnostic.isMismatchAt
  rw [Bool.and_eq_true, decide_eq_true_eq, hRule, hMessage,
    and_iff_right rfl]
  constructor
  · rintro ⟨hText, hPlace⟩
    have hId := hWithin.mp hPlace
    rw [hOwn.eq_of_id_eq hType hId] at hText
    exact ⟨hId, Breach.message_propertyTypes_inj.mp hText⟩
  · rintro ⟨hId, hName⟩
    rw [hOwn.eq_of_id_eq hType hId, hName]
    exact ⟨rfl, hWithin.mpr hId⟩

end Program.Sound

------------------------------------------------------------
-- Reports Of The Rules
------------------------------------------------------------

/- Findings under another rule report no mismatch. -/
theorem Finding.filter_isMismatchAt_eq_nil
    {findings : List Finding}
    (hRules :
      ∀ f ∈ findings, f.breach.rule ≠ .propertyConsistency)
    (t : TypeNode)
    (name : String) :
    findings.filter
      (fun f => f.diagnostic.isMismatchAt t name) = [] := by
  apply List.filter_eq_nil_iff.mpr
  intro f hf hAt
  unfold Diagnostic.isMismatchAt at hAt
  rw [Bool.and_eq_true, decide_eq_true_eq] at hAt
  exact hRules f hf hAt.1.1

/- Rules on names come before others on one line. -/
theorem ExportView.rank_lt_of_mem_namingFindings
    {v : ExportView}
    {naming : List Finding}
    (hNaming : v.namingFindings = .ok naming)
    {f : Finding}
    (hMem : f ∈ naming) :
    f.breach.rule.rank < 2 := by
  rcases namingFindings_eq_ok_iff.mp hNaming with
    ⟨constructors, hConstructors, rfl⟩
  simp only [List.mem_append] at hMem
  rcases hMem with
    ((hClash | hGlobal) | hConstructor) | hRename
  · rw [(length_subjects_of_mem_nameClashes hClash).1]
    decide
  · rw [rule_of_mem_globalNames hGlobal]
    decide
  · rcases subjects_of_mem_constructors hConstructors
        hConstructor with
      ⟨hRule, _⟩ | hRule
    · rw [hRule]
      decide
    · rw [hRule]
      decide
  · rw [rule_of_mem_renames hRename]
    decide

namespace ExportView.Shows

variable {v : ExportView}
variable {p : Program}
variable (hShows : v.Shows p)
variable (hSound : p.Sound)

include hShows hSound

/- An issue is one of members and types of the program. -/
theorem hasMember_of_mismatch_mem
    {c : Clash}
    (hIssue : .mismatch c ∈ v.propertyIssues) :
    p.HasType c.type ∧ p.HasMember c.first.member ∧
      p.HasMember c.second.member := by
  rcases List.mem_flatMap.mp hIssue with ⟨s, hSurface, hHere⟩
  rcases List.mem_flatMap.mp hHere with ⟨g, hGroup, hIn⟩
  rcases mismatch_mem_groupIssues_iff.mp hIn with
    ⟨hEq, _, hGetter, hSetter, _⟩
  have hMember :
      ∀ access slot,
        (v.accessors access g.2).head? = some slot →
          p.HasMember slot.member := by
    intro access slot hHead
    rcases mem_accessors_iff.mp
        (List.mem_of_mem_head? hHead) with
      ⟨e, he, _, rfl⟩
    have hNamed := ((Surface.mem_of_mem_groups hGroup).mp he).1
    exact (hShows.hasMember_slot hSound hSurface
      (Surface.mem_named_iff.mp hNamed).1).1
  rcases hShows.exists_ofMembers_eq hSurface with
    ⟨_, _, hType, _⟩
  rw [hEq]
  exact ⟨hType, hMember _ _ hGetter, hMember _ _ hSetter⟩

/- The reports of a type and a name are those of one key. -/
theorem filter_properties_isMismatchAt
    {t : TypeNode}
    (hType : p.HasType t)
    (name : String) :
    v.properties.filter
        (fun f => f.diagnostic.isMismatchAt t name) =
      ((Listing.firstBy PropertyIssue.key
        v.propertyIssues).filter (fun issue =>
          decide (issue.key = .inr (t.id, name)))).map
            v.issueFinding := by
  unfold properties
  rw [List.filter_map]
  apply congrArg (List.map v.issueFinding)
  apply List.filter_congr
  intro issue hFirst
  have hIssue := (Listing.firstBy_sublist _ _).subset hFirst
  rw [Function.comp, Bool.eq_iff_iff, decide_eq_true_eq]
  cases issue with
  | clash c =>
      constructor
      · intro hAt
        unfold Diagnostic.isMismatchAt at hAt
        rw [Bool.and_eq_true, decide_eq_true_eq] at hAt
        cases hAt.1.1
      · intro hKey
        cases hKey
  | mismatch c =>
      rcases hShows.hasMember_of_mismatch_mem hSound hIssue
        with ⟨hOwn, hGetter, hSetter⟩
      exact (hSound.isMismatchAt_mismatchFinding_iff hType
        hOwn hGetter hSetter).trans (by
          simp [PropertyIssue.key])

end ExportView.Shows

/-
  That some findings on properties and no others report of a
  type that a property has two types, and that the outcome of
  a check reports them and no others.
-/
structure Outcome.ReportsMismatch
    (outcome : Outcome)
    (property : List Finding)
    (t : TypeNode)
    (name : String)
    (found : List Finding) : Prop where
  found_eq :
    property.filter
      (fun f => f.diagnostic.isMismatchAt t name) = found
  entries_eq :
    outcome.log.entries.filter
        (Diagnostic.isMismatchAt t name) =
      found.map Finding.diagnostic

namespace Program.Finds

variable {p : Program}
variable {advice : Advice}
variable {v : ExportView}
variable {naming property contract usability : List Finding}
variable
  (hFinds :
    p.Finds advice v naming property contract usability)
variable (t : TypeNode)
variable (name : String)

include hFinds

/- One rule on properties reports mismatches. -/
theorem filter_property_isMismatchAt :
    property.filter
        (fun f => f.diagnostic.isMismatchAt t name) =
      v.properties.filter
        (fun f => f.diagnostic.isMismatchAt t name) := by
  rcases ExportView.propertyFindings_eq_ok_iff.mp
      hFinds.property_eq with
    ⟨superAccessors, hSuper, rfl⟩
  have hShapes := Finding.filter_isMismatchAt_eq_nil
    (fun f (hf : f ∈ v.accessorShapes) => by
      rw [ExportView.rule_of_mem_accessorShapes hf]
      exact Rule.noConfusion) t name
  have hCalls := Finding.filter_isMismatchAt_eq_nil
    (fun f (hf : f ∈ superAccessors) => by
      rw [ExportView.rule_of_mem_superAccessors hSuper hf]
      exact Rule.noConfusion) t name
  rw [List.filter_append, List.filter_append, hShapes,
    hCalls, List.nil_append, List.append_nil]

/- No rule on anything else does. -/
theorem filter_entries_isMismatchAt :
    ((Log.ofFamilies naming property contract
        usability).entries.filter
          (Diagnostic.isMismatchAt t name)).Perm
      ((property.filter (fun f =>
        f.diagnostic.isMismatchAt t name)).map
            Finding.diagnostic) := by
  have hNaming := Finding.filter_isMismatchAt_eq_nil
    (fun f (hf : f ∈ naming) hRule => by
      have hRank := ExportView.rank_lt_of_mem_namingFindings
        hFinds.naming_eq hf
      rw [hRule] at hRank
      exact absurd hRank (by decide)) t name
  have hContract := Finding.filter_isMismatchAt_eq_nil
    (fun f (hf : f ∈ contract) => by
      rw [rule_of_mem_contractFindings hFinds.contract_eq hf]
      exact Rule.noConfusion) t name
  have hUsability := Finding.filter_isMismatchAt_eq_nil
    (fun f (hf : f ∈ usability) => by
      rw [ExportView.rule_of_mem_usability
        hFinds.usability_eq hf]
      exact Rule.noConfusion) t name
  have hAll := Log.filter_entries_ofFamilies naming property
    contract usability (Diagnostic.isMismatchAt t name)
  rw [hNaming, hContract, hUsability, List.nil_append,
    List.append_nil, List.append_nil] at hAll
  exact hAll

/- At most one finding is one report. -/
theorem reportsMismatch_of_filter_eq
    {found : List Finding}
    (hFound :
      property.filter
        (fun f => f.diagnostic.isMismatchAt t name) = found)
    (hOne : found.length ≤ 1)
    {outcome : Outcome}
    (hLog :
      outcome.log =
        .ofFamilies naming property contract usability) :
    outcome.ReportsMismatch property t name found := by
  refine ⟨hFound, ?_⟩
  have hPerm := hFinds.filter_entries_isMismatchAt t name
  rw [hFound] at hPerm
  rw [hLog]
  apply Listing.eq_of_perm_of_length_le_one hPerm
  rw [List.length_map]
  exact hOne

variable {t : TypeNode}
variable {name : String}
variable (hSound : p.Sound)
variable {s : Surface}
variable (hSurface : s ∈ v.surfaces)

include hSound hSurface

/- What is reported of a type are the issues of its key. -/
theorem filter_property_eq_map
    (name : String) :
    property.filter
        (fun f => f.diagnostic.isMismatchAt s.type name) =
      ((Listing.firstBy PropertyIssue.key
        v.propertyIssues).filter (fun issue => decide
          (issue.key = .inr (s.type.id, name)))).map
            v.issueFinding := by
  rcases hFinds.shows.exists_ofMembers_eq hSurface with
    ⟨_, _, hType, _⟩
  rw [hFinds.filter_property_isMismatchAt,
    hFinds.shows.filter_properties_isMismatchAt hSound hType]

/- A reader and a writer that disagree are reported once. -/
theorem exists_reportsMismatch
    {reader writer : Slot}
    (hReads : s.accessedBy .getter name = [reader])
    (hWrites : s.accessedBy .setter name = [writer])
    {outcome : Outcome}
    (hLog :
      outcome.log =
        .ofFamilies naming property contract usability)
    (hDiffer :
      reader.member.decl.Mismatches writer.member.decl) :
    ∃ f, f.IsMismatch s.type name reader.member
        writer.member ∧
      outcome.ReportsMismatch property s.type name [f] := by
  have hFound := hFinds.filter_property_eq_map hSound
    hSurface name
  rw [hFinds.shows.filter_key_of_mismatches hSurface hReads
    hWrites hDiffer] at hFound
  exact ⟨_, ExportView.isMismatch_mismatchFinding
    ⟨s.type, name, reader, writer⟩,
    hFinds.reportsMismatch_of_filter_eq s.type name hFound
      (Nat.le_refl 1) hLog⟩

/- Nothing is reported where nothing disagrees. -/
theorem reportsMismatch_nil
    (hAgree :
      ∀ getter setter,
        (v.accessors .getter (s.group name)).head? =
            some getter →
        (v.accessors .setter (s.group name)).head? =
            some setter →
          ¬ ExportView.typesDiffer getter setter)
    {outcome : Outcome}
    (hLog :
      outcome.log =
        .ofFamilies naming property contract usability) :
    outcome.ReportsMismatch property s.type name [] := by
  have hFound := hFinds.filter_property_eq_map hSound
    hSurface name
  rw [hFinds.shows.filter_key_eq_nil hSurface hAgree] at hFound
  exact hFinds.reportsMismatch_of_filter_eq s.type name hFound
    (Nat.zero_le 1) hLog

end Program.Finds

------------------------------------------------------------
-- Reports Of A Check
------------------------------------------------------------

/-
  Take a built program, and the slots that read and that
  write under one name in the surface of a type.  Where one
  reads and one writes, one report says of the type and the
  name that the two disagree if the writer takes a first
  parameter of another type than the reader yields, and none
  does if they agree.  Without reader or without writer there
  is no such report.

  When two members are exported themselves to read and to
  write under a name, and disagree, there is one such report
  of every type where they stand for slots and nothing else
  reads or writes under the name: of the type where they
  first meet and of each type below where they still do.  It
  is placed at the writer if the type declares the writer,
  else at the reader if the type declares the reader, and
  else at the type.
-/
theorem property_mismatch_reported_per_type
    {draft : Draft}
    {p : Program}
    (hBuild : draft.build = .ok p)
    (settings : Settings) :
    ∃ v property outcome,
      p.exportView = .ok v ∧
      v.propertyFindings = .ok property ∧
      p.check settings = .ok outcome ∧
      ∀ t, p.HasType t → ∃ s,
        v.surface t.id = .ok s ∧ s.type = t ∧
        ∀ name,
          (∀ reader writer,
            s.accessedBy .getter name = [reader] →
            s.accessedBy .setter name = [writer] →
              (reader.member.decl.Mismatches
                  writer.member.decl →
                ∃ f, f.IsMismatch t name reader.member
                    writer.member ∧
                  outcome.ReportsMismatch property t name
                    [f]) ∧
              (¬ reader.member.decl.Mismatches
                  writer.member.decl →
                outcome.ReportsMismatch property t name
                  [])) ∧
          (s.accessedBy .getter name = [] ∨
              s.accessedBy .setter name = [] →
            outcome.ReportsMismatch property t name []) ∧
          (∀ getter setter,
            v.Accesses getter .getter name →
            v.Accesses setter .setter name →
            getter.decl.Mismatches setter.decl →
            s.AccessedAlone name getter setter →
              ∃ f, f.IsMismatch t name getter setter ∧
                outcome.ReportsMismatch property t name
                  [f]) := by
  have hSound := Program.sound_of_build hBuild
  rcases hSound.check_succeeds settings with
    ⟨outcome, hCheck⟩
  rcases Program.check_eq_ok_iff.mp hCheck with
    ⟨v, naming, property, contract, usability, hFinds, rfl⟩
  have hShows := hFinds.shows
  refine ⟨v, property, _,
    Program.exportView_eq_ok_iff.mpr hShows,
    hFinds.property_eq, hCheck, ?_⟩
  intro t hType
  rcases hShows.exists_surface_of_hasType hSound hType with
    ⟨s, hSurface, hFound, hSame⟩
  refine ⟨s, hFound, hSame, ?_⟩
  subst hSame
  intro name
  refine ⟨?_, ?_, ?_⟩
  · intro reader writer hReads hWrites
    refine ⟨hFinds.exists_reportsMismatch hSound hSurface
      hReads hWrites rfl, ?_⟩
    intro hAgree
    apply hFinds.reportsMismatch_nil hSound hSurface _ rfl
    intro getter setter hGetter hSetter hDiffer
    rw [v.accessors_eq_of_accessedBy hReads
      (Nat.le_refl 1)] at hGetter
    rw [v.accessors_eq_of_accessedBy hWrites
      (Nat.le_refl 1)] at hSetter
    cases hGetter
    cases hSetter
    exact hAgree (ExportView.typesDiffer_iff.mp hDiffer)
  · intro hMissing
    apply hFinds.reportsMismatch_nil hSound hSurface _ rfl
    intro getter setter hGetter hSetter _
    rcases hMissing with hNone | hNone
    · rw [v.accessors_eq_of_accessedBy hNone
        (Nat.zero_le 1)] at hGetter
      cases hGetter
    · rw [v.accessors_eq_of_accessedBy hNone
        (Nat.zero_le 1)] at hSetter
      cases hSetter
  · intro getter setter hReads hWrites hDiffer hAlone
    rcases hShows.exists_accessedBy_eq_of_accessedAlone
        hSound hSurface hReads hWrites hAlone with
      ⟨x, y, rfl, rfl, hReader, hWriter⟩
    exact hFinds.exists_reportsMismatch hSound hSurface
      hReader hWriter rfl hDiffer

------------------------------------------------------------
-- A Sample Property
------------------------------------------------------------

/-
  A tank tells its level as a number and takes it as a text,
  and a barrel is a tank.
-/
def Draft.tank : Draft :=
  let reads : MemberShape :=
    .plain (.method (.prim .int)) [] .empty
  let writes : MemberShape :=
    .plain (.method .void) [.string] .empty
  ⟨[.plain "Tank" .classKind .none [0, 1],
    { TypeDecl.plain "Barrel" .classKind .none [] with
      superClass := some 0 }],
  [.plain "getLevel" 0 reads .jsProperty,
    .plain "setLevel" 0 writes .jsProperty]⟩

/- The accessors of the tank meet alone at tank and barrel. -/
theorem Draft.tank.accessedAlone
    {p : Program}
    {v : ExportView}
    {s u : Surface}
    {getter setter : MemberNode}
    (hBuild : tank.build = .ok p)
    (hView : p.exportView = .ok v)
    (hTank : v.surface 0 = .ok s)
    (hBarrel : v.surface 1 = .ok u)
    (hGetter : p.member 0 = .ok getter)
    (hSetter : p.member 1 = .ok setter) :
    (v.Accesses getter .getter "level" ∧
        v.Accesses setter .setter "level") ∧
      s.AccessedAlone "level" getter setter ∧
        u.AccessedAlone "level" getter setter := by
  have hShown :
      (tank.build.toOption.bind (fun p =>
        p.exportView.toOption.bind (fun v =>
          (v.surface 0).toOption.bind (fun s =>
            (v.surface 1).toOption.bind (fun u =>
              (p.member 0).toOption.bind (fun getter =>
                (p.member 1).toOption.map (fun setter =>
                  decide
                    ((v.Accesses getter .getter "level" ∧
                        v.Accesses setter .setter "level") ∧
                      s.AccessedAlone "level" getter setter ∧
                        u.AccessedAlone "level" getter
                          setter)))))))) =
        some true := by
    decide +kernel
  simpa only [hBuild, hView, hTank, hBarrel, hGetter,
    hSetter, Except.toOption, Option.bind_some,
    Option.map_some, Option.some.injEq,
    decide_eq_true_eq] using hShown

/- The level is reported of the tank and of the barrel. -/
theorem level_of_tank_reported_again :
    ∃ p v property outcome getter setter tank barrel,
      Draft.tank.build = .ok p ∧ p.exportView = .ok v ∧
      v.propertyFindings = .ok property ∧
      p.check Settings.standard = .ok outcome ∧
      (p.HasMember getter ∧ getter.id = 0) ∧
      (p.HasMember setter ∧ setter.id = 1) ∧
      (p.HasType tank ∧ tank.id = 0) ∧
      (p.HasType barrel ∧ barrel.id = 1) ∧
      v.Accesses getter .getter "level" ∧
      v.Accesses setter .setter "level" ∧
      getter.decl.Mismatches setter.decl ∧
      (∃ f, f.IsMismatch tank "level" getter setter ∧
        outcome.ReportsMismatch property tank "level" [f]) ∧
      ∃ f, f.IsMismatch barrel "level" getter setter ∧
        outcome.ReportsMismatch property barrel "level"
          [f] := by
  have hBuilt : ∃ p, Draft.tank.build = .ok p := ⟨_, rfl⟩
  rcases hBuilt with ⟨p, hBuild⟩
  have hSound := Program.sound_of_build hBuild
  rcases Draft.build_eq_ok_iff.mp hBuild with
    ⟨_, _, hTypes, hMembers⟩
  rcases property_mismatch_reported_per_type hBuild
      Settings.standard with
    ⟨v, property, outcome, hView, hProperty, hCheck, hEach⟩
  rcases hSound.exists_hasMember 0
      (by rw [hMembers]; decide) with
    ⟨getter, hFirst, hFirstId, hGetter⟩
  rcases hSound.exists_hasMember 1
      (by rw [hMembers]; decide) with
    ⟨setter, hSecond, hSecondId, hSetter⟩
  have hTank : p.HasType ⟨0, Draft.tank.types[0]⟩ := by
    unfold Program.HasType
    rw [hTypes]
    rfl
  have hBarrel : p.HasType ⟨1, Draft.tank.types[1]⟩ := by
    unfold Program.HasType
    rw [hTypes]
    rfl
  have hDiffer : getter.decl.Mismatches setter.decl := by
    have hReads := hGetter.1
    have hWrites := hSetter.1
    rw [hFirstId, hMembers] at hReads
    rw [hSecondId, hMembers] at hWrites
    rw [← Option.some.inj hReads, ← Option.some.inj hWrites]
    exact ⟨_, _, _, _, rfl, rfl, rfl, by decide⟩
  rcases hEach _ hTank with ⟨s, hSurface, _, hLow⟩
  rcases hEach _ hBarrel with ⟨u, hOther, _, hHigh⟩
  rcases Draft.tank.accessedAlone hBuild hView hSurface
      hOther hFirst hSecond with
    ⟨⟨hReads, hWrites⟩, hAlone, hAgain⟩
  exact ⟨p, v, property, outcome, getter, setter, _, _,
    hBuild, hView, hProperty, hCheck, ⟨hGetter, hFirstId⟩,
    ⟨hSetter, hSecondId⟩, ⟨hTank, rfl⟩, ⟨hBarrel, rfl⟩,
    hReads, hWrites, hDiffer,
    (hLow "level").2.2 getter setter hReads hWrites hDiffer
      hAlone,
    (hHigh "level").2.2 getter setter hReads hWrites hDiffer
      hAgain⟩

end JsExport
