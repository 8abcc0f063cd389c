import JsExport.Proofs.Rules.NameClash
import JsExport.Proofs.Rules.Property

/-
  Which accessors of one property are reported to clash.

  Two accessors are alike when both read one property or
  both write it.  Each two members that are alike at some
  type are reported once by the rules on properties; whether
  they are native is not asked there.

  Main declarations:
    * `Surface.LikeAccessors` and `Surface.LikeAccessorsOn`
    * `ExportView.LikeAccessorsAt`
    * `ExportView.filter_properties`
    * `ExportView.Shows.exists_issue_iff`
-/

namespace JsExport

------------------------------------------------------------
-- Like Accessors
------------------------------------------------------------

namespace Surface

/- That two slots of one name both read or both write. -/
structure LikeAccessors
    (s : Surface)
    (x y : Slot × JsIdentity) : Prop where
  first_mem : x ∈ s.named
  second_mem : y ∈ s.named
  name_eq : x.2.name = y.2.name
  access :
    ∃ access, access ≠ .invalid ∧
      x.2.role = .property access ∧
        y.2.role = .property access

/- That slots of two members are like accessors. -/
def LikeAccessorsOn
    (s : Surface)
    (a b : MemberId) : Prop :=
  ∃ x y, s.LikeAccessors x y ∧
    x.1.member.id = a ∧ y.1.member.id = b

variable {s : Surface}

theorem LikeAccessors.symm
    {x y : Slot × JsIdentity}
    (hLike : s.LikeAccessors x y) :
    s.LikeAccessors y x := by
  rcases hLike.access with ⟨access, hValid, hx, hy⟩
  exact ⟨hLike.second_mem, hLike.first_mem,
    hLike.name_eq.symm, access, hValid, hy, hx⟩

theorem LikeAccessorsOn.symm
    {a b : MemberId}
    (hLike : s.LikeAccessorsOn a b) :
    s.LikeAccessorsOn b a := by
  rcases hLike with ⟨x, y, hBoth, hx, hy⟩
  exact ⟨y, x, hBoth.symm, hy, hx⟩

theorem LikeAccessors.isProperty
    {x y : Slot × JsIdentity}
    (hLike : s.LikeAccessors x y) :
    x.2.role.isProperty ∧ y.2.role.isProperty := by
  rcases hLike.access with ⟨access, _, hx, hy⟩
  rw [hx, hy]
  exact ⟨rfl, rfl⟩

end Surface

/- That two members are like accessors at a type. -/
def ExportView.LikeAccessorsAt
    (v : ExportView)
    (t : TypeId)
    (a b : MemberId) : Prop :=
  ∃ s, v.surface t = .ok s ∧ s.LikeAccessorsOn a b

------------------------------------------------------------
-- Issues Of Like Accessors
------------------------------------------------------------

namespace ExportView

variable {v : ExportView}
variable {a b : MemberId}

section Groups

variable {t : TypeNode}
variable {name : String}
variable {group : List (Slot × JsIdentity)}

/- The clashes of one name are pairs of like accessors. -/
theorem clash_mem_groupIssues_iff
    {c : Clash} :
    .clash c ∈ v.groupIssues t name group ↔
      ∃ access, access ≠ .invalid ∧
        ∃ x y, c = ⟨t, name, x, y⟩ ∧
          (x, y) ∈ Listing.pairs
            (v.accessors access group) := by
  have hPairs :
      .clash c ∈
          (Listing.pairs (v.accessors .getter group) ++
            Listing.pairs (v.accessors .setter group)).map
              (fun e => PropertyIssue.clash
                ⟨t, name, e.1, e.2⟩) ↔
        ∃ access, access ≠ .invalid ∧
          ∃ x y, c = ⟨t, name, x, y⟩ ∧
            (x, y) ∈ Listing.pairs
              (v.accessors access group) := by
    rw [List.mem_map]
    constructor
    · rintro ⟨⟨x, y⟩, he, hEq⟩
      cases hEq
      rcases List.mem_append.mp he with hReads | hWrites
      · exact ⟨.getter, Accessor.noConfusion, x, y, rfl,
          hReads⟩
      · exact ⟨.setter, Accessor.noConfusion, x, y, rfl,
          hWrites⟩
    · rintro ⟨access, hValid, x, y, rfl, hPair⟩
      refine ⟨(x, y), List.mem_append.mpr ?_, rfl⟩
      cases access with
      | getter => exact Or.inl hPair
      | setter => exact Or.inr hPair
      | invalid => exact absurd rfl hValid
  rw [← hPairs]
  dsimp only [groupIssues]
  split
  · split
    · simp
    · rfl
  · rfl

/- Each two like accessors of a name clash. -/
theorem exists_clash_of_mem_accessors
    {access : Accessor}
    (hValid : access ≠ .invalid)
    {x y : Slot}
    (hx : x ∈ v.accessors access group)
    (hy : y ∈ v.accessors access group)
    (hNe : x ≠ y) :
    ∃ c, .clash c ∈ v.groupIssues t name group ∧
      c.key = (min x.member.id y.member.id,
        max x.member.id y.member.id) := by
  rcases Listing.mem_pairs_or_mem_pairs hx hy hNe with
    hPair | hPair
  · exact ⟨_, clash_mem_groupIssues_iff.mpr
      ⟨access, hValid, x, y, rfl, hPair⟩, rfl⟩
  · exact ⟨_, clash_mem_groupIssues_iff.mpr
      ⟨access, hValid, y, x, rfl, hPair⟩,
      Clash.key_eq_iff.mpr (Or.inr ⟨rfl, rfl⟩)⟩

end Groups

/- The issue of a pair is filed under its two members. -/
theorem PropertyIssue.key_eq_inl_iff
    {issue : PropertyIssue}
    {key : MemberId × MemberId} :
    issue.key = .inl key ↔
      ∃ c, issue = .clash c ∧ c.key = key := by
  cases issue with
  | clash c => simp [PropertyIssue.key]
  | mismatch c => simp [PropertyIssue.key]

/- Accessors of one group are like accessors. -/
theorem likeAccessorsOn_of_mem_accessors
    {s : Surface}
    {g : String × List (Slot × JsIdentity)}
    (hGroup : g ∈ s.groups)
    {access : Accessor}
    (hValid : access ≠ .invalid)
    {x y : Slot}
    (hx : x ∈ v.accessors access g.2)
    (hy : y ∈ v.accessors access g.2) :
    s.LikeAccessorsOn x.member.id y.member.id := by
  rcases mem_accessors_iff.mp hx with ⟨d, hd, hFirst, rfl⟩
  rcases mem_accessors_iff.mp hy with ⟨e, he, hSecond, rfl⟩
  rcases (Surface.mem_of_mem_groups hGroup).mp hd with
    ⟨hdNamed, hdName⟩
  rcases (Surface.mem_of_mem_groups hGroup).mp he with
    ⟨heNamed, heName⟩
  exact ⟨d, e, ⟨hdNamed, heNamed, hdName.trans heName.symm,
    access, hValid, hFirst, hSecond⟩, rfl, rfl⟩

/- A surface has an issue of each two like accessors. -/
theorem exists_clash_mem_groupIssues_iff
    {s : Surface}
    (hNe : a ≠ b) :
    (∃ g ∈ s.groups, ∃ c,
      .clash c ∈ v.groupIssues s.type g.1 g.2 ∧
        c.key = (min a b, max a b)) ↔
      s.LikeAccessorsOn a b := by
  constructor
  · rintro ⟨g, hGroup, c, hClash, hKey⟩
    rcases clash_mem_groupIssues_iff.mp hClash with
      ⟨access, hValid, x, y, rfl, hPair⟩
    rcases Listing.mem_of_mem_pairs hPair with ⟨hx, hy⟩
    have hHere := likeAccessorsOn_of_mem_accessors hGroup
      hValid hx hy
    rcases Clash.key_eq_iff.mp hKey with
      ⟨ha, hb⟩ | ⟨hb, ha⟩
    · rw [← ha, ← hb]
      exact hHere
    · rw [← ha, ← hb]
      exact hHere.symm
  · rintro ⟨x, y, hLike, rfl, rfl⟩
    rcases hLike.access with ⟨access, hValid, hFirst, hSecond⟩
    have hGroup :
        (x.2.name, s.named.filter
          (fun e => decide (e.2.name = x.2.name))) ∈
            s.groups :=
      Surface.mem_groups_iff.mpr
        ⟨⟨x, hLike.first_mem, rfl⟩, rfl⟩
    have hx := (Surface.mem_of_mem_groups hGroup).mpr
      ⟨hLike.first_mem, rfl⟩
    have hy := (Surface.mem_of_mem_groups hGroup).mpr
      ⟨hLike.second_mem, hLike.name_eq.symm⟩
    exact ⟨_, hGroup, exists_clash_of_mem_accessors hValid
      (mem_accessors_iff.mpr ⟨x, hx, hFirst, rfl⟩)
      (mem_accessors_iff.mpr ⟨y, hy, hSecond, rfl⟩)
      (fun hSame => hNe (by rw [hSame]))⟩

------------------------------------------------------------
-- Reports
------------------------------------------------------------

/- The report of an issue is on a clash when it is one. -/
theorem isClashOf_issueFinding
    (v : ExportView)
    (issue : PropertyIssue)
    (a b : MemberId) :
    (v.issueFinding issue).isClashOf a b =
      decide (issue.key = .inl (min a b, max a b)) := by
  cases issue with
  | clash c =>
      have hEq := c.isClashOf_finding_eq v a b
      unfold issueFinding PropertyIssue.key
      rw [hEq, decide_eq_decide, Sum.inl.injEq]
  | mismatch c =>
      unfold issueFinding Finding.isClashOf
      rw [breach_mismatchFinding]
      rfl

/- The report on two members is that of the first issue. -/
theorem filter_properties
    (v : ExportView)
    (a b : MemberId) :
    v.properties.filter (Finding.isClashOf a b) =
      ((v.propertyIssues.find? (fun issue => decide
        (issue.key = .inl (min a b, max a b)))).map
          v.issueFinding).toList := by
  unfold properties
  rw [List.filter_map]
  have hEach :
      ∀ issue ∈ Listing.firstBy PropertyIssue.key
          v.propertyIssues,
        (Finding.isClashOf a b ∘ v.issueFinding) issue =
          decide (issue.key = .inl (min a b, max a b)) :=
    fun issue _ => v.isClashOf_issueFinding issue a b
  rw [List.filter_congr hEach, Listing.filter_firstBy,
    Option.toList_map]

/- The properties have an issue of each two like accessors. -/
theorem Shows.exists_issue_iff
    {p : Program}
    (hShows : v.Shows p)
    (hNe : a ≠ b) :
    (∃ issue ∈ v.propertyIssues,
      issue.key = .inl (min a b, max a b)) ↔
        ∃ t, v.LikeAccessorsAt t a b := by
  constructor
  · rintro ⟨issue, hIssue, hKey⟩
    rcases List.mem_flatMap.mp hIssue with ⟨s, hs, hHere⟩
    rcases List.mem_flatMap.mp hHere with ⟨g, hg, hLast⟩
    rcases PropertyIssue.key_eq_inl_iff.mp hKey with
      ⟨c, rfl, hSame⟩
    exact ⟨s.type.id, s, hShows.surface_type_id hs,
      (exists_clash_mem_groupIssues_iff hNe).mp
        ⟨g, hg, c, hLast, hSame⟩⟩
  · rintro ⟨t, s, hSurface, hLike⟩
    have hs := hShows.mem_surfaces_of_surface_eq_ok hSurface
    rcases (exists_clash_mem_groupIssues_iff hNe).mpr
        hLike with
      ⟨g, hg, c, hClash, hKey⟩
    exact ⟨.clash c, List.mem_flatMap.mpr ⟨s, hs,
      List.mem_flatMap.mpr ⟨g, hg, hClash⟩⟩,
      PropertyIssue.key_eq_inl_iff.mpr ⟨c, rfl, hKey⟩⟩

end ExportView

end JsExport
