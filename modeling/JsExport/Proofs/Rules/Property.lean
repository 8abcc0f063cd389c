import JsExport.Proofs.Export.Surface
import JsExport.Rules.Property

/-
  Which properties have issues.

  The slots of one name have no issue when at most one of
  them reads, at most one writes, and the two agree on the
  type.

  Main declarations:
    * `ExportView.groupIssues_eq_nil_iff`
    * `ExportView.mem_groupIssues_cases`
    * `ExportView.result_eq_of_typesDiffer_eq_false`
    * `ExportView.groupIssues_eq_nil_of_properties_eq_nil`
-/

namespace JsExport

namespace ExportView

variable {v : ExportView}
variable {t : TypeNode}
variable {name : String}
variable {group : List (Slot × JsIdentity)}

------------------------------------------------------------
-- Accessors
------------------------------------------------------------

/- Sorting keeps the slots with the access asked for. -/
theorem accessors_perm
    (access : Accessor) :
    (v.accessors access group).Perm
      ((group.filter (fun e =>
        decide (e.2.role = .property access))).map
          (fun e => e.1)) :=
  Listing.sorted_perm _ _

theorem mem_accessors_iff
    {access : Accessor}
    {slot : Slot} :
    slot ∈ v.accessors access group ↔
      ∃ e ∈ group, e.2.role = .property access ∧
        e.1 = slot := by
  rw [(accessors_perm access).mem_iff, List.mem_map]
  constructor
  · rintro ⟨e, he, rfl⟩
    rcases List.mem_filter.mp he with ⟨hIn, hRole⟩
    exact ⟨e, hIn, of_decide_eq_true hRole, rfl⟩
  · rintro ⟨e, hIn, hRole, rfl⟩
    exact ⟨e, List.mem_filter.mpr
      ⟨hIn, decide_eq_true hRole⟩, rfl⟩

/- Two slots that access a property in one way are two. -/
theorem two_le_length_accessors
    {access : Accessor}
    {x y : Slot × JsIdentity}
    (hPair : (x, y) ∈ Listing.pairs group)
    (hx : x.2.role = .property access)
    (hy : y.2.role = .property access) :
    2 ≤ (v.accessors access group).length := by
  have hKept := (Listing.sublist_of_mem_pairs hPair).filter
    (fun e => decide (e.2.role = .property access))
  simp only [List.filter_cons, hx, hy, decide_true, if_true,
    List.filter_nil] at hKept
  have hLength := hKept.length_le
  rw [(accessors_perm access).length_eq, List.length_map]
  exact hLength

------------------------------------------------------------
-- Issues
------------------------------------------------------------

/- A property without issues has one reader and one writer. -/
theorem groupIssues_eq_nil_iff :
    v.groupIssues t name group = [] ↔
      (v.accessors .getter group).length ≤ 1 ∧
      (v.accessors .setter group).length ≤ 1 ∧
      ∀ getter setter,
        (v.accessors .getter group).head? = some getter →
        (v.accessors .setter group).head? = some setter →
          typesDiffer getter setter = false := by
  have hClashes :
      (Listing.pairs (v.accessors .getter group) ++
        Listing.pairs (v.accessors .setter group)).map
          (fun e => PropertyIssue.clash
            ⟨t, name, e.1, e.2⟩) = [] ↔
        (v.accessors .getter group).length ≤ 1 ∧
          (v.accessors .setter group).length ≤ 1 := by
    rw [List.map_eq_nil_iff, List.append_eq_nil_iff,
      Listing.pairs_eq_nil_iff, Listing.pairs_eq_nil_iff]
  rw [← and_assoc, ← hClashes]
  dsimp only [groupIssues]
  generalize (Listing.pairs (v.accessors .getter group) ++
    Listing.pairs (v.accessors .setter group)).map
      (fun e => PropertyIssue.clash ⟨t, name, e.1, e.2⟩) =
        clashes
  cases (v.accessors .getter group).head? with
  | none => simp
  | some getter =>
      cases (v.accessors .setter group).head? with
      | none => simp
      | some setter =>
          cases hDiffer : typesDiffer getter setter with
          | false => simp [hDiffer]
          | true => simp [hDiffer]

/-
  An issue is about a pair of like accessors, or about the
  first reader and the first writer.
-/
theorem mem_groupIssues_cases
    {issue : PropertyIssue}
    (hIssue : issue ∈ v.groupIssues t name group) :
    (∃ access a b,
      (a, b) ∈ Listing.pairs (v.accessors access group) ∧
        issue = .clash ⟨t, name, a, b⟩) ∨
      ∃ getter setter,
        (v.accessors .getter group).head? = some getter ∧
        (v.accessors .setter group).head? = some setter ∧
        issue = .mismatch ⟨t, name, getter, setter⟩ := by
  have hClash :
      issue ∈
          (Listing.pairs (v.accessors .getter group) ++
            Listing.pairs (v.accessors .setter group)).map
              (fun e => PropertyIssue.clash
                ⟨t, name, e.1, e.2⟩) →
        ∃ access a b,
          (a, b) ∈ Listing.pairs (v.accessors access group) ∧
            issue = .clash ⟨t, name, a, b⟩ := by
    intro hPair
    rcases List.mem_map.mp hPair with ⟨⟨a, b⟩, he, rfl⟩
    rcases List.mem_append.mp he with hReads | hWrites
    · exact ⟨.getter, a, b, hReads, rfl⟩
    · exact ⟨.setter, a, b, hWrites, rfl⟩
  dsimp only [groupIssues] at hIssue
  split at hIssue
  · rename_i getter setter hGetter hSetter
    split at hIssue
    · rcases List.mem_append.mp hIssue with hIn | hLast
      · exact Or.inl (hClash hIn)
      · exact Or.inr ⟨getter, setter, hGetter, hSetter,
          List.mem_singleton.mp hLast⟩
    · exact Or.inl (hClash hIssue)
  · exact Or.inl (hClash hIssue)

/- A clash of a property is one of two like accessors. -/
theorem mem_of_clash_mem_groupIssues
    {c : Clash}
    (hClash : .clash c ∈ v.groupIssues t name group) :
    c.type = t ∧ ∃ access,
      c.first ∈ v.accessors access group ∧
        c.second ∈ v.accessors access group := by
  rcases mem_groupIssues_cases hClash with
    ⟨access, a, b, hPair, hEq⟩ | ⟨_, _, _, _, hEq⟩
  · cases hEq
    exact ⟨rfl, access, Listing.mem_of_mem_pairs hPair⟩
  · cases hEq

/- Types agree where a writer takes what the reader yields. -/
theorem result_eq_of_typesDiffer_eq_false
    {getter setter : Slot}
    {c d : Callable}
    {param : Param}
    (hGetter : getter.member.decl.callable? = some c)
    (hSetter : setter.member.decl.callable? = some d)
    (hParams : d.params = [param])
    (hAgree : typesDiffer getter setter = false) :
    c.result = param.type := by
  unfold typesDiffer at hAgree
  rw [hGetter, hSetter] at hAgree
  simpa [Callable.paramTypes, hParams] using hAgree

------------------------------------------------------------
-- Reports
------------------------------------------------------------

/- A mismatch says the same wherever it is placed. -/
theorem breach_mismatchFinding
    (c : Clash) :
    (mismatchFinding c).breach =
      .propertyTypes c.name c.type.decl.qualifiedName := by
  unfold mismatchFinding
  dsimp only
  split
  · rfl
  · split
    · rfl
    · rfl

theorem isError_of_mem_properties
    {f : Finding}
    (hMem : f ∈ v.properties) :
    f.diagnostic.isError := by
  rcases List.mem_map.mp hMem with ⟨issue, _, rfl⟩
  cases issue with
  | clash c => rfl
  | mismatch c =>
      unfold Diagnostic.isError Diagnostic.severity
      change ((mismatchFinding c).breach.rule.severity ==
        .error) = true
      rw [breach_mismatchFinding]
      rfl

/- Without reports no property has an issue. -/
theorem groupIssues_eq_nil_of_properties_eq_nil
    (hNone : v.properties = [])
    {s : Surface}
    (hSurface : s ∈ v.surfaces)
    {g : String × List (Slot × JsIdentity)}
    (hGroup : g ∈ s.groups) :
    v.groupIssues s.type g.1 g.2 = [] := by
  have hIssues : v.propertyIssues = [] :=
    Listing.eq_nil_of_firstBy_eq_nil PropertyIssue.key
      (List.map_eq_nil_iff.mp hNone)
  have hHere := List.flatMap_eq_nil_iff.mp hIssues s
    hSurface
  exact List.flatMap_eq_nil_iff.mp hHere g hGroup

end ExportView

end JsExport
