import JsExport.Proofs.Export.Table

/-
  What the table of identities says of each member.

  A member is given an identity by its tag, by its type, or
  by the first exported method that it overrides.  The
  finished table agrees with this reading of itself at every
  member.  No other table does, and the table comes out the
  same in any order that has supertypes first.

  Main declarations:
    * `ExportTable.IsFirstExported`
    * `ExportTable.Assigns` and `ExportTable.assigns_iff`
    * `ExportTable.IsFixedPoint`
    * `export_table_is_the_fixed_point`
-/

namespace JsExport

open Lookup

------------------------------------------------------------
-- How A Member Is Given An Identity
------------------------------------------------------------

namespace ExportTable

variable {table : ExportTable}
variable {above : List MemberNode}

/- Whether a member is a method that another one overrides. -/
def isOverriddenBy
    (m : MemberDecl)
    (n : MemberNode) : Bool :=
  n.decl.isOverridable && n.decl.sharesSignature m

/-
  That a member of the types above is exported and comes
  first among those that a method overrides.
-/
def IsFirstExported
    (table : ExportTable)
    (above : List MemberNode)
    (m : MemberDecl)
    (n : MemberNode) : Prop :=
  isOverriddenBy m n ∧ table.exports n.id ∧
    ∃ before after, above = before ++ n :: after ∧
      ∀ k ∈ before, isOverriddenBy m k →
        ¬ table.exports k.id

/-
  What identity a member has, if any, by a table and the
  members of the types above.
-/
inductive Assigns
    (table : ExportTable)
    (above : List MemberNode)
    (m : MemberNode) : Option JsIdentity → Prop
| overlay
    (hTag : m.decl.tag = .jsOverlay) :
    Assigns table above m none
| tagged
    (hTag : m.decl.tag.isExplicit) :
    Assigns table above m (some (.natural m.decl))
| byType
    (hTag : m.decl.tag = .untagged)
    (hKept : ¬ m.decl.isIgnored)
    (hType : m.decl.exportedBy m.owner.decl) :
    Assigns table above m (some (.natural m.decl))
| ignored
    (hTag : m.decl.tag = .untagged)
    (hIgnored : m.decl.isIgnored) :
    Assigns table above m none
| fixed
    (hTag : m.decl.tag = .untagged)
    (hType : ¬ m.decl.exportedBy m.owner.decl)
    (hFixed : ¬ m.decl.isOverridable) :
    Assigns table above m none
| inherited
    (hTag : m.decl.tag = .untagged)
    (hKept : ¬ m.decl.isIgnored)
    (hType : ¬ m.decl.exportedBy m.owner.decl)
    (hMay : m.decl.isOverridable)
    {n : MemberNode}
    (hFirst : IsFirstExported table above m.decl n)
    {identity : JsIdentity}
    (hIdentity : table.identity? n.id = some identity) :
    Assigns table above m (identity.passedTo? m.decl)
| unexported
    (hTag : m.decl.tag = .untagged)
    (hType : ¬ m.decl.exportedBy m.owner.decl)
    (hNone :
      ∀ n ∈ above, isOverriddenBy m.decl n →
        ¬ table.exports n.id) :
    Assigns table above m none

------------------------------------------------------------
-- The Rules And The Reading
------------------------------------------------------------

/- An exported member has an entry in the table. -/
theorem exports_iff
    {m : MemberId} :
    table.exports m = true ↔
      ∃ identity, table.identity? m = some identity :=
  Option.isSome_iff_exists

/- Without an exported method above nothing is inherited. -/
theorem inherited?_eq_none_of_unexported
    {m : MemberDecl}
    (hNone :
      ∀ n ∈ above, isOverriddenBy m n →
        ¬ table.exports n.id) :
    table.inherited? above m = none := by
  unfold inherited?
  have hFound :
      (above.filter (isOverriddenBy m)).findSome?
        (fun n => table.identity? n.id) = none := by
    rw [List.findSome?_eq_none_iff]
    intro n hn
    rcases List.mem_filter.mp hn with ⟨hMem, hOver⟩
    exact Option.not_isSome_iff_eq_none.mp
      (hNone n hMem hOver)
  exact congrArg
    (fun found : Option JsIdentity =>
      found.bind (fun identity => identity.passedTo? m))
    hFound

/- The first exported method above passes its identity on. -/
theorem inherited?_eq_of_isFirstExported
    {m : MemberDecl}
    {n : MemberNode}
    (hFirst : table.IsFirstExported above m n)
    {identity : JsIdentity}
    (hIdentity : table.identity? n.id = some identity) :
    table.inherited? above m = identity.passedTo? m := by
  rcases hFirst with
    ⟨hOver, _, before, after, rfl, hBefore⟩
  have hFound :
      ((before ++ n :: after).filter
        (isOverriddenBy m)).findSome?
          (fun n => table.identity? n.id) =
        some identity := by
    rw [List.filter_append, List.filter_cons_of_pos hOver,
      List.findSome?_append, List.findSome?_cons, hIdentity]
    have hNone :
        (before.filter (isOverriddenBy m)).findSome?
          (fun n => table.identity? n.id) = none := by
      rw [List.findSome?_eq_none_iff]
      intro k hk
      rcases List.mem_filter.mp hk with ⟨hMem, hKey⟩
      exact Option.not_isSome_iff_eq_none.mp
        (hBefore k hMem hKey)
    rw [hNone]
    rfl
  exact congrArg
    (fun found : Option JsIdentity =>
      found.bind (fun identity => identity.passedTo? m))
    hFound

/- Some method above is the first exported one, or none is. -/
theorem isFirstExported_or_unexported
    (table : ExportTable)
    (above : List MemberNode)
    (m : MemberDecl) :
    (∃ n, table.IsFirstExported above m n) ∨
      ∀ n ∈ above, isOverriddenBy m n →
        ¬ table.exports n.id := by
  cases hFind : above.find? (fun n =>
      isOverriddenBy m n && table.exports n.id) with
  | none =>
      right
      intro n hn hOver hExports
      have hNot := List.find?_eq_none.mp hFind n hn
      rw [hOver, hExports] at hNot
      exact hNot rfl
  | some n =>
      left
      rcases List.find?_eq_some_iff_append.mp hFind with
        ⟨hBoth, before, after, hSplit, hBefore⟩
      rcases Bool.and_eq_true_iff.mp hBoth with
        ⟨hOver, hExports⟩
      refine ⟨n, hOver, hExports, before, after, hSplit, ?_⟩
      intro k hk hKey hFound
      have hNot := hBefore k hk
      rw [hKey, hFound] at hNot
      cases hNot

/- A tag hides, exports, or leaves the choice to the type. -/
theorem tag_cases
    (tag : ExportTag) :
    tag = .jsOverlay ∨ tag.isExplicit ∨ tag = .untagged := by
  cases tag <;> simp [ExportTag.isExplicit]

/- Whether the type of a member without a tag exports it. -/
theorem isDirectlyExported_of_untagged
    {m : MemberDecl}
    (hTag : m.tag = .untagged)
    (owner : TypeDecl) :
    m.isDirectlyExported owner =
      (!m.isIgnored && m.exportedBy owner) := by
  unfold MemberDecl.isDirectlyExported
  rw [hTag]
  rfl

/- What is exported directly keeps its own identity. -/
theorem resolve?_of_isDirectlyExported
    {m : MemberNode}
    (hDirect : m.decl.isDirectlyExported m.owner.decl) :
    table.resolve? above m = some (.natural m.decl) := by
  unfold resolve?
  rw [if_pos hDirect]

theorem resolve?_of_not_isDirectlyExported
    {m : MemberNode}
    (hDirect : ¬ m.decl.isDirectlyExported m.owner.decl) :
    table.resolve? above m =
      if m.decl.mayInheritExport then
        table.inherited? above m.decl
      else
        none := by
  unfold resolve?
  rw [if_neg hDirect]

/- The reading of the rules gives what the rules give. -/
theorem eq_resolve?_of_assigns
    {m : MemberNode}
    {found : Option JsIdentity}
    (hAssigns : Assigns table above m found) :
    found = table.resolve? above m := by
  cases hAssigns with
  | overlay hTag =>
      have hDirect :
          ¬ m.decl.isDirectlyExported m.owner.decl := by
        simp [MemberDecl.isDirectlyExported, hTag]
      rw [resolve?_of_not_isDirectlyExported hDirect,
        if_neg (by simp [MemberDecl.mayInheritExport, hTag])]
  | tagged hTag =>
      symm
      apply resolve?_of_isDirectlyExported
      have hNot : m.decl.tag ≠ .jsOverlay := by
        intro hOverlay
        rw [hOverlay] at hTag
        cases hTag
      simp [MemberDecl.isDirectlyExported, hTag, hNot]
  | byType hTag hKept hType =>
      symm
      apply resolve?_of_isDirectlyExported
      rw [isDirectlyExported_of_untagged hTag, hType]
      simpa using hKept
  | ignored hTag hIgnored =>
      have hDirect :
          ¬ m.decl.isDirectlyExported m.owner.decl := by
        rw [isDirectlyExported_of_untagged hTag, hIgnored]
        simp
      rw [resolve?_of_not_isDirectlyExported hDirect,
        if_neg (by
          simp [MemberDecl.mayInheritExport, hIgnored])]
  | fixed hTag hType hFixed =>
      have hDirect :
          ¬ m.decl.isDirectlyExported m.owner.decl := by
        rw [isDirectlyExported_of_untagged hTag]
        simp [hType]
      rw [resolve?_of_not_isDirectlyExported hDirect,
        if_neg (by
          simp [MemberDecl.mayInheritExport, hFixed])]
  | inherited hTag hKept hType hMay hFirst hIdentity =>
      have hDirect :
          ¬ m.decl.isDirectlyExported m.owner.decl := by
        rw [isDirectlyExported_of_untagged hTag]
        simp [hType]
      rw [resolve?_of_not_isDirectlyExported hDirect,
        if_pos (by
          simp [MemberDecl.mayInheritExport, hTag, hKept,
            hMay]),
        inherited?_eq_of_isFirstExported hFirst hIdentity]
  | unexported hTag hType hNone =>
      have hDirect :
          ¬ m.decl.isDirectlyExported m.owner.decl := by
        rw [isDirectlyExported_of_untagged hTag]
        simp [hType]
      rw [resolve?_of_not_isDirectlyExported hDirect,
        inherited?_eq_none_of_unexported hNone, ite_self]

/- Every member is given an identity, or none. -/
theorem assigns_resolve?
    (table : ExportTable)
    (above : List MemberNode)
    (m : MemberNode) :
    Assigns table above m (table.resolve? above m) := by
  have hSome :
      ∃ found, Assigns table above m found := by
    rcases tag_cases m.decl.tag with hTag | hTag | hTag
    · exact ⟨_, .overlay hTag⟩
    · exact ⟨_, .tagged hTag⟩
    · by_cases hKept : m.decl.isIgnored
      · exact ⟨_, .ignored hTag hKept⟩
      by_cases hType : m.decl.exportedBy m.owner.decl
      · exact ⟨_, .byType hTag hKept hType⟩
      by_cases hMay : m.decl.isOverridable
      · rcases isFirstExported_or_unexported table above
            m.decl with
          ⟨n, hFirst⟩ | hNone
        · rcases exports_iff.mp hFirst.2.1 with
            ⟨identity, hIdentity⟩
          exact ⟨_, .inherited hTag hKept hType hMay hFirst
            hIdentity⟩
        · exact ⟨_, .unexported hTag hType hNone⟩
      · exact ⟨_, .fixed hTag hType hMay⟩
  rcases hSome with ⟨found, hFound⟩
  rw [← eq_resolve?_of_assigns hFound]
  exact hFound

theorem assigns_iff
    {m : MemberNode}
    {found : Option JsIdentity} :
    Assigns table above m found ↔
      found = table.resolve? above m := by
  constructor
  · exact eq_resolve?_of_assigns
  · intro hFound
    rw [hFound]
    exact assigns_resolve? table above m

------------------------------------------------------------
-- Fixed Points
------------------------------------------------------------

/-
  That a table has for every member of a program what the
  member is given by the table itself, read at the members
  of all that its owner inherits from, nearest first.
-/
def IsFixedPoint
    (p : Program)
    (table : ExportTable) : Prop :=
  ∀ m, p.HasMember m →
    ∃ ancestors,
      p.lineage m.owner.id = .ok (m.owner :: ancestors) ∧
        Assigns table (ancestors.flatMap p.declaredBy) m
          (table.identity? m.id)

end ExportTable

namespace Program.Sound

variable {p : Program}
variable (hSound : p.Sound)

include hSound

/- A table is a fixed point when it settles every member. -/
theorem isFixedPoint_iff
    {table : ExportTable} :
    table.IsFixedPoint p ↔ table.Resolves p := by
  constructor
  · intro hFixed m hMember lineage hLineage
    rcases hFixed m hMember with
      ⟨ancestors, hFound, hAssigns⟩
    have hSame : lineage = m.owner :: ancestors :=
      Except.ok.inj (hLineage.symm.trans hFound)
    rw [hSame]
    exact ExportTable.assigns_iff.mp hAssigns
  · intro hResolves m hMember
    rcases hSound.exists_lineage_eq_cons hMember.2.2 with
      ⟨ancestors, hLineage⟩
    exact ⟨ancestors, hLineage, ExportTable.assigns_iff.mpr
      (hResolves m hMember _ hLineage)⟩

/- The table of a program settles every member. -/
theorem isFixedPoint_exportTable
    {table : ExportTable}
    (hTable : p.exportTable = .ok table) :
    table.IsFixedPoint p :=
  hSound.isFixedPoint_iff.mpr
    (hSound.resolves_exportTable hTable)

/- A table is known by the entries of the members. -/
theorem table_eq_of_identity?_eq
    {table other : ExportTable}
    (hLength : table.length = p.members.length)
    (hLengthOther : other.length = p.members.length)
    (hEach :
      ∀ m, p.HasMember m →
        table.identity? m.id = other.identity? m.id) :
    table = other := by
  apply List.ext_getElem (hLength.trans hLengthOther.symm)
  intro id hLt hLtOther
  rcases hSound.member_succeeds (hLength ▸ hLt) with
    ⟨m, hFound⟩
  rcases member_eq_ok_iff_hasMember.mp hFound with
    ⟨rfl, hMember⟩
  have hSame := hEach m hMember
  unfold ExportTable.identity? at hSame
  rw [List.getElem?_eq_getElem hLt,
    List.getElem?_eq_getElem hLtOther] at hSame
  exact hSame

end Program.Sound

------------------------------------------------------------
-- The Table Of A Program
------------------------------------------------------------

/-
  The table of a program that was built is the one fixed
  point of the rules, whichever order it is filled in.
-/
theorem export_table_is_the_fixed_point
    {draft : Draft}
    {p : Program}
    (hBuild : draft.build = .ok p) :
    ∃ table : ExportTable, p.exportTable = .ok table ∧
      table.length = p.members.length ∧
      table.IsFixedPoint p ∧
      (∀ other : ExportTable,
        other.length = p.members.length →
          other.IsFixedPoint p → other = table) ∧
      ∀ order, Hierarchy.Orders p.types order →
        p.tableInOrder order = .ok table := by
  have hSound := Program.sound_of_build hBuild
  have hInOrder :
      ∀ order, Hierarchy.Orders p.types order →
        ∃ table : ExportTable,
          p.tableInOrder order = .ok table ∧
            table.length = p.members.length ∧
              table.Resolves p := by
    intro order hOrders
    rcases hSound.tableInOrder_succeeds (fun t ht =>
        (hOrders.mem_iff t).mp ht) with
      ⟨table, hTable⟩
    exact ⟨table, hTable,
      hSound.resolves_tableInOrder hOrders hTable⟩
  have hUnique :
      ∀ table other : ExportTable,
        table.length = p.members.length →
        other.length = p.members.length →
        table.Resolves p → other.Resolves p →
          table = other := by
    intro table other hLength hLengthOther hTable hOther
    exact hSound.table_eq_of_identity?_eq hLength
      hLengthOther (fun m hMember =>
        hSound.identity?_eq_of_resolves hTable hOther
          hMember)
  rcases hInOrder _ hSound.fits.orders with
    ⟨table, hTable, hLength, hResolves⟩
  refine ⟨table, hTable, hLength,
    hSound.isFixedPoint_iff.mpr hResolves, ?_, ?_⟩
  · intro other hLengthOther hOther
    exact hUnique other table hLengthOther hLength
      (hSound.isFixedPoint_iff.mp hOther) hResolves
  · intro order hOrders
    rcases hInOrder order hOrders with
      ⟨found, hFound, hLengthFound, hOther⟩
    rw [hUnique table found hLength hLengthFound hResolves
      hOther]
    exact hFound

/-
  A bell is named by two interfaces, one of which hides the
  name that both of them take over from a third.
-/
def Draft.bell : Draft :=
  let getName : TypeId → ExportTag → MemberDecl :=
    fun owner tag =>
      .plain "getName" owner
        (.plain (.method .string) [] .empty) tag
  let above (name : String) (kind : TypeKind)
      (m : MemberId) (interfaces : List TypeId) : TypeDecl :=
    { TypeDecl.plain name kind .none [m] with
      interfaces := interfaces }
  ⟨[above "Named" .interfaceKind 0 [],
    above "Quiet" .interfaceKind 1 [0],
    above "Loud" .interfaceKind 2 [0],
    above "Bell" .classKind 3 [1, 2]],
  [getName 0 .jsProperty,
    { getName 1 .untagged with isIgnored := true },
    getName 2 .untagged,
    getName 3 .untagged]⟩

/- The loud interface may as well come before the quiet. -/
theorem Draft.bell_orders :
    Hierarchy.Orders Draft.bell.types [0, 2, 1, 3] := by
  constructor
  · intro t
    have hBelow : ∀ t ∈ [0, 2, 1, 3], t < 4 := by decide
    have hListed : ∀ t < 4, t ∈ [0, 2, 1, 3] := by decide
    exact ⟨hBelow t, hListed t⟩
  · decide
  · intro before t after hSplit a hInherits
    refine Hierarchy.mem_of_supertypes_first ?_ hInherits
      before after hSplit
    intro before t after hSplit s hSuper
    have hParts :
        ∀ i < 4, ∀ u ∈ [0, 2, 1, 3][i]?,
          ∀ s ∈ Supertypes.ofTypes Draft.bell.types u,
            s ∈ [0, 2, 1, 3].take i := by
      decide
    have hLt : before.length < 4 := by
      have hLength := congrArg List.length hSplit
      simp at hLength
      omega
    have hAt := hParts before.length hLt t (by
      rw [hSplit]; simp) s hSuper
    rw [hSplit] at hAt
    simpa using hAt

/-
  In both orders the bell is named by the loud interface,
  and the quiet one has no entry.
-/
theorem bell_table_in_both_orders :
    ∃ p, Draft.bell.build = .ok p ∧
      p.hierarchy.order = [0, 1, 2, 3] ∧
      ∃ table : ExportTable, p.exportTable = .ok table ∧
        p.tableInOrder [0, 2, 1, 3] = .ok table ∧
        table.IsFixedPoint p ∧
        table.map (Option.map (fun i => i.name)) =
          [some "name", none, some "name", some "name"] := by
  have hBuilt : ∃ p, Draft.bell.build = .ok p := ⟨_, rfl⟩
  rcases hBuilt with ⟨p, hBuild⟩
  rcases export_table_is_the_fixed_point hBuild with
    ⟨table, hTable, _, hFixed, _, hOrder⟩
  have hTypes := (Draft.build_eq_ok_iff.mp hBuild).2.2.1
  have hFound :
      Draft.bell.build.toOption.map (fun p =>
        (p.hierarchy.order, p.exportTable.toOption.map
          (List.map (Option.map (fun i => i.name))))) =
        some ([0, 1, 2, 3],
          some [some "name", none, some "name",
            some "name"]) := by
    decide +kernel
  rw [hBuild] at hFound
  simp only [Except.toOption, hTable, Option.map_some,
    Option.some.injEq, Prod.mk.injEq] at hFound
  exact ⟨p, hBuild, hFound.1, table, hTable,
    hOrder [0, 2, 1, 3] (hTypes ▸ Draft.bell_orders),
    hFixed, hFound.2⟩

end JsExport
