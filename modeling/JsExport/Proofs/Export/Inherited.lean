import JsExport.Proofs.Export.FixedPoint

/-
  Which members are exported, without resolving any.

  A member is exported by itself or by overriding a method
  that is exported by itself.  Members between the two may
  hide themselves and break one way up, but then the way
  that leaves them out remains.  What a member takes over
  along the way is the role; the name is its own.

  Main declarations:
    * `Program.Overrides`
    * `Program.Sound.exists_overrides_of_identity?_eq`
    * `Program.Sound.exports_of_overrides`
    * `exported_iff_overrides_exported`
-/

namespace JsExport

open Lookup

------------------------------------------------------------
-- Overriding
------------------------------------------------------------

namespace MemberDecl

variable {m n k : MemberDecl}

/- Members share a signature when both have the same one. -/
theorem sharesSignature_iff :
    m.sharesSignature n = true ↔
      ∃ key, m.signature? = some key ∧
        n.signature? = some key := by
  unfold sharesSignature
  cases m.signature? with
  | none => simp
  | some s =>
      cases n.signature? with
      | none => simp
      | some t => simp [eq_comm]

theorem isCallable_of_isConstructor
    (hMaker : m.isConstructor) :
    m.isCallable := by
  unfold isConstructor at hMaker
  unfold isCallable
  cases hCode : m.callable? with
  | none =>
      rw [hCode] at hMaker
      cases hMaker
  | some c => rfl

theorem isConstructor_eq_false_of_isField
    (hField : m.isField) :
    m.isConstructor = false := by
  cases hMaker : m.isConstructor with
  | false => rfl
  | true =>
      rw [isField_eq, isCallable_of_isConstructor hMaker]
        at hField
      cases hField

theorem sharesSignature_trans
    (hLow : m.sharesSignature n)
    (hHigh : n.sharesSignature k) :
    m.sharesSignature k := by
  rcases sharesSignature_iff.mp hLow with ⟨key, hm, hn⟩
  rcases sharesSignature_iff.mp hHigh with ⟨_, hn', hk⟩
  have hSame := Option.some.inj (hn'.symm.trans hn)
  exact sharesSignature_iff.mpr ⟨key, hm, hSame ▸ hk⟩

end MemberDecl

/-
  That a member has a method above it which it overrides and
  which is exported by itself.
-/
structure Program.Overrides
    (p : Program)
    (m r : MemberNode) : Prop where
  member : p.HasMember r
  above : Inherits p.types m.owner.id r.owner.id
  overridden : ExportTable.isOverriddenBy m.decl r
  direct : r.decl.isDirectlyExported r.owner.decl

------------------------------------------------------------
-- Roles That Are Taken Over
------------------------------------------------------------

/-
  That a member has an identity in the role of one above it,
  under its own name.
-/
structure JsIdentity.TakesOver
    (identity above : JsIdentity)
    (m : MemberDecl) : Prop where
  role :
    (above.role = .method ∧ identity.role = .method) ∨
      (above.role.isProperty ∧
        identity.role = .property (Accessor.ofName m.name))
  chosen :
    ∀ name, m.jsName = some name →
      identity.name = name ∧ identity.isExplicit
  derived :
    m.jsName = none →
      ¬ identity.isExplicit ∧
        identity.name =
          if identity.role.isProperty then
            BeanName.property m.name
          else m.name

namespace JsIdentity

/- Identities under one name follow the same rule. -/
theorem takesOver_named
    {role : JsRole}
    {above : JsIdentity}
    {m : MemberDecl}
    (hRole :
      (above.role = .method ∧ role = .method) ∨
        (above.role.isProperty ∧
          role = .property (Accessor.ofName m.name))) :
    (named role m).TakesOver above m := by
  constructor
  · exact hRole
  · intro name hName
    simp [named, hName]
  · intro hName
    simp [named, hName]

/- What is passed on is taken over. -/
theorem takesOver_of_passedTo?_eq
    {above identity : JsIdentity}
    {m : MemberDecl}
    (hPassed : above.passedTo? m = some identity) :
    identity.TakesOver above m := by
  rcases of_passedTo?_eq hPassed with
    ⟨hMethod, rfl⟩ | ⟨hProperty, rfl⟩
  · exact takesOver_named (.inl ⟨hMethod, rfl⟩)
  · exact takesOver_named (.inr ⟨hProperty, rfl⟩)

/- What is taken over twice comes from the first. -/
theorem TakesOver.trans
    {high middle low : JsIdentity}
    {m n : MemberDecl}
    (hLow : low.TakesOver middle m)
    (hHigh : middle.TakesOver high n) :
    low.TakesOver high m := by
  constructor
  · rcases hLow.role with
      ⟨hMethod, hSame⟩ | ⟨hProperty, hSame⟩
    · rcases hHigh.role with
        ⟨hAbove, _⟩ | ⟨_, hAccess⟩
      · exact .inl ⟨hAbove, hSame⟩
      · rw [hAccess] at hMethod
        cases hMethod
    · rcases hHigh.role with
        ⟨_, hMiddle⟩ | ⟨hAbove, _⟩
      · rw [hMiddle] at hProperty
        cases hProperty
      · exact .inr ⟨hAbove, hSame⟩
  · exact hLow.chosen
  · exact hLow.derived

/- Methods and accessors pass their identity on. -/
theorem passedTo?_isSome_of_role
    {identity : JsIdentity}
    (hRole :
      identity.role = .method ∨ identity.role.isProperty)
    (m : MemberDecl) :
    ∃ found, identity.passedTo? m = some found := by
  unfold passedTo?
  rcases hRole with hMethod | hProperty
  · rw [hMethod]
    exact ⟨_, rfl⟩
  · rcases JsRole.isProperty_iff.mp hProperty with
      ⟨access, hAccess⟩
    rw [hAccess]
    exact ⟨_, rfl⟩

/- A method of objects is no field and no constructor. -/
theorem naturalRole_of_isInstanceMethod
    {m : MemberDecl}
    (hMethod : m.isInstanceMethod) :
    naturalRole m = .method ∨ (naturalRole m).isProperty := by
  rcases MemberDecl.isInstanceMethod_iff.mp hMethod with
    ⟨hCallable, hMaker, _⟩
  have hField : m.isField = false := by
    rw [MemberDecl.isField_eq, hCallable]
    rfl
  unfold naturalRole
  rw [hField, hMaker]
  by_cases hTag : m.tag = .jsProperty
  · rw [if_neg (by simp), if_neg (by simp), if_pos hTag]
    exact .inr rfl
  · rw [if_neg (by simp), if_neg (by simp), if_neg hTag]
    exact .inl rfl

/- A constructor, and nothing else, is named for its type. -/
theorem naturalRole_eq_constructor_iff
    {m : MemberDecl} :
    naturalRole m = .constructor ↔ m.isConstructor := by
  unfold naturalRole
  cases hMaker : m.isConstructor with
  | true =>
      have hField : m.isField = false := by
        rw [MemberDecl.isField_eq,
          MemberDecl.isCallable_of_isConstructor hMaker]
        rfl
      simp [hField]
  | false =>
      rw [if_neg Bool.false_ne_true]
      split
      · simp
      · split <;> simp

end JsIdentity

------------------------------------------------------------
-- Members Exported By Others
------------------------------------------------------------

/- What is exported by itself keeps its own identity. -/
theorem ExportTable.IsFixedPoint.identity?_of_direct
    {p : Program}
    {table : ExportTable}
    (hTable : table.IsFixedPoint p)
    {m : MemberNode}
    (hMember : p.HasMember m)
    (hDirect : m.decl.isDirectlyExported m.owner.decl) :
    table.identity? m.id = some (.natural m.decl) := by
  rcases hTable m hMember with ⟨ancestors, _, hAssigns⟩
  rw [ExportTable.eq_resolve?_of_assigns hAssigns]
  exact ExportTable.resolve?_of_isDirectlyExported hDirect

namespace Program.Sound

variable {p : Program}
variable (hSound : p.Sound)
variable {table : ExportTable}
variable (hTable : table.IsFixedPoint p)

include hSound hTable

/-
  What is not exported by itself has the identity that a
  method of a type above passes on.
-/
theorem exists_passedTo?_of_identity?_eq
    {m : MemberNode}
    (hMember : p.HasMember m)
    (hDirect : ¬ m.decl.isDirectlyExported m.owner.decl)
    {identity : JsIdentity}
    (hIdentity : table.identity? m.id = some identity) :
    m.decl.mayInheritExport ∧
      ∃ n, p.HasMember n ∧
        Inherits p.types m.owner.id n.owner.id ∧
        ExportTable.isOverriddenBy m.decl n ∧
        ∃ above, table.identity? n.id = some above ∧
          above.passedTo? m.decl = some identity := by
  rcases hTable m hMember with
    ⟨ancestors, hLineage, hAssigns⟩
  rw [ExportTable.eq_resolve?_of_assigns hAssigns,
    ExportTable.resolve?_of_not_isDirectlyExported hDirect]
    at hIdentity
  split at hIdentity
  · rename_i hMay
    refine ⟨hMay, ?_⟩
    rcases Option.bind_eq_some_iff.mp hIdentity with
      ⟨above, hFound, hPassed⟩
    rcases List.exists_of_findSome?_eq_some hFound with
      ⟨n, hn, hAbove⟩
    rcases List.mem_filter.mp hn with ⟨hMem, hOver⟩
    rcases hSound.inherits_of_mem_tail hLineage hMem with
      ⟨hHigh, hInherits⟩
    exact ⟨n, hHigh, hInherits, hOver, above, hAbove,
      hPassed⟩
  · cases hIdentity

/- Methods of objects are exported as such or as accessors. -/
theorem role_of_isInstanceMethod
    {m : MemberNode}
    (hMember : p.HasMember m)
    (hMethod : m.decl.isInstanceMethod)
    {identity : JsIdentity}
    (hIdentity : table.identity? m.id = some identity) :
    identity.role = .method ∨ identity.role.isProperty := by
  by_cases hDirect : m.decl.isDirectlyExported m.owner.decl
  · rw [hTable.identity?_of_direct hMember hDirect] at hIdentity
    cases hIdentity
    exact JsIdentity.naturalRole_of_isInstanceMethod hMethod
  · rcases hSound.exists_passedTo?_of_identity?_eq hTable
        hMember hDirect hIdentity with
      ⟨_, n, _, _, _, above, _, hPassed⟩
    rcases (JsIdentity.takesOver_of_passedTo?_eq
        hPassed).role with
      ⟨_, hMethod⟩ | ⟨_, hAccess⟩
    · exact .inl hMethod
    · rw [hAccess]
      exact .inr rfl

/- Constructors are exported as such, and nothing else is. -/
theorem role_eq_constructor_iff
    {m : MemberNode}
    (hMember : p.HasMember m)
    {identity : JsIdentity}
    (hIdentity : table.identity? m.id = some identity) :
    identity.role = .constructor ↔ m.decl.isConstructor := by
  by_cases hDirect : m.decl.isDirectlyExported m.owner.decl
  · rw [hTable.identity?_of_direct hMember hDirect] at hIdentity
    cases hIdentity
    exact JsIdentity.naturalRole_eq_constructor_iff
  · have hMay := (hSound.exists_passedTo?_of_identity?_eq
      hTable hMember hDirect hIdentity).1
    unfold MemberDecl.mayInheritExport at hMay
    have hMethod := MemberDecl.isInstanceMethod_of_isOverridable
      (Bool.and_eq_true_iff.mp hMay).2
    have hMaker :=
      (MemberDecl.isInstanceMethod_iff.mp hMethod).2.1
    rw [hMaker]
    rcases hSound.role_of_isInstanceMethod hTable hMember
        hMethod hIdentity with
      hRole | hRole
    · simp [hRole]
    · rcases JsRole.isProperty_iff.mp hRole with
        ⟨access, hAccess⟩
      simp [hAccess]

/-
  A member that is exported, but not by itself, overrides a
  method that is, and takes over the role of such a method.
-/
theorem exists_overrides_of_identity?_eq
    {m : MemberNode}
    (hMember : p.HasMember m)
    (hDirect : ¬ m.decl.isDirectlyExported m.owner.decl)
    {identity : JsIdentity}
    (hIdentity : table.identity? m.id = some identity) :
    m.decl.mayInheritExport ∧
      ∃ r, p.Overrides m r ∧
        identity.TakesOver (.natural r.decl) m.decl := by
  -- From the types above down: the method next above is
  -- exported by itself or takes over from one that is.
  have hType :
      ∀ t, t < p.types.length →
        ∀ m, p.HasMember m → m.owner.id = t →
          ¬ m.decl.isDirectlyExported m.owner.decl →
          ∀ identity, table.identity? m.id = some identity →
            m.decl.mayInheritExport ∧
              ∃ r, p.Overrides m r ∧
                identity.TakesOver (.natural r.decl)
                  m.decl := by
    refine hSound.fits.induction_above ?_
    intro t _ hAbove m hMember hOwner hDirect identity
      hIdentity
    subst hOwner
    rcases hSound.exists_passedTo?_of_identity?_eq hTable
        hMember hDirect hIdentity with
      ⟨hMay, n, hNext, hInherits, hOver, above, hFound,
        hPassed⟩
    have hTakes := JsIdentity.takesOver_of_passedTo?_eq hPassed
    refine ⟨hMay, ?_⟩
    by_cases hDirectNext :
        n.decl.isDirectlyExported n.owner.decl
    · rw [hTable.identity?_of_direct hNext hDirectNext] at hFound
      cases hFound
      exact ⟨n, ⟨hNext, hInherits, hOver, hDirectNext⟩,
        hTakes⟩
    · rcases hAbove n.owner.id hInherits n hNext rfl
          hDirectNext above hFound with
        ⟨_, r, hOverrides, hTakesNext⟩
      rcases Bool.and_eq_true_iff.mp hOver with
        ⟨_, hShares⟩
      rcases Bool.and_eq_true_iff.mp
          hOverrides.overridden with
        ⟨hMayAbove, hSharesAbove⟩
      refine ⟨r, ⟨hOverrides.member,
        hInherits.trans hOverrides.above, ?_,
        hOverrides.direct⟩, hTakes.trans hTakesNext⟩
      exact Bool.and_eq_true_iff.mpr ⟨hMayAbove,
        MemberDecl.sharesSignature_trans hSharesAbove
          hShares⟩
  exact hType m.owner.id hMember.2.2.lt_length m hMember rfl
    hDirect identity hIdentity

/-
  A member that may be exported by overriding is exported
  when it overrides a method that is exported.
-/
theorem exports_of_exports_above
    {m n : MemberNode}
    (hMember : p.HasMember m)
    (hMay : m.decl.mayInheritExport)
    (hHigh : p.HasMember n)
    (hInherits : Inherits p.types m.owner.id n.owner.id)
    (hOver : ExportTable.isOverriddenBy m.decl n)
    (hExports : table.exports n.id) :
    table.exports m.id := by
  by_cases hDirect : m.decl.isDirectlyExported m.owner.decl
  · exact ExportTable.exports_iff.mpr
      ⟨_, hTable.identity?_of_direct hMember hDirect⟩
  rcases hTable m hMember with
    ⟨ancestors, hLineage, hAssigns⟩
  have hAbove :
      n ∈ ancestors.flatMap p.declaredBy := by
    have hIds := map_id_of_lineage_eq_ok hLineage
    have hStrict :
        n.owner.id ∈ p.hierarchy.strictAncestry m.owner.id :=
      (hSound.fits.mem_strictAncestry_iff _ _).mpr hInherits
    unfold Hierarchy.strictAncestry at hStrict
    rw [← hIds] at hStrict
    rcases List.mem_map.mp hStrict with ⟨s, hs, hId⟩
    have hType :=
      ((mem_of_lineage_eq_ok hLineage).mp
        (List.mem_cons_of_mem _ hs)).2
    have hOwner : s = n.owner :=
      hType.eq_of_id_eq hHigh.2.2 hId
    exact List.mem_flatMap.mpr ⟨s, hs, hOwner ▸
      hSound.mem_declaredBy_of_hasMember hHigh⟩
  rcases ExportTable.isFirstExported_or_unexported table
      (ancestors.flatMap p.declaredBy) m.decl with
    ⟨k, hFirst⟩ | hNone
  · rcases ExportTable.exports_iff.mp hFirst.2.1 with
      ⟨above, hFound⟩
    have hMem : k ∈ ancestors.flatMap p.declaredBy := by
      rcases hFirst.2.2 with ⟨before, after, hSplit, _⟩
      rw [hSplit]
      simp
    have hNext :=
      (hSound.inherits_of_mem_tail hLineage hMem).1
    have hRole := hSound.role_of_isInstanceMethod hTable
      hNext (MemberDecl.isInstanceMethod_of_isOverridable
        (Bool.and_eq_true_iff.mp hFirst.1).1) hFound
    rcases JsIdentity.passedTo?_isSome_of_role hRole m.decl
      with ⟨identity, hPassed⟩
    apply ExportTable.exports_iff.mpr
    refine ⟨identity, ?_⟩
    rw [ExportTable.eq_resolve?_of_assigns hAssigns,
      ExportTable.resolve?_of_not_isDirectlyExported hDirect,
      if_pos hMay,
      ExportTable.inherited?_eq_of_isFirstExported hFirst
        hFound,
      hPassed]
  · exact absurd hExports (hNone n hAbove hOver)

/- Overriding a method exported by itself is enough. -/
theorem exports_of_overrides
    {m r : MemberNode}
    (hMember : p.HasMember m)
    (hMay : m.decl.mayInheritExport)
    (hOverrides : p.Overrides m r) :
    table.exports m.id := by
  have hNatural :=
    hTable.identity?_of_direct hOverrides.member
      hOverrides.direct
  exact hSound.exports_of_exports_above hTable hMember hMay
    hOverrides.member hOverrides.above hOverrides.overridden
    (ExportTable.exports_iff.mpr ⟨_, hNatural⟩)

end Program.Sound

/-
  A member is exported when it is by itself, or when it may
  be by overriding and overrides a method that is by itself.
  It then takes over the role of such a method and is named
  as it says itself.
-/
theorem exported_iff_overrides_exported
    {draft : Draft}
    {p : Program}
    (hBuild : draft.build = .ok p) :
    ∃ table : ExportTable, p.exportTable = .ok table ∧
      ∀ m, p.HasMember m →
        (table.exports m.id ↔
          m.decl.isDirectlyExported m.owner.decl ∨
            (m.decl.mayInheritExport ∧
              ∃ r, p.Overrides m r)) ∧
        (¬ m.decl.isDirectlyExported m.owner.decl →
          ∀ identity, table.identity? m.id = some identity →
            ∃ r, p.Overrides m r ∧
              table.identity? r.id =
                some (.natural r.decl) ∧
              identity.TakesOver (.natural r.decl)
                m.decl) := by
  have hSound := Program.sound_of_build hBuild
  rcases hSound.tableInOrder_succeeds (fun t ht =>
      (hSound.fits.mem_order t).mp ht) with
    ⟨table, hTable⟩
  have hFixed : table.IsFixedPoint p :=
    hSound.isFixedPoint_iff.mpr
      (hSound.resolves_exportTable hTable)
  refine ⟨table, hTable, ?_⟩
  intro m hMember
  constructor
  · constructor
    · intro hExports
      by_cases hDirect :
          m.decl.isDirectlyExported m.owner.decl
      · exact .inl hDirect
      · rcases ExportTable.exports_iff.mp hExports with
          ⟨identity, hIdentity⟩
        rcases hSound.exists_overrides_of_identity?_eq
            hFixed hMember hDirect hIdentity with
          ⟨hMay, r, hOverrides, _⟩
        exact .inr ⟨hMay, r, hOverrides⟩
    · intro hWay
      rcases hWay with hDirect | ⟨hMay, r, hOverrides⟩
      · exact ExportTable.exports_iff.mpr
          ⟨_, hFixed.identity?_of_direct hMember hDirect⟩
      · exact hSound.exports_of_overrides hFixed hMember
          hMay hOverrides
  · intro hDirect identity hIdentity
    rcases hSound.exists_overrides_of_identity?_eq hFixed
        hMember hDirect hIdentity with
      ⟨_, r, hOverrides, hTakes⟩
    exact ⟨r, hOverrides,
      hFixed.identity?_of_direct hOverrides.member
        hOverrides.direct,
      hTakes⟩

/-
  The bell is read like the first interface, although a way
  up to it leads through the one that hides the name.
-/
theorem bell_takes_over_first_role :
    ∃ p, Draft.bell.build = .ok p ∧
      ∃ table : ExportTable, p.exportTable = .ok table ∧
        ∃ bell identity r, p.HasMember bell ∧
          bell.id = 3 ∧
          ¬ bell.decl.isDirectlyExported bell.owner.decl ∧
          table.identity? bell.id = some identity ∧
          p.Overrides bell r ∧
          identity.TakesOver (.natural r.decl) bell.decl := by
  have hBuilt : ∃ p, Draft.bell.build = .ok p := ⟨_, rfl⟩
  rcases hBuilt with ⟨p, hBuild⟩
  rcases exported_iff_overrides_exported hBuild with
    ⟨table, hTable, hEach⟩
  rcases Draft.build_eq_ok_iff.mp hBuild with
    ⟨_, _, hTypes, hMembers⟩
  have hMember :
      p.HasMember
        ⟨3, Draft.bell.members[3], 3, Draft.bell.types[3]⟩ := by
    refine ⟨?_, rfl, ?_⟩
    · rw [hMembers]
      rfl
    · unfold Program.HasType
      rw [hTypes]
      rfl
  have hDirect :
      ¬ Draft.bell.members[3].isDirectlyExported
        Draft.bell.types[3] := by
    decide
  have hFound :
      (Draft.bell.build.toOption.bind (fun p =>
        p.exportTable.toOption)).map
          (fun table => table.exports 3) = some true := by
    decide +kernel
  rw [hBuild] at hFound
  simp only [Except.toOption, hTable, Option.bind_some,
    Option.map_some, Option.some.injEq] at hFound
  rcases ExportTable.exports_iff.mp hFound with
    ⟨identity, hIdentity⟩
  rcases (hEach _ hMember).2 hDirect identity hIdentity with
    ⟨r, hOverrides, _, hTakes⟩
  exact ⟨p, hBuild, table, hTable, _, identity, r, hMember,
    rfl, hDirect, hIdentity, hOverrides, hTakes⟩

end JsExport
