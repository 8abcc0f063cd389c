import JsExport.Proofs.Export.Surface
import JsExport.Proofs.Export.Table
import JsExport.Rules.AccessorShape

/-
  Accessors that pass the rule on shapes.

  A name that announces no access never passes, and a writer
  that passes takes one parameter.  A slot may be an accessor
  through a declaration that it overrides; the rule then
  looks at that declaration, and its name and the number of
  its parameters are those of the slot.

  Main declarations:
    * `ofName_ne_invalid_of_shapeBreach?_eq_none`
    * `length_params_of_shapeBreach?_eq_none`
    * `ExportView.Shows.access_of_slot`
-/

namespace JsExport

------------------------------------------------------------
-- Shapes
------------------------------------------------------------

section Shapes

variable {name : String}
variable {c : Callable}

/- What passes is named as an accessor. -/
theorem ofName_ne_invalid_of_shapeBreach?_eq_none
    (hPasses : shapeBreach? name c = none) :
    Accessor.ofName name ≠ .invalid := by
  unfold shapeBreach? at hPasses
  unfold Accessor.ofName
  cases hSplit : BeanName.split? name with
  | none => simp [hSplit] at hPasses
  | some found =>
      rcases found with ⟨verb, stem⟩
      cases verb with
      | get => exact Accessor.noConfusion
      | is => exact Accessor.noConfusion
      | set => exact Accessor.noConfusion

/- A writer that passes takes one parameter. -/
theorem length_params_of_shapeBreach?_eq_none
    (hPasses : shapeBreach? name c = none)
    (hWrites : Accessor.ofName name = .setter) :
    c.params.length = 1 := by
  unfold shapeBreach? at hPasses
  unfold Accessor.ofName at hWrites
  cases hSplit : BeanName.split? name with
  | none => simp [hSplit] at hWrites
  | some found =>
      rcases found with ⟨verb, stem⟩
      cases verb with
      | get => simp [hSplit] at hWrites
      | is => simp [hSplit] at hWrites
      | set =>
          simp [hSplit, Callable.isWriter] at hPasses
          exact hPasses.1

/- Every breach of the rule is one of shape. -/
theorem rule_eq_of_shapeBreach?_eq_some
    {breach : String → Breach}
    (hFails : shapeBreach? name c = some breach)
    (text : String) :
    (breach text).rule = .propertyShape := by
  unfold shapeBreach? at hFails
  split at hFails
  · cases hFails
    rfl
  · split at hFails
    · cases hFails
    · cases hFails
      rfl
  · split at hFails
    · cases hFails
      rfl
    · split at hFails
      · cases hFails
        rfl
      · cases hFails
  · split at hFails
    · cases hFails
    · cases hFails
      rfl

end Shapes

------------------------------------------------------------
-- Reports
------------------------------------------------------------

namespace ExportView

variable {v : ExportView}

theorem rule_of_mem_accessorShapes
    {f : Finding}
    (hMem : f ∈ v.accessorShapes) :
    f.breach.rule = .propertyShape := by
  rcases List.mem_filterMap.mp hMem with ⟨m, _, hFound⟩
  unfold shapeFinding? at hFound
  split at hFound
  · rcases Option.map_eq_some_iff.mp hFound with
      ⟨breach, hBreach, rfl⟩
    rcases Option.bind_eq_some_iff.mp hBreach with
      ⟨c, _, hShape⟩
    exact rule_eq_of_shapeBreach?_eq_some hShape _
  · cases hFound

theorem isError_of_mem_accessorShapes
    {f : Finding}
    (hMem : f ∈ v.accessorShapes) :
    f.diagnostic.isError := by
  have hRule : f.diagnostic.rule = .propertyShape :=
    rule_of_mem_accessorShapes hMem
  unfold Diagnostic.isError Diagnostic.severity
  rw [hRule]
  rfl

/- An accessor that is not reported passes. -/
theorem shapeBreach?_eq_none_of_silent
    (hSilent :
      ∀ f ∈ v.accessorShapes, ¬ f.diagnostic.isError)
    {m : MemberNode}
    (hMem : m ∈ v.members)
    (hAccessor : v.table.isAccessor m.id)
    {c : Callable}
    (hCallable : m.decl.callable? = some c) :
    shapeBreach? m.decl.name c = none := by
  cases hShape : shapeBreach? m.decl.name c with
  | none => rfl
  | some breach =>
      let f := Finding.ofMember m (breach (v.signature m))
      have hFound : v.shapeFinding? m = some f := by
        unfold shapeFinding?
        rw [if_pos hAccessor, hCallable, Option.bind_some,
          hShape, Option.map_some]
      have hIn : f ∈ v.accessorShapes :=
        List.mem_filterMap.mpr ⟨m, hMem, hFound⟩
      exact absurd (isError_of_mem_accessorShapes hIn)
        (hSilent f hIn)

------------------------------------------------------------
-- Slots That Are Accessors
------------------------------------------------------------

/-
  A slot that accesses a property is a method, it accesses
  the property as its name says, and one of its declarations
  is exported as an accessor itself.
-/
theorem Shows.access_of_slot
    {p : Program}
    (hShows : v.Shows p)
    (hSound : p.Sound)
    {s : Surface}
    (hSurface : s ∈ v.surfaces)
    {e : Slot × JsIdentity}
    (hNamed : e ∈ s.named)
    {access : Accessor}
    (hRole : e.2.role = .property access) :
    e.1.member.decl.isCallable ∧
      access = Accessor.ofName e.1.member.decl.name ∧
        ∃ n, p.HasMember n ∧ v.table.isAccessor n.id ∧
          n.decl.signature? =
            e.1.member.decl.signature? := by
  rcases Surface.mem_named_iff.mp hNamed with
    ⟨hSlot, hIdentity⟩
  rcases hShows.hasMember_slot hSound hSurface hSlot with
    ⟨hMember, hOverridden⟩
  have hTable :=
    hSound.resolves_exportTable hShows.table_eq
  have hAccess :
      ∀ {n : MemberNode} {identity : JsIdentity},
        v.table.identity? n.id = some identity →
          identity.role.isProperty →
            v.table.isAccessor n.id := by
    intro n identity hn hProperty
    unfold ExportTable.isAccessor
    rw [hn]
    exact hProperty
  have hProperty : e.2.role.isProperty := by
    rw [hRole]
    rfl
  cases hOwn : v.identity? e.1.member with
  | some identity =>
      have hSame := hShows.identity_eq_of_exported hSurface
        hSlot hOwn
      cases hIdentity.symm.trans hSame
      rcases hTable.access_eq hSound hMember hOwn hRole with
        ⟨hCallable, hName⟩
      exact ⟨hCallable, hName, e.1.member, hMember,
        hAccess hOwn hProperty, rfl⟩
  | none =>
      rcases hShows.exists_passedTo?_of_identity_eq hSurface
          hSlot hOwn hIdentity with
        ⟨n, hn, above, hExported, hPassed⟩
      rcases hShows.exists_ofMembers_eq hSurface with
        ⟨_, _, _, hMade⟩
      rw [hMade] at hSlot
      rcases Surface.mem_of_mem_overridden hSlot hn with
        ⟨_, hCallable, hSignature⟩
      refine ⟨hCallable,
        JsIdentity.access_eq_of_passedTo?_eq hPassed hRole,
        n, hOverridden n hn, ?_, hSignature⟩
      apply hAccess hExported
      exact JsIdentity.isProperty_of_passedTo?_eq hPassed
        hProperty

end ExportView

end JsExport
