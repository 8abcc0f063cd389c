import JsExport.Proofs.Check.Outcome
import JsExport.Proofs.Program.Acceptance
import JsExport.Proofs.Rules.FunctionType

/-
  The hierarchy around a function type.

  In a program without errors a function type has nothing
  above it and one level of classes below it.  The contracts
  of function types and of their implementations have to be
  put together for that: each of them looks at one type and
  what it lists.

  Main declarations:
    * `Program.Finds.contract_eq_nil`
    * `Program.Sound.mem_interfaces_of_mem_ofTypes`
    * `Program.Sound.implementation_of_mem_ofTypes`
    * `Program.Sound.not_mem_ofTypes_of_implementation`
    * `function_type_has_one_level_below`
-/

namespace JsExport

open Lookup

theorem TypeDecl.isInterface_eq_false_of_isClass
    {d : TypeDecl}
    (hClass : d.isClass) :
    d.isInterface = false := by
  unfold isInterface
  rw [eq_of_beq hClass]
  rfl

/- Without errors no contract is broken. -/
theorem Program.Finds.contract_eq_nil
    {p : Program}
    {advice : Advice}
    {v : ExportView}
    {naming property contract usability : List Finding}
    (hFinds :
      p.Finds advice v naming property contract usability)
    (hSilent :
      (Log.ofFamilies naming property contract
        usability).errors = []) :
    contract = [] := by
  apply List.eq_nil_iff_forall_not_mem.mpr
  intro f hf
  have hError := hFinds.isError_of_mem
    (List.mem_append_right _ hf)
  exact not_isError_of_errors_eq_nil hSilent
    (List.mem_append_left _ (List.mem_append_right _ hf))
    hError

namespace Program.Sound

variable {p : Program}
variable (hSound : p.Sound)

include hSound

------------------------------------------------------------
-- Supertypes By Kind
------------------------------------------------------------

/- An interface is implemented or extended as an interface. -/
theorem mem_interfaces_of_mem_ofTypes
    {f : TypeNode}
    (hAbove : p.HasType f)
    (hInterface : f.decl.isInterface)
    {t : TypeId} :
    f.id ∈ Supertypes.ofTypes p.types t ↔
      ∃ d, p.types[t]? = some d ∧ f.id ∈ d.interfaces := by
  rw [Supertypes.mem_ofTypes_iff]
  constructor
  · rintro ⟨d, hType, hListed⟩
    refine ⟨d, hType, ?_⟩
    rcases List.mem_append.mp hListed with hSuper | hHere
    · rcases hSound.wellFormed.superclasses d
          (List.mem_of_getElem? hType) f.id
          (Option.mem_toList.mp hSuper) with
        ⟨_, above, hFound, hClass⟩
      have hSame : some above = some f.decl :=
        hFound.symm.trans hAbove
      cases hSame
      rw [TypeDecl.isInterface_eq_false_of_isClass hClass]
        at hInterface
      cases hInterface
    · exact hHere
  · rintro ⟨d, hType, hListed⟩
    exact ⟨d, hType, List.mem_append_right _ hListed⟩

/- A class is extended as a superclass. -/
theorem superClass_eq_of_mem_ofTypes
    {c : TypeNode}
    (hAbove : p.HasType c)
    (hClass : c.decl.isInterface = false)
    {t : TypeId}
    (hSuper : c.id ∈ Supertypes.ofTypes p.types t) :
    ∃ d, p.types[t]? = some d ∧
      d.superClass = some c.id := by
  rcases Supertypes.mem_ofTypes_iff.mp hSuper with
    ⟨d, hType, hListed⟩
  refine ⟨d, hType, ?_⟩
  rcases List.mem_append.mp hListed with hHere | hInterface
  · exact Option.mem_toList.mp hHere
  · rcases hSound.wellFormed.interfaces d
        (List.mem_of_getElem? hType) c.id hInterface with
      ⟨above, hFound, hKind⟩
    have hSame : some above = some c.decl :=
      hFound.symm.trans hAbove
    cases hSame
    rw [hClass] at hKind
    cases hKind

------------------------------------------------------------
-- Above And Below A Function Type
------------------------------------------------------------

section Kept

variable (hNone : p.contractFindings = .ok [])
variable {f : TypeNode}
variable (hType : p.HasType f)
variable (hFunction : f.decl.isJsFunction)

include hNone hType hFunction

/- There is nothing above a function type. -/
theorem ofTypes_eq_nil_of_function :
    Supertypes.ofTypes p.types f.id = [] := by
  rcases hSound.function_kept hNone hType hFunction with
    ⟨hInterface, _, hInterfaces, _⟩
  have hSuper : f.decl.superClass = none := by
    apply Option.eq_none_iff_forall_not_mem.mpr
    intro s hs
    have hClass := (hSound.wellFormed.superclasses f.decl
      (List.mem_of_getElem? hType) s hs).1
    rw [TypeDecl.isInterface_eq_false_of_isClass hClass]
      at hInterface
    cases hInterface
  have hFound : p.types[f.id]? = some f.decl := hType
  unfold Supertypes.ofTypes TypeDecl.supertypes
  rw [hFound, Option.map_some, Option.getD_some, hSuper,
    hInterfaces]
  rfl

/- Right below a function type are its implementations. -/
theorem implementation_of_mem_ofTypes
    {c : TypeId}
    (hBelow : f.id ∈ Supertypes.ofTypes p.types c) :
    ∃ d, p.types[c]? = some d ∧
      p.implementsFunction ⟨c, d⟩ = .ok true ∧
      d.isInterface = false ∧ d.isJsType = false ∧
      d.superClass = none ∧ d.interfaces = [f.id] := by
  have hInterface :=
    (hSound.function_kept hNone hType hFunction).1
  rcases (hSound.mem_interfaces_of_mem_ofTypes hType
      hInterface).mp hBelow with
    ⟨d, hFound, hListed⟩
  have hHere : p.HasType ⟨c, d⟩ := hFound
  have hImplements := hSound.implementsFunction_eq_true
    hHere hType hFunction hListed
  rcases hSound.implementation_kept hNone hHere
      hImplements with
    ⟨hClass, hPlain, hSuper, hLength⟩
  exact ⟨d, hFound, hImplements, hClass, hPlain, hSuper,
    Listing.eq_singleton_of_mem hListed hLength⟩

/- Nothing is below an implementation. -/
theorem not_mem_ofTypes_of_implementation
    {c : TypeId}
    (hBelow : f.id ∈ Supertypes.ofTypes p.types c)
    (t : TypeId) :
    c ∉ Supertypes.ofTypes p.types t := by
  intro hFurther
  rcases hSound.implementation_of_mem_ofTypes hNone hType
      hFunction hBelow with
    ⟨d, hFound, hImplements, hClass, _⟩
  have hHere : p.HasType ⟨c, d⟩ := hFound
  rcases hSound.superClass_eq_of_mem_ofTypes hHere hClass
      hFurther with
    ⟨low, hLow, hSuper⟩
  have hLowest : p.HasType ⟨t, low⟩ := hLow
  exact hSound.not_implements_of_superClass hNone hLowest
    hHere hSuper hImplements

/- What inherits from a function type lists it. -/
theorem mem_ofTypes_of_inherits
    {t : TypeId}
    (hInherits : Inherits p.types t f.id) :
    f.id ∈ Supertypes.ofTypes p.types t := by
  generalize hTop : f.id = a at hInherits
  induction hInherits with
  | direct hSuper => exact hSuper
  | @above t s _ hSuper _ ih =>
      have hNext := ih hTop
      rw [← hTop] at hNext
      exact absurd hSuper
        (hSound.not_mem_ofTypes_of_implementation hNone
          hType hFunction hNext t)

/- The ancestry of an implementation has two types. -/
theorem ancestry_eq_of_implementation
    {c : TypeId}
    (hBelow : f.id ∈ Supertypes.ofTypes p.types c) :
    p.hierarchy.ancestry c = [c, f.id] := by
  rcases hSound.implementation_of_mem_ofTypes hNone hType
      hFunction hBelow with
    ⟨d, hFound, _, _, _, hSuper, hInterfaces⟩
  have hOne : Supertypes.ofTypes p.types c = [f.id] := by
    unfold Supertypes.ofTypes TypeDecl.supertypes
    rw [hFound, Option.map_some, Option.getD_some, hSuper,
      hInterfaces]
    rfl
  have hLt : c < p.types.length :=
    (Inherits.direct hBelow).lt_length
  have hNe : f.id ≠ c := by
    intro hSame
    rw [hSame] at hBelow
    exact hSound.fits.acyclic c (.direct hBelow)
  rw [hSound.fits.ancestry_eq c hLt]
  rcases Nat.exists_eq_add_one_of_ne_zero
      (Nat.ne_zero_of_lt hLt) with
    ⟨count, hCount⟩
  rw [hCount]
  exact Supertypes.ancestry_of_supertypes_eq_singleton hOne
    (hSound.ofTypes_eq_nil_of_function hNone hType
      hFunction) hNe count

end Kept

end Program.Sound

------------------------------------------------------------
-- Programs Without Errors
------------------------------------------------------------

/-
  Take a program that is checked without errors and a
  function type of it.  The type is an interface, not
  exported with its members, with one abstract method and
  nothing above it.  Right below it are classes that list it
  alone and extend nothing, are not exported with their
  members either, and have nothing below them.  So a type
  inherits from it exactly when it lists it.
-/
theorem function_type_has_one_level_below
    {draft : Draft}
    {p : Program}
    (hBuild : draft.build = .ok p)
    {settings : Settings}
    {outcome : Outcome}
    (hCheck : p.check settings = .ok outcome)
    (hSilent : outcome.log.errors = [])
    {f : TypeNode}
    (hType : p.HasType f)
    (hFunction : f.decl.isJsFunction) :
    f.decl.isInterface ∧ ¬ f.decl.isJsType ∧
    (∃ m, (p.declaredBy f).filter (fun m =>
      !m.decl.isStatic && m.decl.isAbstract) = [m]) ∧
    p.hierarchy.ancestry f.id = [f.id] ∧
    (∀ c ∈ p.hierarchy.subtypes f.id,
      ∃ d, p.types[c]? = some d ∧
        ¬ d.isInterface ∧ ¬ d.isJsType ∧
        d.interfaces = [f.id] ∧ d.superClass = none ∧
        p.hierarchy.ancestry c = [c, f.id] ∧
        p.hierarchy.subtypes c = []) ∧
    ∀ t, p.hierarchy.isAncestor f.id t ↔
      ∃ d, p.types[t]? = some d ∧ f.id ∈ d.interfaces := by
  have hSound := Program.sound_of_build hBuild
  rcases Program.check_eq_ok_iff.mp hCheck with
    ⟨v, naming, property, contract, usability, hFinds, rfl⟩
  have hNone : p.contractFindings = .ok [] := by
    rw [hFinds.contract_eq, hFinds.contract_eq_nil hSilent]
  have hSubtypes := Hierarchy.mem_subtypes_iff_of_ofTypes?
    hSound.hierarchy_eq
  rcases hSound.function_kept hNone hType hFunction with
    ⟨hInterface, hPlain, _, hOne⟩
  refine ⟨hInterface,
    by rw [hPlain]; exact Bool.false_ne_true,
    List.length_eq_one_iff.mp hOne, ?_, ?_, ?_⟩
  · rw [hSound.fits.ancestry_eq f.id hType.lt_length]
    exact Supertypes.ancestry_of_supertypes_eq_nil
      (hSound.ofTypes_eq_nil_of_function hNone hType
        hFunction) _
  · intro c hc
    have hBelow := (hSubtypes f.id c).mp hc
    rcases hSound.implementation_of_mem_ofTypes hNone hType
        hFunction hBelow with
      ⟨d, hFound, _, hClass, hOther, hSuper, hInterfaces⟩
    refine ⟨d, hFound,
      by rw [hClass]; exact Bool.false_ne_true,
      by rw [hOther]; exact Bool.false_ne_true,
      hInterfaces, hSuper,
      hSound.ancestry_eq_of_implementation hNone hType
        hFunction hBelow, ?_⟩
    apply List.eq_nil_iff_forall_not_mem.mpr
    intro t ht
    exact hSound.not_mem_ofTypes_of_implementation hNone
      hType hFunction hBelow t ((hSubtypes c t).mp ht)
  · intro t
    rw [hSound.fits.isAncestor_iff,
      ← hSound.mem_interfaces_of_mem_ofTypes hType hInterface]
    exact ⟨hSound.mem_ofTypes_of_inherits hNone hType
      hFunction, Inherits.direct⟩

------------------------------------------------------------
-- A Sample Function Type
------------------------------------------------------------

/- A callback, a click that implements it, and a button. -/
def Draft.callback : Draft :=
  ⟨[.plain "Callback" .interfaceKind ⟨false, false, true⟩
      [0],
    { TypeDecl.plain "Click" .classKind .none [1] with
      interfaces := [0] },
    .plain "Button" .classKind .none []],
  [.plain "call" 0
      (.callable ⟨.method .void, [], true, .empty⟩)
      .untagged,
    .plain "call" 1 (.plain (.method .void) [] .empty)
      .untagged]⟩

/- The click is the one type below the callback. -/
theorem callback_has_click_below :
    ∃ p outcome f, Draft.callback.build = .ok p ∧
      p.check Settings.standard = .ok outcome ∧
      outcome.log.errors = [] ∧ p.HasType f ∧
      f.decl.isJsFunction ∧
      p.hierarchy.ancestry f.id = [f.id] ∧
      p.hierarchy.subtypes f.id = [1] ∧
      p.hierarchy.ancestry 1 = [1, f.id] ∧
      p.hierarchy.subtypes 1 = [] ∧
      p.hierarchy.isAncestor f.id 1 ∧
      ¬ p.hierarchy.isAncestor f.id 2 := by
  have hBuilt : ∃ p, Draft.callback.build = .ok p :=
    ⟨_, rfl⟩
  rcases hBuilt with ⟨p, hBuild⟩
  rcases Draft.build_eq_ok_iff.mp hBuild with
    ⟨_, _, hTypes, _⟩
  have hCallback : p.HasType ⟨0, Draft.callback.types[0]⟩ := by
    unfold Program.HasType
    rw [hTypes]
    rfl
  rcases (Program.sound_of_build hBuild).check_succeeds
      Settings.standard with
    ⟨outcome, hCheck⟩
  have hSilent : outcome.log.errors = [] :=
    Draft.eq_of_map_check_eq_some hBuild hCheck
      (fun o => o.log.errors) (by decide +kernel)
  have hBelow :
      Draft.callback.build.toOption.map
          (fun p => p.hierarchy.subtypes 0) =
        some [1] := by
    decide +kernel
  rw [hBuild] at hBelow
  have hSubtypes : p.hierarchy.subtypes 0 = [1] :=
    Option.some.inj hBelow
  rcases function_type_has_one_level_below hBuild hCheck
      hSilent hCallback rfl with
    ⟨_, _, _, hAlone, hEach, hAncestor⟩
  have hClick : (1 : TypeId) ∈ p.hierarchy.subtypes 0 := by
    rw [hSubtypes]
    exact List.mem_cons_self
  rcases hEach 1 hClick with
    ⟨click, hFound, _, _, hListed, _, hAncestry, hLast⟩
  refine ⟨p, outcome, _, hBuild, hCheck, hSilent, hCallback,
    rfl, hAlone, hSubtypes, hAncestry, hLast, ?_, ?_⟩
  · apply (hAncestor 1).mpr
    refine ⟨click, hFound, ?_⟩
    rw [hListed]
    exact List.mem_cons_self
  · intro hButton
    rcases (hAncestor 2).mp hButton with ⟨d, hFound', hIn⟩
    rw [hTypes] at hFound'
    cases hFound'
    cases hIn

end JsExport
