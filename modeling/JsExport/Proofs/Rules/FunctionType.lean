import JsExport.Proofs.Check.Severity
import JsExport.Proofs.Check.Success

/-
  What the contracts of function types come to.

  When no contract is broken, a function type is an
  interface with one abstract method and nothing above it; a
  type that lists one is a class with no other supertype;
  and no class extends such a class.

  Main declarations:
    * `Program.mem_roles`
    * `Program.contract_eq_nil`
    * `Program.Sound.function_kept`
    * `Program.Sound.implementation_kept`
    * `Program.Sound.nearestImplementation?_eq_none`
-/

namespace JsExport

open Lookup

------------------------------------------------------------
-- Roles And Contracts
------------------------------------------------------------

theorem reportIf_eq_nil_iff
    {condition : Bool}
    {t : TypeNode}
    {breach : Breach} :
    reportIf condition t breach = [] ↔
      condition = false := by
  unfold reportIf
  cases condition <;> simp

namespace Program

variable {p : Program}
variable {t : TypeNode}

/- The roles around function types, one by one. -/
theorem mem_roles
    {implements : Bool}
    {nearest : Option TypeNode}
    (hImplements :
      p.implementsFunction t = .ok implements)
    (hNearest :
      p.nearestImplementation? t = .ok nearest) :
    ∃ roles, p.roles t = .ok roles ∧
      (t.decl.isJsFunction → .function ∈ roles) ∧
      (implements → t.decl.isInterface →
        .functionSubtype ∈ roles) ∧
      (implements → ¬ t.decl.isInterface →
        .implementation ∈ roles) ∧
      (nearest.isSome →
        .implementationSubtype ∈ roles) := by
  unfold roles
  rw [hImplements, hNearest]
  refine ⟨_, rfl, ?_, ?_, ?_, ?_⟩
  · intro hFunction
    simp [hFunction]
  · intro hHolds hInterface
    simp [hHolds, hInterface]
  · intro hHolds hClass
    simp [hHolds, hClass]
  · intro hSome
    simp [hSome]

/- Without reports every contract of a role is kept. -/
theorem contract_eq_nil
    (hNone : p.contractFindings = .ok [])
    (hType : p.HasType t)
    {roles : List TypeRole}
    (hRoles : p.roles t = .ok roles)
    {c : Contract}
    (hContract : c ∈ contracts)
    (hRole : c.role ∈ roles) :
    c.findings p t = .ok [] := by
  rcases bind_eq_ok_iff.mp hNone with ⟨lists, hLists, hEq⟩
  have hHere := eq_nil_of_flatten_eq_nil hLists
    (Except.ok.inj hEq) (mem_typeNodes_iff.mpr hType)
  rcases bind_eq_ok_iff.mp hHere with
    ⟨roles', hRoles', hRest⟩
  rw [hRoles] at hRoles'
  cases hRoles'
  rcases bind_eq_ok_iff.mp hRest with ⟨each, hEach, hEq⟩
  exact eq_nil_of_flatten_eq_nil hEach (Except.ok.inj hEq)
    (List.mem_filter.mpr
      ⟨hContract, List.contains_iff_mem.mpr hRole⟩)

------------------------------------------------------------
-- Kept Contracts
------------------------------------------------------------

namespace Sound

variable (hSound : p.Sound)
variable (hNone : p.contractFindings = .ok [])

include hSound

/- A type that lists a function type implements it. -/
theorem implementsFunction_eq_true
    (hType : p.HasType t)
    {f : TypeNode}
    (hAbove : p.HasType f)
    (hFunction : f.decl.isJsFunction)
    (hListed : f.id ∈ t.decl.interfaces) :
    p.implementsFunction t = .ok true := by
  rcases hSound.interfacesOf_succeeds hType with
    ⟨interfaces, hInterfaces⟩
  apply bind_eq_ok_iff.mpr
  refine ⟨interfaces, hInterfaces, ?_⟩
  apply congrArg Except.ok
  apply List.any_eq_true.mpr
  exact ⟨f, (mem_of_mapM_eq_ok hInterfaces).mpr
    ⟨f.id, hListed, type_eq_ok_iff_hasType.mpr
      ⟨rfl, hAbove⟩⟩, hFunction⟩

include hNone

/- The contracts of a function type. -/
theorem function_kept
    (hType : p.HasType t)
    (hFunction : t.decl.isJsFunction) :
    t.decl.isInterface ∧ t.decl.isJsType = false ∧
      t.decl.interfaces = [] ∧
        (FunctionType.abstractMethods p t).length = 1 := by
  rcases hSound.implementsFunction_succeeds hType with
    ⟨implements, hImplements⟩
  rcases hSound.nearestImplementation?_succeeds hType with
    ⟨nearest, hNearest⟩
  rcases mem_roles hImplements hNearest with
    ⟨roles, hRoles, hRole, _⟩
  have hShape : FunctionType.shape p t = [] :=
    Except.ok.inj (contract_eq_nil hNone hType hRoles
      (List.mem_of_getElem? (rfl : contracts[0]? = some _))
      (hRole hFunction))
  have hAbove : FunctionType.noSupertypes t = [] :=
    Except.ok.inj (contract_eq_nil hNone hType hRoles
      (List.mem_of_getElem? (rfl : contracts[1]? = some _))
      (hRole hFunction))
  have hPlain : FunctionType.notJsType t = [] :=
    Except.ok.inj (contract_eq_nil hNone hType hRoles
      (List.mem_of_getElem? (rfl : contracts[3]? = some _))
      (hRole hFunction))
  rcases Bool.or_eq_false_iff.mp
      (reportIf_eq_nil_iff.mp hShape) with
    ⟨hInterface, hOne⟩
  have hInterface' : t.decl.isInterface = true := by
    simpa using hInterface
  have hEmpty := reportIf_eq_nil_iff.mp hAbove
  rw [hInterface', Bool.true_and] at hEmpty
  exact ⟨hInterface', reportIf_eq_nil_iff.mp hPlain,
    by simpa using hEmpty, by simpa using hOne⟩

/- A type that implements a function type is a class. -/
theorem implementation_isInterface_eq_false
    (hType : p.HasType t)
    (hImplements : p.implementsFunction t = .ok true) :
    t.decl.isInterface = false := by
  rcases hSound.nearestImplementation?_succeeds hType with
    ⟨nearest, hNearest⟩
  rcases mem_roles hImplements hNearest with
    ⟨roles, hRoles, _, hRole, _⟩
  apply Bool.eq_false_iff.mpr
  intro hInterface
  have hKept : FunctionType.notExtended p t = .ok [] :=
    contract_eq_nil hNone hType hRoles
      (List.mem_of_getElem? (rfl : contracts[4]? = some _))
      (hRole rfl hInterface)
  rcases bind_eq_ok_iff.mp hImplements with
    ⟨interfaces, hInterfaces, hAny⟩
  rcases List.any_eq_true.mp (Except.ok.inj hAny) with
    ⟨f, hf, hFunction⟩
  rcases bind_eq_ok_iff.mp hKept with
    ⟨interfaces', hInterfaces', hEq⟩
  rw [hInterfaces] at hInterfaces'
  cases hInterfaces'
  have hHere := List.flatMap_eq_nil_iff.mp
    (Except.ok.inj hEq) f hf
  rw [reportIf_eq_nil_iff, hFunction] at hHere
  cases hHere

/- The contracts of an implementation. -/
theorem implementation_kept
    (hType : p.HasType t)
    (hImplements : p.implementsFunction t = .ok true) :
    t.decl.isInterface = false ∧
      t.decl.isJsType = false ∧
        t.decl.superClass = none ∧
          t.decl.interfaces.length ≤ 1 := by
  have hClass := hSound.implementation_isInterface_eq_false
    hNone hType hImplements
  rcases hSound.nearestImplementation?_succeeds hType with
    ⟨nearest, hNearest⟩
  rcases mem_roles hImplements hNearest with
    ⟨roles, hRoles, _, _, hHolds, _⟩
  have hRole : TypeRole.implementation ∈ roles :=
    hHolds rfl (by rw [hClass]; exact Bool.false_ne_true)
  have hOne : Implementation.oneInterface t = [] :=
    Except.ok.inj (contract_eq_nil hNone hType hRoles
      (List.mem_of_getElem? (rfl : contracts[5]? = some _))
      hRole)
  have hSuper : Implementation.noSuperclass t = [] :=
    Except.ok.inj (contract_eq_nil hNone hType hRoles
      (List.mem_of_getElem? (rfl : contracts[6]? = some _))
      hRole)
  have hPlain : Implementation.notJsType t = [] :=
    Except.ok.inj (contract_eq_nil hNone hType hRoles
      (List.mem_of_getElem? (rfl : contracts[7]? = some _))
      hRole)
  exact ⟨hClass, reportIf_eq_nil_iff.mp hPlain,
    by simpa using reportIf_eq_nil_iff.mp hSuper,
    by simpa using reportIf_eq_nil_iff.mp hOne⟩

/- No class is below an implementation. -/
theorem nearestImplementation?_eq_none
    (hType : p.HasType t) :
    p.nearestImplementation? t = .ok none := by
  rcases hSound.implementsFunction_succeeds hType with
    ⟨implements, hImplements⟩
  rcases hSound.nearestImplementation?_succeeds hType with
    ⟨nearest, hNearest⟩
  rcases mem_roles hImplements hNearest with
    ⟨roles, hRoles, _, _, _, hRole⟩
  cases nearest with
  | none => exact hNearest
  | some above =>
      have hKept :
          Implementation.notExtended p t = .ok [] :=
        contract_eq_nil hNone hType hRoles
          (List.mem_of_getElem?
            (rfl : contracts[8]? = some _)) (hRole rfl)
      unfold Implementation.notExtended at hKept
      rw [hNearest] at hKept
      cases hKept

/- A superclass is no implementation of a function type. -/
theorem not_implements_of_superClass
    (hType : p.HasType t)
    {above : TypeNode}
    (hAbove : p.HasType above)
    (hSuper : t.decl.superClass = some above.id) :
    p.implementsFunction above ≠ .ok true := by
  intro hImplements
  have hClass := hSound.implementation_isInterface_eq_false
    hNone hAbove hImplements
  have hFound :
      p.nearestImplementation? t = .ok (some above) := by
    unfold nearestImplementation?
    rcases Nat.exists_eq_add_one_of_ne_zero
        (Nat.ne_zero_of_lt hType.lt_length) with
      ⟨classes, hClasses⟩
    rw [hClasses]
    unfold implementationWithin
    rw [hSuper]
    apply bind_eq_ok_iff.mpr
    refine ⟨above, type_eq_ok_iff_hasType.mpr
      ⟨rfl, hAbove⟩, ?_⟩
    apply bind_eq_ok_iff.mpr
    refine ⟨true, hImplements, ?_⟩
    rw [hClass]
    rfl
  rw [hSound.nearestImplementation?_eq_none hNone hType]
    at hFound
  cases hFound

end Sound

end Program

end JsExport
