import JsExport.Rules.NativeType
import JsExport.Rules.Overlay

/-
  The rules that each role of a type carries.

  Key definitions include:
    * `Contract`
    * `contracts`
    * `Program.typeFindings`
    * `Program.contractFindings`
-/

namespace JsExport

------------------------------------------------------------
-- Contracts
------------------------------------------------------------

/- A rule for the types of one role. -/
structure Contract where
  role : TypeRole
  findings :
    Program → TypeNode → Except LookupError (List Finding)

/- All rules for roles, in the order of their reports. -/
def contracts : List Contract :=
  [⟨.function,
      fun p t => return FunctionType.shape p t⟩,
   ⟨.function,
      fun _ t => return FunctionType.noSupertypes t⟩,
   ⟨.function,
      fun p t => return FunctionType.noStaticCode p t⟩,
   ⟨.function,
      fun _ t => return FunctionType.notJsType t⟩,
   ⟨.functionSubtype, FunctionType.notExtended⟩,
   ⟨.implementation,
      fun _ t => return Implementation.oneInterface t⟩,
   ⟨.implementation,
      fun _ t => return Implementation.noSuperclass t⟩,
   ⟨.implementation,
      fun _ t => return Implementation.notJsType t⟩,
   ⟨.implementationSubtype, Implementation.notExtended⟩,
   ⟨.native, fun _ t => return NativeType.notEnum t⟩,
   ⟨.native, fun p t => return NativeType.inView p t⟩,
   ⟨.native, fun p t => return NativeType.noStaticCode p t⟩,
   ⟨.native,
      fun p t => return NativeType.noConstructorCode p t⟩,
   ⟨.overlaying, Overlay.additive⟩,
   ⟨.any, NativeType.notTested⟩]

------------------------------------------------------------
-- Reports
------------------------------------------------------------

namespace Program

/- The reports on one type in all its roles. -/
def typeFindings
    (p : Program)
    (t : TypeNode) :
    Except LookupError (List Finding) := do
  let roles ← p.roles t
  let binding := contracts.filter
    (fun c => roles.contains c.role)
  return (← binding.mapM (fun c => c.findings p t)).flatten

/- The reports on all types. -/
def contractFindings
    (p : Program) : Except LookupError (List Finding) :=
  return (← p.typeNodes.mapM p.typeFindings).flatten

end Program

end JsExport
