import JsExport.Export.View
import JsExport.Report.Finding

/-
  Exported constructors.

  JavaScript has one constructor for a type, so at most one
  is exported and the others have to reach it by calling one
  another.

  Key definitions include:
    * `Program.reachesConstructor`
    * `ExportView.constructorFindings`
    * `ExportView.constructors`
-/

namespace JsExport

------------------------------------------------------------
-- Chains Of Constructors
------------------------------------------------------------

namespace Program

/-
  Whether a constructor reaches another one of its type by
  at most the given number of calls.
-/
def reachesWithin
    (p : Program)
    (primary : MemberNode) :
    Nat → MemberNode → Except LookupError Bool
| 0, _ => .ok false
| calls + 1, c =>
    match c.decl.delegatesTo with
    | none => .ok false
    | some target => do
        let next ← p.member target
        if next.owner.id != primary.owner.id then
          return false
        else if next.id == primary.id then
          return true
        else
          p.reachesWithin primary calls next

/-
  Whether a constructor reaches another one of its type.
  Without a repetition there are no more calls in a chain
  than members in the program.
-/
def reachesConstructor
    (p : Program)
    (primary c : MemberNode) : Except LookupError Bool :=
  p.reachesWithin primary p.members.length c

end Program

------------------------------------------------------------
-- Reports
------------------------------------------------------------

namespace ExportView

/- Whether a member is exported as a constructor. -/
def isJsConstructor
    (v : ExportView)
    (m : MemberNode) : Bool :=
  (v.identity? m).any
    (fun identity => decide (identity.role = .constructor))

/- The constructors that do not reach the exported one. -/
def strandedConstructors
    (v : ExportView)
    (primary : MemberNode)
    (constructors : List MemberNode) :
    Except LookupError (List MemberNode) :=
  constructors.filterM (fun c =>
    if c.id == primary.id then return false
    else return !(← v.program.reachesConstructor primary c))

/- The reports on the constructors of one type. -/
def constructorFindings
    (v : ExportView)
    (t : TypeNode) : Except LookupError (List Finding) :=
  let constructors := (v.program.declaredBy t).filter
    (fun m => m.decl.isConstructor)
  match constructors.filter v.isJsConstructor with
  | [] => return []
  | [primary] => do
      let stranded ←
        v.strandedConstructors primary constructors
      return stranded.map (fun c =>
        (Finding.ofMember primary
          (.constructorNotReached
            (v.signature primary))).about (.member c.id))
  | _ =>
      return [Finding.ofType t
        (.severalJsConstructors t.decl.qualifiedName)]

/- The reports on exported constructors. -/
def constructors
    (v : ExportView) : Except LookupError (List Finding) :=
  return (← (v.types.filter
    (fun t => !t.decl.isNative)).mapM
      v.constructorFindings).flatten

end ExportView

end JsExport
