import JsExport.Decl.Type
import JsExport.Listing.First
import JsExport.Program.Defect
import JsExport.Program.Walk

/-
  The hierarchy of types.

  The ancestry of a type goes up level by level: a level has
  the supertypes of the level below that are on no level so
  far.  So every type stands at the length of the shortest
  way up to it.

  Key definitions include:
    * `Supertypes.nextLevel`
    * `Supertypes.ancestry`
    * `Hierarchy`
    * `Hierarchy.ofTypes?`
    * `Hierarchy.ancestry`
    * `Hierarchy.isAncestor`
    * `Hierarchy.subtypes`
-/

namespace JsExport

------------------------------------------------------------
-- Supertypes And Ancestries
------------------------------------------------------------

namespace Supertypes

/- The supertypes of each of the given types. -/
def ofTypes
    (types : List TypeDecl)
    (t : TypeId) : List TypeId :=
  (types[t]?.map TypeDecl.supertypes).getD []

/- The types that directly extend or implement a type. -/
def subtypes
    (types : List TypeDecl)
    (t : TypeId) : List TypeId :=
  (types.zipIdx.filter
    (fun e => decide (t ∈ e.1.supertypes))).map
      (fun e => e.2)

/-
  The supertypes of the types of a level that are not found
  so far, each once.
-/
def nextLevel
    (supertypes : TypeId → List TypeId)
    (found : List TypeId)
    (level : List TypeId) : List TypeId :=
  Listing.distinct
    ((level.flatMap supertypes).filter
      (fun t => decide (t ∉ found)))

/- The types of as many levels above one as given. -/
def levelsAbove
    (supertypes : TypeId → List TypeId) :
    Nat → List TypeId → List TypeId → List TypeId
| 0, _, _ => []
| n + 1, found, level =>
    let next := nextLevel supertypes found level
    next ++ levelsAbove supertypes n (next ++ found) next

/-
  A type and all that it inherits from, nearest first.  A
  shortest way up meets no type twice, so there are no more
  levels than types.
-/
def ancestry
    (supertypes : TypeId → List TypeId)
    (count : Nat)
    (t : TypeId) : List TypeId :=
  t :: levelsAbove supertypes count [t] [t]

end Supertypes

------------------------------------------------------------
-- Hierarchies
------------------------------------------------------------

/-
  The order that puts supertypes first, and for each type
  its ancestry and its direct subtypes.
-/
structure Hierarchy where
  order : List TypeId
  ancestries : List (List TypeId)
  subtypeLists : List (List TypeId)
deriving DecidableEq, Repr

namespace Hierarchy

/- The supertypes that are not among the types. -/
def strays
    (types : List TypeDecl) : List Defect :=
  types.flatMap (fun d =>
    (d.supertypes.filter (fun s => types.length ≤ s)).map
      (fun s =>
        .unknownType s (.supertypesOf d.qualifiedName)))

/- The hierarchy of types whose supertypes are all known. -/
def ofKnown
    (types : List TypeDecl)
    (order : List TypeId) : Hierarchy :=
  let ids := List.range types.length
  ⟨order,
    ids.map (Supertypes.ancestry
      (Supertypes.ofTypes types) types.length),
    ids.map (Supertypes.subtypes types)⟩

/-
  The hierarchy of a list of types.  It is refused when a
  supertype is unknown or a type inherits from itself.
-/
def ofTypes?
    (types : List TypeDecl) : Except Defect Hierarchy :=
  let supertypes := Supertypes.ofTypes types
  let walk := Walk.all supertypes types.length
  match (strays types).head? with
  | some defect => .error defect
  | none =>
      match Walk.cyclic? supertypes
          (Supertypes.subtypes types) walk with
      | some t =>
          .error (.inheritanceCycle
            ((types[t]?.map
              (fun d => d.qualifiedName)).getD ""))
      | none => .ok (ofKnown types walk.left)

/- The number of types. -/
def size
    (h : Hierarchy) : Nat :=
  h.ancestries.length

/- A type and all that it inherits from, nearest first. -/
def ancestry
    (h : Hierarchy)
    (t : TypeId) : List TypeId :=
  h.ancestries[t]?.getD []

/- All that a type inherits from, nearest first. -/
def strictAncestry
    (h : Hierarchy)
    (t : TypeId) : List TypeId :=
  (h.ancestry t).tail

/- Whether `t` inherits from `a`, directly or not. -/
def isAncestor
    (h : Hierarchy)
    (a t : TypeId) : Bool :=
  decide (a ∈ h.strictAncestry t)

/- Whether `a` is `t` or `t` inherits from it. -/
def isAncestorOrSelf
    (h : Hierarchy)
    (a t : TypeId) : Bool :=
  a == t || h.isAncestor a t

/- Whether one of two types inherits from the other. -/
def isComparable
    (h : Hierarchy)
    (a b : TypeId) : Bool :=
  h.isAncestorOrSelf a b || h.isAncestor b a

/- The types that directly extend or implement a type. -/
def subtypes
    (h : Hierarchy)
    (t : TypeId) : List TypeId :=
  h.subtypeLists[t]?.getD []

end Hierarchy

end JsExport
