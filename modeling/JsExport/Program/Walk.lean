import JsExport.Decl.TypeExpr

/-
  Depth-first walks up the supertypes.

  A walk enters every type in order of its number, and from
  each type it first goes through the supertypes that it has
  not entered yet.  It leaves a type after them, so in a
  hierarchy without cycles the order of leaving puts every
  type behind its supertypes.

  The walk keeps an agenda of what to do next.  Each type is
  entered once and puts its supertypes and its own leaving
  on the agenda, which bounds the number of steps.

  Key definitions include:
    * `Walk`
    * `Walk.step`
    * `Walk.steps`
    * `Walk.all`
    * `Walk.misplaced?`
-/

namespace JsExport

------------------------------------------------------------
-- Walks
------------------------------------------------------------

/- What a walk does next with a type. -/
inductive Visit
| enter (t : TypeId)
| leave (t : TypeId)
deriving DecidableEq, Repr

/- What is to do, and the types entered and left so far. -/
structure Walk where
  agenda : List Visit
  entered : List TypeId
  left : List TypeId
deriving DecidableEq, Repr

namespace Walk

/- A walk that has all of `count` types before it. -/
def start
    (count : Nat) : Walk :=
  ⟨(List.range count).map Visit.enter, [], []⟩

/- Do the next thing on the agenda. -/
def step
    (supertypes : TypeId → List TypeId)
    (w : Walk) : Walk :=
  match w.agenda with
  | [] => w
  | .leave t :: rest => ⟨rest, w.entered, w.left ++ [t]⟩
  | .enter t :: rest =>
      if t ∈ w.entered then
        ⟨rest, w.entered, w.left⟩
      else
        ⟨(supertypes t).map Visit.enter ++ .leave t :: rest,
          w.entered ++ [t], w.left⟩

/- Do as many things as given. -/
def steps
    (supertypes : TypeId → List TypeId) : Nat → Walk → Walk
| 0, w => w
| n + 1, w => steps supertypes n (w.step supertypes)

/-
  The number of things to do for `count` types: each is on
  the agenda at the start and once to be left, and each
  mention as a supertype puts it there again.
-/
def length
    (supertypes : TypeId → List TypeId)
    (count : Nat) : Nat :=
  2 * count +
    ((List.range count).flatMap supertypes).length

/- The whole walk over `count` types. -/
def all
    (supertypes : TypeId → List TypeId)
    (count : Nat) : Walk :=
  steps supertypes (length supertypes count) (start count)

------------------------------------------------------------
-- Cycles
------------------------------------------------------------

/- The first type entered that is its own supertype. -/
def selfSupertype?
    (supertypes : TypeId → List TypeId)
    (w : Walk) : Option TypeId :=
  w.entered.find? (fun t => decide (t ∈ supertypes t))

/-
  A subtype that does not come before its supertype in a
  list that should have all subtypes first.  The list is
  read from its start, with the types `seen` before it.
-/
def misplaced?
    (subtypes : TypeId → List TypeId)
    (seen : List TypeId) : List TypeId → Option TypeId
| [] => none
| t :: rest =>
    match (subtypes t).find?
        (fun s => decide (s ∉ t :: seen)) with
    | some s => some s
    | none => misplaced? subtypes (t :: seen) rest

/-
  A type on a cycle.  A walk that meets no cycle leaves all
  supertypes of a type before the type itself.
-/
def cyclic?
    (supertypes subtypes : TypeId → List TypeId)
    (w : Walk) : Option TypeId :=
  (selfSupertype? supertypes w).or
    (misplaced? subtypes [] w.left.reverse)

end Walk

end JsExport
