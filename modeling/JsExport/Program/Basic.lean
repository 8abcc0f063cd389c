import JsExport.Program.Hierarchy
import JsExport.Program.Validation

/-
  Programs, and what their numbers stand for.

  A program is a draft without defects together with the
  hierarchy of its types.  A number is looked up once, where
  it is written; the answer is a node, which holds the
  declaration, and for a member also its owner.

  Key definitions include:
    * `Program`
    * `Draft.build`
    * `TypeNode`
    * `MemberNode`
    * `LookupError`
    * `Program.type`
    * `Program.member`
    * `Program.declaredBy`
    * `Program.lineage`
-/

namespace JsExport

------------------------------------------------------------
-- Programs
------------------------------------------------------------

/- Declarations that fit together, and their hierarchy. -/
structure Program where
  types : List TypeDecl
  members : List MemberDecl
  hierarchy : Hierarchy
deriving DecidableEq, Repr

/-
  The program of a draft.  The first defect of a draft is
  the reason to refuse it; a cycle of types is looked for
  last.
-/
def Draft.build
    (p : Draft) : Except Defect Program :=
  match p.defects.head? with
  | some defect => .error defect
  | none =>
      match Hierarchy.ofTypes? p.types with
      | .error defect => .error defect
      | .ok hierarchy => .ok ⟨p.types, p.members, hierarchy⟩

------------------------------------------------------------
-- Nodes
------------------------------------------------------------

/- A type with its number. -/
structure TypeNode where
  id : TypeId
  decl : TypeDecl
deriving DecidableEq, Repr

/- A member with its number and its owner. -/
structure MemberNode where
  id : MemberId
  decl : MemberDecl
  owner : TypeNode
deriving DecidableEq, Repr

/- Why a number stands for nothing. -/
inductive LookupError
| unknownType (id : TypeId)
| unknownMember (id : MemberId)
| ownerlessMember (id : MemberId) (name : String)
deriving DecidableEq, Repr

/- The message of a failed lookup. -/
def LookupError.message : LookupError → String
| .unknownType id =>
    s!"internal error: unknown {TypeId.text id}"
| .unknownMember id =>
    s!"internal error: unknown {MemberId.text id}"
| .ownerlessMember id name =>
    s!"internal error: member '{name}' " ++
      s!"({MemberId.text id}) has no owning type"

namespace Program

/- The type with a number. -/
def type
    (p : Program)
    (t : TypeId) : Except LookupError TypeNode :=
  match p.types[t]? with
  | some d => .ok ⟨t, d⟩
  | none => .error (.unknownType t)

/- The declaration of the member with a number. -/
def memberDecl
    (p : Program)
    (m : MemberId) : Except LookupError MemberDecl :=
  match p.members[m]? with
  | some d => .ok d
  | none => .error (.unknownMember m)

/- The number of the owner of a member. -/
def ownerId
    (p : Program)
    (m : MemberId) : Except LookupError TypeId := do
  let d ← p.memberDecl m
  match d.owner with
  | some t => return t
  | none => throw (.ownerlessMember m d.name)

/- The member with a number. -/
def member
    (p : Program)
    (m : MemberId) : Except LookupError MemberNode := do
  let d ← p.memberDecl m
  let t ← p.ownerId m
  let owner ← p.type t
  return ⟨m, d, owner⟩

/- A type is found where its declaration stands. -/
theorem type_eq_ok_iff
    (p : Program)
    (t : TypeId)
    (node : TypeNode) :
    p.type t = .ok node ↔
      node.id = t ∧ p.types[t]? = some node.decl := by
  unfold type
  cases hType : p.types[t]? with
  | none => simp
  | some d =>
      rcases node with ⟨id, decl⟩
      simp [eq_comm]

/-
  A member is found where its declaration stands, with the
  owner that it names.
-/
theorem member_eq_ok_iff
    (p : Program)
    (m : MemberId)
    (node : MemberNode) :
    p.member m = .ok node ↔
      node.id = m ∧ p.members[m]? = some node.decl ∧
        node.decl.owner = some node.owner.id ∧
          p.types[node.owner.id]? =
            some node.owner.decl := by
  rcases node with ⟨id, decl, ⟨ownerId, ownerDecl⟩⟩
  unfold member Program.ownerId memberDecl
  cases hMember : p.members[m]? with
  | none => simp [bind, Except.bind]
  | some d =>
      cases hOwner : d.owner with
      | none =>
          simp only [bind, Except.bind, throw,
            throwThe, MonadExceptOf.throw, hOwner]
          simp only [reduceCtorEq, false_iff]
          rintro ⟨_, hDecl, hSame, _⟩
          cases hDecl
          rw [hOwner] at hSame
          cases hSame
      | some t =>
          simp only [bind, Except.bind, pure, Except.pure,
            hOwner]
          cases hType : p.type t with
          | error e =>
              simp only [reduceCtorEq, false_iff]
              rintro ⟨_, hDecl, hSame, hFound⟩
              cases hDecl
              rw [hOwner] at hSame
              cases hSame
              have hOk := (p.type_eq_ok_iff ownerId
                ⟨ownerId, ownerDecl⟩).mpr ⟨rfl, hFound⟩
              rw [hOk] at hType
              cases hType
          | ok owner =>
              have hFound :=
                (p.type_eq_ok_iff t owner).mp hType
              rcases owner with ⟨oid, odecl⟩
              rcases hFound with ⟨rfl, hDecl⟩
              constructor
              · intro hEq
                cases hEq
                exact ⟨rfl, rfl, hOwner, hDecl⟩
              · rintro ⟨rfl, hSame, hOwn, hType'⟩
                cases hSame
                rw [hOwner] at hOwn
                cases hOwn
                rw [hDecl] at hType'
                cases hType'
                rfl

/- All types, by number. -/
def typeNodes
    (p : Program) : List TypeNode :=
  p.types.zipIdx.map (fun (d, t) => ⟨t, d⟩)

/- All members, by number. -/
def memberNodes
    (p : Program) :
    Except LookupError (List MemberNode) :=
  (List.range p.members.length).mapM p.member

/- The first type with a qualified name. -/
def typeNamed?
    (p : Program)
    (name : String) : Option TypeId :=
  p.types.findIdx? (fun d => d.qualifiedName == name)

/- The qualified name of a type, or else its number. -/
def typeName
    (p : Program)
    (t : TypeId) : String :=
  match p.types[t]? with
  | some d => d.qualifiedName
  | none => TypeId.text t

------------------------------------------------------------
-- Members And Supertypes Of A Type
------------------------------------------------------------

/- The members that a type lists, in its order. -/
def declaredBy
    (p : Program)
    (t : TypeNode) : List MemberNode :=
  t.decl.members.filterMap (fun m =>
    p.members[m]?.map (fun d => ⟨m, d, t⟩))

/- The members of a type are those that it lists. -/
theorem mem_declaredBy_iff
    (p : Program)
    (t : TypeNode)
    (node : MemberNode) :
    node ∈ p.declaredBy t ↔
      node.id ∈ t.decl.members ∧ node.owner = t ∧
        p.members[node.id]? = some node.decl := by
  unfold declaredBy
  rw [List.mem_filterMap]
  constructor
  · rintro ⟨m, hListed, hNode⟩
    rcases Option.map_eq_some_iff.mp hNode with
      ⟨d, hDecl, rfl⟩
    exact ⟨hListed, rfl, hDecl⟩
  · rintro ⟨hListed, rfl, hDecl⟩
    refine ⟨node.id, hListed, ?_⟩
    rw [hDecl]
    rfl

/- The interfaces that a type lists, in its order. -/
def interfacesOf
    (p : Program)
    (t : TypeNode) :
    Except LookupError (List TypeNode) :=
  t.decl.interfaces.mapM p.type

/- A type and all that it inherits from, nearest first. -/
def lineage
    (p : Program)
    (t : TypeId) : Except LookupError (List TypeNode) :=
  (p.hierarchy.ancestry t).mapM p.type

end Program

end JsExport
