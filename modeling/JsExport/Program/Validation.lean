import JsExport.Program.Draft

/-
  The defects of a draft.

  Defects are listed in the order of the declarations, types
  before members, and within a declaration in the order in
  which its references are read.  A draft without defects
  refers to nothing that is not there, and its types and
  members agree on who owns whom.

  Key definitions include:
    * `Draft.superclassDefects`
    * `Draft.interfaceDefects`
    * `Draft.memberListDefects`
    * `Draft.ownerDefects`
    * `Draft.signatureDefects`
    * `Draft.bodyDefects`
    * `Draft.defects`
-/

namespace JsExport

namespace Draft

------------------------------------------------------------
-- Defects Of Types
------------------------------------------------------------

/- Only a class has a superclass, and it is a class. -/
def superclassDefects
    (p : Draft)
    (d : TypeDecl) : List Defect :=
  match d.superClass with
  | none => []
  | some s =>
      if !d.isClass then
        [.superclassRefused d.qualifiedName]
      else
        match p.types[s]? with
        | none =>
            [.unknownType s (.superclassOf d.qualifiedName)]
        | some above =>
            if above.isClass then []
            else
              [.superclassKind d.qualifiedName
                above.qualifiedName]

/- What a type implements is an interface. -/
def interfaceDefects
    (p : Draft)
    (d : TypeDecl) : List Defect :=
  d.interfaces.flatMap (fun t =>
    match p.types[t]? with
    | none =>
        [.unknownType t (.interfacesOf d.qualifiedName)]
    | some above =>
        if above.isInterface then []
        else
          [.listedKind d.qualifiedName
            above.qualifiedName])

/- The members that a type lists name it as their owner. -/
def memberListDefects
    (p : Draft)
    (d : TypeDecl)
    (t : TypeId) : List Defect :=
  d.members.flatMap (fun id =>
    match p.members[id]? with
    | none =>
        [.unknownMember id (.memberListOf d.qualifiedName)]
    | some m =>
        if m.owner = some t then []
        else [.unownedMember id m.name])

/- The defects of one type. -/
def typeDefects
    (p : Draft)
    (d : TypeDecl)
    (t : TypeId) : List Defect :=
  p.superclassDefects d ++
    (p.interfaceDefects d ++ p.memberListDefects d t)

------------------------------------------------------------
-- Defects Of Members
------------------------------------------------------------

/- Whether a type lists a member. -/
def lists
    (p : Draft)
    (t : TypeId)
    (id : MemberId) : Bool :=
  p.types[t]?.any (fun d => d.members.contains id)

/- A member has an owner, and the owner lists it. -/
def ownerDefects
    (p : Draft)
    (m : MemberDecl)
    (id : MemberId) : List Defect :=
  if m.owner.any (fun t => p.lists t id) then []
  else [.unownedMember id m.name]

/- The program's types in a signature are there. -/
def signatureDefects
    (p : Draft)
    (m : MemberDecl) : List Defect :=
  (m.signatureTypes.filterMap TypeExpr.declared?).flatMap
    (fun t =>
      if t < p.types.length then []
      else [.unknownType t (.signatureOf m.name)])

/-
  Whether a member may call a constructor first: it is a
  constructor itself, and not the one that it calls, and
  both have one owner.
-/
def mayDelegate
    (p : Draft)
    (m : MemberDecl)
    (id target : MemberId) : Bool :=
  m.isConstructor &&
    p.members[target]?.any (fun n =>
      decide (n.owner = m.owner) && n.isConstructor &&
        target != id)

/- A constructor delegates to another one of its type. -/
def delegationDefects
    (p : Draft)
    (m : MemberDecl)
    (id : MemberId) : List Defect :=
  match m.delegatesTo with
  | none => []
  | some target =>
      if p.mayDelegate m id target then []
      else
        [.delegationOutside m.name
          (((m.owner.bind (fun t => p.types[t]?)).map
            (fun d => d.qualifiedName)).getD "")]

/- What a body calls and tests against is there. -/
def bodyDefects
    (p : Draft)
    (m : MemberDecl) : List Defect :=
  m.superCalls.flatMap (fun c =>
    if c.target < p.members.length then []
    else [.unknownMember c.target (.superCallIn m.name)]) ++
  m.instanceTests.flatMap (fun c =>
    if c.target < p.types.length then []
    else [.unknownType c.target (.instanceTestIn m.name)])

/- The defects of one member. -/
def memberDefects
    (p : Draft)
    (m : MemberDecl)
    (id : MemberId) : List Defect :=
  p.ownerDefects m id ++
    (p.signatureDefects m ++
      (p.delegationDefects m id ++ p.bodyDefects m))

------------------------------------------------------------
-- Defects Of Drafts
------------------------------------------------------------

/- All defects, in the order of the declarations. -/
def defects
    (p : Draft) : List Defect :=
  p.types.zipIdx.flatMap (fun (d, t) => p.typeDefects d t) ++
    p.members.zipIdx.flatMap
      (fun (m, id) => p.memberDefects m id)

end Draft

end JsExport
