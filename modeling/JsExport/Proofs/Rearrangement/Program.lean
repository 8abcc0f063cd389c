import JsExport.Export.Signature
import JsExport.Proofs.Listing.Permuted
import JsExport.Proofs.Lookup.Permuted
import JsExport.Proofs.Program.Sound
import JsExport.Proofs.Rearrangement.Renumber
import JsExport.Rules.Usability
import Mathlib.Logic.Equiv.Defs

/-
  Programs with the same declarations in another order.

  A rearrangement gives new numbers to the members of a
  program and lists the members of its types in any order.
  The types keep their numbers, so nothing of the hierarchy
  changes, and a member is written as before.  What a type
  declares is permuted; where the type declares at most one
  member of a kind, there is no order to change.

  Main declarations:
    * `Rearrangement` and `Program.Rearranges`
    * `Program.Rearranges.hierarchy_eq`
    * `Program.Rearranges.declaredBy_perm`
    * `Program.Rearranges.text_eq`
    * `Program.Rearranges.filter_declaredBy_eq`
-/

namespace JsExport

open Lookup

------------------------------------------------------------
-- Rearrangements
------------------------------------------------------------

/- New numbers of members and new lists of them. -/
structure Rearrangement where
  number : Equiv.Perm MemberId
  listed : TypeId → List MemberId

namespace Rearrangement

variable (r : Rearrangement)

/- The type with its new list of members. -/
def type
    (t : TypeNode) : TypeNode :=
  ⟨t.id, { t.decl with members := r.listed t.id }⟩

/- The member under its new number. -/
def member
    (m : MemberNode) : MemberNode :=
  ⟨r.number m.id, m.decl.renumber r.number,
    r.type m.owner⟩

@[simp]
theorem id_member
    (m : MemberNode) :
    (r.member m).id = r.number m.id :=
  rfl

@[simp]
theorem decl_member
    (m : MemberNode) :
    (r.member m).decl = m.decl.renumber r.number :=
  rfl

/- The finding about the same members. -/
def finding
    (f : Finding) : Finding :=
  f.renumber r.number

theorem number_eq_iff
    {m n : MemberId} :
    r.number m = r.number n ↔ m = n :=
  r.number.injective.eq_iff

@[simp]
theorem number_beq
    (m n : MemberId) :
    (r.number m == r.number n) = (m == n) := by
  rw [Bool.eq_iff_iff, beq_iff_eq, beq_iff_eq,
    r.number_eq_iff]

end Rearrangement

namespace Program

/-
  That a program has the declarations of another one under
  new numbers, and that both are sound.
-/
structure Rearranges
    (q : Program)
    (r : Rearrangement)
    (p : Program) : Prop where
  sound : p.Sound
  sound_other : q.Sound
  types_eq :
    ∀ t, q.types[t]? =
      p.types[t]?.map
        (fun d : TypeDecl =>
          { d with members := r.listed t })
  members_eq :
    ∀ m, q.members[r.number m]? =
      p.members[m]?.map (.renumber r.number)
  listed_perm :
    ∀ t, p.HasType t →
      (r.listed t.id).Perm (t.decl.members.map r.number)

namespace Rearranges

variable {p q : Program}
variable {r : Rearrangement}
variable (hMoves : q.Rearranges r p)

include hMoves

------------------------------------------------------------
-- Hierarchies
------------------------------------------------------------

theorem map_types_eq
    {α : Type}
    {f : TypeDecl → α}
    (hSame :
      ∀ d listed, f { d with members := listed } = f d) :
    q.types.map f = p.types.map f := by
  apply List.ext_getElem?
  intro t
  rw [List.getElem?_map, List.getElem?_map,
    hMoves.types_eq, Option.map_map]
  congr 1
  funext d
  exact hSame d _

theorem length_types_eq :
    q.types.length = p.types.length := by
  have hNames :
      q.types.map TypeDecl.name = p.types.map TypeDecl.name :=
    hMoves.map_types_eq (fun _ _ => rfl)
  have hLengths := congrArg List.length hNames
  rw [List.length_map, List.length_map] at hLengths
  exact hLengths

theorem ofTypes_eq :
    Supertypes.ofTypes q.types =
      Supertypes.ofTypes p.types := by
  funext t
  unfold Supertypes.ofTypes
  rw [hMoves.types_eq, Option.map_map]
  rfl

theorem subtypes_eq :
    Supertypes.subtypes q.types =
      Supertypes.subtypes p.types := by
  have hLists :
      ∀ types : List TypeDecl,
        Supertypes.subtypes types = fun t =>
          ((types.map TypeDecl.supertypes).zipIdx.filter
            (fun e => decide (t ∈ e.1))).map
              (fun e => e.2) := by
    intro types
    funext t
    unfold Supertypes.subtypes
    rw [List.zipIdx_map, List.filter_map, List.map_map]
    rfl
  rw [hLists, hLists,
    hMoves.map_types_eq (fun _ _ => rfl)]

/- The types keep their numbers and all that is above. -/
theorem hierarchy_eq :
    q.hierarchy = p.hierarchy := by
  rcases Hierarchy.ofTypes?_eq_ok_iff.mp
      hMoves.sound.hierarchy_eq with
    ⟨_, _, hFound⟩
  rcases Hierarchy.ofTypes?_eq_ok_iff.mp
      hMoves.sound_other.hierarchy_eq with
    ⟨_, _, hOther⟩
  rw [hFound, hOther]
  unfold Hierarchy.ofKnown
  rw [hMoves.ofTypes_eq, hMoves.subtypes_eq,
    hMoves.length_types_eq]

------------------------------------------------------------
-- Nodes
------------------------------------------------------------

theorem hasType
    {t : TypeNode}
    (hType : p.HasType t) :
    q.HasType (r.type t) := by
  unfold HasType at hType ⊢
  change q.types[t.id]? = some _
  rw [hMoves.types_eq, hType]
  rfl

theorem hasMember
    {m : MemberNode}
    (hMember : p.HasMember m) :
    q.HasMember (r.member m) := by
  refine ⟨?_, hMember.2.1, hMoves.hasType hMember.2.2⟩
  change q.members[r.number m.id]? = some _
  rw [hMoves.members_eq, hMember.1]
  rfl

theorem type_eq_ok
    {t : TypeId}
    {node : TypeNode}
    (hNode : p.type t = .ok node) :
    q.type t = .ok (r.type node) := by
  rcases type_eq_ok_iff_hasType.mp hNode with ⟨hId, hType⟩
  exact type_eq_ok_iff_hasType.mpr
    ⟨hId, hMoves.hasType hType⟩

theorem member_eq_ok
    {m : MemberId}
    {node : MemberNode}
    (hNode : p.member m = .ok node) :
    q.member (r.number m) = .ok (r.member node) := by
  rcases member_eq_ok_iff_hasMember.mp hNode with
    ⟨rfl, hMember⟩
  exact member_eq_ok_iff_hasMember.mpr
    ⟨rfl, hMoves.hasMember hMember⟩

theorem lineage_eq_ok
    {t : TypeId}
    {lineage : List TypeNode}
    (hLineage : p.lineage t = .ok lineage) :
    q.lineage t = .ok (lineage.map r.type) := by
  unfold Program.lineage
  rw [hMoves.hierarchy_eq]
  exact mapM_eq_ok_map_of_mapM_eq_ok
    (fun _ _ _ hNode => hMoves.type_eq_ok hNode) hLineage

theorem interfacesOf_eq_ok
    {t : TypeNode}
    {interfaces : List TypeNode}
    (hInterfaces : p.interfacesOf t = .ok interfaces) :
    q.interfacesOf (r.type t) =
      .ok (interfaces.map r.type) :=
  mapM_eq_ok_map_of_mapM_eq_ok
    (fun _ _ _ hNode => hMoves.type_eq_ok hNode) hInterfaces

theorem typeNodes_eq :
    q.typeNodes = p.typeNodes.map r.type := by
  apply List.ext_getElem?
  intro t
  unfold typeNodes
  rw [List.getElem?_map, List.getElem?_map,
    List.getElem?_map, List.getElem?_zipIdx,
    List.getElem?_zipIdx, hMoves.types_eq]
  cases p.types[t]? with
  | none => rfl
  | some d =>
      simp only [Option.map_some, Nat.zero_add]
      rfl

------------------------------------------------------------
-- Members
------------------------------------------------------------

theorem number_lt_iff
    (m : MemberId) :
    r.number m < q.members.length ↔
      m < p.members.length := by
  rw [← Nat.not_le, ← Nat.not_le,
    ← List.getElem?_eq_none_iff, ← List.getElem?_eq_none_iff,
    hMoves.members_eq, Option.map_eq_none_iff]

/- The numbers of the members are those of the other ones. -/
theorem range_perm :
    (List.range q.members.length).Perm
      ((List.range p.members.length).map r.number) := by
  apply (List.perm_ext_iff_of_nodup List.nodup_range
    (List.nodup_range.map r.number.injective)).mpr
  intro m
  rw [List.mem_range, List.mem_map]
  constructor
  · intro hLt
    refine ⟨r.number.symm m, ?_, r.number.apply_symm_apply m⟩
    rw [List.mem_range, ← hMoves.number_lt_iff,
      r.number.apply_symm_apply]
    exact hLt
  · intro hImage
    rcases hImage with ⟨n, hn, rfl⟩
    exact (hMoves.number_lt_iff n).mpr (List.mem_range.mp hn)

theorem length_members_eq :
    q.members.length = p.members.length := by
  have hLengths := hMoves.range_perm.length_eq
  rw [List.length_map, List.length_range,
    List.length_range] at hLengths
  exact hLengths

theorem memberNodes_perm
    {members members' : List MemberNode}
    (hMembers : p.memberNodes = .ok members)
    (hMembers' : q.memberNodes = .ok members') :
    members'.Perm (members.map r.member) := by
  have hImages :
      (members.map (fun m => (r.member m).id)).Nodup := by
    have hIds :
        members.map (fun m => (r.member m).id) =
          (List.range p.members.length).map r.number := by
      rw [← map_eq_of_mapM_eq_ok hMembers (fun _ _ hFound =>
        (member_eq_ok_iff_hasMember.mp hFound).1),
        List.map_map]
      rfl
    rw [hIds]
    exact List.nodup_range.map r.number.injective
  have hMoved : (members.map r.member).Nodup := by
    apply List.Nodup.of_map (fun m : MemberNode => m.id)
    rw [List.map_map]
    exact hImages
  apply (List.perm_ext_iff_of_nodup
    (nodup_of_memberNodes_eq_ok hMembers') hMoved).mpr
  intro n
  rw [mem_of_memberNodes_eq_ok hMembers', List.mem_map]
  constructor
  · intro hMember
    have hLt : r.number.symm n.id < p.members.length := by
      rw [← hMoves.number_lt_iff,
        r.number.apply_symm_apply]
      exact hMember.lt_length
    rcases hMoves.sound.member_succeeds hLt with
      ⟨m, hFound⟩
    rcases member_eq_ok_iff_hasMember.mp hFound with
      ⟨hId, hm⟩
    refine ⟨m, (mem_of_memberNodes_eq_ok hMembers).mpr hm,
      ?_⟩
    apply (hMoves.hasMember hm).eq_of_id_eq hMember
    change r.number m.id = n.id
    rw [hId, r.number.apply_symm_apply]
  · intro hImage
    rcases hImage with ⟨m, hm, rfl⟩
    exact hMoves.hasMember
      ((mem_of_memberNodes_eq_ok hMembers).mp hm)

/- What a type declares is what it declared, permuted. -/
theorem declaredBy_perm
    {t : TypeNode}
    (hType : p.HasType t) :
    (q.declaredBy (r.type t)).Perm
      ((p.declaredBy t).map r.member) := by
  have hNodes :
      (p.declaredBy t).map r.member =
        (t.decl.members.map r.number).filterMap (fun m =>
          q.members[m]?.map (fun d => ⟨m, d, r.type t⟩)) := by
    unfold declaredBy
    rw [List.map_filterMap, List.filterMap_map]
    apply List.filterMap_congr
    intro m _
    rw [Function.comp, hMoves.members_eq, Option.map_map,
      Option.map_map]
    rfl
  rw [hNodes]
  exact (hMoves.listed_perm t hType).filterMap _

/- What the types of a list declare is permuted type-wise. -/
theorem flatMap_declaredBy_perm
    {types : List TypeNode}
    (hTypes : ∀ t ∈ types, p.HasType t) :
    ((types.map r.type).flatMap q.declaredBy).Perm
      ((types.flatMap p.declaredBy).map r.member) := by
  rw [List.flatMap_map, List.map_flatMap]
  apply List.Perm.flatMap_left
  intro t ht
  exact hMoves.declaredBy_perm (hTypes t ht)

------------------------------------------------------------
-- Written Forms
------------------------------------------------------------

theorem typeName_eq :
    q.typeName = p.typeName := by
  funext t
  unfold typeName
  rw [hMoves.types_eq]
  cases p.types[t]? <;> rfl

theorem typeText_eq :
    Signature.typeText q = Signature.typeText p := by
  funext e
  unfold Signature.typeText
  rw [hMoves.typeName_eq]

/- A member is written as before. -/
theorem text_eq
    (m : MemberNode) :
    Signature.text q (r.member m) = Signature.text p m := by
  have hShape :
      (r.member m).decl.shape =
        m.decl.shape.renumber r.number :=
    rfl
  unfold Signature.text Signature.paramsText
  rw [hShape, hMoves.typeText_eq]
  cases m.decl.shape <;> rfl

theorem quoted_eq
    (m : MemberNode)
    (exposedBy : Option TypeNode) :
    Signature.quoted q (r.member m)
        (exposedBy.map r.type) =
      Signature.quoted p m exposedBy := by
  unfold Signature.quoted
  rw [hMoves.text_eq]
  cases exposedBy <;> rfl

theorem isUsable_eq
    (e : TypeExpr) :
    q.isUsable e = p.isUsable e := by
  induction e with
  | declared t =>
      unfold isUsable type
      rw [hMoves.types_eq]
      cases p.types[t]? <;> rfl
  | array element dims ih =>
      unfold isUsable
      rw [ih]
  | _ => rfl

end Rearranges

end Program

------------------------------------------------------------
-- Members That Stand Apart
------------------------------------------------------------

namespace Program

/-
  That a program lists no member twice, that no type has two
  methods of one signature, and that no two members are
  written alike.
-/
structure KeepsApart
    (p : Program) : Prop where
  listed_once : ∀ d ∈ p.types, d.members.Nodup
  methods_apart :
    ∀ m n, p.HasMember m → p.HasMember n →
      m.owner = n.owner →
        m.decl.isInstanceMethod → n.decl.isInstanceMethod →
          m.decl.signature? = n.decl.signature? → m = n
  texts_apart :
    ∀ m n, p.HasMember m → p.HasMember n →
      Signature.text p m = Signature.text p n → m = n

variable {p q : Program}
variable {r : Rearrangement}

theorem KeepsApart.nodup_declaredBy
    (hApart : p.KeepsApart)
    (hSound : p.Sound)
    {t : TypeNode}
    (hType : p.HasType t) :
    (p.declaredBy t).Nodup :=
  hSound.nodup_declaredBy hType (hApart.listed_once t.decl
    (List.mem_of_getElem? hType))

/-
  The methods of one signature that the types of a list
  declare keep the order of the types.
-/
theorem Rearranges.filter_declaredBy_eq
    (hMoves : q.Rearranges r p)
    (hApart : p.KeepsApart)
    {types : List TypeNode}
    (hTypes : ∀ t ∈ types, p.HasType t)
    {keep keep' : MemberNode → Bool}
    (hKeep : ∀ m, keep' (r.member m) = keep m)
    (hMethods :
      ∀ m, keep m → m.decl.isInstanceMethod)
    (hOne :
      ∀ m n, keep m → keep n →
        m.decl.signature? = n.decl.signature?) :
    ((types.map r.type).flatMap q.declaredBy).filter keep' =
      ((types.flatMap p.declaredBy).filter keep).map
        r.member := by
  rw [List.flatMap_map, List.filter_flatMap,
    List.filter_flatMap, List.map_flatMap]
  apply List.flatMap_congr
  intro t ht
  have hType := hTypes t ht
  have hKept :
      ((p.declaredBy t).map r.member).filter keep' =
        ((p.declaredBy t).filter keep).map r.member := by
    rw [List.filter_map]
    apply congrArg (List.map r.member)
    apply List.filter_congr
    intro m _
    exact hKeep m
  have hShort :
      ((p.declaredBy t).filter keep).length ≤ 1 := by
    apply Listing.length_le_one_of_nodup
    · exact (hApart.nodup_declaredBy hMoves.sound
        hType).filter _
    · intro m hm n hn
      rcases List.mem_filter.mp hm with ⟨hmIn, hmKeep⟩
      rcases List.mem_filter.mp hn with ⟨hnIn, hnKeep⟩
      rcases hMoves.sound.hasMember_of_mem_declaredBy hType
        hmIn with ⟨hmHas, hmOwner⟩
      rcases hMoves.sound.hasMember_of_mem_declaredBy hType
        hnIn with ⟨hnHas, hnOwner⟩
      exact hApart.methods_apart m n hmHas hnHas
        (hmOwner.trans hnOwner.symm) (hMethods m hmKeep)
        (hMethods n hnKeep) (hOne m n hmKeep hnKeep)
  apply Listing.eq_of_perm_of_length_le_one
  · rw [← hKept]
    exact (hMoves.declaredBy_perm hType).filter keep'
  · rw [List.length_map]
    exact hShort

end Program

end JsExport
