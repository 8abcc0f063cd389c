import JsExport.Export.Signature
import JsExport.Proofs.Listing.Prefix
import JsExport.Proofs.Program.Sound
import JsExport.Rules.Usability

/-
  Programs that hold another program.

  One program extends another when its types and members
  begin with those of the other.  What a number of the
  smaller program stands for, what is above its types, and
  how its members are written is then the same in both.

  Main declarations:
    * `Program.Extends`
    * `Program.Extends.order_prefix`
    * `Program.Extends.lineage_eq`
    * `Program.Extends.text_eq`
-/

namespace JsExport

open Lookup

namespace Program

/- That a program begins with the declarations of another. -/
structure Extends
    (q p : Program) : Prop where
  sound : p.Sound
  sound_all : q.Sound
  types_prefix : p.types <+: q.types
  members_prefix : p.members <+: q.members

namespace Extends

variable {p q : Program}
variable (hExtends : q.Extends p)

include hExtends

------------------------------------------------------------
-- Declarations
------------------------------------------------------------

theorem types_getElem?_eq
    {t : TypeId}
    (hLt : t < p.types.length) :
    q.types[t]? = p.types[t]? := by
  rcases hExtends.types_prefix with ⟨more, hTypes⟩
  rw [← hTypes, List.getElem?_append_left hLt]

theorem members_getElem?_eq
    {m : MemberId}
    (hLt : m < p.members.length) :
    q.members[m]? = p.members[m]? := by
  rcases hExtends.members_prefix with ⟨more, hMembers⟩
  rw [← hMembers, List.getElem?_append_left hLt]

theorem hasType
    {t : TypeNode}
    (hType : p.HasType t) :
    q.HasType t := by
  unfold HasType
  rw [hExtends.types_getElem?_eq hType.lt_length]
  exact hType

theorem hasMember
    {m : MemberNode}
    (hMember : p.HasMember m) :
    q.HasMember m := by
  refine ⟨?_, hMember.2.1, hExtends.hasType hMember.2.2⟩
  rw [hExtends.members_getElem?_eq hMember.lt_length]
  exact hMember.1

------------------------------------------------------------
-- Hierarchies
------------------------------------------------------------

theorem supertypes_agree :
    ∀ t < p.types.length,
      Supertypes.ofTypes q.types t =
        Supertypes.ofTypes p.types t := by
  intro t hLt
  unfold Supertypes.ofTypes
  rw [hExtends.types_getElem?_eq hLt]

theorem exists_length_eq :
    ∃ more, q.types.length = p.types.length + more := by
  rcases hExtends.types_prefix with ⟨more, hTypes⟩
  exact ⟨more.length, by rw [← hTypes, List.length_append]⟩

/- The order of the types begins with the smaller order. -/
theorem order_prefix :
    p.hierarchy.order <+: q.hierarchy.order := by
  rcases Hierarchy.ofTypes?_eq_ok_iff.mp
      hExtends.sound.hierarchy_eq with
    ⟨hClosed, _, hFound⟩
  rcases Hierarchy.ofTypes?_eq_ok_iff.mp
      hExtends.sound_all.hierarchy_eq with
    ⟨_, _, hAll⟩
  rcases hExtends.exists_length_eq with ⟨more, hLength⟩
  rw [hFound, hAll, hLength]
  exact Walk.left_all_prefix hClosed
    hExtends.supertypes_agree more

theorem ancestry_eq
    {t : TypeId}
    (hLt : t < p.types.length) :
    q.hierarchy.ancestry t = p.hierarchy.ancestry t := by
  rcases hExtends.exists_length_eq with ⟨more, hLength⟩
  have hAll : t < q.types.length :=
    Nat.lt_of_lt_of_le hLt (by omega)
  rw [hExtends.sound.fits.ancestry_eq t hLt,
    hExtends.sound_all.fits.ancestry_eq t hAll, hLength]
  exact Supertypes.ancestry_eq_of_agree
    hExtends.sound.fits.closed hExtends.supertypes_agree
    hLt more

theorem strictAncestry_eq
    {t : TypeId}
    (hLt : t < p.types.length) :
    q.hierarchy.strictAncestry t =
      p.hierarchy.strictAncestry t :=
  congrArg List.tail (hExtends.ancestry_eq hLt)

theorem isAncestor_eq
    (a : TypeId)
    {t : TypeId}
    (hLt : t < p.types.length) :
    q.hierarchy.isAncestor a t =
      p.hierarchy.isAncestor a t := by
  unfold Hierarchy.isAncestor
  rw [hExtends.strictAncestry_eq hLt]

theorem isAncestorOrSelf_eq
    (a : TypeId)
    {t : TypeId}
    (hLt : t < p.types.length) :
    q.hierarchy.isAncestorOrSelf a t =
      p.hierarchy.isAncestorOrSelf a t := by
  unfold Hierarchy.isAncestorOrSelf
  rw [hExtends.isAncestor_eq a hLt]

------------------------------------------------------------
-- Lookups
------------------------------------------------------------

theorem type_eq
    {t : TypeId}
    (hLt : t < p.types.length) :
    q.type t = p.type t := by
  unfold type
  rw [hExtends.types_getElem?_eq hLt]

theorem member_eq
    {m : MemberId}
    (hLt : m < p.members.length) :
    q.member m = p.member m := by
  rcases hExtends.sound.member_succeeds hLt with
    ⟨node, hNode⟩
  rcases member_eq_ok_iff_hasMember.mp hNode with
    ⟨hId, hMember⟩
  rw [hNode]
  exact member_eq_ok_iff_hasMember.mpr
    ⟨hId, hExtends.hasMember hMember⟩

theorem lineage_eq
    {t : TypeId}
    (hLt : t < p.types.length) :
    q.lineage t = p.lineage t := by
  unfold lineage
  rw [hExtends.ancestry_eq hLt]
  apply mapM_congr
  intro a ha
  apply hExtends.type_eq
  rcases (hExtends.sound.fits.mem_ancestry_iff hLt a).mp
      ha with
    rfl | hInherits
  · exact hLt
  · exact hInherits.target_lt_length
      hExtends.sound.fits.closed

/- A type lists no new members. -/
theorem declaredBy_eq
    {t : TypeNode}
    (hType : p.HasType t) :
    q.declaredBy t = p.declaredBy t := by
  unfold declaredBy
  apply List.filterMap_congr
  intro m hm
  rcases hExtends.sound.wellFormed.memberLists t.id t.decl
      hType m hm with
    ⟨d, hDecl, _⟩
  rw [hExtends.members_getElem?_eq
    (List.getElem?_eq_some_iff.mp hDecl).1]

/- What a lineage declares is the same in both programs. -/
theorem flatMap_declaredBy_eq
    {t : TypeId}
    {lineage : List TypeNode}
    (hLineage : p.lineage t = .ok lineage)
    {part : List TypeNode}
    (hPart : part ⊆ lineage) :
    part.flatMap q.declaredBy = part.flatMap p.declaredBy := by
  apply List.flatMap_congr
  intro s hs
  exact hExtends.declaredBy_eq
    ((mem_of_lineage_eq_ok hLineage).mp (hPart hs)).2

theorem interfacesOf_eq
    {t : TypeNode}
    (hType : p.HasType t) :
    q.interfacesOf t = p.interfacesOf t := by
  apply mapM_congr
  intro i hi
  apply hExtends.type_eq
  rcases hExtends.sound.wellFormed.interfaces t.decl
      (List.mem_of_getElem? hType) i hi with
    ⟨above, hAbove, _⟩
  exact (List.getElem?_eq_some_iff.mp hAbove).1

theorem typeNodes_prefix :
    p.typeNodes <+: q.typeNodes := by
  rcases hExtends.types_prefix with ⟨more, hTypes⟩
  unfold typeNodes
  rw [← hTypes, List.zipIdx_append, List.map_append]
  exact List.prefix_append _ _

theorem memberNodes_prefix
    {first all : List MemberNode}
    (hFirst : p.memberNodes = .ok first)
    (hAll : q.memberNodes = .ok all) :
    first <+: all := by
  have hRange :
      List.range p.members.length <+:
        List.range q.members.length := by
    rcases hExtends.members_prefix with ⟨more, hMembers⟩
    rw [← hMembers, List.length_append, List.range_add]
    exact List.prefix_append _ _
  refine Listing.mapM_prefix hRange hFirst hAll ?_
  intro m hm
  exact (hExtends.member_eq (List.mem_range.mp hm)).symm

------------------------------------------------------------
-- Types In Signatures
------------------------------------------------------------

theorem typeName_eq
    {t : TypeId}
    (hLt : t < p.types.length) :
    q.typeName t = p.typeName t := by
  unfold typeName
  rw [hExtends.types_getElem?_eq hLt]

/- A type is written alike where its declaration is known. -/
theorem typeText_eq
    (e : TypeExpr)
    (hKnown :
      ∀ t, e.declared? = some t → t < p.types.length) :
    Signature.typeText q e = Signature.typeText p e := by
  unfold Signature.typeText
  induction e with
  | declared t => exact hExtends.typeName_eq (hKnown t rfl)
  | array element dims ih =>
      unfold TypeExpr.text
      rw [ih hKnown]
  | _ => rfl

theorem isUsable_eq
    (e : TypeExpr)
    (hKnown :
      ∀ t, e.declared? = some t → t < p.types.length) :
    q.isUsable e = p.isUsable e := by
  induction e with
  | declared t =>
      unfold isUsable
      rw [hExtends.type_eq (hKnown t rfl)]
  | array element dims ih =>
      unfold isUsable
      rw [ih hKnown]
  | _ => rfl

/- The types in the signature of a member are known. -/
theorem declared_lt
    {m : MemberNode}
    (hMember : p.HasMember m) :
    ∀ e ∈ m.decl.signatureTypes,
      ∀ t, e.declared? = some t → t < p.types.length :=
  hExtends.sound.wellFormed.signatures m.decl
    (List.mem_of_getElem? hMember.1)

/- A member is written alike in both programs. -/
theorem text_eq
    {m : MemberNode}
    (hMember : p.HasMember m) :
    Signature.text q m = Signature.text p m := by
  have hEach :
      ∀ e ∈ m.decl.signatureTypes,
        Signature.typeText q e = Signature.typeText p e :=
    fun e he => hExtends.typeText_eq e
      (hExtends.declared_lt hMember e he)
  unfold Signature.text
  cases hShape : m.decl.shape with
  | field f =>
      dsimp only
      rw [hEach f.type
        (MemberDecl.type_mem_signatureTypes hShape)]
  | callable c =>
      have hParams :
          Signature.paramsText q c =
            Signature.paramsText p c := by
        unfold Signature.paramsText
        rw [List.map_congr_left (fun e he => hEach e
          (MemberDecl.paramTypes_subset_signatureTypes
            hShape he))]
      have hResult := hEach c.result
        (MemberDecl.result_mem_signatureTypes hShape)
      dsimp only
      rw [hParams, hResult]

theorem quoted_eq
    {m : MemberNode}
    (hMember : p.HasMember m)
    (exposedBy : Option TypeNode) :
    Signature.quoted q m exposedBy =
      Signature.quoted p m exposedBy := by
  unfold Signature.quoted
  rw [hExtends.text_eq hMember]

end Extends

end Program

end JsExport
