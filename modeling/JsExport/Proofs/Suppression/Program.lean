import JsExport.Export.Signature
import JsExport.Proofs.Program.Sound
import JsExport.Proofs.Suppression.Declaration
import JsExport.Rules.Usability

/-
  Programs without the warnings that they silence.

  What a number stands for is the same declaration without
  its suppressions; who inherits from whom, what a type
  declares and how a member is written does not change.  So
  two drafts that differ in suppressions only are built to
  programs that do.

  Main declarations:
    * `Program.unsilenced`
    * `Program.member_unsilenced`
    * `Program.declaredBy_unsilenced`
    * `Signature.text_unsilenced`
    * `Program.unsilenced_eq_of_build`
-/

namespace JsExport

open Lookup

------------------------------------------------------------
-- Programs And Nodes
------------------------------------------------------------

/- The program without suppressions. -/
def Program.unsilenced
    (p : Program) : Program :=
  ⟨p.types.map .unsilenced, p.members.map .unsilenced,
    p.hierarchy⟩

def TypeNode.unsilenced
    (t : TypeNode) : TypeNode :=
  ⟨t.id, t.decl.unsilenced⟩

/- The member without suppressions, its owner neither. -/
def MemberNode.unsilenced
    (m : MemberNode) : MemberNode :=
  ⟨m.id, m.decl.unsilenced, m.owner.unsilenced⟩

@[simp]
theorem MemberNode.id_unsilenced
    (m : MemberNode) :
    m.unsilenced.id = m.id :=
  rfl

@[simp]
theorem MemberNode.decl_unsilenced
    (m : MemberNode) :
    m.unsilenced.decl = m.decl.unsilenced :=
  rfl

namespace Program

variable (p : Program)

------------------------------------------------------------
-- Lookups
------------------------------------------------------------

theorem type_unsilenced
    (t : TypeId) :
    p.unsilenced.type t = .unsilenced <$> p.type t := by
  unfold type unsilenced
  rw [List.getElem?_map]
  cases p.types[t]? <;> rfl

theorem memberDecl_unsilenced
    (m : MemberId) :
    p.unsilenced.memberDecl m =
      .unsilenced <$> p.memberDecl m := by
  unfold memberDecl unsilenced
  rw [List.getElem?_map]
  cases p.members[m]? <;> rfl

theorem ownerId_unsilenced
    (m : MemberId) :
    p.unsilenced.ownerId m = p.ownerId m := by
  unfold ownerId
  rw [memberDecl_unsilenced, bind_map_left]
  rfl

theorem member_unsilenced
    (m : MemberId) :
    p.unsilenced.member m = .unsilenced <$> p.member m := by
  unfold member
  rw [memberDecl_unsilenced, ownerId_unsilenced]
  simp only [type_unsilenced, bind_map_left, map_bind,
    map_pure]
  rfl

theorem typeNodes_unsilenced :
    p.unsilenced.typeNodes =
      p.typeNodes.map .unsilenced := by
  unfold typeNodes unsilenced
  rw [List.zipIdx_map, List.map_map, List.map_map]
  rfl

theorem memberNodes_unsilenced :
    p.unsilenced.memberNodes =
      List.map .unsilenced <$> p.memberNodes := by
  have hCount :
      p.unsilenced.members.length = p.members.length :=
    List.length_map _
  unfold memberNodes
  rw [hCount]
  exact mapM_eq_map_mapM
    (fun m _ => p.member_unsilenced m)

theorem typeName_unsilenced :
    p.unsilenced.typeName = p.typeName := by
  funext t
  unfold typeName unsilenced
  rw [List.getElem?_map]
  cases p.types[t]? <;> rfl

------------------------------------------------------------
-- Members And Supertypes Of A Type
------------------------------------------------------------

theorem declaredBy_unsilenced
    (t : TypeNode) :
    p.unsilenced.declaredBy t.unsilenced =
      (p.declaredBy t).map .unsilenced := by
  unfold declaredBy
  rw [List.map_filterMap]
  apply List.filterMap_congr
  intro m _
  unfold unsilenced
  rw [List.getElem?_map, Option.map_map, Option.map_map]
  rfl

/- What types declare is what they declared. -/
theorem flatMap_declaredBy_unsilenced
    (types : List TypeNode) :
    (types.map TypeNode.unsilenced).flatMap
        p.unsilenced.declaredBy =
      (types.flatMap p.declaredBy).map .unsilenced := by
  rw [List.flatMap_map, List.map_flatMap]
  apply List.flatMap_congr
  intro t _
  exact p.declaredBy_unsilenced t

theorem interfacesOf_unsilenced
    (t : TypeNode) :
    p.unsilenced.interfacesOf t.unsilenced =
      List.map .unsilenced <$> p.interfacesOf t :=
  mapM_eq_map_mapM (fun i _ => p.type_unsilenced i)

theorem lineage_unsilenced
    (t : TypeId) :
    p.unsilenced.lineage t =
      List.map .unsilenced <$> p.lineage t :=
  mapM_eq_map_mapM (fun a _ => p.type_unsilenced a)

/- JavaScript holds values of the same types. -/
theorem isUsable_unsilenced
    (e : TypeExpr) :
    p.unsilenced.isUsable e = p.isUsable e := by
  induction e with
  | declared t =>
      unfold isUsable
      rw [type_unsilenced, bind_map_left]
      rfl
  | array element dims ih =>
      unfold isUsable
      rw [ih]
  | _ => rfl

end Program

------------------------------------------------------------
-- Written Forms
------------------------------------------------------------

namespace Signature

variable (p : Program)

theorem typeText_unsilenced :
    typeText p.unsilenced = typeText p := by
  funext e
  unfold typeText
  rw [p.typeName_unsilenced]

/- A member is written without its suppressions. -/
theorem text_unsilenced
    (m : MemberNode) :
    text p.unsilenced m.unsilenced = text p m := by
  have hShape :
      m.unsilenced.decl.shape = m.decl.shape.unsilenced :=
    rfl
  unfold text paramsText
  rw [hShape, typeText_unsilenced]
  cases m.decl.shape with
  | field f => rfl
  | callable c =>
      unfold MemberShape.unsilenced
      dsimp only
      rw [c.paramTypes_unsilenced]
      rfl

theorem quoted_unsilenced
    (m : MemberNode)
    (exposedBy : Option TypeNode) :
    quoted p.unsilenced m.unsilenced
        (exposedBy.map .unsilenced) =
      quoted p m exposedBy := by
  unfold quoted
  rw [text_unsilenced]
  cases exposedBy <;> rfl

end Signature

------------------------------------------------------------
-- Programs Of Drafts
------------------------------------------------------------

namespace Supertypes

variable (types : List TypeDecl)

theorem ofTypes_unsilenced :
    ofTypes (types.map .unsilenced) = ofTypes types := by
  funext t
  unfold ofTypes
  rw [List.getElem?_map, Option.map_map]
  rfl

theorem subtypes_unsilenced :
    subtypes (types.map .unsilenced) = subtypes types := by
  funext t
  unfold subtypes
  rw [List.zipIdx_map, List.filter_map, List.map_map]
  rfl

end Supertypes

/- Hierarchies do not depend on suppressions. -/
theorem Hierarchy.ofTypes?_unsilenced
    (types : List TypeDecl) :
    ofTypes? (types.map .unsilenced) = ofTypes? types := by
  have hStrays :
      strays (types.map .unsilenced) = strays types := by
    unfold strays
    rw [List.flatMap_map, List.length_map]
    rfl
  have hKnown (order : List TypeId) :
      ofKnown (types.map .unsilenced) order =
        ofKnown types order := by
    unfold ofKnown
    rw [Supertypes.ofTypes_unsilenced,
      Supertypes.subtypes_unsilenced, List.length_map]
  unfold ofTypes?
  dsimp only
  rw [hStrays, Supertypes.ofTypes_unsilenced,
    Supertypes.subtypes_unsilenced, List.length_map]
  simp only [hKnown, List.getElem?_map, Option.map_map]
  rfl

/-
  Drafts that differ in suppressions only are built to
  programs that do.
-/
theorem Program.unsilenced_eq_of_build
    {draft other : Draft}
    (hSame : other.unsilenced = draft.unsilenced)
    {p q : Program}
    (hBuild : draft.build = .ok p)
    (hOther : other.build = .ok q) :
    q.unsilenced = p.unsilenced := by
  rcases Draft.build_eq_ok_iff.mp hBuild with
    ⟨_, hHierarchy, hTypes, hMembers⟩
  rcases Draft.build_eq_ok_iff.mp hOther with
    ⟨_, hHierarchy', hTypes', hMembers'⟩
  rcases Draft.mk.inj hSame with ⟨hSameTypes, hSameMembers⟩
  have hSameHierarchy : q.hierarchy = p.hierarchy := by
    rw [← Hierarchy.ofTypes?_unsilenced, hSameTypes,
      Hierarchy.ofTypes?_unsilenced, hHierarchy]
      at hHierarchy'
    exact (Except.ok.inj hHierarchy').symm
  unfold unsilenced
  rw [hTypes, hMembers, hTypes', hMembers', hSameTypes,
    hSameMembers, hSameHierarchy]

end JsExport
