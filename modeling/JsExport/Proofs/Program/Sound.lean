import JsExport.Program.Basic
import JsExport.Program.WellFormed
import JsExport.Proofs.Hierarchy.Order
import JsExport.Proofs.Lookup.Traversal

/-
  Lookups in programs that were built.

  A program that was built is sound: its declarations fit
  together and its hierarchy fits its types.  So every number
  that is written in it is found, and what is found are nodes
  of the program.

  Main declarations:
    * `Program.Sound` and `Program.sound_of_build`
    * `Program.HasType` and `Program.HasMember`
    * `Program.Sound.member_succeeds`
    * `Program.Sound.hasMember_of_mem_declaredBy`
    * `Program.Sound.lineage_succeeds`
    * `Program.mem_of_lineage_eq_ok`
-/

namespace JsExport

open Lookup

------------------------------------------------------------
-- Types In Signatures
------------------------------------------------------------

namespace MemberDecl

variable {m : MemberDecl}

theorem type_mem_signatureTypes
    {f : FieldDecl}
    (hShape : m.shape = .field f) :
    f.type ∈ m.signatureTypes := by
  unfold signatureTypes
  rw [hShape]
  exact List.mem_cons_self

theorem result_mem_signatureTypes
    {c : Callable}
    (hShape : m.shape = .callable c) :
    c.result ∈ m.signatureTypes := by
  unfold signatureTypes
  rw [hShape]
  exact List.mem_cons_self

theorem paramTypes_subset_signatureTypes
    {c : Callable}
    (hShape : m.shape = .callable c) :
    c.paramTypes ⊆ m.signatureTypes := by
  unfold signatureTypes
  rw [hShape]
  exact List.subset_cons_self _ _

------------------------------------------------------------
-- Methods Of Objects
------------------------------------------------------------

/- Whether a member is a method of objects. -/
def isInstanceMethod
    (m : MemberDecl) : Bool :=
  m.isCallable && !m.isConstructor && !m.isStatic

theorem isInstanceMethod_iff :
    m.isInstanceMethod = true ↔
      m.isCallable = true ∧ m.isConstructor = false ∧
        m.isStatic = false := by
  unfold isInstanceMethod
  simp only [Bool.and_eq_true, Bool.not_eq_true',
    and_assoc]

/- What can be overridden is a method of objects. -/
theorem isInstanceMethod_of_isOverridable
    (hMay : m.isOverridable) :
    m.isInstanceMethod := by
  unfold isOverridable at hMay
  exact (Bool.and_eq_true_iff.mp hMay).1

end MemberDecl

------------------------------------------------------------
-- Sound Programs
------------------------------------------------------------

/- When a draft is built, and what its program holds. -/
theorem Draft.build_eq_ok_iff
    {draft : Draft}
    {p : Program} :
    draft.build = .ok p ↔
      draft.WellFormed ∧
        Hierarchy.ofTypes? draft.types = .ok p.hierarchy ∧
          p.types = draft.types ∧
            p.members = draft.members := by
  rw [← draft.defects_eq_nil_iff]
  rcases p with ⟨types, members, hierarchy⟩
  unfold Draft.build
  cases hDefects : draft.defects with
  | cons defect rest => simp
  | nil =>
      cases hFound : Hierarchy.ofTypes? draft.types with
      | error defect => simp
      | ok found =>
          simp only [List.head?_nil, Except.ok.injEq,
            Program.mk.injEq, true_and]
          constructor
          · rintro ⟨rfl, rfl, rfl⟩
            exact ⟨rfl, rfl, rfl⟩
          · rintro ⟨rfl, rfl, rfl⟩
            exact ⟨rfl, rfl, rfl⟩

namespace Program

/- The declarations of a program. -/
def draft
    (p : Program) : Draft :=
  ⟨p.types, p.members⟩

/- That declarations fit together and have their hierarchy. -/
structure Sound
    (p : Program) : Prop where
  wellFormed : p.draft.WellFormed
  hierarchy_eq :
    Hierarchy.ofTypes? p.types = .ok p.hierarchy

/- A program has the declarations that it is built from. -/
theorem draft_of_build
    {draft : Draft}
    {p : Program}
    (hBuild : draft.build = .ok p) :
    p.draft = draft := by
  rcases Draft.build_eq_ok_iff.mp hBuild with
    ⟨_, _, hTypes, hMembers⟩
  unfold Program.draft
  rw [hTypes, hMembers]

theorem sound_of_build
    {draft : Draft}
    {p : Program}
    (hBuild : draft.build = .ok p) :
    p.Sound := by
  rcases Draft.build_eq_ok_iff.mp hBuild with
    ⟨hFit, hHierarchy, hTypes, _⟩
  exact ⟨draft_of_build hBuild ▸ hFit, hTypes ▸ hHierarchy⟩

theorem Sound.fits
    {p : Program}
    (hSound : p.Sound) :
    p.hierarchy.Fits p.types :=
  Hierarchy.fits_of_ofTypes?_eq_ok hSound.hierarchy_eq

------------------------------------------------------------
-- Nodes Of A Program
------------------------------------------------------------

/- That a node is a type of the program. -/
def HasType
    (p : Program)
    (t : TypeNode) : Prop :=
  p.types[t.id]? = some t.decl

/- That a node is a member of the program with its owner. -/
def HasMember
    (p : Program)
    (m : MemberNode) : Prop :=
  p.members[m.id]? = some m.decl ∧
    m.decl.owner = some m.owner.id ∧ p.HasType m.owner

/- The types of a draft are those of its program. -/
theorem hasType_of_build
    {draft : Draft}
    {p : Program}
    (hBuild : draft.build = .ok p)
    {t : TypeNode}
    (hType : draft.types[t.id]? = some t.decl) :
    p.HasType t := by
  unfold HasType
  rwa [(Draft.build_eq_ok_iff.mp hBuild).2.2.1]

/- So are its members. -/
theorem hasMember_of_build
    {draft : Draft}
    {p : Program}
    (hBuild : draft.build = .ok p)
    {m : MemberNode}
    (hMember : draft.members[m.id]? = some m.decl)
    (hOwner : m.decl.owner = some m.owner.id)
    (hType : draft.types[m.owner.id]? = some m.owner.decl) :
    p.HasMember m := by
  refine ⟨?_, hOwner, hasType_of_build hBuild hType⟩
  rwa [(Draft.build_eq_ok_iff.mp hBuild).2.2.2]

theorem HasType.lt_length
    {p : Program}
    {t : TypeNode}
    (hType : p.HasType t) :
    t.id < p.types.length :=
  (List.getElem?_eq_some_iff.mp hType).1

theorem HasMember.lt_length
    {p : Program}
    {m : MemberNode}
    (hMember : p.HasMember m) :
    m.id < p.members.length :=
  (List.getElem?_eq_some_iff.mp hMember.1).1

/- A type of the program is known by its number. -/
theorem HasType.eq_of_id_eq
    {p : Program}
    {s t : TypeNode}
    (hs : p.HasType s)
    (ht : p.HasType t)
    (hId : s.id = t.id) :
    s = t := by
  rcases s with ⟨id, decl⟩
  rcases t with ⟨_, other⟩
  cases hId
  have hDecl : some decl = some other := hs.symm.trans ht
  cases hDecl
  rfl

theorem HasType.inherits_superclass
    {p : Program}
    {t : TypeNode}
    (hType : p.HasType t)
    {s : TypeId}
    (hSuper : t.decl.superClass = some s) :
    Inherits p.types t.id s := by
  apply Inherits.direct
  apply Supertypes.mem_ofTypes_iff.mpr
  refine ⟨t.decl, hType, ?_⟩
  unfold TypeDecl.supertypes
  simp [hSuper]

/- A member of the program is known by its number. -/
theorem HasMember.eq_of_id_eq
    {p : Program}
    {m n : MemberNode}
    (hm : p.HasMember m)
    (hn : p.HasMember n)
    (hId : m.id = n.id) :
    m = n := by
  rcases m with ⟨id, decl, owner⟩
  rcases n with ⟨_, other, above⟩
  cases hId
  have hDecl : some decl = some other :=
    hm.1.symm.trans hn.1
  cases hDecl
  have hOwnerId : some owner.id = some above.id :=
    hm.2.1.symm.trans hn.2.1
  have hOwner : owner = above :=
    hm.2.2.eq_of_id_eq hn.2.2 (Option.some.inj hOwnerId)
  rw [hOwner]

theorem type_eq_ok_iff_hasType
    {p : Program}
    {t : TypeId}
    {node : TypeNode} :
    p.type t = .ok node ↔ node.id = t ∧ p.HasType node := by
  rw [type_eq_ok_iff]
  constructor
  · rintro ⟨rfl, hDecl⟩
    exact ⟨rfl, hDecl⟩
  · rintro ⟨rfl, hDecl⟩
    exact ⟨rfl, hDecl⟩

theorem member_eq_ok_iff_hasMember
    {p : Program}
    {m : MemberId}
    {node : MemberNode} :
    p.member m = .ok node ↔
      node.id = m ∧ p.HasMember node := by
  rw [member_eq_ok_iff]
  constructor
  · rintro ⟨rfl, hDecl⟩
    exact ⟨rfl, hDecl⟩
  · rintro ⟨rfl, hDecl⟩
    exact ⟨rfl, hDecl⟩

/- The nodes of all types are the types of the program. -/
theorem mem_typeNodes_iff
    {p : Program}
    {t : TypeNode} :
    t ∈ p.typeNodes ↔ p.HasType t := by
  unfold typeNodes HasType
  rw [List.mem_map]
  constructor
  · rintro ⟨⟨d, id⟩, hMem, rfl⟩
    exact List.mk_mem_zipIdx_iff_getElem?.mp hMem
  · intro hDecl
    exact ⟨(t.decl, t.id),
      List.mk_mem_zipIdx_iff_getElem?.mpr hDecl, rfl⟩

/- The types found on the way up are types of the program. -/
theorem mem_of_lineage_eq_ok
    {p : Program}
    {t : TypeId}
    {lineage : List TypeNode}
    (hLineage : p.lineage t = .ok lineage)
    {s : TypeNode} :
    s ∈ lineage ↔
      s.id ∈ p.hierarchy.ancestry t ∧ p.HasType s := by
  rw [mem_of_mapM_eq_ok hLineage]
  constructor
  · rintro ⟨a, ha, hFound⟩
    rcases type_eq_ok_iff_hasType.mp hFound with
      ⟨rfl, hType⟩
    exact ⟨ha, hType⟩
  · rintro ⟨ha, hType⟩
    exact ⟨s.id, ha,
      type_eq_ok_iff_hasType.mpr ⟨rfl, hType⟩⟩

theorem map_id_of_lineage_eq_ok
    {p : Program}
    {t : TypeId}
    {lineage : List TypeNode}
    (hLineage : p.lineage t = .ok lineage) :
    lineage.map (fun s => s.id) = p.hierarchy.ancestry t :=
  map_eq_of_mapM_eq_ok hLineage
    (fun _ _ hFound => (type_eq_ok_iff_hasType.mp hFound).1)

/- The members found are the members of the program. -/
theorem mem_of_memberNodes_eq_ok
    {p : Program}
    {members : List MemberNode}
    (hMembers : p.memberNodes = .ok members)
    {m : MemberNode} :
    m ∈ members ↔ p.HasMember m := by
  rw [mem_of_mapM_eq_ok hMembers]
  constructor
  · rintro ⟨id, _, hFound⟩
    exact (member_eq_ok_iff_hasMember.mp hFound).2
  · intro hMember
    exact ⟨m.id, List.mem_range.mpr hMember.lt_length,
      member_eq_ok_iff_hasMember.mpr ⟨rfl, hMember⟩⟩

/- Each of them is found once. -/
theorem nodup_of_memberNodes_eq_ok
    {p : Program}
    {members : List MemberNode}
    (hMembers : p.memberNodes = .ok members) :
    members.Nodup := by
  have hIds :
      members.map (fun m => m.id) =
        List.range p.members.length :=
    map_eq_of_mapM_eq_ok hMembers (fun _ _ hFound =>
      (member_eq_ok_iff_hasMember.mp hFound).1)
  apply List.Nodup.of_map (fun m : MemberNode => m.id)
  rw [hIds]
  exact List.nodup_range

------------------------------------------------------------
-- Lookups That Succeed
------------------------------------------------------------

theorem type_succeeds
    {p : Program}
    {t : TypeId}
    (hLt : t < p.types.length) :
    Succeeds (p.type t) :=
  ⟨⟨t, p.types[t]⟩, type_eq_ok_iff_hasType.mpr
    ⟨rfl, List.getElem?_eq_getElem hLt⟩⟩

namespace Sound

variable {p : Program}
variable (hSound : p.Sound)

include hSound

/- Every member of a sound program has an owner. -/
theorem member_succeeds
    {m : MemberId}
    (hLt : m < p.members.length) :
    Succeeds (p.member m) := by
  have hDecl : p.members[m]? = some p.members[m] :=
    List.getElem?_eq_getElem hLt
  rcases hSound.wellFormed.owners m _ hDecl with
    ⟨t, d, hOwner, hType, _⟩
  exact ⟨⟨m, p.members[m], ⟨t, d⟩⟩,
    member_eq_ok_iff_hasMember.mpr
      ⟨rfl, hDecl, hOwner, hType⟩⟩

theorem exists_hasMember
    (m : MemberId)
    (hLt : m < p.members.length) :
    ∃ node, p.member m = .ok node ∧ node.id = m ∧
      p.HasMember node := by
  rcases hSound.member_succeeds hLt with ⟨node, hFound⟩
  exact ⟨node, hFound, member_eq_ok_iff_hasMember.mp hFound⟩

theorem memberNodes_succeeds :
    Succeeds p.memberNodes :=
  mapM_succeeds (fun _ hm =>
    hSound.member_succeeds (List.mem_range.mp hm))

/- What a type lists are members that it owns. -/
theorem hasMember_of_mem_declaredBy
    {t : TypeNode}
    (hType : p.HasType t)
    {m : MemberNode}
    (hDeclared : m ∈ p.declaredBy t) :
    p.HasMember m ∧ m.owner = t := by
  rcases (p.mem_declaredBy_iff t m).mp hDeclared with
    ⟨hListed, hOwner, hDecl⟩
  rcases hSound.wellFormed.memberLists t.id t.decl hType
      m.id hListed with
    ⟨d, hFound, hOwned⟩
  have hSame : d = m.decl :=
    Option.some.inj (hFound.symm.trans hDecl)
  refine ⟨⟨hDecl, ?_, ?_⟩, hOwner⟩
  · rw [← hSame, hOwned, hOwner]
  · rw [hOwner]
    exact hType

/- No member that a type lists is missing. -/
theorem map_id_declaredBy
    {t : TypeNode}
    (hType : p.HasType t) :
    (p.declaredBy t).map (fun m => m.id) =
      t.decl.members := by
  have hListed :
      ∀ id ∈ t.decl.members,
        ∃ m, p.members[id]? = some m := by
    intro id hId
    rcases hSound.wellFormed.memberLists t.id t.decl hType
        id hId with
      ⟨m, hm, _⟩
    exact ⟨m, hm⟩
  unfold declaredBy
  rw [List.map_filterMap]
  have hEach :
      ∀ id ∈ t.decl.members,
        Option.map (fun m => m.id)
            (p.members[id]?.map
              (fun d => (⟨id, d, t⟩ : MemberNode))) =
          some id := by
    intro id hId
    rcases hListed id hId with ⟨m, hm⟩
    rw [hm]
    rfl
  rw [List.filterMap_congr hEach, List.filterMap_some]

/- A type that lists no member twice has none twice. -/
theorem nodup_declaredBy
    {t : TypeNode}
    (hType : p.HasType t)
    (hOnce : t.decl.members.Nodup) :
    (p.declaredBy t).Nodup := by
  apply List.Nodup.of_map (fun m : MemberNode => m.id)
  rw [hSound.map_id_declaredBy hType]
  exact hOnce

/- Every member is listed by its owner. -/
theorem mem_declaredBy_of_hasMember
    {m : MemberNode}
    (hMember : p.HasMember m) :
    m ∈ p.declaredBy m.owner := by
  rcases hSound.wellFormed.owners m.id m.decl hMember.1 with
    ⟨t, d, hOwner, hType, hListed⟩
  have hId : t = m.owner.id :=
    Option.some.inj (hOwner.symm.trans hMember.2.1)
  have hDecl : d = m.owner.decl :=
    Option.some.inj
      (hType.symm.trans (hId ▸ hMember.2.2))
  exact (p.mem_declaredBy_iff m.owner m).mpr
    ⟨hDecl ▸ hListed, rfl, hMember.1⟩

/- What an interface inherits from are interfaces. -/
theorem isInterface_of_inherits
    {t a : TypeId}
    (hInherits : Inherits p.types t a)
    {d above : TypeDecl}
    (hType : p.types[t]? = some d)
    (hAbove : p.types[a]? = some above)
    (hInterface : d.isInterface) :
    above.isInterface := by
  have hSuper :
      ∀ t s : TypeId, s ∈ Supertypes.ofTypes p.types t →
        ∀ d, p.types[t]? = some d → d.isInterface →
          ∃ e : TypeDecl, p.types[s]? = some e ∧
            e.isInterface := by
    intro t s hs d hType hInterface
    rcases Supertypes.mem_ofTypes_iff.mp hs with
      ⟨_, hSame, hListed⟩
    cases hType.symm.trans hSame
    have hd := List.mem_of_getElem? hType
    rcases List.mem_append.mp hListed with hClass | hListed
    · have hNot := (hSound.wellFormed.superclasses d hd s
        (Option.mem_toList.mp hClass)).1
      simp_all [TypeDecl.isClass, TypeDecl.isInterface]
    · exact hSound.wellFormed.interfaces d hd s hListed
  induction hInherits generalizing d with
  | direct hStep =>
      rcases hSuper _ _ hStep d hType hInterface with
        ⟨e, hFound, he⟩
      cases hAbove.symm.trans hFound
      exact he
  | above hStep _ ih =>
      rcases hSuper _ _ hStep d hType hInterface with
        ⟨e, hFound, he⟩
      exact ih hFound hAbove he

/- All types that a type inherits from are found. -/
theorem lineage_succeeds
    {t : TypeId}
    (hLt : t < p.types.length) :
    Succeeds (p.lineage t) := by
  apply mapM_succeeds
  intro a ha
  apply type_succeeds
  rcases (hSound.fits.mem_ancestry_iff hLt a).mp ha with
    rfl | hInherits
  · exact hLt
  · exact hInherits.target_lt_length hSound.fits.closed

/- A type comes first among itself and those above it. -/
theorem exists_lineage_eq_cons
    {t : TypeNode}
    (hType : p.HasType t) :
    ∃ ancestors, p.lineage t.id = .ok (t :: ancestors) := by
  rcases hSound.lineage_succeeds hType.lt_length with
    ⟨lineage, hLineage⟩
  have hIds := map_id_of_lineage_eq_ok hLineage
  rw [hSound.fits.ancestry_eq t.id hType.lt_length] at hIds
  unfold Supertypes.ancestry at hIds
  rcases List.map_eq_cons_iff.mp hIds with
    ⟨first, ancestors, rfl, hId, _⟩
  have hFirst :=
    ((mem_of_lineage_eq_ok hLineage).mp
      List.mem_cons_self).2
  rw [hFirst.eq_of_id_eq hType hId] at hLineage
  exact ⟨ancestors, hLineage⟩

/- All interfaces that a type lists are found. -/
theorem interfacesOf_succeeds
    {t : TypeNode}
    (hType : p.HasType t) :
    Succeeds (p.interfacesOf t) := by
  apply mapM_succeeds
  intro i hi
  rcases hSound.wellFormed.interfaces t.decl
      (List.mem_of_getElem? hType) i hi with
    ⟨above, hAbove, _⟩
  exact type_succeeds (List.getElem?_eq_some_iff.mp hAbove).1

------------------------------------------------------------
-- References In Bodies And Signatures
------------------------------------------------------------

/- A delegation leads to a member. -/
theorem delegation_succeeds
    {m : MemberNode}
    (hMember : p.HasMember m)
    {target : MemberId}
    (hTarget : m.decl.delegatesTo = some target) :
    Succeeds (p.member target) := by
  rcases hSound.wellFormed.delegations m.id m.decl
      hMember.1 target hTarget with
    ⟨_, _, n, hFound, _⟩
  exact hSound.member_succeeds
    (List.getElem?_eq_some_iff.mp hFound).1

theorem superCall_succeeds
    {m : MemberNode}
    (hMember : p.HasMember m)
    {call : SuperCall}
    (hCall : call ∈ m.decl.superCalls) :
    Succeeds (p.member call.target) := by
  have hBodies := hSound.wellFormed.bodies m.decl
    (List.mem_of_getElem? hMember.1)
  exact hSound.member_succeeds (hBodies.1 call hCall)

theorem instanceTest_succeeds
    {m : MemberNode}
    (hMember : p.HasMember m)
    {test : InstanceTest}
    (hTest : test ∈ m.decl.instanceTests) :
    Succeeds (p.type test.target) := by
  have hBodies := hSound.wellFormed.bodies m.decl
    (List.mem_of_getElem? hMember.1)
  exact type_succeeds (hBodies.2 test hTest)

/- A type that a signature mentions is found. -/
theorem mention_succeeds
    {m : MemberNode}
    (hMember : p.HasMember m)
    {e : TypeExpr}
    (hMention : e ∈ m.decl.signatureTypes)
    {t : TypeId}
    (hDeclared : e.declared? = some t) :
    Succeeds (p.type t) :=
  type_succeeds (hSound.wellFormed.signatures m.decl
    (List.mem_of_getElem? hMember.1) e hMention t hDeclared)

/- The superclass of a type is found. -/
theorem superclass_succeeds
    {t : TypeNode}
    (hType : p.HasType t)
    {s : TypeId}
    (hSuper : t.decl.superClass = some s) :
    Succeeds (p.type s) := by
  rcases hSound.wellFormed.superclasses t.decl
      (List.mem_of_getElem? hType) s hSuper with
    ⟨_, above, hAbove, _⟩
  exact type_succeeds (List.getElem?_eq_some_iff.mp hAbove).1

end Sound

end Program

------------------------------------------------------------
-- A Sample Program
------------------------------------------------------------

/- A type in the file of the sample, with nothing above it. -/
def TypeDecl.plain
    (name : String)
    (kind : TypeKind)
    (flags : TypeFlags)
    (members : List MemberId) : TypeDecl :=
  ⟨name, name, "", kind, flags, none, none, none, [],
    members, [], false, false, false, false, "Shop.java",
    Span.atLine 1⟩

/- A public member without modifiers. -/
def MemberDecl.plain
    (name : String)
    (owner : TypeId)
    (shape : MemberShape)
    (tag : ExportTag) : MemberDecl :=
  ⟨name, some owner, shape, tag, none, .everyone, false,
    false, false, false, [], Span.atLine 1⟩

/- A method or constructor with a body. -/
def MemberShape.plain
    (kind : CallableKind)
    (params : List TypeExpr)
    (body : Body) : MemberShape :=
  .callable ⟨kind,
    params.map (fun type => ⟨"value", type, []⟩), false,
    body⟩

/-
  A shop is named by a property that an interface declares,
  and its second constructor calls the exported one.  A
  native window opens with or without an address, and a
  corner shop tests against other shops.
-/
def Draft.shop : Draft :=
  let exported : TypeFlags := ⟨true, false, false⟩
  let native : TypeFlags := ⟨true, true, false⟩
  ⟨[.plain "Named" .interfaceKind exported [0, 1],
    { TypeDecl.plain "Shop" .classKind exported
        [2, 3, 4, 5] with
      interfaces := [0] },
    .plain "Window" .classKind native [6, 7],
    { TypeDecl.plain "Corner" .classKind .none [8] with
      superClass := some 1 }],
  [.plain "getName" 0
      (.plain (.method .string) [] .empty) .jsProperty,
    .plain "setName" 0
      (.plain (.method .void) [.string] .empty)
      .jsProperty,
    .plain "getName" 1
      (.plain (.method .string) [] .empty) .untagged,
    .plain "setName" 1
      (.plain (.method .void) [.string] .empty) .untagged,
    .plain "Shop" 1 (.plain .constructor [] .empty)
      .jsConstructor,
    { MemberDecl.plain "Shop" 1
        (.plain .constructor [.array (.declared 0) 1]
          { Body.empty with delegatesTo := some 4 })
        .untagged with
      isIgnored := true },
    .plain "open" 2
      (.plain (.method .void) [.string] .empty) .untagged,
    .plain "open" 2
      (.plain (.method .void) [] .empty) .untagged,
    .plain "greet" 3
      (.plain (.method .void) [.declared 2]
        ⟨true, none, [⟨8, Span.atLine 2⟩],
          [⟨1, Span.atLine 3⟩]⟩) .untagged]⟩

/- The shop has no defects and no cycles. -/
theorem Draft.exists_build_shop :
    ∃ p, Draft.shop.build = .ok p :=
  ⟨_, rfl⟩

end JsExport
