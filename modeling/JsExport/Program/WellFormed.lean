import JsExport.Program.Validation

/-
  What it means for declarations to fit together.

  The conditions are stated reference by reference, without
  regard to the order in which defects are looked for.

  Key definitions include:
    * `Draft.SuperclassesFit`
    * `Draft.InterfacesFit`
    * `Draft.MemberListsFit`
    * `Draft.OwnersFit`
    * `Draft.SignaturesFit`
    * `Draft.DelegationsFit`
    * `Draft.BodiesFit`
    * `Draft.WellFormed`

  A draft has no defects exactly when it is well-formed:
    * `Draft.defects_eq_nil_iff`
-/

namespace JsExport

namespace Draft

------------------------------------------------------------
-- Conditions On Types
------------------------------------------------------------

/- Only classes have superclasses, which are classes. -/
def SuperclassesFit
    (p : Draft) : Prop :=
  ∀ d ∈ p.types, ∀ s, d.superClass = some s →
    d.isClass ∧
      ∃ above, p.types[s]? = some above ∧ above.isClass

/- What a type implements is an interface. -/
def InterfacesFit
    (p : Draft) : Prop :=
  ∀ d ∈ p.types, ∀ t ∈ d.interfaces,
    ∃ above, p.types[t]? = some above ∧ above.isInterface

/- What a type lists is a member that it owns. -/
def MemberListsFit
    (p : Draft) : Prop :=
  ∀ (t : TypeId) (d : TypeDecl), p.types[t]? = some d →
    ∀ id ∈ d.members, ∃ m : MemberDecl,
      p.members[id]? = some m ∧ m.owner = some t

------------------------------------------------------------
-- Conditions On Members
------------------------------------------------------------

/- Every member has an owner that lists it. -/
def OwnersFit
    (p : Draft) : Prop :=
  ∀ (id : MemberId) (m : MemberDecl),
    p.members[id]? = some m →
      ∃ (t : TypeId) (d : TypeDecl), m.owner = some t ∧
        p.types[t]? = some d ∧ id ∈ d.members

/- The types of the program in signatures are there. -/
def SignaturesFit
    (p : Draft) : Prop :=
  ∀ m ∈ p.members, ∀ e ∈ m.signatureTypes,
    ∀ t, e.declared? = some t → t < p.types.length

/- Constructors delegate to others of their type. -/
def DelegationsFit
    (p : Draft) : Prop :=
  ∀ (id : MemberId) (m : MemberDecl),
    p.members[id]? = some m →
      ∀ target, m.delegatesTo = some target →
        m.isConstructor ∧ target ≠ id ∧
          ∃ n : MemberDecl, p.members[target]? = some n ∧
            n.isConstructor ∧ n.owner = m.owner

/- What bodies call and test against is there. -/
def BodiesFit
    (p : Draft) : Prop :=
  ∀ m ∈ p.members,
    (∀ c ∈ m.superCalls, c.target < p.members.length) ∧
      ∀ c ∈ m.instanceTests, c.target < p.types.length

/- All references of a draft lead where they should. -/
structure WellFormed
    (p : Draft) : Prop where
  superclasses : p.SuperclassesFit
  interfaces : p.InterfacesFit
  memberLists : p.MemberListsFit
  owners : p.OwnersFit
  signatures : p.SignaturesFit
  delegations : p.DelegationsFit
  bodies : p.BodiesFit

------------------------------------------------------------
-- Types Without Defects
------------------------------------------------------------

/- Without defects, the superclass is a class. -/
theorem superclassDefects_eq_nil_iff
    (p : Draft)
    (d : TypeDecl) :
    p.superclassDefects d = [] ↔
      ∀ s, d.superClass = some s →
        d.isClass ∧ ∃ above,
          p.types[s]? = some above ∧ above.isClass := by
  unfold superclassDefects
  cases hSuper : d.superClass with
  | none => simp
  | some s =>
      cases hAbove : p.types[s]? with
      | none => cases hClass : d.isClass <;> simp [hAbove]
      | some above =>
          cases hClass : d.isClass <;>
            cases hOther : above.isClass <;>
              simp [hAbove, hOther]

/- Without defects, all interfaces are interfaces. -/
theorem interfaceDefects_eq_nil_iff
    (p : Draft)
    (d : TypeDecl) :
    p.interfaceDefects d = [] ↔
      ∀ t ∈ d.interfaces, ∃ above,
        p.types[t]? = some above ∧ above.isInterface := by
  unfold interfaceDefects
  rw [List.flatMap_eq_nil_iff]
  apply forall_congr'
  intro t
  apply imp_congr_right
  intro _
  cases hAbove : p.types[t]? with
  | none => simp
  | some above =>
      cases hOther : above.isInterface <;> simp [hOther]

/- Without defects, a type owns the members it lists. -/
theorem memberListDefects_eq_nil_iff
    (p : Draft)
    (d : TypeDecl)
    (t : TypeId) :
    p.memberListDefects d t = [] ↔
      ∀ id ∈ d.members, ∃ m,
        p.members[id]? = some m ∧ m.owner = some t := by
  unfold memberListDefects
  rw [List.flatMap_eq_nil_iff]
  apply forall_congr'
  intro id
  apply imp_congr_right
  intro _
  cases hMember : p.members[id]? with
  | none => simp
  | some m => simp

------------------------------------------------------------
-- Members Without Defects
------------------------------------------------------------

/- A type lists a member when the member is in its list. -/
theorem lists_iff
    (p : Draft)
    (t : TypeId)
    (id : MemberId) :
    p.lists t id = true ↔
      ∃ d, p.types[t]? = some d ∧ id ∈ d.members := by
  unfold lists
  cases p.types[t]? with
  | none => simp
  | some d => simp

/- Without defects, the owner lists its member. -/
theorem ownerDefects_eq_nil_iff
    (p : Draft)
    (m : MemberDecl)
    (id : MemberId) :
    p.ownerDefects m id = [] ↔
      ∃ t d, m.owner = some t ∧ p.types[t]? = some d ∧
        id ∈ d.members := by
  unfold ownerDefects
  cases hOwner : m.owner with
  | none => simp
  | some t => simp [lists_iff]

/- Without defects, signatures name types of the draft. -/
theorem signatureDefects_eq_nil_iff
    (p : Draft)
    (m : MemberDecl) :
    p.signatureDefects m = [] ↔
      ∀ e ∈ m.signatureTypes, ∀ t,
        e.declared? = some t → t < p.types.length := by
  unfold signatureDefects
  rw [List.flatMap_eq_nil_iff]
  constructor
  · intro hAll e he t ht
    have hNil :=
      hAll t (List.mem_filterMap.mpr ⟨e, he, ht⟩)
    by_cases hLt : t < p.types.length
    · exact hLt
    · simp [hLt] at hNil
  · intro hAll t hMem
    rcases List.mem_filterMap.mp hMem with ⟨e, he, ht⟩
    simp [hAll e he t ht]

/- A constructor may delegate to others of its type. -/
theorem mayDelegate_iff
    (p : Draft)
    (m : MemberDecl)
    (id target : MemberId) :
    p.mayDelegate m id target = true ↔
      m.isConstructor ∧ target ≠ id ∧
        ∃ n : MemberDecl, p.members[target]? = some n ∧
          n.isConstructor ∧ n.owner = m.owner := by
  unfold mayDelegate
  cases hMember : p.members[target]? with
  | none => simp
  | some n =>
      simp only [Option.any_some, Bool.and_eq_true,
        decide_eq_true_eq, bne_iff_ne, Option.some.injEq]
      constructor
      · rintro ⟨hMaker, ⟨hOwner, hOther⟩, hNe⟩
        exact ⟨hMaker, hNe, n, rfl, hOther, hOwner⟩
      · rintro ⟨hMaker, hNe, n', rfl, hOther, hOwner⟩
        exact ⟨hMaker, ⟨hOwner, hOther⟩, hNe⟩

/- Without defects, delegation stays within the type. -/
theorem delegationDefects_eq_nil_iff
    (p : Draft)
    (m : MemberDecl)
    (id : MemberId) :
    p.delegationDefects m id = [] ↔
      ∀ target, m.delegatesTo = some target →
        m.isConstructor ∧ target ≠ id ∧
          ∃ n : MemberDecl, p.members[target]? = some n ∧
            n.isConstructor ∧ n.owner = m.owner := by
  unfold delegationDefects
  cases hTarget : m.delegatesTo with
  | none => simp
  | some target =>
      simp only [Option.some.injEq, forall_eq',
        ← mayDelegate_iff]
      by_cases hMay : p.mayDelegate m id target <;>
        simp [hMay]

/- Without defects, bodies refer to what is there. -/
theorem bodyDefects_eq_nil_iff
    (p : Draft)
    (m : MemberDecl) :
    p.bodyDefects m = [] ↔
      (∀ c ∈ m.superCalls, c.target < p.members.length) ∧
        ∀ c ∈ m.instanceTests,
          c.target < p.types.length := by
  unfold bodyDefects
  rw [List.append_eq_nil_iff, List.flatMap_eq_nil_iff,
    List.flatMap_eq_nil_iff]
  simp

------------------------------------------------------------
-- Drafts Without Defects
------------------------------------------------------------

/- A draft without defects is well-formed, and conversely. -/
theorem defects_eq_nil_iff
    (p : Draft) :
    p.defects = [] ↔ p.WellFormed := by
  unfold defects
  rw [List.append_eq_nil_iff, List.flatMap_eq_nil_iff,
    List.flatMap_eq_nil_iff]
  simp only [typeDefects, memberDefects, Prod.forall,
    List.mk_mem_zipIdx_iff_getElem?,
    List.append_eq_nil_iff,
    superclassDefects_eq_nil_iff,
    interfaceDefects_eq_nil_iff,
    memberListDefects_eq_nil_iff,
    ownerDefects_eq_nil_iff,
    signatureDefects_eq_nil_iff,
    delegationDefects_eq_nil_iff,
    bodyDefects_eq_nil_iff]
  constructor
  · rintro ⟨hTypes, hMembers⟩
    constructor
    · intro d hd
      rcases List.mem_iff_getElem?.mp hd with ⟨t, ht⟩
      exact (hTypes d t ht).1
    · intro d hd
      rcases List.mem_iff_getElem?.mp hd with ⟨t, ht⟩
      exact (hTypes d t ht).2.1
    · intro t d ht
      exact (hTypes d t ht).2.2
    · intro id m hm
      exact (hMembers m id hm).1
    · intro m hm
      rcases List.mem_iff_getElem?.mp hm with ⟨id, hId⟩
      exact (hMembers m id hId).2.1
    · intro id m hm
      exact (hMembers m id hm).2.2.1
    · intro m hm
      rcases List.mem_iff_getElem?.mp hm with ⟨id, hId⟩
      exact (hMembers m id hId).2.2.2
  · intro hFit
    constructor
    · intro d t ht
      have hd := List.mem_of_getElem? ht
      exact ⟨hFit.superclasses d hd, hFit.interfaces d hd,
        hFit.memberLists t d ht⟩
    · intro m id hm
      have hMem := List.mem_of_getElem? hm
      exact ⟨hFit.owners id m hm, hFit.signatures m hMem,
        hFit.delegations id m hm, hFit.bodies m hMem⟩

end Draft

end JsExport
