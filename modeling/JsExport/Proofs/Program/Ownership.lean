import JsExport.Proofs.Listing.Repeated
import JsExport.Proofs.Program.Sound

/-
  Who lists the members of a draft.

  Where types own what they list and owners list what is
  theirs, a member is in the list of its owner and in no
  other.  So it is listed as often as its owner lists it,
  and every member is listed once when no list repeats a
  number.

  Main declarations:
    * `Draft.listed`
    * `Draft.mem_listed_iff`
    * `Draft.count_listed_eq`
    * `Draft.OwnsEach` and `Draft.ownsEach_iff`
-/

namespace JsExport

namespace Draft

/- The numbers in the member lists of all types, in order. -/
def listed
    (p : Draft) : List MemberId :=
  p.types.flatMap (fun d => d.members)

/-
  That every member is listed once, by the type that it
  names as its owner, and nothing else is listed.
-/
structure OwnsEach
    (p : Draft) : Prop where
  listed_perm : p.listed.Perm (List.range p.members.length)
  memberLists : p.MemberListsFit

variable {p : Draft}

------------------------------------------------------------
-- Lists Of Owners
------------------------------------------------------------

/- What is listed stands in the list of a type. -/
theorem mem_listed_iff_exists
    {id : MemberId} :
    id ∈ p.listed ↔
      ∃ (t : TypeId) (d : TypeDecl), p.types[t]? = some d ∧
        id ∈ d.members := by
  unfold listed
  rw [List.mem_flatMap]
  constructor
  · rintro ⟨d, hd, hListed⟩
    rcases List.mem_iff_getElem?.mp hd with ⟨t, ht⟩
    exact ⟨t, d, ht, hListed⟩
  · rintro ⟨t, d, ht, hListed⟩
    exact ⟨d, List.mem_of_getElem? ht, hListed⟩

section Fitting

variable (hLists : p.MemberListsFit)

include hLists

/- What is listed is a member. -/
theorem lt_length_of_mem_listed
    {id : MemberId}
    (hListed : id ∈ p.listed) :
    id < p.members.length := by
  rcases mem_listed_iff_exists.mp hListed with
    ⟨t, d, hType, hIn⟩
  rcases hLists t d hType id hIn with ⟨m, hMember, _⟩
  exact (List.getElem?_eq_some_iff.mp hMember).1

/- A member is in the list of its owner at most. -/
theorem owner_eq_of_mem_members
    {id : MemberId}
    {m : MemberDecl}
    (hMember : p.members[id]? = some m)
    {t : TypeId}
    {d : TypeDecl}
    (hType : p.types[t]? = some d)
    (hListed : id ∈ d.members) :
    m.owner = some t := by
  rcases hLists t d hType id hListed with
    ⟨found, hFound, hOwner⟩
  cases hFound.symm.trans hMember
  exact hOwner

/- A member is listed as often as its owner lists it. -/
theorem count_listed_eq
    {id : MemberId}
    {m : MemberDecl}
    (hMember : p.members[id]? = some m)
    {t : TypeId}
    (hOwner : m.owner = some t)
    {d : TypeDecl}
    (hType : p.types[t]? = some d) :
    p.listed.count id = d.members.count id := by
  have hPlaces :
      p.listed =
        p.types.zipIdx.flatMap (fun e => e.1.members) := by
    unfold listed
    conv_lhs => rw [← List.zipIdx_map_fst 0 p.types]
    rw [List.flatMap_map]
  have hNodup : p.types.zipIdx.Nodup := by
    apply List.Nodup.of_map Prod.snd
    rw [List.zipIdx_map_snd]
    exact List.nodup_range'
  have hOthers :
      ∀ e ∈ p.types.zipIdx, e ≠ (d, t) →
        id ∉ e.1.members := by
    intro e he hNe hListed
    have hFound := List.mk_mem_zipIdx_iff_getElem?.mp he
    have hPlace := owner_eq_of_mem_members hLists hMember
      hFound hListed
    have hIndex : e.2 = t :=
      Option.some.inj (hPlace.symm.trans hOwner)
    have hDecl : e.1 = d :=
      Option.some.inj
        (hFound.symm.trans (hIndex.symm ▸ hType))
    exact hNe (Prod.ext hDecl hIndex)
  rw [hPlaces, Listing.count_flatMap_eq_of_mem hNodup
    (List.mk_mem_zipIdx_iff_getElem?.mpr hType) hOthers]

end Fitting

/- The members are what is listed. -/
theorem mem_listed_iff
    (hLists : p.MemberListsFit)
    (hOwners : p.OwnersFit)
    {id : MemberId} :
    id ∈ p.listed ↔ id < p.members.length := by
  constructor
  · exact lt_length_of_mem_listed hLists
  · intro hLt
    rcases hOwners id _ (List.getElem?_eq_getElem hLt) with
      ⟨t, d, _, hType, hListed⟩
    exact mem_listed_iff_exists.mpr ⟨t, d, hType, hListed⟩

------------------------------------------------------------
-- Members That Are Listed Once
------------------------------------------------------------

/- A number is listed once if a member has it. -/
theorem OwnsEach.count_listed
    (hOwns : p.OwnsEach)
    (id : MemberId) :
    p.listed.count id =
      if id < p.members.length then 1 else 0 := by
  rw [hOwns.listed_perm.count_eq]
  by_cases hLt : id < p.members.length
  · rw [if_pos hLt]
    exact List.count_eq_one_of_mem List.nodup_range
      (List.mem_range.mpr hLt)
  · rw [if_neg hLt]
    apply List.count_eq_zero_of_not_mem
    rw [List.mem_range]
    exact hLt

/- The type that lists a member is the one that it names. -/
theorem OwnsEach.owners
    (hOwns : p.OwnsEach) :
    p.OwnersFit := by
  intro id m hMember
  have hLt := (List.getElem?_eq_some_iff.mp hMember).1
  have hListed : id ∈ p.listed :=
    hOwns.listed_perm.mem_iff.mpr (List.mem_range.mpr hLt)
  rcases mem_listed_iff_exists.mp hListed with
    ⟨t, d, hType, hIn⟩
  exact ⟨t, d,
    owner_eq_of_mem_members hOwns.memberLists hMember hType
      hIn,
    hType, hIn⟩

/- That is so when the lists fit and none repeats a number. -/
theorem ownsEach_iff :
    p.OwnsEach ↔
      p.MemberListsFit ∧ p.OwnersFit ∧
        ∀ d ∈ p.types, d.members.Nodup := by
  constructor
  · intro hOwns
    have hOnce : p.listed.Nodup :=
      hOwns.listed_perm.nodup_iff.mpr List.nodup_range
    exact ⟨hOwns.memberLists, hOwns.owners,
      (List.nodup_flatMap.mp hOnce).1⟩
  · rintro ⟨hLists, hOwners, hOnce⟩
    refine ⟨?_, hLists⟩
    have hNodup : p.listed.Nodup := by
      apply List.nodup_iff_count_le_one.mpr
      intro id
      by_cases hListed : id ∈ p.listed
      · have hLt := lt_length_of_mem_listed hLists hListed
        have hMember := List.getElem?_eq_getElem hLt
        rcases hOwners id _ hMember with
          ⟨t, d, hOwner, hType, _⟩
        rw [count_listed_eq hLists hMember hOwner hType]
        exact List.nodup_iff_count_le_one.mp
          (hOnce d (List.mem_of_getElem? hType)) id
      · rw [List.count_eq_zero_of_not_mem hListed]
        exact Nat.zero_le 1
    apply (List.perm_ext_iff_of_nodup hNodup
      List.nodup_range).mpr
    intro id
    rw [mem_listed_iff hLists hOwners, List.mem_range]

end Draft

end JsExport
