import JsExport.Proofs.Export.Inherited
import JsExport.Proofs.Rules.Claims
import Mathlib.Data.List.Nodup

/-
  Who claims a global name, and who comes first.

  A claim is made by each exported constructor and static
  member that is not native, and the claims stand in the
  order of the types, of fields before methods, and of the
  member lists.  Of the claims of one name the first is in
  time and all others are late.

  Main declarations:
    * `ExportView.ClaimsName` and `MemberNode.ComesBefore`
    * `ExportView.Shows.mem_claims_iff`
    * `ExportView.Shows.pairwise_claims`
    * `ExportView.Shows.exists_first_claim`
    * `ExportView.Shows.filter_lateClaims_of_mem`
-/

namespace JsExport

open Lookup

------------------------------------------------------------
-- Claimants
------------------------------------------------------------

/-
  That a member claims a global name: it is exported, is
  neither native nor in a native type, and is a constructor,
  known by the name of its type, or else static, known by
  that name and its own.
-/
structure ExportView.ClaimsName
    (v : ExportView)
    (m : MemberNode)
    (name : String) : Prop where
  member : v.program.HasMember m
  isNative_eq : m.isNative = false
  named :
    ∃ identity, v.identity? m = some identity ∧
      (m.decl.isConstructor ∧
          name = m.owner.decl.globalName ∨
        ¬ m.decl.isConstructor ∧ m.decl.isStatic ∧
          name =
            s!"{m.owner.decl.globalName}.{identity.name}")

/-
  That the claim of one member comes before that of another:
  its type does, or it is a field of the type and the other
  one is not, or the type lists it earlier.
-/
def MemberNode.ComesBefore
    (m n : MemberNode) : Prop :=
  m.owner.id < n.owner.id ∨
    m.owner = n.owner ∧
      (m.decl.isField ∧ n.decl.isCallable ∨
        m.decl.isField = n.decl.isField ∧
          m.owner.decl.members.idxOf m.id <
            m.owner.decl.members.idxOf n.id)

theorem MemberNode.not_comesBefore_self
    (m : MemberNode) :
    ¬ m.ComesBefore m := by
  rintro (hLess | ⟨_, ⟨hField, hCallable⟩ | ⟨_, hLess⟩⟩)
  · exact Nat.lt_irrefl _ hLess
  · rw [MemberDecl.isField_eq, hCallable] at hField
    cases hField
  · exact Nat.lt_irrefl _ hLess

------------------------------------------------------------
-- The Order Of The Members
------------------------------------------------------------

/- In a list without repetitions places only increase. -/
theorem Listing.pairwise_idxOf
    {α : Type}
    [DecidableEq α]
    {xs : List α}
    (hNodup : xs.Nodup) :
    xs.Pairwise (fun a b => xs.idxOf a < xs.idxOf b) := by
  apply List.pairwise_iff_getElem.mpr
  intro i j hi hj hLess
  rw [hNodup.idxOf_getElem i hi, hNodup.idxOf_getElem j hj]
  exact hLess

/- A type declares its members in the order of its list. -/
theorem Program.Sound.pairwise_declaredBy
    {p : Program}
    (hSound : p.Sound)
    {t : TypeNode}
    (hType : p.HasType t)
    (hOnce : t.decl.members.Nodup) :
    (p.declaredBy t).Pairwise (fun m n =>
      t.decl.members.idxOf m.id <
        t.decl.members.idxOf n.id) := by
  have hIds :
      ((p.declaredBy t).map (fun m => m.id)).Pairwise
        (fun a b =>
          t.decl.members.idxOf a < t.decl.members.idxOf b) := by
    rw [hSound.map_id_declaredBy hType]
    exact Listing.pairwise_idxOf hOnce
  rw [List.pairwise_map] at hIds
  exact hIds

namespace ExportView

/- A field or method of a type is among its members. -/
theorem mem_fieldsFirst_iff
    {v : ExportView}
    {t : TypeNode}
    {m : MemberNode} :
    m ∈ v.fieldsFirst t ↔ m ∈ v.program.declaredBy t := by
  refine ⟨mem_declaredBy_of_mem_fieldsFirst, ?_⟩
  intro hm
  apply List.mem_append.mpr
  rw [List.mem_filter, List.mem_filter, MemberDecl.isField_eq]
  cases hCallable : m.decl.isCallable with
  | true => exact .inr ⟨hm, rfl⟩
  | false => exact .inl ⟨hm, rfl⟩

namespace Shows

variable {v : ExportView}
variable {p : Program}
variable (hShows : v.Shows p)
variable (hSound : p.Sound)

include hShows hSound

/- The fields of a type come before its methods. -/
theorem pairwise_fieldsFirst
    (hOnce : ∀ d ∈ p.types, d.members.Nodup)
    {t : TypeNode}
    (hType : p.HasType t) :
    (v.fieldsFirst t).Pairwise MemberNode.ComesBefore := by
  have hPlaces := hSound.pairwise_declaredBy hType
    (hOnce t.decl (List.mem_of_getElem? hType))
  have hOwner :
      ∀ m ∈ v.program.declaredBy t, m.owner = t := by
    intro m hm
    exact ((v.program.mem_declaredBy_iff t m).mp hm).2.1
  rw [← hShows.program_eq] at hPlaces
  have hLike :
      ∀ test : MemberNode → Bool,
        (∀ m n, test m → test n →
          m.decl.isField = n.decl.isField) →
        ((v.program.declaredBy t).filter test).Pairwise
          MemberNode.ComesBefore := by
    intro test hSame
    apply (hPlaces.filter test).imp_of_mem
    intro m n hm hn hLess
    rcases List.mem_filter.mp hm with ⟨hmIn, hmTest⟩
    rcases List.mem_filter.mp hn with ⟨hnIn, hnTest⟩
    refine .inr ⟨(hOwner m hmIn).trans (hOwner n hnIn).symm,
      .inr ⟨hSame m n hmTest hnTest, ?_⟩⟩
    rw [hOwner m hmIn]
    exact hLess
  apply List.pairwise_append.mpr
  refine ⟨hLike _ ?_, hLike _ ?_, ?_⟩
  · intro m n hm hn
    rw [hm, hn]
  · intro m n hm hn
    rw [MemberDecl.isField_eq, MemberDecl.isField_eq, hm, hn]
  · intro m hm n hn
    rcases List.mem_filter.mp hm with ⟨hmIn, hField⟩
    rcases List.mem_filter.mp hn with ⟨hnIn, hCallable⟩
    exact .inr ⟨(hOwner m hmIn).trans (hOwner n hnIn).symm,
      .inl ⟨hField, hCallable⟩⟩

------------------------------------------------------------
-- The Claims Of Claimants
------------------------------------------------------------

/- The global name that a member has, if it has one. -/
theorem globalName?_eq_some_iff
    {m : MemberNode}
    (hMember : p.HasMember m)
    {name : String} :
    v.globalName? m = some name ↔
      m.decl.isNative = false ∧
        ∃ identity, v.identity? m = some identity ∧
          (m.decl.isConstructor ∧
              name = m.owner.decl.globalName ∨
            ¬ m.decl.isConstructor ∧ m.decl.isStatic ∧
              name =
                s!"{m.owner.decl.globalName}.{
                  identity.name}") := by
  have hFixed :=
    hSound.isFixedPoint_exportTable hShows.table_eq
  unfold globalName?
  cases hIdentity : v.identity? m with
  | none => simp
  | some identity =>
      have hRole := hSound.role_eq_constructor_iff hFixed
        hMember hIdentity
      cases hNative : m.decl.isNative with
      | true => simp
      | false =>
          simp only [Option.some.injEq, exists_eq_left',
            true_and, Bool.false_eq_true, if_false]
          by_cases hMaker : m.decl.isConstructor
          · rw [if_pos (hRole.mpr hMaker), Option.some.injEq,
              eq_comm]
            simp [hMaker]
          · rw [if_neg (fun hIs => hMaker (hRole.mp hIs))]
            by_cases hStatic : m.decl.isStatic
            · rw [if_pos hStatic, Option.some.injEq, eq_comm]
              simp [hMaker, hStatic]
            · rw [if_neg hStatic]
              simp [hMaker, hStatic]

/- The claims are those of the claimants. -/
theorem mem_claims_iff
    {c : Claim} :
    c ∈ v.claims ↔ v.ClaimsName c.member c.name := by
  have hMade :
      c ∈ v.claims ↔
        p.HasMember c.member ∧
          v.claim? c.member = some c := by
    rw [hShows.claims_eq_flatMap]
    simp only [List.mem_flatMap, List.mem_filterMap,
      mem_fieldsFirst_iff, hShows.types_eq,
      hShows.program_eq, Program.mem_typeNodes_iff]
    constructor
    · rintro ⟨t, hType, m, hm, hClaim⟩
      rw [(claim?_eq_some_iff.mp hClaim).2.1]
      exact ⟨(hSound.hasMember_of_mem_declaredBy hType hm).1,
        hClaim⟩
    · rintro ⟨hMember, hClaim⟩
      exact ⟨c.member.owner, hMember.2.2, c.member,
        hSound.mem_declaredBy_of_hasMember hMember, hClaim⟩
  rw [hMade, claim?_eq_some_iff]
  constructor
  · rintro ⟨hMember, hOwner, _, hName⟩
    rcases (hShows.globalName?_eq_some_iff hSound
        hMember).mp hName with
      ⟨hNative, hNamed⟩
    refine ⟨?_, ?_, hNamed⟩
    · rw [hShows.program_eq]
      exact hMember
    · unfold MemberNode.isNative
      rw [hNative, hOwner]
      rfl
  · intro hClaims
    have hMember := hClaims.member
    rw [hShows.program_eq] at hMember
    rcases Bool.or_eq_false_iff.mp hClaims.isNative_eq with
      ⟨hNative, hOwner⟩
    exact ⟨hMember, hOwner, rfl,
      (hShows.globalName?_eq_some_iff hSound hMember).mpr
        ⟨hNative, hClaims.named⟩⟩

/- The claims stand in the order of the claimants. -/
theorem pairwise_claims
    (hOnce : ∀ d ∈ p.types, d.members.Nodup) :
    v.claims.Pairwise (fun c d =>
      c.member.ComesBefore d.member) := by
  have hTypes : v.types.Pairwise (fun t u => t.id < u.id) := by
    rw [hShows.types_eq]
    apply List.pairwise_map.mp
    rw [p.map_id_typeNodes]
    exact List.pairwise_lt_range'
  have hHas : ∀ t ∈ v.types, p.HasType t := by
    intro t ht
    rw [hShows.types_eq] at ht
    exact Program.mem_typeNodes_iff.mp ht
  rw [hShows.claims_eq_flatMap]
  apply List.pairwise_flatMap.mpr
  constructor
  · intro t ht
    apply List.pairwise_filterMap.mpr
    apply (hShows.pairwise_fieldsFirst hSound hOnce
      (hHas t ht)).imp
    intro m n hBefore c hc d hd
    rw [(claim?_eq_some_iff.mp hc).2.1,
      (claim?_eq_some_iff.mp hd).2.1]
    exact hBefore
  · apply hTypes.imp
    intro t u hLess c hc d hd
    rcases List.mem_filterMap.mp hc with ⟨m, hm, hFound⟩
    rcases List.mem_filterMap.mp hd with ⟨n, hn, hFound'⟩
    rw [(claim?_eq_some_iff.mp hFound).2.1,
      (claim?_eq_some_iff.mp hFound').2.1]
    left
    rw [hShows.owner_eq_of_mem_fieldsFirst hm,
      hShows.owner_eq_of_mem_fieldsFirst hn]
    exact hLess

/- Of a member there is one claim. -/
theorem claim_eq_of_member_id_eq
    {c d : Claim}
    (hc : c ∈ v.claims)
    (hd : d ∈ v.claims)
    (hId : c.member.id = d.member.id) :
    c = d := by
  have hMember := ((hShows.mem_claims_iff hSound).mp
    hc).member.eq_of_id_eq
      ((hShows.mem_claims_iff hSound).mp hd).member hId
  have hFound := hShows.claim?_eq_some_of_mem hc
  rw [hMember, hShows.claim?_eq_some_of_mem hd] at hFound
  exact (Option.some.inj hFound).symm

------------------------------------------------------------
-- Claims In Time
------------------------------------------------------------

variable (hOnce : ∀ d ∈ p.types, d.members.Nodup)

include hOnce

theorem nodup_claims :
    v.claims.Nodup := by
  apply (hShows.pairwise_claims hSound hOnce).imp
  rintro c _ hBefore rfl
  exact c.member.not_comesBefore_self hBefore

/- Of the claims of a name one is first. -/
theorem exists_first_claim
    {c : Claim}
    (hc : c ∈ v.claims) :
    ∃ first ∈ v.claims, first.name = c.name ∧
      first ∉ lateClaims [] v.claims ∧
      ∀ d ∈ v.claims, d.name = c.name → d ≠ first →
        first.member.ComesBefore d.member ∧
          d ∈ lateClaims [] v.claims := by
  let named : Claim → Bool :=
    fun d => decide (d.name = c.name)
  have hLate :
      (lateClaims [] v.claims).filter named =
        (v.claims.filter named).tail := by
    rw [filter_lateClaims, if_neg List.not_mem_nil]
  have hOrder :=
    (hShows.pairwise_claims hSound hOnce).filter named
  have hNodup :=
    (hShows.nodup_claims hSound hOnce).filter named
  have hMem :
      ∀ d, d ∈ v.claims.filter named ↔
        d ∈ v.claims ∧ d.name = c.name := by
    intro d
    rw [List.mem_filter, decide_eq_true_eq]
  cases hSplit : v.claims.filter named with
  | nil =>
      have hHere := (hMem c).mpr ⟨hc, rfl⟩
      rw [hSplit] at hHere
      cases hHere
  | cons first rest =>
      rw [hSplit] at hLate hOrder hNodup hMem
      rcases (hMem first).mp List.mem_cons_self with
        ⟨hFirst, hName⟩
      refine ⟨first, hFirst, hName, ?_, ?_⟩
      · intro hIn
        have hRest :
            first ∈ (lateClaims [] v.claims).filter named :=
          List.mem_filter.mpr ⟨hIn, decide_eq_true hName⟩
        rw [hLate] at hRest
        exact (List.nodup_cons.mp hNodup).1 hRest
      · intro d hd hSame hNe
        have hRest : d ∈ rest :=
          (List.mem_cons.mp
            ((hMem d).mpr ⟨hd, hSame⟩)).resolve_left hNe
        refine ⟨(List.pairwise_cons.mp hOrder).1 d hRest, ?_⟩
        change d ∈ (first :: rest).tail at hRest
        rw [← hLate] at hRest
        exact List.mem_of_mem_filter hRest

/- The late claims of a member are its claim, if it is late. -/
theorem filter_lateClaims_of_mem
    {c : Claim}
    (hc : c ∈ v.claims) :
    (lateClaims [] v.claims).filter (fun d =>
        decide (d.member.id = c.member.id)) =
      if c ∈ lateClaims [] v.claims then [c] else [] := by
  have hLate := lateClaims_sublist [] v.claims
  have hOnly :
      ∀ d ∈ lateClaims [] v.claims,
        decide (d.member.id = c.member.id) → d = c := by
    intro d hd hId
    exact hShows.claim_eq_of_member_id_eq hSound
      (hLate.subset hd) hc (of_decide_eq_true hId)
  split
  · rename_i hIn
    exact Listing.filter_eq_singleton
      ((hShows.nodup_claims hSound hOnce).sublist hLate)
      hIn (decide_eq_true rfl) hOnly
  · rename_i hNot
    apply List.filter_eq_nil_iff.mpr
    intro d hd hId
    exact hNot (hOnly d hd hId ▸ hd)

end Shows

end ExportView

end JsExport
