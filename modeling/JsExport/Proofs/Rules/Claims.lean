import JsExport.Proofs.Export.Slots
import JsExport.Proofs.Rules.Naming

/-
  The claims of the members of one type.

  A member claims at most one global name, where the claims
  of its type are made.  So the claims of two methods of a
  type stand in the order of the methods, and when nothing
  else claims their name, all but the first are late.

  Main declarations:
    * `ExportView.claim?`
    * `ExportView.Shows.claims_eq_flatMap`
    * `ExportView.Shows.filter_claims_eq`
    * `ExportView.Shows.filter_lateClaims_of_alone`
-/

namespace JsExport

------------------------------------------------------------
-- Types Of A Program
------------------------------------------------------------

/- The types of a program are numbered from the first. -/
theorem Program.map_id_typeNodes
    (p : Program) :
    p.typeNodes.map (fun t => t.id) =
      List.range' 0 p.types.length := by
  unfold typeNodes
  rw [List.map_map]
  exact List.zipIdx_map_snd 0 p.types

/- No type of a program has two numbers. -/
theorem Program.nodup_typeNodes
    (p : Program) :
    p.typeNodes.Nodup := by
  apply List.Nodup.of_map (fun t : TypeNode => t.id)
  rw [p.map_id_typeNodes]
  exact List.nodup_range'

namespace ExportView

------------------------------------------------------------
-- Claims Of Members
------------------------------------------------------------

/- The claim of a member, unless its type is native. -/
def claim?
    (v : ExportView)
    (m : MemberNode) : Option Claim :=
  if m.owner.decl.isNative then none
  else (v.globalName? m).map (fun name => ⟨m, name⟩)

variable {v : ExportView}

theorem claim?_eq_some_iff
    {m : MemberNode}
    {c : Claim} :
    v.claim? m = some c ↔
      m.owner.decl.isNative = false ∧ c.member = m ∧
        v.globalName? m = some c.name := by
  rcases c with ⟨member, name⟩
  unfold claim?
  by_cases hNative : m.owner.decl.isNative
  · simp [hNative]
  · rw [if_neg hNative, Option.map_eq_some_iff]
    constructor
    · rintro ⟨_, hName, hEq⟩
      cases hEq
      exact ⟨by simpa using hNative, rfl, hName⟩
    · rintro ⟨_, rfl, hName⟩
      exact ⟨name, hName, rfl⟩

/- Of the claims of members those of some are kept. -/
theorem filter_filterMap_claim?
    (test : MemberNode → Bool)
    (members : List MemberNode) :
    (members.filterMap v.claim?).filter
        (fun c => test c.member) =
      (members.filter test).filterMap v.claim? := by
  induction members with
  | nil => rfl
  | cons m members ih =>
      cases hClaim : v.claim? m with
      | none =>
          rw [List.filterMap_cons_none hClaim, ih,
            List.filter_cons]
          split
          · rw [List.filterMap_cons_none hClaim]
          · rfl
      | some c =>
          have hMember := (claim?_eq_some_iff.mp hClaim).2.1
          rw [List.filterMap_cons_some hClaim,
            List.filter_cons, List.filter_cons, hMember, ih]
          split
          · rw [List.filterMap_cons_some hClaim]
          · rfl

/- A pair of methods of a type is found among its members. -/
theorem filter_fieldsFirst_eq
    {t : TypeNode}
    (hNodup : (v.program.declaredBy t).Nodup)
    {a b : MemberNode}
    (hPair :
      (a, b) ∈ Listing.pairs (v.program.declaredBy t))
    (ha : a.decl.isCallable)
    (hb : b.decl.isCallable) :
    (v.fieldsFirst t).filter
        (fun m => decide (m = a ∨ m = b)) = [a, b] := by
  have hCallable :
      ∀ m : MemberNode, m = a ∨ m = b →
        m.decl.isCallable := by
    rintro m (rfl | rfl)
    · exact ha
    · exact hb
  have hFields :
      ((v.program.declaredBy t).filter
          (fun m => m.decl.isField)).filter
            (fun m => decide (m = a ∨ m = b)) = [] := by
    apply List.filter_eq_nil_iff.mpr
    intro m hm hTest
    have hField := (List.mem_filter.mp hm).2
    rw [MemberDecl.isField_eq,
      hCallable m (of_decide_eq_true hTest)] at hField
    cases hField
  have hMethods :
      ∀ m ∈ v.program.declaredBy t,
        (decide (m = a ∨ m = b) && m.decl.isCallable) =
          decide (m = a ∨ m = b) := by
    intro m _
    by_cases hTest : m = a ∨ m = b
    · rw [hCallable m hTest, Bool.and_true]
    · rw [decide_eq_false hTest, Bool.false_and]
  unfold fieldsFirst
  rw [List.filter_append, hFields, List.nil_append,
    List.filter_filter, List.filter_congr hMethods]
  exact Listing.filter_eq_of_mem_pairs hNodup hPair

namespace Shows

variable {p : Program}
variable (hShows : v.Shows p)

include hShows

theorem owner_eq_of_mem_fieldsFirst
    {t : TypeNode}
    {m : MemberNode}
    (hMem : m ∈ v.fieldsFirst t) :
    m.owner = t := by
  have hDeclared := mem_declaredBy_of_mem_fieldsFirst hMem
  rw [hShows.program_eq] at hDeclared
  exact ((p.mem_declaredBy_iff t m).mp hDeclared).2.1

/- The claims of a type are those of its members. -/
theorem claims_eq_flatMap :
    v.claims =
      v.types.flatMap (fun t =>
        (v.fieldsFirst t).filterMap v.claim?) := by
  have hEach :
      ∀ t : TypeNode,
        (v.fieldsFirst t).filterMap v.claim? =
          if t.decl.isNative then []
          else (v.fieldsFirst t).filterMap (fun m =>
            (v.globalName? m).map
              (fun name => ⟨m, name⟩)) := by
    intro t
    have hOwner := fun m hm =>
      hShows.owner_eq_of_mem_fieldsFirst (t := t) (m := m) hm
    split
    · rename_i hNative
      apply List.filterMap_eq_nil_iff.mpr
      intro m hm
      unfold claim?
      rw [hOwner m hm, if_pos hNative]
    · rename_i hCode
      apply List.filterMap_congr
      intro m hm
      unfold claim?
      rw [hOwner m hm, if_neg hCode]
  simp only [hEach]
  unfold claims
  induction v.types with
  | nil => rfl
  | cons t types ih =>
      rw [List.flatMap_cons, ← ih]
      by_cases hNative : t.decl.isNative
      · rw [if_pos hNative,
          List.filter_cons_of_neg (by simpa using hNative)]
        rfl
      · rw [if_neg hNative,
          List.filter_cons_of_pos (by simpa using hNative)]
        rfl

/- A member claims the name that it would have. -/
theorem claim?_eq_some_of_mem
    {c : Claim}
    (hClaim : c ∈ v.claims) :
    v.claim? c.member = some c := by
  rw [hShows.claims_eq_flatMap] at hClaim
  rcases List.mem_flatMap.mp hClaim with ⟨t, _, hIn⟩
  rcases List.mem_filterMap.mp hIn with ⟨m, _, hFound⟩
  rw [(claim?_eq_some_iff.mp hFound).2.1]
  exact hFound

/-
  The claims of two methods of a type are made in the order
  of the methods.
-/
theorem filter_claims_eq
    (hSound : p.Sound)
    (hOnce : ∀ d ∈ p.types, d.members.Nodup)
    {t : TypeNode}
    (hType : p.HasType t)
    {a b : MemberNode}
    (hPair : (a, b) ∈ Listing.pairs (p.declaredBy t))
    (ha : a.decl.isCallable)
    (hb : b.decl.isCallable) :
    v.claims.filter (fun c =>
        decide (c.member = a ∨ c.member = b)) =
      [a, b].filterMap v.claim? := by
  let test : MemberNode → Bool :=
    fun m => decide (m = a ∨ m = b)
  have hEach :
      v.claims.filter (fun c => test c.member) =
        v.types.flatMap (fun u =>
          ((v.fieldsFirst u).filter test).filterMap
            v.claim?) := by
    rw [hShows.claims_eq_flatMap, List.filter_flatMap]
    simp only [filter_filterMap_claim?]
  have hOwners : a.owner = t ∧ b.owner = t := by
    rcases Listing.mem_of_mem_pairs hPair with ⟨hIn, hIn'⟩
    exact ⟨((p.mem_declaredBy_iff t a).mp hIn).2.1,
      ((p.mem_declaredBy_iff t b).mp hIn').2.1⟩
  have hOthers :
      ∀ u ∈ v.types, u ≠ t →
        ((v.fieldsFirst u).filter test).filterMap v.claim? =
          [] := by
    intro u _ hNe
    have hNone : (v.fieldsFirst u).filter test = [] := by
      apply List.filter_eq_nil_iff.mpr
      intro m hm hTest
      apply hNe
      rw [← hShows.owner_eq_of_mem_fieldsFirst hm]
      rcases of_decide_eq_true hTest with rfl | rfl
      · exact hOwners.1
      · exact hOwners.2
    rw [hNone]
    rfl
  have hListed : t ∈ v.types := by
    rw [hShows.types_eq]
    exact Program.mem_typeNodes_iff.mpr hType
  have hTypes : v.types.Nodup := by
    rw [hShows.types_eq]
    exact p.nodup_typeNodes
  have hMembers : (v.program.declaredBy t).Nodup := by
    rw [hShows.program_eq]
    exact hSound.nodup_declaredBy hType
      (hOnce t.decl (List.mem_of_getElem? hType))
  rw [← hShows.program_eq] at hPair
  have hOwn : (v.fieldsFirst t).filter test = [a, b] :=
    filter_fieldsFirst_eq hMembers hPair ha hb
  rw [← hOwn, ← Listing.flatMap_eq_of_mem hTypes hListed
    hOthers]
  exact hEach

/-
  When two members claim one name and nothing else claims
  it, all of their claims but the first are late.
-/
theorem filter_lateClaims_of_alone
    {a b : MemberNode}
    {name : String}
    (hName :
      ∀ c ∈ v.claims, c.member = a ∨ c.member = b →
        c.name = name)
    (hAlone :
      ∀ c ∈ v.claims,
        v.globalName? a = some c.name ∨
          v.globalName? b = some c.name →
        c.member = a ∨ c.member = b) :
    (lateClaims [] v.claims).filter (fun c =>
        decide (c.member = a ∨ c.member = b)) =
      (v.claims.filter (fun c =>
        decide (c.member = a ∨ c.member = b))).tail := by
  have hLate := (lateClaims_sublist [] v.claims).subset
  by_cases hSome :
      ∃ c ∈ v.claims, c.member = a ∨ c.member = b
  · rcases hSome with ⟨c, hc, hMember⟩
    have hClaimed :
        v.globalName? a = some name ∨
          v.globalName? b = some name := by
      have hFound := (claim?_eq_some_iff.mp
        (hShows.claim?_eq_some_of_mem hc)).2.2
      rw [hName c hc hMember] at hFound
      rcases hMember with rfl | rfl
      · exact .inl hFound
      · exact .inr hFound
    have hSame :
        ∀ d ∈ v.claims,
          decide (d.member = a ∨ d.member = b) =
            decide (d.name = name) := by
      intro d hd
      rw [decide_eq_decide]
      refine ⟨hName d hd, fun hIs => hAlone d hd ?_⟩
      rw [hIs]
      exact hClaimed
    rw [List.filter_congr hSame,
      List.filter_congr (fun d hd => hSame d (hLate hd)),
      filter_lateClaims, if_neg List.not_mem_nil]
  · have hNone :
        ∀ d ∈ v.claims,
          ¬ decide (d.member = a ∨ d.member = b) := by
      intro d hd hIs
      exact hSome ⟨d, hd, of_decide_eq_true hIs⟩
    rw [List.filter_eq_nil_iff.mpr hNone,
      List.filter_eq_nil_iff.mpr
        (fun d hd => hNone d (hLate hd))]
    rfl

end Shows

end ExportView

end JsExport
