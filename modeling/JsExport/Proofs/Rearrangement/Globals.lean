import JsExport.Proofs.Check.Success
import JsExport.Proofs.Rearrangement.Names
import JsExport.Proofs.Rules.Naming

/-
  Reports on global names, of members in another order.

  A constructor calls the one that it called, so the same
  constructors are stranded.  A global name belongs to the
  first that claims it, which is another member when the
  order is another one; but all claims except one are late.

  Main declarations:
    * `ExportView.Rearranges.constructors_perm`
    * `ExportView.countP_lateClaims`
    * `Rearrangement.Restates`
    * `ExportView.Rearranges.namingFindings_restates`
-/

namespace JsExport

open Lookup

------------------------------------------------------------
-- Chains Of Constructors
------------------------------------------------------------

namespace Program.Rearranges

variable {p q : Program}
variable {r : Rearrangement}
variable (hMoves : q.Rearranges r p)

include hMoves

/- A search for a constructor comes to the same end. -/
theorem reachesWithin_eq_ok
    {primary c : MemberNode}
    {calls : Nat}
    {reaches : Bool}
    (hReaches :
      p.reachesWithin primary calls c = .ok reaches) :
    q.reachesWithin (r.member primary) calls (r.member c) =
      .ok reaches := by
  induction calls generalizing c with
  | zero => exact hReaches
  | succ calls ih =>
      unfold reachesWithin at hReaches ⊢
      rw [r.decl_member, MemberDecl.delegatesTo_renumber]
      cases hTarget : c.decl.delegatesTo with
      | none =>
          rw [hTarget] at hReaches
          exact hReaches
      | some target =>
          rw [hTarget] at hReaches
          rcases bind_eq_ok_iff.mp hReaches with
            ⟨next, hNext, hRest⟩
          apply bind_eq_ok_iff.mpr
          refine ⟨r.member next, hMoves.member_eq_ok hNext,
            ?_⟩
          rw [r.id_member, r.id_member, r.number_beq]
          change (if next.owner.id != primary.owner.id
            then _ else _) = _
          by_cases hOther : next.owner.id != primary.owner.id
          · rw [if_pos hOther] at hRest ⊢
            exact hRest
          · rw [if_neg hOther] at hRest ⊢
            by_cases hSame : next.id == primary.id
            · rw [if_pos hSame] at hRest ⊢
              exact hRest
            · rw [if_neg hSame] at hRest ⊢
              exact ih hRest

theorem reachesConstructor_eq_ok
    {primary c : MemberNode}
    {reaches : Bool}
    (hReaches :
      p.reachesConstructor primary c = .ok reaches) :
    q.reachesConstructor (r.member primary) (r.member c) =
      .ok reaches := by
  unfold reachesConstructor
  rw [hMoves.length_members_eq]
  exact hMoves.reachesWithin_eq_ok hReaches

end Program.Rearranges

namespace ExportView.Rearranges

variable {v w : ExportView}
variable {r : Rearrangement}
variable (hViews : w.Rearranges r v)

include hViews

------------------------------------------------------------
-- Constructors
------------------------------------------------------------

theorem view_identity?_eq
    (m : MemberNode) :
    w.identity? (r.member m) = v.identity? m :=
  hViews.table_identity?_eq m.id

theorem isJsConstructor_eq
    (m : MemberNode) :
    w.isJsConstructor (r.member m) =
      v.isJsConstructor m := by
  unfold isJsConstructor
  rw [hViews.view_identity?_eq]

/- The constructors of a type, under their new numbers. -/
theorem constructorsOf_perm
    {t : TypeNode}
    (hType : v.program.HasType t) :
    ((w.program.declaredBy (r.type t)).filter
        (fun m => m.decl.isConstructor)).Perm
      (((v.program.declaredBy t).filter
        (fun m => m.decl.isConstructor)).map r.member) := by
  apply Listing.filter_perm_map
    (hViews.program.declaredBy_perm hType)
  intro m _
  exact MemberDecl.isConstructor_renumber r.number m.decl

/- The same constructors are stranded. -/
theorem strandedConstructors_perm
    {primary : MemberNode}
    {constructors constructors' : List MemberNode}
    (hPerm : constructors'.Perm (constructors.map r.member))
    (hMembers :
      ∀ c ∈ constructors, v.program.HasMember c) :
    ∃ stranded stranded',
      v.strandedConstructors primary constructors =
          .ok stranded ∧
        w.strandedConstructors (r.member primary)
            constructors' = .ok stranded' ∧
          stranded'.Perm (stranded.map r.member) := by
  apply filterM_perm hPerm
  intro c hc
  rw [r.id_member, r.id_member, r.number_beq]
  by_cases hSame : c.id == primary.id
  · rw [if_pos hSame, if_pos hSame]
    exact ⟨false, rfl, rfl⟩
  · rw [if_neg hSame, if_neg hSame]
    rcases hViews.program.sound.reachesWithin_succeeds
        primary v.program.members.length
        (hMembers c hc) with
      ⟨reaches, hReaches⟩
    refine ⟨!reaches, ?_, ?_⟩
    · exact bind_eq_ok_iff.mpr ⟨reaches, hReaches, rfl⟩
    · have hMoved :=
        hViews.program.reachesConstructor_eq_ok hReaches
      exact bind_eq_ok_iff.mpr ⟨reaches, hMoved, rfl⟩

/- The reports on stranded constructors are permuted. -/
theorem strandedFindings_perm
    {primary : MemberNode}
    {constructors constructors' : List MemberNode}
    (hPerm : constructors'.Perm (constructors.map r.member))
    (hMembers :
      ∀ c ∈ constructors, v.program.HasMember c)
    {found found' : List Finding}
    (hFound :
      (v.strandedConstructors primary constructors >>=
        fun stranded => pure (stranded.map (fun c =>
          (Finding.ofMember primary
            (.constructorNotReached
              (v.signature primary))).about
                (.member c.id)))) = .ok found)
    (hFound' :
      (w.strandedConstructors (r.member primary)
          constructors' >>=
        fun stranded => pure (stranded.map (fun c =>
          (Finding.ofMember (r.member primary)
            (.constructorNotReached
              (w.signature (r.member primary)))).about
                (.member c.id)))) = .ok found') :
    found'.Perm (found.map r.finding) := by
  rcases hViews.strandedConstructors_perm hPerm hMembers with
    ⟨stranded, stranded', hSome, hSome', hStranded⟩
  rcases bind_eq_ok_iff.mp hFound with ⟨_, hHere, hEq⟩
  rcases bind_eq_ok_iff.mp hFound' with ⟨_, hHere', hEq'⟩
  cases hSome.symm.trans hHere
  cases hSome'.symm.trans hHere'
  cases hEq
  cases hEq'
  refine (hStranded.map _).trans (List.Perm.of_eq ?_)
  rw [List.map_map, List.map_map]
  apply List.map_congr_left
  intro c _
  rw [Function.comp, hViews.signature_eq]
  rfl

theorem constructorFindings_perm
    {t : TypeNode}
    (hType : v.program.HasType t)
    {found found' : List Finding}
    (hFound : v.constructorFindings t = .ok found)
    (hFound' :
      w.constructorFindings (r.type t) = .ok found') :
    found'.Perm (found.map r.finding) := by
  have hAll := hViews.constructorsOf_perm hType
  have hExported :=
    Listing.filter_perm_map hAll
      (fun m _ => hViews.isJsConstructor_eq m)
  have hMembers :
      ∀ c ∈ (v.program.declaredBy t).filter
          (fun m => m.decl.isConstructor),
        v.program.HasMember c := by
    intro c hc
    exact (hViews.program.sound.hasMember_of_mem_declaredBy
      hType (List.mem_of_mem_filter hc)).1
  simp only [constructorFindings] at hFound hFound'
  generalize
    (v.program.declaredBy t).filter
      (fun m => m.decl.isConstructor) = constructors
    at hAll hExported hMembers hFound
  generalize
    (w.program.declaredBy (r.type t)).filter
      (fun m => m.decl.isConstructor) = constructors'
    at hAll hExported hFound'
  rcases hOnes : constructors.filter v.isJsConstructor with
    _ | ⟨primary, _ | ⟨second, rest⟩⟩
  · rw [hOnes] at hExported hFound
    rw [hExported.eq_nil] at hFound'
    cases hFound
    cases hFound'
    exact List.Perm.refl []
  · rw [hOnes] at hExported hFound
    rw [hExported.eq_singleton] at hFound'
    exact hViews.strandedFindings_perm hAll hMembers
      hFound hFound'
  · rw [hOnes] at hExported hFound
    have hLength := hExported.length_eq
    rcases hOnes' : constructors'.filter
        w.isJsConstructor with _ | ⟨_, _ | _⟩
    · rw [hOnes'] at hLength
      cases hLength
    · rw [hOnes'] at hLength
      cases hLength
    · rw [hOnes'] at hFound'
      cases hFound
      cases hFound'
      exact List.Perm.refl _

theorem exportedTypes_eq :
    w.types.filter (fun t => !t.decl.isNative) =
      (v.types.filter (fun t => !t.decl.isNative)).map
        r.type := by
  rw [hViews.types_eq, List.filter_map]
  rfl

omit hViews in
theorem hasType_of_mem_types
    (hShows : v.Shows v.program)
    {t : TypeNode}
    (ht : t ∈ v.types.filter (fun t => !t.decl.isNative)) :
    v.program.HasType t := by
  have hMem := List.mem_of_mem_filter ht
  rw [hShows.types_eq] at hMem
  exact Program.mem_typeNodes_iff.mp hMem

/- The reports on constructors are the same but for order. -/
theorem constructors_perm
    {found found' : List Finding}
    (hFound : v.constructors = .ok found)
    (hFound' : w.constructors = .ok found') :
    found'.Perm (found.map r.finding) := by
  refine bind_flatten_perm
    (List.Perm.of_eq hViews.exportedTypes_eq) ?_ hFound
    hFound'
  intro t ht here here' hHere hHere'
  exact hViews.constructorFindings_perm
    (hasType_of_mem_types hViews.shows ht) hHere hHere'

end ExportView.Rearranges

------------------------------------------------------------
-- Late Claims
------------------------------------------------------------

/- The global name that a finding says is taken. -/
def Finding.takenName?
    (f : Finding) : Option String :=
  match f.breach with
  | .globalNameClash _ name => some name
  | _ => none

/- Whether a finding says that a given name is taken. -/
def Finding.saysTaken
    (name : String)
    (f : Finding) : Bool :=
  decide (f.takenName? = some name)

/- The claim of the same member. -/
def Rearrangement.claim
    (r : Rearrangement)
    (c : Claim) : Claim :=
  ⟨r.member c.member, c.name⟩

/- Of all claims of a name one is not late. -/
theorem ExportView.countP_lateClaims
    (name : String)
    (taken : List String)
    (claims : List Claim) :
    (lateClaims taken claims).countP
        (fun c => decide (c.name = name)) =
      if name ∈ taken then
        claims.countP (fun c => decide (c.name = name))
      else
        claims.countP (fun c => decide (c.name = name)) -
          1 := by
  rw [List.countP_eq_length_filter, filter_lateClaims]
  split
  · rw [List.countP_eq_length_filter]
  · rw [List.length_tail, List.countP_eq_length_filter]

namespace ExportView.Rearranges

variable {v w : ExportView}
variable {r : Rearrangement}
variable (hViews : w.Rearranges r v)

include hViews

------------------------------------------------------------
-- Claims
------------------------------------------------------------

theorem globalName?_eq
    (m : MemberNode) :
    w.globalName? (r.member m) = v.globalName? m := by
  unfold globalName?
  rw [hViews.view_identity?_eq]
  rfl

theorem fieldsFirst_perm
    {t : TypeNode}
    (hType : v.program.HasType t) :
    (w.fieldsFirst (r.type t)).Perm
      ((v.fieldsFirst t).map r.member) := by
  have hMembers := hViews.program.declaredBy_perm hType
  unfold fieldsFirst
  dsimp only
  rw [List.map_append]
  apply List.Perm.append
  · apply Listing.filter_perm_map hMembers
    intro m _
    exact MemberDecl.isField_renumber r.number m.decl
  · apply Listing.filter_perm_map hMembers
    intro m _
    exact MemberDecl.isCallable_renumber r.number m.decl

/- The members claim the names that they claimed. -/
theorem claims_perm :
    w.claims.Perm (v.claims.map r.claim) := by
  unfold claims
  rw [hViews.exportedTypes_eq, List.flatMap_map,
    List.map_flatMap]
  apply List.Perm.flatMap_left
  intro t ht
  have hType := hasType_of_mem_types hViews.shows ht
  refine ((hViews.fieldsFirst_perm hType).filterMap _).trans
    (List.Perm.of_eq ?_)
  rw [List.filterMap_map, List.map_filterMap]
  apply List.filterMap_congr
  intro m _
  rw [Function.comp, hViews.globalName?_eq, Option.map_map]
  rfl

omit hViews in
/- A name is reported once less often than it is claimed. -/
theorem countP_saysTaken_globalNames
    (name : String) :
    v.globalNames.countP (Finding.saysTaken name) =
      v.claims.countP (fun c => decide (c.name = name)) -
        1 := by
  have hCount := countP_lateClaims name [] v.claims
  rw [if_neg List.not_mem_nil] at hCount
  rw [← hCount]
  unfold globalNames
  rw [List.countP_map]
  apply List.countP_congr
  intro c _
  unfold Finding.saysTaken
  rw [Function.comp, decide_eq_true_eq, decide_eq_true_eq]
  exact Option.some_inj

theorem countP_saysTaken_eq
    (name : String) :
    w.globalNames.countP (Finding.saysTaken name) =
      v.globalNames.countP (Finding.saysTaken name) := by
  rw [countP_saysTaken_globalNames,
    countP_saysTaken_globalNames,
    hViews.claims_perm.countP_eq, List.countP_map]
  rfl

end ExportView.Rearranges

------------------------------------------------------------
-- Reports On Names
------------------------------------------------------------

/-
  That findings are the same but for their order, and for
  the members that were late to claim a global name.
-/
structure Rearrangement.Restates
    (r : Rearrangement)
    (found' found : List Finding) : Prop where
  others :
    (found'.filter (fun f => f.takenName?.isNone)).Perm
      ((found.filter (fun f => f.takenName?.isNone)).map
        r.finding)
  taken :
    ∀ name, found'.countP (Finding.saysTaken name) =
      found.countP (Finding.saysTaken name)

namespace Rearrangement

variable {r : Rearrangement}

theorem Restates.of_perm
    {found found' : List Finding}
    (hPerm : found'.Perm (found.map r.finding)) :
    r.Restates found' found := by
  constructor
  · exact Listing.filter_perm_map hPerm (fun _ _ => rfl)
  · intro name
    rw [hPerm.countP_eq, List.countP_map]
    rfl

theorem Restates.append
    {found found' more more' : List Finding}
    (hFound : r.Restates found' found)
    (hMore : r.Restates more' more) :
    r.Restates (found' ++ more') (found ++ more) := by
  constructor
  · rw [List.filter_append, List.filter_append,
      List.map_append]
    exact hFound.others.append hMore.others
  · intro name
    rw [List.countP_append, List.countP_append,
      hFound.taken, hMore.taken]

end Rearrangement

namespace ExportView.Rearranges

variable {v w : ExportView}
variable {r : Rearrangement}
variable (hViews : w.Rearranges r v)

include hViews

theorem globalNames_restates :
    r.Restates w.globalNames v.globalNames := by
  have hNone :
      ∀ u : ExportView,
        u.globalNames.filter
          (fun f => f.takenName?.isNone) = [] := by
    intro u
    apply List.filter_eq_nil_iff.mpr
    intro f hf hOther
    rcases List.mem_map.mp hf with ⟨c, _, rfl⟩
    cases hOther
  constructor
  · rw [hNone, hNone]
    exact List.Perm.refl []
  · exact hViews.countP_saysTaken_eq

/- The reports on names are restated. -/
theorem namingFindings_restates
    {found found' : List Finding}
    (hFound : v.namingFindings = .ok found)
    (hFound' : w.namingFindings = .ok found') :
    r.Restates found' found := by
  rcases namingFindings_eq_ok_iff.mp hFound with
    ⟨constructors, hSome, rfl⟩
  rcases namingFindings_eq_ok_iff.mp hFound' with
    ⟨constructors', hSome', rfl⟩
  have hClashes : r.Restates w.nameClashes v.nameClashes :=
    .of_perm hViews.nameClashes_perm
  have hConstructors :
      r.Restates constructors' constructors :=
    .of_perm (hViews.constructors_perm hSome hSome')
  have hRenames : r.Restates w.renames v.renames :=
    .of_perm hViews.renames_perm
  exact ((hClashes.append hViews.globalNames_restates).append
    hConstructors).append hRenames

end ExportView.Rearranges

end JsExport
