import JsExport.Proofs.Rules.Delegation

/-
  The search that remembers where it was.

  Calls of constructors may go round.  A search that follows
  them ends when it comes to a constructor again, when there
  is no call to follow, and when it arrives.  It visits no
  constructor twice, so it ends, and when it stops without
  having arrived, all that can be reached was visited.

  Main declarations:
    * `Program.Follows`
    * `Program.Sound.exists_follows`
    * `Program.Sound.not_delegates_of_follows_false`
    * `Program.Sound.follows_iff`
-/

namespace JsExport

open Lookup

namespace Program

------------------------------------------------------------
-- Following Calls
------------------------------------------------------------

/-
  That a search for a constructor has an answer, given the
  members visited before and the one that it is at.
-/
inductive Follows
    (p : Program)
    (primary : MemberNode) :
    List MemberId → MemberNode → Bool → Prop
| again
    {visited : List MemberId}
    {c : MemberNode}
    (hSeen : c.id ∈ visited) :
    Follows p primary visited c false
| ends
    {visited : List MemberId}
    {c : MemberNode}
    (hNew : c.id ∉ visited)
    (hNone : c.decl.delegatesTo = none) :
    Follows p primary visited c false
| leaves
    {visited : List MemberId}
    {c next : MemberNode}
    (hNew : c.id ∉ visited)
    (hCall : p.Delegates c next)
    (hOwner : next.owner.id ≠ primary.owner.id) :
    Follows p primary visited c false
| arrives
    {visited : List MemberId}
    {c next : MemberNode}
    (hNew : c.id ∉ visited)
    (hCall : p.Delegates c next)
    (hOwner : next.owner.id = primary.owner.id)
    (hHere : next.id = primary.id) :
    Follows p primary visited c true
| further
    {visited : List MemberId}
    {c next : MemberNode}
    {answer : Bool}
    (hNew : c.id ∉ visited)
    (hCall : p.Delegates c next)
    (hOwner : next.owner.id = primary.owner.id)
    (hNot : next.id ≠ primary.id)
    (hRest : Follows p primary (c.id :: visited) next answer) :
    Follows p primary visited c answer

variable {p : Program}
variable {primary : MemberNode}

theorem not_delegates_of_none
    {c next : MemberNode}
    (hNone : c.decl.delegatesTo = none) :
    ¬ p.Delegates c next := by
  rintro ⟨target, hSome, _⟩
  rw [hNone] at hSome
  cases hSome

/- The search has one answer at most. -/
theorem Follows.unique
    {visited : List MemberId}
    {c : MemberNode}
    {answer other : Bool}
    (hAnswer : p.Follows primary visited c answer)
    (hOther : p.Follows primary visited c other) :
    answer = other := by
  induction hAnswer with
  | again hSeen =>
      cases hOther with
      | again _ => rfl
      | ends _ _ => rfl
      | leaves _ _ _ => rfl
      | arrives hNew _ _ _ => exact absurd hSeen hNew
      | further hNew _ _ _ _ => exact absurd hSeen hNew
  | ends _ hNone =>
      cases hOther with
      | again _ => rfl
      | ends _ _ => rfl
      | leaves _ _ _ => rfl
      | arrives _ hCall _ _ =>
          exact absurd hCall (not_delegates_of_none hNone)
      | further _ hCall _ _ _ =>
          exact absurd hCall (not_delegates_of_none hNone)
  | leaves _ hCall hOwner =>
      cases hOther with
      | again _ => rfl
      | ends _ _ => rfl
      | leaves _ _ _ => rfl
      | arrives _ hCall' hOwner' _ =>
          rw [hCall.unique hCall'] at hOwner
          exact absurd hOwner' hOwner
      | further _ hCall' hOwner' _ _ =>
          rw [hCall.unique hCall'] at hOwner
          exact absurd hOwner' hOwner
  | arrives hNew hCall hOwner hHere =>
      cases hOther with
      | again hSeen => exact absurd hSeen hNew
      | ends _ hNone =>
          exact absurd hCall (not_delegates_of_none hNone)
      | leaves _ hCall' hOwner' =>
          rw [hCall.unique hCall'] at hOwner
          exact absurd hOwner hOwner'
      | arrives _ _ _ _ => rfl
      | further _ hCall' _ hNot _ =>
          rw [hCall.unique hCall'] at hHere
          exact absurd hHere hNot
  | further hNew hCall hOwner hNot _ ih =>
      cases hOther with
      | again hSeen => exact absurd hSeen hNew
      | ends _ hNone =>
          exact absurd hCall (not_delegates_of_none hNone)
      | leaves _ hCall' hOwner' =>
          rw [hCall.unique hCall'] at hOwner
          exact absurd hOwner hOwner'
      | arrives _ hCall' _ hHere =>
          rw [hCall.unique hCall'] at hNot
          exact absurd hHere hNot
      | further _ hCall' _ _ hRest =>
          rw [← hCall.unique hCall'] at hRest
          exact ih hRest

/-
  That a search has missed a constructor so far: no member
  visited calls it, and what they call was visited too or is
  where the search is.
-/
def Missed
    (p : Program)
    (primary : MemberNode)
    (visited : List MemberId)
    (c : MemberNode) : Prop :=
  ∀ a next, p.HasMember a → a.id ∈ visited →
    p.Delegates a next →
      next ≠ primary ∧ (next.id ∈ visited ∨ next = c)

/- What is called next is missed with one member more. -/
theorem Missed.further
    {visited : List MemberId}
    {c next : MemberNode}
    (hMissed : Missed p primary visited c)
    (hMember : p.HasMember c)
    (hCall : p.Delegates c next)
    (hNot : next.id ≠ primary.id) :
    Missed p primary (c.id :: visited) next := by
  intro a other hHas hIn hOther
  by_cases hSame : a = c
  · rw [hSame] at hOther
    rw [hOther.unique hCall]
    exact ⟨fun hEq => hNot (congrArg MemberNode.id hEq),
      .inr rfl⟩
  · have hOld : a.id ∈ visited :=
      (List.mem_cons.mp hIn).resolve_left
        (fun hId => hSame (hHas.eq_of_id_eq hMember hId))
    rcases hMissed a other hHas hOld hOther with
      ⟨hNe, hSeen | rfl⟩
    · exact ⟨hNe, .inl (List.mem_cons_of_mem _ hSeen)⟩
    · exact ⟨hNe, .inl List.mem_cons_self⟩

namespace Sound

variable (hSound : p.Sound)

include hSound

------------------------------------------------------------
-- The Search Ends
------------------------------------------------------------

/- The search ends: there is less to visit in each round. -/
theorem exists_follows
    (primary : MemberNode)
    (visited : List MemberId)
    {c : MemberNode}
    (hMember : p.HasMember c) :
    ∃ answer, p.Follows primary visited c answer := by
  let unvisited : List MemberId → Finset MemberId :=
    fun seen =>
      (Finset.range p.members.length).filter (· ∉ seen)
  induction hCount : (unvisited visited).card using
      Nat.strong_induction_on generalizing visited c with
  | _ count ih =>
      by_cases hSeen : c.id ∈ visited
      · exact ⟨false, .again hSeen⟩
      cases hTarget : c.decl.delegatesTo with
      | none => exact ⟨false, .ends hSeen hTarget⟩
      | some target =>
          rcases hSound.delegation_succeeds hMember hTarget
            with ⟨next, hNext⟩
          have hCall : p.Delegates c next :=
            ⟨target, hTarget, hNext⟩
          by_cases hOwner : next.owner.id = primary.owner.id
          swap
          · exact ⟨false, .leaves hSeen hCall hOwner⟩
          by_cases hHere : next.id = primary.id
          · exact ⟨true, .arrives hSeen hCall hOwner hHere⟩
          have hLeft :
              unvisited (c.id :: visited) =
                (unvisited visited).erase c.id := by
            ext id
            simp only [unvisited, Finset.mem_filter,
              Finset.mem_erase, List.mem_cons, not_or]
            tauto
          have hIn : c.id ∈ unvisited visited :=
            Finset.mem_filter.mpr
              ⟨Finset.mem_range.mpr hMember.lt_length, hSeen⟩
          have hLess :
              (unvisited (c.id :: visited)).card < count := by
            rw [hLeft, ← hCount]
            exact Finset.card_erase_lt_of_mem hIn
          rcases ih _ hLess (c.id :: visited)
              (hSound.hasMember_of_delegates hMember hCall).1
              rfl with
            ⟨answer, hRest⟩
          exact ⟨answer,
            .further hSeen hCall hOwner hHere hRest⟩

------------------------------------------------------------
-- The Answer
------------------------------------------------------------

/- When the search arrives, there is a chain of calls. -/
theorem delegates_of_follows_true
    (hPrimary : p.HasMember primary)
    {visited : List MemberId}
    {c : MemberNode}
    (hMember : p.HasMember c)
    (hAnswer : p.Follows primary visited c true) :
    Relation.TransGen p.Delegates c primary := by
  generalize hTrue : true = answer at hAnswer
  induction hAnswer with
  | again _ => cases hTrue
  | ends _ _ => cases hTrue
  | leaves _ _ _ => cases hTrue
  | arrives _ hCall _ hHere =>
      have hNext := hSound.hasMember_of_delegates hMember hCall
      exact .single (hNext.1.eq_of_id_eq hPrimary hHere ▸ hCall)
  | further _ hCall _ _ _ ih =>
      exact .head hCall (ih
        (hSound.hasMember_of_delegates hMember hCall).1 hTrue)

/- From a member visited there is no way out. -/
theorem not_delegates_of_missed
    {visited : List MemberId}
    {c : MemberNode}
    (hMember : p.HasMember c)
    (hMissed : Missed p primary visited c)
    (hSeen : c.id ∈ visited) :
    ¬ Relation.TransGen p.Delegates c primary := by
  have hClosed :
      ∀ a, Relation.TransGen p.Delegates a primary →
        p.HasMember a → a.id ∉ visited := by
    intro a hReaches
    induction hReaches using
        Relation.TransGen.head_induction_on with
    | single hLast =>
        intro hHas hIn
        exact (hMissed _ _ hHas hIn hLast).1 rfl
    | head hCall _ ih =>
        intro hHas hIn
        have hNext :=
          (hSound.hasMember_of_delegates hHas hCall).1
        rcases (hMissed _ _ hHas hIn hCall).2 with
          hOld | hHere
        · exact ih hNext hOld
        · exact ih hNext (hHere ▸ hSeen)
  intro hReaches
  exact hClosed c hReaches hMember hSeen

/- When the search gives up, there is no chain of calls. -/
theorem not_delegates_of_follows_false
    {visited : List MemberId}
    {c : MemberNode}
    (hMember : p.HasMember c)
    (hOwner : c.owner = primary.owner)
    (hMissed : Missed p primary visited c)
    (hAnswer : p.Follows primary visited c false) :
    ¬ Relation.TransGen p.Delegates c primary := by
  generalize hFalse : false = answer at hAnswer
  induction hAnswer with
  | again hSeen =>
      exact hSound.not_delegates_of_missed hMember hMissed
        hSeen
  | ends _ hNone =>
      intro hReaches
      rcases (Relation.TransGen.head'_iff.mp hReaches) with
        ⟨next, hCall, _⟩
      exact not_delegates_of_none hNone hCall
  | leaves _ hCall hElsewhere =>
      have hNext := hSound.hasMember_of_delegates hMember hCall
      rw [hNext.2, hOwner] at hElsewhere
      exact absurd rfl hElsewhere
  | arrives _ _ _ _ => cases hFalse
  | further _ hCall _ hNot _ ih =>
      have hNext := hSound.hasMember_of_delegates hMember hCall
      have hRest := ih hNext.1 (hNext.2.trans hOwner)
        (hMissed.further hMember hCall hNot) hFalse
      intro hReaches
      rcases (Relation.TransGen.head'_iff.mp hReaches) with
        ⟨other, hOther, hChain⟩
      rw [hOther.unique hCall] at hChain
      rcases Relation.reflTransGen_iff_eq_or_transGen.mp
          hChain with
        hHere | hFar
      · exact hNot (congrArg MemberNode.id hHere.symm)
      · exact hRest hFar

/- The search answers what the rule takes for the answer. -/
theorem follows_iff
    {c : MemberNode}
    (hMember : p.HasMember c)
    (hPrimary : p.HasMember primary)
    (hOwner : c.owner = primary.owner) :
    ∃ answer,
      (∀ other, p.Follows primary [] c other ↔
        other = answer) ∧
      p.reachesConstructor primary c = .ok answer ∧
      (answer = true ↔
        Relation.TransGen p.Delegates c primary) := by
  rcases hSound.exists_follows primary [] hMember with
    ⟨answer, hAnswer⟩
  have hMeans :
      answer = true ↔
        Relation.TransGen p.Delegates c primary := by
    cases answer with
    | true =>
        exact iff_of_true rfl
          (hSound.delegates_of_follows_true hPrimary hMember
            hAnswer)
    | false =>
        have hNothing : Missed p primary [] c := by
          intro a next _ hIn
          cases hIn
        exact iff_of_false Bool.false_ne_true
          (hSound.not_delegates_of_follows_false hMember
            hOwner hNothing hAnswer)
  refine ⟨answer, ?_, ?_, hMeans⟩
  · intro other
    constructor
    · intro hOther
      exact hOther.unique hAnswer
    · rintro rfl
      exact hAnswer
  · rcases hSound.reachesWithin_succeeds primary
        p.members.length hMember with
      ⟨found, hFound⟩
    have hTrue := hSound.reachesConstructor_eq_ok_true_iff
      hMember hPrimary hOwner
    rw [← hMeans] at hTrue
    unfold reachesConstructor at hTrue ⊢
    rw [hFound, Except.ok.injEq] at hTrue
    rw [hFound, Bool.eq_iff_iff.mpr hTrue]

end Sound

end Program

end JsExport
