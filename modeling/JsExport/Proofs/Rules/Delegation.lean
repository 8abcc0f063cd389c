import JsExport.Proofs.Program.Sound
import JsExport.Rules.Delegation
import Mathlib.Data.Finset.Card
import Mathlib.Data.Nat.Find
import Mathlib.Logic.Relation

/-
  Chains of constructors.

  A constructor calls at most one other constructor of its
  type, so a chain of calls that meets a constructor twice
  goes round for ever.  A chain that arrives somewhere has a
  shortest form with no more calls than there are members,
  which is as far as the rule looks.

  Main declarations:
    * `Program.Delegates`
    * `Program.DelegatesIn`
    * `Program.Sound.length_le_of_nearest`
    * `Program.Sound.reachesConstructor_eq_ok_true_iff`
    * `ExportView.mem_constructors_cases`
-/

namespace JsExport

open Lookup

namespace Program

------------------------------------------------------------
-- Calls
------------------------------------------------------------

/- That a constructor calls another one first. -/
def Delegates
    (p : Program)
    (c next : MemberNode) : Prop :=
  ∃ target, c.decl.delegatesTo = some target ∧
    p.member target = .ok next

/- That a constructor is reached by a number of calls. -/
inductive DelegatesIn
    (p : Program)
    (primary : MemberNode) : Nat → MemberNode → Prop
| last
    {c : MemberNode}
    (hLast : p.Delegates c primary) :
    DelegatesIn p primary 1 c
| further
    {calls : Nat}
    {c next : MemberNode}
    (hCall : p.Delegates c next)
    (hRest : DelegatesIn p primary calls next) :
    DelegatesIn p primary (calls + 1) c

/- A constructor calls one other at most. -/
theorem Delegates.unique
    {p : Program}
    {c next other : MemberNode}
    (hNext : p.Delegates c next)
    (hOther : p.Delegates c other) :
    next = other := by
  rcases hNext with ⟨target, hTarget, hFound⟩
  rcases hOther with ⟨target', hTarget', hFound'⟩
  rw [hTarget] at hTarget'
  cases hTarget'
  rw [hFound] at hFound'
  exact Except.ok.inj hFound'

theorem DelegatesIn.pos
    {p : Program}
    {primary c : MemberNode}
    {calls : Nat}
    (hReaches : p.DelegatesIn primary calls c) :
    0 < calls := by
  cases hReaches with
  | last _ => exact Nat.one_pos
  | further _ _ => exact Nat.succ_pos _

/- A constructor that calls none reaches none. -/
theorem not_delegatesIn_of_none
    {p : Program}
    {primary c : MemberNode}
    {calls : Nat}
    (hNone : c.decl.delegatesTo = none) :
    ¬ p.DelegatesIn primary calls c := by
  have hNot : ∀ next, ¬ p.Delegates c next := by
    rintro next ⟨target, hSome, _⟩
    rw [hNone] at hSome
    cases hSome
  intro hReaches
  cases hReaches with
  | last hLast => exact hNot _ hLast
  | further hCall _ => exact hNot _ hCall

/- One that calls another reaches it, and what that does. -/
theorem exists_delegatesIn_succ_iff
    {p : Program}
    {primary c next : MemberNode}
    (hCall : p.Delegates c next)
    (calls : Nat) :
    (∃ n ≤ calls + 1, p.DelegatesIn primary n c) ↔
      next = primary ∨
        ∃ n ≤ calls, p.DelegatesIn primary n next := by
  constructor
  · rintro ⟨n, hLe, hReaches⟩
    cases hReaches with
    | last hLast => exact Or.inl (hCall.unique hLast)
    | further hOther hRest =>
        rw [← hCall.unique hOther] at hRest
        exact Or.inr ⟨_, by omega, hRest⟩
  · rintro (rfl | ⟨n, hLe, hReaches⟩)
    · exact ⟨1, by omega, .last hCall⟩
    · exact ⟨n + 1, by omega, .further hCall hReaches⟩

/- That a number of calls is the least that arrives. -/
def Nearest
    (p : Program)
    (primary : MemberNode)
    (calls : Nat)
    (c : MemberNode) : Prop :=
  p.DelegatesIn primary calls c ∧
    ∀ fewer < calls, ¬ p.DelegatesIn primary fewer c

/- A chain has a shortest form. -/
theorem exists_nearest
    {p : Program}
    {primary c : MemberNode}
    {calls : Nat}
    (hReaches : p.DelegatesIn primary calls c) :
    ∃ fewest, p.Nearest primary fewest c := by
  classical
  have hSome : ∃ n, p.DelegatesIn primary n c :=
    ⟨calls, hReaches⟩
  exact ⟨Nat.find hSome, Nat.find_spec hSome,
    fun _ hFewer => Nat.find_min hSome hFewer⟩

/- Some number of calls is any chain of calls. -/
theorem exists_delegatesIn_iff
    {p : Program}
    {primary c : MemberNode} :
    (∃ calls, p.DelegatesIn primary calls c) ↔
      Relation.TransGen p.Delegates c primary := by
  constructor
  · rintro ⟨calls, hReaches⟩
    induction hReaches with
    | last hLast => exact .single hLast
    | further hCall _ ih => exact .head hCall ih
  · intro hReaches
    induction hReaches using
        Relation.TransGen.head_induction_on with
    | single hLast => exact ⟨1, .last hLast⟩
    | head hCall _ ih =>
        rcases ih with ⟨calls, hRest⟩
        exact ⟨calls + 1, .further hCall hRest⟩

namespace Sound

variable {p : Program}
variable (hSound : p.Sound)

include hSound

/- What a constructor calls belongs to its type. -/
theorem hasMember_of_delegates
    {c next : MemberNode}
    (hMember : p.HasMember c)
    (hCall : p.Delegates c next) :
    p.HasMember next ∧ next.owner = c.owner := by
  rcases hCall with ⟨target, hTarget, hFound⟩
  rcases member_eq_ok_iff_hasMember.mp hFound with
    ⟨hId, hNext⟩
  refine ⟨hNext, ?_⟩
  rcases hSound.wellFormed.delegations c.id c.decl
      hMember.1 target hTarget with
    ⟨_, _, n, hDecl, _, hOwner⟩
  have hSame : n = next.decl := by
    have hOther : p.members[target]? = some next.decl :=
      hId ▸ hNext.1
    exact Option.some.inj (hDecl.symm.trans hOther)
  apply hNext.2.2.eq_of_id_eq hMember.2.2
  rw [hSame, hMember.2.1, hNext.2.1] at hOwner
  exact Option.some.inj hOwner

------------------------------------------------------------
-- The Search
------------------------------------------------------------

theorem reachesWithin_succeeds
    (primary : MemberNode)
    (calls : Nat)
    {c : MemberNode}
    (hMember : p.HasMember c) :
    Succeeds (p.reachesWithin primary calls c) := by
  induction calls generalizing c with
  | zero => exact ⟨false, rfl⟩
  | succ calls ih =>
      unfold reachesWithin
      cases hTarget : c.decl.delegatesTo with
      | none => exact ⟨false, rfl⟩
      | some target =>
          refine (hSound.delegation_succeeds hMember
            hTarget).bind ?_
          intro next hNext
          by_cases hOther : next.owner.id != primary.owner.id
          · rw [if_pos hOther]
            exact ⟨false, rfl⟩
          · rw [if_neg hOther]
            by_cases hSame : next.id == primary.id
            · rw [if_pos hSame]
              exact ⟨true, rfl⟩
            · rw [if_neg hSame]
              exact ih
                (member_eq_ok_iff_hasMember.mp hNext).2

/- The search finds what few enough calls reach. -/
theorem reachesWithin_eq_ok_true_iff
    {primary c : MemberNode}
    (hMember : p.HasMember c)
    (hPrimary : p.HasMember primary)
    (hOwner : c.owner = primary.owner)
    (calls : Nat) :
    p.reachesWithin primary calls c = .ok true ↔
      ∃ n ≤ calls, p.DelegatesIn primary n c := by
  induction calls generalizing c with
  | zero =>
      constructor
      · intro hFound
        cases hFound
      · rintro ⟨n, hLe, hReaches⟩
        have hPos := hReaches.pos
        omega
  | succ calls ih =>
      unfold reachesWithin
      cases hTarget : c.decl.delegatesTo with
      | none =>
          constructor
          · intro hFound
            cases hFound
          · rintro ⟨n, _, hReaches⟩
            exact absurd hReaches
              (not_delegatesIn_of_none hTarget)
      | some target =>
          rcases hSound.delegation_succeeds hMember
              hTarget with
            ⟨next, hNext⟩
          have hCall : p.Delegates c next :=
            ⟨target, hTarget, hNext⟩
          rcases hSound.hasMember_of_delegates hMember
              hCall with
            ⟨hNextMember, hNextOwner⟩
          have hSameOwner : next.owner = primary.owner :=
            hNextOwner.trans hOwner
          rw [exists_delegatesIn_succ_iff hCall,
            ← ih hNextMember hSameOwner]
          simp only [hNext, bind, Except.bind, hSameOwner,
            bne_self_eq_false, Bool.false_eq_true, if_false]
          by_cases hHere : next.id == primary.id
          · have hArrived : next = primary :=
              hNextMember.eq_of_id_eq hPrimary
                (eq_of_beq hHere)
            rw [if_pos hHere]
            exact ⟨fun _ => Or.inl hArrived, fun _ => rfl⟩
          · have hElsewhere : next ≠ primary := by
              rintro rfl
              exact hHere (beq_self_eq_true _)
            rw [if_neg hHere]
            exact (or_iff_right hElsewhere).symm

------------------------------------------------------------
-- Shortest Chains
------------------------------------------------------------

section Shortest

variable {primary : MemberNode}

/- The call of a shortest chain is followed by a shortest. -/
theorem exists_nearest_of_nearest_succ
    {calls : Nat}
    (hPos : 0 < calls)
    {c : MemberNode}
    (hMember : p.HasMember c)
    (hNearest : p.Nearest primary (calls + 1) c) :
    ∃ next, p.HasMember next ∧
      p.Nearest primary calls next := by
  rcases hNearest with ⟨hReaches, hLeast⟩
  cases hReaches with
  | last _ => omega
  | further hCall hRest =>
      refine ⟨_, (hSound.hasMember_of_delegates hMember
        hCall).1, hRest, ?_⟩
      intro fewer hFewer hShort
      exact hLeast (fewer + 1) (by omega)
        (.further hCall hShort)

/- A shortest chain passes members at every distance. -/
theorem exists_nearest_of_le
    {calls : Nat}
    {c : MemberNode}
    (hMember : p.HasMember c)
    (hNearest : p.Nearest primary calls c)
    {fewer : Nat}
    (hPos : 0 < fewer)
    (hLe : fewer ≤ calls) :
    ∃ m, p.HasMember m ∧ p.Nearest primary fewer m := by
  induction calls generalizing c with
  | zero => omega
  | succ calls ih =>
      by_cases hHere : fewer = calls + 1
      · exact ⟨c, hMember, hHere ▸ hNearest⟩
      · rcases hSound.exists_nearest_of_nearest_succ
            (by omega) hMember hNearest with
          ⟨next, hNext, hRest⟩
        exact ih hNext hRest (by omega)

/-
  A shortest chain is no longer than there are members,
  since no two distances are those of one member.
-/
theorem length_le_of_nearest
    {calls : Nat}
    {c : MemberNode}
    (hMember : p.HasMember c)
    (hNearest : p.Nearest primary calls c) :
    calls ≤ p.members.length := by
  have hEach :
      ∀ i : Nat, ∃ m, i < calls →
        p.HasMember m ∧ p.Nearest primary (i + 1) m := by
    intro i
    by_cases hLt : i < calls
    · rcases hSound.exists_nearest_of_le hMember hNearest
          (Nat.succ_pos i) hLt with
        ⟨m, hm⟩
      exact ⟨m, fun _ => hm⟩
    · exact ⟨c, fun hIn => absurd hIn hLt⟩
  choose passed hPassed using hEach
  have hInjective :
      Set.InjOn (fun i => (passed i).id)
        (Finset.range calls) := by
    intro i hi j hj hSame
    have hi' := hPassed i
      (Finset.mem_range.mp (Finset.mem_coe.mp hi))
    have hj' := hPassed j
      (Finset.mem_range.mp (Finset.mem_coe.mp hj))
    have hEq := hi'.1.eq_of_id_eq hj'.1 hSame
    rw [hEq] at hi'
    have hLow := hi'.2.2 (j + 1)
    have hHigh := hj'.2.2 (i + 1)
    rcases Nat.lt_trichotomy i j with hLt | hEq | hGt
    · exact absurd hi'.2.1 (hHigh (by omega))
    · exact hEq
    · exact absurd hj'.2.1 (hLow (by omega))
  have hInto :
      ∀ i ∈ Finset.range calls,
        (passed i).id ∈ Finset.range p.members.length := by
    intro i hi
    exact Finset.mem_range.mpr
      (hPassed i (Finset.mem_range.mp hi)).1.lt_length
  have hCard := Finset.card_le_card_of_injOn _ hInto
    hInjective
  rwa [Finset.card_range, Finset.card_range] at hCard

end Shortest

/-
  The search tells whether any chain of calls leads from one
  constructor of a type to another.
-/
theorem reachesConstructor_eq_ok_true_iff
    {primary c : MemberNode}
    (hMember : p.HasMember c)
    (hPrimary : p.HasMember primary)
    (hOwner : c.owner = primary.owner) :
    p.reachesConstructor primary c = .ok true ↔
      Relation.TransGen p.Delegates c primary := by
  unfold reachesConstructor
  rw [hSound.reachesWithin_eq_ok_true_iff hMember hPrimary
    hOwner, ← exists_delegatesIn_iff]
  constructor
  · rintro ⟨calls, _, hReaches⟩
    exact ⟨calls, hReaches⟩
  · rintro ⟨calls, hReaches⟩
    rcases exists_nearest hReaches with
      ⟨fewest, hNearest⟩
    exact ⟨fewest,
      hSound.length_le_of_nearest hMember hNearest,
      hNearest.1⟩

end Sound

end Program

------------------------------------------------------------
-- Reports
------------------------------------------------------------

namespace ExportView

variable {v : ExportView}
variable {f : Finding}

/-
  A type with a report on constructors exports one, and the
  report is about the type or about two constructors.
-/
theorem mem_constructorFindings_cases
    {t : TypeNode}
    {findings : List Finding}
    (hFound : v.constructorFindings t = .ok findings)
    (hMem : f ∈ findings) :
    ∃ primary ∈ v.program.declaredBy t,
      v.isJsConstructor primary ∧
        (f = .ofType t
            (.severalJsConstructors t.decl.qualifiedName) ∨
          ∃ c ∈ v.program.declaredBy t,
            f = (Finding.ofMember primary
              (.constructorNotReached
                (v.signature primary))).about
                  (.member c.id)) := by
  have hExported :
      ∀ primary,
        primary ∈ ((v.program.declaredBy t).filter
          (fun m => m.decl.isConstructor)).filter
            v.isJsConstructor →
          primary ∈ v.program.declaredBy t ∧
            v.isJsConstructor primary := by
    intro primary hPrimary
    rcases List.mem_filter.mp hPrimary with ⟨hIn, hExport⟩
    exact ⟨List.mem_of_mem_filter hIn, hExport⟩
  unfold constructorFindings at hFound
  dsimp only at hFound
  split at hFound
  · cases hFound
    cases hMem
  · rename_i primary hOnly
    rcases bind_eq_ok_iff.mp hFound with
      ⟨stranded, hStranded, hEq⟩
    cases hEq
    rcases List.mem_map.mp hMem with ⟨c, hc, rfl⟩
    rcases hExported primary
        (hOnly ▸ List.mem_singleton_self primary) with
      ⟨hPrimary, hExport⟩
    have hOther := List.mem_of_mem_filter
      (mem_of_filterM_eq_ok hStranded hc)
    exact ⟨primary, hPrimary, hExport,
      Or.inr ⟨c, hOther, rfl⟩⟩
  · rename_i hSome _
    cases hFound
    rcases List.exists_mem_of_ne_nil _ hSome with
      ⟨primary, hIn⟩
    rcases hExported primary hIn with ⟨hPrimary, hExport⟩
    exact ⟨primary, hPrimary, hExport,
      Or.inl (List.mem_singleton.mp hMem)⟩

theorem mem_constructors_cases
    {findings : List Finding}
    (hFound : v.constructors = .ok findings)
    (hMem : f ∈ findings) :
    ∃ t ∈ v.types, ∃ primary ∈ v.program.declaredBy t,
      v.isJsConstructor primary ∧
        (f = .ofType t
            (.severalJsConstructors t.decl.qualifiedName) ∨
          ∃ c ∈ v.program.declaredBy t,
            f = (Finding.ofMember primary
              (.constructorNotReached
                (v.signature primary))).about
                  (.member c.id)) := by
  rcases bind_eq_ok_iff.mp hFound with ⟨lists, hLists, hEq⟩
  cases hEq
  rcases (mem_flatten_of_mapM_eq_ok hLists).mp hMem with
    ⟨t, ht, found, hHere, hIn⟩
  exact ⟨t, List.mem_of_mem_filter ht,
    mem_constructorFindings_cases hHere hIn⟩

/- There are two ways to break the rules on constructors. -/
theorem breach_of_mem_constructors
    {findings : List Finding}
    (hFound : v.constructors = .ok findings)
    (hMem : f ∈ findings) :
    (∃ type, f.breach = .severalJsConstructors type) ∨
      ∃ primary,
        f.breach = .constructorNotReached primary := by
  rcases mem_constructors_cases hFound hMem with
    ⟨t, _, primary, _, _, rfl | ⟨c, _, rfl⟩⟩
  · exact Or.inl ⟨_, rfl⟩
  · exact Or.inr ⟨_, rfl⟩

end ExportView

end JsExport
