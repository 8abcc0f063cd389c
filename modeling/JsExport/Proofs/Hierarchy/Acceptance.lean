import JsExport.Proofs.Hierarchy.Toposort
import JsExport.Proofs.Program.Sound

/-
  Which lists of types have a hierarchy.

  A walk that leaves a type has been at each supertype of
  it.  A supertype that is not left yet is on the way to the
  type, so the type is on a cycle with it.  Hence a type
  that stands before one of its supertypes shows a cycle,
  and when there is none, all supertypes come first.

  Main declarations:
    * `Walk.Climbs` and `Walk.Climbs.step`
    * `Walk.mem_before_or_inherits`
    * `Hierarchy.inherits_of_cyclic?_eq`
    * `hierarchy_found_iff_acyclic`
-/

namespace JsExport

open Supertypes

------------------------------------------------------------
-- The Way To A Type
------------------------------------------------------------

/- The type that is entered or left. -/
def Visit.type : Visit → TypeId
| .enter t => t
| .leave t => t

namespace Walk

variable {types : List TypeDecl}
variable {t : TypeId}
variable {rest : List Visit}
variable {entered left : List TypeId}

/-
  How a walk climbs: a type waits to be left behind types
  above it only, its supertypes are met before it is left,
  and what is left before one of its supertypes is above
  that supertype as well.
-/
structure Climbs
    (types : List TypeDecl)
    (w : Walk) : Prop where
  waits :
    w.agenda.Pairwise (fun visit later =>
      ∀ t, later = .leave t →
        Inherits types t visit.type)
  meets :
    ∀ before t after, w.agenda = before ++ .leave t :: after →
      ∀ s ∈ ofTypes types t,
        s ∈ w.entered ∨ .enter s ∈ before
  leaves :
    ∀ before t after, w.left = before ++ t :: after →
      ∀ s ∈ ofTypes types t,
        s ∈ before ∨ Inherits types s t

/- At the start nothing waits to be left. -/
theorem climbs_start
    (types : List TypeDecl)
    (count : Nat) :
    Climbs types (start count) := by
  constructor
  · apply List.pairwise_map.mpr
    apply List.pairwise_of_forall
    intro _ _ t hLeave
    cases hLeave
  · intro before t after hSplit
    have hMem : Visit.leave t ∈ (start count).agenda := by
      rw [hSplit]
      simp
    exact absurd hMem (leave_not_mem_map_enter _)
  · intro before t after hSplit
    cases before <;> cases hSplit

/- The way after a type is left. -/
private theorem Climbs.leave
    {count : Nat}
    (hTracks :
      Tracks count ⟨.leave t :: rest, entered, left⟩)
    (hClimbs :
      Climbs types ⟨.leave t :: rest, entered, left⟩) :
    Climbs types ⟨rest, entered, left ++ [t]⟩ := by
  rcases List.pairwise_cons.mp hClimbs.waits with
    ⟨hFirst, hRest⟩
  constructor
  · exact hRest
  · intro before u after hSplit s hSuper
    change rest = before ++ .leave u :: after at hSplit
    have hAgenda :
        .leave t :: rest =
          (.leave t :: before) ++ .leave u :: after := by
      rw [List.cons_append, hSplit]
    rcases hClimbs.meets _ u after hAgenda s hSuper with
      hIn | hBefore
    · exact .inl hIn
    · rcases List.mem_cons.mp hBefore with hEq | hLater
      · cases hEq
      · exact .inr hLater
  · intro before u after hSplit s hSuper
    change left ++ [t] = before ++ u :: after at hSplit
    rcases List.eq_nil_or_concat after with
      rfl | ⟨init, last, rfl⟩
    · -- The type that is left now: each supertype is left
      -- already or waits behind it.
      rcases List.append_inj' hSplit rfl with ⟨rfl, hSame⟩
      cases hSame
      have hEntered : s ∈ entered := by
        rcases hClimbs.meets [] t rest rfl s hSuper with
          hIn | hNone
        · exact hIn
        · cases hNone
      rcases (hTracks.mem_entered_iff s).mp hEntered with
        hLeft | hWaits
      · exact .inl hLeft
      · right
        rcases List.mem_cons.mp hWaits with hEq | hLater
        · cases hEq
          exact .direct hSuper
        · exact hFirst _ hLater s rfl
    · have hEarlier : left = before ++ u :: init := by
        have hAssoc :
            left ++ [t] = (before ++ u :: init) ++ [last] := by
          rw [hSplit]
          simp
        exact (List.append_inj' hAssoc rfl).1
      exact hClimbs.leaves before u init hEarlier s hSuper

/- The way after a type is met again. -/
private theorem Climbs.skip
    (hIn : t ∈ entered)
    (hClimbs :
      Climbs types ⟨.enter t :: rest, entered, left⟩) :
    Climbs types ⟨rest, entered, left⟩ := by
  constructor
  · exact (List.pairwise_cons.mp hClimbs.waits).2
  · intro before u after hSplit s hSuper
    change rest = before ++ .leave u :: after at hSplit
    have hAgenda :
        .enter t :: rest =
          (.enter t :: before) ++ .leave u :: after := by
      rw [List.cons_append, hSplit]
    rcases hClimbs.meets _ u after hAgenda s hSuper with
      hOld | hBefore
    · exact .inl hOld
    · rcases List.mem_cons.mp hBefore with hEq | hLater
      · cases hEq
        exact .inl hIn
      · exact .inr hLater
  · exact hClimbs.leaves

/- The way after a type is entered. -/
private theorem Climbs.enter
    (hClimbs :
      Climbs types ⟨.enter t :: rest, entered, left⟩) :
    Climbs types
      ⟨(ofTypes types t).map Visit.enter ++
          .leave t :: rest,
        entered ++ [t], left⟩ := by
  rcases List.pairwise_cons.mp hClimbs.waits with
    ⟨hFirst, hRest⟩
  constructor
  · apply List.pairwise_append.mpr
    refine ⟨?_, List.pairwise_cons.mpr ⟨hFirst, hRest⟩, ?_⟩
    · apply List.pairwise_map.mpr
      apply List.pairwise_of_forall
      intro _ _ u hLeave
      cases hLeave
    · intro visit hVisit later hLater u hLeave
      rcases List.mem_map.mp hVisit with ⟨s, hSuper, rfl⟩
      rcases List.mem_cons.mp hLater with hEq | hWaits
      · rw [hEq] at hLeave
        cases hLeave
        exact .direct hSuper
      · exact (hFirst later hWaits u hLeave).trans
          (.direct hSuper)
  · intro before u after hSplit s hSuper
    change (ofTypes types t).map Visit.enter ++
      .leave t :: rest = before ++ .leave u :: after at hSplit
    rcases List.append_eq_append_iff.mp hSplit with
      ⟨more, rfl, hLater⟩ | ⟨more, hEnters, hHere⟩
    · rcases List.cons_eq_append_iff.mp hLater with
        ⟨rfl, hHere⟩ | ⟨between, rfl, hAfter⟩
      · cases hHere
        right
        rw [List.append_nil]
        exact List.mem_map_of_mem hSuper
      · have hAgenda :
            .enter t :: rest =
              (.enter t :: between) ++ .leave u :: after := by
          rw [List.cons_append, hAfter]
        rcases hClimbs.meets _ u after hAgenda s hSuper with
          hOld | hBefore
        · exact .inl (List.mem_append_left _ hOld)
        · rcases List.mem_cons.mp hBefore with hEq | hMet
          · cases hEq
            exact .inl (by simp)
          · right
            exact List.mem_append_right _
              (List.mem_cons_of_mem _ hMet)
    · rcases List.cons_eq_append_iff.mp hHere with
        ⟨rfl, hSame⟩ | ⟨between, rfl, _⟩
      · cases hSame
        right
        rw [List.append_nil] at hEnters
        rw [← hEnters]
        exact List.mem_map_of_mem hSuper
      · have hMem :
            Visit.leave u ∈
              (ofTypes types t).map Visit.enter := by
          rw [hEnters]
          simp
        exact absurd hMem (leave_not_mem_map_enter _)
  · exact hClimbs.leaves

/- Every step keeps to the way. -/
theorem Climbs.step
    {count : Nat}
    {w : Walk}
    (hTracks : Tracks count w)
    (hClimbs : Climbs types w) :
    Climbs types (w.step (ofTypes types)) := by
  rcases w with ⟨agenda, entered, left⟩
  match agenda, hTracks, hClimbs with
  | [], _, hClimbs => exact hClimbs
  | .leave t :: rest, hTracks, hClimbs =>
      exact hClimbs.leave hTracks
  | .enter t :: rest, _, hClimbs =>
      by_cases hIn : t ∈ entered
      · rw [step_enter_of_mem hIn]
        exact hClimbs.skip hIn
      · rw [step_enter_of_not_mem hIn]
        exact hClimbs.enter

theorem Climbs.steps
    {count : Nat}
    (hClosed : Closed (ofTypes types) count)
    (n : Nat)
    {w : Walk}
    (hTracks : Tracks count w)
    (hClimbs : Climbs types w) :
    Climbs types (Walk.steps (ofTypes types) n w) := by
  induction n generalizing w with
  | zero => exact hClimbs
  | succ n ih =>
      exact ih (hTracks.step hClosed) (hClimbs.step hTracks)

/-
  A supertype of a type that a walk has left was left before
  it, or inherits from it.
-/
theorem mem_before_or_inherits
    (hClosed : Closed (ofTypes types) types.length)
    {before after : List TypeId}
    {s : TypeId}
    (hSplit :
      (all (ofTypes types) types.length).left =
        before ++ t :: after)
    (hSuper : s ∈ ofTypes types t) :
    s ∈ before ∨ Inherits types s t :=
  ((climbs_start types types.length).steps hClosed _
    (tracks_start types.length)).leaves before t after hSplit
      s hSuper

/- What is misplaced stands behind its supertype. -/
theorem misplaced?_eq_some
    {subtypes : TypeId → List TypeId}
    {seen ts : List TypeId}
    {s : TypeId}
    (hFound : misplaced? subtypes seen ts = some s) :
    ∃ before t after, ts = before ++ t :: after ∧
      s ∈ subtypes t ∧ s ∉ seen ∧ s ∉ before ∧ s ≠ t := by
  induction ts generalizing seen with
  | nil => cases hFound
  | cons u us ih =>
      unfold misplaced? at hFound
      split at hFound
      · rename_i r hFind
        cases hFound
        have hNew : s ∉ u :: seen := by
          simpa using List.find?_some hFind
        rw [List.mem_cons, not_or] at hNew
        exact ⟨[], u, us, rfl,
          List.mem_of_find?_eq_some hFind, hNew.2,
          List.not_mem_nil, hNew.1⟩
      · rcases ih hFound with
          ⟨before, t, after, hSplit, hSub, hSeen, hBefore,
            hNe⟩
        rw [List.mem_cons, not_or] at hSeen
        refine ⟨u :: before, t, after, ?_, hSub, hSeen.2, ?_,
          hNe⟩
        · rw [hSplit]
          rfl
        · rw [List.mem_cons, not_or]
          exact ⟨hSeen.1, hBefore⟩

end Walk

------------------------------------------------------------
-- Acceptance
------------------------------------------------------------

namespace Hierarchy

/- The type that shows a cycle is on one. -/
theorem inherits_of_cyclic?_eq
    {types : List TypeDecl}
    (hClosed : Closed (ofTypes types) types.length)
    {s : TypeId}
    (hFound :
      Walk.cyclic? (ofTypes types)
        (Supertypes.subtypes types)
        (Walk.all (ofTypes types) types.length) = some s) :
    Inherits types s s := by
  rcases Option.or_eq_some_iff.mp hFound with
    hSelf | ⟨_, hMisplaced⟩
  · have hSuper : s ∈ ofTypes types s := by
      simpa using List.find?_some hSelf
    exact .direct hSuper
  · rcases Walk.misplaced?_eq_some hMisplaced with
      ⟨before, t, after, hSplit, hSub, _, hBefore, hNe⟩
    have hSuper : t ∈ ofTypes types s :=
      mem_subtypes_iff.mp hSub
    have hLeft :
        (Walk.all (ofTypes types) types.length).left =
          after.reverse ++ t :: before.reverse := by
      rw [← List.reverse_reverse
        (Walk.all (ofTypes types) types.length).left, hSplit]
      simp
    -- The type is left before its supertype.
    have hMem : s ∈ after.reverse := by
      have hAll := (Walk.mem_left_all_iff hClosed s).mpr
        (Inherits.direct hSuper).lt_length
      rw [hLeft] at hAll
      simp only [List.mem_append, List.mem_cons,
        List.mem_reverse] at hAll ⊢
      tauto
    rcases List.append_of_mem hMem with ⟨low, high, hLow⟩
    have hHere :
        (Walk.all (ofTypes types) types.length).left =
          low ++ s :: (high ++ t :: before.reverse) := by
      rw [hLeft, hLow]
      simp
    rcases Walk.mem_before_or_inherits hClosed hHere
        hSuper with
      hFirst | hAbove
    · have hNodup := Walk.nodup_left_all hClosed
      have hNot := (not_mem_of_nodup_split hNodup hLeft).1
      rw [hLow] at hNot
      exact absurd (List.mem_append_left _ hFirst) hNot
    · exact .above hSuper hAbove

/- Supertypes are closed when all declared ones are known. -/
theorem closed_iff
    {types : List TypeDecl} :
    Closed (ofTypes types) types.length ↔
      ∀ d ∈ types, ∀ s ∈ d.supertypes, s < types.length := by
  constructor
  · intro hClosed d hd s hs
    rcases List.mem_iff_getElem?.mp hd with ⟨t, ht⟩
    exact hClosed t (List.getElem?_eq_some_iff.mp ht).1 s
      (mem_ofTypes_iff.mpr ⟨d, ht, hs⟩)
  · intro hKnown t _ s hs
    rcases mem_ofTypes_iff.mp hs with ⟨d, ht, hSuper⟩
    exact hKnown d (List.mem_of_getElem? ht) s hSuper

/- What is found wrong first is an unknown supertype. -/
theorem ofTypes?_of_not_closed
    {types : List TypeDecl}
    (hClosed : ¬ Closed (ofTypes types) types.length) :
    ∃ d ∈ types, ∃ s ∈ d.supertypes, types.length ≤ s ∧
      ofTypes? types = .error
        (.unknownType s (.supertypesOf d.qualifiedName)) := by
  rw [← strays_eq_nil_iff] at hClosed
  rcases List.exists_cons_of_ne_nil hClosed with
    ⟨defect, rest, hStrays⟩
  have hMem : defect ∈ strays types := by
    rw [hStrays]
    exact List.mem_cons_self
  rcases List.mem_flatMap.mp hMem with ⟨d, hd, hDefect⟩
  rcases List.mem_map.mp hDefect with ⟨s, hs, rfl⟩
  rcases List.mem_filter.mp hs with ⟨hSuper, hLe⟩
  refine ⟨d, hd, s, hSuper, of_decide_eq_true hLe, ?_⟩
  unfold ofTypes?
  rw [hStrays]
  rfl

/- Types in a cycle are refused for one of them. -/
theorem ofTypes?_of_not_acyclic
    {types : List TypeDecl}
    (hClosed : Closed (ofTypes types) types.length)
    (hCycle : ¬ Acyclic types) :
    ∃ t d, types[t]? = some d ∧ Inherits types t t ∧
      ofTypes? types =
        .error (.inheritanceCycle d.qualifiedName) := by
  have hStrays := (strays_eq_nil_iff types).mpr hClosed
  cases hFound :
      Walk.cyclic? (ofTypes types) (Supertypes.subtypes types)
        (Walk.all (ofTypes types) types.length) with
  | none =>
      have hOk := ofTypes?_eq_ok_iff.mpr
        ⟨hClosed, hFound, rfl⟩
      exact absurd (fits_of_ofTypes?_eq_ok hOk).acyclic hCycle
  | some t =>
      have hSelf := inherits_of_cyclic?_eq hClosed hFound
      have hLt := hSelf.lt_length
      have hDecl : types[t]? = some types[t] :=
        List.getElem?_eq_getElem hLt
      refine ⟨t, types[t], hDecl, hSelf, ?_⟩
      unfold ofTypes?
      simp only [hStrays, List.head?_nil, hFound, hDecl,
        Option.map_some, Option.getD_some]

/- Types with known supertypes and no cycle are accepted. -/
theorem exists_ofTypes?_eq_ok
    {types : List TypeDecl}
    (hClosed : Closed (ofTypes types) types.length)
    (hAcyclic : Acyclic types) :
    ∃ h, ofTypes? types = .ok h := by
  cases hFound :
      Walk.cyclic? (ofTypes types) (Supertypes.subtypes types)
        (Walk.all (ofTypes types) types.length) with
  | none =>
      exact ⟨_, ofTypes?_eq_ok_iff.mpr
        ⟨hClosed, hFound, rfl⟩⟩
  | some t =>
      exact absurd (inherits_of_cyclic?_eq hClosed hFound)
        (hAcyclic t)

end Hierarchy

/-
  A list of types is refused for an unknown supertype when
  there is one.  Else it is what the search in two phases
  makes of it: it has a hierarchy when no type inherits from
  itself, and is refused for a type that does when there is
  one.
-/
theorem hierarchy_found_iff_acyclic
    (types : List TypeDecl) :
    ((∃ s place, Hierarchy.ofTypes? types =
        .error (.unknownType s place)) ↔
      ∃ d ∈ types, ∃ s ∈ d.supertypes, types.length ≤ s) ∧
    ((∀ d ∈ types, ∀ s ∈ d.supertypes, s < types.length) →
      (∃ found, Toposort.Sorts types found) ∧
      (∀ found, Toposort.Sorts types found →
        Hierarchy.ofTypes? types =
          Hierarchy.ofSorted types found) ∧
      ((∃ h, Hierarchy.ofTypes? types = .ok h) ↔
        Acyclic types) ∧
      (¬ Acyclic types →
        ∃ t d, types[t]? = some d ∧ Inherits types t t ∧
          Hierarchy.ofTypes? types =
            .error (.inheritanceCycle d.qualifiedName))) := by
  constructor
  · constructor
    · intro hRefused
      rcases hRefused with ⟨s, place, hError⟩
      by_cases hClosed :
          Closed (ofTypes types) types.length
      · -- A closed list is refused for a cycle at most.
        by_cases hAcyclic : Acyclic types
        · rcases Hierarchy.exists_ofTypes?_eq_ok hClosed
            hAcyclic with ⟨h, hOk⟩
          rw [hOk] at hError
          cases hError
        · rcases Hierarchy.ofTypes?_of_not_acyclic hClosed
            hAcyclic with ⟨t, d, _, _, hCycle⟩
          rw [hCycle] at hError
          cases hError
      · rcases Hierarchy.ofTypes?_of_not_closed hClosed with
          ⟨d, hd, s, hSuper, hLe, _⟩
        exact ⟨d, hd, s, hSuper, hLe⟩
    · intro hStray
      rcases hStray with ⟨d, hd, s, hSuper, hLe⟩
      have hClosed :
          ¬ Closed (ofTypes types) types.length := by
        intro hClosed
        have hLt :=
          Hierarchy.closed_iff.mp hClosed d hd s hSuper
        exact Nat.not_lt.mpr hLe hLt
      rcases Hierarchy.ofTypes?_of_not_closed hClosed with
        ⟨_, _, s, _, _, hError⟩
      exact ⟨s, _, hError⟩
  · intro hKnown
    have hClosed := Hierarchy.closed_iff.mpr hKnown
    refine ⟨⟨_, Toposort.sorts_walk hClosed⟩, ?_, ⟨?_, ?_⟩,
      ?_⟩
    · intro found hSorts
      exact Hierarchy.ofTypes?_eq_ofSorted hClosed hSorts
    · intro hFound
      rcases hFound with ⟨h, hOk⟩
      exact (Hierarchy.fits_of_ofTypes?_eq_ok hOk).acyclic
    · exact Hierarchy.exists_ofTypes?_eq_ok hClosed
    · exact Hierarchy.ofTypes?_of_not_acyclic hClosed

/- A branch that hangs on a ring of two other classes. -/
def TypeDecl.branchOnRing : List TypeDecl :=
  let below (name : String) (above : TypeId) : TypeDecl :=
    { TypeDecl.plain name .classKind .none [] with
      superClass := some above }
  [below "Branch" 1, below "Ring" 2, below "Other" 1]

/-
  The walk starts at the branch, but the type that is named
  is on the ring.
-/
theorem branch_not_named_for_ring :
    ∃ t d, TypeDecl.branchOnRing[t]? = some d ∧
      Inherits TypeDecl.branchOnRing t t ∧
      Hierarchy.ofTypes? TypeDecl.branchOnRing =
        .error (.inheritanceCycle d.qualifiedName) ∧
      d.qualifiedName ≠ "Branch" := by
  have hKnown :
      ∀ d ∈ TypeDecl.branchOnRing, ∀ s ∈ d.supertypes,
        s < TypeDecl.branchOnRing.length := by
    decide
  have hCycle : ¬ Acyclic TypeDecl.branchOnRing := by
    intro hAcyclic
    have hUp :
        2 ∈ Supertypes.ofTypes TypeDecl.branchOnRing 1 := by
      decide
    have hBack :
        1 ∈ Supertypes.ofTypes TypeDecl.branchOnRing 2 := by
      decide
    exact hAcyclic 1 (.above hUp (.direct hBack))
  rcases ((hierarchy_found_iff_acyclic
      TypeDecl.branchOnRing).2 hKnown).2.2.2 hCycle with
    ⟨t, d, hDecl, hSelf, hRefused⟩
  have hNamed :
      Hierarchy.ofTypes? TypeDecl.branchOnRing =
        .error (.inheritanceCycle "Other") := by
    decide +kernel
  refine ⟨t, d, hDecl, hSelf, hRefused, ?_⟩
  rw [hRefused, Except.error.injEq,
    Defect.inheritanceCycle.injEq] at hNamed
  rw [hNamed]
  decide

end JsExport
