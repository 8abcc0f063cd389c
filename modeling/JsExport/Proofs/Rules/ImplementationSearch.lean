import JsExport.Proofs.Hierarchy.Superclasses
import JsExport.Proofs.Check.FunctionTypes

/-
  The search for an implementation of a function type.

  The search goes from superclass to superclass and keeps no
  record of where it has been.  It ends since every class on
  its way ranks lower than the one before, and it stops at
  the first class that lists a function type, however many
  classes there are in between.

  Main declarations:
    * `Program.SearchEnds`
    * `Program.ImplementsAbove`
    * `Program.ImplementsFirstAbove`
    * `Program.Sound.exists_searchEnds`
    * `Program.SearchEnds.eq_some_iff`
    * `Program.SearchEnds.eq_none_iff`
-/

namespace JsExport

open Lookup Supertypes

------------------------------------------------------------
-- Listed Function Types
------------------------------------------------------------

/- That a type itself lists a function type. -/
def Program.ListsFunction
    (p : Program)
    (t : TypeNode) : Prop :=
  ∃ f, p.HasType f ∧ f.id ∈ t.decl.interfaces ∧
    f.decl.isJsFunction

theorem Program.Sound.implementsFunction_eq_true_iff
    {p : Program}
    (hSound : p.Sound)
    {t : TypeNode}
    (hType : p.HasType t) :
    p.implementsFunction t = .ok true ↔
      p.ListsFunction t := by
  constructor
  · intro hImplements
    rcases bind_eq_ok_iff.mp hImplements with
      ⟨interfaces, hInterfaces, hAny⟩
    rcases List.any_eq_true.mp (Except.ok.inj hAny) with
      ⟨f, hf, hFunction⟩
    rcases (mem_of_mapM_eq_ok hInterfaces).mp hf with
      ⟨i, hListed, hFound⟩
    rcases type_eq_ok_iff_hasType.mp hFound with
      ⟨rfl, hAbove⟩
    exact ⟨f, hAbove, hListed, hFunction⟩
  · rintro ⟨f, hAbove, hListed, hFunction⟩
    exact hSound.implementsFunction_eq_true hType hAbove
      hFunction hListed

------------------------------------------------------------
-- Implementations Among The Superclasses
------------------------------------------------------------

/-
  That a superclass lists a function type.  The direct
  superclass has no classes in between.
-/
structure Program.ImplementsAbove
    (p : Program)
    (t : TypeNode)
    (between : Nat)
    (b : TypeNode) : Prop where
  hasType : p.HasType b
  in_line :
    StepsAbove (superclass p.types) t.id (between + 1) b.id
  lists : p.ListsFunction b

/- That no nearer superclass does. -/
structure Program.ImplementsFirstAbove
    (p : Program)
    (t : TypeNode)
    (between : Nat)
    (b : TypeNode) : Prop
    extends p.ImplementsAbove t between b where
  nearest :
    ∀ k c, p.ImplementsAbove t k c → between ≤ k

/- What is above a type is its superclass or above that. -/
theorem stepsAbove_superclass_iff
    {p : Program}
    {t : TypeNode}
    (hType : p.HasType t)
    {s : TypeId}
    (hSuper : t.decl.superClass = some s)
    {n : Nat}
    {a : TypeId} :
    StepsAbove (superclass p.types) t.id (n + 1) a ↔
      StepsAbove (superclass p.types) s n a := by
  have hClass : s ∈ superclass p.types t.id :=
    Superclasses.mem_superclass_iff.mpr
      ⟨t.decl, hType, hSuper⟩
  constructor
  · intro hSteps
    rw [Nat.add_comm] at hSteps
    rcases hSteps.exists_between with ⟨u, hLow, hHigh⟩
    rw [Superclasses.eq_of_stepsAbove hLow
      (.up .here hClass)] at hHigh
    exact hHigh
  · exact fun hSteps => hSteps.above hClass

namespace Program

variable {p : Program}
variable {s t b : TypeNode}

namespace ImplementsAbove

/- Without a superclass there is nothing to be found. -/
theorem superClass_ne_none
    (hType : p.HasType t)
    {between : Nat}
    (hAbove : p.ImplementsAbove t between b) :
    t.decl.superClass ≠ none := by
  intro hNone
  have hSteps := hAbove.in_line
  rw [Nat.add_comm] at hSteps
  rcases hSteps.exists_between with ⟨u, hLow, _⟩
  rcases stepsAbove_succ_iff.mp hLow with
    ⟨low, hHere, hClass⟩
  rw [stepsAbove_zero_iff.mp hHere] at hClass
  rcases Superclasses.mem_superclass_iff.mp hClass with
    ⟨d, hDecl, hSuper⟩
  cases hDecl.symm.trans hType
  rw [hNone] at hSuper
  cases hSuper

/- Nothing is between a type and its superclass. -/
theorem zero_iff
    (hType : p.HasType t)
    (hAbove : p.HasType s)
    (hSuper : t.decl.superClass = some s.id) :
    p.ImplementsAbove t 0 b ↔
      b = s ∧ p.ListsFunction s := by
  constructor
  · rintro ⟨hb, hSteps, hLists⟩
    have hId := stepsAbove_zero_iff.mp
      ((stepsAbove_superclass_iff hType hSuper).mp hSteps)
    cases hb.eq_of_id_eq hAbove hId
    exact ⟨rfl, hLists⟩
  · rintro ⟨rfl, hLists⟩
    exact ⟨hAbove,
      (stepsAbove_superclass_iff hType hSuper).mpr .here,
      hLists⟩

/- Seen from the superclass there is one class less. -/
theorem succ_iff
    (hType : p.HasType t)
    (hSuper : t.decl.superClass = some s.id)
    {between : Nat} :
    p.ImplementsAbove t (between + 1) b ↔
      p.ImplementsAbove s between b := by
  constructor
  · rintro ⟨hb, hSteps, hLists⟩
    exact ⟨hb,
      (stepsAbove_superclass_iff hType hSuper).mp hSteps,
      hLists⟩
  · rintro ⟨hb, hSteps, hLists⟩
    exact ⟨hb,
      (stepsAbove_superclass_iff hType hSuper).mpr hSteps,
      hLists⟩

end ImplementsAbove

namespace ImplementsFirstAbove

/- There is one nearest implementation at most. -/
theorem eq
    {c : TypeNode}
    {i j : Nat}
    (hb : p.ImplementsFirstAbove t i b)
    (hc : p.ImplementsFirstAbove t j c) :
    b = c := by
  have hSame : i = j :=
    Nat.le_antisymm
      (hb.nearest j c hc.toImplementsAbove)
      (hc.nearest i b hb.toImplementsAbove)
  subst hSame
  exact hb.hasType.eq_of_id_eq hc.hasType
    (Superclasses.eq_of_stepsAbove hb.in_line hc.in_line)

/- A superclass that lists a function type is the nearest. -/
theorem of_listsFunction
    (hType : p.HasType t)
    (hAbove : p.HasType s)
    (hSuper : t.decl.superClass = some s.id)
    (hLists : p.ListsFunction s) :
    p.ImplementsFirstAbove t 0 s :=
  ⟨(ImplementsAbove.zero_iff hType hAbove hSuper).mpr
    ⟨rfl, hLists⟩, fun _ _ _ => Nat.zero_le _⟩

/- Past another superclass the nearest remains the same. -/
theorem succ
    (hType : p.HasType t)
    (hAbove : p.HasType s)
    (hSuper : t.decl.superClass = some s.id)
    (hNot : ¬ p.ListsFunction s)
    {between : Nat}
    (hFirst : p.ImplementsFirstAbove s between b) :
    p.ImplementsFirstAbove t (between + 1) b := by
  refine ⟨(ImplementsAbove.succ_iff hType hSuper).mpr
    hFirst.toImplementsAbove, ?_⟩
  intro k c hOther
  cases k with
  | zero =>
      exact absurd ((ImplementsAbove.zero_iff hType hAbove
        hSuper).mp hOther).2 hNot
  | succ k =>
      exact Nat.succ_le_succ (hFirst.nearest k c
        ((ImplementsAbove.succ_iff hType hSuper).mp
          hOther))

end ImplementsFirstAbove

------------------------------------------------------------
-- The Search
------------------------------------------------------------

/-
  The search from a superclass on, as a loop that nothing
  bounds: what it ends with, if it ends.
-/
inductive SearchEnds
    (p : Program) : Option TypeId → Option TypeNode → Prop
| nowhere : SearchEnds p none none
| stops
    {s : TypeId}
    {above : TypeNode}
    (hAbove : p.type s = .ok above)
    (hClass : above.decl.isInterface = false)
    (hImplements : p.implementsFunction above = .ok true) :
    SearchEnds p (some s) (some above)
| passes
    {s : TypeId}
    {above : TypeNode}
    {found : Option TypeNode}
    (hAbove : p.type s = .ok above)
    (hNot :
      above.decl.isInterface = true ∨
        p.implementsFunction above = .ok false)
    (hRest : SearchEnds p above.decl.superClass found) :
    SearchEnds p (some s) found

/- The search can end in one way only. -/
theorem SearchEnds.unique
    {start : Option TypeId}
    {found other : Option TypeNode}
    (hFound : p.SearchEnds start found)
    (hOther : p.SearchEnds start other) :
    found = other := by
  have hApart :
      ∀ above : TypeNode, above.decl.isInterface = false →
        p.implementsFunction above = .ok true →
          ¬ (above.decl.isInterface = true ∨
            p.implementsFunction above = .ok false) := by
    rintro above hClass hImplements (hInterface | hNot)
    · rw [hClass] at hInterface
      cases hInterface
    · rw [hImplements] at hNot
      cases hNot
  induction hFound with
  | nowhere =>
      cases hOther
      rfl
  | stops hAbove hClass hImplements =>
      cases hOther with
      | stops hAgain =>
          cases hAbove.symm.trans hAgain
          rfl
      | passes hAgain hNot =>
          cases hAbove.symm.trans hAgain
          exact absurd hNot (hApart _ hClass hImplements)
  | passes hAbove hNot _ ih =>
      cases hOther with
      | stops hAgain hClass hImplements =>
          cases hAbove.symm.trans hAgain
          exact absurd hNot (hApart _ hClass hImplements)
      | passes hAgain _ hRest =>
          cases hAbove.symm.trans hAgain
          exact ih hRest

namespace Sound

variable (hSound : p.Sound)

include hSound

/- A superclass is a type of the program and no interface. -/
theorem exists_superclass
    (hType : p.HasType t)
    {s : TypeId}
    (hSuper : t.decl.superClass = some s) :
    ∃ above, p.type s = .ok above ∧ above.id = s ∧
      p.HasType above ∧ above.decl.isInterface = false := by
  rcases hSound.superclass_succeeds hType hSuper with
    ⟨above, hAbove⟩
  rcases type_eq_ok_iff_hasType.mp hAbove with
    ⟨rfl, hKnown⟩
  rcases hSound.wellFormed.superclasses t.decl
      (List.mem_of_getElem? hType) above.id hSuper with
    ⟨_, d, hFound, hClass⟩
  cases hFound.symm.trans hKnown
  exact ⟨above, hAbove, rfl, hKnown,
    TypeDecl.isInterface_eq_false_of_isClass hClass⟩

/-
  The search ends within as many classes as rank below the
  type, and the bounded search ends with the same.
-/
theorem exists_searchEnds_of_rank_lt
    {rank : TypeId → Nat}
    (hRank : ∀ t a, Inherits p.types t a → rank a < rank t)
    (hType : p.HasType t)
    {classes : Nat}
    (hLt : rank t.id < classes) :
    ∃ found,
      p.implementationWithin classes t = .ok found ∧
        p.SearchEnds t.decl.superClass found := by
  induction classes generalizing t with
  | zero => exact absurd hLt (Nat.not_lt_zero _)
  | succ classes ih =>
      unfold implementationWithin
      cases hSuper : t.decl.superClass with
      | none => exact ⟨none, rfl, .nowhere⟩
      | some s =>
          rcases hSound.exists_superclass hType hSuper with
            ⟨above, hAbove, hId, hKnown, hClass⟩
          have hLess : rank above.id < rank t.id := by
            rw [hId]
            exact hRank t.id s
              (hType.inherits_superclass hSuper)
          rcases hSound.implementsFunction_succeeds
              hKnown with
            ⟨implements, hImplements⟩
          simp only [hAbove, hImplements, hClass, bind,
            Except.bind, Bool.not_false, Bool.true_and]
          cases implements with
          | true =>
              exact ⟨some above, rfl,
                .stops hAbove hClass hImplements⟩
          | false =>
              rcases ih hKnown (by omega) with
                ⟨found, hFound, hEnds⟩
              exact ⟨found, hFound,
                .passes hAbove (Or.inr hImplements) hEnds⟩

/- There are types enough for the search to end. -/
theorem exists_searchEnds
    (hType : p.HasType t) :
    ∃ found, p.nearestImplementation? t = .ok found ∧
      p.SearchEnds t.decl.superClass found := by
  rcases hSound.fits.exists_rank with ⟨rank, hLt, hRank⟩
  exact hSound.exists_searchEnds_of_rank_lt hRank hType
    (hLt t.id hType.lt_length)

end Sound

------------------------------------------------------------
-- What The Search Ends With
------------------------------------------------------------

namespace SearchEnds

variable {found : Option TypeNode}
variable (hSound : p.Sound)
variable (hType : p.HasType t)
variable (hEnds : p.SearchEnds t.decl.superClass found)

include hSound hType hEnds

/- Nothing is found or the nearest implementation is. -/
theorem none_or_first :
    (found = none ∧
        ∀ between b, ¬ p.ImplementsAbove t between b) ∨
      ∃ between b, found = some b ∧
        p.ImplementsFirstAbove t between b := by
  generalize hStart : t.decl.superClass = start at hEnds
  induction hEnds generalizing t with
  | nowhere =>
      refine Or.inl ⟨rfl, ?_⟩
      intro between b hAbove
      exact hAbove.superClass_ne_none hType hStart
  | stops hAbove _ hImplements =>
      rcases type_eq_ok_iff_hasType.mp hAbove with
        ⟨rfl, hKnown⟩
      exact Or.inr ⟨0, _, rfl, .of_listsFunction hType hKnown
        hStart ((hSound.implementsFunction_eq_true_iff
          hKnown).mp hImplements)⟩
  | @passes s above found hAbove hNot _ ih =>
      rcases type_eq_ok_iff_hasType.mp hAbove with
        ⟨rfl, hKnown⟩
      have hLists : ¬ p.ListsFunction above := by
        rcases hSound.exists_superclass hType hStart with
          ⟨same, hSame, _, _, hClass⟩
        cases hAbove.symm.trans hSame
        rcases hNot with hInterface | hOther
        · rw [hClass] at hInterface
          cases hInterface
        · rw [← hSound.implementsFunction_eq_true_iff
            hKnown, hOther]
          exact fun hSame => by cases hSame
      rcases ih hKnown rfl with
        ⟨hNone, hNowhere⟩ | ⟨between, b, hSome, hFirst⟩
      · refine Or.inl ⟨hNone, ?_⟩
        intro between b hHigher
        cases between with
        | zero =>
            exact hLists ((ImplementsAbove.zero_iff hType
              hKnown hStart).mp hHigher).2
        | succ between =>
            exact hNowhere between b
              ((ImplementsAbove.succ_iff hType hStart).mp
                hHigher)
      · exact Or.inr ⟨between + 1, b, hSome,
          hFirst.succ hType hKnown hStart hLists⟩

/- The search finds the nearest implementation. -/
theorem eq_some_iff :
    found = some b ↔
      ∃ between, p.ImplementsFirstAbove t between b := by
  rcases hEnds.none_or_first hSound hType with
    ⟨rfl, hNowhere⟩ | ⟨between, c, rfl, hFirst⟩
  · constructor
    · intro hSome
      cases hSome
    · rintro ⟨between, hFirst⟩
      exact absurd hFirst.toImplementsAbove
        (hNowhere between b)
  · constructor
    · intro hSome
      cases hSome
      exact ⟨between, hFirst⟩
    · rintro ⟨other, hOther⟩
      rw [hFirst.eq hOther]

/- It finds nothing where there is no implementation. -/
theorem eq_none_iff :
    found = none ↔
      ∀ between b, ¬ p.ImplementsAbove t between b := by
  rcases hEnds.none_or_first hSound hType with
    ⟨rfl, hNowhere⟩ | ⟨between, c, rfl, hFirst⟩
  · exact ⟨fun _ => hNowhere, fun _ => rfl⟩
  · constructor
    · intro hNone
      cases hNone
    · intro hNowhere
      exact absurd hFirst.toImplementsAbove
        (hNowhere between c)

end SearchEnds

end Program

end JsExport
