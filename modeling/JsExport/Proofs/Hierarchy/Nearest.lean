import JsExport.Proofs.Hierarchy.Breadth
import JsExport.Proofs.Program.Sound

/-
  Ancestries list types by their distance.

  The distance of a type is the length of the shortest way
  up to it.  Each level of an ancestry has the types of one
  distance: what a level leads to and is not found yet is
  one step further.  Within a level, what comes after the
  first type is an interface, since interfaces have only
  interfaces above them and a class has its superclass
  first.

  Main declarations:
    * `StepsAbove` and `Distance`
    * `Supertypes.AtDistance` and `AtDistance.next`
    * `Supertypes.nextLevel_tail`
    * `Supertypes.pairwise_ancestry`
    * `ancestry_lists_nearest_first`
-/

namespace JsExport

open Supertypes

------------------------------------------------------------
-- Distances
------------------------------------------------------------

/- The types that so many steps up from a type lead to. -/
inductive StepsAbove
    (supertypes : TypeId → List TypeId)
    (t : TypeId) : Nat → TypeId → Prop
| here : StepsAbove supertypes t 0 t
| up
    {n : Nat}
    {s a : TypeId}
    (hBelow : StepsAbove supertypes t n s)
    (hSuper : a ∈ supertypes s) :
    StepsAbove supertypes t (n + 1) a

/- The length of the shortest way up to a type. -/
structure Distance
    (supertypes : TypeId → List TypeId)
    (t a : TypeId)
    (n : Nat) : Prop where
  reached : StepsAbove supertypes t n a
  least : ∀ k, StepsAbove supertypes t k a → n ≤ k

variable {supertypes : TypeId → List TypeId}
variable {t : TypeId}

theorem stepsAbove_zero_iff
    {a : TypeId} :
    StepsAbove supertypes t 0 a ↔ a = t := by
  constructor
  · intro hHere
    cases hHere
    rfl
  · rintro rfl
    exact .here

theorem stepsAbove_succ_iff
    {n : Nat}
    {a : TypeId} :
    StepsAbove supertypes t (n + 1) a ↔
      ∃ s, StepsAbove supertypes t n s ∧
        a ∈ supertypes s := by
  constructor
  · intro hUp
    cases hUp with
    | up hBelow hSuper => exact ⟨_, hBelow, hSuper⟩
  · rintro ⟨s, hBelow, hSuper⟩
    exact .up hBelow hSuper

/- A way up may begin one type lower. -/
theorem StepsAbove.above
    {s a : TypeId}
    {n : Nat}
    (hSuper : s ∈ supertypes t)
    (hAbove : StepsAbove supertypes s n a) :
    StepsAbove supertypes t (n + 1) a := by
  induction hAbove with
  | here => exact .up .here hSuper
  | up _ hLast ih => exact .up ih hLast

/- A type inherits from what some steps up lead to. -/
theorem inherits_iff_stepsAbove
    {types : List TypeDecl}
    {a : TypeId} :
    Inherits types t a ↔
      ∃ n, StepsAbove (ofTypes types) t (n + 1) a := by
  constructor
  · intro hInherits
    induction hInherits with
    | direct hSuper => exact ⟨0, .up .here hSuper⟩
    | above hSuper _ ih =>
        rcases ih with ⟨n, hAbove⟩
        exact ⟨n + 1, hAbove.above hSuper⟩
  · rintro ⟨n, hAbove⟩
    induction n generalizing a with
    | zero =>
        rcases stepsAbove_succ_iff.mp hAbove with
          ⟨s, hHere, hSuper⟩
        rw [stepsAbove_zero_iff.mp hHere] at hSuper
        exact .direct hSuper
    | succ n ih =>
        rcases stepsAbove_succ_iff.mp hAbove with
          ⟨s, hBelow, hSuper⟩
        exact (ih hBelow).trans (.direct hSuper)

/- What a type is or inherits from is some steps above. -/
theorem eq_or_inherits_iff_stepsAbove
    {types : List TypeDecl}
    {a : TypeId} :
    (a = t ∨ Inherits types t a) ↔
      ∃ n, StepsAbove (ofTypes types) t n a := by
  rw [inherits_iff_stepsAbove]
  constructor
  · rintro (rfl | ⟨n, hAbove⟩)
    · exact ⟨0, .here⟩
    · exact ⟨n + 1, hAbove⟩
  · rintro ⟨n, hAbove⟩
    cases n with
    | zero => exact .inl (stepsAbove_zero_iff.mp hAbove)
    | succ n => exact .inr ⟨n, hAbove⟩

theorem Distance.unique
    {a : TypeId}
    {m n : Nat}
    (hm : Distance supertypes t a m)
    (hn : Distance supertypes t a n) :
    m = n :=
  Nat.le_antisymm (hm.least n hn.reached)
    (hn.least m hm.reached)

/- A shortest way up passes a type one step nearer. -/
theorem Distance.exists_below
    {a : TypeId}
    {n : Nat}
    (hNext : Distance supertypes t a (n + 1)) :
    ∃ s, Distance supertypes t s n ∧ a ∈ supertypes s := by
  rcases stepsAbove_succ_iff.mp hNext.reached with
    ⟨s, hBelow, hSuper⟩
  refine ⟨s, ⟨hBelow, ?_⟩, hSuper⟩
  intro k hShort
  exact Nat.le_of_succ_le_succ
    (hNext.least (k + 1) (.up hShort hSuper))

/- What is above a supertype, and no nearer, is two steps up. -/
theorem Distance.two
    {s a : TypeId}
    (hLow : s ∈ supertypes t)
    (hHigh : a ∈ supertypes s)
    (hNe : a ≠ t)
    (hNot : a ∉ supertypes t) :
    Distance supertypes t a 2 := by
  refine ⟨.up (.up .here hLow) hHigh, ?_⟩
  intro k hSteps
  match k with
  | 0 => exact absurd (stepsAbove_zero_iff.mp hSteps) hNe
  | 1 =>
      rcases stepsAbove_succ_iff.mp hSteps with
        ⟨u, hHere, hSuper⟩
      rw [stepsAbove_zero_iff.mp hHere] at hSuper
      exact absurd hSuper hNot
  | k + 2 => exact Nat.le_add_left 2 k

------------------------------------------------------------
-- Levels And Distances
------------------------------------------------------------

namespace Supertypes

/-
  That a level has the types of one distance, and all types
  up to this distance are found.
-/
structure AtDistance
    (supertypes : TypeId → List TypeId)
    (t : TypeId)
    (n : Nat)
    (found level : List TypeId) : Prop where
  mem_level_iff :
    ∀ a, a ∈ level ↔ Distance supertypes t a n
  mem_found_iff :
    ∀ a, a ∈ found ↔ ∃ k ≤ n, StepsAbove supertypes t k a

/- The way up begins with the type itself. -/
theorem atDistance_zero :
    AtDistance supertypes t 0 [t] [t] := by
  constructor
  · intro a
    rw [List.mem_singleton]
    constructor
    · rintro rfl
      exact ⟨.here, fun k _ => Nat.zero_le k⟩
    · intro hZero
      exact stepsAbove_zero_iff.mp hZero.reached
  · intro a
    rw [List.mem_singleton]
    constructor
    · rintro rfl
      exact ⟨0, Nat.le_refl 0, .here⟩
    · rintro ⟨k, hLe, hSteps⟩
      rw [Nat.le_zero.mp hLe] at hSteps
      exact stepsAbove_zero_iff.mp hSteps

namespace AtDistance

variable {n : Nat}
variable {found level : List TypeId}

/- The types of the next level are one step further. -/
theorem mem_nextLevel_iff_distance
    (hLevel : AtDistance supertypes t n found level)
    (a : TypeId) :
    a ∈ nextLevel supertypes found level ↔
      Distance supertypes t a (n + 1) := by
  rw [mem_nextLevel_iff, hLevel.mem_found_iff]
  constructor
  · rintro ⟨⟨s, hs, hSuper⟩, hNew⟩
    have hBelow := (hLevel.mem_level_iff s).mp hs
    refine ⟨.up hBelow.reached hSuper, ?_⟩
    intro k hSteps
    by_contra hShort
    exact hNew ⟨k, by omega, hSteps⟩
  · intro hNext
    rcases hNext.exists_below with ⟨s, hBelow, hSuper⟩
    refine
      ⟨⟨s, (hLevel.mem_level_iff s).mpr hBelow, hSuper⟩, ?_⟩
    rintro ⟨k, hLe, hSteps⟩
    have hLeast := hNext.least k hSteps
    omega

/- From one level to the next the distance grows by one. -/
theorem next
    (hLevel : AtDistance supertypes t n found level) :
    AtDistance supertypes t (n + 1)
      (nextLevel supertypes found level ++ found)
      (nextLevel supertypes found level) := by
  refine ⟨hLevel.mem_nextLevel_iff_distance, ?_⟩
  intro a
  rw [List.mem_append, hLevel.mem_nextLevel_iff_distance,
    hLevel.mem_found_iff]
  constructor
  · rintro (hNext | ⟨k, hLe, hSteps⟩)
    · exact ⟨n + 1, Nat.le_refl _, hNext.reached⟩
    · exact ⟨k, by omega, hSteps⟩
  · rintro ⟨k, hLe, hSteps⟩
    by_cases hOld :
        ∃ k ≤ n, StepsAbove supertypes t k a
    · exact .inr hOld
    · left
      have hFar :
          ∀ i, StepsAbove supertypes t i a → n + 1 ≤ i := by
        intro i hi
        by_contra hShort
        exact hOld ⟨i, by omega, hi⟩
      have hExact : k = n + 1 :=
        Nat.le_antisymm hLe (hFar k hSteps)
      exact ⟨hExact ▸ hSteps, hFar⟩

/- What is above a level is further away. -/
theorem further
    (hLevel : AtDistance supertypes t n found level)
    {count : Nat}
    {a : TypeId}
    (hAbove : a ∈ levelsAbove supertypes count found level) :
    ∃ m, n < m ∧ Distance supertypes t a m := by
  induction count generalizing n found level with
  | zero => cases hAbove
  | succ count ih =>
      rw [levelsAbove_succ] at hAbove
      rcases List.mem_append.mp hAbove with hNext | hRest
      · exact ⟨n + 1, Nat.lt_succ_self n,
          (hLevel.mem_nextLevel_iff_distance a).mp hNext⟩
      · rcases ih hLevel.next hRest with ⟨m, hLt, hFar⟩
        exact ⟨m, by omega, hFar⟩

end AtDistance

------------------------------------------------------------
-- After The First Of A Level
------------------------------------------------------------

/-
  That a property, such as to be an interface, passes on to
  what is above, and holds of all but the first supertype
  of any type.
-/
structure Spreads
    (supertypes : TypeId → List TypeId)
    (property : TypeId → Prop) : Prop where
  up : ∀ t, property t → ∀ s ∈ supertypes t, property s
  later : ∀ t, ∀ s ∈ (supertypes t).tail, property s

variable {property : TypeId → Prop}

/- If all but the first of a level have it, so in the next. -/
theorem nextLevel_tail
    (hSpreads : Spreads supertypes property)
    {level : List TypeId}
    (hRest : ∀ a ∈ level.tail, property a)
    (found : List TypeId) :
    ∀ s ∈ (nextLevel supertypes found level).tail,
      property s := by
  have hAll :
      ∀ s ∈ (level.flatMap supertypes).tail,
        property s := by
    cases level with
    | nil => simp
    | cons first rest =>
        rw [List.flatMap_cons]
        have hHigh :
            ∀ s ∈ rest.flatMap supertypes, property s := by
          intro s hs
          rcases List.mem_flatMap.mp hs with ⟨a, ha, hSuper⟩
          exact hSpreads.up a (hRest a ha) s hSuper
        have hFirst := hSpreads.later first
        cases hSupers : supertypes first with
        | nil =>
            intro s hs
            exact hHigh s (List.mem_of_mem_tail hs)
        | cons super others =>
            rw [hSupers] at hFirst
            intro s hs
            rcases List.mem_append.mp hs with hIn | hIn
            · exact hFirst s hIn
            · exact hHigh s hIn
  have hSublist :
      (nextLevel supertypes found level).Sublist
        (level.flatMap supertypes) :=
    (Listing.firstBy_sublist id _).trans List.filter_sublist
  intro s hs
  exact hAll s (hSublist.tail.subset hs)

/-
  That one type is listed before another one rightly: it is
  nearer, or as near and the other one has the property.
-/
def Precedes
    (supertypes : TypeId → List TypeId)
    (property : TypeId → Prop)
    (t a b : TypeId) : Prop :=
  ∃ i j, Distance supertypes t a i ∧
    Distance supertypes t b j ∧
      (i < j ∨ i = j ∧ property b)

/- Of a level, each type precedes the later ones. -/
theorem AtDistance.pairwise
    {n : Nat}
    {found level : List TypeId}
    (hLevel : AtDistance supertypes t n found level)
    (hRest : ∀ a ∈ level.tail, property a) :
    level.Pairwise (Precedes supertypes property t) := by
  have hEach := fun a => (hLevel.mem_level_iff a).mp
  cases level with
  | nil => exact .nil
  | cons first rest =>
      have hFirst := hEach first List.mem_cons_self
      have hAmong :
          ∀ a, Distance supertypes t a n → ∀ b ∈ rest,
            Precedes supertypes property t a b := by
        intro a ha b hb
        exact ⟨n, n, ha,
          hEach b (List.mem_cons_of_mem first hb),
          .inr ⟨rfl, hRest b hb⟩⟩
      apply List.pairwise_cons.mpr
      refine ⟨hAmong first hFirst, ?_⟩
      apply List.pairwise_iff_forall_sublist.mpr
      intro a b hPair
      have ha := hPair.subset List.mem_cons_self
      exact hAmong a (hEach a (List.mem_cons_of_mem first ha))
        b (hPair.subset (by simp))

/- A level and all above it are listed rightly. -/
theorem AtDistance.pairwise_append
    (hSpreads : Spreads supertypes property)
    {n : Nat}
    {found level : List TypeId}
    (hLevel : AtDistance supertypes t n found level)
    (hRest : ∀ a ∈ level.tail, property a)
    (count : Nat) :
    (level ++
      levelsAbove supertypes count found level).Pairwise
        (Precedes supertypes property t) := by
  induction count generalizing n found level with
  | zero =>
      have hNone :
          levelsAbove supertypes 0 found level = [] := rfl
      rw [hNone, List.append_nil]
      exact hLevel.pairwise hRest
  | succ count ih =>
      refine List.pairwise_append.mpr
        ⟨hLevel.pairwise hRest,
          ih hLevel.next (nextLevel_tail hSpreads hRest found),
          ?_⟩
      intro a ha b hb
      rcases hLevel.further hb with ⟨m, hLt, hFar⟩
      exact ⟨n, m, (hLevel.mem_level_iff a).mp ha, hFar,
        .inl hLt⟩

/- An ancestry lists its types rightly. -/
theorem pairwise_ancestry
    (hSpreads : Spreads supertypes property)
    (count : Nat) :
    (ancestry supertypes count t).Pairwise
      (Precedes supertypes property t) := by
  have hStart : ∀ a ∈ [t].tail, property a := by simp
  exact atDistance_zero.pairwise_append hSpreads hStart count

/- In a list that is right, the nearer type comes first. -/
theorem idxOf_lt_of_precedes
    {ts : List TypeId}
    (hSorted :
      ts.Pairwise (Precedes supertypes property t))
    {a b : TypeId}
    (ha : a ∈ ts)
    (hb : b ∈ ts)
    (hNe : a ≠ b)
    (hNot : ¬ Precedes supertypes property t b a) :
    ts.idxOf a < ts.idxOf b := by
  have hLow := List.idxOf_lt_length_iff.mpr ha
  have hHigh := List.idxOf_lt_length_iff.mpr hb
  rcases Nat.lt_trichotomy (ts.idxOf a) (ts.idxOf b) with
    hLt | hEq | hGt
  · exact hLt
  · exact absurd ((List.idxOf_inj ha).mp hEq) hNe
  · have hPrecedes := List.pairwise_iff_getElem.mp hSorted
      _ _ hHigh hLow hGt
    rw [List.getElem_idxOf, List.getElem_idxOf] at hPrecedes
    exact absurd hPrecedes hNot

end Supertypes

------------------------------------------------------------
-- Classes And Interfaces
------------------------------------------------------------

namespace TypeDecl

/- That a number stands for a class of a list of types. -/
def IsClassOf
    (types : List TypeDecl)
    (t : TypeId) : Prop :=
  ∃ d, types[t]? = some d ∧ d.isClass

/- That a number stands for an interface of the list. -/
def IsInterfaceOf
    (types : List TypeDecl)
    (t : TypeId) : Prop :=
  ∃ d, types[t]? = some d ∧ d.isInterface

/- No type is both a class and an interface. -/
theorem IsInterfaceOf.not_isClassOf
    {types : List TypeDecl}
    (hInterface : IsInterfaceOf types t) :
    ¬ IsClassOf types t := by
  rintro ⟨d, hDecl, hClass⟩
  rcases hInterface with ⟨e, hOther, hIs⟩
  rw [hDecl] at hOther
  cases hOther
  unfold isInterface at hIs
  unfold isClass at hClass
  rw [beq_iff_eq] at hIs hClass
  rw [hIs] at hClass
  cases hClass

/- The first supertype of a class may be a class; no other. -/
theorem spreads_isInterfaceOf
    {draft : Draft}
    (hClasses : draft.SuperclassesFit)
    (hInterfaces : draft.InterfacesFit) :
    Spreads (ofTypes draft.types)
      (IsInterfaceOf draft.types) := by
  constructor
  · intro t hInterface s hs
    rcases mem_ofTypes_iff.mp hs with ⟨d, hDecl, hSuper⟩
    have hd := List.mem_of_getElem? hDecl
    have hNone : d.superClass = none := by
      apply Option.eq_none_iff_forall_ne_some.mpr
      intro above hAbove
      exact hInterface.not_isClassOf
        ⟨d, hDecl, (hClasses d hd above hAbove).1⟩
    unfold supertypes at hSuper
    rw [hNone] at hSuper
    exact hInterfaces d hd s hSuper
  · intro t s hs
    have hMem := List.mem_of_mem_tail hs
    rcases mem_ofTypes_iff.mp hMem with ⟨d, hDecl, _⟩
    have hd := List.mem_of_getElem? hDecl
    have hListed : s ∈ d.supertypes.tail := by
      unfold ofTypes at hs
      rw [hDecl] at hs
      exact hs
    have hIn : s ∈ d.interfaces := by
      unfold supertypes at hListed
      cases hSuper : d.superClass with
      | none =>
          rw [hSuper] at hListed
          exact List.mem_of_mem_tail hListed
      | some above =>
          rw [hSuper] at hListed
          exact hListed
    exact hInterfaces d hd s hIn

end TypeDecl

------------------------------------------------------------
-- Ancestries Of Hierarchies
------------------------------------------------------------

namespace Hierarchy.Fits

variable {types : List TypeDecl}
variable {h : Hierarchy}
variable (hFits : Fits types h)

include hFits

/- The ancestry is what any number of steps up lead to. -/
theorem mem_ancestry_iff_stepsAbove
    (hLt : t < types.length)
    (a : TypeId) :
    a ∈ h.ancestry t ↔
      ∃ n, StepsAbove (ofTypes types) t n a := by
  rw [hFits.mem_ancestry_iff hLt,
    eq_or_inherits_iff_stepsAbove]

theorem pairwise_precedes
    {property : TypeId → Prop}
    (hSpreads : Spreads (ofTypes types) property)
    (hLt : t < types.length) :
    (h.ancestry t).Pairwise
      (Precedes (ofTypes types) property t) := by
  rw [hFits.ancestry_eq t hLt]
  exact pairwise_ancestry hSpreads types.length

/- What is listed earlier in an ancestry is no further. -/
theorem pairwise_distance
    (hLt : t < types.length) :
    (h.ancestry t).Pairwise (fun a b =>
      ∃ i j, Distance (ofTypes types) t a i ∧
        Distance (ofTypes types) t b j ∧ i ≤ j) := by
  have hAny :
      Spreads (ofTypes types) (fun _ => True) :=
    ⟨fun _ _ _ _ => trivial, fun _ _ _ => trivial⟩
  apply (hFits.pairwise_precedes hAny hLt).imp
  rintro a b ⟨i, j, ha, hb, hOrder⟩
  exact ⟨i, j, ha, hb, by omega⟩

/-
  Where all but the first supertypes are interfaces, so are
  the types that are as far as a class, and come after it.
-/
theorem class_first
    (hSpreads :
      Spreads (ofTypes types)
        (TypeDecl.IsInterfaceOf types))
    (hLt : t < types.length)
    {a b : TypeId}
    {n : Nat}
    (ha : Distance (ofTypes types) t a n)
    (hb : Distance (ofTypes types) t b n)
    (hClass : TypeDecl.IsClassOf types a)
    (hNe : a ≠ b) :
    TypeDecl.IsInterfaceOf types b ∧
      (h.ancestry t).idxOf a < (h.ancestry t).idxOf b := by
  have hSorted := hFits.pairwise_precedes hSpreads hLt
  have haIn := (hFits.mem_ancestry_iff_stepsAbove hLt a).mpr
    ⟨n, ha.reached⟩
  have hbIn := (hFits.mem_ancestry_iff_stepsAbove hLt b).mpr
    ⟨n, hb.reached⟩
  have hLater :
      ∀ c d, Distance (ofTypes types) t c n →
        Distance (ofTypes types) t d n →
          Precedes (ofTypes types)
              (TypeDecl.IsInterfaceOf types) t c d →
            TypeDecl.IsInterfaceOf types d := by
    rintro c d hc hd ⟨i, j, hi, hj, hLess | ⟨_, hLast⟩⟩
    · have hc' := hi.unique hc
      have hd' := hj.unique hd
      omega
    · exact hLast
  have hPlace :
      (h.ancestry t).idxOf a < (h.ancestry t).idxOf b := by
    apply idxOf_lt_of_precedes hSorted haIn hbIn hNe
    intro hWrong
    exact (hLater b a hb ha hWrong).not_isClassOf hClass
  refine ⟨hLater a b ha hb ?_, hPlace⟩
  have hPair := List.pairwise_iff_getElem.mp hSorted _ _
    (List.idxOf_lt_length_iff.mpr haIn)
    (List.idxOf_lt_length_iff.mpr hbIn) hPlace
  rwa [List.getElem_idxOf, List.getElem_idxOf] at hPair

end Hierarchy.Fits

/-
  The ancestry of a type is what a search with a queue
  finds.  It begins with the type and lists once what any
  number of steps up lead to, nearest first; ancestors are
  what at least one step leads to.  When classes extend
  classes and all other supertypes are interfaces, the types
  that are as far as a class are interfaces after it.
-/
theorem ancestry_lists_nearest_first
    {draft : Draft}
    {h : Hierarchy}
    (hOk : Hierarchy.ofTypes? draft.types = .ok h) :
    (∀ t < draft.types.length,
      (∀ found,
        Breadth.Searches (ofTypes draft.types)
            ⟨[t], [t]⟩ found ↔
          found = h.ancestry t) ∧
      (h.ancestry t).head? = some t ∧
      (h.ancestry t).Nodup ∧
      (∀ a, a ∈ h.ancestry t ↔
        ∃ n, StepsAbove (ofTypes draft.types) t n a) ∧
      (h.ancestry t).Pairwise (fun a b =>
        ∃ i j, Distance (ofTypes draft.types) t a i ∧
          Distance (ofTypes draft.types) t b j ∧ i ≤ j)) ∧
    (∀ a t, h.isAncestor a t = true ↔
      ∃ n, StepsAbove (ofTypes draft.types) t (n + 1) a) ∧
    (∀ t, h.isAncestor t t = false) ∧
    (∀ a b c, h.isAncestor a b = true →
      h.isAncestor b c = true → h.isAncestor a c = true) ∧
    ((∀ d ∈ draft.types, draft.superclassDefects d = [] ∧
        draft.interfaceDefects d = []) →
      ∀ t < draft.types.length, ∀ a b n,
        Distance (ofTypes draft.types) t a n →
        Distance (ofTypes draft.types) t b n →
        TypeDecl.IsClassOf draft.types a → a ≠ b →
          TypeDecl.IsInterfaceOf draft.types b ∧
            (h.ancestry t).idxOf a <
              (h.ancestry t).idxOf b) := by
  have hFits := Hierarchy.fits_of_ofTypes?_eq_ok hOk
  refine ⟨?_, ?_, ?_, ?_, ?_⟩
  · intro t hLt
    have hEq := hFits.ancestry_eq t hLt
    refine ⟨?_, ?_, hFits.nodup_ancestry hLt,
      hFits.mem_ancestry_iff_stepsAbove hLt,
      hFits.pairwise_distance hLt⟩
    · rw [hEq]
      exact Breadth.searches_iff_eq_ancestry hFits.closed hLt
    · rw [hEq]
      rfl
  · intro a t
    rw [hFits.isAncestor_iff, inherits_iff_stepsAbove]
  · intro t
    rw [Bool.eq_false_iff, ne_eq, hFits.isAncestor_iff]
    exact hFits.acyclic t
  · intro a b c hLow hHigh
    rw [hFits.isAncestor_iff] at hLow hHigh ⊢
    exact hHigh.trans hLow
  · intro hNone t hLt a b n ha hb hClass hNe
    have hClasses : draft.SuperclassesFit := fun d hd =>
      (draft.superclassDefects_eq_nil_iff d).mp (hNone d hd).1
    have hInterfaces : draft.InterfacesFit := fun d hd =>
      (draft.interfaceDefects_eq_nil_iff d).mp (hNone d hd).2
    exact hFits.class_first
      (TypeDecl.spreads_isInterfaceOf hClasses hInterfaces)
      hLt ha hb hClass hNe

/-
  A ferry is a ship and a ship is a vessel.  Vessels and all
  that is named are things, and the way up from the ferry to
  the thing is shorter through its name.
-/
def Draft.ferry : Draft :=
  let plain (name : String) (kind : TypeKind) : TypeDecl :=
    .plain name kind .none []
  ⟨[{ plain "Ferry" .classKind with
        superClass := some 1
        interfaces := [3] },
      { plain "Ship" .classKind with
        superClass := some 2
        interfaces := [4, 3] },
      { plain "Vessel" .classKind with interfaces := [5] },
      { plain "Named" .interfaceKind with
        interfaces := [5] },
      plain "Sized" .interfaceKind,
      plain "Thing" .interfaceKind], []⟩

/- The vessel comes before the thing, which is as far. -/
theorem ferry_has_vessel_before_thing :
    ∃ h, Hierarchy.ofTypes? Draft.ferry.types = .ok h ∧
      h.ancestry 0 = [0, 1, 3, 2, 4, 5] ∧
      h.isAncestor 5 0 = true ∧
      h.isAncestor 0 0 = false ∧
      TypeDecl.IsInterfaceOf Draft.ferry.types 5 ∧
      (h.ancestry 0).idxOf 2 < (h.ancestry 0).idxOf 5 := by
  have hFound :
      ∃ h, Hierarchy.ofTypes? Draft.ferry.types = .ok h :=
    ⟨_, rfl⟩
  rcases hFound with ⟨h, hOk⟩
  rcases ancestry_lists_nearest_first hOk with
    ⟨_, hAncestor, hStrict, _, hClass⟩
  have hVessel :
      Distance (ofTypes Draft.ferry.types) 0 2 2 :=
    .two (s := 1) (by decide) (by decide) (by decide)
      (by decide)
  have hThing :
      Distance (ofTypes Draft.ferry.types) 0 5 2 :=
    .two (s := 3) (by decide) (by decide) (by decide)
      (by decide)
  have hAncestry : h.ancestry 0 = [0, 1, 3, 2, 4, 5] := by
    have hFits := Hierarchy.fits_of_ofTypes?_eq_ok hOk
    rw [hFits.ancestry_eq 0 (by decide)]
    decide +kernel
  refine ⟨h, hOk, hAncestry, ?_, hStrict 0, ?_⟩
  · exact (hAncestor 5 0).mpr ⟨1, hThing.reached⟩
  · exact hClass (by decide) 0 (by decide) 2 5 2 hVessel
      hThing ⟨_, rfl, rfl⟩ (by decide)

end JsExport
