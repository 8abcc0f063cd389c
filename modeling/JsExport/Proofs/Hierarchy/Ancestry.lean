import JsExport.Program.Inherits
import JsExport.Proofs.Hierarchy.Walk
import JsExport.Proofs.Listing.First

/-
  What the ancestry of a type holds.

  Each level above a type adds types that were missing, so
  after as many levels as there are types nothing is left to
  add.  What is found by then is closed under supertypes and
  therefore holds everything that the type inherits from.

  Main declarations:
    * `Supertypes.mem_nextLevel_iff`
    * `Supertypes.levelsAbove_closed`
    * `Supertypes.levelsAbove_add`
    * `Supertypes.mem_ancestry_iff`
    * `Supertypes.ancestry_eq_of_agree`
-/

namespace JsExport

namespace Supertypes

variable {supertypes : TypeId → List TypeId}
variable {count : Nat}

------------------------------------------------------------
-- Levels
------------------------------------------------------------

/- A level has the supertypes of the one below it. -/
theorem mem_nextLevel_iff
    {found level : List TypeId}
    {s : TypeId} :
    s ∈ nextLevel supertypes found level ↔
      (∃ t ∈ level, s ∈ supertypes t) ∧ s ∉ found := by
  unfold nextLevel
  rw [Listing.mem_distinct_iff, List.mem_filter,
    List.mem_flatMap, decide_eq_true_eq]

theorem nextLevel_lt
    (hClosed : Closed supertypes count)
    {found level : List TypeId}
    (hLevel : ∀ t ∈ level, t < count) :
    ∀ s ∈ nextLevel supertypes found level, s < count := by
  intro s hs
  rcases mem_nextLevel_iff.mp hs with ⟨⟨t, ht, hSuper⟩, _⟩
  exact hClosed t (hLevel t ht) s hSuper

/- The levels above are the next level and those above it. -/
theorem levelsAbove_succ
    (n : Nat)
    (found level : List TypeId) :
    levelsAbove supertypes (n + 1) found level =
      nextLevel supertypes found level ++
        levelsAbove supertypes n
          (nextLevel supertypes found level ++ found)
          (nextLevel supertypes found level) :=
  rfl

/- Above an empty level there is nothing. -/
theorem levelsAbove_of_nextLevel_eq_nil
    {found level : List TypeId}
    (hNone : nextLevel supertypes found level = [])
    (n : Nat) :
    levelsAbove supertypes n found level = [] := by
  induction n generalizing found level with
  | zero => rfl
  | succ n ih =>
      rw [levelsAbove_succ, hNone]
      exact ih rfl

/- A level that is not empty leaves fewer types missing. -/
theorem length_missing_nextLevel_lt
    (hClosed : Closed supertypes count)
    {found level : List TypeId}
    (hLevel : ∀ t ∈ level, t < count)
    (hSome : nextLevel supertypes found level ≠ []) :
    (TypeId.missing count
        (nextLevel supertypes found level ++
          found)).length <
      (TypeId.missing count found).length := by
  rcases List.exists_mem_of_ne_nil _ hSome with ⟨s, hs⟩
  exact TypeId.length_missing_lt
    (nextLevel_lt hClosed hLevel s hs)
    (mem_nextLevel_iff.mp hs).2 hs

/- When no type is missing the next level is empty. -/
theorem nextLevel_eq_nil_of_missing
    (hClosed : Closed supertypes count)
    {found level : List TypeId}
    (hLevel : ∀ t ∈ level, t < count)
    (hAll : (TypeId.missing count found).length = 0) :
    nextLevel supertypes found level = [] := by
  by_contra hSome
  have hLess :=
    length_missing_nextLevel_lt hClosed hLevel hSome
  omega

------------------------------------------------------------
-- Enough Levels
------------------------------------------------------------

/- A supertype of a found type is found or is next. -/
theorem mem_found_or_nextLevel
    {found level : List TypeId}
    (hBelow :
      ∀ t ∈ found, t ∉ level →
        ∀ s ∈ supertypes t, s ∈ found)
    {t s : TypeId}
    (ht : t ∈ found)
    (hs : s ∈ supertypes t) :
    s ∈ found ∨ s ∈ nextLevel supertypes found level := by
  by_cases hIn : t ∈ level
  · by_cases hOld : s ∈ found
    · exact Or.inl hOld
    · exact Or.inr
        (mem_nextLevel_iff.mpr ⟨⟨t, hIn, hs⟩, hOld⟩)
  · exact Or.inl (hBelow t ht hIn s hs)

/-
  After as many levels as types are missing, the types found
  are closed under supertypes.
-/
theorem levelsAbove_closed
    (hClosed : Closed supertypes count)
    {n : Nat}
    {found level : List TypeId}
    (hFound : ∀ t ∈ level, t ∈ found)
    (hBelow :
      ∀ t ∈ found, t ∉ level →
        ∀ s ∈ supertypes t, s ∈ found)
    (hLevel : ∀ t ∈ level, t < count)
    (hEnough :
      (TypeId.missing count found).length ≤ n) :
    ∀ t ∈ found ++ levelsAbove supertypes n found level,
      ∀ s ∈ supertypes t,
        s ∈ found ++
          levelsAbove supertypes n found level := by
  induction n generalizing found level with
  | zero =>
      have hNone := nextLevel_eq_nil_of_missing hClosed
        hLevel (Nat.le_zero.mp hEnough)
      intro t ht s hs
      have hIn : t ∈ found := by
        simpa [levelsAbove] using ht
      have hStep :=
        mem_found_or_nextLevel hBelow hIn hs
      simpa [hNone, levelsAbove] using hStep
  | succ n ih =>
      by_cases hNone :
          nextLevel supertypes found level = []
      · rw [levelsAbove_of_nextLevel_eq_nil hNone,
          List.append_nil]
        intro t ht s hs
        have hStep :=
          mem_found_or_nextLevel hBelow ht hs
        simpa [hNone] using hStep
      · have hFewer := length_missing_nextLevel_lt
          hClosed hLevel hNone
        have hRest :=
          ih (fun t ht => List.mem_append_left found ht)
            (fun t ht hNot s hs => by
              have hIn : t ∈ found :=
                (List.mem_append.mp ht).resolve_left hNot
              have hStep :=
                mem_found_or_nextLevel hBelow hIn hs
              exact List.mem_append.mpr hStep.symm)
            (nextLevel_lt hClosed hLevel)
            (by omega)
        intro t ht s hs
        rw [levelsAbove_succ] at ht ⊢
        simp only [List.mem_append] at ht hRest ⊢
        have hStep := hRest t (by tauto) s hs
        tauto

/- With enough levels, more levels add nothing. -/
theorem levelsAbove_add
    (hClosed : Closed supertypes count)
    {n : Nat}
    {found level : List TypeId}
    (hLevel : ∀ t ∈ level, t < count)
    (hEnough : (TypeId.missing count found).length ≤ n)
    (more : Nat) :
    levelsAbove supertypes (n + more) found level =
      levelsAbove supertypes n found level := by
  induction n generalizing found level with
  | zero =>
      have hNone := nextLevel_eq_nil_of_missing hClosed
        hLevel (Nat.le_zero.mp hEnough)
      rw [levelsAbove_of_nextLevel_eq_nil hNone,
        levelsAbove_of_nextLevel_eq_nil hNone]
  | succ n ih =>
      by_cases hNone :
          nextLevel supertypes found level = []
      · rw [levelsAbove_of_nextLevel_eq_nil hNone,
          levelsAbove_of_nextLevel_eq_nil hNone]
      · have hFewer := length_missing_nextLevel_lt
          hClosed hLevel hNone
        rw [Nat.succ_add, levelsAbove_succ,
          levelsAbove_succ,
          ih (nextLevel_lt hClosed hLevel) (by omega)]

/- Levels depend on the supertypes of found types alone. -/
theorem levelsAbove_eq_of_agree
    {wider : TypeId → List TypeId}
    (hClosed : Closed supertypes count)
    (hAgree : ∀ t < count, wider t = supertypes t)
    (n : Nat)
    {found level : List TypeId}
    (hLevel : ∀ t ∈ level, t < count) :
    levelsAbove wider n found level =
      levelsAbove supertypes n found level := by
  induction n generalizing found level with
  | zero => rfl
  | succ n ih =>
      have hNext :
          nextLevel wider found level =
            nextLevel supertypes found level := by
        unfold nextLevel
        rw [List.flatMap_def, List.flatMap_def,
          List.map_congr_left
            (fun t ht => hAgree t (hLevel t ht))]
      rw [levelsAbove_succ, levelsAbove_succ, hNext,
        ih (nextLevel_lt hClosed hLevel)]

/- What is above was not found below. -/
theorem not_mem_found_of_mem_levelsAbove
    {n : Nat}
    {found level : List TypeId}
    {a : TypeId}
    (hAbove : a ∈ levelsAbove supertypes n found level) :
    a ∉ found := by
  induction n generalizing found level with
  | zero => simp [levelsAbove] at hAbove
  | succ n ih =>
      rw [levelsAbove_succ] at hAbove
      rcases List.mem_append.mp hAbove with hNext | hRest
      · exact (mem_nextLevel_iff.mp hNext).2
      · intro hIn
        exact ih hRest (List.mem_append_right _ hIn)

/- No type is found on two levels. -/
theorem nodup_levelsAbove
    (n : Nat)
    (found level : List TypeId) :
    (levelsAbove supertypes n found level).Nodup := by
  induction n generalizing found level with
  | zero => exact List.nodup_nil
  | succ n ih =>
      rw [levelsAbove_succ, List.nodup_append]
      refine ⟨Listing.nodup_distinct _, ih _ _, ?_⟩
      intro a hNext b hRest hSame
      exact not_mem_found_of_mem_levelsAbove hRest
        (List.mem_append_left _ (hSame ▸ hNext))

------------------------------------------------------------
-- Ancestries
------------------------------------------------------------

/- Fewer types are missing than there are. -/
theorem length_missing_le
    (count : Nat)
    (found : List TypeId) :
    (TypeId.missing count found).length ≤ count := by
  have hLe :=
    List.length_filter_le
      (fun t => decide (t ∉ found)) (List.range count)
  rwa [List.length_range] at hLe

/- No type is met twice on the way up. -/
theorem nodup_ancestry
    (count : Nat)
    (t : TypeId) :
    (ancestry supertypes count t).Nodup := by
  apply List.nodup_cons.mpr
  refine ⟨?_, nodup_levelsAbove _ _ _⟩
  intro hAbove
  exact not_mem_found_of_mem_levelsAbove hAbove
    List.mem_cons_self

/- The ancestry of a type is closed under supertypes. -/
theorem ancestry_closed
    (hClosed : Closed supertypes count)
    {t : TypeId}
    (hLt : t < count) :
    ∀ a ∈ ancestry supertypes count t,
      ∀ s ∈ supertypes a,
        s ∈ ancestry supertypes count t := by
  have hAll :
      ∀ a ∈ [t] ++ levelsAbove supertypes count [t] [t],
        ∀ s ∈ supertypes a,
          s ∈ [t] ++
            levelsAbove supertypes count [t] [t] := by
    apply levelsAbove_closed hClosed
    · intro a ha
      exact ha
    · intro a ha hNot
      exact absurd ha hNot
    · intro a ha
      rw [List.mem_singleton.mp ha]
      exact hLt
    · exact length_missing_le count [t]
  exact hAll

/- More types do not change the ancestry of a type. -/
theorem ancestry_eq_of_agree
    {wider : TypeId → List TypeId}
    (hClosed : Closed supertypes count)
    (hAgree : ∀ t < count, wider t = supertypes t)
    {t : TypeId}
    (hLt : t < count)
    (more : Nat) :
    ancestry wider (count + more) t =
      ancestry supertypes count t := by
  have hLevel : ∀ a ∈ [t], a < count := by
    intro a ha
    rw [List.mem_singleton.mp ha]
    exact hLt
  unfold ancestry
  rw [levelsAbove_eq_of_agree hClosed hAgree _ hLevel,
    levelsAbove_add hClosed hLevel
      (length_missing_le count [t])]

/- What is above a type it inherits from. -/
theorem inherits_of_mem_levelsAbove
    {types : List TypeDecl}
    {n : Nat}
    {found level : List TypeId}
    {a : TypeId}
    (hAbove :
      a ∈ levelsAbove (ofTypes types) n found level) :
    ∃ t ∈ level, Inherits types t a := by
  induction n generalizing found level with
  | zero => simp [levelsAbove] at hAbove
  | succ n ih =>
      rw [levelsAbove_succ] at hAbove
      rcases List.mem_append.mp hAbove with hNext | hRest
      · rcases (mem_nextLevel_iff.mp hNext).1 with
          ⟨t, ht, hSuper⟩
        exact ⟨t, ht, .direct hSuper⟩
      · rcases ih hRest with ⟨s, hs, hInherits⟩
        rcases (mem_nextLevel_iff.mp hs).1 with
          ⟨t, ht, hSuper⟩
        exact ⟨t, ht, .above hSuper hInherits⟩

/-
  The ancestry of a type holds the type and all that it
  inherits from.
-/
theorem mem_ancestry_iff
    {types : List TypeDecl}
    (hClosed : Closed (ofTypes types) types.length)
    {t : TypeId}
    (hLt : t < types.length)
    (a : TypeId) :
    a ∈ ancestry (ofTypes types) types.length t ↔
      a = t ∨ Inherits types t a := by
  constructor
  · intro hMem
    rcases List.mem_cons.mp hMem with hSame | hAbove
    · exact Or.inl hSame
    · rcases inherits_of_mem_levelsAbove hAbove with
        ⟨s, hs, hInherits⟩
      rw [List.mem_singleton.mp hs] at hInherits
      exact Or.inr hInherits
  · have hUp :
        ∀ b, b ∈ ancestry (ofTypes types) types.length t →
          Inherits types b a →
            a ∈ ancestry (ofTypes types)
              types.length t := by
      intro b hb hInherits
      induction hInherits with
      | direct hSuper =>
          exact ancestry_closed hClosed hLt _ hb _ hSuper
      | above hSuper _ ih =>
          exact ih
            (ancestry_closed hClosed hLt _ hb _ hSuper)
    rintro (rfl | hInherits)
    · exact List.mem_cons_self
    · exact hUp t List.mem_cons_self hInherits

/- Without cycles, what is above a type is not the type. -/
theorem mem_tail_ancestry_iff
    {types : List TypeDecl}
    (hClosed : Closed (ofTypes types) types.length)
    (hAcyclic : Acyclic types)
    {t : TypeId}
    (hLt : t < types.length)
    (a : TypeId) :
    a ∈ (ancestry (ofTypes types) types.length t).tail ↔
      Inherits types t a := by
  have hAll := mem_ancestry_iff hClosed hLt a
  constructor
  · intro hTail
    rcases hAll.mp (List.mem_of_mem_tail hTail) with
      rfl | hInherits
    · exact absurd List.mem_cons_self
        (not_mem_found_of_mem_levelsAbove hTail)
    · exact hInherits
  · intro hInherits
    rcases List.mem_cons.mp
        (hAll.mpr (Or.inr hInherits)) with rfl | hTail
    · exact absurd hInherits (hAcyclic a)
    · exact hTail

------------------------------------------------------------
-- Short Ancestries
------------------------------------------------------------

/- Without supertypes a type is its own ancestry. -/
theorem ancestry_of_supertypes_eq_nil
    {t : TypeId}
    (hNone : supertypes t = [])
    (count : Nat) :
    ancestry supertypes count t = [t] := by
  have hLevel : nextLevel supertypes [t] [t] = [] := by
    apply List.eq_nil_iff_forall_not_mem.mpr
    intro s hs
    rcases (mem_nextLevel_iff.mp hs).1 with ⟨u, hu, hSuper⟩
    rw [List.mem_singleton.mp hu, hNone] at hSuper
    cases hSuper
  unfold ancestry
  rw [levelsAbove_of_nextLevel_eq_nil hLevel]

/- Below a type without supertypes there is one level. -/
theorem ancestry_of_supertypes_eq_singleton
    {t a : TypeId}
    (hOne : supertypes t = [a])
    (hNone : supertypes a = [])
    (hNe : a ≠ t)
    (count : Nat) :
    ancestry supertypes (count + 1) t = [t, a] := by
  have hLevel : nextLevel supertypes [t] [t] = [a] := by
    unfold nextLevel
    rw [List.flatMap_singleton, hOne,
      List.filter_cons_of_pos (by simpa using hNe)]
    rfl
  have hTop : nextLevel supertypes [a, t] [a] = [] := by
    apply List.eq_nil_iff_forall_not_mem.mpr
    intro s hs
    rcases (mem_nextLevel_iff.mp hs).1 with ⟨u, hu, hSuper⟩
    rw [List.mem_singleton.mp hu, hNone] at hSuper
    cases hSuper
  unfold ancestry
  rw [levelsAbove_succ, hLevel]
  rw [List.singleton_append, List.singleton_append,
    levelsAbove_of_nextLevel_eq_nil hTop]

end Supertypes

end JsExport
