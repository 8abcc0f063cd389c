import JsExport.Proofs.Hierarchy.Ancestry

/-
  The ancestry of a type as a search with a queue.

  The search takes a type from the front of its queue, and
  puts those of its supertypes that it has not found yet at
  the end, one after another.  What the types of one level
  put there is the next level; so the queue never holds more
  than the rest of one level and the start of the next, and
  the search finds the types of an ancestry in their order.

  Main declarations:
    * `Breadth.Searches`
    * `Breadth.foldl_meet`
    * `Breadth.searches_of_level`
    * `Breadth.searches_iff_eq_ancestry`
-/

namespace JsExport

open Supertypes

namespace Breadth

------------------------------------------------------------
-- Searches With A Queue
------------------------------------------------------------

/- The types found so far, and those that wait in a queue. -/
structure Front where
  found : List TypeId
  queue : List TypeId

/- A type that is met is found and waits, if it is new. -/
def Front.meet
    (f : Front)
    (s : TypeId) : Front :=
  if s ∈ f.found then f
  else ⟨f.found ++ [s], f.queue ++ [s]⟩

/- What a search finds, from a front on. -/
inductive Searches
    (supertypes : TypeId → List TypeId) :
    Front → List TypeId → Prop
| ends
    {found : List TypeId} :
    Searches supertypes ⟨found, []⟩ found
| visit
    {t : TypeId}
    {found queue result : List TypeId}
    (hRest :
      Searches supertypes
        ((supertypes t).foldl Front.meet ⟨found, queue⟩)
        result) :
    Searches supertypes ⟨found, t :: queue⟩ result

variable {supertypes : TypeId → List TypeId}

/- A search comes to one result. -/
theorem Searches.unique
    {front : Front}
    {result other : List TypeId}
    (hResult : Searches supertypes front result)
    (hOther : Searches supertypes front other) :
    result = other := by
  induction hResult with
  | ends =>
      cases hOther
      rfl
  | visit _ ih =>
      cases hOther with
      | visit hRest => exact ih hRest

------------------------------------------------------------
-- New Types
------------------------------------------------------------

/- The types of a list that are not found, each once. -/
def fresh
    (found ts : List TypeId) : List TypeId :=
  Listing.distinct
    (ts.filter (fun t => decide (t ∉ found)))

theorem fresh_cons_of_mem
    {found : List TypeId}
    {s : TypeId}
    (hOld : s ∈ found)
    (ts : List TypeId) :
    fresh found (s :: ts) = fresh found ts := by
  unfold fresh
  rw [List.filter_cons_of_neg (by simpa using hOld)]

/- A new type comes first, and is then found. -/
theorem fresh_cons_of_not_mem
    {found : List TypeId}
    {s : TypeId}
    (hNew : s ∉ found)
    (ts : List TypeId) :
    fresh found (s :: ts) =
      s :: fresh (found ++ [s]) ts := by
  have hBoth :
      ∀ t ∈ ts,
        (decide (t ≠ s) && decide (t ∉ found)) =
          decide (t ∉ found ++ [s]) := by
    intro t _
    rw [← Bool.decide_and, decide_eq_decide,
      List.mem_append, List.mem_singleton, not_or, and_comm]
  unfold fresh
  rw [List.filter_cons_of_pos (by simpa using hNew),
    Listing.distinct_cons, List.filter_filter,
    List.filter_congr hBoth]

/- What is met goes to the end of both lists if it is new. -/
theorem foldl_meet
    (found queue ts : List TypeId) :
    ts.foldl Front.meet ⟨found, queue⟩ =
      ⟨found ++ fresh found ts,
        queue ++ fresh found ts⟩ := by
  induction ts generalizing found queue with
  | nil => simp [fresh, Listing.distinct, Listing.firstBy]
  | cons s ts ih =>
      rw [List.foldl_cons]
      by_cases hOld : s ∈ found
      · have hMeet :
            Front.meet ⟨found, queue⟩ s = ⟨found, queue⟩ :=
          if_pos hOld
        rw [hMeet, ih, fresh_cons_of_mem hOld]
      · have hMeet :
            Front.meet ⟨found, queue⟩ s =
              ⟨found ++ [s], queue ++ [s]⟩ :=
          if_neg hOld
        rw [hMeet, ih, fresh_cons_of_not_mem hOld,
          List.append_assoc, List.append_assoc,
          List.singleton_append]

/- The new types of two lists are found one by one. -/
theorem fresh_append
    (found xs ys : List TypeId) :
    fresh found (xs ++ ys) =
      fresh found xs ++
        fresh (found ++ fresh found xs) ys := by
  have hFold :
      (xs ++ ys).foldl Front.meet ⟨found, []⟩ =
        ys.foldl Front.meet
          (xs.foldl Front.meet ⟨found, []⟩) :=
    List.foldl_append
  rw [foldl_meet, foldl_meet, foldl_meet] at hFold
  exact congrArg Front.queue hFold

------------------------------------------------------------
-- Levels
------------------------------------------------------------

/- The next level are the new supertypes of a level. -/
theorem nextLevel_eq_fresh
    {found order : List TypeId}
    (hSame : ∀ t, t ∈ order ↔ t ∈ found)
    (level : List TypeId) :
    nextLevel supertypes found level =
      fresh order (level.flatMap supertypes) := by
  unfold nextLevel fresh
  simp only [hSame]

/- A search goes through a level and finds the next. -/
theorem searches_of_level
    {level found queue result : List TypeId}
    (hRest :
      Searches supertypes
        ⟨found ++ fresh found (level.flatMap supertypes),
          queue ++ fresh found (level.flatMap supertypes)⟩
        result) :
    Searches supertypes ⟨found, level ++ queue⟩ result := by
  induction level generalizing found queue with
  | nil =>
      have hNone : fresh found [] = [] := rfl
      rw [List.flatMap_nil, hNone, List.append_nil,
        List.append_nil] at hRest
      exact hRest
  | cons t level ih =>
      rw [List.cons_append]
      apply Searches.visit
      rw [foldl_meet, List.append_assoc]
      apply ih
      rw [List.append_assoc, List.append_assoc,
        ← fresh_append, ← List.flatMap_cons]
      exact hRest

/- A search that has a level to go through has then the next. -/
theorem searches_of_nextLevel
    {found order level result : List TypeId}
    (hSame : ∀ t, t ∈ order ↔ t ∈ found)
    (hRest :
      Searches supertypes
        ⟨order ++ nextLevel supertypes found level,
          nextLevel supertypes found level⟩ result) :
    Searches supertypes ⟨order, level⟩ result := by
  rw [nextLevel_eq_fresh hSame,
    ← List.nil_append (fresh order _)] at hRest
  rw [← List.append_nil level]
  exact searches_of_level hRest

/- A search from a level on finds all levels above it. -/
theorem searches_levelsAbove
    {count : Nat}
    (hClosed : Closed supertypes count)
    {n : Nat}
    {found order level : List TypeId}
    (hSame : ∀ t, t ∈ order ↔ t ∈ found)
    (hLevel : ∀ t ∈ level, t < count)
    (hEnough :
      (TypeId.missing count found).length ≤ n) :
    Searches supertypes ⟨order, level⟩
      (order ++ levelsAbove supertypes n found level) := by
  induction n generalizing found order level with
  | zero =>
      have hNone := nextLevel_eq_nil_of_missing hClosed
        hLevel (Nat.le_zero.mp hEnough)
      apply searches_of_nextLevel hSame
      rw [hNone]
      exact .ends
  | succ n ih =>
      apply searches_of_nextLevel hSame
      by_cases hNone :
          nextLevel supertypes found level = []
      · rw [hNone, levelsAbove_of_nextLevel_eq_nil hNone]
        exact .ends
      · have hFewer := length_missing_nextLevel_lt
          hClosed hLevel hNone
        rw [levelsAbove_succ, ← List.append_assoc]
        apply ih
        · intro t
          rw [List.mem_append, List.mem_append, hSame,
            or_comm]
        · exact nextLevel_lt hClosed hLevel
        · omega

/-
  A search from a type finds its ancestry, and comes to no
  other result.
-/
theorem searches_iff_eq_ancestry
    {count : Nat}
    (hClosed : Closed supertypes count)
    {t : TypeId}
    (hLt : t < count)
    (result : List TypeId) :
    Searches supertypes ⟨[t], [t]⟩ result ↔
      result = ancestry supertypes count t := by
  have hAll :
      Searches supertypes ⟨[t], [t]⟩
        (ancestry supertypes count t) := by
    apply searches_levelsAbove hClosed (fun _ => Iff.rfl)
    · intro a ha
      rw [List.mem_singleton.mp ha]
      exact hLt
    · exact length_missing_le count [t]
  constructor
  · intro hResult
    exact hResult.unique hAll
  · rintro rfl
    exact hAll

end Breadth

end JsExport
