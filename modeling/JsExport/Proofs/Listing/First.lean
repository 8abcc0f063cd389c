import JsExport.Listing.First
import Mathlib.Data.List.Basic
import Mathlib.Data.List.Perm.Subperm

/-
  First occurrences, pairs and groups, by position.

  What `firstBy` keeps for a key is what a search for the
  key finds, and a longer list only adds to what is kept.

  Main declarations:
    * `IsFirst` and `find?_eq_some_iff_isFirst`
    * `find?_flatMap_eq_of_mem`
    * `exists_of_find?_flatMap_eq_some`
    * `filter_firstBy` and `find?_firstBy`
    * `firstBy_append`
    * `mem_pairs_iff`
    * `mem_groupsBy_iff`
-/

namespace JsExport

namespace Listing

variable {α κ : Type}

------------------------------------------------------------
-- Searches
------------------------------------------------------------

theorem findSome?_congr
    {f g : α → Option κ}
    {xs : List α}
    (hEach : ∀ x ∈ xs, f x = g x) :
    xs.findSome? f = xs.findSome? g := by
  induction xs with
  | nil => rfl
  | cons x xs ih =>
      rw [List.findSome?_cons, List.findSome?_cons,
        hEach x List.mem_cons_self,
        ih (fun y hy => hEach y (List.mem_cons_of_mem x hy))]

theorem any_congr
    {f g : α → Bool}
    {xs : List α}
    (hEach : ∀ x ∈ xs, f x = g x) :
    xs.any f = xs.any g := by
  induction xs with
  | nil => rfl
  | cons x xs ih =>
      rw [List.any_cons, List.any_cons,
        hEach x List.mem_cons_self,
        ih (fun y hy => hEach y (List.mem_cons_of_mem x hy))]

/- That an element is the first of a list with a property. -/
structure IsFirst
    (xs : List α)
    (property : α → Prop)
    (x : α) : Prop where
  holds : property x
  not_before :
    ∃ before after, xs = before ++ x :: after ∧
      ∀ y ∈ before, ¬ property y

theorem IsFirst.mem
    {xs : List α}
    {property : α → Prop}
    {x : α}
    (hFirst : IsFirst xs property x) :
    x ∈ xs := by
  rcases hFirst.not_before with ⟨before, after, rfl, _⟩
  exact List.mem_append_right _ List.mem_cons_self

theorem IsFirst.congr
    {xs : List α}
    {property other : α → Prop}
    {x : α}
    (hFirst : IsFirst xs property x)
    (hEach : ∀ y ∈ xs, property y ↔ other y) :
    IsFirst xs other x := by
  have hx := (hEach x hFirst.mem).mp hFirst.holds
  rcases hFirst.not_before with ⟨before, after, rfl, hNot⟩
  refine ⟨hx, before, after, rfl, ?_⟩
  intro y hy hOther
  exact hNot y hy
    ((hEach y (List.mem_append_left _ hy)).mpr hOther)

/- A search finds the first element that passes its test. -/
theorem find?_eq_some_iff_isFirst
    {xs : List α}
    {test : α → Bool}
    {x : α} :
    xs.find? test = some x ↔
      IsFirst xs (fun y => test y = true) x := by
  rw [List.find?_eq_some_iff_append]
  constructor
  · rintro ⟨hTest, before, after, hSplit, hNot⟩
    exact ⟨hTest, before, after, hSplit,
      fun y hy => by simpa using hNot y hy⟩
  · rintro ⟨hTest, before, after, hSplit, hNot⟩
    exact ⟨hTest, before, after, hSplit,
      fun y hy => by simpa using hNot y hy⟩

/- A search through several lists may succeed in one only. -/
theorem find?_flatMap_eq_of_mem
    {f : κ → List α}
    {test : α → Bool}
    {ks : List κ}
    {k : κ}
    (hk : k ∈ ks)
    (hOthers :
      ∀ other ∈ ks, other ≠ k → ∀ y ∈ f other, ¬ test y) :
    (ks.flatMap f).find? test = (f k).find? test := by
  cases hFound : (f k).find? test with
  | none =>
      rw [List.find?_eq_none]
      intro y hy
      rcases List.mem_flatMap.mp hy with ⟨other, hOther, hIn⟩
      by_cases hSame : other = k
      · exact List.find?_eq_none.mp hFound y (hSame ▸ hIn)
      · exact hOthers other hOther hSame y hIn
  | some x =>
      rcases List.eq_append_cons_of_mem hk with
        ⟨before, after, rfl, hNot⟩
      have hBefore : (before.flatMap f).find? test = none := by
        rw [List.find?_eq_none]
        intro y hy
        rcases List.mem_flatMap.mp hy with
          ⟨other, hOther, hIn⟩
        exact hOthers other (List.mem_append_left _ hOther)
          (fun hSame => hNot (hSame ▸ hOther)) y hIn
      rw [List.flatMap_append, List.flatMap_cons,
        List.find?_append, List.find?_append, hBefore, hFound]
      rfl

/- A search through several lists stops at the first hit. -/
theorem exists_of_find?_flatMap_eq_some
    {f : κ → List α}
    {test : α → Bool}
    {ks : List κ}
    {x : α}
    (hFound : (ks.flatMap f).find? test = some x) :
    ∃ before k after, ks = before ++ k :: after ∧
      (f k).find? test = some x ∧
        ∀ other ∈ before, ∀ y ∈ f other, ¬ test y := by
  rw [List.find?_flatMap] at hFound
  rcases List.findSome?_eq_some_iff.mp hFound with
    ⟨before, k, after, hSplit, hHere, hNot⟩
  exact ⟨before, k, after, hSplit, hHere,
    fun other hOther => List.find?_eq_none.mp
      (hNot other hOther)⟩

/- So what is first among all lists is first in that one. -/
theorem IsFirst.of_flatMap
    {f : κ → List α}
    {property : α → Prop}
    {ks : List κ}
    {x : α}
    (hFirst : IsFirst (ks.flatMap f) property x)
    {k : κ}
    (hk : k ∈ ks)
    (hOthers :
      ∀ other ∈ ks, other ≠ k →
        ∀ y ∈ f other, ¬ property y) :
    IsFirst (f k) property x := by
  classical
  have hTest :
      ∀ (xs : List α), ∀ y ∈ xs,
        property y ↔ decide (property y) = true :=
    fun _ _ _ => decide_eq_true_iff.symm
  have hFound := find?_eq_some_iff_isFirst.mpr
    (hFirst.congr (hTest _))
  rw [find?_flatMap_eq_of_mem hk (by
    intro other hOther hNe y hy
    simpa using hOthers other hOther hNe y hy)] at hFound
  exact (find?_eq_some_iff_isFirst.mp hFound).congr
    (fun y hy => (hTest _ y hy).symm)

------------------------------------------------------------
-- First Occurrences
------------------------------------------------------------

section First

variable [DecidableEq κ]
variable (key : α → κ)

/- Of the elements with one key the first is kept. -/
theorem filter_firstBy
    (k : κ)
    (xs : List α) :
    (firstBy key xs).filter (fun y => decide (key y = k)) =
      (xs.find? (fun y => decide (key y = k))).toList := by
  induction xs with
  | nil => rfl
  | cons x xs ih =>
      unfold firstBy
      rw [List.filter_cons, List.find?_cons,
        List.filter_filter]
      by_cases hKey : key x = k
      · have hRest :
            ∀ y ∈ firstBy key xs,
              ¬ (decide (key y = k) &&
                decide (key y ≠ key x)) := by
          intro y _ hBoth
          simp only [Bool.and_eq_true, decide_eq_true_eq]
            at hBoth
          exact hBoth.2 (hBoth.1.trans hKey.symm)
        rw [List.filter_eq_nil_iff.mpr hRest]
        simp [hKey]
      · have hRest :
            ∀ y ∈ firstBy key xs,
              (decide (key y = k) &&
                decide (key y ≠ key x)) =
                  decide (key y = k) := by
          intro y _
          by_cases hy : key y = k
          · have hNe : k ≠ key x := fun h => hKey h.symm
            simp [hy, hNe]
          · simp [hy]
        rw [List.filter_congr hRest, ih]
        simp [hKey]

/- A search for a key finds the element that is kept. -/
theorem find?_firstBy
    (k : κ)
    (xs : List α) :
    (firstBy key xs).find? (fun y => decide (key y = k)) =
      xs.find? (fun y => decide (key y = k)) := by
  rw [← List.head?_filter, filter_firstBy]
  exact Option.head?_toList

theorem find?_eq_some_of_mem_firstBy
    {xs : List α}
    {x : α}
    (hx : x ∈ firstBy key xs) :
    xs.find? (fun y => decide (key y = key x)) = some x := by
  have hKept :
      x ∈ (firstBy key xs).filter
        (fun y => decide (key y = key x)) :=
    List.mem_filter.mpr ⟨hx, decide_eq_true rfl⟩
  rw [filter_firstBy] at hKept
  exact Option.mem_toList.mp hKept

/- Where a key means one element, that element is kept. -/
theorem filter_firstBy_eq_singleton
    {xs : List α}
    {x : α}
    (hx : x ∈ xs)
    (hOnly : ∀ y ∈ xs, key y = key x → y = x) :
    (firstBy key xs).filter
        (fun y => decide (key y = key x)) = [x] := by
  rw [filter_firstBy]
  cases hFind : xs.find? (fun y => decide (key y = key x)) with
  | none =>
      have hNot := List.find?_eq_none.mp hFind x hx
      exact absurd (decide_eq_true rfl) hNot
  | some y =>
      have hHolds := List.find?_some hFind
      have hKey := of_decide_eq_true hHolds
      rw [hOnly y (List.mem_of_find?_eq_some hFind) hKey]
      rfl

/- No value is kept twice. -/
theorem nodup_distinct
    (xs : List κ) :
    (distinct xs).Nodup := by
  have hMap := nodup_map_firstBy id xs
  rw [List.map_id] at hMap
  exact hMap

/- It does not matter when other values are left out. -/
theorem filter_distinct
    (p : κ → Bool)
    (xs : List κ) :
    (distinct xs).filter p = distinct (xs.filter p) := by
  induction xs with
  | nil => rfl
  | cons x xs ih =>
      have hStep :
          distinct (x :: xs) =
            x :: (distinct xs).filter
              (fun y => decide (y ≠ x)) := rfl
      rw [hStep]
      by_cases hKept : p x
      · rw [List.filter_cons_of_pos hKept,
          List.filter_cons_of_pos hKept, List.filter_comm, ih]
        rfl
      · have hRest :
            ∀ y ∈ distinct xs,
              (p y && decide (y ≠ x)) = p y := by
          intro y _
          cases hy : p y with
          | false => rfl
          | true =>
              have hNe : y ≠ x := fun h => hKept (h ▸ hy)
              simp [hNe]
        rw [List.filter_cons_of_neg hKept,
          List.filter_cons_of_neg hKept, List.filter_filter,
          List.filter_congr hRest, ih]

/- The first value comes first and is left out after that. -/
theorem distinct_cons
    (x : κ)
    (xs : List κ) :
    distinct (x :: xs) =
      x :: distinct (xs.filter (fun y => decide (y ≠ x))) := by
  rw [← filter_distinct]
  rfl

/- A longer list adds elements of new keys at the end. -/
theorem firstBy_append
    (xs ys : List α) :
    firstBy key (xs ++ ys) =
      firstBy key xs ++
        (firstBy key ys).filter
          (fun y => decide (key y ∉ xs.map key)) := by
  induction xs with
  | nil => simp [firstBy]
  | cons x xs ih =>
      have hRest :
          ∀ y ∈ firstBy key ys,
            (decide (key y ≠ key x) &&
              decide (key y ∉ xs.map key)) =
                decide (key y ∉ (x :: xs).map key) := by
        intro y _
        rw [← Bool.decide_and, decide_eq_decide,
          List.map_cons, List.mem_cons, not_or]
      rw [List.cons_append, firstBy, ih, List.filter_append,
        List.filter_filter, List.filter_congr hRest, firstBy,
        List.cons_append]

theorem firstBy_prefix_append
    (xs ys : List α) :
    firstBy key xs <+: firstBy key (xs ++ ys) :=
  ⟨_, (firstBy_append key xs ys).symm⟩

/- Only of an empty list nothing is kept. -/
theorem eq_nil_of_firstBy_eq_nil
    {xs : List α}
    (hNone : firstBy key xs = []) :
    xs = [] := by
  cases xs with
  | nil => rfl
  | cons x xs => cases hNone

end First

------------------------------------------------------------
-- Pairs
------------------------------------------------------------

/- A pair takes an element and a later one. -/
theorem mem_pairs_iff
    {xs : List α}
    {a b : α} :
    (a, b) ∈ pairs xs ↔
      ∃ i j : Nat,
        i < j ∧ xs[i]? = some a ∧ xs[j]? = some b := by
  induction xs with
  | nil => simp [pairs]
  | cons x xs ih =>
      unfold pairs
      rw [List.mem_append, ih]
      constructor
      · rintro (hHead | ⟨i, j, hLt, hi, hj⟩)
        · rcases List.mem_map.mp hHead with ⟨y, hy, hEq⟩
          cases hEq
          rcases List.mem_iff_getElem?.mp hy with ⟨j, hj⟩
          exact ⟨0, j + 1, by omega, rfl, hj⟩
        · exact ⟨i + 1, j + 1, by omega, hi, hj⟩
      · rintro ⟨i, j, hLt, hi, hj⟩
        cases j with
        | zero => omega
        | succ j =>
            cases i with
            | zero =>
                have hEq : x = a := Option.some.inj hi
                subst hEq
                exact Or.inl (List.mem_map.mpr
                  ⟨b, List.mem_of_getElem? hj, rfl⟩)
            | succ i =>
                exact Or.inr ⟨i, j, by omega, hi, hj⟩

/- Two different elements of a list make a pair. -/
theorem mem_pairs_or_mem_pairs
    {xs : List α}
    {a b : α}
    (ha : a ∈ xs)
    (hb : b ∈ xs)
    (hNe : a ≠ b) :
    (a, b) ∈ pairs xs ∨ (b, a) ∈ pairs xs := by
  rcases List.mem_iff_getElem?.mp ha with ⟨i, hi⟩
  rcases List.mem_iff_getElem?.mp hb with ⟨j, hj⟩
  rcases Nat.lt_trichotomy i j with hLt | rfl | hGt
  · exact Or.inl (mem_pairs_iff.mpr ⟨i, j, hLt, hi, hj⟩)
  · exact absurd (Option.some.inj (hi.symm.trans hj)) hNe
  · exact Or.inr (mem_pairs_iff.mpr ⟨j, i, hGt, hj, hi⟩)

theorem sublist_of_mem_pairs
    {xs : List α}
    {a b : α}
    (hPair : (a, b) ∈ pairs xs) :
    [a, b].Sublist xs := by
  induction xs with
  | nil => simp [pairs] at hPair
  | cons x xs ih =>
      unfold pairs at hPair
      rcases List.mem_append.mp hPair with hHead | hTail
      · rcases List.mem_map.mp hHead with ⟨y, hy, hEq⟩
        cases hEq
        exact (List.singleton_sublist.mpr hy).cons_cons _
      · exact (ih hTail).cons x

/- Pairs of a list are related as its elements are. -/
theorem related_of_mem_pairs
    {related : α → α → Prop}
    {xs : List α}
    (hPairwise : xs.Pairwise related)
    {a b : α}
    (hPair : (a, b) ∈ pairs xs) :
    related a b := by
  have hBoth := hPairwise.sublist (sublist_of_mem_pairs hPair)
  exact (List.pairwise_cons.mp hBoth).1 b
    List.mem_cons_self

/- Of a list without repetitions a pair is left as it is. -/
theorem filter_eq_of_mem_pairs
    [DecidableEq α]
    {xs : List α}
    (hNodup : xs.Nodup)
    {a b : α}
    (hPair : (a, b) ∈ pairs xs) :
    xs.filter (fun x => decide (x = a ∨ x = b)) = [a, b] := by
  have hKept := (sublist_of_mem_pairs hPair).filter
    (fun x => decide (x = a ∨ x = b))
  have hBoth :
      [a, b].filter (fun x => decide (x = a ∨ x = b)) =
        [a, b] := by
    simp
  rw [hBoth] at hKept
  symm
  apply hKept.eq_of_length_le
  apply (List.Nodup.subperm (hNodup.filter _) ?_).length_le
  intro x hx
  simpa using (List.mem_filter.mp hx).2

/- A list without pairs has at most one element. -/
theorem pairs_eq_nil_iff
    {xs : List α} :
    pairs xs = [] ↔ xs.length ≤ 1 := by
  cases xs with
  | nil => simp [pairs]
  | cons x ys =>
      cases ys with
      | nil => simp [pairs]
      | cons y ys => simp [pairs]

/- What only one element contributes to is read off it. -/
theorem flatMap_eq_of_mem
    {f : α → List κ}
    {xs : List α}
    (hNodup : xs.Nodup)
    {x : α}
    (hx : x ∈ xs)
    (hOthers : ∀ y ∈ xs, y ≠ x → f y = []) :
    xs.flatMap f = f x := by
  induction xs with
  | nil => cases hx
  | cons z zs ih =>
      rcases List.nodup_cons.mp hNodup with ⟨hNot, hRest⟩
      rw [List.flatMap_cons]
      by_cases hSame : z = x
      · subst hSame
        have hNone : zs.flatMap f = [] := by
          apply List.flatMap_eq_nil_iff.mpr
          intro y hy
          exact hOthers y (List.mem_cons_of_mem z hy)
            (fun hEq => hNot (hEq ▸ hy))
        rw [hNone, List.append_nil]
      · have hTail : x ∈ zs :=
          (List.mem_cons.mp hx).resolve_left (Ne.symm hSame)
        rw [hOthers z List.mem_cons_self hSame,
          List.nil_append]
        exact ih hRest hTail (fun y hy =>
          hOthers y (List.mem_cons_of_mem z hy))

/- What contributes nothing may be left out. -/
theorem flatMap_filter_of_eq_nil
    (keeps : α → Bool)
    {f : α → List κ}
    {xs : List α}
    (hNone : ∀ x ∈ xs, keeps x = false → f x = []) :
    (xs.filter keeps).flatMap f = xs.flatMap f := by
  induction xs with
  | nil => rfl
  | cons x xs ih =>
      rcases List.forall_mem_cons.mp hNone with
        ⟨hHead, hTail⟩
      rw [List.flatMap_cons, ← ih hTail]
      cases hKeeps : keeps x with
      | true =>
          rw [List.filter_cons_of_pos hKeeps,
            List.flatMap_cons]
      | false =>
          rw [List.filter_cons_of_neg (by simp [hKeeps]),
            hHead hKeeps, List.nil_append]

/- Images of what is kept are listed one by one. -/
theorem map_filter_eq_flatMap
    {keeps : α → Bool}
    {f : α → κ}
    {xs : List α} :
    (xs.filter keeps).map f =
      xs.flatMap (fun x => if keeps x then [f x] else []) := by
  have hNone :
      ∀ x ∈ xs, keeps x = false →
        (if keeps x then [f x] else []) = [] :=
    fun x _ hNot => by rw [hNot]; rfl
  rw [← flatMap_filter_of_eq_nil keeps hNone,
    List.map_eq_flatMap]
  apply List.flatMap_congr
  intro x hx
  rw [if_pos (List.mem_filter.mp hx).2]

/- Where any two elements are one there is at most one. -/
theorem length_le_one_of_nodup
    {xs : List α}
    (hNodup : xs.Nodup)
    (hSame : ∀ x ∈ xs, ∀ y ∈ xs, x = y) :
    xs.length ≤ 1 := by
  match xs with
  | [] => exact Nat.zero_le 1
  | [x] => exact Nat.le_refl 1
  | x :: y :: rest =>
      have hEq := hSame x List.mem_cons_self y
        (List.mem_cons_of_mem x List.mem_cons_self)
      rw [hEq] at hNodup
      exact absurd List.mem_cons_self
        (List.nodup_cons.mp hNodup).1

theorem eq_singleton_of_mem
    {xs : List α}
    {x : α}
    (hx : x ∈ xs)
    (hLength : xs.length ≤ 1) :
    xs = [x] := by
  have hPos := List.length_pos_of_mem hx
  have hOne : xs.length = 1 := by omega
  rcases List.length_eq_one_iff.mp hOne with ⟨y, rfl⟩
  rw [List.mem_singleton.mp hx]

/- A test that only one of different elements passes. -/
theorem filter_eq_singleton
    {xs : List α}
    {test : α → Bool}
    {x : α}
    (hNodup : xs.Nodup)
    (hx : x ∈ xs)
    (hTest : test x)
    (hOnly : ∀ y ∈ xs, test y → y = x) :
    xs.filter test = [x] := by
  apply eq_singleton_of_mem
  · exact List.mem_filter.mpr ⟨hx, hTest⟩
  · apply length_le_one_of_nodup (hNodup.filter _)
    intro y hy z hz
    rcases List.mem_filter.mp hy with ⟨hy, hFirst⟩
    rcases List.mem_filter.mp hz with ⟨hz, hSecond⟩
    rw [hOnly y hy hFirst, hOnly z hz hSecond]

------------------------------------------------------------
-- Groups
------------------------------------------------------------

/- There is one group for each key that occurs. -/
theorem mem_groupsBy_iff
    [DecidableEq κ]
    {key : α → κ}
    {xs : List α}
    {g : κ × List α} :
    g ∈ groupsBy key xs ↔
      (∃ x ∈ xs, key x = g.1) ∧
        g.2 = xs.filter (fun x => decide (key x = g.1)) := by
  unfold groupsBy
  rw [List.mem_map]
  constructor
  · rintro ⟨k, hk, rfl⟩
    exact ⟨List.mem_map.mp (mem_distinct_iff.mp hk), rfl⟩
  · rintro ⟨hKey, hGroup⟩
    refine ⟨g.1, mem_distinct_iff.mpr ?_, ?_⟩
    · exact List.mem_map.mpr hKey
    · rw [← hGroup]

end Listing

end JsExport
