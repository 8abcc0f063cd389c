import JsExport.Listing.Stable
import Mathlib.Data.List.Sort

/-
  What sorting does to a longer list.

  Sorting is insertion sort.  For an order that is total and
  transitive, deleting elements and sorting can be swapped,
  equals staying in their places.  A list in order is known
  by what it has of each kind of equals.

  Main declarations:
    * `sorted_eq_insertionSort`
    * `sorted_sublist` and `filter_sorted`
    * `filter_sorted_eq_filter`
    * `eq_of_pairwise_of_filter_eq`
    * `sortedOn_congr`
-/

namespace JsExport

namespace Listing

variable {α : Type}

------------------------------------------------------------
-- Orders That Agree
------------------------------------------------------------

theorem place_congr
    {le le' : α → α → Bool}
    {x : α}
    {xs : List α}
    (hEach : ∀ y ∈ xs, le x y = le' x y) :
    place le x xs = place le' x xs := by
  induction xs with
  | nil => rfl
  | cons y ys ih =>
      unfold place
      rw [hEach y List.mem_cons_self,
        ih (fun z hz => hEach z (List.mem_cons_of_mem y hz))]

/- Sorting looks at the texts of the elements alone. -/
theorem sortedOn_congr
    {key key' : α → String}
    {xs : List α}
    (hEach : ∀ x ∈ xs, key x = key' x) :
    sortedOn key xs = sortedOn key' xs := by
  unfold sortedOn
  induction xs with
  | nil => rfl
  | cons x xs ih =>
      have hRest := ih (fun y hy =>
        hEach y (List.mem_cons_of_mem x hy))
      unfold sorted at hRest ⊢
      rw [List.foldr_cons, List.foldr_cons, hRest]
      apply place_congr
      intro y hy
      have hIn : y ∈ xs := (sorted_perm _ xs).mem_iff.mp hy
      rw [hEach x List.mem_cons_self,
        hEach y (List.mem_cons_of_mem x hIn)]

variable (le : α → α → Bool)

------------------------------------------------------------
-- Insertion Sort
------------------------------------------------------------

theorem place_eq_orderedInsert
    (x : α)
    (xs : List α) :
    place le x xs =
      xs.orderedInsert (fun a b => le a b = true) x := by
  induction xs with
  | nil => rfl
  | cons y ys ih =>
      rw [List.orderedInsert_cons, place, ih]

theorem sorted_eq_insertionSort
    (xs : List α) :
    sorted le xs =
      xs.insertionSort (fun a b => le a b = true) := by
  induction xs with
  | nil => rfl
  | cons x xs ih =>
      rw [List.insertionSort_cons, ← ih,
        ← place_eq_orderedInsert]
      rfl

/- A list that is in order stays as it is. -/
theorem sorted_eq_of_pairwise
    {xs : List α}
    (hOrder : xs.Pairwise (fun a b => le a b = true)) :
    sorted le xs = xs := by
  rw [sorted_eq_insertionSort]
  exact hOrder.insertionSort_eq

------------------------------------------------------------
-- Equals
------------------------------------------------------------

section Equals

variable {κ : Type} [DecidableEq κ]
variable {key : α → κ}

/- What two lists have of every key is all that they have. -/
theorem mem_iff_of_filter_eq
    {xs ys : List α}
    (hEach :
      ∀ k, xs.filter (fun x => decide (key x = k)) =
        ys.filter (fun y => decide (key y = k)))
    (z : α) :
    z ∈ xs ↔ z ∈ ys := by
  have hHere := congrArg (fun zs => z ∈ zs) (hEach (key z))
  simpa only [List.mem_filter, decide_eq_true_eq, and_true,
    eq_iff_iff] using hHere

/- Of two lists, that holds without a common head. -/
theorem filter_eq_of_filter_cons_eq
    {x : α}
    {xs ys : List α}
    (hEach :
      ∀ k, (x :: xs).filter (fun x => decide (key x = k)) =
        (x :: ys).filter (fun y => decide (key y = k)))
    (k : κ) :
    xs.filter (fun x => decide (key x = k)) =
      ys.filter (fun y => decide (key y = k)) := by
  have hHere := hEach k
  by_cases hk : key x = k
  · rw [List.filter_cons_of_pos (by simp [hk]),
      List.filter_cons_of_pos (by simp [hk])] at hHere
    exact (List.cons.inj hHere).2
  · rwa [List.filter_cons_of_neg (by simp [hk]),
      List.filter_cons_of_neg (by simp [hk])] at hHere

/-
  Two lists in order are one list if they have the same
  elements of each key, in the same order.
-/
theorem eq_of_pairwise_of_filter_eq
    {le : α → α → Bool}
    (hKey : ∀ x y, le x y → le y x → key x = key y)
    {xs ys : List α}
    (hxs : xs.Pairwise (fun a b => le a b = true))
    (hys : ys.Pairwise (fun a b => le a b = true))
    (hEach :
      ∀ k, xs.filter (fun x => decide (key x = k)) =
        ys.filter (fun y => decide (key y = k))) :
    xs = ys := by
  have hMem := mem_iff_of_filter_eq hEach
  induction xs generalizing ys with
  | nil =>
      symm
      apply List.eq_nil_iff_forall_not_mem.mpr
      intro z hz
      exact List.not_mem_nil ((hMem z).mpr hz)
  | cons x xs ih =>
      cases ys with
      | nil =>
          cases (hMem x).mp List.mem_cons_self
      | cons y ys =>
          rcases List.pairwise_cons.mp hxs with ⟨hx, hxsRest⟩
          rcases List.pairwise_cons.mp hys with ⟨hy, hysRest⟩
          have hKeys : key x = key y := by
            by_cases hSame : x = y
            · rw [hSame]
            · have hyIn := ((hMem y).mpr
                List.mem_cons_self)
              have hxIn := ((hMem x).mp
                List.mem_cons_self)
              exact hKey x y
                (hx y ((List.mem_cons.mp hyIn).resolve_left
                  (Ne.symm hSame)))
                (hy x ((List.mem_cons.mp hxIn).resolve_left
                  hSame))
          have hHeads := hEach (key x)
          rw [List.filter_cons_of_pos (by simp),
            List.filter_cons_of_pos (by simp [hKeys])]
            at hHeads
          have hSame := (List.cons.inj hHeads).1
          subst hSame
          have hRest := filter_eq_of_filter_cons_eq hEach
          rw [ih hxsRest hysRest hRest
            (mem_iff_of_filter_eq hRest)]

end Equals

------------------------------------------------------------
-- Longer Lists
------------------------------------------------------------

variable [Std.Total (fun a b : α => le a b = true)]
variable [IsTrans α (fun a b => le a b = true)]

theorem pairwise_sorted
    (xs : List α) :
    (sorted le xs).Pairwise (fun a b => le a b = true) := by
  rw [sorted_eq_insertionSort]
  exact List.pairwise_insertionSort _ xs

/- Sorting keeps what is part of a list part of it. -/
theorem sorted_sublist
    {xs ys : List α}
    (hPart : xs.Sublist ys) :
    (sorted le xs).Sublist (sorted le ys) := by
  rw [sorted_eq_insertionSort, sorted_eq_insertionSort]
  induction hPart with
  | slnil => exact List.Sublist.refl _
  | cons y _ ih =>
      rw [List.insertionSort_cons]
      exact ih.trans (List.sublist_orderedInsert y _)
  | cons_cons x _ ih =>
      rw [List.insertionSort_cons, List.insertionSort_cons]
      exact ih.orderedInsert_sublist x
        (List.pairwise_insertionSort _ _)

/- Sorting what is kept keeps what is sorted. -/
theorem filter_sorted
    (keep : α → Bool)
    (xs : List α) :
    (sorted le xs).filter keep =
      sorted le (xs.filter keep) := by
  have hKept :
      (sorted le (xs.filter keep)).filter keep =
        sorted le (xs.filter keep) := by
    apply List.filter_eq_self.mpr
    intro x hx
    exact List.of_mem_filter
      ((sorted_perm le _).mem_iff.mp hx)
  have hPart :=
    (sorted_sublist le (List.filter_sublist (p := keep)
      (l := xs))).filter keep
  have hLength :
      (sorted le (xs.filter keep)).length =
        ((sorted le xs).filter keep).length :=
    (sorted_perm le _).length_eq.trans
      ((sorted_perm le xs).filter keep).length_eq.symm
  rw [hKept] at hPart
  exact (hPart.eq_of_length hLength).symm

/- Sorting keeps equals as they were given. -/
theorem filter_sorted_eq_filter
    {keep : α → Bool}
    (hEqual : ∀ x y, keep x → keep y → le x y)
    (xs : List α) :
    (sorted le xs).filter keep = xs.filter keep := by
  rw [filter_sorted]
  apply sorted_eq_of_pairwise
  apply List.pairwise_of_forall_mem_list
  intro x hx y hy
  exact hEqual x y (List.of_mem_filter hx)
    (List.of_mem_filter hy)

end Listing

end JsExport
