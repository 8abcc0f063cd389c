/-
  First occurrences, pairs and groups of a list.

  Reports are made once, at the first place that gives rise
  to them.  `firstBy` keeps of all elements with one key the
  first; `pairs` lists every two elements in list order;
  `groupsBy` gathers the elements of each key, keys in order
  of first appearance.

  Key definitions include:
    * `Listing.firstBy`
    * `Listing.distinct`
    * `Listing.pairs`
    * `Listing.groupsBy`
-/

namespace JsExport

namespace Listing

------------------------------------------------------------
-- First Occurrences
------------------------------------------------------------

/- Keep of the elements with one key only the first. -/
def firstBy
    {α κ : Type}
    [DecidableEq κ]
    (key : α → κ) : List α → List α
| [] => []
| x :: xs =>
    x :: (firstBy key xs).filter
      (fun y => decide (key y ≠ key x))

/- The values of a list, each at its first occurrence. -/
def distinct
    {α : Type}
    [DecidableEq α]
    (xs : List α) : List α :=
  firstBy id xs

/- What is kept was there before. -/
theorem firstBy_sublist
    {α κ : Type}
    [DecidableEq κ]
    (key : α → κ)
    (xs : List α) :
    (firstBy key xs).Sublist xs := by
  induction xs with
  | nil => exact List.Sublist.refl _
  | cons x xs ih =>
      exact (List.filter_sublist.trans ih).cons_cons x

/- Every key that occurs is kept once. -/
theorem exists_mem_firstBy
    {α κ : Type}
    [DecidableEq κ]
    (key : α → κ)
    {xs : List α}
    {x : α}
    (hx : x ∈ xs) :
    ∃ y ∈ firstBy key xs, key y = key x := by
  induction xs with
  | nil => simp at hx
  | cons z zs ih =>
      by_cases hKey : key x = key z
      · exact ⟨z, List.mem_cons_self, hKey.symm⟩
      · have hMem : x ∈ zs := by
          rcases List.mem_cons.mp hx with rfl | hMem
          · exact absurd rfl hKey
          · exact hMem
        rcases ih hMem with ⟨y, hy, hEq⟩
        refine ⟨y, List.mem_cons_of_mem _ ?_, hEq⟩
        refine List.mem_filter.mpr ⟨hy, ?_⟩
        simpa [hEq] using hKey

/- No two elements that are kept have one key. -/
theorem nodup_map_firstBy
    {α κ : Type}
    [DecidableEq κ]
    (key : α → κ)
    (xs : List α) :
    ((firstBy key xs).map key).Nodup := by
  induction xs with
  | nil => simp [firstBy]
  | cons x xs ih =>
      unfold firstBy
      rw [List.map_cons, List.nodup_cons]
      constructor
      · intro hMem
        rcases List.mem_map.mp hMem with ⟨y, hy, hKey⟩
        have hNe := (List.mem_filter.mp hy).2
        exact of_decide_eq_true hNe hKey
      · exact ih.sublist (List.filter_sublist.map key)

/- The values kept are the values of the list. -/
theorem mem_distinct_iff
    {α : Type}
    [DecidableEq α]
    {x : α}
    {xs : List α} :
    x ∈ distinct xs ↔ x ∈ xs := by
  constructor
  · intro hMem
    exact (firstBy_sublist id xs).subset hMem
  · intro hMem
    rcases exists_mem_firstBy id hMem with ⟨y, hy, hEq⟩
    have hSame : y = x := hEq
    exact hSame ▸ hy

------------------------------------------------------------
-- Pairs And Groups
------------------------------------------------------------

/- Every two elements, in the order of the list. -/
def pairs
    {α : Type} : List α → List (α × α)
| [] => []
| x :: xs => xs.map (fun y => (x, y)) ++ pairs xs

/- Both elements of a pair are elements of the list. -/
theorem mem_of_mem_pairs
    {α : Type}
    {xs : List α}
    {e : α × α}
    (hPair : e ∈ pairs xs) :
    e.1 ∈ xs ∧ e.2 ∈ xs := by
  induction xs with
  | nil => simp [pairs] at hPair
  | cons x xs ih =>
      unfold pairs at hPair
      rcases List.mem_append.mp hPair with hHead | hTail
      · rcases List.mem_map.mp hHead with ⟨y, hy, rfl⟩
        exact ⟨List.mem_cons_self,
          List.mem_cons_of_mem x hy⟩
      · have hBoth := ih hTail
        exact ⟨List.mem_cons_of_mem x hBoth.1,
          List.mem_cons_of_mem x hBoth.2⟩

/-
  The elements of each key in list order, the keys in order
  of their first appearance.
-/
def groupsBy
    {α κ : Type}
    [DecidableEq κ]
    (key : α → κ)
    (xs : List α) : List (κ × List α) :=
  (distinct (xs.map key)).map
    (fun k => (k, xs.filter (fun x => decide (key x = k))))

end Listing

end JsExport
