import JsExport.Proofs.Listing.First

/-
  How often a list has an element.

  What one part of a list contributes is counted there
  alone.  An element makes a pair with itself when it stands
  in the list twice.

  Main declarations:
    * `count_flatMap_eq_of_mem`
    * `mem_pairs_iff_sublist`
    * `exists_mem_pairs_iff_two_le_count`
    * `exists_mem_firstBy_iff`
-/

namespace JsExport

namespace Listing

variable {α κ : Type}

/- An element that one part has is counted in that part. -/
theorem count_flatMap_eq_of_mem
    [DecidableEq κ]
    {f : α → List κ}
    {xs : List α}
    (hNodup : xs.Nodup)
    {x : α}
    (hx : x ∈ xs)
    {k : κ}
    (hOthers : ∀ y ∈ xs, y ≠ x → k ∉ f y) :
    (xs.flatMap f).count k = (f x).count k := by
  have hNone :
      ∀ y ∈ xs, y ≠ x →
        (f y).filter (fun b => b == k) = [] := by
    intro y hy hNe
    apply List.filter_eq_nil_iff.mpr
    intro b hb hSame
    exact hOthers y hy hNe (eq_of_beq hSame ▸ hb)
  rw [List.count_eq_length_filter,
    List.count_eq_length_filter, List.filter_flatMap,
    flatMap_eq_of_mem hNodup hx hNone]

/- The pairs of a list are its parts of two elements. -/
theorem mem_pairs_iff_sublist
    {xs : List α}
    {a b : α} :
    (a, b) ∈ pairs xs ↔ [a, b].Sublist xs := by
  refine ⟨sublist_of_mem_pairs, ?_⟩
  intro hPart
  induction xs with
  | nil => cases hPart
  | cons x xs ih =>
      unfold pairs
      rcases List.cons_sublist_cons'.mp hPart with
        hLater | ⟨rfl, hRest⟩
      · exact List.mem_append_right _ (ih hLater)
      · exact List.mem_append_left _ (List.mem_map_of_mem
          (List.singleton_sublist.mp hRest))

/- Two elements of one key make a pair. -/
theorem exists_mem_pairs_iff_two_le_count
    [DecidableEq κ]
    (key : α → κ)
    (k : κ)
    (xs : List α) :
    (∃ e ∈ pairs xs, key e.1 = k ∧ key e.2 = k) ↔
      2 ≤ (xs.map key).count k := by
  rw [← List.replicate_sublist_iff]
  have hTwice : List.replicate 2 k = [k, k] := rfl
  rw [hTwice]
  constructor
  · rintro ⟨⟨a, b⟩, hPair, rfl, hSame⟩
    have hPart := (sublist_of_mem_pairs hPair).map key
    rw [List.map_cons, List.map_singleton, hSame] at hPart
    exact hPart
  · intro hPart
    rcases List.sublist_map_iff.mp hPart with
      ⟨both, hBoth, hKeys⟩
    rcases List.map_eq_cons_iff.mp hKeys.symm with
      ⟨a, rest, rfl, ha, hRest⟩
    rcases List.map_eq_singleton_iff.mp hRest with
      ⟨b, rfl, hb⟩
    exact ⟨(a, b), mem_pairs_iff_sublist.mpr hBoth, ha, hb⟩

/- Leaving out what is repeated keeps every key. -/
theorem exists_mem_firstBy_iff
    [DecidableEq κ]
    (key : α → κ)
    (k : κ)
    (xs : List α) :
    (∃ x ∈ firstBy key xs, key x = k) ↔
      ∃ x ∈ xs, key x = k := by
  have hFound :=
    congrArg Option.isSome (find?_firstBy key k xs)
  rw [Bool.eq_iff_iff, List.find?_isSome,
    List.find?_isSome] at hFound
  simpa only [decide_eq_true_eq] using hFound

end Listing

end JsExport
