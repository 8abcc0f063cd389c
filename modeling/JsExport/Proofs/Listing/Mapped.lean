import JsExport.Proofs.Listing.Permuted

/-
  Lists whose elements are replaced one by one.

  Where a replacement keeps the keys and the order of the
  elements, grouping, sorting and keeping first occurrences
  can be swapped with it.

  Main declarations:
    * `filter_map_eq` and `groupsBy_map`
    * `forall₂_of_map_eq`
    * `firstBy_map_of_key_eq`
    * `sortedOn_map`
-/

namespace JsExport

namespace Listing

variable {α β κ : Type}
variable {f : α → β}

theorem filter_map_eq
    {keep : α → Bool}
    {keep' : β → Bool}
    (hKeep : ∀ x, keep' (f x) = keep x)
    (xs : List α) :
    (xs.map f).filter keep' = (xs.filter keep).map f := by
  rw [List.filter_map]
  apply congrArg (List.map f)
  apply List.filter_congr
  intro x _
  exact hKeep x

/- Lists with the same images are related place by place. -/
theorem forall₂_of_map_eq
    {R : α → α → Prop}
    {xs ys : List α}
    (hSame : ys.map f = xs.map f)
    (hEach :
      ∀ (i : Nat) (x y : α), xs[i]? = some x →
        ys[i]? = some y → f y = f x → R x y) :
    List.Forall₂ R xs ys := by
  have hLength : xs.length = ys.length := by
    simpa only [List.length_map] using
      (congrArg List.length hSame).symm
  refine List.forall₂_iff_get.mpr ⟨hLength, ?_⟩
  intro i hi hi'
  have hAt := congrArg (fun zs => zs[i]?) hSame
  refine hEach i _ _ (List.getElem?_eq_getElem hi)
    (List.getElem?_eq_getElem hi') ?_
  simpa [hi, hi'] using hAt

section Keys

variable [DecidableEq κ]
variable {key : α → κ}
variable {key' : β → κ}
variable (hKey : ∀ x, key' (f x) = key x)

include hKey

theorem groupsBy_map
    (xs : List α) :
    groupsBy key' (xs.map f) =
      (groupsBy key xs).map (fun g => (g.1, g.2.map f)) := by
  have hKeys : (xs.map f).map key' = xs.map key := by
    rw [List.map_map]
    exact List.map_congr_left (fun x _ => hKey x)
  unfold groupsBy
  rw [hKeys, List.map_map]
  apply List.map_congr_left
  intro k _
  rw [Function.comp, filter_map_eq (fun x => by rw [hKey])]

theorem firstBy_map_of_key_eq
    (xs : List α) :
    firstBy key' (xs.map f) = (firstBy key xs).map f :=
  firstBy_map (fun x _ y _ => by rw [hKey, hKey])

end Keys

------------------------------------------------------------
-- Sorting
------------------------------------------------------------

theorem sorted_map
    {le : α → α → Bool}
    {le' : β → β → Bool}
    (hLe : ∀ x y, le' (f x) (f y) = le x y)
    (xs : List α) :
    sorted le' (xs.map f) = (sorted le xs).map f := by
  have hPlace :
      ∀ x ys, place le' (f x) (ys.map f) =
        (place le x ys).map f := by
    intro x ys
    induction ys with
    | nil => rfl
    | cons y ys ih =>
        rw [List.map_cons]
        unfold place
        rw [hLe, ih]
        split <;> rfl
  induction xs with
  | nil => rfl
  | cons x xs ih =>
      unfold sorted at ih ⊢
      rw [List.map_cons, List.foldr_cons, List.foldr_cons, ih,
        hPlace]

theorem sortedOn_map
    {key : α → String}
    {key' : β → String}
    (hKey : ∀ x, key' (f x) = key x)
    (xs : List α) :
    sortedOn key' (xs.map f) = (sortedOn key xs).map f :=
  sorted_map (fun x y => by rw [hKey, hKey]) xs

end Listing

end JsExport
