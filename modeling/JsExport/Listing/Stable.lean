/-
  Sorting that keeps the order of equals.

  An element is put in front of everything it does not come
  after, so two elements that are equal in the order stay as
  they were given.

  Key definitions include:
    * `Listing.place`
    * `Listing.sorted`
    * `Listing.sortedOn`
-/

namespace JsExport

namespace Listing

------------------------------------------------------------
-- Stable Sorting
------------------------------------------------------------

/- Put one element in front of the first it may precede. -/
def place
    {α : Type}
    (le : α → α → Bool)
    (x : α) : List α → List α
| [] => [x]
| y :: ys =>
    if le x y then x :: y :: ys
    else y :: place le x ys

/- The elements in order, equals as they were given. -/
def sorted
    {α : Type}
    (le : α → α → Bool)
    (xs : List α) : List α :=
  xs.foldr (place le) []

/- The elements in the order of a text read off each. -/
def sortedOn
    {α : Type}
    (key : α → String)
    (xs : List α) : List α :=
  sorted (fun x y => decide (key x ≤ key y)) xs

/- Placing an element adds it and loses nothing. -/
theorem place_perm
    {α : Type}
    (le : α → α → Bool)
    (x : α)
    (xs : List α) :
    (place le x xs).Perm (x :: xs) := by
  induction xs with
  | nil => exact List.Perm.refl _
  | cons y ys ih =>
      unfold place
      split
      · exact List.Perm.refl _
      · exact (ih.cons y).trans (List.Perm.swap x y ys)

/- Sorting keeps every element, as often as it occurs. -/
theorem sorted_perm
    {α : Type}
    (le : α → α → Bool)
    (xs : List α) :
    (sorted le xs).Perm xs := by
  induction xs with
  | nil => exact List.Perm.refl _
  | cons x xs ih =>
      exact (place_perm le x _).trans (ih.cons x)

end Listing

end JsExport
