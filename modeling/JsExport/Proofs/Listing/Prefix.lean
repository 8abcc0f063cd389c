import JsExport.Proofs.Listing.First
import JsExport.Proofs.Lookup.Traversal

/-
  Lists that begin alike.

  A traversal of a longer list by a function that agrees on
  the first part begins with what the traversal of the first
  part yields.

  Main declarations:
    * `map_prefix`, `filterMap_prefix`, `flatMap_prefix`
    * `firstBy_prefix`
    * `mapM_prefix` and `flatten_mapM_prefix`
-/

namespace JsExport

namespace Listing

variable {α β ε κ : Type}
variable {xs ys : List α}
variable (hPrefix : xs <+: ys)

include hPrefix

theorem filter_prefix
    {f g : α → Bool}
    (hEach : ∀ x ∈ xs, f x = g x) :
    xs.filter f <+: ys.filter g := by
  rcases hPrefix with ⟨more, rfl⟩
  rw [List.filter_append, List.filter_congr hEach]
  exact List.prefix_append _ _

theorem map_prefix
    {f g : α → β}
    (hEach : ∀ x ∈ xs, f x = g x) :
    xs.map f <+: ys.map g := by
  rcases hPrefix with ⟨more, rfl⟩
  rw [List.map_append, List.map_congr_left hEach]
  exact List.prefix_append _ _

theorem filterMap_prefix
    {f g : α → Option β}
    (hEach : ∀ x ∈ xs, f x = g x) :
    xs.filterMap f <+: ys.filterMap g := by
  rcases hPrefix with ⟨more, rfl⟩
  rw [List.filterMap_append, List.filterMap_congr hEach]
  exact List.prefix_append _ _

theorem flatMap_prefix
    {f g : α → List β}
    (hEach : ∀ x ∈ xs, f x = g x) :
    xs.flatMap f <+: ys.flatMap g := by
  rcases hPrefix with ⟨more, rfl⟩
  rw [List.flatMap_append, List.flatMap_congr hEach]
  exact List.prefix_append _ _

/- First occurrences stay first in a longer list. -/
theorem firstBy_prefix
    [DecidableEq κ]
    (key : α → κ) :
    firstBy key xs <+: firstBy key ys := by
  rcases hPrefix with ⟨more, rfl⟩
  exact firstBy_prefix_append key xs more

/- A longer traversal begins with the shorter one. -/
theorem mapM_prefix
    {f g : α → Except ε β}
    {first all : List β}
    (hFirst : xs.mapM f = .ok first)
    (hAll : ys.mapM g = .ok all)
    (hEach : ∀ x ∈ xs, f x = g x) :
    first <+: all := by
  rcases hPrefix with ⟨more, rfl⟩
  rw [List.mapM_append] at hAll
  rcases Lookup.bind_eq_ok_iff.mp hAll with
    ⟨begun, hBegun, hRest⟩
  rcases Lookup.bind_eq_ok_iff.mp hRest with
    ⟨rest, _, hEq⟩
  cases hEq
  have hSame : begun = first := by
    rw [← Lookup.mapM_congr hEach, hFirst] at hBegun
    exact (Except.ok.inj hBegun).symm
  rw [hSame]
  exact List.prefix_append _ _

omit hPrefix in
theorem flatten_prefix
    {lists more : List (List β)}
    (hLists : lists <+: more) :
    lists.flatten <+: more.flatten := by
  rcases hLists with ⟨rest, rfl⟩
  rw [List.flatten_append]
  exact List.prefix_append _ _

/- The same for a traversal that yields many at each step. -/
theorem flatten_mapM_prefix
    {f g : α → Except ε (List β)}
    {first all : List β}
    (hFirst :
      (xs.mapM f >>= fun lists => pure lists.flatten) =
        .ok first)
    (hAll :
      (ys.mapM g >>= fun lists => pure lists.flatten) =
        .ok all)
    (hEach : ∀ x ∈ xs, f x = g x) :
    first <+: all := by
  rcases Lookup.bind_eq_ok_iff.mp hFirst with
    ⟨lists, hLists, hEq⟩
  rcases Lookup.bind_eq_ok_iff.mp hAll with
    ⟨more, hMore, hEq'⟩
  cases hEq
  cases hEq'
  apply flatten_prefix
  exact mapM_prefix hPrefix hLists hMore hEach

end Listing

end JsExport
