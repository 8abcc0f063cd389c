import JsExport.Proofs.Lookup.Traversal
import Mathlib.Data.List.Perm.Basic

/-
  Traversals of a list in another order.

  When all lookups succeed, a traversal of permuted elements
  yields permuted values.

  Main declarations:
    * `flatten_eq_flatMap_of_mapM_eq_ok`
    * `flatten_mapM_perm` and `bind_flatten_perm`
    * `filterM_perm`
-/

namespace JsExport

namespace Lookup

variable {ε α β γ δ : Type}

/- The values of a traversal come from the single lookups. -/
theorem flatten_eq_of_mapM_eq_ok
    {f : α → Except ε (List γ)}
    {xs : List α}
    {all : List (List γ)}
    (hMap : xs.mapM f = .ok all) :
    all.flatten =
      xs.flatMap (fun x => (f x).toOption.getD []) := by
  induction xs generalizing all with
  | nil =>
      cases hMap
      rfl
  | cons x xs ih =>
      rcases List.forall₂_cons_left_iff.mp
          (mapM_eq_ok_iff.mp hMap) with
        ⟨first, rest, hHead, hTail, rfl⟩
      rw [List.flatten_cons, List.flatMap_cons, hHead,
        ih (mapM_eq_ok_iff.mpr hTail)]
      rfl

/- What it yields is known where every lookup is. -/
theorem flatten_eq_flatMap_of_mapM_eq_ok
    {f : α → Except ε (List γ)}
    {g : α → List γ}
    {xs : List α}
    {all : List (List γ)}
    (hMap : xs.mapM f = .ok all)
    (hEach : ∀ x ∈ xs, ∀ ys, f x = .ok ys → ys = g x) :
    all.flatten = xs.flatMap g := by
  rw [flatten_eq_of_mapM_eq_ok hMap]
  apply List.flatMap_congr
  intro x hx
  rcases succeeds_of_mapM_eq_ok hMap hx with ⟨ys, hys⟩
  rw [hys, ← hEach x hx ys hys]
  rfl

/- What two traversals of one list yield can be compared. -/
theorem forall₂_of_mapM_eq_ok
    {f : α → Except ε β}
    {f' : α → Except ε γ}
    {related : γ → β → Prop}
    {xs : List α}
    {ys : List β}
    {zs : List γ}
    (hMap : xs.mapM f = .ok ys)
    (hMap' : xs.mapM f' = .ok zs)
    (hEach :
      ∀ x ∈ xs, ∀ y z, f x = .ok y → f' x = .ok z →
        related z y) :
    List.Forall₂ related zs ys := by
  induction xs generalizing ys zs with
  | nil =>
      cases hMap
      cases hMap'
      exact .nil
  | cons x xs ih =>
      rcases List.forall₂_cons_left_iff.mp
          (mapM_eq_ok_iff.mp hMap) with
        ⟨y, ys, hHead, hTail, rfl⟩
      rcases List.forall₂_cons_left_iff.mp
          (mapM_eq_ok_iff.mp hMap') with
        ⟨z, zs, hHead', hTail', rfl⟩
      have hFirst :=
        hEach x List.mem_cons_self y z hHead hHead'
      exact .cons hFirst (ih (mapM_eq_ok_iff.mpr hTail)
        (mapM_eq_ok_iff.mpr hTail') (fun a ha =>
          hEach a (List.mem_cons_of_mem x ha)))

/- Lookups of other values for the same elements. -/
theorem mapM_eq_ok_map_of_mapM_eq_ok
    {f : α → Except ε β}
    {f' : α → Except ε γ}
    {move : β → γ}
    {xs : List α}
    (hEach :
      ∀ x ∈ xs, ∀ y, f x = .ok y → f' x = .ok (move y))
    {ys : List β}
    (hMap : xs.mapM f = .ok ys) :
    xs.mapM f' = .ok (ys.map move) := by
  induction xs generalizing ys with
  | nil =>
      cases hMap
      rfl
  | cons x xs ih =>
      rcases List.forall₂_cons_left_iff.mp
          (mapM_eq_ok_iff.mp hMap) with
        ⟨y, rest, hHead, hTail, rfl⟩
      have hFirst := hEach x List.mem_cons_self y hHead
      have hRest := ih (fun z hz =>
        hEach z (List.mem_cons_of_mem x hz))
        (mapM_eq_ok_iff.mpr hTail)
      apply mapM_eq_ok_iff.mpr
      exact List.Forall₂.cons hFirst
        (mapM_eq_ok_iff.mp hRest)

/- The same where a lookup may find that there is nothing. -/
theorem filterMapM_eq_ok_map_of_filterMapM_eq_ok
    {f : α → Except ε (Option β)}
    {f' : α → Except ε (Option γ)}
    {move : β → γ}
    {xs : List α}
    (hEach :
      ∀ x ∈ xs, ∀ found, f x = .ok found →
        f' x = .ok (found.map move))
    {ys : List β}
    (hMap : xs.filterMapM f = .ok ys) :
    xs.filterMapM f' = .ok (ys.map move) := by
  induction xs generalizing ys with
  | nil =>
      cases hMap
      rfl
  | cons x xs ih =>
      rw [List.filterMapM_cons] at hMap ⊢
      rcases bind_eq_ok_iff.mp hMap with
        ⟨found, hFound, hRest⟩
      apply bind_eq_ok_iff.mpr
      refine ⟨found.map move,
        hEach x List.mem_cons_self found hFound, ?_⟩
      have hLater : ∀ zs,
          xs.filterMapM f = .ok zs →
            xs.filterMapM f' = .ok (zs.map move) :=
        fun _ hSome => ih (fun z hz =>
          hEach z (List.mem_cons_of_mem x hz)) hSome
      cases found with
      | none => exact hLater ys hRest
      | some y =>
          rcases bind_eq_ok_iff.mp hRest with
            ⟨zs, hSome, hEq⟩
          cases hEq
          exact bind_eq_ok_iff.mpr
            ⟨zs.map move, hLater zs hSome, rfl⟩

/- A traversal of permuted elements permutes what it finds. -/
theorem flatten_mapM_perm
    {f : α → Except ε (List γ)}
    {f' : β → Except ε (List δ)}
    {move : α → β}
    {read : γ → δ}
    {xs : List α}
    {ys : List β}
    (hPerm : ys.Perm (xs.map move))
    (hEach :
      ∀ x ∈ xs, ∀ found found',
        f x = .ok found → f' (move x) = .ok found' →
          found'.Perm (found.map read))
    {all : List (List γ)}
    {all' : List (List δ)}
    (hAll : xs.mapM f = .ok all)
    (hAll' : ys.mapM f' = .ok all') :
    all'.flatten.Perm (all.flatten.map read) := by
  rw [flatten_eq_of_mapM_eq_ok hAll,
    flatten_eq_of_mapM_eq_ok hAll', List.map_flatMap]
  refine (hPerm.flatMap_right _).trans ?_
  rw [List.flatMap_map]
  apply List.Perm.flatMap_left
  intro x hx
  rcases succeeds_of_mapM_eq_ok hAll hx with ⟨found, hFound⟩
  have hMoved : move x ∈ ys :=
    hPerm.mem_iff.mpr (List.mem_map_of_mem hx)
  rcases succeeds_of_mapM_eq_ok hAll' hMoved with
    ⟨found', hFound'⟩
  rw [hFound, hFound']
  exact hEach x hx found found' hFound hFound'

/- The same of a traversal whose lists are put together. -/
theorem bind_flatten_perm
    {f : α → Except ε (List γ)}
    {f' : β → Except ε (List δ)}
    {move : α → β}
    {read : γ → δ}
    {xs : List α}
    {ys : List β}
    (hPerm : ys.Perm (xs.map move))
    (hEach :
      ∀ x ∈ xs, ∀ found found',
        f x = .ok found → f' (move x) = .ok found' →
          found'.Perm (found.map read))
    {all : List γ}
    {all' : List δ}
    (hAll :
      (xs.mapM f >>= fun lists => pure lists.flatten) =
        .ok all)
    (hAll' :
      (ys.mapM f' >>= fun lists => pure lists.flatten) =
        .ok all') :
    all'.Perm (all.map read) := by
  rcases bind_eq_ok_iff.mp hAll with ⟨lists, hLists, hEq⟩
  rcases bind_eq_ok_iff.mp hAll' with
    ⟨lists', hLists', hEq'⟩
  cases hEq
  cases hEq'
  exact flatten_mapM_perm hPerm hEach hLists hLists'

/- A choice among permuted elements permutes what is kept. -/
theorem filterM_perm
    {f : α → Except ε Bool}
    {f' : β → Except ε Bool}
    {move : α → β}
    {xs : List α}
    {ys : List β}
    (hPerm : ys.Perm (xs.map move))
    (hEach :
      ∀ x ∈ xs, ∃ keep, f x = .ok keep ∧
        f' (move x) = .ok keep) :
    ∃ kept kept', xs.filterM f = .ok kept ∧
      ys.filterM f' = .ok kept' ∧
        kept'.Perm (kept.map move) := by
  let keeps : β → Bool :=
    fun y => (f' y).toOption.getD false
  refine ⟨xs.filter (fun x => keeps (move x)),
    ys.filter keeps, ?_, ?_, ?_⟩
  · apply filterM_eq_ok_filter
    intro x hx
    rcases hEach x hx with ⟨keep, hFirst, hSecond⟩
    have hKeeps : keeps (move x) = keep := by
      change (f' (move x)).toOption.getD false = keep
      rw [hSecond]
      rfl
    rw [hFirst, hKeeps]
  · apply filterM_eq_ok_filter
    intro y hy
    rcases List.mem_map.mp (hPerm.mem_iff.mp hy) with
      ⟨x, hx, rfl⟩
    rcases hEach x hx with ⟨keep, _, hSecond⟩
    change f' (move x) =
      .ok ((f' (move x)).toOption.getD false)
    rw [hSecond]
    rfl
  · refine (hPerm.filter keeps).trans ?_
    rw [List.filter_map]
    exact List.Perm.refl _

end Lookup

end JsExport
