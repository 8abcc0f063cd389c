import JsExport.Proofs.Listing.First
import JsExport.Proofs.Listing.Stable
import Mathlib.Data.List.Perm.Basic

/-
  Lists in another order, with other names for the elements.

  A list is permuted by a function when it has the images of
  the elements of another list, in any order.  Groups, pairs
  and sorted lists are then permuted alike.  So is what is
  kept of first occurrences when the list comes in blocks
  and only the order within the blocks is changed.

  Main declarations:
    * `groupsBy_perm` and `flatMap_groupsBy_perm`
    * `filterMap_pairs_perm`
    * `sortedOn_eq_map_of_perm`
    * `map_firstBy_flatten_perm` and
      `firstBy_flatten_perm_map`
-/

namespace JsExport

namespace Listing

variable {α β γ κ ν : Type}

------------------------------------------------------------
-- Parts Of Lists
------------------------------------------------------------

/- What is kept of a permuted list is permuted. -/
theorem filter_perm_map
    {f : α → β}
    {keep : α → Bool}
    {keep' : β → Bool}
    {xs : List α}
    {ys : List β}
    (hPerm : ys.Perm (xs.map f))
    (hKeep : ∀ x ∈ xs, keep' (f x) = keep x) :
    (ys.filter keep').Perm ((xs.filter keep).map f) := by
  have hFilter :
      (xs.map f).filter keep' = (xs.filter keep).map f := by
    rw [List.filter_map]
    apply congrArg (List.map f)
    apply List.filter_congr
    intro x hx
    exact hKeep x hx
  rw [← hFilter]
  exact hPerm.filter keep'

/- Whether an element passes does not depend on the order. -/
theorem any_perm_map
    {f : α → β}
    {test : α → Bool}
    {test' : β → Bool}
    {xs : List α}
    {ys : List β}
    (hPerm : ys.Perm (xs.map f))
    (hTest : ∀ x ∈ xs, test' (f x) = test x) :
    ys.any test' = xs.any test := by
  rw [hPerm.any_eq, List.any_map]
  exact any_congr hTest

/- A list of at most one element has one order. -/
theorem eq_of_perm_of_length_le_one
    {xs ys : List α}
    (hPerm : ys.Perm xs)
    (hShort : xs.length ≤ 1) :
    ys = xs := by
  match xs with
  | [] => exact hPerm.eq_nil
  | [x] => exact hPerm.eq_singleton
  | x :: y :: rest =>
      simp only [List.length_cons] at hShort
      omega

------------------------------------------------------------
-- Values And Groups
------------------------------------------------------------

section Groups

variable [DecidableEq κ]

/- The values of a list do not depend on its order. -/
theorem distinct_perm
    {xs ys : List κ}
    (hPerm : xs.Perm ys) :
    (distinct xs).Perm (distinct ys) := by
  apply (List.perm_ext_iff_of_nodup (nodup_distinct xs)
    (nodup_distinct ys)).mpr
  intro x
  rw [mem_distinct_iff, mem_distinct_iff]
  exact hPerm.mem_iff

variable {key : α → κ}
variable {key' : β → κ}
variable {f : α → β}
variable {xs : List α}
variable {ys : List β}
variable (hKey : ∀ x ∈ xs, key' (f x) = key x)
variable (hPerm : ys.Perm (xs.map f))

include hKey hPerm

theorem distinct_map_perm :
    (distinct (ys.map key')).Perm
      (distinct (xs.map key)) := by
  apply distinct_perm
  have hKeys : (xs.map f).map key' = xs.map key := by
    rw [List.map_map]
    exact List.map_congr_left hKey
  rw [← hKeys]
  exact hPerm.map key'

/- Groups that keep their order are permuted as a whole. -/
theorem groupsBy_perm
    (hEach :
      ∀ k, ys.filter (fun y => decide (key' y = k)) =
        (xs.filter (fun x => decide (key x = k))).map f) :
    (groupsBy key' ys).Perm
      ((groupsBy key xs).map
        (fun g => (g.1, g.2.map f))) := by
  unfold groupsBy
  rw [List.map_map]
  have hGroups :
      (fun k => (k,
          ys.filter (fun y => decide (key' y = k)))) =
        (fun g : κ × List α => (g.1, g.2.map f)) ∘
          (fun k => (k,
            xs.filter (fun x => decide (key x = k)))) := by
    funext k
    rw [hEach k]
    rfl
  rw [hGroups]
  exact (distinct_map_perm hKey hPerm).map _

/- What is read off permuted groups is permuted. -/
theorem flatMap_groupsBy_perm
    {read : κ × List α → List γ}
    {read' : κ × List β → List γ}
    (hEach :
      ∀ g ∈ groupsBy key xs, ∀ group : List β,
        group.Perm (g.2.map f) →
          (read' (g.1, group)).Perm (read g)) :
    ((groupsBy key' ys).flatMap read').Perm
      ((groupsBy key xs).flatMap read) := by
  unfold groupsBy
  rw [List.flatMap_map, List.flatMap_map]
  refine ((distinct_map_perm hKey hPerm).flatMap_right
    _).trans ?_
  apply List.Perm.flatMap_left
  intro k hk
  apply hEach _ (List.mem_map_of_mem hk)
  apply filter_perm_map hPerm
  intro x hx
  rw [hKey x hx]

end Groups

------------------------------------------------------------
-- Pairs
------------------------------------------------------------

/- The pairs of images are the images of the pairs. -/
theorem pairs_map
    (f : α → β)
    (xs : List α) :
    pairs (xs.map f) =
      (pairs xs).map (fun e => (f e.1, f e.2)) := by
  induction xs with
  | nil => rfl
  | cons x xs ih =>
      rw [List.map_cons]
      unfold pairs
      rw [ih, List.map_append, List.map_map, List.map_map]
      rfl

/-
  What is read off pairs without regard to their order does
  not depend on the order of the list.
-/
theorem filterMap_pairs_perm
    {read : α × α → Option β}
    {xs ys : List α}
    (hPerm : xs.Perm ys)
    (hSymm :
      ∀ a ∈ xs, ∀ b ∈ xs, read (a, b) = read (b, a)) :
    ((pairs xs).filterMap read).Perm
      ((pairs ys).filterMap read) := by
  induction hPerm with
  | nil => exact List.Perm.refl _
  | @cons x xs ys hRest ih =>
      have hTail := ih (fun a ha b hb =>
        hSymm a (List.mem_cons_of_mem x ha)
          b (List.mem_cons_of_mem x hb))
      unfold pairs
      rw [List.filterMap_append, List.filterMap_append]
      exact ((hRest.map _).filterMap read).append hTail
  | swap x y xs =>
      have hHead : read (y, x) = read (x, y) :=
        hSymm y List.mem_cons_self x
          (List.mem_cons_of_mem y List.mem_cons_self)
      unfold pairs pairs
      simp only [List.map_cons, List.filterMap_append,
        List.filterMap_cons, List.cons_append, hHead]
      have hMiddle :
          ((xs.map (fun z => (y, z))).filterMap read ++
              ((xs.map (fun z => (x, z))).filterMap read ++
                (pairs xs).filterMap read)).Perm
            ((xs.map (fun z => (x, z))).filterMap read ++
              ((xs.map (fun z => (y, z))).filterMap read ++
                (pairs xs).filterMap read)) := by
        rw [← List.append_assoc, ← List.append_assoc]
        exact List.perm_append_comm.append_right _
      cases read (x, y) with
      | none => exact hMiddle
      | some b => exact hMiddle.cons b
  | @trans xs ys zs hFirst _ ihFirst ihSecond =>
      refine (ihFirst hSymm).trans (ihSecond ?_)
      intro a ha b hb
      exact hSymm a (hFirst.mem_iff.mpr ha)
        b (hFirst.mem_iff.mpr hb)

------------------------------------------------------------
-- Sorted Lists
------------------------------------------------------------

/- The texts of a sorted list increase. -/
theorem pairwise_sortedOn
    (key : α → String)
    (xs : List α) :
    (sortedOn key xs).Pairwise
      (fun x y => key x ≤ key y) := by
  have hTotal :
      Std.Total (fun x y : α =>
        decide (key x ≤ key y) = true) :=
    ⟨fun x y => by
      rw [decide_eq_true_eq, decide_eq_true_eq]
      exact String.le_total _ _⟩
  have hTrans :
      IsTrans α (fun x y =>
        decide (key x ≤ key y) = true) :=
    ⟨fun x y z => by
      rw [decide_eq_true_eq, decide_eq_true_eq,
        decide_eq_true_eq]
      exact String.le_trans⟩
  unfold sortedOn
  refine (pairwise_sorted _ xs).imp ?_
  intro x y hLe
  exact of_decide_eq_true hLe

/-
  Elements with texts of their own are sorted alike, however
  they are given.
-/
theorem sortedOn_eq_map_of_perm
    {key : α → String}
    {key' : β → String}
    {f : α → β}
    {xs : List α}
    {ys : List β}
    (hKey : ∀ x ∈ xs, key' (f x) = key x)
    (hPerm : ys.Perm (xs.map f))
    (hApart :
      ∀ x ∈ xs, ∀ y ∈ xs, key x = key y → f x = f y) :
    sortedOn key' ys = (sortedOn key xs).map f := by
  have hSorted := sorted_perm
    (fun x y => decide (key x ≤ key y)) xs
  have hSorted' := sorted_perm
    (fun x y => decide (key' x ≤ key' y)) ys
  have hAll :
      (sortedOn key' ys).Perm ((sortedOn key xs).map f) :=
    (hSorted'.trans hPerm).trans (hSorted.map f).symm
  refine List.Perm.eq_of_pairwise ?_
    (pairwise_sortedOn key' ys) ?_ hAll
  · intro a b ha hb hLe hGe
    rcases List.mem_map.mp (hAll.mem_iff.mp ha) with
      ⟨x, hx, rfl⟩
    rcases List.mem_map.mp hb with ⟨y, hy, rfl⟩
    have hxIn := hSorted.mem_iff.mp hx
    have hyIn := hSorted.mem_iff.mp hy
    have hSame := String.le_antisymm hLe hGe
    rw [hKey x hxIn, hKey y hyIn] at hSame
    exact hApart x hxIn y hyIn hSame
  · apply List.pairwise_map.mpr
    refine (pairwise_sortedOn key xs).imp_of_mem ?_
    intro x y hx hy hLe
    rw [hKey x (hSorted.mem_iff.mp hx),
      hKey y (hSorted.mem_iff.mp hy)]
    exact hLe

------------------------------------------------------------
-- First Occurrences
------------------------------------------------------------

section First

variable [DecidableEq κ]
variable [DecidableEq ν]

/- First occurrences depend on which keys are the same. -/
theorem firstBy_map
    {key : α → κ}
    {key' : β → ν}
    {f : α → β}
    {xs : List α}
    (hKeys :
      ∀ x ∈ xs, ∀ y ∈ xs,
        key' (f x) = key' (f y) ↔ key x = key y) :
    firstBy key' (xs.map f) = (firstBy key xs).map f := by
  induction xs with
  | nil => rfl
  | cons x xs ih =>
      have hRest := ih (fun y hy z hz =>
        hKeys y (List.mem_cons_of_mem x hy)
          z (List.mem_cons_of_mem x hz))
      rw [List.map_cons]
      unfold firstBy
      rw [hRest, List.filter_map, List.map_cons]
      apply congrArg (List.cons (f x))
      apply congrArg (List.map f)
      apply List.filter_congr
      intro y hy
      have hIn := (firstBy_sublist key xs).subset hy
      rw [Function.comp, decide_eq_decide, ne_eq, ne_eq,
        hKeys y (List.mem_cons_of_mem x hIn)
          x List.mem_cons_self]

variable (key : α → κ)

/- Where one key means one element all keys are kept. -/
theorem mem_firstBy_iff
    {xs : List α}
    (hSame :
      ∀ x ∈ xs, ∀ y ∈ xs, key x = key y → x = y)
    {x : α} :
    x ∈ firstBy key xs ↔ x ∈ xs := by
  constructor
  · intro hMem
    exact (firstBy_sublist key xs).subset hMem
  · intro hMem
    rcases exists_mem_firstBy key hMem with ⟨y, hy, hKey⟩
    have hIn := (firstBy_sublist key xs).subset hy
    rw [← hSame y hIn x hMem hKey]
    exact hy

theorem firstBy_perm
    {xs ys : List α}
    (hPerm : xs.Perm ys)
    (hSame :
      ∀ x ∈ ys, ∀ y ∈ ys, key x = key y → x = y) :
    (firstBy key xs).Perm (firstBy key ys) := by
  have hSameFirst :
      ∀ x ∈ xs, ∀ y ∈ xs, key x = key y → x = y := by
    intro x hx y hy
    exact hSame x (hPerm.mem_iff.mp hx)
      y (hPerm.mem_iff.mp hy)
  apply (List.perm_ext_iff_of_nodup
    (nodup_map_firstBy key xs).of_map
    (nodup_map_firstBy key ys).of_map).mpr
  intro x
  rw [mem_firstBy_iff key hSameFirst,
    mem_firstBy_iff key hSame]
  exact hPerm.mem_iff

/-
  What is kept does not depend on the order within blocks
  in which one key means one element.
-/
theorem firstBy_flatten_perm
    {blocks blocks' : List (List α)}
    (hBlocks : List.Forall₂ List.Perm blocks' blocks)
    (hSame :
      ∀ block ∈ blocks, ∀ x ∈ block, ∀ y ∈ block,
        key x = key y → x = y) :
    (firstBy key blocks'.flatten).Perm
      (firstBy key blocks.flatten) := by
  induction hBlocks with
  | nil => exact List.Perm.refl _
  | @cons first' first rest' rest hFirst _ ih =>
      have hHead := firstBy_perm key hFirst
        (hSame first List.mem_cons_self)
      have hTail := ih (fun block hBlock =>
        hSame block (List.mem_cons_of_mem first hBlock))
      have hKeys :
          (fun y => decide (key y ∉ first'.map key)) =
            fun y => decide (key y ∉ first.map key) := by
        funext y
        rw [decide_eq_decide,
          (hFirst.map key).mem_iff]
      rw [List.flatten_cons, List.flatten_cons,
        firstBy_append, firstBy_append, hKeys]
      exact hHead.append (hTail.filter _)

/-
  The same of what is read off the elements that are kept,
  when another list of blocks reads alike.
-/
theorem map_firstBy_flatten_perm
    {key' : β → ν}
    {read : β → γ}
    {f : α → β}
    {blocks : List (List α)}
    {blocks' : List (List β)}
    (hBlocks :
      List.Forall₂
        (fun block' block =>
          (block'.map (fun y => (key' y, read y))).Perm
            (block.map (fun x => (key' (f x), read (f x)))))
        blocks' blocks)
    (hKeys :
      ∀ x ∈ blocks.flatten, ∀ y ∈ blocks.flatten,
        key' (f x) = key' (f y) ↔ key x = key y)
    (hSame :
      ∀ block ∈ blocks, ∀ x ∈ block, ∀ y ∈ block,
        key x = key y → read (f x) = read (f y)) :
    ((firstBy key' blocks'.flatten).map read).Perm
      ((firstBy key blocks.flatten).map
        (fun x => read (f x))) := by
  let mark : β → ν × γ := fun y => (key' y, read y)
  let markAll : List (List (ν × γ)) :=
    blocks.map (fun block =>
      block.map (fun x => mark (f x)))
  have hMarked :
      List.Forall₂ List.Perm
        (blocks'.map (fun block => block.map mark))
        markAll := by
    rw [List.forall₂_map_left_iff,
      List.forall₂_map_right_iff]
    exact hBlocks
  have hPerm := firstBy_flatten_perm
    (fun e : ν × γ => e.1) hMarked (by
      intro marked hMem e he d hd hEq
      rcases List.mem_map.mp hMem with
        ⟨block, hBlock, rfl⟩
      rcases List.mem_map.mp he with ⟨x, hx, rfl⟩
      rcases List.mem_map.mp hd with ⟨y, hy, rfl⟩
      have hKey := (hKeys
        x (List.mem_flatten_of_mem hBlock hx)
        y (List.mem_flatten_of_mem hBlock hy)).mp hEq
      exact Prod.ext hEq (hSame block hBlock x hx y hy hKey))
  have hLeft :
      firstBy (fun e : ν × γ => e.1)
          (blocks'.map (fun block =>
            block.map mark)).flatten =
        (firstBy key' blocks'.flatten).map mark := by
    rw [← List.map_flatten]
    exact firstBy_map (fun _ _ _ _ => Iff.rfl)
  have hRight :
      firstBy (fun e : ν × γ => e.1) markAll.flatten =
        (firstBy key blocks.flatten).map
          (fun x => mark (f x)) := by
    rw [← List.map_flatten]
    exact firstBy_map hKeys
  rw [hLeft, hRight] at hPerm
  have hRead := hPerm.map (fun e : ν × γ => e.2)
  rw [List.map_map, List.map_map] at hRead
  exact hRead

/- The same when the blocks themselves are permuted. -/
theorem firstBy_flatten_perm_map
    {key' : β → ν}
    {f : α → β}
    {blocks : List (List α)}
    {blocks' : List (List β)}
    (hBlocks :
      List.Forall₂
        (fun block' block => block'.Perm (block.map f))
        blocks' blocks)
    (hKeys :
      ∀ x ∈ blocks.flatten, ∀ y ∈ blocks.flatten,
        key' (f x) = key' (f y) ↔ key x = key y)
    (hSame :
      ∀ block ∈ blocks, ∀ x ∈ block, ∀ y ∈ block,
        key x = key y → x = y) :
    (firstBy key' blocks'.flatten).Perm
      ((firstBy key blocks.flatten).map f) := by
  have hMarked :
      List.Forall₂
        (fun block' block =>
          (block'.map (fun y => (key' y, y))).Perm
            (block.map (fun x => (key' (f x), f x))))
        blocks' blocks := by
    refine hBlocks.imp ?_
    intro block' block hPerm
    have hMarks := hPerm.map (fun y => (key' y, y))
    rw [List.map_map] at hMarks
    exact hMarks
  have hPerm := map_firstBy_flatten_perm key hMarked hKeys
    (by
      intro block hBlock x hx y hy hKey
      rw [hSame block hBlock x hx y hy hKey])
  rw [List.map_id'] at hPerm
  exact hPerm

end First

end Listing

end JsExport
