import Mathlib.Data.List.Forall2

/-
  Traversals that stop at the first failure.

  Every lookup of a number may fail, and most functions on
  programs look up the numbers of a list one after another.
  This file says when such a traversal succeeds, and what it
  yields when it does.

  Main declarations:
    * `Succeeds` and its closure under sequencing
    * `mapM_eq_ok_iff`
    * `flatten_mapM_sublist`
    * `foldlM_succeeds_of_invariant`
-/

namespace JsExport

namespace Lookup

variable {ε α β γ : Type}

------------------------------------------------------------
-- Lookups That Succeed
------------------------------------------------------------

/- That a lookup yields a value. -/
def Succeeds
    (x : Except ε α) : Prop :=
  ∃ a, x = .ok a

theorem succeeds_pure
    (a : α) :
    Succeeds (pure a : Except ε α) :=
  ⟨a, rfl⟩

/- A sequence yields a value when both parts yield one. -/
theorem bind_eq_ok_iff
    {x : Except ε α}
    {f : α → Except ε β}
    {b : β} :
    x >>= f = .ok b ↔ ∃ a, x = .ok a ∧ f a = .ok b := by
  cases x with
  | error e =>
      constructor
      · intro hFound
        cases hFound
      · rintro ⟨a, ha, _⟩
        cases ha
  | ok a =>
      constructor
      · intro hFound
        exact ⟨a, rfl, hFound⟩
      · rintro ⟨c, hc, hFound⟩
        cases hc
        exact hFound

/- What hangs on a truth value that is looked up. -/
theorem eq_ite_of_bind_eq_ok
    {x : Except ε Bool}
    (test : Bool → Bool)
    {a b c : α}
    (hFound :
      (x >>= fun t =>
        if test t then (pure a : Except ε α) else pure b) =
          .ok c) :
    ∃ t, x = .ok t ∧ c = if test t then a else b := by
  rcases bind_eq_ok_iff.mp hFound with ⟨t, ht, hRest⟩
  refine ⟨t, ht, ?_⟩
  cases hTest : test t with
  | true =>
      rw [if_pos hTest] at hRest
      exact (Except.ok.inj hRest).symm
  | false =>
      rw [if_neg (Bool.eq_false_iff.mp hTest)] at hRest
      exact (Except.ok.inj hRest).symm

theorem Succeeds.bind
    {x : Except ε α}
    {f : α → Except ε β}
    (hFirst : Succeeds x)
    (hNext : ∀ a, x = .ok a → Succeeds (f a)) :
    Succeeds (x >>= f) := by
  rcases hFirst with ⟨a, ha⟩
  rcases hNext a ha with ⟨b, hb⟩
  exact ⟨b, bind_eq_ok_iff.mpr ⟨a, ha, hb⟩⟩

/- A value computed from a found one is found as well. -/
theorem Succeeds.map
    {x : Except ε α}
    (hFirst : Succeeds x)
    (f : α → β) :
    Succeeds (x >>= fun a => pure (f a)) :=
  hFirst.bind (fun a _ => succeeds_pure (f a))

------------------------------------------------------------
-- Traversals
------------------------------------------------------------

/- A traversal yields the values of the single lookups. -/
theorem mapM_eq_ok_iff
    {f : α → Except ε β}
    {xs : List α}
    {ys : List β} :
    xs.mapM f = .ok ys ↔
      List.Forall₂ (fun x y => f x = .ok y) xs ys := by
  induction xs generalizing ys with
  | nil =>
      rw [List.mapM_nil, List.forall₂_nil_left_iff]
      exact ⟨fun h => (Except.ok.inj h).symm,
        fun h => congrArg Except.ok h.symm⟩
  | cons x xs ih =>
      rw [List.mapM_cons, bind_eq_ok_iff,
        List.forall₂_cons_left_iff]
      constructor
      · rintro ⟨y, hy, hRest⟩
        rcases bind_eq_ok_iff.mp hRest with ⟨zs, hzs, hEq⟩
        exact ⟨y, zs, hy, ih.mp hzs,
          (Except.ok.inj hEq).symm⟩
      · rintro ⟨y, zs, hy, hzs, rfl⟩
        exact ⟨y, hy, bind_eq_ok_iff.mpr
          ⟨zs, ih.mpr hzs, rfl⟩⟩

theorem mapM_congr
    {f g : α → Except ε β}
    {xs : List α}
    (hEach : ∀ x ∈ xs, f x = g x) :
    xs.mapM f = xs.mapM g := by
  induction xs with
  | nil => rfl
  | cons x xs ih =>
      rw [List.mapM_cons, List.mapM_cons,
        hEach x List.mem_cons_self,
        ih (fun y hy => hEach y (List.mem_cons_of_mem x hy))]

/- A traversal reads off what the single lookups read off. -/
theorem mapM_eq_map_mapM
    {f : α → Except ε β}
    {g : α → Except ε γ}
    {read : β → γ}
    {xs : List α}
    (hEach : ∀ x ∈ xs, g x = read <$> f x) :
    xs.mapM g = List.map read <$> xs.mapM f := by
  induction xs with
  | nil => rfl
  | cons x xs ih =>
      rw [List.mapM_cons, List.mapM_cons,
        hEach x List.mem_cons_self,
        ih (fun y hy => hEach y (List.mem_cons_of_mem x hy))]
      simp only [bind_map_left, map_bind, map_pure,
        List.map_cons]

/- What a traversal yields comes from single lookups. -/
theorem mem_of_mapM_eq_ok
    {f : α → Except ε β}
    {xs : List α}
    {ys : List β}
    (hMap : xs.mapM f = .ok ys)
    {y : β} :
    y ∈ ys ↔ ∃ x ∈ xs, f x = .ok y := by
  induction xs generalizing ys with
  | nil =>
      rw [List.mapM_nil] at hMap
      cases hMap
      simp
  | cons x xs ih =>
      rcases List.forall₂_cons_left_iff.mp
          (mapM_eq_ok_iff.mp hMap) with
        ⟨z, zs, hHead, hTail, rfl⟩
      rw [List.mem_cons, ih (mapM_eq_ok_iff.mpr hTail),
        List.exists_mem_cons_iff, hHead]
      simp [eq_comm]

/- What a traversal that succeeds looks up is found. -/
theorem succeeds_of_mapM_eq_ok
    {f : α → Except ε β}
    {xs : List α}
    {ys : List β}
    (hMap : xs.mapM f = .ok ys)
    {x : α}
    (hx : x ∈ xs) :
    Succeeds (f x) := by
  induction xs generalizing ys with
  | nil => cases hx
  | cons z zs ih =>
      rcases List.forall₂_cons_left_iff.mp
          (mapM_eq_ok_iff.mp hMap) with
        ⟨y, rest, hHead, hTail, rfl⟩
      rcases List.mem_cons.mp hx with hSame | hLater
      · exact ⟨y, hSame ▸ hHead⟩
      · exact ih (mapM_eq_ok_iff.mpr hTail) hLater

/- The same for a traversal that yields many at each step. -/
theorem mem_flatten_of_mapM_eq_ok
    {f : α → Except ε (List β)}
    {xs : List α}
    {lists : List (List β)}
    (hMap : xs.mapM f = .ok lists)
    {y : β} :
    y ∈ lists.flatten ↔
      ∃ x ∈ xs, ∃ ys, f x = .ok ys ∧ y ∈ ys := by
  rw [List.mem_flatten]
  constructor
  · rintro ⟨ys, hIn, hy⟩
    rcases (mem_of_mapM_eq_ok hMap).mp hIn with
      ⟨x, hx, hFound⟩
    exact ⟨x, hx, ys, hFound, hy⟩
  · rintro ⟨x, hx, ys, hFound, hy⟩
    exact ⟨ys,
      (mem_of_mapM_eq_ok hMap).mpr ⟨x, hx, hFound⟩, hy⟩

/-
  When no step yields anything twice, and no two steps yield
  the same, nothing is yielded twice.
-/
theorem nodup_flatten_of_mapM_eq_ok
    {f : α → Except ε (List β)}
    {xs : List α}
    {lists : List (List β)}
    (hMap : xs.mapM f = .ok lists)
    (hNodup : xs.Nodup)
    (hEach : ∀ x ∈ xs, ∀ ys, f x = .ok ys → ys.Nodup)
    (hApart :
      ∀ x ∈ xs, ∀ z ∈ xs, ∀ ys zs, f x = .ok ys →
        f z = .ok zs → ∀ y ∈ ys, y ∈ zs → x = z) :
    lists.flatten.Nodup := by
  induction xs generalizing lists with
  | nil =>
      rw [List.mapM_nil] at hMap
      cases hMap
      exact List.nodup_nil
  | cons x xs ih =>
      rw [List.mapM_cons] at hMap
      rcases bind_eq_ok_iff.mp hMap with ⟨ys, hFirst, hRest⟩
      rcases bind_eq_ok_iff.mp hRest with
        ⟨others, hOthers, hEq⟩
      cases hEq
      rcases List.nodup_cons.mp hNodup with ⟨hNot, hTail⟩
      rw [List.flatten_cons, List.nodup_append]
      refine ⟨hEach x List.mem_cons_self ys hFirst, ?_, ?_⟩
      · apply ih hOthers hTail
        · intro z hz
          exact hEach z (List.mem_cons_of_mem x hz)
        · intro z hz w hw
          exact hApart z (List.mem_cons_of_mem x hz) w
            (List.mem_cons_of_mem x hw)
      · rintro y hy _ hIn rfl
        rcases (mem_flatten_of_mapM_eq_ok hOthers).mp hIn with
          ⟨z, hz, zs, hFound, hThere⟩
        have hSame := hApart x List.mem_cons_self z
          (List.mem_cons_of_mem x hz) ys zs hFirst hFound y
          hy hThere
        exact hNot (hSame ▸ hz)

/- A traversal that yields nothing found nothing anywhere. -/
theorem eq_nil_of_flatten_eq_nil
    {f : α → Except ε (List β)}
    {xs : List α}
    {lists : List (List β)}
    (hMap : xs.mapM f = .ok lists)
    (hNone : lists.flatten = [])
    {x : α}
    (hx : x ∈ xs) :
    f x = .ok [] := by
  rcases succeeds_of_mapM_eq_ok hMap hx with ⟨ys, hFound⟩
  have hMem := (mem_of_mapM_eq_ok hMap).mpr ⟨x, hx, hFound⟩
  rw [hFound, List.flatten_eq_nil_iff.mp hNone ys hMem]

/- What a traversal looks up can be read off its values. -/
theorem map_eq_of_mapM_eq_ok
    {f : α → Except ε β}
    {g : β → α}
    {xs : List α}
    {ys : List β}
    (hMap : xs.mapM f = .ok ys)
    (hBack : ∀ x y, f x = .ok y → g y = x) :
    ys.map g = xs := by
  induction xs generalizing ys with
  | nil =>
      rw [List.mapM_nil] at hMap
      cases hMap
      rfl
  | cons x xs ih =>
      rcases List.forall₂_cons_left_iff.mp
          (mapM_eq_ok_iff.mp hMap) with
        ⟨y, rest, hHead, hTail, rfl⟩
      rw [List.map_cons, hBack x y hHead,
        ih (mapM_eq_ok_iff.mpr hTail)]

/-
  Of related elements, one traversal yields at each step part
  of what the other one yields.
-/
theorem flatten_mapM_sublist
    {related : α → β → Prop}
    {f : α → Except ε (List γ)}
    {g : β → Except ε (List γ)}
    {xs : List α}
    {ys : List β}
    (hPairs : List.Forall₂ related xs ys)
    (hEach :
      ∀ x y, related x y → ∀ old new,
        f x = .ok old → g y = .ok new → new.Sublist old)
    {olds news : List (List γ)}
    (hOlds : xs.mapM f = .ok olds)
    (hNews : ys.mapM g = .ok news) :
    news.flatten.Sublist olds.flatten := by
  induction hPairs generalizing olds news with
  | nil =>
      rw [List.mapM_nil] at hNews
      cases hNews
      exact List.nil_sublist _
  | cons hHead _ ih =>
      rcases List.forall₂_cons_left_iff.mp
          (mapM_eq_ok_iff.mp hOlds) with
        ⟨old, oldRest, hOld, hOldRest, rfl⟩
      rcases List.forall₂_cons_left_iff.mp
          (mapM_eq_ok_iff.mp hNews) with
        ⟨new, newRest, hNew, hNewRest, rfl⟩
      rw [List.flatten_cons, List.flatten_cons]
      exact (hEach _ _ hHead old new hOld hNew).append
        (ih (mapM_eq_ok_iff.mpr hOldRest)
          (mapM_eq_ok_iff.mpr hNewRest))

/- A traversal succeeds where every single lookup does. -/
theorem mapM_succeeds
    {f : α → Except ε β}
    {xs : List α}
    (hEach : ∀ x ∈ xs, Succeeds (f x)) :
    Succeeds (xs.mapM f) := by
  induction xs with
  | nil => exact succeeds_pure []
  | cons x xs ih =>
      rw [List.mapM_cons]
      refine (hEach x List.mem_cons_self).bind ?_
      intro y _
      exact (ih (fun z hz =>
        hEach z (List.mem_cons_of_mem x hz))).map _

theorem filterMapM_succeeds
    {f : α → Except ε (Option β)}
    {xs : List α}
    (hEach : ∀ x ∈ xs, Succeeds (f x)) :
    Succeeds (xs.filterMapM f) := by
  induction xs with
  | nil => exact succeeds_pure []
  | cons x xs ih =>
      rw [List.filterMapM_cons]
      have hRest := ih (fun z hz =>
        hEach z (List.mem_cons_of_mem x hz))
      refine (hEach x List.mem_cons_self).bind ?_
      intro found _
      cases found with
      | none => exact hRest
      | some y => exact hRest.map _

theorem exists_of_mem_filterMapM
    {f : α → Except ε (Option β)}
    {xs : List α}
    {ys : List β}
    (hMap : xs.filterMapM f = .ok ys)
    {y : β}
    (hMem : y ∈ ys) :
    ∃ x ∈ xs, f x = .ok (some y) := by
  induction xs generalizing ys with
  | nil =>
      rw [List.filterMapM_nil] at hMap
      cases hMap
      cases hMem
  | cons x xs ih =>
      rw [List.filterMapM_cons] at hMap
      rcases bind_eq_ok_iff.mp hMap with
        ⟨found, hFound, hRest⟩
      cases found with
      | none =>
          rcases ih hRest hMem with ⟨z, hz, hHere⟩
          exact ⟨z, List.mem_cons_of_mem x hz, hHere⟩
      | some first =>
          rcases bind_eq_ok_iff.mp hRest with
            ⟨rest, hTail, hEq⟩
          cases hEq
          rcases List.mem_cons.mp hMem with rfl | hLater
          · exact ⟨x, List.mem_cons_self, hFound⟩
          · rcases ih hTail hLater with ⟨z, hz, hHere⟩
            exact ⟨z, List.mem_cons_of_mem x hz, hHere⟩

/- A choice among values by a function that is looked up. -/
theorem filterM_eq_ok_filter
    {f : α → Except ε Bool}
    {keep : α → Bool}
    {xs : List α}
    (hEach : ∀ x ∈ xs, f x = .ok (keep x)) :
    xs.filterM f = .ok (xs.filter keep) := by
  have hLoop : ∀ kept,
      xs.filterAuxM f kept =
        .ok ((xs.filter keep).reverse ++ kept) := by
    induction xs with
    | nil => intro kept; rfl
    | cons x xs ih =>
        intro kept
        have hRest := ih (fun z hz =>
          hEach z (List.mem_cons_of_mem x hz))
        unfold List.filterAuxM
        apply bind_eq_ok_iff.mpr
        refine ⟨keep x, hEach x List.mem_cons_self, ?_⟩
        rw [hRest]
        cases hKeep : keep x <;> simp [hKeep]
  unfold List.filterM
  apply bind_eq_ok_iff.mpr
  refine ⟨_, hLoop [], ?_⟩
  rw [List.append_nil, List.reverse_reverse]
  rfl

/- What is chosen is among what was to choose from. -/
theorem mem_of_filterM_eq_ok
    {f : α → Except ε Bool}
    {xs ys : List α}
    (hFilter : xs.filterM f = .ok ys)
    {y : α}
    (hMem : y ∈ ys) :
    y ∈ xs := by
  have hLoop :
      ∀ kept zs, xs.filterAuxM f kept = .ok zs →
        y ∈ zs → y ∈ xs ∨ y ∈ kept := by
    clear hFilter
    induction xs with
    | nil =>
        intro kept zs hEq hy
        cases hEq
        exact Or.inr hy
    | cons x xs ih =>
        intro kept zs hEq hy
        unfold List.filterAuxM at hEq
        rcases bind_eq_ok_iff.mp hEq with ⟨keep, _, hRest⟩
        rcases ih _ _ hRest hy with hLater | hKept
        · exact Or.inl (List.mem_cons_of_mem x hLater)
        · cases keep with
          | false => exact Or.inr hKept
          | true =>
              rcases List.mem_cons.mp hKept with rfl | hOld
              · exact Or.inl List.mem_cons_self
              · exact Or.inr hOld
  unfold List.filterM at hFilter
  rcases bind_eq_ok_iff.mp hFilter with ⟨zs, hzs, hEq⟩
  cases hEq
  rcases hLoop [] zs hzs (List.mem_reverse.mp hMem) with
    hHere | hNone
  · exact hHere
  · cases hNone

theorem filterMapM_congr
    {f g : α → Except ε (Option β)}
    {xs : List α}
    (hEach : ∀ x ∈ xs, f x = g x) :
    xs.filterMapM f = xs.filterMapM g := by
  induction xs with
  | nil => rfl
  | cons x xs ih =>
      rw [List.filterMapM_cons, List.filterMapM_cons,
        hEach x List.mem_cons_self,
        ih (fun y hy => hEach y (List.mem_cons_of_mem x hy))]

theorem filterM_congr
    {f g : α → Except ε Bool}
    {xs : List α}
    (hEach : ∀ x ∈ xs, f x = g x) :
    xs.filterM f = xs.filterM g := by
  have hLoop : ∀ kept,
      xs.filterAuxM f kept = xs.filterAuxM g kept := by
    induction xs with
    | nil => intro kept; rfl
    | cons x xs ih =>
        intro kept
        have hRest := ih (fun z hz =>
          hEach z (List.mem_cons_of_mem x hz))
        unfold List.filterAuxM
        rw [hEach x List.mem_cons_self]
        congr 1
        funext keep
        exact hRest _
  unfold List.filterM
  rw [hLoop []]

/- What is kept of images are the images of what is kept. -/
theorem filterM_map_eq
    {f : α → Except ε Bool}
    {g : β → Except ε Bool}
    {move : α → β}
    (hEach : ∀ x, g (move x) = f x)
    (xs : List α) :
    (xs.map move).filterM g =
      List.map move <$> xs.filterM f := by
  have hLoop : ∀ kept,
      (xs.map move).filterAuxM g (kept.map move) =
        List.map move <$> xs.filterAuxM f kept := by
    induction xs with
    | nil => intro kept; rfl
    | cons x xs ih =>
        intro kept
        rw [List.map_cons]
        unfold List.filterAuxM
        rw [hEach, map_bind]
        congr 1
        funext keep
        cases keep
        · exact ih kept
        · exact ih (x :: kept)
  unfold List.filterM
  rw [← List.map_nil, hLoop []]
  simp only [bind_map_left, map_bind, map_pure,
    List.map_reverse]

theorem filterM_succeeds
    {f : α → Except ε Bool}
    {xs : List α}
    (hEach : ∀ x ∈ xs, Succeeds (f x)) :
    Succeeds (xs.filterM f) := by
  refine ⟨_, filterM_eq_ok_filter
    (fun x hx => ?_ : ∀ x ∈ xs, f x =
      .ok ((f x).toOption.getD false))⟩
  rcases hEach x hx with ⟨b, hb⟩
  rw [hb]
  rfl

------------------------------------------------------------
-- Accumulations
------------------------------------------------------------

/-
  An accumulation under an invariant: each step succeeds and
  keeps the invariant, so the whole does.
-/
theorem foldlM_succeeds_of_invariant
    {f : β → α → Except ε β}
    (inv : β → Prop)
    {xs : List α}
    (hStep : ∀ x ∈ xs, ∀ b, inv b →
      ∃ c, f b x = .ok c ∧ inv c)
    {b : β}
    (hStart : inv b) :
    ∃ c, xs.foldlM f b = .ok c ∧ inv c := by
  induction xs generalizing b with
  | nil => exact ⟨b, rfl, hStart⟩
  | cons x xs ih =>
      rcases hStep x List.mem_cons_self b hStart with
        ⟨c, hc, hInv⟩
      rcases ih (fun z hz =>
          hStep z (List.mem_cons_of_mem x hz)) hInv with
        ⟨d, hd, hLast⟩
      refine ⟨d, ?_, hLast⟩
      rw [List.foldlM_cons]
      exact bind_eq_ok_iff.mpr ⟨c, hc, hd⟩

end Lookup

end JsExport
