import JsExport.Proofs.Hierarchy.Ancestry
import Mathlib.Data.List.Nodup

/-
  What a hierarchy tells of its types.

  A list of types has a hierarchy when no supertype is
  unknown and the walk up the supertypes meets no cycle.  In
  the order of such a hierarchy every type comes after all
  that it inherits from, so no type inherits from itself.

  Main declarations:
    * `Hierarchy.Orders` and `Hierarchy.Fits`
    * `Hierarchy.fits_of_ofTypes?_eq_ok`
    * `Hierarchy.Fits.isAncestor_iff`
    * `Hierarchy.Fits.mem_ancestry_iff`
-/

namespace JsExport

open Supertypes

------------------------------------------------------------
-- Supertypes And Subtypes
------------------------------------------------------------

/- The supertypes of a type are those it declares. -/
theorem Supertypes.mem_ofTypes_iff
    {types : List TypeDecl}
    {t s : TypeId} :
    s ∈ ofTypes types t ↔
      ∃ d, types[t]? = some d ∧ s ∈ d.supertypes := by
  unfold ofTypes
  cases types[t]? with
  | none => simp
  | some d => simp

/- Subtypes are the types that have a type above them. -/
theorem Supertypes.mem_subtypes_iff
    {types : List TypeDecl}
    {t s : TypeId} :
    s ∈ subtypes types t ↔ t ∈ ofTypes types s := by
  unfold subtypes
  rw [mem_ofTypes_iff, List.mem_map]
  constructor
  · rintro ⟨⟨d, u⟩, hMem, rfl⟩
    have hFilter := List.mem_filter.mp hMem
    exact ⟨d, List.mk_mem_zipIdx_iff_getElem?.mp hFilter.1,
      of_decide_eq_true hFilter.2⟩
  · rintro ⟨d, hDecl, hSuper⟩
    refine ⟨(d, s), List.mem_filter.mpr ⟨?_, ?_⟩, rfl⟩
    · exact List.mk_mem_zipIdx_iff_getElem?.mpr hDecl
    · exact decide_eq_true hSuper

/- What is inherited from has a declaration as well. -/
theorem Inherits.target_lt_length
    {types : List TypeDecl}
    (hClosed : Closed (ofTypes types) types.length)
    {t a : TypeId}
    (hInherits : Inherits types t a) :
    a < types.length := by
  induction hInherits with
  | direct hSuper =>
      exact hClosed _ (Inherits.direct hSuper).lt_length _
        hSuper
  | above _ _ ih => exact ih

namespace Hierarchy

/- No supertype is unknown when all lie among the types. -/
theorem strays_eq_nil_iff
    (types : List TypeDecl) :
    strays types = [] ↔
      Closed (ofTypes types) types.length := by
  unfold strays Closed
  rw [List.flatMap_eq_nil_iff]
  constructor
  · intro hNone t _ s hs
    rcases mem_ofTypes_iff.mp hs with ⟨d, hDecl, hSuper⟩
    have hFilter :=
      List.map_eq_nil_iff.mp
        (hNone d (List.mem_of_getElem? hDecl))
    have hNot := List.filter_eq_nil_iff.mp hFilter s hSuper
    simpa using hNot
  · intro hClosed d hd
    rcases List.mem_iff_getElem?.mp hd with ⟨t, ht⟩
    rw [List.map_eq_nil_iff, List.filter_eq_nil_iff]
    intro s hs
    have hLt := hClosed t
      (List.getElem?_eq_some_iff.mp ht).1 s
      (mem_ofTypes_iff.mpr ⟨d, ht, hs⟩)
    simpa using hLt

/- When a list of types has a hierarchy, and which one. -/
theorem ofTypes?_eq_ok_iff
    {types : List TypeDecl}
    {h : Hierarchy} :
    ofTypes? types = .ok h ↔
      Closed (ofTypes types) types.length ∧
        Walk.cyclic? (ofTypes types) (Supertypes.subtypes types)
            (Walk.all (ofTypes types) types.length) =
          none ∧
        h = ofKnown types
          (Walk.all (ofTypes types) types.length).left := by
  rw [← strays_eq_nil_iff]
  unfold ofTypes?
  cases hStrays : strays types with
  | cons defect rest => simp
  | nil =>
      cases hCycle :
          Walk.cyclic? (ofTypes types) (Supertypes.subtypes types)
            (Walk.all (ofTypes types) types.length) with
      | some t => simp [hCycle]
      | none => simp [hCycle, eq_comm]

------------------------------------------------------------
-- Hierarchies That Fit
------------------------------------------------------------

/-
  That a list has every type once, behind all that it
  inherits from.
-/
structure Orders
    (types : List TypeDecl)
    (order : List TypeId) : Prop where
  mem_iff : ∀ t, t ∈ order ↔ t < types.length
  nodup : order.Nodup
  above_first :
    ∀ before t after, order = before ++ t :: after →
      ∀ a, Inherits types t a → a ∈ before

/-
  That a hierarchy tells the truth of a list of types: its
  order has supertypes first, and its ancestries are those
  of the types.
-/
structure Fits
    (types : List TypeDecl)
    (h : Hierarchy) : Prop where
  closed : Closed (ofTypes types) types.length
  orders : Orders types h.order
  ancestry_eq :
    ∀ t < types.length,
      h.ancestry t =
        Supertypes.ancestry (ofTypes types)
          types.length t
  ancestry_of_le :
    ∀ t, types.length ≤ t → h.ancestry t = []

/- A list without repetitions has one place for a value. -/
theorem not_mem_of_nodup_split
    {ts before after : List TypeId}
    {t : TypeId}
    (hNodup : ts.Nodup)
    (hSplit : ts = before ++ t :: after) :
    t ∉ before ∧ t ∉ after := by
  rw [hSplit] at hNodup
  have hMiddle := List.nodup_middle.mp hNodup
  have hNot := (List.nodup_cons.mp hMiddle).1
  exact ⟨fun hIn => hNot (List.mem_append_left _ hIn),
    fun hIn => hNot (List.mem_append_right _ hIn)⟩

/-
  Where all supertypes come first, all that is inherited
  from comes first.
-/
theorem mem_of_supertypes_first
    {types : List TypeDecl}
    {order : List TypeId}
    (hFirst :
      ∀ before t after, order = before ++ t :: after →
        ∀ s ∈ ofTypes types t, s ∈ before)
    {t a : TypeId}
    (hInherits : Inherits types t a) :
    ∀ before after, order = before ++ t :: after →
      a ∈ before := by
  induction hInherits with
  | direct hSuper =>
      intro before after hSplit
      exact hFirst before _ after hSplit _ hSuper
  | @above t s a hSuper _ ih =>
      intro before after hSplit
      have hIn := hFirst before t after hSplit s hSuper
      rcases List.append_of_mem hIn with ⟨low, high, rfl⟩
      have hFirst := ih low (high ++ t :: after)
        (by rw [hSplit]; simp)
      exact List.mem_append_left _ hFirst

section Cycles

variable {types : List TypeDecl}
variable (hClosed : Closed (ofTypes types) types.length)
variable (hNone :
  Walk.cyclic? (ofTypes types) (Supertypes.subtypes types)
    (Walk.all (ofTypes types) types.length) = none)

include hClosed hNone

/- No type of a walk without cycles is its own supertype. -/
private theorem not_mem_ofTypes_self
    (t : TypeId) :
    t ∉ ofTypes types t := by
  intro hSelf
  have hFind := (Option.or_eq_none_iff.mp hNone).1
  have hAll := List.find?_eq_none.mp hFind
  have hLt : t < types.length :=
    (Inherits.direct hSelf).lt_length
  have hEntered :=
    (Walk.entered_perm_left_all hClosed).mem_iff.mpr
      ((Walk.mem_left_all_iff hClosed t).mpr hLt)
  exact hAll t hEntered (decide_eq_true hSelf)

/- A walk without cycles leaves supertypes first. -/
private theorem supertype_mem_before
    {before after : List TypeId}
    {t s : TypeId}
    (hSplit :
      (Walk.all (ofTypes types) types.length).left =
        before ++ t :: after)
    (hSuper : s ∈ ofTypes types t) :
    s ∈ before := by
  have hNodup := Walk.nodup_left_all hClosed
  have hMem :
      s ∈ (Walk.all (ofTypes types) types.length).left :=
    (Walk.mem_left_all_iff hClosed s).mpr
      (hClosed t (Inherits.direct hSuper).lt_length
        s hSuper)
  rw [hSplit] at hMem
  rcases List.mem_append.mp hMem with hBefore | hRest
  · exact hBefore
  · rcases List.mem_cons.mp hRest with rfl | hAfter
    · exact absurd hSuper
        (not_mem_ofTypes_self hClosed hNone s)
    · -- A supertype left later would have its subtype
      -- before it in the reversed list, a second time.
      rcases List.append_of_mem hAfter with ⟨low, high, rfl⟩
      have hPlaced :=
        (Walk.misplaced?_eq_none_iff (Supertypes.subtypes types) []
          _).mp (Option.or_eq_none_iff.mp hNone).2
      have hReverse :
          (Walk.all (ofTypes types)
              types.length).left.reverse =
            high.reverse ++
              s :: (low.reverse ++ t :: before.reverse) := by
        rw [hSplit]
        simp
      rcases hPlaced _ _ _ hReverse t
          (mem_subtypes_iff.mpr hSuper) with
        hIn | hIn | hSame
      · simp at hIn
      · have hNot := (not_mem_of_nodup_split hNodup
          hSplit).2
        exact absurd (List.mem_append_right low
          (List.mem_cons_of_mem s
            (List.mem_reverse.mp hIn))) hNot
      · rw [hSame] at hSuper
        exact absurd hSuper
          (not_mem_ofTypes_self hClosed hNone s)

end Cycles

/- A hierarchy that is found fits its types. -/
theorem fits_of_ofTypes?_eq_ok
    {types : List TypeDecl}
    {h : Hierarchy}
    (hOk : ofTypes? types = .ok h) :
    Fits types h := by
  rcases ofTypes?_eq_ok_iff.mp hOk with
    ⟨hClosed, hNone, rfl⟩
  have hOrders :
      Orders types
        (Walk.all (ofTypes types) types.length).left := by
    constructor
    · exact Walk.mem_left_all_iff hClosed
    · exact Walk.nodup_left_all hClosed
    · intro before t after hSplit a hInherits
      exact mem_of_supertypes_first
        (fun _ _ _ hHere _ hSuper =>
          supertype_mem_before hClosed hNone hHere hSuper)
        hInherits before after hSplit
  constructor
  · exact hClosed
  · exact hOrders
  · intro t hLt
    unfold Hierarchy.ancestry ofKnown
    rw [List.getElem?_map, List.getElem?_range hLt]
    rfl
  · intro t hLe
    unfold Hierarchy.ancestry ofKnown
    rw [List.getElem?_eq_none (by simpa using hLe)]
    rfl

/- The subtypes of a type are those that list it. -/
theorem mem_subtypes_iff_of_ofTypes?
    {types : List TypeDecl}
    {h : Hierarchy}
    (hOk : ofTypes? types = .ok h)
    (t s : TypeId) :
    s ∈ h.subtypes t ↔ t ∈ ofTypes types s := by
  rcases ofTypes?_eq_ok_iff.mp hOk with ⟨hClosed, _, rfl⟩
  unfold subtypes ofKnown
  dsimp only
  rw [List.getElem?_map]
  by_cases hLt : t < types.length
  · rw [List.getElem?_range hLt]
    exact mem_subtypes_iff
  · rw [List.getElem?_eq_none (by simpa using hLt)]
    constructor
    · intro hNone
      cases hNone
    · intro hSuper
      have hBelow : s < types.length :=
        (Inherits.direct hSuper).lt_length
      exact absurd (hClosed s hBelow t hSuper) hLt

namespace Orders

variable {types : List TypeDecl}
variable {order : List TypeId}
variable (hOrders : Orders types order)

include hOrders

/- Where supertypes come first no type is above itself. -/
theorem acyclic :
    Acyclic types := by
  intro t hSelf
  have hMem := (hOrders.mem_iff t).mpr hSelf.lt_length
  rcases List.append_of_mem hMem with
    ⟨before, after, hSplit⟩
  exact (not_mem_of_nodup_split hOrders.nodup hSplit).1
    (hOrders.above_first before t after hSplit t hSelf)

/- No type inherits from one that comes later, or itself. -/
theorem not_inherits_of_split
    {done rest : List TypeId}
    {t u : TypeId}
    (hSplit : order = done ++ t :: rest)
    (hMem : u ∈ done ++ [t]) :
    ¬ Inherits types u t := by
  intro hInherits
  have hNot := (not_mem_of_nodup_split hOrders.nodup
    hSplit).1
  rcases List.mem_append.mp hMem with hBefore | hLast
  · rcases List.append_of_mem hBefore with ⟨low, high, rfl⟩
    have hIn := hOrders.above_first low u
      (high ++ t :: rest) (by rw [hSplit]; simp) t hInherits
    exact hNot (List.mem_append_left _ hIn)
  · rw [List.mem_singleton.mp hLast] at hInherits
    exact hOrders.acyclic t hInherits

end Orders

namespace Fits

variable {types : List TypeDecl}
variable {h : Hierarchy}
variable (hFits : Fits types h)

include hFits

theorem mem_order
    (t : TypeId) :
    t ∈ h.order ↔ t < types.length :=
  hFits.orders.mem_iff t

theorem acyclic :
    Acyclic types :=
  hFits.orders.acyclic

/- The order has every type once and nothing else. -/
theorem order_perm :
    h.order.Perm (List.range types.length) := by
  apply (List.perm_ext_iff_of_nodup hFits.orders.nodup
    List.nodup_range).mpr
  intro t
  rw [hFits.mem_order, List.mem_range]

/- The order has as many types as there are. -/
theorem length_order :
    h.order.length = types.length := by
  rw [hFits.order_perm.length_eq, List.length_range]

/- What a type inherits from has an earlier place. -/
theorem idxOf_lt_of_inherits
    {t a : TypeId}
    (hInherits : Inherits types t a) :
    h.order.idxOf a < h.order.idxOf t := by
  have hMem := (hFits.mem_order t).mpr hInherits.lt_length
  rcases List.append_of_mem hMem with
    ⟨before, after, hSplit⟩
  have hAbove := hFits.orders.above_first before t after
    hSplit a hInherits
  have hNot := (not_mem_of_nodup_split hFits.orders.nodup
    hSplit).1
  have hLow := List.idxOf_lt_length_iff.mpr hAbove
  rw [hSplit, List.idxOf_append_of_mem hAbove,
    List.idxOf_append_of_notMem hNot]
  omega

/- Types can be ranked so that what is above ranks lower. -/
theorem exists_rank :
    ∃ rank : TypeId → Nat,
      (∀ t, t < types.length → rank t < types.length) ∧
        ∀ t a, Inherits types t a → rank a < rank t := by
  refine ⟨fun t => h.order.idxOf t, ?_, fun _ _ hInherits =>
    hFits.idxOf_lt_of_inherits hInherits⟩
  intro t hLt
  rw [← hFits.length_order]
  exact List.idxOf_lt_length_iff.mpr
    ((hFits.mem_order t).mpr hLt)

/-
  Induction from above: what holds of a type when it holds of
  all that the type inherits from holds of every type.
-/
theorem induction_above
    {motive : TypeId → Prop}
    (hStep :
      ∀ t, t < types.length →
        (∀ a, Inherits types t a → motive a) → motive t) :
    ∀ t, t < types.length → motive t := by
  have hDone :
      ∀ done rest, h.order = done ++ rest →
        ∀ t ∈ done, motive t := by
    intro done
    induction done using List.reverseRecOn with
    | nil => simp
    | append_singleton done last ih =>
        intro rest hSplit t ht
        have hHere : h.order = done ++ last :: rest := by
          rw [hSplit, List.append_assoc,
            List.singleton_append]
        rcases List.mem_append.mp ht with hBefore | hLast
        · exact ih (last :: rest) hHere t hBefore
        · rw [List.mem_singleton.mp hLast]
          have hMem : last ∈ h.order := by simp [hHere]
          apply hStep last ((hFits.mem_order last).mp hMem)
          intro a hAbove
          exact ih (last :: rest) hHere a
            (hFits.orders.above_first done last rest hHere
              a hAbove)
  intro t hLt
  exact hDone h.order [] (List.append_nil _).symm t
    ((hFits.mem_order t).mpr hLt)

/- The ancestry is the type and all that it inherits from. -/
theorem mem_ancestry_iff
    {t : TypeId}
    (hLt : t < types.length)
    (a : TypeId) :
    a ∈ h.ancestry t ↔ a = t ∨ Inherits types t a := by
  rw [hFits.ancestry_eq t hLt]
  exact Supertypes.mem_ancestry_iff hFits.closed hLt a

theorem nodup_ancestry
    {t : TypeId}
    (hLt : t < types.length) :
    (h.ancestry t).Nodup := by
  rw [hFits.ancestry_eq t hLt]
  exact Supertypes.nodup_ancestry _ _

/- The strict ancestry is all that a type inherits from. -/
theorem mem_strictAncestry_iff
    (t a : TypeId) :
    a ∈ h.strictAncestry t ↔ Inherits types t a := by
  by_cases hLt : t < types.length
  · unfold strictAncestry
    rw [hFits.ancestry_eq t hLt]
    exact mem_tail_ancestry_iff hFits.closed hFits.acyclic
      hLt a
  · have hNone :=
      hFits.ancestry_of_le t (Nat.le_of_not_lt hLt)
    unfold strictAncestry
    rw [hNone]
    constructor
    · intro hMem
      cases hMem
    · intro hInherits
      exact absurd hInherits.lt_length hLt

/- Ancestors are the types that a type inherits from. -/
theorem isAncestor_iff
    (a t : TypeId) :
    h.isAncestor a t = true ↔ Inherits types t a := by
  unfold isAncestor
  rw [decide_eq_true_eq, hFits.mem_strictAncestry_iff]

end Fits

end Hierarchy

end JsExport
