import JsExport.Proofs.Hierarchy.Toposort
import JsExport.Proofs.Program.Sound

/-
  Supertypes come first in the order of a hierarchy.

  The order of a hierarchy is the one result of the search
  in two phases.  It has every type once, and a type comes
  after all that it inherits from, however long the way up
  and however many ways there are.

  Main declarations:
    * `Hierarchy.sorts_iff_of_ofTypes?`
    * `order_has_each_type_after_its_ancestors`
-/

namespace JsExport

open Supertypes

namespace Hierarchy

/- The search comes to the order of the hierarchy. -/
theorem sorts_iff_of_ofTypes?
    {types : List TypeDecl}
    {h : Hierarchy}
    (hOk : ofTypes? types = .ok h)
    (found : Except TypeId (List TypeId)) :
    Toposort.Sorts types found ↔ found = .ok h.order := by
  rcases ofTypes?_eq_ok_iff.mp hOk with
    ⟨hClosed, hNone, rfl⟩
  have hSorts := Toposort.sorts_walk hClosed
  rw [hNone] at hSorts
  constructor
  · intro hFound
    exact hFound.unique hSorts
  · rintro rfl
    exact hSorts

/- Every type has one place in the order. -/
theorem Fits.count_order
    {types : List TypeDecl}
    {h : Hierarchy}
    (hFits : Fits types h)
    (t : TypeId) :
    h.order.count t = if t < types.length then 1 else 0 := by
  rw [hFits.order_perm.count_eq, List.nodup_range.count]
  simp only [List.mem_range]

end Hierarchy

------------------------------------------------------------
-- Orders Of Hierarchies
------------------------------------------------------------

/-
  The order of a hierarchy is what the search in two phases
  comes to.  It has each type once, and each type after all
  that the type inherits from.
-/
theorem order_has_each_type_after_its_ancestors
    {types : List TypeDecl}
    {h : Hierarchy}
    (hOk : Hierarchy.ofTypes? types = .ok h) :
    (∀ found, Toposort.Sorts types found ↔
      found = .ok h.order) ∧
    (∀ t, h.order.count t =
      if t < types.length then 1 else 0) ∧
    ∀ t a, Inherits types t a →
      a ∈ h.order ∧ t ∈ h.order ∧
        h.order.idxOf a < h.order.idxOf t := by
  have hFits := Hierarchy.fits_of_ofTypes?_eq_ok hOk
  refine ⟨Hierarchy.sorts_iff_of_ofTypes? hOk,
    hFits.count_order, ?_⟩
  intro t a hInherits
  have hAbove := hInherits.target_lt_length hFits.closed
  exact ⟨(hFits.mem_order a).mpr hAbove,
    (hFits.mem_order t).mpr hInherits.lt_length,
    hFits.idxOf_lt_of_inherits hInherits⟩

/-
  A leaf is declared before the twig that it extends, and
  mentions one interface twice.  All of them are alive, in
  one way or another, and what is alive is a thing.
-/
def TypeDecl.leafOnTwig : List TypeDecl :=
  let plain (name : String) (kind : TypeKind) : TypeDecl :=
    .plain name kind .none []
  [{ plain "Leaf" .classKind with
      superClass := some 1
      interfaces := [2, 2] },
    { plain "Twig" .classKind with interfaces := [3] },
    { plain "Green" .interfaceKind with interfaces := [3] },
    { plain "Alive" .interfaceKind with interfaces := [4] },
    plain "Thing" .interfaceKind]

/- The thing comes first and the leaf last. -/
theorem leaf_comes_after_thing :
    ∃ h, Hierarchy.ofTypes? TypeDecl.leafOnTwig = .ok h ∧
      h.order = [4, 3, 1, 2, 0] ∧
      Toposort.Sorts TypeDecl.leafOnTwig
        (.ok [4, 3, 1, 2, 0]) ∧
      h.order.count 2 = 1 ∧
      Inherits TypeDecl.leafOnTwig 0 4 ∧
      h.order.idxOf 4 < h.order.idxOf 0 := by
  have hFound :
      ∃ h, Hierarchy.ofTypes? TypeDecl.leafOnTwig = .ok h :=
    ⟨_, rfl⟩
  rcases hFound with ⟨h, hOk⟩
  rcases order_has_each_type_after_its_ancestors hOk with
    ⟨hSorts, hOnce, hAfter⟩
  have hOrder : h.order = [4, 3, 1, 2, 0] := by
    have hSame :
        (Hierarchy.ofTypes?
            TypeDecl.leafOnTwig).toOption.map
          (fun h => h.order) = some [4, 3, 1, 2, 0] := by
      decide +kernel
    rw [hOk] at hSame
    exact Option.some.inj hSame
  have hInherits : Inherits TypeDecl.leafOnTwig 0 4 :=
    .above (s := 2) (by decide)
      (.above (s := 3) (by decide) (.direct (by decide)))
  refine ⟨h, hOk, hOrder, (hSorts _).mpr ?_, hOnce 2,
    hInherits, (hAfter 0 4 hInherits).2.2⟩
  rw [hOrder]

end JsExport
