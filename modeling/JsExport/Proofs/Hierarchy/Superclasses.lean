import JsExport.Proofs.Hierarchy.Nearest

/-
  The superclasses of a type stand in one line.

  A type extends at most one class, so the same number of
  steps from class to class leads to the same place.  Above
  an interface there are interfaces only: whatever else a
  type inherits from is in the line of its superclasses, and
  of two types in it the farther one is above the nearer.

  Main declarations:
    * `Supertypes.superclass`
    * `StepsAbove.exists_between`
    * `Superclasses.eq_or_inherits_of_le`
    * `Program.Sound.exists_stepsAbove_superclass`
-/

namespace JsExport

open Supertypes

------------------------------------------------------------
-- Ways Up And Their Parts
------------------------------------------------------------

namespace StepsAbove

variable {supertypes : TypeId → List TypeId}
variable {t a : TypeId}

/- Where more leads up, the same ways and more lead up. -/
theorem mono
    {others : TypeId → List TypeId}
    (hMore : ∀ s, supertypes s ⊆ others s)
    {n : Nat}
    (hSteps : StepsAbove supertypes t n a) :
    StepsAbove others t n a := by
  induction hSteps with
  | here => exact .here
  | up _ hSuper ih => exact .up ih (hMore _ hSuper)

/- A way up can be interrupted after any number of steps. -/
theorem exists_between
    {i j : Nat}
    (hSteps : StepsAbove supertypes t (i + j) a) :
    ∃ s, StepsAbove supertypes t i s ∧
      StepsAbove supertypes s j a := by
  induction j generalizing a with
  | zero => exact ⟨a, hSteps, .here⟩
  | succ j ih =>
      rcases stepsAbove_succ_iff.mp hSteps with
        ⟨b, hBelow, hSuper⟩
      rcases ih hBelow with ⟨s, hLow, hHigh⟩
      exact ⟨s, hLow, .up hHigh hSuper⟩

end StepsAbove

------------------------------------------------------------
-- The Line Of Superclasses
------------------------------------------------------------

/- The class that a type extends, if it extends one. -/
def Supertypes.superclass
    (types : List TypeDecl)
    (t : TypeId) : List TypeId :=
  (types[t]?.bind (fun d => d.superClass)).toList

namespace Superclasses

variable {types : List TypeDecl}
variable {t a b : TypeId}

theorem mem_superclass_iff :
    a ∈ superclass types t ↔
      ∃ d, types[t]? = some d ∧ d.superClass = some a := by
  unfold superclass
  rw [Option.mem_toList, Option.bind_eq_some_iff]

theorem superclass_subset_ofTypes
    (t : TypeId) :
    superclass types t ⊆ ofTypes types t := by
  intro a ha
  rcases mem_superclass_iff.mp ha with ⟨d, hDecl, hSuper⟩
  apply mem_ofTypes_iff.mpr
  refine ⟨d, hDecl, ?_⟩
  exact List.mem_append_left _ (Option.mem_toList.mpr hSuper)

/- So many steps lead to one superclass at most. -/
theorem eq_of_stepsAbove
    {n : Nat}
    (ha : StepsAbove (superclass types) t n a)
    (hb : StepsAbove (superclass types) t n b) :
    a = b := by
  induction n generalizing a b with
  | zero =>
      rw [stepsAbove_zero_iff.mp ha,
        stepsAbove_zero_iff.mp hb]
  | succ n ih =>
      rcases stepsAbove_succ_iff.mp ha with
        ⟨s, hLow, hSuper⟩
      rcases stepsAbove_succ_iff.mp hb with
        ⟨u, hLow', hSuper'⟩
      rw [← ih hLow hLow'] at hSuper'
      rcases mem_superclass_iff.mp hSuper with
        ⟨d, hDecl, hAbove⟩
      rcases mem_superclass_iff.mp hSuper' with
        ⟨e, hDecl', hAbove'⟩
      cases hDecl.symm.trans hDecl'
      exact Option.some.inj (hAbove.symm.trans hAbove')

/- What is in the line is the type or is inherited from. -/
theorem eq_or_inherits
    {n : Nat}
    (hSteps : StepsAbove (superclass types) t n a) :
    a = t ∨ Inherits types t a :=
  eq_or_inherits_iff_stepsAbove.mpr
    ⟨n, hSteps.mono superclass_subset_ofTypes⟩

/- Of two types in the line, the farther one is above. -/
theorem eq_or_inherits_of_le
    {i j : Nat}
    (ha : StepsAbove (superclass types) t i a)
    (hb : StepsAbove (superclass types) t j b)
    (hLe : i ≤ j) :
    b = a ∨ Inherits types a b := by
  rcases Nat.exists_eq_add_of_le hLe with ⟨k, rfl⟩
  rcases hb.exists_between with ⟨s, hLow, hHigh⟩
  rw [eq_of_stepsAbove hLow ha] at hHigh
  exact eq_or_inherits hHigh

end Superclasses

------------------------------------------------------------
-- Classes Among The Ancestors
------------------------------------------------------------

namespace Program.Sound

variable {p : Program}
variable (hSound : p.Sound)

include hSound

/- What is no interface has no interface below it. -/
theorem not_isInterface_of_inherits
    {s t : TypeNode}
    (hs : p.HasType s)
    (ht : p.HasType t)
    (hInherits : Inherits p.types t.id s.id)
    (hCode : s.decl.isInterface = false) :
    t.decl.isInterface = false := by
  apply Bool.eq_false_iff.mpr
  intro hInterface
  have hAbove := hSound.isInterface_of_inherits hInherits
    ht hs hInterface
  rw [hCode] at hAbove
  cases hAbove

/- What is inherited, and no interface, is in the line. -/
theorem exists_stepsAbove_superclass
    {t a : TypeId}
    {d above : TypeDecl}
    (hType : p.types[t]? = some d)
    (hAbove : p.types[a]? = some above)
    (hCode : above.isInterface = false)
    (hLow : a = t ∨ Inherits p.types t a) :
    ∃ n, StepsAbove (superclass p.types) t n a := by
  rcases hLow with rfl | hInherits
  · exact ⟨0, .here⟩
  -- Every step but the last must avoid interfaces too.
  have hStep :
      ∀ t s : TypeId, s ∈ ofTypes p.types t →
        (∀ e, p.types[s]? = some e →
          e.isInterface = false) →
          s ∈ superclass p.types t := by
    intro t s hs hNot
    rcases mem_ofTypes_iff.mp hs with ⟨d, hDecl, hSuper⟩
    rcases List.mem_append.mp hSuper with hClass | hListed
    · exact Superclasses.mem_superclass_iff.mpr
        ⟨d, hDecl, Option.mem_toList.mp hClass⟩
    · rcases hSound.wellFormed.interfaces d
          (List.mem_of_getElem? hDecl) s hListed with
        ⟨e, hFound, hInterface⟩
      rw [hNot e hFound] at hInterface
      cases hInterface
  induction hInherits generalizing d with
  | direct hSuper =>
      refine ⟨1, .up .here (hStep _ _ hSuper ?_)⟩
      intro e hFound
      cases hAbove.symm.trans hFound
      exact hCode
  | @above t s a hSuper hHigh ih =>
      have hDecl : p.types[s]? = some _ :=
        List.getElem?_eq_getElem hHigh.lt_length
      have hClass := hStep t s hSuper (by
        intro e hFound
        exact hSound.not_isInterface_of_inherits
          (s := ⟨a, above⟩) (t := ⟨s, e⟩) hAbove hFound
          hHigh hCode)
      rcases ih hDecl hAbove with ⟨n, hSteps⟩
      exact ⟨n + 1, hSteps.above hClass⟩

end Program.Sound

end JsExport
