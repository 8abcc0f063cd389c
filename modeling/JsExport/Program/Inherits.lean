import JsExport.Program.Hierarchy

/-
  Inheritance between types.

  A type inherits from its supertypes and from all that they
  inherit from.

  Key definitions include:
    * `Inherits`
    * `Inherits.trans`
    * `Acyclic`
-/

namespace JsExport

------------------------------------------------------------
-- Inheritance
------------------------------------------------------------

/- That one type inherits from another, in some steps. -/
inductive Inherits
    (types : List TypeDecl) : TypeId → TypeId → Prop
| direct
    {t s : TypeId}
    (hSuper : s ∈ Supertypes.ofTypes types t) :
    Inherits types t s
| above
    {t s a : TypeId}
    (hSuper : s ∈ Supertypes.ofTypes types t)
    (hAbove : Inherits types s a) :
    Inherits types t a

namespace Inherits

/- What is inherited from is inherited further. -/
theorem trans
    {types : List TypeDecl}
    {t s a : TypeId}
    (hLow : Inherits types t s)
    (hHigh : Inherits types s a) :
    Inherits types t a := by
  induction hLow with
  | direct hSuper => exact .above hSuper hHigh
  | above hSuper _ ih => exact .above hSuper (ih hHigh)

/- A type that inherits has a declaration. -/
theorem lt_length
    {types : List TypeDecl}
    {t a : TypeId}
    (hInherits : Inherits types t a) :
    t < types.length := by
  have hSuper :
      ∃ s, s ∈ Supertypes.ofTypes types t := by
    cases hInherits with
    | direct hSuper => exact ⟨_, hSuper⟩
    | above hSuper _ => exact ⟨_, hSuper⟩
  rcases hSuper with ⟨s, hs⟩
  by_cases hLt : t < types.length
  · exact hLt
  · have hNone : types[t]? = none :=
      List.getElem?_eq_none (Nat.le_of_not_lt hLt)
    simp [Supertypes.ofTypes, hNone] at hs

end Inherits

/- That no type inherits from itself. -/
def Acyclic
    (types : List TypeDecl) : Prop :=
  ∀ t, ¬ Inherits types t t

end JsExport
