import JsExport.Rules.GlobalName
import JsExport.Rules.Rename
import Mathlib.Data.List.Basic

/-
  What claims and renames are about.

  A claim of a global name is made by an exported member of
  a type, and is late when another claim of the name comes
  first.  A rename is about a slot that JavaScript sees.

  Main declarations:
    * `ExportView.filter_lateClaims`
    * `ExportView.of_mem_claims`
    * `ExportView.of_mem_slotRenames`
-/

namespace JsExport

namespace ExportView

variable {v : ExportView}
variable {t : TypeNode}

------------------------------------------------------------
-- Global Names
------------------------------------------------------------

/- What is claimed late is claimed. -/
theorem lateClaims_sublist
    (taken : List String)
    (claims : List Claim) :
    (lateClaims taken claims).Sublist claims := by
  induction claims generalizing taken with
  | nil => exact List.Sublist.refl _
  | cons c rest ih =>
      unfold lateClaims
      split
      · exact (ih taken).cons_cons c
      · exact (ih (c.name :: taken)).cons c

/- All claims of a name are late, but the first is not. -/
theorem filter_lateClaims
    (name : String)
    (taken : List String)
    (claims : List Claim) :
    (lateClaims taken claims).filter
        (fun c => decide (c.name = name)) =
      if name ∈ taken then
        claims.filter (fun c => decide (c.name = name))
      else
        (claims.filter
          (fun c => decide (c.name = name))).tail := by
  induction claims generalizing taken with
  | nil => split <;> rfl
  | cons c rest ih =>
      unfold lateClaims
      by_cases hTaken : c.name ∈ taken
      · rw [if_pos hTaken, List.filter_cons, ih,
          List.filter_cons]
        by_cases hName : c.name = name
        · subst hName
          rw [if_pos hTaken, if_pos hTaken]
        · simp only [hName, decide_false, Bool.false_eq_true,
            if_false]
      · rw [if_neg hTaken, ih, List.filter_cons]
        by_cases hName : c.name = name
        · subst hName
          rw [if_pos List.mem_cons_self, if_neg hTaken]
          simp only [decide_true, if_true, List.tail_cons]
        · have hSame :
              name ∈ c.name :: taken ↔ name ∈ taken := by
            rw [List.mem_cons, or_iff_right (Ne.symm hName)]
          simp only [hName, hSame, decide_false,
            Bool.false_eq_true, if_false]

theorem mem_declaredBy_of_mem_fieldsFirst
    {m : MemberNode}
    (hMem : m ∈ v.fieldsFirst t) :
    m ∈ v.program.declaredBy t := by
  rcases List.mem_append.mp hMem with hField | hCallable
  · exact List.mem_of_mem_filter hField
  · exact List.mem_of_mem_filter hCallable

/- A global name is claimed by an exported member. -/
theorem of_mem_claims
    {c : Claim}
    (hClaim : c ∈ v.claims) :
    (v.identity? c.member).isSome ∧
      ∃ t ∈ v.types, c.member ∈ v.program.declaredBy t := by
  rcases List.mem_flatMap.mp hClaim with ⟨t, ht, hMem⟩
  rcases List.mem_filterMap.mp hMem with ⟨m, hm, hFound⟩
  rcases Option.map_eq_some_iff.mp hFound with
    ⟨name, hName, rfl⟩
  refine ⟨?_, t, List.mem_of_mem_filter ht,
    mem_declaredBy_of_mem_fieldsFirst hm⟩
  cases hIdentity : v.identity? m with
  | some _ => rfl
  | none =>
      unfold globalName? at hName
      rw [hIdentity] at hName
      cases hName

------------------------------------------------------------
-- Renames
------------------------------------------------------------

/- A rename is one of a named slot and what it overrides. -/
theorem of_mem_slotRenames
    {slot : Slot}
    {e : Rename}
    (hMem : e ∈ v.slotRenames slot) :
    slot.identity.isSome ∧ e.slot = slot ∧
      e.other ∈ slot.overridden := by
  unfold slotRenames at hMem
  cases hIdentity : slot.identity with
  | none =>
      rw [hIdentity] at hMem
      cases hMem
  | some identity =>
      rw [hIdentity] at hMem
      rcases List.mem_map.mp hMem with ⟨n, hn, rfl⟩
      exact ⟨rfl, rfl, List.mem_of_mem_filter hn⟩

end ExportView

end JsExport
