import JsExport.Text.BeanName
import Mathlib

/-
  Names of properties tell stems apart.

  An accessor name is a verb with a stem behind it, and can
  be read in one way only.  From a stem to the name of its
  property nothing but the first letter changes, and it
  changes or stays as the rest of the stem says.  A Latin
  letter is recovered by raising it, whether it had been
  lowered or kept for an acronym, so the property still
  shows its stem.  Other letters can be lost: a Kelvin sign
  and a capital K have the same small letter.

  Main declarations:
    * `BeanName.split?_eq_some_iff`
    * `BeanName.capitalize_uncapitalize`
    * `BeanName.property_eq_iff_stem_eq`
-/

namespace JsExport

------------------------------------------------------------
-- Latin Letters
------------------------------------------------------------

theorem CodeRun.holds_iff
    {r : CodeRun}
    {code : Nat} :
    r.holds code ↔
      r.first ≤ code ∧ code ≤ r.last ∧
        (code - r.first) % r.step = 0 := by
  unfold holds
  simp only [Bool.and_eq_true, decide_eq_true_eq,
    beq_iff_eq, and_assoc]

namespace Letter

variable {c : Char}

theorem isUpper_iff :
    c.isUpper ↔ 0x41 ≤ c.toNat ∧ c.toNat ≤ 0x5A := by
  simp [Char.isUpper, UInt32.le_iff_toNat_le]

theorem isLower_iff :
    c.isLower ↔ 0x61 ≤ c.toNat ∧ c.toNat ≤ 0x7A := by
  simp [Char.isLower, UInt32.le_iff_toNat_le]

/- All runs but the first lie beyond the Latin letters. -/
theorem lt_first_of_mem_tail :
    ∀ r ∈ uppercaseRuns.tail, 0x7A < r.first := by
  decide +kernel

/- A Latin letter is uppercase only as a Latin capital. -/
theorem isUpper_of_isUppercase
    (hCapital : isUppercase c)
    (hLatin : c.isAlpha) :
    c.isUpper := by
  rcases Bool.or_eq_true_iff.mp hLatin with hUpper | hLower
  · exact hUpper
  · have hCode := isLower_iff.mp hLower
    rcases List.any_eq_true.mp hCapital with
      ⟨r, hMem, hHolds⟩
    have hWithin := CodeRun.holds_iff.mp hHolds
    rcases List.mem_cons.mp hMem with hFirst | hOther
    · have hLast : r.last = 0x5A := by rw [hFirst]
      omega
    · have hBeyond := lt_first_of_mem_tail r hOther
      omega

/- A Latin capital has one small letter, the Latin one. -/
theorem lowercase_of_isUpper
    (hUpper : c.isUpper) :
    lowercase c = [c.toLower] := by
  have hCode := isUpper_iff.mp hUpper
  have hHolds :
      (⟨0x41, 0x5A, 1⟩ : CodeRun).holds c.toNat :=
    CodeRun.holds_iff.mpr
      ⟨hCode.1, hCode.2, Nat.mod_one _⟩
  have hFind :
      lowercaseRuns.find? (fun r => r.run.holds c.toNat) =
        some ⟨⟨0x41, 0x5A, 1⟩, 32⟩ :=
    List.find?_cons_of_pos hHolds
  unfold lowercase
  rw [if_neg (by omega), hFind,
    Char.toLower_eq_of_isUpper hUpper]
  rfl

end Letter

namespace BeanName

------------------------------------------------------------
-- Verbs And Stems
------------------------------------------------------------

theorem after?_eq_some_iff
    {start text rest : List Char} :
    after? start text = some rest ↔
      text = start ++ rest := by
  induction start generalizing text with
  | nil => simp [after?]
  | cons c cs ih =>
      cases text with
      | nil => simp [after?]
      | cons t ts =>
          by_cases hSame : c = t
          · subst hSame
            simp [after?, ih]
          · simp [after?, hSame, Ne.symm hSame]

theorem stem?_eq_some_iff
    {verb : Verb}
    {name stem : List Char} :
    stem? verb name = some stem ↔
      name = verb.letters ++ stem ∧
        stem.head?.any Letter.isUppercase := by
  unfold stem?
  rw [Option.filter_eq_some_iff, after?_eq_some_iff]

/- No verb is the beginning of another one. -/
theorem stem?_letters_append
    {verb other : Verb}
    (hOther : other ≠ verb)
    (stem : List Char) :
    stem? other (verb.letters ++ stem) = none := by
  cases verb <;> cases other <;>
    first
    | rfl
    | exact absurd rfl hOther

/-
  The accessor names are the verbs with a stem that starts
  with a capital, and each is split where its verb ends.
-/
theorem split?_eq_some_iff
    {name stem : String}
    {verb : Verb} :
    split? name = some (verb, stem) ↔
      name.toList = verb.letters ++ stem.toList ∧
        stem.toList.head?.any Letter.isUppercase := by
  rw [← stem?_eq_some_iff]
  constructor
  · intro hSplit
    rcases List.exists_of_findSome?_eq_some hSplit with
      ⟨found, _, hFound⟩
    rcases Option.map_eq_some_iff.mp hFound with
      ⟨rest, hStem, hPair⟩
    cases hPair
    rw [String.toList_ofList]
    exact hStem
  · intro hStem
    have hName := (stem?_eq_some_iff.mp hStem).1
    have hOthers :
        ∀ other ≠ verb, stem? other name.toList = none := by
      intro other hOther
      rw [hName]
      exact stem?_letters_append hOther stem.toList
    have hFound :
        (stem? verb name.toList).map
            (fun rest => (verb, String.ofList rest)) =
          some (verb, stem) := by
      rw [hStem, Option.map_some, String.ofList_toList]
    unfold split?
    cases verb with
    | get =>
        rw [List.findSome?_cons, hFound]
    | is =>
        rw [List.findSome?_cons, hOthers .get (by decide),
          List.findSome?_cons, hFound]
        rfl
    | set =>
        rw [List.findSome?_cons, hOthers .get (by decide),
          List.findSome?_cons, hOthers .is (by decide),
          List.findSome?_cons, hFound]
        rfl

------------------------------------------------------------
-- Stems Of Properties
------------------------------------------------------------

/- A text with a capital first letter, if it is Latin. -/
def capitalize
    (text : String) : String :=
  String.ofList (text.toList.modifyHead Char.toUpper)

/-
  What follows a Latin capital stays as it is, and raising
  the new first letter gives the capital back.
-/
theorem uncapitalizeChars_cons
    {c : Char}
    (hUpper : c.isUpper)
    (cs : List Char) :
    ∃ d, uncapitalizeChars (c :: cs) = d :: cs ∧
      d.toUpper = c := by
  have hKept : c.toUpper = c :=
    Char.toUpper_eq_of_not_isLower
      (Char.not_isLower_of_isUpper hUpper)
  by_cases hAcronym :
      Letter.isUppercase c &&
        cs.head?.any Letter.isUppercase
  · exact ⟨c, if_pos hAcronym, hKept⟩
  · refine ⟨c.toLower, ?_, ?_⟩
    · rw [uncapitalizeChars, if_neg hAcronym,
        Letter.lowercase_of_isUpper hUpper,
        List.singleton_append]
    · rw [Char.toUpper_toLower_eq_toUpper, hKept]

/- Capitalizing a property gives its stem. -/
theorem capitalize_uncapitalize
    {stem : String}
    (hUpper : stem.toList.head?.any Char.isUpper) :
    capitalize (uncapitalize stem) = stem := by
  unfold capitalize uncapitalize
  rw [String.toList_ofList]
  cases hStem : stem.toList with
  | nil =>
      rw [hStem] at hUpper
      cases hUpper
  | cons c cs =>
      rw [hStem] at hUpper
      rcases uncapitalizeChars_cons hUpper cs with
        ⟨d, hProperty, hRaised⟩
      rw [hProperty, List.modifyHead_cons, hRaised, ← hStem,
        String.ofList_toList]

section Accessors

variable {name stem : String}
variable {verb : Verb}
variable (hSplit : split? name = some (verb, stem))

include hSplit

theorem property_eq_uncapitalize :
    property name = uncapitalize stem := by
  unfold property
  rw [hSplit]

/- The property of an accessor shows the stem of its name. -/
theorem capitalize_property
    (hLatin : stem.toList.head?.any Char.isAlpha) :
    capitalize (property name) = stem := by
  have hCapital := (split?_eq_some_iff.mp hSplit).2
  have hUpper : stem.toList.head?.any Char.isUpper := by
    cases hStem : stem.toList with
    | nil =>
        rw [hStem] at hLatin
        cases hLatin
    | cons c cs =>
        rw [hStem] at hCapital hLatin
        exact Letter.isUpper_of_isUppercase hCapital hLatin
  rw [property_eq_uncapitalize hSplit,
    capitalize_uncapitalize hUpper]

end Accessors

/-
  Two accessors, whatever their verbs, are accessors of one
  property exactly if their names have the same stem.
-/
theorem property_eq_iff_stem_eq
    {name₁ name₂ stem₁ stem₂ : String}
    {verb₁ verb₂ : Verb}
    (hSplit₁ : split? name₁ = some (verb₁, stem₁))
    (hSplit₂ : split? name₂ = some (verb₂, stem₂))
    (hLatin₁ : stem₁.toList.head?.any Char.isAlpha)
    (hLatin₂ : stem₂.toList.head?.any Char.isAlpha) :
    property name₁ = property name₂ ↔ stem₁ = stem₂ := by
  constructor
  · intro hProperty
    calc
      stem₁ = capitalize (property name₁) :=
        (capitalize_property hSplit₁ hLatin₁).symm
      _ = capitalize (property name₂) := by rw [hProperty]
      _ = stem₂ := capitalize_property hSplit₂ hLatin₂
  · intro hStem
    rw [property_eq_uncapitalize hSplit₁,
      property_eq_uncapitalize hSplit₂, hStem]

/-
  A façade is read and written as one property, and with a
  second capital in its name it is another one.
-/
theorem facade_read_and_written_as_one :
    split? "getFaçade" = some (.get, "Façade") ∧
      split? "setFaçade" = some (.set, "Façade") ∧
        split? "isFAçade" = some (.is, "FAçade") ∧
          property "getFaçade" = property "setFaçade" ∧
            property "getFaçade" ≠ property "isFAçade" := by
  have hGet : split? "getFaçade" = some (.get, "Façade") :=
    split?_eq_some_iff.mpr (by decide +kernel)
  have hSet : split? "setFaçade" = some (.set, "Façade") :=
    split?_eq_some_iff.mpr (by decide +kernel)
  have hIs : split? "isFAçade" = some (.is, "FAçade") :=
    split?_eq_some_iff.mpr (by decide +kernel)
  refine ⟨hGet, hSet, hIs, ?_, ?_⟩
  · have hIff := property_eq_iff_stem_eq hGet hSet
      (by decide +kernel) (by decide +kernel)
    exact hIff.mpr rfl
  · have hIff := property_eq_iff_stem_eq hGet hIs
      (by decide +kernel) (by decide +kernel)
    intro hProperty
    exact absurd (hIff.mp hProperty) (by decide)

/- The Kelvin sign is a capital whose small letter is k. -/
example :
    property "getKilo" = property "get\u212ailo" := by
  decide +kernel

end BeanName

end JsExport
