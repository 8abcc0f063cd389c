import JsExport.Proofs.Listing.Stable
import JsExport.Report.Log
import Mathlib.Data.String.Basic

/-
  What a log keeps.

  However a log is made, it has been told of an error when,
  and only when, an error is among its entries.  Sorting it
  puts the entries in order of their places and leaves those
  of one place as they were, and there is one way to do so.

  Main declarations:
    * `Diagnostic.Arranges` and `Diagnostic.Arranges.unique`
    * `Log.arranges_sort` and `Log.sort_sort`
    * `Log.Made` and `Log.made_iff`
-/

namespace JsExport

------------------------------------------------------------
-- The Order Of Reports
------------------------------------------------------------

namespace Diagnostic

/- Reports are compared by file, then line, then rank. -/
theorem before_eq_true_iff
    {d e : Diagnostic} :
    d.before e = true ↔
      d.file ≤ e.file ∧
        (d.file = e.file →
          d.span.line ≤ e.span.line ∧
            (d.span.line = e.span.line →
              d.rule.rank ≤ e.rule.rank)) := by
  unfold before
  by_cases hFile : d.file = e.file
  · by_cases hLine : d.span.line = e.span.line
    · simp [hFile, hLine]
    · simp [hFile, hLine]
  · simp [hFile]

instance before_total :
    Std.Total (fun d e : Diagnostic =>
      d.before e = true) where
  total d e := by
    rw [before_eq_true_iff, before_eq_true_iff]
    by_cases hFile : d.file = e.file
    · rw [hFile]
      simp only [String.le_refl, true_and, forall_const]
      omega
    · rcases String.le_total d.file e.file with
        hLess | hMore
      · exact Or.inl ⟨hLess, fun hSame =>
          absurd hSame hFile⟩
      · exact Or.inr ⟨hMore, fun hSame =>
          absurd hSame.symm hFile⟩

instance before_trans :
    IsTrans Diagnostic (fun d e => d.before e = true) where
  trans d e f hFirst hSecond := by
    rw [before_eq_true_iff] at hFirst hSecond ⊢
    rcases hFirst with ⟨hFile, hRest⟩
    rcases hSecond with ⟨hFile', hRest'⟩
    refine ⟨String.le_trans hFile hFile', ?_⟩
    intro hSame
    have hMiddle : d.file = e.file :=
      String.le_antisymm hFile (hSame ▸ hFile')
    have hHere := hRest hMiddle
    have hThere := hRest' (hMiddle.symm.trans hSame)
    omega

end Diagnostic

namespace Diagnostic

/- Where a report comes: file, line and rank of the rule. -/
def place
    (d : Diagnostic) : String × Nat × Nat :=
  (d.file, d.span.line, d.rule.rank)

/-
  That a report does not come after another: its file is
  less, or it has the same file and a smaller line, or the
  same line too and a rule of no higher rank.
-/
def NotAfter
    (d e : Diagnostic) : Prop :=
  d.file < e.file ∨
    d.file = e.file ∧
      (d.span.line < e.span.line ∨
        d.span.line = e.span.line ∧
          d.rule.rank ≤ e.rule.rank)

/- That is what sorting asks of two reports. -/
theorem before_iff_notAfter
    {d e : Diagnostic} :
    d.before e = true ↔ d.NotAfter e := by
  rw [before_eq_true_iff]
  unfold NotAfter
  by_cases hFile : d.file = e.file
  · simp only [hFile, le_refl, lt_irrefl, true_and, false_or,
      forall_const]
    omega
  · simp only [hFile, false_implies, and_true, false_and,
      or_false]
    exact ⟨fun hLe => lt_of_le_of_ne hLe hFile, le_of_lt⟩

/- Reports come in either order if they have one place. -/
theorem before_both_iff
    {d e : Diagnostic} :
    d.before e = true ∧ e.before d = true ↔
      d.place = e.place := by
  rw [before_eq_true_iff, before_eq_true_iff]
  unfold place
  rw [Prod.mk.injEq, Prod.mk.injEq]
  constructor
  · rintro ⟨⟨hLe, hRest⟩, hGe, hRest'⟩
    have hFile := le_antisymm hLe hGe
    have hHere := hRest hFile
    have hThere := hRest' hFile.symm
    exact ⟨hFile, by omega⟩
  · rintro ⟨hFile, hLine, hRank⟩
    rw [hFile, hLine, hRank]
    simp

------------------------------------------------------------
-- Arranged Reports
------------------------------------------------------------

/-
  That reports are put in order: none is lost or repeated,
  none comes after one of a later place, and those of one
  place are in the order in which they were given.
-/
structure Arranges
    (given arranged : List Diagnostic) : Prop where
  perm : arranged.Perm given
  inOrder : arranged.Pairwise NotAfter
  stable :
    ∀ place : String × Nat × Nat,
      arranged.filter (fun d => decide (d.place = place)) =
        given.filter (fun d => decide (d.place = place))

/- There is one way to put reports in order. -/
theorem Arranges.unique
    {given first second : List Diagnostic}
    (hFirst : Arranges given first)
    (hSecond : Arranges given second) :
    first = second := by
  have hKey :
      ∀ d e : Diagnostic, d.before e → e.before d →
        d.place = e.place :=
    fun _ _ hLe hGe => before_both_iff.mp ⟨hLe, hGe⟩
  apply Listing.eq_of_pairwise_of_filter_eq hKey
  · exact hFirst.inOrder.imp before_iff_notAfter.mpr
  · exact hSecond.inOrder.imp before_iff_notAfter.mpr
  · intro place
    exact (hFirst.stable place).trans
      (hSecond.stable place).symm

/- Sorting puts reports in order. -/
theorem arranges_sorted
    (ds : List Diagnostic) :
    Arranges ds (Listing.sorted before ds) where
  perm := Listing.sorted_perm before ds
  inOrder := (Listing.pairwise_sorted before ds).imp
    before_iff_notAfter.mp
  stable place := by
    apply Listing.filter_sorted_eq_filter
    intro d e hd he
    exact (before_both_iff.mpr
      ((of_decide_eq_true hd).trans
        (of_decide_eq_true he).symm)).1

end Diagnostic

namespace Log

/- A sorted log has its entries in order. -/
theorem arranges_sort
    (log : Log) :
    Diagnostic.Arranges log.entries log.sort.entries :=
  Diagnostic.arranges_sorted log.entries

/- Sorting a sorted log changes nothing. -/
theorem sort_sort
    (log : Log) :
    log.sort.sort = log.sort := by
  have hOrder := log.arranges_sort
  have hSame :
      Diagnostic.Arranges log.sort.entries
        log.sort.entries :=
    ⟨List.Perm.refl _, hOrder.inOrder, fun _ => rfl⟩
  have hEntries :=
    (log.sort.arranges_sort).unique hSame
  rw [Log.mk.injEq]
  exact ⟨hEntries, rfl⟩

------------------------------------------------------------
-- Errors In A Log
------------------------------------------------------------

/-
  That a log is made: from the empty one, by pushing
  reports, by appending logs that are made, and by sorting.
-/
inductive Made : Log → Prop
| empty : Made empty
| push (d : Diagnostic) {log : Log} :
    Made log → Made (log.push d)
| append {log more : Log} :
    Made log → Made more → Made (log.append more)
| sort {log : Log} :
    Made log → Made log.sort

/- That a log remembers of errors what its entries tell. -/
def Remembers
    (log : Log) : Prop :=
  log.hasErrors = log.entries.any Diagnostic.isError

section Steps

variable {log more : Log}
variable (hLog : log.Remembers)

include hLog

theorem Remembers.push
    (d : Diagnostic) :
    (log.push d).Remembers := by
  unfold Remembers Log.push at *
  rw [List.any_append, hLog]
  simp

theorem Remembers.append
    (hMore : more.Remembers) :
    (log.append more).Remembers := by
  unfold Remembers Log.append at *
  rw [List.any_append, hLog, hMore]

theorem Remembers.sort :
    log.sort.Remembers := by
  unfold Remembers
  rw [log.entries_sort_perm.any_eq]
  exact hLog

end Steps

/- However a log is made, it remembers the errors in it. -/
theorem Made.remembers
    {log : Log}
    (hMade : log.Made) :
    log.Remembers := by
  induction hMade with
  | empty => rfl
  | push d _ ih => exact ih.push d
  | append _ _ ih ihMore => exact ih.append ihMore
  | sort _ ih => exact ih.sort

/- The log of a list is made. -/
theorem made_ofList
    (ds : List Diagnostic) :
    (ofList ds).Made := by
  have hAll :
      ∀ log : Log, log.Made → (ds.foldl push log).Made := by
    induction ds with
    | nil => exact fun _ hMade => hMade
    | cons d ds ih => exact fun _ hMade => ih _ (hMade.push d)
  exact hAll _ .empty

/-
  A log is made if, and only if, it says it has an error
  when, and only when, it has one.
-/
theorem made_iff
    {log : Log} :
    log.Made ↔
      (log.hasErrors ↔
        ∃ d ∈ log.entries, d.severity = .error) := by
  have hRemembers :
      log.Remembers ↔
        (log.hasErrors ↔
          ∃ d ∈ log.entries, d.severity = .error) := by
    unfold Remembers
    rw [Bool.eq_iff_iff, List.any_eq_true]
    simp only [Diagnostic.isError, beq_iff_eq]
  rw [← hRemembers]
  refine ⟨Made.remembers, ?_⟩
  intro hLog
  have hSame : ofList log.entries = log := by
    rw [Log.mk.injEq]
    exact ⟨entries_ofList _,
      (hasErrors_ofList _).trans hLog.symm⟩
  rw [← hSame]
  exact made_ofList log.entries

end Log

end JsExport
