/-
  Runs of code points.

  The sets of characters that a standard tabulates are
  mostly made of runs: code points from a first to a last
  one, at an even distance.  In alphabets whose capital and
  small letters alternate the distance is two.

  Key definitions include:
    * `CodeRun`
    * `CodeRun.holds`
-/

namespace JsExport

------------------------------------------------------------
-- Runs
------------------------------------------------------------

/- Code points from `first` to `last`, `step` apart. -/
structure CodeRun where
  first : Nat
  last : Nat
  step : Nat
deriving DecidableEq, Repr

namespace CodeRun

/- Whether a code point belongs to the run. -/
def holds
    (r : CodeRun)
    (code : Nat) : Bool :=
  r.first ≤ code && code ≤ r.last &&
    (code - r.first) % r.step == 0

end CodeRun

end JsExport
