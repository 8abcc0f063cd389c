/-
  Places in a source file.

  A span is where a declaration, a call or a test stands:
  its line, its column and the length of its text.  Spans
  are ordered by line, then column, then length, which is
  the order in which a reader meets them.

  Key definitions include:
    * `Span`
    * `Span.isEmpty`
    * `Span.text`
    * `Span.before`
-/

namespace JsExport

------------------------------------------------------------
-- Spans
------------------------------------------------------------

/- A place in a file, with the length of what stands there. -/
structure Span where
  line : Nat
  column : Nat
  length : Nat
deriving DecidableEq, Repr, Inhabited

namespace Span

/- The start of a line, with no text of its own. -/
def atLine
    (line : Nat) : Span :=
  ⟨line, 1, 0⟩

/- A point in a line, with no text of its own. -/
def atPoint
    (line column : Nat) : Span :=
  ⟨line, column, 0⟩

/- Whether the span covers no text. -/
def isEmpty
    (s : Span) : Bool :=
  s.length == 0

/- The written form of a span names its starting point. -/
def text
    (s : Span) : String :=
  s!"{s.line}:{s.column}"

/-
  Whether one span comes no later than another: by line,
  then column, then length.
-/
def before
    (s t : Span) : Bool :=
  if s.line ≠ t.line then s.line < t.line
  else if s.column ≠ t.column then s.column < t.column
  else s.length ≤ t.length

end Span

end JsExport
