/-!
# Source positions

A span says where in the source text a piece of a tree was written: the offsets it runs between, and
the line and column at which it starts.  Trees that a transformation invents carry the dummy span, all
of whose numbers are zero, so a span also tells what was written from what was made up.

`Span.combine` is the least span that covers two others.  The dummy span covers nothing, so combining
with it changes nothing.
-/

namespace LoopHoist

/-- Where a piece of a program was written. -/
structure Span where
  start : Nat
  stop : Nat
  line : Nat
  column : Nat
deriving DecidableEq, Repr, Inhabited

namespace Span

/-- The position of what was never written. -/
def dummy : Span := ⟨0, 0, 0, 0⟩

/-- Whether this is the position of what was never written. -/
def isDummy (s : Span) : Bool := s == dummy

/-- `s` starts on an earlier line than `t`, or on the same line and no further right. -/
def startsBy (s t : Span) : Prop :=
  s.line < t.line ∨ (s.line = t.line ∧ s.column ≤ t.column)

instance (s t : Span) : Decidable (s.startsBy t) :=
  inferInstanceAs (Decidable (_ ∨ _))

/-- The least span covering both. -/
def combine (s t : Span) : Span :=
  if s.isDummy then t
  else if t.isDummy then s
  else
    let first := if s.startsBy t then s else t
    { start := min s.start t.start
      stop := max s.stop t.stop
      line := first.line
      column := first.column }

/-- The least span covering a whole list. -/
def combineAll (spans : List Span) : Span := spans.foldl combine dummy

/-- A span is shown as the line and column it starts at. -/
def display (s : Span) : String := toString s.line ++ ":" ++ toString s.column

end Span

end LoopHoist
