import LoopHoist.Decimal.Numeral
import LoopHoist.Span

/-!
# Terminals

The leaves of a program are spelled pieces of source text: names, operator symbols and literals.  All
of them are a spelling at a place; which sort of leaf it is stands in the type, so a name cannot be put
where an operator belongs.

Literals keep their spelling.  `Terminal.value` is the number an integer literal stands for, when that
number is a signed 64-bit integer.
-/

namespace LoopHoist

/-- The sorts of leaves. -/
inductive Lexeme where
  | identifier
  | operator
  | integer
  | character
deriving DecidableEq, Repr

/-- A leaf of the given sort, as spelled at its place in the source. -/
structure Terminal (sort : Lexeme) where
  spelling : String
  span : Span
deriving DecidableEq, Repr

/-- A name, such as `x`, `Integer` or `$h1`. -/
abbrev Identifier := Terminal .identifier

/-- An operator symbol, such as `+` or `<=`. -/
abbrev Operator := Terminal .operator

/-- An integer literal, kept as its spelling. -/
abbrev IntegerLiteral := Terminal .integer

/-- A character literal, spelled with its quotes. -/
abbrev CharacterLiteral := Terminal .character

/-- The value of an integer literal, if its spelling is a numeral within the signed 64-bit range. -/
def Terminal.value (literal : IntegerLiteral) : Option Int :=
  (Decimal.integer? literal.spelling.toList).filter Decimal.isWord

end LoopHoist
