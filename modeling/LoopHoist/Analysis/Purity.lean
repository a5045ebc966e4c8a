import LoopHoist.Triangle.Tree

/-!
# Pure expressions

An expression counts as pure when evaluating it can do nothing but give a value: the empty expression,
literals, reads, and operators over pure operands.  Calls, blocks, conditionals and aggregates never
count.  A read is pure whatever its indices are.
-/

namespace LoopHoist

/-- Whether an expression counts as pure. -/
def Expression.isPure : Expression → Bool
  | .empty _ | .integer .. | .character .. | .read .. => true
  | .unary _ operand _ => operand.isPure
  | .binary _ left right _ => left.isPure && right.isPure
  | .ifThenElse .. | .letIn .. | .call .. | .array .. | .record .. => false

end LoopHoist
