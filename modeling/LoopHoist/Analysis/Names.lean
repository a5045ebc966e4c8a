import LoopHoist.Triangle.Tree

/-!
# The variables a piece of program touches

A value name such as `a.f[i]` belongs to one variable, its base `a`, and evaluating it also reads the
variables of its indices.  `Command.assigned` lists the bases of the assignments in a command;
`Expression.free` lists the variables an expression reads.  Both are lists that may repeat a name, and
what matters of them is which names are members.

Neither looks into declarations, and a call is not known to assign anything.
-/

namespace LoopHoist

/-- The variable that a value name belongs to. -/
def Vname.base : Vname → Identifier
  | .simple name _ => name
  | .dot base _ _ => base.base
  | .subscript base _ _ => base.base

/-- The variables assigned somewhere in a command: in a sequence, in either arm of a conditional, in
the body of a loop or in the body of a block. -/
def Command.assigned : Command → List String
  | .assign target _ _ => [target.base.spelling]
  | .call .. | .skip _ => []
  | .ifThenElse _ thenBranch elseBranch _ => thenBranch.assigned ++ elseBranch.assigned
  | .letIn _ body _ => body.assigned
  | .seq first second _ => first.assigned ++ second.assigned
  | .whileDo _ body _ => body.assigned

mutual

/-- The variables read when a value name is evaluated: its base and those of its indices. -/
def Vname.free : Vname → List String
  | .simple name _ => [name.spelling]
  | .dot base _ _ => base.free
  | .subscript base index _ => base.free ++ index.free

/-- The variables an expression reads.  Of a block only the body counts. -/
def Expression.free : Expression → List String
  | .empty _ | .integer .. | .character .. => []
  | .read vname _ => vname.free
  | .unary _ operand _ => operand.free
  | .binary _ left right _ => left.free ++ right.free
  | .ifThenElse condition thenBranch elseBranch _ =>
      condition.free ++ thenBranch.free ++ elseBranch.free
  | .letIn _ body _ => body.free
  | .call _ arguments _ => ActualParameter.freeAll arguments
  | .array elements _ => Expression.freeAll elements
  | .record fields _ => Expression.freeFields fields

/-- The variables that a list of expressions reads. -/
def Expression.freeAll : List Expression → List String
  | [] => []
  | element :: rest => element.free ++ Expression.freeAll rest

/-- The variables that the fields of a record read. -/
def Expression.freeFields : List (Identifier × Expression) → List String
  | [] => []
  | (_, value) :: rest => value.free ++ Expression.freeFields rest

/-- The variables an argument reads.  A procedure or function handed over is not a variable. -/
def ActualParameter.free : ActualParameter → List String
  | .const value => value.free
  | .var vname => vname.free
  | .proc _ | .func _ => []

/-- The variables that the arguments of a call read. -/
def ActualParameter.freeAll : List ActualParameter → List String
  | [] => []
  | argument :: rest => argument.free ++ ActualParameter.freeAll rest

end

/-- Whether an expression reads none of the given variables. -/
def Expression.avoids (expression : Expression) (names : List String) : Bool :=
  expression.free.all fun name => !names.contains name

/-- The members of a list of names, each once, in the order of their code points. -/
def sortedNames (names : List String) : List String :=
  (names.mergeSort fun a b => decide (a ≤ b)).eraseReps

end LoopHoist
