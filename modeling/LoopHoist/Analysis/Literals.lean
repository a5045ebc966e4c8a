import LoopHoist.Triangle.Tree

/-!
# Counting literals

`literals` counts the integer and the character expressions of a tree, wherever they stand: in
commands, in the values and bodies of declarations, in arguments, in aggregates and in indices.  The
length of an array type is not an expression and is not counted.
-/

namespace LoopHoist

/-- How many literal expressions of each sort there are. -/
structure LiteralCount where
  integers : Nat
  characters : Nat
deriving DecidableEq, Repr, Inhabited

namespace LiteralCount

instance : Add LiteralCount := ⟨fun a b => ⟨a.integers + b.integers, a.characters + b.characters⟩⟩

instance : Zero LiteralCount := ⟨⟨0, 0⟩⟩

@[ext]
theorem ext {a b : LiteralCount} (hi : a.integers = b.integers) (hc : a.characters = b.characters) :
    a = b := by
  cases a
  cases b
  simp_all

@[simp] theorem add_integers (a b : LiteralCount) : (a + b).integers = a.integers + b.integers := rfl

@[simp] theorem add_characters (a b : LiteralCount) :
    (a + b).characters = a.characters + b.characters := rfl

@[simp] theorem zero_integers : (0 : LiteralCount).integers = 0 := rfl

@[simp] theorem zero_characters : (0 : LiteralCount).characters = 0 := rfl

end LiteralCount

mutual

/-- The literals in the indices of a value name. -/
def Vname.literals : Vname → LiteralCount
  | .simple .. => 0
  | .dot base _ _ => base.literals
  | .subscript base index _ => base.literals + index.literals

/-- The literals of an expression. -/
def Expression.literals : Expression → LiteralCount
  | .empty _ => 0
  | .integer .. => ⟨1, 0⟩
  | .character .. => ⟨0, 1⟩
  | .read vname _ => vname.literals
  | .unary _ operand _ => operand.literals
  | .binary _ left right _ => left.literals + right.literals
  | .ifThenElse condition thenBranch elseBranch _ =>
      condition.literals + thenBranch.literals + elseBranch.literals
  | .letIn declaration body _ => declaration.literals + body.literals
  | .call _ arguments _ => ActualParameter.literalsAll arguments
  | .array elements _ => Expression.literalsAll elements
  | .record fields _ => Expression.literalsFields fields

/-- The literals of a list of expressions. -/
def Expression.literalsAll : List Expression → LiteralCount
  | [] => 0
  | element :: rest => element.literals + Expression.literalsAll rest

/-- The literals of the fields of a record. -/
def Expression.literalsFields : List (Identifier × Expression) → LiteralCount
  | [] => 0
  | (_, value) :: rest => value.literals + Expression.literalsFields rest

/-- The literals of an argument. -/
def ActualParameter.literals : ActualParameter → LiteralCount
  | .const value => value.literals
  | .var vname => vname.literals
  | .proc _ | .func _ => 0

/-- The literals of the arguments of a call. -/
def ActualParameter.literalsAll : List ActualParameter → LiteralCount
  | [] => 0
  | argument :: rest => argument.literals + ActualParameter.literalsAll rest

/-- The literals of a declaration. -/
def Declaration.literals : Declaration → LiteralCount
  | .const _ value _ => value.literals
  | .proc _ _ body _ => body.literals
  | .func _ _ _ body _ => body.literals
  | .var .. | .type .. | .unaryOperator .. | .binaryOperator .. => 0
  | .seq first second _ => first.literals + second.literals

/-- The literals of a command. -/
def Command.literals : Command → LiteralCount
  | .assign target value _ => target.literals + value.literals
  | .call _ arguments _ => ActualParameter.literalsAll arguments
  | .skip _ => 0
  | .ifThenElse condition thenBranch elseBranch _ =>
      condition.literals + thenBranch.literals + elseBranch.literals
  | .letIn declaration body _ => declaration.literals + body.literals
  | .seq first second _ => first.literals + second.literals
  | .whileDo condition body _ => condition.literals + body.literals

end

/-- The literals of a program. -/
def Program.literals (program : Program) : LiteralCount := program.command.literals

end LoopHoist
