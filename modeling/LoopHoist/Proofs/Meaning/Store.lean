import LoopHoist.Analysis.Names
import Mathlib.Logic.Function.Basic

/-!
# Values and stores

What expressions mean.  A store gives every name a value, and an `Interpretation` says what the
program text leaves open: the values of literals, the operators, selecting and updating fields and
elements, aggregates, calls, and which values count as true.  All of it is total and otherwise
arbitrary, so what is proved for every interpretation holds whatever the operators are.

Hoisting is about expressions without calls and blocks (`Expression.isPlain`).  What the value of
such an expression depends on is settled in the next files, for values that need not be defined.
-/

namespace LoopHoist

universe u

/-- A value for every name. -/
abbrev Store (V : Type u) := String → V

/-- The meaning of what program text leaves open. -/
structure Interpretation (V : Type u) where
  /-- The value of the empty expression. -/
  nothing : V
  integer : String → V
  character : String → V
  unary : String → V → V
  binary : String → V → V → V
  /-- Whether a value, as a condition, is true. -/
  holds : V → Bool
  /-- Selecting a field of a record. -/
  field : String → V → V
  /-- A record with one field replaced. -/
  setField : String → V → V → V
  /-- Selecting an element of an array. -/
  item : V → V → V
  /-- An array with one element replaced. -/
  setItem : V → V → V → V
  array : List V → V
  record : List (String × V) → V
  /-- A procedure or function handed over as an argument. -/
  routine : String → V
  /-- What a function returns for its arguments. -/
  apply : String → List V → V
  /-- What a declaration other than that of a constant gives its name. -/
  declared : Declaration → Store V → V

variable {V : Type u}

mutual

/-- The value kept at a place. -/
def Vname.eval (I : Interpretation V) : Vname → Store V → V
  | .simple name _, store => store name.spelling
  | .dot base field _, store => I.field field.spelling (base.eval I store)
  | .subscript base index _, store => I.item (base.eval I store) (index.eval I store)

/-- The value of an expression. -/
def Expression.eval (I : Interpretation V) : Expression → Store V → V
  | .empty _, _ => I.nothing
  | .integer literal _, _ => I.integer literal.spelling
  | .character literal _, _ => I.character literal.spelling
  | .read vname _, store => vname.eval I store
  | .unary operator operand _, store => I.unary operator.spelling (operand.eval I store)
  | .binary operator left right _, store =>
      I.binary operator.spelling (left.eval I store) (right.eval I store)
  | .ifThenElse condition thenBranch elseBranch _, store =>
      if I.holds (condition.eval I store) then thenBranch.eval I store else elseBranch.eval I store
  | .letIn declaration body _, store => body.eval I (declaration.bind I store)
  | .call function arguments _, store =>
      I.apply function.spelling (ActualParameter.evalAll I arguments store)
  | .array elements _, store => I.array (Expression.evalAll I elements store)
  | .record fields _, store => I.record (Expression.evalFields I fields store)

/-- The values of a list of expressions. -/
def Expression.evalAll (I : Interpretation V) : List Expression → Store V → List V
  | [], _ => []
  | element :: rest, store => element.eval I store :: Expression.evalAll I rest store

/-- The values of the fields of a record. -/
def Expression.evalFields (I : Interpretation V) :
    List (Identifier × Expression) → Store V → List (String × V)
  | [], _ => []
  | (name, value) :: rest, store =>
      (name.spelling, value.eval I store) :: Expression.evalFields I rest store

/-- The value handed over for an argument. -/
def ActualParameter.eval (I : Interpretation V) : ActualParameter → Store V → V
  | .const value, store => value.eval I store
  | .var vname, store => vname.eval I store
  | .proc name, _ | .func name, _ => I.routine name.spelling

/-- The values handed over for the arguments of a call. -/
def ActualParameter.evalAll (I : Interpretation V) : List ActualParameter → Store V → List V
  | [], _ => []
  | argument :: rest, store => argument.eval I store :: ActualParameter.evalAll I rest store

/-- The store inside a block.  The declarations of a sequence take effect one after the other. -/
def Declaration.bind (I : Interpretation V) : Declaration → Store V → Store V
  | .const name value _, store => Function.update store name.spelling (value.eval I store)
  | .var name type span, store =>
      Function.update store name.spelling (I.declared (.var name type span) store)
  | .proc name parameters body span, store =>
      Function.update store name.spelling (I.declared (.proc name parameters body span) store)
  | .func name parameters result body span, store =>
      Function.update store name.spelling
        (I.declared (.func name parameters result body span) store)
  | .type name type span, store =>
      Function.update store name.spelling (I.declared (.type name type span) store)
  | .unaryOperator .., store | .binaryOperator .., store => store
  | .seq first second _, store => second.bind I (first.bind I store)

end

/-- The names that a declaration declares. -/
def Declaration.names : Declaration → List String
  | .const name _ _ | .var name _ _ | .proc name _ _ _ | .func name _ _ _ _ | .type name _ _ =>
      [name.spelling]
  | .unaryOperator .. | .binaryOperator .. => []
  | .seq first second _ => first.names ++ second.names

/-- What the variable of a place holds after the place was given a value. -/
def Vname.put (I : Interpretation V) : Vname → Store V → V → V
  | .simple _ _, _, value => value
  | .dot base field _, store, value =>
      base.put I store (I.setField field.spelling (base.eval I store) value)
  | .subscript base index _, store, value =>
      base.put I store (I.setItem (base.eval I store) (index.eval I store) value)

/-- The store after a place was given a value. -/
def Vname.assign (I : Interpretation V) (target : Vname) (value : V) (store : Store V) : Store V :=
  Function.update store target.base.spelling (target.put I store value)

/-! ## Expressions without calls and blocks -/

mutual

/-- Whether a value name has no call and no block in its indices. -/
def Vname.isPlain : Vname → Bool
  | .simple .. => true
  | .dot base _ _ => base.isPlain
  | .subscript base index _ => base.isPlain && index.isPlain

/-- Whether an expression has no call and no block in it. -/
def Expression.isPlain : Expression → Bool
  | .empty _ | .integer .. | .character .. => true
  | .read vname _ => vname.isPlain
  | .unary _ operand _ => operand.isPlain
  | .binary _ left right _ => left.isPlain && right.isPlain
  | .ifThenElse condition thenBranch elseBranch _ =>
      condition.isPlain && thenBranch.isPlain && elseBranch.isPlain
  | .letIn .. | .call .. => false
  | .array elements _ => Expression.isPlainAll elements
  | .record fields _ => Expression.isPlainFields fields

/-- Whether no expression of a list has a call or a block in it. -/
def Expression.isPlainAll : List Expression → Bool
  | [] => true
  | element :: rest => element.isPlain && Expression.isPlainAll rest

/-- Whether no field of a record has a call or a block in it. -/
def Expression.isPlainFields : List (Identifier × Expression) → Bool
  | [] => true
  | (_, value) :: rest => value.isPlain && Expression.isPlainFields rest

end

theorem Vname.base_mem_free : ∀ vname : Vname, vname.base.spelling ∈ vname.free
  | .simple .. => by simp [Vname.base, Vname.free]
  | .dot base _ _ => base.base_mem_free
  | .subscript base _ _ => by simp [Vname.base, Vname.free, base.base_mem_free]

/-! ## Integers -/

/-- The reading in which every value is an integer and zero is false.  Records and arrays hold a
single integer, and what is not arithmetic is zero. -/
def Interpretation.arithmetic : Interpretation Int where
  nothing := 0
  integer spelling :=
    spelling.toList.foldl (fun number digit => 10 * number + (digit.toNat - '0'.toNat)) 0
  character _ := 0
  unary operator operand := if operator = "-" then -operand else operand
  binary operator left right :=
    if operator = "+" then left + right
    else if operator = "-" then left - right
    else if operator = "*" then left * right
    else 0
  holds value := decide (value ≠ 0)
  field _ value := value
  setField _ _ value := value
  item value _ := value
  setItem _ _ value := value
  array _ := 0
  record _ := 0
  routine _ := 0
  apply _ _ := 0
  declared _ _ := 0

end LoopHoist
