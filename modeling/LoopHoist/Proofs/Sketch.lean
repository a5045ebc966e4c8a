import LoopHoist.Triangle.Tree

/-!
# Trees without spans

Short constructors for trees in which every node and every name carries the dummy span.
-/

namespace LoopHoist.Sketch

/-- The name with the given spelling. -/
def name (spelling : String) : Identifier := ⟨spelling, .dummy⟩

/-- The read of a variable. -/
def var (spelling : String) : Expression := .read (.simple (name spelling) .dummy) .dummy

/-- An integer literal. -/
def int (spelling : String) : Expression := .integer ⟨spelling, .dummy⟩ .dummy

/-- `left operator right`. -/
def binary (left : Expression) (operator : String) (right : Expression) : Expression :=
  .binary ⟨operator, .dummy⟩ left right .dummy

/-- `array[index]`, where the array is a variable. -/
def item (array : String) (index : Expression) : Expression :=
  .read (.subscript (.simple (name array) .dummy) index .dummy) .dummy

/-- `function(argument)`, where the argument is handed over by value. -/
def apply (function : String) (argument : Expression) : Expression :=
  .call (name function) [.const argument] .dummy

/-- `target := value`, where the target is a variable. -/
def assign (target : String) (value : Expression) : Command :=
  .assign (.simple (name target) .dummy) value .dummy

/-- `procedure(var argument)`, where the argument is a variable. -/
def callVar (procedure argument : String) : Command :=
  .call (name procedure) [.var (.simple (name argument) .dummy)] .dummy

/-- `var spelling : Integer`. -/
def integer (spelling : String) : Declaration :=
  .var (name spelling) (.simple (name "Integer")) .dummy

/-- `const spelling ~ value`. -/
def const (spelling : String) (value : Expression) : Declaration :=
  .const (name spelling) value .dummy

/-- `let declarations in body`, and the body alone if nothing is declared. -/
def block (declarations : List Declaration) (body : Command) : Command :=
  (Declaration.chain? .dummy declarations).elim body fun chain => .letIn chain body .dummy

/-- `while condition do body`, where the body runs the commands of a list. -/
def loop (condition : Expression) (body : List Command) : Command :=
  .whileDo condition (.seqAll .dummy body) .dummy

end LoopHoist.Sketch
