import LoopHoist.Triangle.Terminal

/-!
# Syntax trees

The abstract syntax of Triangle.  Commands change the store, expressions have a value, value names say
where a value is kept, and declarations name things.  A declaration can hold commands and expressions
(the bodies of procedures and functions) and both can open a block of declarations, so these classes
are defined together.

Every command, expression, value name and declaration carries the span it was written at.  Types and
parameters have no span of their own: the names in them do.

## Sequences

`c₁; c₂; c₃` and `d₁; d₂; d₃` are built from pairs.  `Command.seqAll` and `Declaration.chain?` nest a
list of parts to the right, and `Declaration.flatten` lists the parts of a declaration from left to
right however they are nested.
-/

namespace LoopHoist

/-- What a type expression says a value is. -/
inductive TypeDenoter where
  | simple (name : Identifier)
  | array (length : IntegerLiteral) (element : TypeDenoter)
  | record (fields : List (Identifier × TypeDenoter))

/-- A parameter of a procedure or function, as declared. -/
inductive FormalParameter where
  | const (name : Identifier) (type : TypeDenoter)
  | var (name : Identifier) (type : TypeDenoter)
  | proc (name : Identifier) (parameters : List FormalParameter)
  | func (name : Identifier) (parameters : List FormalParameter) (result : TypeDenoter)

mutual

/-- The name of a place that holds a value: a variable, a field of a place, or an element of one. -/
inductive Vname where
  | simple (name : Identifier) (span : Span)
  | dot (base : Vname) (field : Identifier) (span : Span)
  | subscript (base : Vname) (index : Expression) (span : Span)

/-- What has a value. -/
inductive Expression where
  | empty (span : Span)
  | integer (literal : IntegerLiteral) (span : Span)
  | character (literal : CharacterLiteral) (span : Span)
  | read (vname : Vname) (span : Span)
  | unary (operator : Operator) (operand : Expression) (span : Span)
  | binary (operator : Operator) (left right : Expression) (span : Span)
  | ifThenElse (condition thenBranch elseBranch : Expression) (span : Span)
  | letIn (declaration : Declaration) (body : Expression) (span : Span)
  | call (function : Identifier) (arguments : List ActualParameter) (span : Span)
  | array (elements : List Expression) (span : Span)
  | record (fields : List (Identifier × Expression)) (span : Span)

/-- What is handed over at a call: a value, a place, a procedure or a function. -/
inductive ActualParameter where
  | const (value : Expression)
  | var (vname : Vname)
  | proc (name : Identifier)
  | func (name : Identifier)

/-- What gives a name a meaning. -/
inductive Declaration where
  | const (name : Identifier) (value : Expression) (span : Span)
  | var (name : Identifier) (type : TypeDenoter) (span : Span)
  | proc (name : Identifier) (parameters : List FormalParameter) (body : Command) (span : Span)
  | func (name : Identifier) (parameters : List FormalParameter) (result : TypeDenoter)
      (body : Expression) (span : Span)
  | type (name : Identifier) (type : TypeDenoter) (span : Span)
  | unaryOperator (operator : Operator) (argument result : TypeDenoter) (span : Span)
  | binaryOperator (operator : Operator) (left right result : TypeDenoter) (span : Span)
  | seq (first second : Declaration) (span : Span)

/-- What is run for its effect. -/
inductive Command where
  | assign (target : Vname) (value : Expression) (span : Span)
  | call (procedure : Identifier) (arguments : List ActualParameter) (span : Span)
  | skip (span : Span)
  | ifThenElse (condition : Expression) (thenBranch elseBranch : Command) (span : Span)
  | letIn (declaration : Declaration) (body : Command) (span : Span)
  | seq (first second : Command) (span : Span)
  | whileDo (condition : Expression) (body : Command) (span : Span)

end

/-- A whole program. -/
structure Program where
  command : Command
  span : Span

instance : Inhabited Command := ⟨.skip .dummy⟩
instance : Inhabited Expression := ⟨.empty .dummy⟩
instance : Inhabited Program := ⟨⟨default, .dummy⟩⟩

/-! ## Where a node was written -/

/-- Where a value name was written. -/
def Vname.span : Vname → Span
  | .simple _ s | .dot _ _ s | .subscript _ _ s => s

/-- Where an expression was written. -/
def Expression.span : Expression → Span
  | .empty s | .integer _ s | .character _ s | .read _ s | .unary _ _ s | .binary _ _ _ s
  | .ifThenElse _ _ _ s | .letIn _ _ s | .call _ _ s | .array _ s | .record _ s => s

/-- Where a declaration was written. -/
def Declaration.span : Declaration → Span
  | .const _ _ s | .var _ _ s | .proc _ _ _ s | .func _ _ _ _ s | .type _ _ s
  | .unaryOperator _ _ _ s | .binaryOperator _ _ _ _ s | .seq _ _ s => s

/-- Where a command was written. -/
def Command.span : Command → Span
  | .assign _ _ s | .call _ _ s | .skip s | .ifThenElse _ _ _ s | .letIn _ _ s | .seq _ _ s
  | .whileDo _ _ s => s

/-! ## Sequences from lists, and back -/

/-- The commands of a list one after another, nested to the right; no command at all is `skip`. -/
def Command.seqAll (span : Span) : List Command → Command
  | [] => .skip span
  | [c] => c
  | c :: rest => .seq c (seqAll span rest) span

/-- The declarations of a list one after another, nested to the right; a list of none has no chain. -/
def Declaration.chain? (span : Span) : List Declaration → Option Declaration
  | [] => none
  | [d] => some d
  | d :: rest => (chain? span rest).map fun chain => .seq d chain span

/-- The number of `seq` nodes and leaves that make up a declaration. -/
def Declaration.size : Declaration → Nat
  | .seq first second _ => first.size + second.size + 1
  | .const .. | .var .. | .proc .. | .func .. | .type .. | .unaryOperator ..
  | .binaryOperator .. => 1

/-- The leaves of the declarations still to be visited, in order.  A pair is taken apart by putting
its halves back in front, so a chain of any length is walked without recursing into it. -/
def Declaration.flattenAll : List Declaration → List Declaration
  | [] => []
  | .seq first second _ :: pending => flattenAll (first :: second :: pending)
  | leaf :: pending => leaf :: flattenAll pending
termination_by pending => pending.foldr (fun declaration total => declaration.size + total) 0
decreasing_by
  · simp only [List.foldr_cons, Declaration.size]
    omega
  · have : 0 < leaf.size := by cases leaf <;> simp [Declaration.size]
    simp only [List.foldr_cons]
    omega

/-- The parts of a declaration that are not pairs, from left to right. -/
def Declaration.flatten (declaration : Declaration) : List Declaration :=
  flattenAll [declaration]

/-! ## Names of parameters -/

/-- The name a formal parameter is declared under. -/
def FormalParameter.name : FormalParameter → Identifier
  | .const n _ | .var n _ | .proc n _ | .func n _ _ => n

/-- The parameters of a procedure or function declaration; other declarations take none. -/
def Declaration.parameters? : Declaration → Option (List FormalParameter)
  | .proc _ parameters _ _ | .func _ parameters _ _ _ => some parameters
  | .const .. | .var .. | .type .. | .unaryOperator .. | .binaryOperator .. | .seq .. => none

end LoopHoist
