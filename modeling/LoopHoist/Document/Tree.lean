/-!
# Program documents

A document is a program as it is handed over between tools: a tree of nodes in which sequences are lists,
leaves are plain texts, and nothing says where it was written.  A document need not be a well-formed
program.  Names may be empty, integers may be misspelled and a list of declarations may be empty; turning
a document into a syntax tree is where such faults are found.

Two things can be written in more than one way: an integer is a number or its spelling, and reading the
variable `x` is either the value name `x` or the shorthand for it.
-/

namespace LoopHoist.Document

/-- An integer, given as a signed 64-bit number or by its spelling. -/
inductive Integer where
  | number (value : Int64)
  | spelling (text : String)
deriving DecidableEq

/-- A type. -/
inductive TypeDenoter where
  | simple (name : String)
  | array (length : Integer) (element : TypeDenoter)
  | record (fields : List (String × TypeDenoter))

/-- A parameter, as declared. -/
inductive FormalParameter where
  | const (name : String) (type : TypeDenoter)
  | var (name : String) (type : TypeDenoter)
  | proc (name : String) (parameters : List FormalParameter)
  | func (name : String) (parameters : List FormalParameter) (result : TypeDenoter)

mutual

/-- A value name. -/
inductive Vname where
  | simple (name : String)
  | dot (base : Vname) (field : String)
  | subscript (base : Vname) (index : Expression)

/-- An expression. -/
inductive Expression where
  | empty
  | integer (value : Integer)
  | character (value : Char)
  | vname (vname : Vname)
  /-- The read of a variable, given by its name alone. -/
  | var (name : String)
  | unary (operator : String) (operand : Expression)
  | binary (operator : String) (left right : Expression)
  | ifThenElse (condition thenBranch elseBranch : Expression)
  | letIn (declaration : Declaration) (body : Expression)
  | call (function : String) (arguments : List ActualParameter)
  | array (elements : List Expression)
  | record (fields : List (String × Expression))

/-- An argument. -/
inductive ActualParameter where
  | const (value : Expression)
  | var (vname : Vname)
  | proc (name : String)
  | func (name : String)

/-- A declaration. -/
inductive Declaration where
  | const (name : String) (value : Expression)
  | var (name : String) (type : TypeDenoter)
  | proc (name : String) (parameters : List FormalParameter) (body : Command)
  | func (name : String) (parameters : List FormalParameter) (result : TypeDenoter) (body : Expression)
  | type (name : String) (type : TypeDenoter)
  | unaryOperator (operator : String) (argument result : TypeDenoter)
  | binaryOperator (operator : String) (left right result : TypeDenoter)
  | sequential (declarations : List Declaration)

/-- A command. -/
inductive Command where
  | assign (target : Vname) (value : Expression)
  | call (procedure : String) (arguments : List ActualParameter)
  | empty
  | ifThenElse (condition : Expression) (thenBranch elseBranch : Command)
  | letIn (declaration : Declaration) (body : Command)
  | sequential (commands : List Command)
  | whileDo (condition : Expression) (body : Command)

end

/-- A whole program. -/
structure Program where
  command : Command

instance : Inhabited Command := ⟨.empty⟩
instance : Inhabited Expression := ⟨.empty⟩
instance : Inhabited Program := ⟨⟨default⟩⟩

end LoopHoist.Document
