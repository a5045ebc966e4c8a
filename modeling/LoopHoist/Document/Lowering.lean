import LoopHoist.Document.Tree
import LoopHoist.Triangle.Tree

/-!
# From documents to syntax trees

A document becomes a syntax tree all of whose nodes and leaves carry one given span.  Sequences are
nested to the right, and the empty sequence of commands is `skip`.

Three things can be wrong with a document: an empty name or operator symbol, an integer that is not
spelled by decimal digits alone, and a sequence of no declarations.  The fault that is reported is the
first one met on a walk through the document.  The walk takes the parts of a node as they stand in its
source text, so the left operand of a binary expression comes before its operator, and a called name
before the arguments.
-/

namespace LoopHoist.Document

/-- What can be wrong with a document. -/
inductive LoweringFault where
  | emptyName
  | notDigits (spelling : String)
  | noDeclarations
deriving DecidableEq, Repr

/-- The wording of a fault. -/
def LoweringFault.message : LoweringFault → String
  | .emptyName => "empty identifier"
  | .notDigits spelling => "'" ++ spelling ++ "' is not an integer literal"
  | .noDeclarations => "sequential declaration with no declarations"

/-- What lowering gives. -/
abbrev Lowered (α : Type) := Except LoweringFault α

/-! ## Leaves -/

/-- A leaf with this spelling, which must not be empty. -/
def named {sort : Lexeme} (span : Span) (spelling : String) : Lowered (Terminal sort) :=
  if spelling.isEmpty then .error .emptyName else .ok ⟨spelling, span⟩

/-- How an integer is spelled. -/
def Integer.text : Integer → String
  | .number value => toString value.toInt
  | .spelling text => text

/-- Whether a text is one or more decimal digits. -/
def isNumeral (text : String) : Bool := !text.isEmpty && text.toList.all Decimal.isDigit

/-- An integer becomes a literal when decimal digits spell it. -/
def Integer.lower (span : Span) (integer : Integer) : Lowered IntegerLiteral :=
  if isNumeral integer.text then .ok ⟨integer.text, span⟩ else .error (.notDigits integer.text)

/-- A character becomes a literal between quotes. -/
def lowerCharacter (span : Span) (value : Char) : CharacterLiteral :=
  ⟨"'" ++ String.singleton value ++ "'", span⟩

/-! ## Types and formal parameters -/

mutual

/-- Lowers a type. -/
def TypeDenoter.lower (span : Span) : TypeDenoter → Lowered LoopHoist.TypeDenoter
  | .simple name => do return .simple (← named span name)
  | .array length element => do
      let length ← length.lower span
      let element ← element.lower span
      return .array length element
  | .record fields => do return .record (← TypeDenoter.lowerFields span fields)

/-- Lowers the fields of a record type, each name before its type. -/
def TypeDenoter.lowerFields (span : Span) :
    List (String × TypeDenoter) → Lowered (List (Identifier × LoopHoist.TypeDenoter))
  | [] => .ok []
  | (name, type) :: rest => do
      let name ← named span name
      let type ← type.lower span
      let rest ← TypeDenoter.lowerFields span rest
      return (name, type) :: rest

end

mutual

/-- Lowers a formal parameter. -/
def FormalParameter.lower (span : Span) : FormalParameter → Lowered LoopHoist.FormalParameter
  | .const name type => do
      let name ← named span name
      let type ← type.lower span
      return .const name type
  | .var name type => do
      let name ← named span name
      let type ← type.lower span
      return .var name type
  | .proc name parameters => do
      let name ← named span name
      let parameters ← FormalParameter.lowerAll span parameters
      return .proc name parameters
  | .func name parameters result => do
      let name ← named span name
      let parameters ← FormalParameter.lowerAll span parameters
      let result ← result.lower span
      return .func name parameters result

/-- Lowers a list of formal parameters. -/
def FormalParameter.lowerAll (span : Span) :
    List FormalParameter → Lowered (List LoopHoist.FormalParameter)
  | [] => .ok []
  | parameter :: rest => do
      let parameter ← parameter.lower span
      let rest ← FormalParameter.lowerAll span rest
      return parameter :: rest

end

/-! ## Value names, expressions, arguments, declarations and commands -/

mutual

/-- Lowers a value name. -/
def Vname.lower (span : Span) : Vname → Lowered LoopHoist.Vname
  | .simple name => do return .simple (← named span name) span
  | .dot base field => do
      let base ← base.lower span
      let field ← named span field
      return .dot base field span
  | .subscript base index => do
      let base ← base.lower span
      let index ← index.lower span
      return .subscript base index span

/-- Lowers an expression. -/
def Expression.lower (span : Span) : Expression → Lowered LoopHoist.Expression
  | .empty => .ok (.empty span)
  | .integer value => do return .integer (← value.lower span) span
  | .character value => .ok (.character (lowerCharacter span value) span)
  | .vname vname => do return .read (← vname.lower span) span
  | .var name => do return .read (.simple (← named span name) span) span
  | .unary operator operand => do
      let operator ← named span operator
      let operand ← operand.lower span
      return .unary operator operand span
  | .binary operator left right => do
      let left ← left.lower span
      let operator ← named span operator
      let right ← right.lower span
      return .binary operator left right span
  | .ifThenElse condition thenBranch elseBranch => do
      let condition ← condition.lower span
      let thenBranch ← thenBranch.lower span
      let elseBranch ← elseBranch.lower span
      return .ifThenElse condition thenBranch elseBranch span
  | .letIn declaration body => do
      let declaration ← declaration.lower span
      let body ← body.lower span
      return .letIn declaration body span
  | .call function arguments => do
      let function ← named span function
      let arguments ← ActualParameter.lowerAll span arguments
      return .call function arguments span
  | .array elements => do return .array (← Expression.lowerAll span elements) span
  | .record fields => do return .record (← Expression.lowerFields span fields) span

/-- Lowers a list of expressions. -/
def Expression.lowerAll (span : Span) : List Expression → Lowered (List LoopHoist.Expression)
  | [] => .ok []
  | element :: rest => do
      let element ← element.lower span
      let rest ← Expression.lowerAll span rest
      return element :: rest

/-- Lowers the fields of a record, each name before its value. -/
def Expression.lowerFields (span : Span) :
    List (String × Expression) → Lowered (List (Identifier × LoopHoist.Expression))
  | [] => .ok []
  | (name, value) :: rest => do
      let name ← named span name
      let value ← value.lower span
      let rest ← Expression.lowerFields span rest
      return (name, value) :: rest

/-- Lowers an argument. -/
def ActualParameter.lower (span : Span) : ActualParameter → Lowered LoopHoist.ActualParameter
  | .const value => do return .const (← value.lower span)
  | .var vname => do return .var (← vname.lower span)
  | .proc name => do return .proc (← named span name)
  | .func name => do return .func (← named span name)

/-- Lowers the arguments of a call. -/
def ActualParameter.lowerAll (span : Span) :
    List ActualParameter → Lowered (List LoopHoist.ActualParameter)
  | [] => .ok []
  | argument :: rest => do
      let argument ← argument.lower span
      let rest ← ActualParameter.lowerAll span rest
      return argument :: rest

/-- Lowers a declaration. -/
def Declaration.lower (span : Span) : Declaration → Lowered LoopHoist.Declaration
  | .const name value => do
      let name ← named span name
      let value ← value.lower span
      return .const name value span
  | .var name type => do
      let name ← named span name
      let type ← type.lower span
      return .var name type span
  | .proc name parameters body => do
      let name ← named span name
      let parameters ← FormalParameter.lowerAll span parameters
      let body ← body.lower span
      return .proc name parameters body span
  | .func name parameters result body => do
      let name ← named span name
      let parameters ← FormalParameter.lowerAll span parameters
      let result ← result.lower span
      let body ← body.lower span
      return .func name parameters result body span
  | .type name type => do
      let name ← named span name
      let type ← type.lower span
      return .type name type span
  | .unaryOperator operator argument result => do
      let operator ← named span operator
      let argument ← argument.lower span
      let result ← result.lower span
      return .unaryOperator operator argument result span
  | .binaryOperator operator left right result => do
      let operator ← named span operator
      let left ← left.lower span
      let right ← right.lower span
      let result ← result.lower span
      return .binaryOperator operator left right result span
  | .sequential declarations => do
      let declarations ← Declaration.lowerAll span declarations
      match LoopHoist.Declaration.chain? span declarations with
      | some chain => return chain
      | none => .error .noDeclarations

/-- Lowers a list of declarations. -/
def Declaration.lowerAll (span : Span) : List Declaration → Lowered (List LoopHoist.Declaration)
  | [] => .ok []
  | declaration :: rest => do
      let declaration ← declaration.lower span
      let rest ← Declaration.lowerAll span rest
      return declaration :: rest

/-- Lowers a command. -/
def Command.lower (span : Span) : Command → Lowered LoopHoist.Command
  | .assign target value => do
      let target ← target.lower span
      let value ← value.lower span
      return .assign target value span
  | .call procedure arguments => do
      let procedure ← named span procedure
      let arguments ← ActualParameter.lowerAll span arguments
      return .call procedure arguments span
  | .empty => .ok (.skip span)
  | .ifThenElse condition thenBranch elseBranch => do
      let condition ← condition.lower span
      let thenBranch ← thenBranch.lower span
      let elseBranch ← elseBranch.lower span
      return .ifThenElse condition thenBranch elseBranch span
  | .letIn declaration body => do
      let declaration ← declaration.lower span
      let body ← body.lower span
      return .letIn declaration body span
  | .sequential commands => do
      return LoopHoist.Command.seqAll span (← Command.lowerAll span commands)
  | .whileDo condition body => do
      let condition ← condition.lower span
      let body ← body.lower span
      return .whileDo condition body span

/-- Lowers a list of commands. -/
def Command.lowerAll (span : Span) : List Command → Lowered (List LoopHoist.Command)
  | [] => .ok []
  | command :: rest => do
      let command ← command.lower span
      let rest ← Command.lowerAll span rest
      return command :: rest

end

/-- Lowers a program. -/
def Program.lower (span : Span) (program : Program) : Lowered LoopHoist.Program := do
  return ⟨← program.command.lower span, span⟩

end LoopHoist.Document
