import LoopHoist.Triangle.Tree
import Mathlib.Data.List.Basic

/-!
# Reading programs back

A parser for the text that programs are printed as.  It is not meant for anything but to show that
the text determines the tree: it reads what the printer writes, in the one way that the printer
writes it, and gives a tree without places and with sequences nested to the right.

Every parser takes something off the front of a text and gives the rest.  What to read is decided by
the first character (`Parse.opening`) and, where that belongs to a word, by the word.  An expression
is an operand, or two operands with an operator in between; after an operand it is enough to look
whether an operator follows.

The parsers call each other, so they have fuel, which every call uses up by one.
-/

namespace LoopHoist.Parse

/-- Takes something off the front of a text. -/
abbrev Parser (α : Type) := List Char → Option (α × List Char)

/-! ## Characters and words -/

/-- Whether a character may stand in a name: letters, digits and `$`.  Beyond ASCII all characters
count as letters. -/
def isWordChar (c : Char) : Bool := c.isAlphanum || c == '$' || decide (128 ≤ c.toNat)

/-- Whether a character may stand in an operator symbol. -/
def isOperatorChar (c : Char) : Bool := "+-*/=<>\\&@%^?".toList.contains c

/-- What the first character of a text opens. -/
inductive Opening where
  | quote
  | parenthesis
  | bracket
  | brace
  | digit
  | word
  | operator
  | other
deriving DecidableEq

/-- What a text opens with. -/
def opening : List Char → Opening
  | [] => .other
  | c :: _ =>
      if c = '\'' then .quote
      else if c = '(' then .parenthesis
      else if c = '[' then .bracket
      else if c = '\x7b' then .brace
      else if c.isDigit then .digit
      else if isWordChar c then .word
      else if isOperatorChar c then .operator
      else .other

/-- The word that a text starts with. -/
def wordAhead (cs : List Char) : String := String.ofList (cs.takeWhile isWordChar)

/-- The rest of a text that starts as given. -/
def expect (text : String) (cs : List Char) : Option (List Char) := text.toList.isPrefixOf? cs

/-- The operator between two operands, if one follows, and the text after it. -/
def operatorAhead : List Char → Option (Operator × List Char)
  | ' ' :: cs =>
      match cs.takeWhile isOperatorChar with
      | [] => none
      | symbols =>
          (expect " " (cs.dropWhile isOperatorChar)).map fun rest =>
            (⟨String.ofList symbols, .dummy⟩, rest)
  | _ => none

/-- A leaf made of the given characters. -/
def leaf {sort : Lexeme} (isPart : Char → Bool) : Parser (Terminal sort) := fun cs =>
  some (⟨String.ofList (cs.takeWhile isPart), .dummy⟩, cs.dropWhile isPart)

/-- A name. -/
def name : Parser Identifier := leaf isWordChar

/-- A character between quotes. -/
def character : Parser CharacterLiteral
  | quote :: c :: quote' :: rest => some (⟨String.ofList [quote, c, quote'], .dummy⟩, rest)
  | _ => none

/-! ## Lists -/

section

variable {α : Type}

/-- At most the given number of items, with a separator between them. -/
def itemsUpTo (separator : String) (item : Parser α) : Nat → Parser (List α)
  | 0, cs => some ([], cs)
  | count + 1, cs =>
      match item cs with
      | none => some ([], cs)
      | some (a, rest) =>
          match expect separator rest with
          | none => some ([a], rest)
          | some rest =>
              (itemsUpTo separator item count rest).map fun (later, rest) => (a :: later, rest)

/-- As many items as there are, with a separator between them.  Each but the last is followed by
the separator, so there are not more of them than characters, or one more. -/
def items (separator : String) (item : Parser α) : Parser (List α) := fun cs =>
  itemsUpTo separator item (cs.length + 1) cs

/-- Items between brackets, with commas between them. -/
def list (opened : String) (item : Parser α) (closed : String) : Parser (List α) := fun cs => do
  let rest ← expect opened cs
  let (parts, rest) ← items ", " item rest
  let rest ← expect closed rest
  return (parts, rest)

/-- A name and what stands for it. -/
def field (separator : String) (value : Parser α) : Parser (Identifier × α) := fun cs => do
  let (name, rest) ← name cs
  let rest ← expect separator rest
  let (a, rest) ← value rest
  return ((name, a), rest)

/-- Something between two texts. -/
def between (opened : String) (item : Parser α) (closed : String) : Parser α := fun cs => do
  let rest ← expect opened cs
  let (a, rest) ← item rest
  let rest ← expect closed rest
  return (a, rest)

end

/-- Commands one after another. -/
def sequence (command : Parser Command) : Parser Command := fun cs => do
  let (parts, rest) ← items "; " command cs
  return (.seqAll .dummy parts, rest)

/-- Declarations one after another. -/
def chain (declaration : Parser Declaration) : Parser Declaration := fun cs => do
  let (parts, rest) ← items "; " declaration cs
  let chain ← Declaration.chain? .dummy parts
  return (chain, rest)

/-! ## Types and formal parameters -/

/-- A type. -/
def type : Nat → Parser TypeDenoter
  | 0, _ => none
  | fuel + 1, cs =>
      if wordAhead cs = "array" then do
        let rest ← expect "array " cs
        let (length, rest) ← leaf Char.isDigit rest
        let rest ← expect " of " rest
        let (element, rest) ← type fuel rest
        return (.array length element, rest)
      else if wordAhead cs = "record" then do
        let (fields, rest) ← list "record " (field " : " (type fuel)) " end" cs
        return (.record fields, rest)
      else do
        let (name, rest) ← name cs
        return (.simple name, rest)

/-- A formal parameter. -/
def parameter : Nat → Parser FormalParameter
  | 0, _ => none
  | fuel + 1, cs =>
      if wordAhead cs = "var" then do
        let rest ← expect "var " cs
        let ((name, type), rest) ← field " : " (type fuel) rest
        return (.var name type, rest)
      else if wordAhead cs = "proc" then do
        let rest ← expect "proc " cs
        let (name, rest) ← name rest
        let (parameters, rest) ← list "(" (parameter fuel) ")" rest
        return (.proc name parameters, rest)
      else if wordAhead cs = "func" then do
        let rest ← expect "func " cs
        let (name, rest) ← name rest
        let (parameters, rest) ← list "(" (parameter fuel) ") : " rest
        let (result, rest) ← type fuel rest
        return (.func name parameters result, rest)
      else do
        let ((name, type), rest) ← field " : " (type fuel) cs
        return (.const name type, rest)

/-! ## Value names, expressions, arguments, declarations and commands -/

/-- What starts with a name in an expression. -/
def callOrRead (arguments : Parser (List ActualParameter)) (suffixes : Vname → Parser Vname)
    (name : Identifier) : Parser Expression := fun cs =>
  match expect "(" cs with
  | some _ => do
      let (arguments, rest) ← arguments cs
      return (.call name arguments .dummy, rest)
  | none => do
      let (vname, rest) ← suffixes (.simple name .dummy) cs
      return (.read vname .dummy, rest)

/-- What starts with a name where a command is expected. -/
def callOrAssign (arguments : Parser (List ActualParameter)) (suffixes : Vname → Parser Vname)
    (value : Parser Expression) (name : Identifier) : Parser Command := fun cs =>
  match expect "(" cs with
  | some _ => do
      let (arguments, rest) ← arguments cs
      return (.call name arguments .dummy, rest)
  | none => do
      let (target, rest) ← suffixes (.simple name .dummy) cs
      let rest ← expect " := " rest
      let (value, rest) ← value rest
      return (.assign target value .dummy, rest)

mutual

/-- The fields and indices that follow a value name. -/
def suffixes : Nat → Vname → Parser Vname
  | 0, _, _ => none
  | fuel + 1, base, cs =>
      match expect "." cs, expect "[" cs with
      | some rest, _ => do
          let (field, rest) ← name rest
          suffixes fuel (.dot base field .dummy) rest
      | none, some rest => do
          let (index, rest) ← expression fuel rest
          let rest ← expect "]" rest
          suffixes fuel (.subscript base index .dummy) rest
      | none, none => some (base, cs)

/-- An expression that can be an operand, or any expression in parentheses. -/
def operand : Nat → Parser Expression
  | 0, _ => none
  | fuel + 1, cs =>
      match opening cs with
      | .quote => do
          let (literal, rest) ← character cs
          return (.character literal .dummy, rest)
      | .digit => do
          let (literal, rest) ← leaf Char.isDigit cs
          return (.integer literal .dummy, rest)
      | .operator => do
          let (operator, rest) ← leaf isOperatorChar cs
          let (operand, rest) ← operand fuel rest
          return (.unary operator operand .dummy, rest)
      | .parenthesis => between "(" (expression fuel) ")" cs
      | .bracket => do
          let (elements, rest) ← list "[" (expression fuel) "]" cs
          return (.array elements .dummy, rest)
      | .brace => do
          let (fields, rest) ← list "\x7b" (field " ~ " (expression fuel)) "\x7d" cs
          return (.record fields .dummy, rest)
      | .word =>
          if wordAhead cs = "if" then do
            let (condition, rest) ← between "if " (expression fuel) " then " cs
            let (thenBranch, rest) ← expression fuel rest
            let rest ← expect " else " rest
            let (elseBranch, rest) ← expression fuel rest
            return (.ifThenElse condition thenBranch elseBranch .dummy, rest)
          else if wordAhead cs = "let" then do
            let (declaration, rest) ← between "let " (chain (declaration fuel)) " in " cs
            let (body, rest) ← expression fuel rest
            return (.letIn declaration body .dummy, rest)
          else do
            let (name, rest) ← name cs
            callOrRead (list "(" (argument fuel) ")") (suffixes fuel) name rest
      | .other => none

/-- An expression. -/
def expression : Nat → Parser Expression
  | 0, _ => none
  | fuel + 1, cs => do
      -- an operand with an operator of its own is in parentheses, so one operator is all
      let (left, rest) ← operand fuel cs
      match operatorAhead rest with
      | none => some (left, rest)
      | some (operator, rest) => do
          let (right, rest) ← operand fuel rest
          return (.binary operator left right .dummy, rest)

/-- An argument of a call. -/
def argument : Nat → Parser ActualParameter
  | 0, _ => none
  | fuel + 1, cs =>
      if wordAhead cs = "var" then do
        let rest ← expect "var " cs
        let (name, rest) ← name rest
        let (vname, rest) ← suffixes fuel (.simple name .dummy) rest
        return (.var vname, rest)
      else if wordAhead cs = "proc" then do
        let rest ← expect "proc " cs
        let (name, rest) ← name rest
        return (.proc name, rest)
      else if wordAhead cs = "func" then do
        let rest ← expect "func " cs
        let (name, rest) ← name rest
        return (.func name, rest)
      else do
        -- no expression starts with one of the three words
        let (value, rest) ← expression fuel cs
        return (.const value, rest)

/-- A declaration that is not a sequence. -/
def declaration : Nat → Parser Declaration
  | 0, _ => none
  | fuel + 1, cs =>
      if wordAhead cs = "const" then do
        let rest ← expect "const " cs
        let ((name, value), rest) ← field " ~ " (expression fuel) rest
        return (.const name value .dummy, rest)
      else if wordAhead cs = "var" then do
        let rest ← expect "var " cs
        let ((name, type), rest) ← field " : " (type fuel) rest
        return (.var name type .dummy, rest)
      else if wordAhead cs = "proc" then do
        let rest ← expect "proc " cs
        let (name, rest) ← name rest
        let (parameters, rest) ← list "(" (parameter fuel) ")" rest
        let rest ← expect " ~ " rest
        let (body, rest) ← command fuel rest
        return (.proc name parameters body .dummy, rest)
      else if wordAhead cs = "func" then do
        let rest ← expect "func " cs
        let (name, rest) ← name rest
        let (parameters, rest) ← list "(" (parameter fuel) ")" rest
        let (result, rest) ← between " : " (type fuel) " ~ " rest
        let (body, rest) ← expression fuel rest
        return (.func name parameters result body .dummy, rest)
      else if wordAhead cs = "type" then do
        let rest ← expect "type " cs
        let ((name, type), rest) ← field " ~ " (type fuel) rest
        return (.type name type .dummy, rest)
      else do
        let rest ← expect "operator " cs
        let (operator, rest) ← leaf isOperatorChar rest
        let rest ← expect " (" rest
        let (first, rest) ← type fuel rest
        match expect ", " rest with
        | none => do
            let rest ← expect ") : " rest
            let (result, rest) ← type fuel rest
            return (.unaryOperator operator first result .dummy, rest)
        | some rest => do
            let (second, rest) ← type fuel rest
            let rest ← expect ") : " rest
            let (result, rest) ← type fuel rest
            return (.binaryOperator operator first second result .dummy, rest)

/-- A command that is not a sequence, or any command between `begin` and `end`. -/
def command : Nat → Parser Command
  | 0, _ => none
  | fuel + 1, cs =>
      -- the empty command is the only one that does not start with a word
      if wordAhead cs = "" then some (.skip .dummy, cs)
      else if wordAhead cs = "begin" then
        between "begin " (sequence (command fuel)) " end" cs
      else if wordAhead cs = "if" then do
        let (condition, rest) ← between "if " (expression fuel) " then " cs
        let (thenBranch, rest) ← command fuel rest
        let rest ← expect " else " rest
        let (elseBranch, rest) ← command fuel rest
        return (.ifThenElse condition thenBranch elseBranch .dummy, rest)
      else if wordAhead cs = "let" then do
        let (declaration, rest) ← between "let " (chain (declaration fuel)) " in " cs
        let (body, rest) ← command fuel rest
        return (.letIn declaration body .dummy, rest)
      else if wordAhead cs = "while" then do
        let (condition, rest) ← between "while " (expression fuel) " do " cs
        let (body, rest) ← command fuel rest
        return (.whileDo condition body .dummy, rest)
      else do
        let (name, rest) ← name cs
        callOrAssign (list "(" (argument fuel) ")") (suffixes fuel) (expression fuel) name rest

end

/-- The command of a program, up to the end of the text. -/
def program (fuel : Nat) (text : String) : Option Program := do
  let (command, rest) ← sequence (command fuel) text.toList
  if rest = [] then some ⟨command, .dummy⟩ else none

end LoopHoist.Parse
