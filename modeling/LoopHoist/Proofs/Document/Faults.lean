import LoopHoist.Proofs.Document.Lowered
import Mathlib.Logic.Basic

/-!
# The faults of a document

`faults` lists everything that is wrong with a document, in the order of a walk through it: empty
names and operator symbols, integers that are not spelled by digits alone, and sequences of no
declarations.  The walk goes through the parts of a node as its equation says.  Mostly these are its
fields from left to right, but the operator of a binary expression stands between its operands.

Lowering stops at the first thing that is wrong.  `lower_eq_error_iff` says that this is always the
first fault of the list, however far into the document it stands and whatever else is wrong later,
and that a document without faults is lowered.

## Strategy

`Finds` compares a lowering with a list of faults.  A lowering that does one thing after the other
finds the faults of the first and then those of the second (`Finds.bind`), so the proof for a node
takes its parts in the order in which they are lowered.  If that is not the order of the list, it
does not go through.
-/

namespace LoopHoist.Document

/-! ## Leaves -/

/-- What is wrong with a name or an operator symbol. -/
def nameFaults (spelling : String) : List LoweringFault :=
  if spelling = "" then [.emptyName] else []

/-- The bytes of a text. -/
def bytesOf (text : String) : List UInt8 := text.toUTF8.data.toList

/-- Whether a byte is that of a decimal digit. -/
def isDigitByte (byte : UInt8) : Bool := decide (48 ≤ byte.toNat ∧ byte.toNat ≤ 57)

/-- What is wrong with an integer: there is nothing to its spelling, or a byte that is no digit. -/
def Integer.faults (integer : Integer) : List LoweringFault :=
  if integer.text = "" ∨ ∃ byte ∈ bytesOf integer.text, isDigitByte byte = false then
    [.notDigits integer.text]
  else []

/-! ## Nodes -/

mutual

/-- The faults of a type. -/
def TypeDenoter.faults : TypeDenoter → List LoweringFault
  | .simple name => nameFaults name
  | .array length element => length.faults ++ element.faults
  | .record fields => TypeDenoter.faultsFields fields

/-- The faults of the fields of a record type, each name before its type. -/
def TypeDenoter.faultsFields : List (String × TypeDenoter) → List LoweringFault
  | [] => []
  | (name, type) :: rest => nameFaults name ++ type.faults ++ TypeDenoter.faultsFields rest

end

mutual

/-- The faults of a formal parameter. -/
def FormalParameter.faults : FormalParameter → List LoweringFault
  | .const name type | .var name type => nameFaults name ++ type.faults
  | .proc name parameters => nameFaults name ++ FormalParameter.faultsAll parameters
  | .func name parameters result =>
      nameFaults name ++ FormalParameter.faultsAll parameters ++ result.faults

/-- The faults of a list of formal parameters. -/
def FormalParameter.faultsAll : List FormalParameter → List LoweringFault
  | [] => []
  | parameter :: rest => parameter.faults ++ FormalParameter.faultsAll rest

end

mutual

/-- The faults of a value name. -/
def Vname.faults : Vname → List LoweringFault
  | .simple name => nameFaults name
  | .dot base field => base.faults ++ nameFaults field
  | .subscript base index => base.faults ++ index.faults

/-- The faults of an expression. -/
def Expression.faults : Expression → List LoweringFault
  | .empty | .character _ => []
  | .integer value => value.faults
  | .vname vname => vname.faults
  | .var name => nameFaults name
  | .unary operator operand => nameFaults operator ++ operand.faults
  | .binary operator left right => left.faults ++ nameFaults operator ++ right.faults
  | .ifThenElse condition thenBranch elseBranch =>
      condition.faults ++ thenBranch.faults ++ elseBranch.faults
  | .letIn declaration body => declaration.faults ++ body.faults
  | .call function arguments => nameFaults function ++ ActualParameter.faultsAll arguments
  | .array elements => Expression.faultsAll elements
  | .record fields => Expression.faultsFields fields

/-- The faults of a list of expressions. -/
def Expression.faultsAll : List Expression → List LoweringFault
  | [] => []
  | element :: rest => element.faults ++ Expression.faultsAll rest

/-- The faults of the fields of a record, each name before its value. -/
def Expression.faultsFields : List (String × Expression) → List LoweringFault
  | [] => []
  | (name, value) :: rest => nameFaults name ++ value.faults ++ Expression.faultsFields rest

/-- The faults of an argument. -/
def ActualParameter.faults : ActualParameter → List LoweringFault
  | .const value => value.faults
  | .var vname => vname.faults
  | .proc name | .func name => nameFaults name

/-- The faults of the arguments of a call. -/
def ActualParameter.faultsAll : List ActualParameter → List LoweringFault
  | [] => []
  | argument :: rest => argument.faults ++ ActualParameter.faultsAll rest

/-- The faults of a declaration. -/
def Declaration.faults : Declaration → List LoweringFault
  | .const name value => nameFaults name ++ value.faults
  | .var name type | .type name type => nameFaults name ++ type.faults
  | .proc name parameters body =>
      nameFaults name ++ FormalParameter.faultsAll parameters ++ body.faults
  | .func name parameters result body =>
      nameFaults name ++ FormalParameter.faultsAll parameters ++ result.faults ++ body.faults
  | .unaryOperator operator argument result =>
      nameFaults operator ++ argument.faults ++ result.faults
  | .binaryOperator operator left right result =>
      nameFaults operator ++ left.faults ++ right.faults ++ result.faults
  | .sequential [] => [.noDeclarations]
  | .sequential (first :: rest) => first.faults ++ Declaration.faultsAll rest

/-- The faults of a list of declarations. -/
def Declaration.faultsAll : List Declaration → List LoweringFault
  | [] => []
  | declaration :: rest => declaration.faults ++ Declaration.faultsAll rest

/-- The faults of a command. -/
def Command.faults : Command → List LoweringFault
  | .assign target value => target.faults ++ value.faults
  | .call procedure arguments => nameFaults procedure ++ ActualParameter.faultsAll arguments
  | .empty => []
  | .ifThenElse condition thenBranch elseBranch =>
      condition.faults ++ thenBranch.faults ++ elseBranch.faults
  | .letIn declaration body => declaration.faults ++ body.faults
  | .sequential commands => Command.faultsAll commands
  | .whileDo condition body => condition.faults ++ body.faults

/-- The faults of a list of commands. -/
def Command.faultsAll : List Command → List LoweringFault
  | [] => []
  | command :: rest => command.faults ++ Command.faultsAll rest

end

/-- The faults of a program. -/
def Program.faults (program : Program) : List LoweringFault := program.command.faults

/-! ## Lowering one thing after the other -/

/-- A lowering gives a tree if there are no faults, and otherwise the first fault. -/
def Finds {α : Type} (lowered : Lowered α) (faults : List LoweringFault) : Prop :=
  match faults with
  | [] => ∃ tree, lowered = .ok tree
  | first :: _ => lowered = .error first

namespace Finds

variable {α β : Type} {lowered : Lowered α} {faults later : List LoweringFault}

theorem ok (tree : α) : Finds (.ok tree) [] := ⟨tree, rfl⟩

theorem bind {next : α → Lowered β} (hfirst : Finds lowered faults)
    (hnext : ∀ tree, Finds (next tree) later) : Finds (lowered >>= next) (faults ++ later) := by
  cases faults with
  | nil =>
      obtain ⟨tree, rfl⟩ := hfirst
      exact hnext tree
  | cons fault rest =>
      -- a fault ends the lowering, so what would come next is not looked at
      have herror : lowered = .error fault := hfirst
      rw [herror]
      rfl

/-- What is built from the result has no faults of its own. -/
theorem map (hlowered : Finds lowered faults) (build : α → β) :
    Finds (lowered >>= fun tree => .ok (build tree)) faults := by
  have hbuilt := hlowered.bind fun tree => ok (build tree)
  rwa [List.append_nil] at hbuilt

theorem exists_eq_ok_iff (hlowered : Finds lowered faults) :
    (∃ tree, lowered = .ok tree) ↔ faults = [] := by
  cases faults with
  | nil =>
      obtain ⟨tree, rfl⟩ := hlowered
      simp
  | cons fault rest =>
      have herror : lowered = .error fault := hlowered
      simp [herror]

theorem eq_error_iff (hlowered : Finds lowered faults) {fault : LoweringFault} :
    lowered = .error fault ↔ faults.head? = some fault := by
  cases faults with
  | nil =>
      obtain ⟨tree, rfl⟩ := hlowered
      simp
  | cons first rest =>
      have herror : lowered = .error first := hlowered
      simp [herror]

end Finds

/-! ## Leaves are checked -/

variable {span : Span}

theorem finds_named {sort : Lexeme} (spelling : String) :
    Finds (named span spelling : Lowered (Terminal sort)) (nameFaults spelling) := by
  unfold named nameFaults
  by_cases hempty : spelling = ""
  · rw [if_pos hempty, if_pos (by simp [hempty])]
    rfl
  · rw [if_neg hempty, if_neg (by simpa using hempty)]
    exact .ok _

theorem bytesOf_eq (text : String) :
    bytesOf text = text.toList.flatMap String.utf8EncodeChar := by
  unfold bytesOf String.toUTF8
  rw [← String.utf8Encode_toList, List.utf8Encode, List.data_toByteArray]

/-- A character is a digit exactly if it has no bytes but those of digits.  A character beyond ASCII
has none of them. -/
theorem isDigit_iff_utf8EncodeChar (c : Char) :
    c.isDigit = true ↔ ∀ byte ∈ String.utf8EncodeChar c, isDigitByte byte = true := by
  have hdigit : c.isDigit = true ↔ 48 ≤ c.val.toNat ∧ c.val.toNat ≤ 57 := by
    simp [Char.isDigit, UInt32.le_iff_toNat_le]
  rw [hdigit]
  unfold String.utf8EncodeChar isDigitByte
  dsimp only
  by_cases hascii : c.val.toNat ≤ 127
  · have hbyte : c.val.toNat % 2 ^ 8 = c.val.toNat := by omega
    rw [if_pos hascii, List.forall_mem_singleton, UInt8.toNat_ofNat', hbyte, decide_eq_true_eq]
  · rw [if_neg hascii]
    constructor
    · intro hrange
      omega
    · intro hbytes
      exfalso
      -- the first byte of a longer code is at least 192
      split at hbytes
      · have hfirst := hbytes _ (List.mem_cons_self ..)
        simp only [UInt8.toNat_ofNat', decide_eq_true_eq] at hfirst
        omega
      · split at hbytes
        all_goals
          have hfirst := hbytes _ (List.mem_cons_self ..)
          simp only [UInt8.toNat_ofNat', decide_eq_true_eq] at hfirst
          omega

theorem isNumeral_iff_bytesOf (text : String) :
    isNumeral text = true ↔ ¬ (text = "" ∨ ∃ byte ∈ bytesOf text, isDigitByte byte = false) := by
  rw [isNumeral_iff, not_or, bytesOf_eq]
  refine and_congr_right fun _ => ?_
  simp only [isDigit_iff_utf8EncodeChar, List.mem_flatMap, not_exists, not_and,
    Bool.not_eq_false]
  constructor
  · rintro hall byte ⟨c, hc, hbyte⟩
    exact hall c hc byte hbyte
  · intro hall c hc byte hbyte
    exact hall byte ⟨c, hc, hbyte⟩

theorem Integer.finds_lower (integer : Integer) : Finds (integer.lower span) integer.faults := by
  unfold Integer.lower Integer.faults
  by_cases hnumeral : isNumeral integer.text = true
  · rw [if_pos hnumeral, if_neg ((isNumeral_iff_bytesOf _).mp hnumeral)]
    exact .ok _
  · -- a text that is no numeral is empty or has a byte that is no digit
    have hfaulty := not_imp_comm.mp (isNumeral_iff_bytesOf integer.text).mpr hnumeral
    rw [if_neg hnumeral, if_pos hfaulty]
    rfl

/-! ## Nodes are lowered in the order of the walk -/

mutual

theorem TypeDenoter.finds_lower : ∀ type : TypeDenoter, Finds (type.lower span) type.faults
  | .simple name => (finds_named name).map _
  | .array length element =>
      length.finds_lower.bind fun _ => element.finds_lower.map _
  | .record fields => (TypeDenoter.finds_lowerFields fields).map _

theorem TypeDenoter.finds_lowerFields : ∀ fields : List (String × TypeDenoter),
    Finds (TypeDenoter.lowerFields span fields) (TypeDenoter.faultsFields fields)
  | [] => .ok _
  | (name, type) :: rest => by
      rw [TypeDenoter.faultsFields, List.append_assoc]
      exact (finds_named name).bind fun _ => type.finds_lower.bind fun _ =>
        (TypeDenoter.finds_lowerFields rest).map _

end

mutual

theorem FormalParameter.finds_lower : ∀ parameter : FormalParameter,
    Finds (parameter.lower span) parameter.faults
  | .const name type | .var name type =>
      (finds_named name).bind fun _ => type.finds_lower.map _
  | .proc name parameters =>
      (finds_named name).bind fun _ => (FormalParameter.finds_lowerAll parameters).map _
  | .func name parameters result => by
      rw [FormalParameter.faults, List.append_assoc]
      exact (finds_named name).bind fun _ =>
        (FormalParameter.finds_lowerAll parameters).bind fun _ => result.finds_lower.map _

theorem FormalParameter.finds_lowerAll : ∀ parameters : List FormalParameter,
    Finds (FormalParameter.lowerAll span parameters) (FormalParameter.faultsAll parameters)
  | [] => .ok _
  | parameter :: rest =>
      parameter.finds_lower.bind fun _ => (FormalParameter.finds_lowerAll rest).map _

end

/-- Declarations can be put in sequence if there are any. -/
theorem exists_chain?_cons (first : LoopHoist.Declaration) (rest : List LoopHoist.Declaration) :
    ∃ chain, LoopHoist.Declaration.chain? span (first :: rest) = some chain := by
  induction rest generalizing first with
  | nil => exact ⟨first, rfl⟩
  | cons next others ih =>
      obtain ⟨chain, hchain⟩ := ih next
      exact ⟨.seq first chain span, by simp [LoopHoist.Declaration.chain?, hchain]⟩

mutual

theorem Vname.finds_lower : ∀ vname : Vname, Finds (vname.lower span) vname.faults
  | .simple name => (finds_named name).map _
  | .dot base field => base.finds_lower.bind fun _ => (finds_named field).map _
  | .subscript base index => base.finds_lower.bind fun _ => index.finds_lower.map _

theorem Expression.finds_lower : ∀ expression : Expression,
    Finds (expression.lower span) expression.faults
  | .empty | .character _ => .ok _
  | .integer value => value.finds_lower.map _
  | .vname vname => vname.finds_lower.map _
  | .var name => (finds_named name).map _
  | .unary operator operand => (finds_named operator).bind fun _ => operand.finds_lower.map _
  | .binary operator left right => by
      rw [Expression.faults, List.append_assoc]
      exact left.finds_lower.bind fun _ => (finds_named operator).bind fun _ =>
        right.finds_lower.map _
  | .ifThenElse condition thenBranch elseBranch => by
      rw [Expression.faults, List.append_assoc]
      exact condition.finds_lower.bind fun _ => thenBranch.finds_lower.bind fun _ =>
        elseBranch.finds_lower.map _
  | .letIn declaration body => declaration.finds_lower.bind fun _ => body.finds_lower.map _
  | .call function arguments =>
      (finds_named function).bind fun _ => (ActualParameter.finds_lowerAll arguments).map _
  | .array elements => (Expression.finds_lowerAll elements).map _
  | .record fields => (Expression.finds_lowerFields fields).map _

theorem Expression.finds_lowerAll : ∀ elements : List Expression,
    Finds (Expression.lowerAll span elements) (Expression.faultsAll elements)
  | [] => .ok _
  | element :: rest => element.finds_lower.bind fun _ => (Expression.finds_lowerAll rest).map _

theorem Expression.finds_lowerFields : ∀ fields : List (String × Expression),
    Finds (Expression.lowerFields span fields) (Expression.faultsFields fields)
  | [] => .ok _
  | (name, value) :: rest => by
      rw [Expression.faultsFields, List.append_assoc]
      exact (finds_named name).bind fun _ => value.finds_lower.bind fun _ =>
        (Expression.finds_lowerFields rest).map _

theorem ActualParameter.finds_lower : ∀ argument : ActualParameter,
    Finds (argument.lower span) argument.faults
  | .const value => value.finds_lower.map _
  | .var vname => vname.finds_lower.map _
  | .proc name | .func name => (finds_named name).map _

theorem ActualParameter.finds_lowerAll : ∀ arguments : List ActualParameter,
    Finds (ActualParameter.lowerAll span arguments) (ActualParameter.faultsAll arguments)
  | [] => .ok _
  | argument :: rest =>
      argument.finds_lower.bind fun _ => (ActualParameter.finds_lowerAll rest).map _

theorem Declaration.finds_lower : ∀ declaration : Declaration,
    Finds (declaration.lower span) declaration.faults
  | .const name value => (finds_named name).bind fun _ => value.finds_lower.map _
  | .var name type | .type name type => (finds_named name).bind fun _ => type.finds_lower.map _
  | .proc name parameters body => by
      rw [Declaration.faults, List.append_assoc]
      exact (finds_named name).bind fun _ =>
        (FormalParameter.finds_lowerAll parameters).bind fun _ => body.finds_lower.map _
  | .func name parameters result body => by
      rw [Declaration.faults, List.append_assoc, List.append_assoc]
      exact (finds_named name).bind fun _ =>
        (FormalParameter.finds_lowerAll parameters).bind fun _ =>
          result.finds_lower.bind fun _ => body.finds_lower.map _
  | .unaryOperator operator argument result => by
      rw [Declaration.faults, List.append_assoc]
      exact (finds_named operator).bind fun _ => argument.finds_lower.bind fun _ =>
        result.finds_lower.map _
  | .binaryOperator operator left right result => by
      rw [Declaration.faults, List.append_assoc, List.append_assoc]
      exact (finds_named operator).bind fun _ => left.finds_lower.bind fun _ =>
        right.finds_lower.bind fun _ => result.finds_lower.map _
  | .sequential [] => rfl
  | .sequential (first :: rest) => by
      rw [Declaration.lower, Declaration.lowerAll, Declaration.faults, bind_assoc]
      refine first.finds_lower.bind fun tree => ?_
      rw [bind_assoc, ← List.append_nil (Declaration.faultsAll rest)]
      refine (Declaration.finds_lowerAll rest).bind fun trees => ?_
      -- the test for an empty list comes after everything else, and cannot fail any more
      obtain ⟨chain, hchain⟩ := exists_chain?_cons tree trees
      rw [pure_bind, hchain]
      exact .ok chain

theorem Declaration.finds_lowerAll : ∀ declarations : List Declaration,
    Finds (Declaration.lowerAll span declarations) (Declaration.faultsAll declarations)
  | [] => .ok _
  | declaration :: rest =>
      declaration.finds_lower.bind fun _ => (Declaration.finds_lowerAll rest).map _

theorem Command.finds_lower : ∀ command : Command, Finds (command.lower span) command.faults
  | .assign target value => target.finds_lower.bind fun _ => value.finds_lower.map _
  | .call procedure arguments =>
      (finds_named procedure).bind fun _ => (ActualParameter.finds_lowerAll arguments).map _
  | .empty => .ok _
  | .ifThenElse condition thenBranch elseBranch => by
      rw [Command.faults, List.append_assoc]
      exact condition.finds_lower.bind fun _ => thenBranch.finds_lower.bind fun _ =>
        elseBranch.finds_lower.map _
  | .letIn declaration body => declaration.finds_lower.bind fun _ => body.finds_lower.map _
  | .sequential commands => (Command.finds_lowerAll commands).map _
  | .whileDo condition body => condition.finds_lower.bind fun _ => body.finds_lower.map _

theorem Command.finds_lowerAll : ∀ commands : List Command,
    Finds (Command.lowerAll span commands) (Command.faultsAll commands)
  | [] => .ok _
  | command :: rest => command.finds_lower.bind fun _ => (Command.finds_lowerAll rest).map _

end

/-- **Lowering reports the first fault.**  A document is lowered exactly if it has no faults, and an
error of lowering is always the first of them in the order of the walk. -/
theorem lower_eq_error_iff (document : Program) (span : Span) :
    ((∃ tree, document.lower span = .ok tree) ↔ document.faults = []) ∧
      ∀ fault, document.lower span = .error fault ↔ document.faults.head? = some fault := by
  have hfinds : Finds (document.lower span) document.faults := document.command.finds_lower.map _
  exact ⟨hfinds.exists_eq_ok_iff, fun fault => hfinds.eq_error_iff⟩

/-- The faults of `let const k ~ -5 in x[1y _ 2] := let _ in k`, where the operator and the inner
declarations are missing: an operator is looked at after the operand on its left. -/
example :
    let index : Expression := .binary "" (.integer (.spelling "1y")) (.integer (.number 2))
    let value : Expression := .letIn (.sequential []) (.var "k")
    let document : Program :=
      ⟨.letIn (.const "k" (.integer (.number (-5)))) (.assign (.subscript (.simple "x") index) value)⟩
    document.faults = [.notDigits "-5", .notDigits "1y", .emptyName, .noDeclarations] := by
  decide +kernel

end LoopHoist.Document
