import LoopHoist.Document.Writer
import Mathlib.Data.List.Forall2

/-!
# The spellings of a document

A document can be written down in more than one way.  Each of its nodes is either a mapping, which
has the name of the kind under `kind` and each field under its name, in any order and among whatever
else stands there, or a sequence, which has the name of the kind first and then the fields in order.
A list of arguments or parameters that is empty need not be written.  Programs and the fields of
records have no kind and are otherwise written in the same two ways.

`Spells` says this once for each family: a constructor is given the name of its kind and its fields
in order, and `SpellsGroup` says what a value has to be.

## Strategy

What is written is a spelling (`Program.spells_write`).  `spells_node` and `spells_ofFields` show it
for one node from the same fact for its fields, so the recursion over the tree only lists the fields
of each kind.  A field that is written under another name than the one it is spelled with, or not at
all, makes this list fail to match.
-/

namespace LoopHoist.Document

/-! ## Groups of fields -/

/-- A field of a node: its name, the values that spell what it holds, and whether it may be left
out. -/
structure FieldSpelling where
  name : String
  spells : Value → Prop
  omissible : Prop

namespace FieldSpelling

/-- A field that cannot be left out. -/
def required (name : String) (spells : Value → Prop) : FieldSpelling := ⟨name, spells, False⟩

/-- A field that holds a text. -/
def text (name content : String) : FieldSpelling := required name (· = .text content)

/-- The sequences of which the elements spell a list. -/
def Sequence (spells : List Value → Prop) (value : Value) : Prop :=
  ∃ elements, value = .sequence elements ∧ spells elements

/-- A field that holds a list. -/
def list (name : String) (spells : List Value → Prop) : FieldSpelling :=
  required name (Sequence spells)

/-- A field that holds a list and may be left out when this is empty. -/
def optional {α : Type} (name : String) (items : List α) (spells : List Value → Prop) :
    FieldSpelling :=
  ⟨name, Sequence spells, items = []⟩

end FieldSpelling

/-- The values that stand under a name. -/
def valuesUnder (name : String) (entries : List (String × Value)) : List Value :=
  (entries.filter fun entry => entry.1 == name).map Prod.snd

/-- A value spells a group of fields, which has a kind or none. -/
inductive SpellsGroup (kind : Option String) (fields : List FieldSpelling) : Value → Prop
  /-- The kind and each field stand once under their names, or a field is left out. -/
  | named {entries : List (String × Value)}
      (hkind : ∀ name ∈ kind, valuesUnder "kind" entries = [.text name])
      (hfields : ∀ field ∈ fields,
        (∃ value, valuesUnder field.name entries = [value] ∧ field.spells value) ∨
          valuesUnder field.name entries = [] ∧ field.omissible) :
      SpellsGroup kind fields (.ofFields entries)
  /-- The kind and the fields stand in order, with some fields left out at the end. -/
  | placed {written left : List FieldSpelling} {values : List Value}
      (hfields : fields = written ++ left)
      (hwritten : List.Forall₂ FieldSpelling.spells written values)
      (hleft : ∀ field ∈ left, field.omissible) :
      SpellsGroup kind fields (.sequence (kind.toList.map .text ++ values))

/-! ## What spells a document -/

/-- The values that spell an integer, which keep the form it is given in. -/
def Integer.Spells : Integer → Value → Prop
  | .number value => (· = .integer value.toInt)
  | .spelling text => (· = .text text)

mutual

/-- The values that spell a type. -/
def TypeDenoter.Spells : TypeDenoter → Value → Prop
  | .simple name => SpellsGroup (some "simple") [.text "name" name]
  | .array length element =>
      SpellsGroup (some "array")
        [.required "length" length.Spells, .required "element" element.Spells]
  | .record fields => SpellsGroup (some "record") [.list "fields" (TypeDenoter.SpellsFields fields)]

/-- The values that spell the fields of a record type, one by one. -/
def TypeDenoter.SpellsFields : List (String × TypeDenoter) → List Value → Prop
  | [], values => values = []
  | (name, type) :: rest, values =>
      ∃ first others, values = first :: others ∧
        SpellsGroup none [.text "name" name, .required "type" type.Spells] first ∧
        TypeDenoter.SpellsFields rest others

end

mutual

/-- The values that spell a formal parameter. -/
def FormalParameter.Spells : FormalParameter → Value → Prop
  | .const name type => SpellsGroup (some "const") [.text "name" name, .required "type" type.Spells]
  | .var name type => SpellsGroup (some "var") [.text "name" name, .required "type" type.Spells]
  | .proc name parameters =>
      SpellsGroup (some "proc")
        [.text "name" name,
          .optional "parameters" parameters (FormalParameter.SpellsAll parameters)]
  | .func name parameters result =>
      SpellsGroup (some "func")
        [.text "name" name,
          .optional "parameters" parameters (FormalParameter.SpellsAll parameters),
          .required "result" result.Spells]

/-- The values that spell the formal parameters of a list, one by one. -/
def FormalParameter.SpellsAll : List FormalParameter → List Value → Prop
  | [], values => values = []
  | parameter :: rest, values =>
      ∃ first others, values = first :: others ∧ parameter.Spells first ∧
        FormalParameter.SpellsAll rest others

end

mutual

/-- The values that spell a value name. -/
def Vname.Spells : Vname → Value → Prop
  | .simple name => SpellsGroup (some "simple") [.text "name" name]
  | .dot base field =>
      SpellsGroup (some "dot") [.required "base" base.Spells, .text "field" field]
  | .subscript base index =>
      SpellsGroup (some "subscript")
        [.required "base" base.Spells, .required "index" index.Spells]

/-- The values that spell an expression. -/
def Expression.Spells : Expression → Value → Prop
  | .empty => SpellsGroup (some "empty") []
  | .integer value => SpellsGroup (some "integer") [.required "value" value.Spells]
  | .character value => SpellsGroup (some "character") [.text "value" (String.singleton value)]
  | .vname vname => SpellsGroup (some "vname") [.required "vname" vname.Spells]
  | .var name => SpellsGroup (some "var") [.text "name" name]
  | .unary operator operand =>
      SpellsGroup (some "unary") [.text "operator" operator, .required "operand" operand.Spells]
  | .binary operator left right =>
      SpellsGroup (some "binary")
        [.text "operator" operator, .required "left" left.Spells, .required "right" right.Spells]
  | .ifThenElse condition thenBranch elseBranch =>
      SpellsGroup (some "if")
        [.required "condition" condition.Spells, .required "then_branch" thenBranch.Spells,
          .required "else_branch" elseBranch.Spells]
  | .letIn declaration body =>
      SpellsGroup (some "let")
        [.required "declaration" declaration.Spells, .required "body" body.Spells]
  | .call function arguments =>
      SpellsGroup (some "call")
        [.text "function" function,
          .optional "arguments" arguments (ActualParameter.SpellsAll arguments)]
  | .array elements =>
      SpellsGroup (some "array") [.list "elements" (Expression.SpellsAll elements)]
  | .record fields => SpellsGroup (some "record") [.list "fields" (Expression.SpellsFields fields)]

/-- The values that spell the expressions of a list, one by one. -/
def Expression.SpellsAll : List Expression → List Value → Prop
  | [], values => values = []
  | element :: rest, values =>
      ∃ first others, values = first :: others ∧ element.Spells first ∧
        Expression.SpellsAll rest others

/-- The values that spell the fields of a record, one by one. -/
def Expression.SpellsFields : List (String × Expression) → List Value → Prop
  | [], values => values = []
  | (name, value) :: rest, values =>
      ∃ first others, values = first :: others ∧
        SpellsGroup none [.text "name" name, .required "value" value.Spells] first ∧
        Expression.SpellsFields rest others

/-- The values that spell an argument. -/
def ActualParameter.Spells : ActualParameter → Value → Prop
  | .const value => SpellsGroup (some "const") [.required "value" value.Spells]
  | .var vname => SpellsGroup (some "var") [.required "vname" vname.Spells]
  | .proc name => SpellsGroup (some "proc") [.text "name" name]
  | .func name => SpellsGroup (some "func") [.text "name" name]

/-- The values that spell the arguments of a call, one by one. -/
def ActualParameter.SpellsAll : List ActualParameter → List Value → Prop
  | [], values => values = []
  | argument :: rest, values =>
      ∃ first others, values = first :: others ∧ argument.Spells first ∧
        ActualParameter.SpellsAll rest others

/-- The values that spell a declaration. -/
def Declaration.Spells : Declaration → Value → Prop
  | .const name value =>
      SpellsGroup (some "const") [.text "name" name, .required "value" value.Spells]
  | .var name type => SpellsGroup (some "var") [.text "name" name, .required "type" type.Spells]
  | .proc name parameters body =>
      SpellsGroup (some "proc")
        [.text "name" name,
          .optional "parameters" parameters (FormalParameter.SpellsAll parameters),
          .required "body" body.Spells]
  | .func name parameters result body =>
      SpellsGroup (some "func")
        [.text "name" name,
          .optional "parameters" parameters (FormalParameter.SpellsAll parameters),
          .required "result" result.Spells, .required "body" body.Spells]
  | .type name type => SpellsGroup (some "type") [.text "name" name, .required "type" type.Spells]
  | .unaryOperator operator argument result =>
      SpellsGroup (some "unary_operator")
        [.text "operator" operator, .required "argument" argument.Spells,
          .required "result" result.Spells]
  | .binaryOperator operator left right result =>
      SpellsGroup (some "binary_operator")
        [.text "operator" operator, .required "left" left.Spells, .required "right" right.Spells,
          .required "result" result.Spells]
  | .sequential declarations =>
      SpellsGroup (some "sequential") [.list "declarations" (Declaration.SpellsAll declarations)]

/-- The values that spell the declarations of a list, one by one. -/
def Declaration.SpellsAll : List Declaration → List Value → Prop
  | [], values => values = []
  | declaration :: rest, values =>
      ∃ first others, values = first :: others ∧ declaration.Spells first ∧
        Declaration.SpellsAll rest others

/-- The values that spell a command. -/
def Command.Spells : Command → Value → Prop
  | .assign target value =>
      SpellsGroup (some "assign") [.required "target" target.Spells, .required "value" value.Spells]
  | .call procedure arguments =>
      SpellsGroup (some "call")
        [.text "procedure" procedure,
          .optional "arguments" arguments (ActualParameter.SpellsAll arguments)]
  | .empty => SpellsGroup (some "empty") []
  | .ifThenElse condition thenBranch elseBranch =>
      SpellsGroup (some "if")
        [.required "condition" condition.Spells, .required "then_branch" thenBranch.Spells,
          .required "else_branch" elseBranch.Spells]
  | .letIn declaration body =>
      SpellsGroup (some "let")
        [.required "declaration" declaration.Spells, .required "body" body.Spells]
  | .sequential commands =>
      SpellsGroup (some "sequential") [.list "commands" (Command.SpellsAll commands)]
  | .whileDo condition body =>
      SpellsGroup (some "while")
        [.required "condition" condition.Spells, .required "body" body.Spells]

/-- The values that spell the commands of a list, one by one. -/
def Command.SpellsAll : List Command → List Value → Prop
  | [], values => values = []
  | command :: rest, values =>
      ∃ first others, values = first :: others ∧ command.Spells first ∧
        Command.SpellsAll rest others

end

/-- The values that spell a program. -/
def Program.Spells (program : Program) : Value → Prop :=
  SpellsGroup none [.required "command" program.command.Spells]

/-! ## What is written is a spelling -/

theorem valuesUnder_eq_singleton {name : String} {value : Value} :
    ∀ {entries : List (String × Value)}, (entries.map Prod.fst).Nodup → (name, value) ∈ entries →
      valuesUnder name entries = [value]
  | [], _, hmem => by simp at hmem
  | (name', value') :: rest, hnames, hmem => by
      rw [List.map_cons, List.nodup_cons] at hnames
      rcases List.mem_cons.mp hmem with heq | hrest
      · obtain ⟨rfl, rfl⟩ := Prod.mk.inj heq
        -- the names differ, so nothing after this entry stands under its name
        have hnone : rest.filter (fun entry => entry.1 == name) = [] :=
          List.filter_eq_nil_iff.mpr fun entry hentry hname =>
            hnames.1 (List.mem_map.mpr ⟨entry, hentry, by simpa using hname⟩)
        simp [valuesUnder, hnone]
      · have hne : name' ≠ name := fun heq => hnames.1 (List.mem_map.mpr ⟨_, hrest, heq.symm⟩)
        simpa [valuesUnder, hne] using valuesUnder_eq_singleton hnames.2 hrest

section Written

variable {fields : List FieldSpelling} {entries : List (String × Value)}

/-- An entry has the name of a field and spells what the field holds. -/
def FieldSpelling.WrittenAs (field : FieldSpelling) (entry : String × Value) : Prop :=
  field.name = entry.1 ∧ field.spells entry.2

theorem exists_mem_of_writtenAs (hwritten : List.Forall₂ FieldSpelling.WrittenAs fields entries)
    {field : FieldSpelling} (hfield : field ∈ fields) :
    ∃ value, (field.name, value) ∈ entries ∧ field.spells value := by
  induction hwritten with
  | nil => simp at hfield
  | @cons _ entry _ _ hhead _ ih =>
      rcases List.mem_cons.mp hfield with rfl | hrest
      · exact ⟨entry.2, by simp [hhead.1], hhead.2⟩
      · obtain ⟨value, hvalue, hspells⟩ := ih hrest
        exact ⟨value, List.mem_cons_of_mem _ hvalue, hspells⟩

theorem spells_ofFields (hnames : (entries.map Prod.fst).Nodup)
    (hwritten : List.Forall₂ FieldSpelling.WrittenAs fields entries) :
    SpellsGroup none fields (.ofFields entries) := by
  refine .named (by simp) fun field hfield => .inl ?_
  obtain ⟨value, hvalue, hspells⟩ := exists_mem_of_writtenAs hwritten hfield
  exact ⟨value, valuesUnder_eq_singleton hnames hvalue, hspells⟩

theorem spells_node {kind : String} (hnames : ("kind" :: entries.map Prod.fst).Nodup)
    (hwritten : List.Forall₂ FieldSpelling.WrittenAs fields entries) :
    SpellsGroup (some kind) fields (.node kind entries) := by
  -- the kind is one more entry, under a name that no field has
  have hall : ((("kind", Value.text kind) :: entries).map Prod.fst).Nodup := hnames
  refine .named (fun name hname => ?_) fun field hfield => .inl ?_
  · obtain rfl := Option.some.inj hname
    exact valuesUnder_eq_singleton hall List.mem_cons_self
  · obtain ⟨value, hvalue, hspells⟩ := exists_mem_of_writtenAs hwritten hfield
    exact ⟨value, valuesUnder_eq_singleton hall (List.mem_cons_of_mem _ hvalue), hspells⟩

end Written

theorem Integer.spells_write : ∀ integer : Integer, integer.Spells integer.write
  | .number _ => rfl
  | .spelling _ => rfl

mutual

theorem TypeDenoter.spells_write : ∀ type : TypeDenoter, type.Spells type.write
  | .simple _ => spells_node (by simp) (.cons ⟨rfl, rfl⟩ .nil)
  | .array length element =>
      spells_node (by simp)
        (.cons ⟨rfl, length.spells_write⟩ (.cons ⟨rfl, element.spells_write⟩ .nil))
  | .record fields =>
      spells_node (by simp)
        (.cons ⟨rfl, _, rfl, TypeDenoter.spellsFields_writeFields fields⟩ .nil)

theorem TypeDenoter.spellsFields_writeFields :
    ∀ fields : List (String × TypeDenoter),
      TypeDenoter.SpellsFields fields (TypeDenoter.writeFields fields)
  | [] => rfl
  | (_, type) :: rest =>
      ⟨_, _, rfl,
        spells_ofFields (by simp) (.cons ⟨rfl, rfl⟩ (.cons ⟨rfl, type.spells_write⟩ .nil)),
        TypeDenoter.spellsFields_writeFields rest⟩

end

mutual

theorem FormalParameter.spells_write :
    ∀ parameter : FormalParameter, parameter.Spells parameter.write
  | .const _ type => spells_node (by simp) (.cons ⟨rfl, rfl⟩ (.cons ⟨rfl, type.spells_write⟩ .nil))
  | .var _ type => spells_node (by simp) (.cons ⟨rfl, rfl⟩ (.cons ⟨rfl, type.spells_write⟩ .nil))
  | .proc _ parameters =>
      spells_node (by simp)
        (.cons ⟨rfl, rfl⟩ (.cons ⟨rfl, _, rfl, FormalParameter.spellsAll_writeAll parameters⟩ .nil))
  | .func _ parameters result =>
      spells_node (by simp)
        (.cons ⟨rfl, rfl⟩ (.cons ⟨rfl, _, rfl, FormalParameter.spellsAll_writeAll parameters⟩
          (.cons ⟨rfl, result.spells_write⟩ .nil)))

theorem FormalParameter.spellsAll_writeAll :
    ∀ parameters : List FormalParameter,
      FormalParameter.SpellsAll parameters (FormalParameter.writeAll parameters)
  | [] => rfl
  | parameter :: rest =>
      ⟨_, _, rfl, parameter.spells_write, FormalParameter.spellsAll_writeAll rest⟩

end

mutual

theorem Vname.spells_write : ∀ vname : Vname, vname.Spells vname.write
  | .simple _ => spells_node (by simp) (.cons ⟨rfl, rfl⟩ .nil)
  | .dot base _ => spells_node (by simp) (.cons ⟨rfl, base.spells_write⟩ (.cons ⟨rfl, rfl⟩ .nil))
  | .subscript base index =>
      spells_node (by simp) (.cons ⟨rfl, base.spells_write⟩ (.cons ⟨rfl, index.spells_write⟩ .nil))

theorem Expression.spells_write : ∀ expression : Expression, expression.Spells expression.write
  | .empty => spells_node (by simp) .nil
  | .integer value => spells_node (by simp) (.cons ⟨rfl, value.spells_write⟩ .nil)
  | .character _ => spells_node (by simp) (.cons ⟨rfl, rfl⟩ .nil)
  | .vname vname => spells_node (by simp) (.cons ⟨rfl, vname.spells_write⟩ .nil)
  | .var _ => spells_node (by simp) (.cons ⟨rfl, rfl⟩ .nil)
  | .unary _ operand =>
      spells_node (by simp) (.cons ⟨rfl, rfl⟩ (.cons ⟨rfl, operand.spells_write⟩ .nil))
  | .binary _ left right =>
      spells_node (by simp)
        (.cons ⟨rfl, rfl⟩ (.cons ⟨rfl, left.spells_write⟩ (.cons ⟨rfl, right.spells_write⟩ .nil)))
  | .ifThenElse condition thenBranch elseBranch =>
      spells_node (by simp)
        (.cons ⟨rfl, condition.spells_write⟩ (.cons ⟨rfl, thenBranch.spells_write⟩
          (.cons ⟨rfl, elseBranch.spells_write⟩ .nil)))
  | .letIn declaration body =>
      spells_node (by simp)
        (.cons ⟨rfl, declaration.spells_write⟩ (.cons ⟨rfl, body.spells_write⟩ .nil))
  | .call _ arguments =>
      spells_node (by simp)
        (.cons ⟨rfl, rfl⟩ (.cons ⟨rfl, _, rfl, ActualParameter.spellsAll_writeAll arguments⟩ .nil))
  | .array elements =>
      spells_node (by simp) (.cons ⟨rfl, _, rfl, Expression.spellsAll_writeAll elements⟩ .nil)
  | .record fields =>
      spells_node (by simp) (.cons ⟨rfl, _, rfl, Expression.spellsFields_writeFields fields⟩ .nil)

theorem Expression.spellsAll_writeAll :
    ∀ elements : List Expression, Expression.SpellsAll elements (Expression.writeAll elements)
  | [] => rfl
  | element :: rest => ⟨_, _, rfl, element.spells_write, Expression.spellsAll_writeAll rest⟩

theorem Expression.spellsFields_writeFields :
    ∀ fields : List (String × Expression),
      Expression.SpellsFields fields (Expression.writeFields fields)
  | [] => rfl
  | (_, value) :: rest =>
      ⟨_, _, rfl,
        spells_ofFields (by simp) (.cons ⟨rfl, rfl⟩ (.cons ⟨rfl, value.spells_write⟩ .nil)),
        Expression.spellsFields_writeFields rest⟩

theorem ActualParameter.spells_write :
    ∀ argument : ActualParameter, argument.Spells argument.write
  | .const value => spells_node (by simp) (.cons ⟨rfl, value.spells_write⟩ .nil)
  | .var vname => spells_node (by simp) (.cons ⟨rfl, vname.spells_write⟩ .nil)
  | .proc _ => spells_node (by simp) (.cons ⟨rfl, rfl⟩ .nil)
  | .func _ => spells_node (by simp) (.cons ⟨rfl, rfl⟩ .nil)

theorem ActualParameter.spellsAll_writeAll :
    ∀ arguments : List ActualParameter,
      ActualParameter.SpellsAll arguments (ActualParameter.writeAll arguments)
  | [] => rfl
  | argument :: rest =>
      ⟨_, _, rfl, argument.spells_write, ActualParameter.spellsAll_writeAll rest⟩

theorem Declaration.spells_write :
    ∀ declaration : Declaration, declaration.Spells declaration.write
  | .const _ value =>
      spells_node (by simp) (.cons ⟨rfl, rfl⟩ (.cons ⟨rfl, value.spells_write⟩ .nil))
  | .var _ type => spells_node (by simp) (.cons ⟨rfl, rfl⟩ (.cons ⟨rfl, type.spells_write⟩ .nil))
  | .proc _ parameters body =>
      spells_node (by simp)
        (.cons ⟨rfl, rfl⟩ (.cons ⟨rfl, _, rfl, FormalParameter.spellsAll_writeAll parameters⟩
          (.cons ⟨rfl, body.spells_write⟩ .nil)))
  | .func _ parameters result body =>
      spells_node (by simp)
        (.cons ⟨rfl, rfl⟩ (.cons ⟨rfl, _, rfl, FormalParameter.spellsAll_writeAll parameters⟩
          (.cons ⟨rfl, result.spells_write⟩ (.cons ⟨rfl, body.spells_write⟩ .nil))))
  | .type _ type => spells_node (by simp) (.cons ⟨rfl, rfl⟩ (.cons ⟨rfl, type.spells_write⟩ .nil))
  | .unaryOperator _ argument result =>
      spells_node (by simp)
        (.cons ⟨rfl, rfl⟩ (.cons ⟨rfl, argument.spells_write⟩
          (.cons ⟨rfl, result.spells_write⟩ .nil)))
  | .binaryOperator _ left right result =>
      spells_node (by simp)
        (.cons ⟨rfl, rfl⟩ (.cons ⟨rfl, left.spells_write⟩ (.cons ⟨rfl, right.spells_write⟩
          (.cons ⟨rfl, result.spells_write⟩ .nil))))
  | .sequential declarations =>
      spells_node (by simp) (.cons ⟨rfl, _, rfl, Declaration.spellsAll_writeAll declarations⟩ .nil)

theorem Declaration.spellsAll_writeAll :
    ∀ declarations : List Declaration,
      Declaration.SpellsAll declarations (Declaration.writeAll declarations)
  | [] => rfl
  | declaration :: rest =>
      ⟨_, _, rfl, declaration.spells_write, Declaration.spellsAll_writeAll rest⟩

theorem Command.spells_write : ∀ command : Command, command.Spells command.write
  | .assign target value =>
      spells_node (by simp)
        (.cons ⟨rfl, target.spells_write⟩ (.cons ⟨rfl, value.spells_write⟩ .nil))
  | .call _ arguments =>
      spells_node (by simp)
        (.cons ⟨rfl, rfl⟩ (.cons ⟨rfl, _, rfl, ActualParameter.spellsAll_writeAll arguments⟩ .nil))
  | .empty => spells_node (by simp) .nil
  | .ifThenElse condition thenBranch elseBranch =>
      spells_node (by simp)
        (.cons ⟨rfl, condition.spells_write⟩ (.cons ⟨rfl, thenBranch.spells_write⟩
          (.cons ⟨rfl, elseBranch.spells_write⟩ .nil)))
  | .letIn declaration body =>
      spells_node (by simp)
        (.cons ⟨rfl, declaration.spells_write⟩ (.cons ⟨rfl, body.spells_write⟩ .nil))
  | .sequential commands =>
      spells_node (by simp) (.cons ⟨rfl, _, rfl, Command.spellsAll_writeAll commands⟩ .nil)
  | .whileDo condition body =>
      spells_node (by simp)
        (.cons ⟨rfl, condition.spells_write⟩ (.cons ⟨rfl, body.spells_write⟩ .nil))

theorem Command.spellsAll_writeAll :
    ∀ commands : List Command, Command.SpellsAll commands (Command.writeAll commands)
  | [] => rfl
  | command :: rest => ⟨_, _, rfl, command.spells_write, Command.spellsAll_writeAll rest⟩

end

theorem Program.spells_write (program : Program) : program.Spells program.write :=
  spells_ofFields (by simp) (.cons ⟨rfl, program.command.spells_write⟩ .nil)

end LoopHoist.Document
