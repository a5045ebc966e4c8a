import LoopHoist.Triangle.Tree

/-!
# The fragments of a program

A program is built from fragments of seven sorts.  `Fragment.children` says, sort by sort and
constructor by constructor, which fragments a fragment is directly built from, and
`Fragment.fragments` lists everything that occurs in a fragment, itself first.  What is said about
"every" or "all" nodes of a tree, wherever they stand, is said about this list.

A fragment is listed as often as it occurs, so that occurrences can be counted.

The names, operator symbols and literals are not fragments but leaves of them: `Fragment.ownLeaves`
lists those that a fragment has of its own.
-/

namespace LoopHoist

/-- A piece of a program. -/
inductive Fragment where
  | command (command : Command)
  | expression (expression : Expression)
  | vname (vname : Vname)
  | argument (argument : ActualParameter)
  | declaration (declaration : Declaration)
  | parameter (parameter : FormalParameter)
  | type (type : TypeDenoter)

/-! ## What a fragment is built from -/

/-- The fragments that a type is directly built from. -/
@[simp] def TypeDenoter.children : TypeDenoter → List Fragment
  | .simple _ => []
  | .array _ element => [.type element]
  | .record fields => fields.map fun field => .type field.2

/-- The fragments that a formal parameter is directly built from. -/
@[simp] def FormalParameter.children : FormalParameter → List Fragment
  | .const _ type | .var _ type => [.type type]
  | .proc _ parameters => parameters.map .parameter
  | .func _ parameters result => parameters.map .parameter ++ [.type result]

/-- The fragments that a value name is directly built from. -/
@[simp] def Vname.children : Vname → List Fragment
  | .simple .. => []
  | .dot base _ _ => [.vname base]
  | .subscript base index _ => [.vname base, .expression index]

/-- The fragments that an expression is directly built from. -/
@[simp] def Expression.children : Expression → List Fragment
  | .empty _ | .integer .. | .character .. => []
  | .read vname _ => [.vname vname]
  | .unary _ operand _ => [.expression operand]
  | .binary _ left right _ => [.expression left, .expression right]
  | .ifThenElse condition thenBranch elseBranch _ =>
      [.expression condition, .expression thenBranch, .expression elseBranch]
  | .letIn declaration body _ => [.declaration declaration, .expression body]
  | .call _ arguments _ => arguments.map .argument
  | .array elements _ => elements.map .expression
  | .record fields _ => fields.map fun field => .expression field.2

/-- The fragments that an argument is directly built from. -/
@[simp] def ActualParameter.children : ActualParameter → List Fragment
  | .const value => [.expression value]
  | .var vname => [.vname vname]
  | .proc _ | .func _ => []

/-- The fragments that a declaration is directly built from. -/
@[simp] def Declaration.children : Declaration → List Fragment
  | .const _ value _ => [.expression value]
  | .var _ denoter _ | .type _ denoter _ => [.type denoter]
  | .proc _ parameters body _ => parameters.map .parameter ++ [.command body]
  | .func _ parameters result body _ =>
      parameters.map .parameter ++ [.type result, .expression body]
  | .unaryOperator _ argument result _ => [.type argument, .type result]
  | .binaryOperator _ left right result _ => [.type left, .type right, .type result]
  | .seq first second _ => [.declaration first, .declaration second]

/-- The fragments that a command is directly built from. -/
@[simp] def Command.children : Command → List Fragment
  | .assign target value _ => [.vname target, .expression value]
  | .call _ arguments _ => arguments.map .argument
  | .skip _ => []
  | .ifThenElse condition thenBranch elseBranch _ =>
      [.expression condition, .command thenBranch, .command elseBranch]
  | .letIn declaration body _ => [.declaration declaration, .command body]
  | .seq first second _ => [.command first, .command second]
  | .whileDo condition body _ => [.expression condition, .command body]

namespace Fragment

/-- The fragments that a fragment is directly built from, in the order in which they stand. -/
@[simp] def children : Fragment → List Fragment
  | .command c => c.children
  | .expression e => e.children
  | .vname v => v.children
  | .argument a => a.children
  | .declaration d => d.children
  | .parameter p => p.children
  | .type t => t.children

/-! ## Everything that occurs in a fragment -/

private theorem sizeOf_lt_of_mem_map {α : Type} [SizeOf α] {sort : α → Fragment} {parts : List α}
    {child : Fragment} (hsort : ∀ part, sizeOf (sort part) = 1 + sizeOf part)
    (hmem : child ∈ parts.map sort) : sizeOf child < 1 + sizeOf parts := by
  obtain ⟨part, hpart, rfl⟩ := List.mem_map.mp hmem
  have hlt := List.sizeOf_lt_of_mem hpart
  rw [hsort]
  omega

private theorem sizeOf_lt_of_mem_map_snd {α : Type} [SizeOf α] {sort : α → Fragment}
    {fields : List (Identifier × α)} {child : Fragment}
    (hsort : ∀ part, sizeOf (sort part) = 1 + sizeOf part)
    (hmem : child ∈ fields.map fun field => sort field.2) : sizeOf child < 1 + sizeOf fields := by
  obtain ⟨⟨name, part⟩, hpart, rfl⟩ := List.mem_map.mp hmem
  have hlt := List.sizeOf_lt_of_mem hpart
  simp only [hsort, Prod.mk.sizeOf_spec] at hlt ⊢
  omega

/-- What a fragment is built from is smaller than the fragment. -/
theorem sizeOf_lt_of_mem_children {fragment child : Fragment} (hmem : child ∈ fragment.children) :
    sizeOf child < sizeOf fragment := by
  match fragment with
  | .command (.skip _) | .expression (.empty _) | .expression (.integer ..)
  | .expression (.character ..) | .vname (.simple ..) | .argument (.proc _) | .argument (.func _)
  | .type (.simple _) => cases hmem
  | .command (.assign ..) | .command (.ifThenElse ..) | .command (.letIn ..) | .command (.seq ..)
  | .command (.whileDo ..) | .expression (.read ..) | .expression (.unary ..)
  | .expression (.binary ..) | .expression (.ifThenElse ..) | .expression (.letIn ..)
  | .vname (.dot ..) | .vname (.subscript ..) | .argument (.const _) | .argument (.var _)
  | .declaration (.const ..) | .declaration (.var ..) | .declaration (.type ..)
  | .declaration (.unaryOperator ..) | .declaration (.binaryOperator ..) | .declaration (.seq ..)
  | .parameter (.const ..) | .parameter (.var ..) | .type (.array ..) =>
      -- at most three children, each an argument of the constructor
      simp only [children, Command.children, Expression.children, Vname.children,
        ActualParameter.children, Declaration.children, FormalParameter.children,
        TypeDenoter.children, List.mem_cons, List.not_mem_nil, or_false] at hmem
      obtain rfl | rfl | rfl := hmem <;> simp <;> omega
  | .command (.call _ arguments _) | .expression (.call _ arguments _) =>
      have hlt := sizeOf_lt_of_mem_map (fun _ => argument.sizeOf_spec _) hmem
      simp only [command.sizeOf_spec, expression.sizeOf_spec, Command.call.sizeOf_spec,
        Expression.call.sizeOf_spec]
      omega
  | .expression (.array elements _) =>
      have hlt := sizeOf_lt_of_mem_map (fun _ => expression.sizeOf_spec _) hmem
      simp only [expression.sizeOf_spec, Expression.array.sizeOf_spec]
      omega
  | .expression (.record fields _) =>
      have hlt := sizeOf_lt_of_mem_map_snd (fun _ => expression.sizeOf_spec _) hmem
      simp only [expression.sizeOf_spec, Expression.record.sizeOf_spec]
      omega
  | .type (.record fields) =>
      have hlt := sizeOf_lt_of_mem_map_snd (fun _ => type.sizeOf_spec _) hmem
      simp only [type.sizeOf_spec, TypeDenoter.record.sizeOf_spec]
      omega
  | .parameter (.proc _ parameters) =>
      have hlt := sizeOf_lt_of_mem_map (fun _ => parameter.sizeOf_spec _) hmem
      simp only [parameter.sizeOf_spec, FormalParameter.proc.sizeOf_spec]
      omega
  | .parameter (.func _ parameters result) | .declaration (.proc _ parameters body _)
  | .declaration (.func _ parameters result body _) =>
      rcases List.mem_append.mp hmem with hmem | hmem
      · have hlt := sizeOf_lt_of_mem_map (fun _ => parameter.sizeOf_spec _) hmem
        simp
        omega
      · simp only [List.mem_cons, List.not_mem_nil, or_false] at hmem
        obtain rfl | rfl := hmem <;> simp <;> omega

/-- Everything that occurs in a fragment, the fragment itself first. -/
def fragments (fragment : Fragment) : List Fragment :=
  fragment :: fragment.children.attach.flatMap fun ⟨child, _⟩ => child.fragments
termination_by sizeOf fragment
decreasing_by exact sizeOf_lt_of_mem_children ‹_›

theorem fragments_eq (fragment : Fragment) :
    fragment.fragments = fragment :: fragment.children.flatMap fragments := by
  rw [fragments]
  simp

theorem mem_fragments_iff {fragment whole : Fragment} :
    fragment ∈ whole.fragments ↔
      fragment = whole ∨ ∃ child ∈ whole.children, fragment ∈ child.fragments := by
  rw [fragments_eq, List.mem_cons, List.mem_flatMap]

theorem mem_fragments_self (fragment : Fragment) : fragment ∈ fragment.fragments :=
  mem_fragments_iff.mpr (.inl rfl)

/-- What holds of a fragment as soon as it holds of its children holds of all fragments. -/
@[elab_as_elim]
theorem children_induction {motive : Fragment → Prop}
    (step : ∀ fragment : Fragment, (∀ child ∈ fragment.children, motive child) → motive fragment)
    (fragment : Fragment) : motive fragment :=
  step fragment fun child _ => children_induction step child
termination_by sizeOf fragment
decreasing_by exact sizeOf_lt_of_mem_children ‹_›

/-- What occurs in something that occurs in a fragment occurs in that fragment. -/
theorem mem_fragments_trans {inner middle : Fragment} (hinner : inner ∈ middle.fragments)
    (whole : Fragment) (hmiddle : middle ∈ whole.fragments) : inner ∈ whole.fragments := by
  induction whole using children_induction with
  | step whole ih =>
      rcases mem_fragments_iff.mp hmiddle with rfl | ⟨child, hchild, hmem⟩
      · exact hinner
      · exact mem_fragments_iff.mpr (.inr ⟨child, hchild, ih child hchild hmem⟩)

/-- The condition holds of everything that occurs in a fragment. -/
def Everywhere (condition : Fragment → Prop) (whole : Fragment) : Prop :=
  ∀ fragment ∈ whole.fragments, condition fragment

theorem everywhere_iff {condition : Fragment → Prop} {whole : Fragment} :
    whole.Everywhere condition ↔
      condition whole ∧ ∀ child ∈ whole.children, child.Everywhere condition := by
  unfold Everywhere
  rw [fragments_eq, List.forall_mem_cons, List.forall_mem_flatMap]

section Commands

variable {fragment : Fragment} {target : Vname} {value condition : Expression}
  {declaration : Declaration} {first second body : Command} {span : Span}

theorem mem_fragments_assign : fragment ∈ (command (.assign target value span)).fragments ↔
    fragment = .command (.assign target value span) ∨ fragment ∈ (vname target).fragments ∨
      fragment ∈ (expression value).fragments := by
  rw [mem_fragments_iff]
  simp [children, Command.children]

theorem mem_fragments_ifThenElse :
    fragment ∈ (command (.ifThenElse condition first second span)).fragments ↔
      fragment = .command (.ifThenElse condition first second span) ∨
        fragment ∈ (expression condition).fragments ∨ fragment ∈ (command first).fragments ∨
        fragment ∈ (command second).fragments := by
  rw [mem_fragments_iff]
  simp [children, Command.children]

theorem mem_fragments_letIn : fragment ∈ (command (.letIn declaration body span)).fragments ↔
    fragment = .command (.letIn declaration body span) ∨
      fragment ∈ (Fragment.declaration declaration).fragments ∨
      fragment ∈ (command body).fragments := by
  rw [mem_fragments_iff]
  simp [children, Command.children]

theorem mem_fragments_seq : fragment ∈ (command (.seq first second span)).fragments ↔
    fragment = .command (.seq first second span) ∨ fragment ∈ (command first).fragments ∨
      fragment ∈ (command second).fragments := by
  rw [mem_fragments_iff]
  simp [children, Command.children]

theorem mem_fragments_whileDo : fragment ∈ (command (.whileDo condition body span)).fragments ↔
    fragment = .command (.whileDo condition body span) ∨
      fragment ∈ (expression condition).fragments ∨ fragment ∈ (command body).fragments := by
  rw [mem_fragments_iff]
  simp [children, Command.children]

end Commands

end Fragment

/-! ## Leaves -/

/-- A leaf of some sort. -/
abbrev Leaf := (sort : Lexeme) × Terminal sort

/-- The leaves that a type has of its own. -/
@[simp] def TypeDenoter.ownLeaves : TypeDenoter → List Leaf
  | .simple name => [⟨_, name⟩]
  | .array length _ => [⟨_, length⟩]
  | .record fields => fields.map fun field => ⟨_, field.1⟩

/-- The leaves that a value name has of its own. -/
@[simp] def Vname.ownLeaves : Vname → List Leaf
  | .simple name _ | .dot _ name _ => [⟨_, name⟩]
  | .subscript .. => []

/-- The leaves that an expression has of its own. -/
@[simp] def Expression.ownLeaves : Expression → List Leaf
  | .integer literal _ => [⟨_, literal⟩]
  | .character literal _ => [⟨_, literal⟩]
  | .unary operator _ _ | .binary operator _ _ _ => [⟨_, operator⟩]
  | .call function _ _ => [⟨_, function⟩]
  | .record fields _ => fields.map fun field => ⟨_, field.1⟩
  | .empty _ | .read .. | .ifThenElse .. | .letIn .. | .array .. => []

/-- The leaves that an argument has of its own. -/
@[simp] def ActualParameter.ownLeaves : ActualParameter → List Leaf
  | .proc name | .func name => [⟨_, name⟩]
  | .const _ | .var _ => []

/-- The leaves that a declaration has of its own. -/
@[simp] def Declaration.ownLeaves : Declaration → List Leaf
  | .const name _ _ | .var name _ _ | .proc name _ _ _ | .func name _ _ _ _ | .type name _ _ =>
      [⟨_, name⟩]
  | .unaryOperator operator _ _ _ | .binaryOperator operator _ _ _ _ => [⟨_, operator⟩]
  | .seq .. => []

/-- The leaves that a command has of its own. -/
@[simp] def Command.ownLeaves : Command → List Leaf
  | .call procedure _ _ => [⟨_, procedure⟩]
  | .assign .. | .skip _ | .ifThenElse .. | .letIn .. | .seq .. | .whileDo .. => []

/-- The leaves that a fragment has of its own, in the order in which they stand. -/
@[simp] def Fragment.ownLeaves : Fragment → List Leaf
  | .command c => c.ownLeaves
  | .expression e => e.ownLeaves
  | .vname v => v.ownLeaves
  | .argument a => a.ownLeaves
  | .declaration d => d.ownLeaves
  | .parameter p => [⟨_, p.name⟩]
  | .type t => t.ownLeaves

/-- A leaf is spelled as its sort asks for: names and operator symbols are not empty, integers are
one or more decimal digits, and a character stands between quotes. -/
def Terminal.WellSpelled : {sort : Lexeme} → Terminal sort → Prop
  | .identifier, leaf | .operator, leaf => leaf.spelling ≠ ""
  | .integer, leaf => leaf.spelling ≠ "" ∧ ∀ c ∈ leaf.spelling.toList, c.isDigit = true
  | .character, leaf => ∃ c : Char, leaf.spelling = "'" ++ String.singleton c ++ "'"

/-- Everything that occurs in a program. -/
def Program.fragments (program : Program) : List Fragment :=
  (Fragment.command program.command).fragments

end LoopHoist
