import LoopHoist.Document.Lowering
import LoopHoist.Proofs.Fragments

/-!
# Lowered trees

A tree is well formed when its leaves are spelled as their sorts ask for.  Lowering checks one leaf
after another, builds pairs from lists, and gives every node and every leaf the span it was called
with.  This file shows that every tree it produces is well formed and carries that span throughout.

## Strategy

`Fragment.IsLowered` is what has to hold of every fragment of such a tree.  `Yields` says what every
result of a lowering has, and its rules follow the sequencing of lowerings: the proof for a node
goes through its parts in the order in which they are lowered, and collects what is known of each.
-/

namespace LoopHoist

/-! ## Well-formed trees, and trees with one span -/

/-- The span of a fragment, if it has one of its own. -/
@[simp] def Fragment.span? : Fragment → Option Span
  | .command c => some c.span
  | .expression e => some e.span
  | .vname v => some v.span
  | .declaration d => some d.span
  | .argument _ | .parameter _ | .type _ => none

/-- All leaves of a program are well spelled. -/
def Program.WellFormed (program : Program) : Prop :=
  ∀ fragment ∈ program.fragments, ∀ leaf ∈ fragment.ownLeaves, leaf.2.WellSpelled

/-- A program, and every node and every leaf in it, carries this span. -/
def Program.Carries (program : Program) (span : Span) : Prop :=
  program.span = span ∧ ∀ fragment ∈ program.fragments,
    (∀ own ∈ fragment.span?, own = span) ∧ ∀ leaf ∈ fragment.ownLeaves, leaf.2.span = span

/-- A leaf is well spelled and carries this span. -/
def Terminal.IsLowered (span : Span) {sort : Lexeme} (leaf : Terminal sort) : Prop :=
  leaf.WellSpelled ∧ leaf.span = span

/-- A fragment and its own leaves carry this span, and the leaves are well spelled. -/
@[simp] def Fragment.IsLowered (span : Span) (fragment : Fragment) : Prop :=
  (∀ own ∈ fragment.span?, own = span) ∧ ∀ leaf ∈ fragment.ownLeaves, leaf.2.IsLowered span

namespace Fragment

variable {span : Span}

/-- A fragment and everything in it is as lowering makes it. -/
abbrev AllLowered (span : Span) (whole : Fragment) : Prop := whole.Everywhere (IsLowered span)

theorem allLowered_of {whole : Fragment} (hspan : ∀ own ∈ whole.span?, own = span)
    (hleaves : ∀ leaf ∈ whole.ownLeaves, leaf.2.IsLowered span)
    (hchildren : ∀ child ∈ whole.children, child.AllLowered span) : whole.AllLowered span :=
  everywhere_iff.mpr ⟨⟨hspan, hleaves⟩, hchildren⟩

end Fragment

theorem Program.wellFormed_and_carries_iff {program : Program} {span : Span} :
    program.WellFormed ∧ program.Carries span ↔
      program.span = span ∧ (Fragment.command program.command).AllLowered span := by
  constructor
  · rintro ⟨hwell, hspan, hcarries⟩
    refine ⟨hspan, fun fragment hmem => ⟨(hcarries fragment hmem).1, fun leaf hleaf => ?_⟩⟩
    exact ⟨hwell fragment hmem leaf hleaf, (hcarries fragment hmem).2 leaf hleaf⟩
  · rintro ⟨hspan, hall⟩
    refine ⟨fun fragment hmem leaf hleaf => ((hall fragment hmem).2 leaf hleaf).1, hspan,
      fun fragment hmem => ⟨(hall fragment hmem).1, fun leaf hleaf => ?_⟩⟩
    exact ((hall fragment hmem).2 leaf hleaf).2

variable {span : Span}

attribute [local simp] Vname.span Expression.span Declaration.span Command.span FormalParameter.name

namespace Document

open Fragment (allLowered_of)

/-! ## What every result of lowering has -/

/-- Whatever a lowering gives has the property. -/
def Yields {α : Type} (lowered : Lowered α) (property : α → Prop) : Prop :=
  ∀ tree, lowered = .ok tree → property tree

namespace Yields

variable {α β : Type}

theorem ok {tree : α} {property : α → Prop} (htree : property tree) :
    Yields (.ok tree) property := by
  intro tree' hok
  cases hok
  exact htree

theorem bind {first : Lowered α} {next : α → Lowered β} {middle : α → Prop} {property : β → Prop}
    (hfirst : Yields first middle) (hnext : ∀ part, middle part → Yields (next part) property) :
    Yields (first >>= next) property := by
  intro tree hok
  cases first with
  | error fault => cases hok
  | ok part => exact hnext part (hfirst part rfl) tree hok

end Yields

/-- The check that a spelling is not empty is all that names and operator symbols need. -/
theorem yields_named {sort : Lexeme}
    (hsort : ∀ leaf : Terminal sort, leaf.spelling ≠ "" → leaf.WellSpelled) (spelling : String) :
    Yields (named span spelling) fun leaf : Terminal sort => leaf.IsLowered span := by
  intro leaf hok
  unfold named at hok
  split at hok
  · cases hok
  · rename_i hspelling
    cases hok
    exact ⟨hsort _ fun hempty => hspelling (by simpa using hempty), rfl⟩

theorem yields_identifier (spelling : String) :
    Yields (named span spelling) fun name : Identifier => name.IsLowered span :=
  @yields_named span .identifier (fun _ hspelling => hspelling) spelling

theorem yields_operator (spelling : String) :
    Yields (named span spelling) fun operator : Operator => operator.IsLowered span :=
  @yields_named span .operator (fun _ hspelling => hspelling) spelling

/-- The digits of numerals are the decimal digits. -/
theorem isDigit_eq (c : Char) : Decimal.isDigit c = c.isDigit := by
  unfold Decimal.isDigit Decimal.digit? Char.isDigit
  split <;> rename_i h <;> simp_all [Char.le_def]

theorem isNumeral_iff {text : String} :
    isNumeral text = true ↔ text ≠ "" ∧ ∀ c ∈ text.toList, c.isDigit = true := by
  unfold isNumeral
  simp [isDigit_eq]

theorem yields_integer (integer : Integer) :
    Yields (integer.lower span) (Terminal.IsLowered span) := by
  intro literal hok
  unfold Integer.lower at hok
  split at hok
  · rename_i hnumeral
    cases hok
    exact ⟨isNumeral_iff.mp hnumeral, rfl⟩
  · cases hok

theorem isLowered_character (value : Char) : (lowerCharacter span value).IsLowered span :=
  ⟨⟨value, rfl⟩, rfl⟩

/-- What holds of the fragments of a list and of one more holds of the list with that one added. -/
theorem forall_mem_concat {α : Type} {sort : α → Fragment} {parts : List α} {last : Fragment}
    (hparts : ∀ part ∈ parts, (sort part).AllLowered span) (hlast : last.AllLowered span) :
    ∀ child ∈ parts.map sort ++ [last], child.AllLowered span :=
  List.forall_mem_append.mpr ⟨List.forall_mem_map.mpr hparts, List.forall_mem_singleton.mpr hlast⟩

theorem allLowered_skip : (Fragment.command (.skip span)).AllLowered span :=
  allLowered_of (by simp) (by simp) (by simp)

/-- A sequence of commands from lowering is as if lowered itself. -/
theorem allLowered_seqAll {commands : List LoopHoist.Command}
    (hcommands : ∀ command ∈ commands, (Fragment.command command).AllLowered span) :
    (Fragment.command (.seqAll span commands)).AllLowered span := by
  induction commands with
  | nil => exact allLowered_skip
  | cons first rest ih =>
      obtain ⟨hfirst, hrest⟩ := List.forall_mem_cons.mp hcommands
      -- a single command is not wrapped, so it has to carry the span by itself
      cases rest with
      | nil => exact hfirst
      | cons second others =>
          have htail := ih hrest
          rw [LoopHoist.Command.seqAll]
          · exact allLowered_of (by simp) (by simp) (by simp [hfirst, htail])
          · simp

/-- A chain of declarations from lowering is as if lowered itself. -/
theorem allLowered_chain {declarations : List LoopHoist.Declaration}
    {chain : LoopHoist.Declaration}
    (hdeclarations : ∀ declaration ∈ declarations,
      (Fragment.declaration declaration).AllLowered span)
    (hchain : LoopHoist.Declaration.chain? span declarations = some chain) :
    (Fragment.declaration chain).AllLowered span := by
  induction declarations generalizing chain with
  | nil => cases hchain
  | cons first rest ih =>
      obtain ⟨hfirst, hrest⟩ := List.forall_mem_cons.mp hdeclarations
      cases rest with
      | nil =>
          cases hchain
          exact hfirst
      | cons second others =>
          obtain ⟨tail, htail, rfl⟩ := Option.map_eq_some_iff.mp hchain
          have htail' := ih hrest htail
          exact allLowered_of (by simp) (by simp) (by simp [hfirst, htail'])

/-! ## Node by node -/

mutual

theorem TypeDenoter.yields_lower : ∀ document : TypeDenoter,
    Yields (document.lower span) fun tree => (Fragment.type tree).AllLowered span
  | .simple name => by
      refine .bind (yields_identifier name) fun _ hname => ?_
      exact .ok (allLowered_of (by simp) (by simpa) (by simp))
  | .array length element => by
      refine .bind (yields_integer length) fun _ hlength => ?_
      refine .bind element.yields_lower fun _ helement => ?_
      exact .ok (allLowered_of (by simp) (by simpa) (by simpa))
  | .record fields => by
      refine .bind (TypeDenoter.yields_lowerFields fields) fun _ hfields => ?_
      refine .ok (allLowered_of (by simp) ?_ ?_)
      · exact List.forall_mem_map.mpr fun field hmem => (hfields field hmem).1
      · exact List.forall_mem_map.mpr fun field hmem => (hfields field hmem).2

theorem TypeDenoter.yields_lowerFields : ∀ documents : List (String × TypeDenoter),
    Yields (TypeDenoter.lowerFields span documents) fun fields =>
      ∀ field ∈ fields, field.1.IsLowered span ∧ (Fragment.type field.2).AllLowered span
  | [] => .ok (List.forall_mem_nil _)
  | (name, type) :: rest => by
      refine .bind (yields_identifier name) fun _ hname => ?_
      refine .bind type.yields_lower fun _ htype => ?_
      refine .bind (TypeDenoter.yields_lowerFields rest) fun _ hrest => ?_
      exact .ok (List.forall_mem_cons.mpr ⟨⟨hname, htype⟩, hrest⟩)

end

mutual

theorem FormalParameter.yields_lower : ∀ document : FormalParameter,
    Yields (document.lower span) fun tree => (Fragment.parameter tree).AllLowered span
  | .const name type | .var name type => by
      refine .bind (yields_identifier name) fun _ hname => ?_
      refine .bind type.yields_lower fun _ htype => ?_
      exact .ok (allLowered_of (by simp) (by simpa) (by simpa))
  | .proc name parameters => by
      refine .bind (yields_identifier name) fun _ hname => ?_
      refine .bind (FormalParameter.yields_lowerAll parameters) fun _ hparameters => ?_
      exact .ok (allLowered_of (by simp) (by simpa) (by simpa))
  | .func name parameters result => by
      refine .bind (yields_identifier name) fun _ hname => ?_
      refine .bind (FormalParameter.yields_lowerAll parameters) fun _ hparameters => ?_
      refine .bind result.yields_lower fun _ hresult => ?_
      exact .ok (allLowered_of (by simp) (by simpa) (forall_mem_concat hparameters hresult))

theorem FormalParameter.yields_lowerAll : ∀ documents : List FormalParameter,
    Yields (FormalParameter.lowerAll span documents) fun trees =>
      ∀ tree ∈ trees, (Fragment.parameter tree).AllLowered span
  | [] => .ok (List.forall_mem_nil _)
  | document :: rest => by
      refine .bind document.yields_lower fun _ hdocument => ?_
      refine .bind (FormalParameter.yields_lowerAll rest) fun _ hrest => ?_
      exact .ok (List.forall_mem_cons.mpr ⟨hdocument, hrest⟩)

end

mutual

theorem Vname.yields_lower : ∀ document : Vname,
    Yields (document.lower span) fun tree => (Fragment.vname tree).AllLowered span
  | .simple name => by
      refine .bind (yields_identifier name) fun _ hname => ?_
      exact .ok (allLowered_of (by simp) (by simpa) (by simp))
  | .dot base field => by
      refine .bind base.yields_lower fun _ hbase => ?_
      refine .bind (yields_identifier field) fun _ hfield => ?_
      exact .ok (allLowered_of (by simp) (by simpa) (by simpa))
  | .subscript base index => by
      refine .bind base.yields_lower fun _ hbase => ?_
      refine .bind index.yields_lower fun _ hindex => ?_
      exact .ok (allLowered_of (by simp) (by simp) (by simp [hbase, hindex]))

theorem Expression.yields_lower : ∀ document : Expression,
    Yields (document.lower span) fun tree => (Fragment.expression tree).AllLowered span
  | .empty => .ok (allLowered_of (by simp) (by simp) (by simp))
  | .integer value => by
      refine .bind (yields_integer value) fun _ hvalue => ?_
      exact .ok (allLowered_of (by simp) (by simpa) (by simp))
  | .character value =>
      .ok (allLowered_of (by simp) (by simpa using isLowered_character value) (by simp))
  | .vname vname => by
      refine .bind vname.yields_lower fun _ hvname => ?_
      exact .ok (allLowered_of (by simp) (by simp) (by simpa))
  | .var name => by
      refine .bind (yields_identifier name) fun _ hname => ?_
      -- the short form of a variable makes two nodes, and both get the span
      have hvname : (Fragment.vname (.simple _ span)).AllLowered span :=
        allLowered_of (by simp) (by simpa) (by simp)
      exact .ok (allLowered_of (by simp) (by simp) (by simpa))
  | .unary operator operand => by
      refine .bind (yields_operator operator) fun _ hoperator => ?_
      refine .bind operand.yields_lower fun _ hoperand => ?_
      exact .ok (allLowered_of (by simp) (by simpa) (by simpa))
  | .binary operator left right => by
      refine .bind left.yields_lower fun _ hleft => ?_
      refine .bind (yields_operator operator) fun _ hoperator => ?_
      refine .bind right.yields_lower fun _ hright => ?_
      exact .ok (allLowered_of (by simp) (by simpa) (by simp [hleft, hright]))
  | .ifThenElse condition thenBranch elseBranch => by
      refine .bind condition.yields_lower fun _ hcondition => ?_
      refine .bind thenBranch.yields_lower fun _ hthen => ?_
      refine .bind elseBranch.yields_lower fun _ helse => ?_
      exact .ok (allLowered_of (by simp) (by simp) (by simp [hcondition, hthen, helse]))
  | .letIn declaration body => by
      refine .bind declaration.yields_lower fun _ hdeclaration => ?_
      refine .bind body.yields_lower fun _ hbody => ?_
      exact .ok (allLowered_of (by simp) (by simp) (by simp [hdeclaration, hbody]))
  | .call function arguments => by
      refine .bind (yields_identifier function) fun _ hfunction => ?_
      refine .bind (ActualParameter.yields_lowerAll arguments) fun _ harguments => ?_
      exact .ok (allLowered_of (by simp) (by simpa) (by simpa))
  | .array elements => by
      refine .bind (Expression.yields_lowerAll elements) fun _ helements => ?_
      exact .ok (allLowered_of (by simp) (by simp) (by simpa))
  | .record fields => by
      refine .bind (Expression.yields_lowerFields fields) fun _ hfields => ?_
      refine .ok (allLowered_of (by simp) ?_ ?_)
      · exact List.forall_mem_map.mpr fun field hmem => (hfields field hmem).1
      · exact List.forall_mem_map.mpr fun field hmem => (hfields field hmem).2

theorem Expression.yields_lowerAll : ∀ documents : List Expression,
    Yields (Expression.lowerAll span documents) fun trees =>
      ∀ tree ∈ trees, (Fragment.expression tree).AllLowered span
  | [] => .ok (List.forall_mem_nil _)
  | document :: rest => by
      refine .bind document.yields_lower fun _ hdocument => ?_
      refine .bind (Expression.yields_lowerAll rest) fun _ hrest => ?_
      exact .ok (List.forall_mem_cons.mpr ⟨hdocument, hrest⟩)

theorem Expression.yields_lowerFields : ∀ documents : List (String × Expression),
    Yields (Expression.lowerFields span documents) fun fields =>
      ∀ field ∈ fields, field.1.IsLowered span ∧ (Fragment.expression field.2).AllLowered span
  | [] => .ok (List.forall_mem_nil _)
  | (name, value) :: rest => by
      refine .bind (yields_identifier name) fun _ hname => ?_
      refine .bind value.yields_lower fun _ hvalue => ?_
      refine .bind (Expression.yields_lowerFields rest) fun _ hrest => ?_
      exact .ok (List.forall_mem_cons.mpr ⟨⟨hname, hvalue⟩, hrest⟩)

theorem ActualParameter.yields_lower : ∀ document : ActualParameter,
    Yields (document.lower span) fun tree => (Fragment.argument tree).AllLowered span
  | .const value => by
      refine .bind value.yields_lower fun _ hvalue => ?_
      exact .ok (allLowered_of (by simp) (by simp) (by simpa))
  | .var vname => by
      refine .bind vname.yields_lower fun _ hvname => ?_
      exact .ok (allLowered_of (by simp) (by simp) (by simpa))
  | .proc name | .func name => by
      refine .bind (yields_identifier name) fun _ hname => ?_
      exact .ok (allLowered_of (by simp) (by simpa) (by simp))

theorem ActualParameter.yields_lowerAll : ∀ documents : List ActualParameter,
    Yields (ActualParameter.lowerAll span documents) fun trees =>
      ∀ tree ∈ trees, (Fragment.argument tree).AllLowered span
  | [] => .ok (List.forall_mem_nil _)
  | document :: rest => by
      refine .bind document.yields_lower fun _ hdocument => ?_
      refine .bind (ActualParameter.yields_lowerAll rest) fun _ hrest => ?_
      exact .ok (List.forall_mem_cons.mpr ⟨hdocument, hrest⟩)

theorem Declaration.yields_lower : ∀ document : Declaration,
    Yields (document.lower span) fun tree => (Fragment.declaration tree).AllLowered span
  | .const name value => by
      refine .bind (yields_identifier name) fun _ hname => ?_
      refine .bind value.yields_lower fun _ hvalue => ?_
      exact .ok (allLowered_of (by simp) (by simpa) (by simpa))
  | .var name type | .type name type => by
      refine .bind (yields_identifier name) fun _ hname => ?_
      refine .bind type.yields_lower fun _ htype => ?_
      exact .ok (allLowered_of (by simp) (by simpa) (by simpa))
  | .proc name parameters body => by
      refine .bind (yields_identifier name) fun _ hname => ?_
      refine .bind (FormalParameter.yields_lowerAll parameters) fun _ hparameters => ?_
      refine .bind body.yields_lower fun _ hbody => ?_
      exact .ok (allLowered_of (by simp) (by simpa) (forall_mem_concat hparameters hbody))
  | .func name parameters result body => by
      refine .bind (yields_identifier name) fun _ hname => ?_
      refine .bind (FormalParameter.yields_lowerAll parameters) fun _ hparameters => ?_
      refine .bind result.yields_lower fun _ hresult => ?_
      refine .bind body.yields_lower fun _ hbody => ?_
      refine .ok (allLowered_of (by simp) (by simpa) (List.forall_mem_append.mpr ⟨?_, ?_⟩))
      · exact List.forall_mem_map.mpr hparameters
      · simp [hresult, hbody]
  | .unaryOperator operator argument result => by
      refine .bind (yields_operator operator) fun _ hoperator => ?_
      refine .bind argument.yields_lower fun _ hargument => ?_
      refine .bind result.yields_lower fun _ hresult => ?_
      exact .ok (allLowered_of (by simp) (by simpa) (by simp [hargument, hresult]))
  | .binaryOperator operator left right result => by
      refine .bind (yields_operator operator) fun _ hoperator => ?_
      refine .bind left.yields_lower fun _ hleft => ?_
      refine .bind right.yields_lower fun _ hright => ?_
      refine .bind result.yields_lower fun _ hresult => ?_
      exact .ok (allLowered_of (by simp) (by simpa) (by simp [hleft, hright, hresult]))
  | .sequential declarations => by
      refine .bind (Declaration.yields_lowerAll declarations) fun trees htrees => ?_
      intro chain hchain
      -- an empty list of declarations is refused, so there is a chain
      cases hok : LoopHoist.Declaration.chain? span trees with
      | none => simp [hok] at hchain
      | some tree =>
          simp only [hok, pure, Except.pure, Except.ok.injEq] at hchain
          subst hchain
          exact allLowered_chain htrees hok

theorem Declaration.yields_lowerAll : ∀ documents : List Declaration,
    Yields (Declaration.lowerAll span documents) fun trees =>
      ∀ tree ∈ trees, (Fragment.declaration tree).AllLowered span
  | [] => .ok (List.forall_mem_nil _)
  | document :: rest => by
      refine .bind document.yields_lower fun _ hdocument => ?_
      refine .bind (Declaration.yields_lowerAll rest) fun _ hrest => ?_
      exact .ok (List.forall_mem_cons.mpr ⟨hdocument, hrest⟩)

theorem Command.yields_lower : ∀ document : Command,
    Yields (document.lower span) fun tree => (Fragment.command tree).AllLowered span
  | .assign target value => by
      refine .bind target.yields_lower fun _ htarget => ?_
      refine .bind value.yields_lower fun _ hvalue => ?_
      exact .ok (allLowered_of (by simp) (by simp) (by simp [htarget, hvalue]))
  | .call procedure arguments => by
      refine .bind (yields_identifier procedure) fun _ hprocedure => ?_
      refine .bind (ActualParameter.yields_lowerAll arguments) fun _ harguments => ?_
      exact .ok (allLowered_of (by simp) (by simpa) (by simpa))
  | .empty => .ok allLowered_skip
  | .ifThenElse condition thenBranch elseBranch => by
      refine .bind condition.yields_lower fun _ hcondition => ?_
      refine .bind thenBranch.yields_lower fun _ hthen => ?_
      refine .bind elseBranch.yields_lower fun _ helse => ?_
      exact .ok (allLowered_of (by simp) (by simp) (by simp [hcondition, hthen, helse]))
  | .letIn declaration body => by
      refine .bind declaration.yields_lower fun _ hdeclaration => ?_
      refine .bind body.yields_lower fun _ hbody => ?_
      exact .ok (allLowered_of (by simp) (by simp) (by simp [hdeclaration, hbody]))
  | .sequential commands => by
      refine .bind (Command.yields_lowerAll commands) fun _ hcommands => ?_
      exact .ok (allLowered_seqAll hcommands)
  | .whileDo condition body => by
      refine .bind condition.yields_lower fun _ hcondition => ?_
      refine .bind body.yields_lower fun _ hbody => ?_
      exact .ok (allLowered_of (by simp) (by simp) (by simp [hcondition, hbody]))

theorem Command.yields_lowerAll : ∀ documents : List Command,
    Yields (Command.lowerAll span documents) fun trees =>
      ∀ tree ∈ trees, (Fragment.command tree).AllLowered span
  | [] => .ok (List.forall_mem_nil _)
  | document :: rest => by
      refine .bind document.yields_lower fun _ hdocument => ?_
      refine .bind (Command.yields_lowerAll rest) fun _ hrest => ?_
      exact .ok (List.forall_mem_cons.mpr ⟨hdocument, hrest⟩)

end

end Document

end LoopHoist
