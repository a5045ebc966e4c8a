import LoopHoist.Event
import LoopHoist.Hoisting.Extraction

/-!
# Hoisting loop invariants

A loop whose body has invariant values becomes

  `let const $h1 ~ e₁; …; const $hn ~ eₙ in while c do b`

where `b` reads the constants in place of the values.  Every loop of a program is treated, the outer
ones first: when the values of the outer loop are out, the loops in what is left of its body are
treated in turn, each with names of its own that start at `$h1` again.

A command in which no loop changes is kept as it is.  An outcome therefore says what replaces the
command, if anything does, together with the account of the run and its events.

## Termination

For a loop the recursion goes into the body after extraction, which is not a part of the loop but has
as many commands as the body it came from.  `Command.hoistRound` is one round of the recursion: it may
ask about smaller commands only, so hoisting is the round that asks itself.
-/

namespace LoopHoist

/-- The account of a run. -/
structure HoistingStats where
  /-- Loops that were put in a block of constants. -/
  loopsRewritten : Nat
  /-- Values that were moved out of loops. -/
  constantsHoisted : Nat
deriving DecidableEq, Repr, Inhabited

namespace HoistingStats

instance : Add HoistingStats :=
  ⟨fun a b => ⟨a.loopsRewritten + b.loopsRewritten, a.constantsHoisted + b.constantsHoisted⟩⟩

instance : Zero HoistingStats := ⟨⟨0, 0⟩⟩

@[simp] theorem add_loopsRewritten (a b : HoistingStats) :
    (a + b).loopsRewritten = a.loopsRewritten + b.loopsRewritten := rfl

@[simp] theorem add_constantsHoisted (a b : HoistingStats) :
    (a + b).constantsHoisted = a.constantsHoisted + b.constantsHoisted := rfl

@[simp] theorem zero_loopsRewritten : (0 : HoistingStats).loopsRewritten = 0 := rfl

@[simp] theorem zero_constantsHoisted : (0 : HoistingStats).constantsHoisted = 0 := rfl

end HoistingStats

/-- What hoisting makes of a tree. -/
structure Outcome (α : Type) where
  /-- What takes the place of the tree, if anything changed. -/
  replacement : Option α
  stats : HoistingStats
  events : List Event

/-- Nothing was found to hoist. -/
def Outcome.kept {α : Type} : Outcome α := ⟨none, 0, []⟩

/-- What the tree is after hoisting. -/
def Outcome.result {α : Type} (outcome : Outcome α) (tree : α) : α := outcome.replacement.getD tree

/-- Whether the tree was kept as it was. -/
def Outcome.isUnchanged {α : Type} (outcome : Outcome α) : Bool := outcome.replacement.isNone

/-- A part of a tree was hoisted in; the tree is built anew around it if it changed. -/
def Outcome.map {α β : Type} (build : α → β) (outcome : Outcome α) : Outcome β :=
  ⟨outcome.replacement.map build, outcome.stats, outcome.events⟩

/-- Two parts of a tree were hoisted in, one after the other. -/
def Outcome.pair {α β : Type} (build : α → α → β) (first second : α) (inFirst inSecond : Outcome α) :
    Outcome β :=
  ⟨rebuildPair build first second inFirst.replacement inSecond.replacement,
    inFirst.stats + inSecond.stats, inFirst.events ++ inSecond.events⟩

/-- A loop whose values were taken out, and then the loops in what is left of its body were hoisted
in.  It is put in a block of constants if there are any. -/
def Outcome.loop (condition : Expression) (body : Command) (inner : Outcome Command) :
    Outcome Command :=
  let extraction := body.extract body.assigned 0
  let body' := inner.replacement <|> extraction.replacement
  let found := extraction.constants.map fun constant => Event.hoisting constant.value constant.name
  match Declaration.chain? .dummy (extraction.constants.map Constant.declaration) with
  | none => ⟨body'.map fun b => .whileDo condition b .dummy, inner.stats, found ++ inner.events⟩
  | some chain =>
      let count := extraction.constants.length
      ⟨some (.letIn chain (.whileDo condition (body'.getD body) .dummy) .dummy),
        inner.stats + ⟨1, count⟩,
        found ++ inner.events ++ [.hoisted count condition]⟩

/-- One round of hoisting: what becomes of a command when `inside` says what becomes of the smaller
commands that hoisting goes on with. -/
def Command.hoistRound : (command : Command) →
    ((part : Command) → part.size < command.size → Outcome Command) → Outcome Command
  | .assign .., _ | .call .., _ | .skip _, _ => .kept
  | .ifThenElse condition thenBranch elseBranch _, inside =>
      .pair (fun t e => .ifThenElse condition t e .dummy) thenBranch elseBranch
        (inside thenBranch size_thenBranch_lt) (inside elseBranch size_elseBranch_lt)
  | .letIn declaration body _, inside =>
      (inside body size_block_lt).map fun b => .letIn declaration b .dummy
  | .seq first second _, inside =>
      .pair (fun c d => .seq c d .dummy) first second
        (inside first size_first_lt) (inside second size_second_lt)
  | .whileDo condition body _, inside =>
      .loop condition body (inside (body.extracted body.assigned 0) size_extracted_lt)

/-- Hoists in every loop of a command. -/
def Command.hoist (command : Command) : Outcome Command :=
  command.hoistRound fun part _ => part.hoist
termination_by command.size

section

variable {target : Vname} {value condition : Expression} {procedure : Identifier}
  {arguments : List ActualParameter} {declaration : Declaration}
  {body first second thenBranch elseBranch : Command} {span : Span}

theorem Command.hoist_assign : (Command.assign target value span).hoist = .kept := by
  rw [Command.hoist, Command.hoistRound]

theorem Command.hoist_call : (Command.call procedure arguments span).hoist = .kept := by
  rw [Command.hoist, Command.hoistRound]

theorem Command.hoist_skip : (Command.skip span).hoist = .kept := by
  rw [Command.hoist, Command.hoistRound]

theorem Command.hoist_ifThenElse :
    (Command.ifThenElse condition thenBranch elseBranch span).hoist =
      .pair (fun t e => .ifThenElse condition t e .dummy) thenBranch elseBranch
        thenBranch.hoist elseBranch.hoist := by
  rw [Command.hoist, Command.hoistRound]

theorem Command.hoist_letIn : (Command.letIn declaration body span).hoist =
    body.hoist.map fun b => .letIn declaration b .dummy := by
  rw [Command.hoist, Command.hoistRound]

theorem Command.hoist_seq : (Command.seq first second span).hoist =
    .pair (fun c d => .seq c d .dummy) first second first.hoist second.hoist := by
  rw [Command.hoist, Command.hoistRound]

theorem Command.hoist_whileDo : (Command.whileDo condition body span).hoist =
    .loop condition body (body.extracted body.assigned 0).hoist := by
  rw [Command.hoist, Command.hoistRound]

end

/-- Hoists in every loop of a program. -/
def Program.hoist (program : Program) : Outcome Program :=
  program.command.hoist.map fun command => ⟨command, .dummy⟩

/-- A program with its loop invariants hoisted. -/
def Program.optimise (program : Program) : Program := program.hoist.result program

end LoopHoist
