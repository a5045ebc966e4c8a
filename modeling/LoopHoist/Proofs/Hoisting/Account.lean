import LoopHoist.Proofs.Hoisting.Nesting
import Mathlib.Algebra.GroupWithZero.Nat

/-!
# The account of a run

A run of hoisting leaves three records of what it did: the numbers it returns, the events it logs
and the tree it builds.  The numbers are raised when the loops inside a loop are done, the events
come partly before and partly after that, and the tree is built from the list of constants.

`hoist_accounts_agree` says that the three never disagree, whatever the program is and whatever
names it uses.

## Strategy

`Reports` extends the rules of hoisting by the numbers and the events of a run, and `reports_hoist`
says that a run obeys them.  Two equations carry that proof.  A loop that takes nothing is built
around what hoisting makes of its body (`Command.hoist_whileDo_of_taken_eq_nil`), since its
extraction gives back the very body; any other loop is put in a block
(`Command.hoist_whileDo_of_chain?`).  Each record is then compared with the numbers by one induction
over the rules.
-/

namespace LoopHoist

/-! ## What hoisting makes of a loop -/

theorem rebuildPair_eq_none_iff {α β : Type} {build : α → α → β} {first second : α}
    {first' second' : Option α} :
    rebuildPair build first second first' second' = none ↔ first' = none ∧ second' = none := by
  cases first' <;> cases second' <;> simp [rebuildPair]

/-- An extraction keeps the command it was given exactly when it has no constants. -/
theorem Command.replacement_extract_eq_none_iff {assigned : List String} :
    ∀ (command : Command) {issued : Nat}, (command.extract assigned issued).replacement = none ↔
      (command.extract assigned issued).constants = []
  | .assign target value span, issued => by
      unfold Command.extract
      split <;> simp
  | .call .., _ | .skip _, _ => iff_of_true rfl rfl
  | .ifThenElse _ first second _, issued | .seq first second _, issued => by
      rw [Command.extract, rebuildPair_eq_none_iff, List.append_eq_nil_iff,
        first.replacement_extract_eq_none_iff, second.replacement_extract_eq_none_iff]
  | .letIn _ body _, issued | .whileDo _ body _, issued => by
      rw [Command.extract, Option.map_eq_none_iff, body.replacement_extract_eq_none_iff]

theorem Command.constants_extract (body : Command) :
    (body.extract body.assigned 0).constants = numbered 0 body.taken :=
  (extracts_extracted body.assigned body 0).constants_eq

/-- A loop that takes nothing is hoisted in like any other command around its body. -/
theorem Command.hoist_whileDo_of_taken_eq_nil {condition : Expression} {body : Command}
    {span : Span} (htaken : body.taken = []) :
    (Command.whileDo condition body span).hoist =
      body.hoist.map fun body' => .whileDo condition body' .dummy := by
  have hconstants : (body.extract body.assigned 0).constants = [] := by
    rw [body.constants_extract, htaken, numbered]
  have hreplacement := body.replacement_extract_eq_none_iff.mpr hconstants
  rw [Command.hoist_whileDo, Outcome.loop]
  simp only [Command.extracted, hconstants, hreplacement, List.map_nil, Declaration.chain?,
    Option.getD_none, List.nil_append, Outcome.map, Option.orElse_eq_orElse]
  cases body.hoist.replacement <;> rfl

theorem Command.taken_eq_nil_of_chain?_eq_none (body : Command)
    (hchain : Declaration.chain? .dummy ((numbered 0 body.taken).map Constant.declaration) = none) :
    body.taken = [] := by
  have hnumbered := List.map_eq_nil_iff.mp (eq_nil_of_chain?_eq_none hchain)
  rw [← map_value_numbered body.taken 0, hnumbered, List.map_nil]

theorem Command.length_taken_pos {body : Command} {chain : Declaration}
    (hchain : Declaration.chain? .dummy ((numbered 0 body.taken).map Constant.declaration) =
      some chain) : 0 < body.taken.length := by
  rw [List.length_pos_iff]
  intro hnil
  simp [hnil, numbered, Declaration.chain?] at hchain

/-- A loop that takes values is put in a block of constants for them. -/
theorem Command.hoist_whileDo_of_chain? {condition : Expression} {body : Command} {span : Span}
    {chain : Declaration}
    (hchain : Declaration.chain? .dummy ((numbered 0 body.taken).map Constant.declaration) =
      some chain) :
    (Command.whileDo condition body span).hoist =
      let middle := body.extracted body.assigned 0
      ⟨some (.letIn chain (.whileDo condition middle.hoisted .dummy) .dummy),
        middle.hoist.stats + ⟨1, body.taken.length⟩,
        (numbered 0 body.taken).map (fun constant => .hoisting constant.value constant.name) ++
          middle.hoist.events ++ [.hoisted body.taken.length condition]⟩ := by
  rw [Command.hoist_whileDo, Outcome.loop]
  simp only [body.constants_extract, hchain, body.getD_hoist_extracted, length_numbered]

/-! ## The rules with the numbers and the events of a run -/

/-- What hoisting makes of a command, spans aside, with the numbers and the events of the run. -/
inductive Reports : Command → Command → HoistingStats → List Event → Prop
  | assign {target value span span'} :
      Reports (.assign target value span) (.assign target value span') 0 []
  | call {procedure arguments span span'} :
      Reports (.call procedure arguments span) (.call procedure arguments span') 0 []
  | skip {span span'} : Reports (.skip span) (.skip span') 0 []
  | ifThenElse {condition thenBranch thenBranch' elseBranch elseBranch' span span'}
      {inThen inElse thenEvents elseEvents} (hthen : Reports thenBranch thenBranch' inThen thenEvents)
      (helse : Reports elseBranch elseBranch' inElse elseEvents) :
      Reports (.ifThenElse condition thenBranch elseBranch span)
        (.ifThenElse condition thenBranch' elseBranch' span') (inThen + inElse)
        (thenEvents ++ elseEvents)
  | letIn {declaration body body' span span' stats events}
      (hbody : Reports body body' stats events) :
      Reports (.letIn declaration body span) (.letIn declaration body' span') stats events
  | seq {first first' second second' span span'} {inFirst inSecond firstEvents secondEvents}
      (hfirst : Reports first first' inFirst firstEvents)
      (hsecond : Reports second second' inSecond secondEvents) :
      Reports (.seq first second span) (.seq first' second' span') (inFirst + inSecond)
        (firstEvents ++ secondEvents)
  /-- The loop takes nothing: only the loops inside it are accounted for. -/
  | kept {condition body body' span span' stats events} (htaken : body.taken = [])
      (hbody : Reports body body' stats events) :
      Reports (.whileDo condition body span) (.whileDo condition body' span') stats events
  /-- The loop adds itself and the values it takes to the account of the loops inside it. -/
  | wrapped {condition body middle body' chain span span' span'' stats events}
      (hextract : Extracts body.assigned 0 body middle (numbered 0 body.taken))
      (hchain : Declaration.chain? .dummy ((numbered 0 body.taken).map Constant.declaration) =
        some chain)
      (hbody : Reports middle body' stats events) :
      Reports (.whileDo condition body span)
        (.letIn chain (.whileDo condition body' span') span'')
        (stats + ⟨1, body.taken.length⟩)
        ((numbered 0 body.taken).map (fun constant => .hoisting constant.value constant.name) ++
          events ++ [.hoisted body.taken.length condition])

/-- A run obeys the rules.  The recursion is that of hoisting, except that it goes into the body of a
loop as it is when the loop takes nothing. -/
theorem reports_hoist (command : Command) :
    Reports command command.hoisted command.hoist.stats command.hoist.events := by
  match command with
  | .assign .. | .call .. | .skip _ =>
      simp only [Command.hoisted, Command.hoist_assign, Command.hoist_call, Command.hoist_skip,
        Outcome.kept, Outcome.result, Option.getD_none]
      constructor
  | .ifThenElse condition thenBranch elseBranch span =>
      obtain ⟨span', hspan⟩ := exists_getD_rebuildPair (.ifThenElse condition) thenBranch elseBranch
        thenBranch.hoist.replacement elseBranch.hoist.replacement span
      simp only [Command.hoisted, Command.hoist_ifThenElse, Outcome.pair, Outcome.result, hspan]
      exact .ifThenElse (reports_hoist thenBranch) (reports_hoist elseBranch)
  | .seq first second span =>
      obtain ⟨span', hspan⟩ := exists_getD_rebuildPair .seq first second
        first.hoist.replacement second.hoist.replacement span
      simp only [Command.hoisted, Command.hoist_seq, Outcome.pair, Outcome.result, hspan]
      exact .seq (reports_hoist first) (reports_hoist second)
  | .letIn declaration body span =>
      obtain ⟨span', hspan⟩ := exists_getD_map (.letIn declaration) body body.hoist.replacement span
      simp only [Command.hoisted, Command.hoist_letIn, Outcome.map, Outcome.result, hspan]
      exact .letIn (reports_hoist body)
  | .whileDo condition body span =>
      cases hchain : Declaration.chain? .dummy
          ((numbered 0 body.taken).map Constant.declaration) with
      | none =>
          -- the extraction gave the very body back, so the recursion may go into that
          have htaken := body.taken_eq_nil_of_chain?_eq_none hchain
          obtain ⟨span', hspan⟩ := exists_getD_map (.whileDo condition) body
            body.hoist.replacement span
          rw [Command.hoisted, Command.hoist_whileDo_of_taken_eq_nil htaken]
          simp only [Outcome.map, Outcome.result, hspan]
          exact .kept htaken (reports_hoist body)
      | some chain =>
          have hextract := extracts_extracted body.assigned body 0
          rw [body.constants_extract] at hextract
          rw [Command.hoisted, Command.hoist_whileDo_of_chain? hchain]
          simp only [Outcome.result, Option.getD_some]
          exact .wrapped hextract hchain (reports_hoist (body.extracted body.assigned 0))
termination_by command.size
decreasing_by
  all_goals simp only [Command.size, Command.size_extract]
  all_goals omega

/-! ## What there is to count in a tree -/

/-- The forms that a command can have. -/
inductive Form where
  | assign
  | call
  | skip
  | ifThenElse
  | letIn
  | seq
  | whileDo
deriving DecidableEq

/-- The forms of the commands that a command is made of, itself first. -/
def Command.forms : Command → List Form
  | .assign .. => [.assign]
  | .call .. => [.call]
  | .skip _ => [.skip]
  | .ifThenElse _ thenBranch elseBranch _ => .ifThenElse :: (thenBranch.forms ++ elseBranch.forms)
  | .letIn _ body _ => .letIn :: body.forms
  | .seq first second _ => .seq :: (first.forms ++ second.forms)
  | .whileDo _ body _ => .whileDo :: body.forms

/-- The declarations in the blocks that a command is made of, with chains taken apart. -/
def Command.leaves : Command → List Declaration
  | .assign .. | .call .. | .skip _ => []
  | .ifThenElse _ thenBranch elseBranch _ => thenBranch.leaves ++ elseBranch.leaves
  | .letIn declaration body _ => declaration.flatten ++ body.leaves
  | .seq first second _ => first.leaves ++ second.leaves
  | .whileDo _ body _ => body.leaves

/-- Whether a declaration declares a constant. -/
def Declaration.isConst : Declaration → Bool
  | .const .. => true
  | .var .. | .proc .. | .func .. | .type .. | .unaryOperator .. | .binaryOperator .. | .seq .. =>
      false

/-- Whether an event tells that a value was given a name. -/
def Event.isHoisting : Event → Bool
  | .hoisting .. => true
  | .hoisted .. | .skipping .. | .ran .. => false

/-- Whether an event tells that values were moved out of a loop. -/
def Event.isHoisted : Event → Bool
  | .hoisted .. => true
  | .hoisting .. | .skipping .. | .ran .. => false

/-- How many values an event tells to have been moved out of a loop. -/
def Event.moved : Event → Nat
  | .hoisted count _ => count
  | .hoisting .. | .skipping .. | .ran .. => 0

namespace Extracts

variable {assigned : List String} {issued : Nat} {command command' : Command}
  {constants : List Constant}

theorem forms_eq (hextract : Extracts assigned issued command command' constants) :
    command'.forms = command.forms := by
  induction hextract with
  | taken | left | call | skip => rfl
  | ifThenElse _ _ ihFirst ihSecond | seq _ _ ihFirst ihSecond =>
      simp only [Command.forms, ihFirst, ihSecond]
  | letIn _ ih | whileDo _ ih => simp only [Command.forms, ih]

theorem leaves_eq (hextract : Extracts assigned issued command command' constants) :
    command'.leaves = command.leaves := by
  induction hextract with
  | taken | left | call | skip => rfl
  | ifThenElse _ _ ihFirst ihSecond | seq _ _ ihFirst ihSecond =>
      simp only [Command.leaves, ihFirst, ihSecond]
  | letIn _ ih | whileDo _ ih => simp only [Command.leaves, ih]

end Extracts

/-- The parts of a chain of constants are the constants it was built from. -/
theorem flatten_of_chain? {constants : List Constant} {chain : Declaration}
    (hchain : Declaration.chain? .dummy (constants.map Constant.declaration) = some chain) :
    chain.flatten = constants.map Constant.declaration := by
  refine chain_induction ?_ ?_ hchain
  · intro constant
    simp [Declaration.flatten, Declaration.flattenAll, Constant.declaration]
  · intro constant rest tail ih
    unfold Declaration.flatten at ih ⊢
    rw [Declaration.flattenAll, Constant.declaration, Declaration.flattenAll, ih]
    · rfl
    · -- the equation for a leaf asks that the constant be no chain itself
      intro first second span hseq
      cases hseq

/-! ## The three records -/

namespace Reports

variable {command command' : Command} {stats : HoistingStats} {events : List Event}

/-- Every rewritten loop adds one block; commands of other forms are neither added nor lost. -/
theorem count_forms (hreports : Reports command command' stats events) (form : Form) :
    command'.forms.count form =
      command.forms.count form + if form = .letIn then stats.loopsRewritten else 0 := by
  induction hreports with
  | assign | call | skip => simp [Command.forms]
  | ifThenElse _ _ ihFirst ihSecond | seq _ _ ihFirst ihSecond =>
      simp only [Command.forms, List.count_cons, List.count_append, ihFirst, ihSecond,
        HoistingStats.add_loopsRewritten]
      split <;> omega
  | letIn _ ih | kept _ _ ih =>
      simp only [Command.forms, List.count_cons, ih]
      omega
  | wrapped hextract _ _ ih =>
      -- the block is the one command that is new: extraction has kept the forms of the body
      rw [hextract.forms_eq] at ih
      simp only [Command.forms, List.count_cons, ih, HoistingStats.add_loopsRewritten]
      cases form <;> simp
      omega

/-- Every value that leaves a loop is declared in one new constant. -/
theorem countP_leaves (hreports : Reports command command' stats events) :
    command'.leaves.countP Declaration.isConst =
      command.leaves.countP Declaration.isConst + stats.constantsHoisted := by
  induction hreports with
  | assign | call | skip => simp [Command.leaves]
  | ifThenElse _ _ ihFirst ihSecond | seq _ _ ihFirst ihSecond =>
      simp only [Command.leaves, List.countP_append, ihFirst, ihSecond,
        HoistingStats.add_constantsHoisted]
      omega
  | letIn _ ih =>
      simp only [Command.leaves, List.countP_append, ih]
      omega
  | kept _ _ ih => exact ih
  | @wrapped condition body _ _ chain _ _ _ _ _ hextract hchain _ ih =>
      -- the chain falls apart into one constant for each value that the loop takes
      have hchainCount : chain.flatten.countP Declaration.isConst = body.taken.length := by
        have hall : ∀ declaration ∈ (numbered 0 body.taken).map Constant.declaration,
            declaration.isConst = true := by
          rw [List.forall_mem_map]
          intro constant _
          rfl
        rw [flatten_of_chain? hchain, List.countP_eq_length.mpr hall, List.length_map,
          length_numbered]
      rw [hextract.leaves_eq] at ih
      simp only [Command.leaves, List.countP_append, hchainCount, ih,
        HoistingStats.add_constantsHoisted]
      omega

/-- Every rewritten loop is told once, with the number of values that left it, and so is every one
of these values. -/
theorem events_agree (hreports : Reports command command' stats events) :
    events.countP Event.isHoisted = stats.loopsRewritten ∧
      events.countP Event.isHoisting = stats.constantsHoisted ∧
      (events.map Event.moved).sum = stats.constantsHoisted := by
  induction hreports with
  | assign | call | skip => exact ⟨rfl, rfl, rfl⟩
  | ifThenElse _ _ ihFirst ihSecond | seq _ _ ihFirst ihSecond =>
      obtain ⟨hloops, hvalues, hmoved⟩ := ihFirst
      obtain ⟨hloops', hvalues', hmoved'⟩ := ihSecond
      simp only [List.countP_append, List.map_append, List.sum_append, hloops, hloops', hvalues,
        hvalues', hmoved, hmoved', HoistingStats.add_loopsRewritten,
        HoistingStats.add_constantsHoisted, and_self]
  | letIn _ ih | kept _ _ ih => exact ih
  | wrapped _ _ _ ih =>
      obtain ⟨hloops, hvalues, hmoved⟩ := ih
      -- the values are told of before the loops inside, the loop itself after them
      refine ⟨?_, ?_, ?_⟩
      · simp [List.countP_append, List.countP_map, Function.comp_def, hloops, Event.isHoisted]
      · simp [List.countP_append, List.countP_map, Function.comp_def, hvalues, Event.isHoisting,
          Nat.add_comm]
      · simp [Function.comp_def, hmoved, Event.moved, List.map_const']

end Reports

@[simp] theorem Program.stats_hoist (program : Program) :
    program.hoist.stats = program.command.hoist.stats := rfl

@[simp] theorem Program.events_hoist (program : Program) :
    program.hoist.events = program.command.hoist.events := rfl

/-- **The three accounts of a run agree.**  The number of rewritten loops is the number of blocks that
the run added and the number of loops it tells of.  The number of hoisted constants is the number of
constants declared in those blocks, the number of values it tells of, and the sum of the numbers it
tells for the loops.  Commands of any other form are as many as before. -/
theorem hoist_accounts_agree (program : Program) :
    (program.optimise.command.forms.count .letIn =
        program.command.forms.count .letIn + program.hoist.stats.loopsRewritten ∧
      program.hoist.events.countP Event.isHoisted = program.hoist.stats.loopsRewritten) ∧
    (program.optimise.command.leaves.countP Declaration.isConst =
        program.command.leaves.countP Declaration.isConst + program.hoist.stats.constantsHoisted ∧
      program.hoist.events.countP Event.isHoisting = program.hoist.stats.constantsHoisted ∧
      (program.hoist.events.map Event.moved).sum = program.hoist.stats.constantsHoisted) ∧
    ∀ form, form ≠ .letIn →
      program.optimise.command.forms.count form = program.command.forms.count form := by
  have hreports := reports_hoist program.command
  obtain ⟨hloops, hvalues, hmoved⟩ := hreports.events_agree
  rw [Program.optimise_command, Program.stats_hoist, Program.events_hoist]
  refine ⟨⟨?_, hloops⟩, ⟨hreports.countP_leaves, hvalues, hmoved⟩, fun form hform => ?_⟩
  · rw [hreports.count_forms .letIn, if_pos rfl]
  · rw [hreports.count_forms form, if_neg hform, Nat.add_zero]

end LoopHoist
