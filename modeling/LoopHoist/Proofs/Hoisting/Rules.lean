import LoopHoist.Proofs.Identifiers

/-!
# Extraction and hoisting as rules

`Command.extract` and `Command.hoist` keep a command that does not change and build anew one that
does, so each of their cases comes in several versions that differ in spans only.  The relations of
this file say what the two do and leave the spans open:

* `Extracts assigned issued c c' constants`: taking the values that are invariant for a loop
  assigning `assigned` out of `c` leaves `c'` and gives `constants`, where `issued` names were given
  out before;
* `Hoists c c'`: hoisting in every loop of `c` leaves `c'`.

`extracts_extracted` and `hoists_hoisted` say that the functions obey the rules.  Every later result
about hoisting is proved by induction over the rules and never unfolds the functions.
-/

namespace LoopHoist

/-! ## The rules of extraction -/

/-- What extraction makes of a command, spans aside. -/
inductive Extracts (assigned : List String) : Nat → Command → Command → List Constant → Prop
  | taken {issued target value span span'} (hvalue : value.isInvariant assigned = true) :
      Extracts assigned issued (.assign target value span)
        (.assign target (Constant.reading ⟨hoistedName (issued + 1), value⟩) span')
        [⟨hoistedName (issued + 1), value⟩]
  | left {issued target value span span'} (hvalue : value.isInvariant assigned = false) :
      Extracts assigned issued (.assign target value span) (.assign target value span') []
  | call {issued procedure arguments span span'} :
      Extracts assigned issued (.call procedure arguments span) (.call procedure arguments span') []
  | skip {issued span span'} : Extracts assigned issued (.skip span) (.skip span') []
  | ifThenElse {issued condition thenBranch thenBranch' elseBranch elseBranch' span span'}
      {inThen inElse : List Constant}
      (hthen : Extracts assigned issued thenBranch thenBranch' inThen)
      (helse : Extracts assigned (issued + inThen.length) elseBranch elseBranch' inElse) :
      Extracts assigned issued (.ifThenElse condition thenBranch elseBranch span)
        (.ifThenElse condition thenBranch' elseBranch' span') (inThen ++ inElse)
  | letIn {issued declaration body body' constants span span'}
      (hbody : Extracts assigned issued body body' constants) :
      Extracts assigned issued (.letIn declaration body span) (.letIn declaration body' span')
        constants
  | seq {issued first first' second second' span span'} {inFirst inSecond : List Constant}
      (hfirst : Extracts assigned issued first first' inFirst)
      (hsecond : Extracts assigned (issued + inFirst.length) second second' inSecond) :
      Extracts assigned issued (.seq first second span) (.seq first' second' span')
        (inFirst ++ inSecond)
  | whileDo {issued condition body body' constants span span'}
      (hbody : Extracts assigned issued body body' constants) :
      Extracts assigned issued (.whileDo condition body span) (.whileDo condition body' span')
        constants

/-- A pair that is built anew when one of its halves was replaced still stands for its halves as
they are now, at some span. -/
theorem exists_getD_rebuildPair {α : Type} (build : α → α → Span → α) (first second : α)
    (first' second' : Option α) (span : Span) :
    ∃ span', (rebuildPair (fun a b => build a b .dummy) first second first' second').getD
      (build first second span) = build (first'.getD first) (second'.getD second) span' := by
  cases first' <;> cases second' <;> exact ⟨_, rfl⟩

theorem exists_getD_map {α : Type} (build : α → Span → α) (part : α) (part' : Option α)
    (span : Span) :
    ∃ span', (part'.map fun a => build a .dummy).getD (build part span) =
      build (part'.getD part) span' := by
  cases part' <;> exact ⟨_, rfl⟩

theorem extracts_extracted (assigned : List String) :
    ∀ (command : Command) (issued : Nat),
      Extracts assigned issued command (command.extracted assigned issued)
        (command.extract assigned issued).constants
  | .assign target value span, issued => by
      unfold Command.extracted Command.extract
      cases hvalue : value.isInvariant assigned with
      | true => exact .taken hvalue
      | false => exact .left hvalue
  | .call .., _ => .call
  | .skip _, _ => .skip
  | .ifThenElse condition thenBranch elseBranch span, issued => by
      have hthen := extracts_extracted assigned thenBranch issued
      have helse := extracts_extracted assigned elseBranch
        (issued + (thenBranch.extract assigned issued).constants.length)
      -- whether anything was replaced only shows in the span
      obtain ⟨span', hspan⟩ := exists_getD_rebuildPair (.ifThenElse condition) thenBranch elseBranch
        (thenBranch.extract assigned issued).replacement
        (elseBranch.extract assigned
          (issued + (thenBranch.extract assigned issued).constants.length)).replacement span
      unfold Command.extracted at *
      rw [Command.extract, hspan]
      exact .ifThenElse hthen helse
  | .letIn declaration body span, issued => by
      have hbody := extracts_extracted assigned body issued
      obtain ⟨span', hspan⟩ := exists_getD_map (.letIn declaration) body
        (body.extract assigned issued).replacement span
      unfold Command.extracted at *
      rw [Command.extract, hspan]
      exact .letIn hbody
  | .seq first second span, issued => by
      have hfirst := extracts_extracted assigned first issued
      have hsecond := extracts_extracted assigned second
        (issued + (first.extract assigned issued).constants.length)
      obtain ⟨span', hspan⟩ := exists_getD_rebuildPair .seq first second
        (first.extract assigned issued).replacement
        (second.extract assigned
          (issued + (first.extract assigned issued).constants.length)).replacement span
      unfold Command.extracted at *
      rw [Command.extract, hspan]
      exact .seq hfirst hsecond
  | .whileDo condition body span, issued => by
      have hbody := extracts_extracted assigned body issued
      obtain ⟨span', hspan⟩ := exists_getD_map (.whileDo condition) body
        (body.extract assigned issued).replacement span
      unfold Command.extracted at *
      rw [Command.extract, hspan]
      exact .whileDo hbody

/-! ## The rules of hoisting -/

/-- A command with its loop invariants hoisted. -/
def Command.hoisted (command : Command) : Command := command.hoist.result command

@[simp] theorem Program.optimise_command (program : Program) :
    program.optimise.command = program.command.hoisted := by
  unfold Program.optimise Program.hoist Command.hoisted Outcome.result Outcome.map
  cases program.command.hoist.replacement <;> rfl

/-- What hoisting makes of a command, spans aside. -/
inductive Hoists : Command → Command → Prop
  | assign {target value span span'} :
      Hoists (.assign target value span) (.assign target value span')
  | call {procedure arguments span span'} :
      Hoists (.call procedure arguments span) (.call procedure arguments span')
  | skip {span span'} : Hoists (.skip span) (.skip span')
  | ifThenElse {condition thenBranch thenBranch' elseBranch elseBranch' span span'}
      (hthen : Hoists thenBranch thenBranch') (helse : Hoists elseBranch elseBranch') :
      Hoists (.ifThenElse condition thenBranch elseBranch span)
        (.ifThenElse condition thenBranch' elseBranch' span')
  | letIn {declaration body body' span span'} (hbody : Hoists body body') :
      Hoists (.letIn declaration body span) (.letIn declaration body' span')
  | seq {first first' second second' span span'}
      (hfirst : Hoists first first') (hsecond : Hoists second second') :
      Hoists (.seq first second span) (.seq first' second' span')
  /-- Nothing is invariant for the loop: only the loops inside it change. -/
  | kept {condition body middle body' span span'}
      (hextract : Extracts body.assigned 0 body middle []) (hbody : Hoists middle body') :
      Hoists (.whileDo condition body span) (.whileDo condition body' span')
  /-- The loop is put in a block of its constants, and the loops inside it change after that. -/
  | wrapped {condition body middle body' constants chain span span' span''}
      (hextract : Extracts body.assigned 0 body middle constants)
      (hchain : Declaration.chain? .dummy (constants.map Constant.declaration) = some chain)
      (hbody : Hoists middle body') :
      Hoists (.whileDo condition body span)
        (.letIn chain (.whileDo condition body' span') span'')

theorem eq_nil_of_chain?_eq_none {span : Span} :
    ∀ {declarations : List Declaration},
      Declaration.chain? span declarations = none → declarations = []
  | [], _ => rfl
  | [_], hchain => by simp [Declaration.chain?] at hchain
  | _ :: next :: rest, hchain => by
      simp only [Declaration.chain?, Option.map_eq_none_iff] at hchain
      simpa using eq_nil_of_chain?_eq_none hchain

/-- The body that a loop goes on with: as hoisted in after its extraction, or as extracted, or as it
was. -/
theorem Command.getD_hoist_extracted (body : Command) :
    ((body.extracted body.assigned 0).hoist.replacement <|>
      (body.extract body.assigned 0).replacement).getD body =
        (body.extracted body.assigned 0).hoisted := by
  unfold Command.hoisted Outcome.result
  cases (body.extracted body.assigned 0).hoist.replacement <;> rfl

/-- Hoisting obeys its rules.  As in the definition, the recursion goes into the body of a loop
after extraction, which has as many commands as the body itself. -/
theorem hoists_hoisted (command : Command) : Hoists command command.hoisted := by
  match command with
  | .assign .. | .call .. | .skip _ =>
      simp only [Command.hoisted, Command.hoist_assign, Command.hoist_call, Command.hoist_skip,
        Outcome.kept, Outcome.result, Option.getD_none]
      constructor
  | .ifThenElse condition thenBranch elseBranch span =>
      obtain ⟨span', hspan⟩ := exists_getD_rebuildPair (.ifThenElse condition) thenBranch elseBranch
        thenBranch.hoist.replacement elseBranch.hoist.replacement span
      simp only [Command.hoisted, Command.hoist_ifThenElse, Outcome.pair, Outcome.result, hspan]
      exact .ifThenElse (hoists_hoisted thenBranch) (hoists_hoisted elseBranch)
  | .seq first second span =>
      obtain ⟨span', hspan⟩ := exists_getD_rebuildPair .seq first second
        first.hoist.replacement second.hoist.replacement span
      simp only [Command.hoisted, Command.hoist_seq, Outcome.pair, Outcome.result, hspan]
      exact .seq (hoists_hoisted first) (hoists_hoisted second)
  | .letIn declaration body span =>
      obtain ⟨span', hspan⟩ := exists_getD_map (.letIn declaration) body body.hoist.replacement span
      simp only [Command.hoisted, Command.hoist_letIn, Outcome.map, Outcome.result, hspan]
      exact .letIn (hoists_hoisted body)
  | .whileDo condition body span =>
      have hextract := extracts_extracted body.assigned body 0
      have hinner := hoists_hoisted (body.extracted body.assigned 0)
      unfold Command.hoisted
      rw [Command.hoist_whileDo, Outcome.loop, Outcome.result]
      -- the chain is missing exactly if the extraction found no constant
      cases hchain : Declaration.chain? .dummy
          ((body.extract body.assigned 0).constants.map Constant.declaration) with
      | none =>
          obtain ⟨span', hspan⟩ := exists_getD_map (.whileDo condition) body
            ((body.extracted body.assigned 0).hoist.replacement <|>
              (body.extract body.assigned 0).replacement) span
          have hnone := List.map_eq_nil_iff.mp (eq_nil_of_chain?_eq_none hchain)
          rw [hnone] at hextract
          simp only [hspan, body.getD_hoist_extracted]
          exact .kept hextract hinner
      | some chain =>
          simp only [body.getD_hoist_extracted, Option.getD_some]
          exact .wrapped hextract hchain hinner
termination_by command.size
decreasing_by
  all_goals simp only [Command.size, Command.size_extract]
  all_goals omega

theorem hoists_optimise (program : Program) : Hoists program.command program.optimise.command := by
  rw [Program.optimise_command]
  exact hoists_hoisted program.command

end LoopHoist
