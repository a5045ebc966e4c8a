import LoopHoist.Proofs.Fragments
import LoopHoist.Proofs.Hoisting.Growth

/-!
# What a run builds anew

Hoisting keeps the commands in which nothing changes and builds anew only those on the way to a
change.  What is built anew carries the dummy span, so in the hoisted form of a program that was
written down the spans show what happened, and what does not carry the dummy span is the very
command that was written.

`Command.beside` goes through a command and its hoisted form side by side.  A block of constants
that was added around a loop stands beside that loop, and so does the loop in it; all other commands
stand beside the one they were made of.  `optimise_rebuilds_paths` says what this comparison finds.

## Strategy

`Rebuilds` is the relation between a command and what a run makes of it, this time with the spans,
and with a flag that tells whether anything changed.  It is transitive (`Rebuilds.trans`), so the
extraction of a loop and the run on what is left make one rebuilding, and no induction has to look
into both.  Everything else is read off the relation, by cases on it or by one induction over it.
-/

namespace LoopHoist

/-! ## Going through two commands side by side -/

/-- The commands that a command is made of, itself first. -/
def Command.subcommands (command : Command) : List Command :=
  command :: match command with
    | .assign .. | .call .. | .skip _ => []
    | .ifThenElse _ thenBranch elseBranch _ => thenBranch.subcommands ++ elseBranch.subcommands
    | .letIn _ body _ => body.subcommands
    | .seq first second _ => first.subcommands ++ second.subcommands
    | .whileDo _ body _ => body.subcommands

/-- The commands of two trees at corresponding places.  Where the first has a loop and the second a
block, the block is passed over. -/
def Command.beside (before after : Command) : List (Command × Command) :=
  (before, after) :: match before, after with
    | .ifThenElse _ thenBranch elseBranch _, .ifThenElse _ thenBranch' elseBranch' _ =>
        thenBranch.beside thenBranch' ++ elseBranch.beside elseBranch'
    | .letIn _ body _, .letIn _ body' _ => body.beside body'
    | .seq first second _, .seq first' second' _ => first.beside first' ++ second.beside second'
    | .whileDo _ body _, .whileDo _ body' _ => body.beside body'
    | .whileDo .., .letIn _ loop _ => before.beside loop
    | _, _ => []

/-- Whether a loop stands beside a block: the block was added around the loop. -/
def isAdded : Command × Command → Bool
  | (.whileDo .., .letIn ..) => true
  | _ => false

/-- What a command has of its own, apart from the commands in it, the value it assigns and its
span. -/
inductive Head where
  | assign (target : Vname)
  | call (procedure : Identifier) (arguments : List ActualParameter)
  | skip
  | ifThenElse (condition : Expression)
  | letIn (declaration : Declaration)
  | seq
  | whileDo (condition : Expression)

/-- What a command has of its own. -/
def Command.head : Command → Head
  | .assign target _ _ => .assign target
  | .call procedure arguments _ => .call procedure arguments
  | .skip _ => .skip
  | .ifThenElse condition _ _ _ => .ifThenElse condition
  | .letIn declaration _ _ => .letIn declaration
  | .seq .. => .seq
  | .whileDo condition _ _ => .whileDo condition

/-- A value is as it was written, or the read of a constant stands in its place. -/
def Expression.KeptOrRead (written value : Expression) : Prop :=
  value = written ∨ ∃ n, value = readOf n

/-- What a block around a loop has to do with the loop.  `found` lists what the loop found at its
assignments: the values as they were written, or reads that loops around it had put there.  The
constants are the invariant ones of these, in order, and their assignments now read constants. -/
def DeclaresFound (body : Command) (chain : Declaration) (loop : Command) : Prop :=
  ∃ found : List Expression,
    List.Forall₂ Expression.KeptOrRead body.values found ∧
    Declaration.chain? .dummy
        ((numbered 0 (found.filter (·.isInvariant body.assigned))).map Constant.declaration) =
      some chain ∧
    List.Forall₂ (fun value after => value.isInvariant body.assigned = true → ∃ n, after = readOf n)
      found loop.values

/-! ## Rebuilding -/

/-- What a run makes of a command, and whether it changed. -/
inductive Rebuilds : Bool → Command → Command → Prop
  | kept {command} : Rebuilds false command command
  | assign {target value span n} :
      Rebuilds true (.assign target value span) (.assign target (readOf n) .dummy)
  | ifThenElse {inThen inElse condition thenBranch thenBranch' elseBranch elseBranch' span}
      (hthen : Rebuilds inThen thenBranch thenBranch')
      (helse : Rebuilds inElse elseBranch elseBranch') (hchanged : (inThen || inElse) = true) :
      Rebuilds true (.ifThenElse condition thenBranch elseBranch span)
        (.ifThenElse condition thenBranch' elseBranch' .dummy)
  | letIn {declaration body body' span} (hbody : Rebuilds true body body') :
      Rebuilds true (.letIn declaration body span) (.letIn declaration body' .dummy)
  | seq {inFirst inSecond first first' second second' span}
      (hfirst : Rebuilds inFirst first first') (hsecond : Rebuilds inSecond second second')
      (hchanged : (inFirst || inSecond) = true) :
      Rebuilds true (.seq first second span) (.seq first' second' .dummy)
  | whileDo {condition body body' span} (hbody : Rebuilds true body body') :
      Rebuilds true (.whileDo condition body span) (.whileDo condition body' .dummy)
  /-- A block of constants is put around what became of a loop. -/
  | added {condition body span chain loop} (hfound : DeclaresFound body chain loop)
      (hloop : Rebuilds true (.whileDo condition body span) loop) :
      Rebuilds true (.whileDo condition body span) (.letIn chain loop .dummy)

theorem Expression.KeptOrRead.trans {written middle value : Expression}
    (hfirst : written.KeptOrRead middle) (hsecond : middle.KeptOrRead value) :
    written.KeptOrRead value := by
  rcases hsecond with rfl | hread
  · exact hfirst
  · exact .inr hread

namespace Rebuilds

variable {changed : Bool} {command command' : Command}

theorem values (hrebuilds : Rebuilds changed command command') :
    List.Forall₂ Expression.KeptOrRead command.values command'.values := by
  induction hrebuilds with
  | kept => exact List.forall₂_same.mpr fun _ _ => .inl rfl
  | assign => exact .cons (.inr ⟨_, rfl⟩) .nil
  | ifThenElse _ _ _ ihFirst ihSecond | seq _ _ _ ihFirst ihSecond =>
      exact List.rel_append ihFirst ihSecond
  | letIn _ ih | whileDo _ ih | added _ _ ih => exact ih

theorem assigned_eq (hrebuilds : Rebuilds changed command command') :
    command'.assigned = command.assigned := by
  induction hrebuilds with
  | kept | assign => rfl
  | ifThenElse _ _ _ ihFirst ihSecond | seq _ _ _ ihFirst ihSecond =>
      simp only [Command.assigned, ihFirst, ihSecond]
  | letIn _ ih | whileDo _ ih | added _ _ ih => exact ih

end Rebuilds

/-- A block still fits its loop when the body of the loop is taken as it was before a rebuilding. -/
theorem DeclaresFound.of_rebuilds {changed : Bool} {body middle loop : Command}
    {chain : Declaration} (hbody : Rebuilds changed body middle)
    (hfound : DeclaresFound middle chain loop) : DeclaresFound body chain loop := by
  obtain ⟨found, hvalues, hchain, hloop⟩ := hfound
  rw [hbody.assigned_eq] at hchain hloop
  refine ⟨found, forall₂_comp (fun _ _ _ _ hfirst hsecond => ?_) hbody.values hvalues, hchain,
    hloop⟩
  exact hfirst.trans hsecond

/-- A block still fits its loop when what became of the loop is rebuilt. -/
theorem DeclaresFound.rebuild {changed : Bool} {body loop loop' : Command} {chain : Declaration}
    (hfound : DeclaresFound body chain loop) (hloop : Rebuilds changed loop loop') :
    DeclaresFound body chain loop' := by
  obtain ⟨found, hvalues, hchain, hreads⟩ := hfound
  refine ⟨found, hvalues, hchain, forall₂_comp (fun value _ after after' hread hkept => ?_)
    hreads hloop.values⟩
  intro hinvariant
  rcases hkept with rfl | hread'
  · exact hread hinvariant
  · exact hread'

namespace Rebuilds

/-- Rebuilding what was rebuilt is rebuilding. -/
theorem trans {first second : Bool} {before middle after : Command}
    (hfirst : Rebuilds first before middle) (hsecond : Rebuilds second middle after) :
    Rebuilds (first || second) before after := by
  induction hsecond generalizing first before with
  | kept => rwa [Bool.or_false]
  | assign =>
      rw [Bool.or_true]
      cases hfirst <;> exact .assign
  | ifThenElse hthen helse hchanged ihThen ihElse =>
      rw [Bool.or_true]
      cases hfirst with
      | kept => exact .ifThenElse hthen helse hchanged
      | ifThenElse hthen' helse' hchanged' =>
          exact .ifThenElse (ihThen hthen') (ihElse helse') (by grind)
  | seq hleft hright hchanged ihLeft ihRight =>
      rw [Bool.or_true]
      cases hfirst with
      | kept => exact .seq hleft hright hchanged
      | seq hleft' hright' hchanged' => exact .seq (ihLeft hleft') (ihRight hright') (by grind)
  | whileDo hbody ih =>
      rw [Bool.or_true]
      cases hfirst with
      | kept => exact .whileDo hbody
      | whileDo hbody' => exact .whileDo (ih hbody')
  | letIn hbody ih =>
      rw [Bool.or_true]
      cases hfirst with
      | kept => exact .letIn hbody
      | letIn hbody' => exact .letIn (ih hbody')
      -- the block was added by the first rebuilding, and the second one went on inside it
      | added hfound hloop => exact .added (hfound.rebuild hbody) (ih hloop)
  | added hfound hloop ih =>
      rw [Bool.or_true]
      cases hfirst with
      | kept => exact .added hfound hloop
      | whileDo hbody => exact .added (hfound.of_rebuilds hbody) (ih (.whileDo hbody))

/-- What is built anew when one of its two parts was replaced. -/
theorem pair {build : Command → Command → Command} {first second whole : Command}
    {first' second' : Option Command}
    (hbuild : ∀ {inFirst inSecond after after'}, Rebuilds inFirst first after →
      Rebuilds inSecond second after' → (inFirst || inSecond) = true →
      Rebuilds true whole (build after after'))
    (hfirst : Rebuilds first'.isSome first (first'.getD first))
    (hsecond : Rebuilds second'.isSome second (second'.getD second)) :
    Rebuilds (rebuildPair build first second first' second').isSome whole
      ((rebuildPair build first second first' second').getD whole) := by
  cases first' with
  | none =>
      cases second' with
      | none => exact .kept
      | some => exact hbuild hfirst hsecond rfl
  | some => cases second' <;> exact hbuild hfirst hsecond rfl

/-- What is built anew when its part was replaced. -/
theorem map {build : Command → Command} {part whole : Command} {part' : Option Command}
    (hbuild : ∀ {after}, Rebuilds true part after → Rebuilds true whole (build after))
    (hpart : Rebuilds part'.isSome part (part'.getD part)) :
    Rebuilds (part'.map build).isSome whole ((part'.map build).getD whole) := by
  cases part' with
  | none => exact .kept
  | some => exact hbuild hpart

end Rebuilds

/-- Extraction rebuilds. -/
theorem rebuilds_extracted (assigned : List String) : ∀ (command : Command) (issued : Nat),
    Rebuilds (command.extract assigned issued).replacement.isSome command
      (command.extracted assigned issued)
  | .assign target value span, issued => by
      unfold Command.extracted Command.extract
      split
      · exact .assign
      · exact .kept
  | .call .., _ | .skip _, _ => .kept
  | .ifThenElse condition thenBranch elseBranch span, issued =>
      .pair .ifThenElse (rebuilds_extracted assigned thenBranch issued)
        (rebuilds_extracted assigned elseBranch _)
  | .letIn declaration body span, issued => .map .letIn (rebuilds_extracted assigned body issued)
  | .seq first second span, issued =>
      .pair .seq (rebuilds_extracted assigned first issued) (rebuilds_extracted assigned second _)
  | .whileDo condition body span, issued => .map .whileDo (rebuilds_extracted assigned body issued)

/-- The assignments of the values that an extraction takes read constants afterwards. -/
theorem Extracts.forall₂_values {assigned : List String} {issued : Nat}
    {command command' : Command} {constants : List Constant}
    (hextract : Extracts assigned issued command command' constants) :
    List.Forall₂ (fun value after => value.isInvariant assigned = true → ∃ n, after = readOf n)
      command.values command'.values := by
  induction hextract with
  | taken => exact .cons (fun _ => ⟨_, rfl⟩) .nil
  | left hvalue =>
      refine .cons (fun hinvariant => ?_) .nil
      rw [hvalue] at hinvariant
      contradiction
  | call | skip => exact .nil
  | ifThenElse _ _ ihFirst ihSecond | seq _ _ ihFirst ihSecond =>
      exact List.rel_append ihFirst ihSecond
  | letIn _ ih | whileDo _ ih => exact ih

/-- Hoisting rebuilds.  For a loop that takes values, its extraction and the run on what that leaves
are put together. -/
theorem rebuilds_hoisted (command : Command) :
    Rebuilds command.hoist.replacement.isSome command command.hoisted := by
  match command with
  | .assign .. | .call .. | .skip _ =>
      simp only [Command.hoisted, Command.hoist_assign, Command.hoist_call, Command.hoist_skip,
        Outcome.kept, Outcome.result]
      exact .kept
  | .ifThenElse condition thenBranch elseBranch span =>
      simp only [Command.hoisted, Command.hoist_ifThenElse, Outcome.pair, Outcome.result]
      exact .pair .ifThenElse (rebuilds_hoisted thenBranch) (rebuilds_hoisted elseBranch)
  | .seq first second span =>
      simp only [Command.hoisted, Command.hoist_seq, Outcome.pair, Outcome.result]
      exact .pair .seq (rebuilds_hoisted first) (rebuilds_hoisted second)
  | .letIn declaration body span =>
      simp only [Command.hoisted, Command.hoist_letIn, Outcome.map, Outcome.result]
      exact .map .letIn (rebuilds_hoisted body)
  | .whileDo condition body span =>
      cases hchain : Declaration.chain? .dummy
          ((numbered 0 body.taken).map Constant.declaration) with
      | none =>
          have htaken := body.taken_eq_nil_of_chain?_eq_none hchain
          rw [Command.hoisted, Command.hoist_whileDo_of_taken_eq_nil htaken]
          exact .map .whileDo (rebuilds_hoisted body)
      | some chain =>
          have hextracted := rebuilds_extracted body.assigned body 0
          have hinner := rebuilds_hoisted (body.extracted body.assigned 0)
          have hsome : (body.extract body.assigned 0).replacement.isSome = true := by
            rw [Option.isSome_iff_ne_none, Ne, body.replacement_extract_eq_none_iff,
              body.constants_extract, ← List.length_eq_zero_iff, length_numbered]
            exact (Command.length_taken_pos hchain).ne'
          rw [hsome] at hextracted
          -- the loop finds the values of its body as they are
          have hfound : DeclaresFound body chain (body.extracted body.assigned 0) :=
            ⟨body.values, List.forall₂_same.mpr fun _ _ => .inl rfl, hchain,
              (extracts_extracted body.assigned body 0).forall₂_values⟩
          have hfound' := hfound.rebuild hinner
          rw [Command.hoisted, Command.hoist_whileDo_of_chain? hchain]
          exact .added hfound' (.whileDo (hextracted.trans hinner))
termination_by command.size
decreasing_by
  all_goals simp only [Command.size, Command.size_extract]
  all_goals omega

/-! ## What the comparison finds -/

namespace Rebuilds

variable {changed : Bool} {command command' : Command}

theorem eq_of_unchanged (hrebuilds : Rebuilds false command command') : command' = command := by
  cases hrebuilds
  rfl

theorem span_eq_dummy (hrebuilds : Rebuilds true command command') : command'.span = .dummy := by
  cases hrebuilds <;> rfl

end Rebuilds

/-- Whether an assignment in a command was built anew. -/
def Command.HasRebuilt (command : Command) : Prop :=
  ∃ target value, Command.assign target value .dummy ∈ command.subcommands

@[simp] theorem isAdded_self (command : Command) : isAdded (command, command) = false := by
  cases command <;> rfl

theorem Command.mem_subcommands_self (command : Command) : command ∈ command.subcommands := by
  unfold Command.subcommands
  exact List.mem_cons_self

namespace Rebuilds

variable {changed : Bool} {command command' : Command}

/-- Where anything was built anew, an assignment was. -/
theorem hasRebuilt (hrebuilds : Rebuilds changed command command') (hchanged : changed = true) :
    command'.HasRebuilt := by
  induction hrebuilds with
  | kept => contradiction
  | @assign target _ _ n => exact ⟨target, readOf n, Command.mem_subcommands_self _⟩
  | ifThenElse _ _ hparts ihFirst ihSecond | seq _ _ hparts ihFirst ihSecond =>
      rcases Bool.or_eq_true_iff.mp hparts with hfirst | hsecond
      · obtain ⟨target, value, hmem⟩ := ihFirst hfirst
        exact ⟨target, value, .tail _ (List.mem_append_left _ hmem)⟩
      · obtain ⟨target, value, hmem⟩ := ihSecond hsecond
        exact ⟨target, value, .tail _ (List.mem_append_right _ hmem)⟩
  | letIn _ ih | whileDo _ ih | added _ _ ih =>
      obtain ⟨target, value, hmem⟩ := ih rfl
      exact ⟨target, value, .tail _ hmem⟩

/-- A block that stands beside a loop declares what the loop found. -/
theorem exists_of_isAdded (hrebuilds : Rebuilds changed command command')
    (hadded : isAdded (command, command') = true) : ∃ condition body span chain loop,
      (command, command') = (.whileDo condition body span, .letIn chain loop .dummy) ∧
        DeclaresFound body chain loop := by
  cases hrebuilds with
  | added hfound => exact ⟨_, _, _, _, _, rfl, hfound⟩
  | kept => cases command <;> simp [isAdded] at hadded
  | assign | ifThenElse | letIn | seq | whileDo => simp [isAdded] at hadded

theorem head_eq (hrebuilds : Rebuilds changed command command')
    (hadded : isAdded (command, command') = false) : command'.head = command.head := by
  cases hrebuilds with
  | added => simp [isAdded] at hadded
  | kept | assign | ifThenElse | letIn | seq | whileDo => rfl

end Rebuilds

/-- A command stands beside itself all the way down. -/
theorem Command.beside_self : ∀ command : Command,
    command.beside command = command.subcommands.map fun part => (part, part)
  | .assign .. | .call .. | .skip _ => rfl
  | .ifThenElse _ first second _ | .seq first second _ => by
      simp only [Command.beside, Command.subcommands, List.map_cons, List.map_append,
        first.beside_self, second.beside_self]
  | .letIn _ body _ | .whileDo _ body _ => by
      simp only [Command.beside, Command.subcommands, List.map_cons, body.beside_self]

namespace Rebuilds

variable {changed : Bool} {command command' : Command}

/-- What stands beside each other is rebuilt the one from the other. -/
theorem of_mem_beside (hrebuilds : Rebuilds changed command command') :
    ∀ pair ∈ command.beside command', ∃ changed, Rebuilds changed pair.1 pair.2 := by
  induction hrebuilds with
  | @kept command =>
      rw [command.beside_self, List.forall_mem_map]
      exact fun _ _ => ⟨false, .kept⟩
  | assign => exact List.forall_mem_singleton.mpr ⟨true, .assign⟩
  | ifThenElse hfirst hsecond hparts ihFirst ihSecond =>
      rw [Command.beside, List.forall_mem_cons, List.forall_mem_append]
      exact ⟨⟨true, .ifThenElse hfirst hsecond hparts⟩, ihFirst, ihSecond⟩
  | seq hfirst hsecond hparts ihFirst ihSecond =>
      rw [Command.beside, List.forall_mem_cons, List.forall_mem_append]
      exact ⟨⟨true, .seq hfirst hsecond hparts⟩, ihFirst, ihSecond⟩
  | letIn hbody ih =>
      rw [Command.beside, List.forall_mem_cons]
      exact ⟨⟨true, .letIn hbody⟩, ih⟩
  | whileDo hbody ih =>
      rw [Command.beside, List.forall_mem_cons]
      exact ⟨⟨true, .whileDo hbody⟩, ih⟩
  | added hfound hloop ih =>
      rw [Command.beside, List.forall_mem_cons]
      exact ⟨⟨true, .added hfound hloop⟩, ih⟩

/-- Every command of the result stands beside one, in order. -/
theorem map_snd_beside (hrebuilds : Rebuilds changed command command') :
    (command.beside command').map Prod.snd = command'.subcommands := by
  induction hrebuilds with
  | @kept command => simp [command.beside_self, Function.comp_def]
  | assign => rfl
  | ifThenElse _ _ _ ihFirst ihSecond | seq _ _ _ ihFirst ihSecond =>
      simp only [Command.beside, Command.subcommands, List.map_cons, List.map_append, ihFirst,
        ihSecond]
  | letIn _ ih | whileDo _ ih | added _ _ ih =>
      simp only [Command.beside, Command.subcommands, List.map_cons, ih]

/-- Every command there was has one beside it, in order, added blocks aside. -/
theorem map_fst_beside (hrebuilds : Rebuilds changed command command') :
    ((command.beside command').filter (!isAdded ·)).map Prod.fst = command.subcommands := by
  induction hrebuilds with
  | @kept command =>
      have hnone : ∀ pair ∈ command.subcommands.map fun part => (part, part),
          (!isAdded pair) = true := by
        simp
      rw [command.beside_self, List.filter_eq_self.mpr hnone, List.map_map]
      exact List.map_id _
  | assign => rfl
  | ifThenElse _ _ _ ihFirst ihSecond | seq _ _ _ ihFirst ihSecond =>
      rw [Command.beside, List.filter_cons_of_pos rfl, List.filter_append, List.map_cons,
        List.map_append, ihFirst, ihSecond, Command.subcommands]
  | letIn _ ih | whileDo _ ih =>
      rw [Command.beside, List.filter_cons_of_pos rfl, List.map_cons, ih, Command.subcommands]
  | added _ _ ih => rw [Command.beside, List.filter_cons_of_neg (by simp [isAdded]), ih]

end Rebuilds

/-! ## Commands inside declarations and expressions -/

open Fragment (mem_fragments_self mem_fragments_iff mem_fragments_trans mem_fragments_assign
  mem_fragments_ifThenElse mem_fragments_letIn mem_fragments_seq mem_fragments_whileDo)

theorem Command.mem_fragments_of_mem_subcommands {part : Command} : ∀ {command : Command},
    part ∈ command.subcommands → .command part ∈ (Fragment.command command).fragments
  | .assign .., hmem | .call .., hmem | .skip _, hmem => by
      obtain rfl := List.mem_singleton.mp hmem
      exact mem_fragments_self _
  | .ifThenElse _ first second _, hmem => by
      rw [Command.subcommands, List.mem_cons, List.mem_append] at hmem
      rw [mem_fragments_ifThenElse, Fragment.command.injEq]
      exact hmem.imp_right fun hparts =>
        .inr (hparts.imp Command.mem_fragments_of_mem_subcommands
          Command.mem_fragments_of_mem_subcommands)
  | .seq first second _, hmem => by
      rw [Command.subcommands, List.mem_cons, List.mem_append] at hmem
      rw [mem_fragments_seq, Fragment.command.injEq]
      exact hmem.imp_right fun hparts =>
        hparts.imp Command.mem_fragments_of_mem_subcommands Command.mem_fragments_of_mem_subcommands
  | .letIn _ body _, hmem => by
      rw [Command.subcommands, List.mem_cons] at hmem
      rw [mem_fragments_letIn, Fragment.command.injEq]
      exact hmem.imp_right fun hbody => .inr (Command.mem_fragments_of_mem_subcommands hbody)
  | .whileDo _ body _, hmem => by
      rw [Command.subcommands, List.mem_cons] at hmem
      rw [mem_fragments_whileDo, Fragment.command.injEq]
      exact hmem.imp_right fun hbody => .inr (Command.mem_fragments_of_mem_subcommands hbody)

/-- What occurs in an assigned value occurs in the command. -/
theorem Command.mem_fragments_of_mem_values {fragment : Fragment} {value : Expression}
    (hfragment : fragment ∈ (Fragment.expression value).fragments) : ∀ {command : Command},
      value ∈ command.values → fragment ∈ (Fragment.command command).fragments
  | .assign .., hmem => by
      obtain rfl := List.mem_singleton.mp hmem
      exact mem_fragments_assign.mpr (.inr (.inr hfragment))
  | .call .., hmem | .skip _, hmem => by cases hmem
  | .ifThenElse .., hmem =>
      mem_fragments_ifThenElse.mpr (.inr (.inr ((List.mem_append.mp hmem).imp
        (Command.mem_fragments_of_mem_values hfragment)
        (Command.mem_fragments_of_mem_values hfragment))))
  | .seq .., hmem =>
      mem_fragments_seq.mpr (.inr ((List.mem_append.mp hmem).imp
        (Command.mem_fragments_of_mem_values hfragment)
        (Command.mem_fragments_of_mem_values hfragment)))
  | .letIn _ body _, hmem =>
      mem_fragments_letIn.mpr (.inr (.inr (Command.mem_fragments_of_mem_values hfragment hmem)))
  | .whileDo _ body _, hmem =>
      mem_fragments_whileDo.mpr (.inr (.inr (Command.mem_fragments_of_mem_values hfragment hmem)))

/-- No command occurs in the read of a constant. -/
theorem command_notMem_fragments_readOf (command : Command) (n : Nat) :
    .command command ∉ (Fragment.expression (readOf n)).fragments := by
  simp [Fragment.fragments_eq, readOf, Fragment.children, Expression.children, Vname.children]

/-- A command that occurs in a chain of constants occurs in one of their values. -/
theorem exists_of_mem_fragments_chain {command : Command} {constants : List Constant}
    {chain : Declaration}
    (hchain : Declaration.chain? .dummy (constants.map Constant.declaration) = some chain)
    (hmem : .command command ∈ (Fragment.declaration chain).fragments) :
    ∃ constant ∈ constants, .command command ∈ (Fragment.expression constant.value).fragments := by
  have hsingle : ∀ constant : Constant,
      .command command ∈ (Fragment.declaration constant.declaration).fragments →
        .command command ∈ (Fragment.expression constant.value).fragments := by
    intro constant hmem
    rw [mem_fragments_iff] at hmem
    simpa [Constant.declaration, Fragment.children, Declaration.children] using hmem
  revert hmem
  refine chain_induction ?_ ?_ hchain
  · intro constant hmem
    exact ⟨constant, List.mem_cons_self, hsingle constant hmem⟩
  · intro constant rest tail ih hmem
    have hparts : .command command ∈ (Fragment.declaration constant.declaration).fragments ∨
        .command command ∈ (Fragment.declaration tail).fragments := by
      rw [mem_fragments_iff] at hmem
      simpa [Fragment.children, Declaration.children] using hmem
    rcases hparts with hfirst | hrest
    · exact ⟨constant, List.mem_cons_self, hsingle constant hfirst⟩
    · obtain ⟨other, hother, hvalue⟩ := ih hrest
      exact ⟨other, .tail _ hother, hvalue⟩

theorem exists_of_mem_forall₂ {α β : Type} {R : α → β → Prop} {as : List α} {bs : List β} {b : β}
    (hforall : List.Forall₂ R as bs) (hmem : b ∈ bs) : ∃ a ∈ as, R a b := by
  induction hforall with
  | nil => cases hmem
  | cons hfirst _ ih =>
      rcases List.mem_cons.mp hmem with rfl | hmem
      · exact ⟨_, List.mem_cons_self, hfirst⟩
      · obtain ⟨a, ha, hab⟩ := ih hmem
        exact ⟨a, .tail _ ha, hab⟩

/-- A command that occurs in a block of constants occurs in the loop that it was put around. -/
theorem DeclaresFound.mem_fragments {body loop command : Command} {chain : Declaration}
    (hfound : DeclaresFound body chain loop)
    (hmem : .command command ∈ (Fragment.declaration chain).fragments) :
    .command command ∈ (Fragment.command body).fragments := by
  obtain ⟨found, hvalues, hchain, -⟩ := hfound
  obtain ⟨constant, hconstant, hvalue⟩ := exists_of_mem_fragments_chain hchain hmem
  have hconstant' : constant.value ∈ found := by
    have hmap : constant.value ∈ (numbered 0 _).map Constant.value := List.mem_map_of_mem hconstant
    rw [map_value_numbered] at hmap
    exact List.mem_of_mem_filter hmap
  obtain ⟨written, hwritten, hkept⟩ := exists_of_mem_forall₂ hvalues hconstant'
  -- a value as it was written, or a read, in which no command occurs
  rcases hkept with hsame | ⟨n, hread⟩
  · rw [hsame] at hvalue
    exact Command.mem_fragments_of_mem_values hvalue hwritten
  · rw [hread] at hvalue
    exact absurd hvalue (command_notMem_fragments_readOf command n)

namespace Rebuilds

variable {changed : Bool} {command command' part : Command}

/-- A command that occurs in the result is one of those that the result is made of, or occurred
before. -/
theorem mem_subcommands_or (hrebuilds : Rebuilds changed command command')
    (hmem : .command part ∈ (Fragment.command command').fragments) :
    part ∈ command'.subcommands ∨ .command part ∈ (Fragment.command command).fragments := by
  induction hrebuilds with
  | kept => exact .inr hmem
  | @assign target _ _ n =>
      rw [mem_fragments_assign, Fragment.command.injEq] at hmem
      rw [mem_fragments_assign, Command.subcommands, List.mem_cons]
      rcases hmem with hself | htarget | hread
      · exact .inl (.inl hself)
      · exact .inr (.inr (.inl htarget))
      · exact absurd hread (command_notMem_fragments_readOf part n)
  | ifThenElse _ _ _ ihFirst ihSecond =>
      rw [mem_fragments_ifThenElse, Fragment.command.injEq] at hmem
      rw [mem_fragments_ifThenElse, Command.subcommands, List.mem_cons, List.mem_append]
      rcases hmem with hself | hcondition | hfirst | hsecond
      · exact .inl (.inl hself)
      · exact .inr (.inr (.inl hcondition))
      · exact (ihFirst hfirst).imp (fun h => .inr (.inl h)) fun h => .inr (.inr (.inl h))
      · exact (ihSecond hsecond).imp (fun h => .inr (.inr h)) fun h => .inr (.inr (.inr h))
  | seq _ _ _ ihFirst ihSecond =>
      rw [mem_fragments_seq, Fragment.command.injEq] at hmem
      rw [mem_fragments_seq, Command.subcommands, List.mem_cons, List.mem_append]
      rcases hmem with hself | hfirst | hsecond
      · exact .inl (.inl hself)
      · exact (ihFirst hfirst).imp (fun h => .inr (.inl h)) fun h => .inr (.inl h)
      · exact (ihSecond hsecond).imp (fun h => .inr (.inr h)) fun h => .inr (.inr h)
  | letIn _ ih =>
      rw [mem_fragments_letIn, Fragment.command.injEq] at hmem
      rw [mem_fragments_letIn, Command.subcommands, List.mem_cons]
      rcases hmem with hself | hdeclaration | hbody
      · exact .inl (.inl hself)
      · exact .inr (.inr (.inl hdeclaration))
      · exact (ih hbody).imp .inr fun h => .inr (.inr h)
  | whileDo _ ih =>
      rw [mem_fragments_whileDo, Fragment.command.injEq] at hmem
      rw [mem_fragments_whileDo, Command.subcommands, List.mem_cons]
      rcases hmem with hself | hcondition | hbody
      · exact .inl (.inl hself)
      · exact .inr (.inr (.inl hcondition))
      · exact (ih hbody).imp .inr fun h => .inr (.inr h)
  | added hfound _ ih =>
      rw [mem_fragments_letIn, Fragment.command.injEq] at hmem
      rw [Command.subcommands, List.mem_cons]
      -- the constants of an added block come out of the body of the loop
      rcases hmem with hblock | hchain | hloop
      · exact .inl (.inl hblock)
      · exact .inr (mem_fragments_whileDo.mpr (.inr (.inr (hfound.mem_fragments hchain))))
      · exact (ih hloop).imp_left .inr

end Rebuilds

/-! ## Only the path to a change is rebuilt -/

/-- Every command of a program, wherever it stands, was written somewhere. -/
def Program.Written (program : Program) : Prop :=
  ∀ command, Fragment.command command ∈ program.fragments → command.span ≠ .dummy

namespace Program.Written

variable {program : Program} {command : Command}

/-- Nothing in a written program was built anew. -/
theorem not_hasRebuilt (hwritten : program.Written)
    (hmem : .command command ∈ program.fragments) : ¬ command.HasRebuilt := by
  rintro ⟨target, value, hassign⟩
  have hinside := Command.mem_fragments_of_mem_subcommands hassign
  exact hwritten _ (mem_fragments_trans hinside _ hmem) rfl

theorem span_eq_dummy_iff (hwritten : program.Written)
    (hmem : .command command ∈ program.fragments) :
    command.span = .dummy ↔ command.HasRebuilt :=
  iff_of_false (hwritten command hmem) (hwritten.not_hasRebuilt hmem)

end Program.Written

theorem rebuilds_optimise (program : Program) :
    ∃ changed, Rebuilds changed program.command program.optimise.command := by
  rw [Program.optimise_command]
  exact ⟨_, rebuilds_hoisted program.command⟩

/-- **Only the path to a change is rebuilt.**  In the hoisted form of a written program exactly
those commands carry the dummy span that have an assignment in them that carries it.

Set beside the program, block by added block, it has each of its commands in its place: what does
not carry the dummy span is the command that was written, all of it; conditions, targets, calls and
declarations are as they were written, also where the dummy span is; and an added block declares
what its loop found at its assignments, which is what was written there or the read of a
constant. -/
theorem optimise_rebuilds_paths (program : Program) (hwritten : program.Written) :
    (∀ command, Fragment.command command ∈ program.optimise.fragments →
      (command.span = .dummy ↔ command.HasRebuilt)) ∧
    (program.command.beside program.optimise.command).map Prod.snd =
      program.optimise.command.subcommands ∧
    ((program.command.beside program.optimise.command).filter (!isAdded ·)).map Prod.fst =
      program.command.subcommands ∧
    ∀ pair ∈ program.command.beside program.optimise.command,
      (pair.2.span ≠ .dummy → pair.2 = pair.1) ∧
      (isAdded pair = false → pair.2.head = pair.1.head) ∧
      (isAdded pair = true → ∃ condition body span chain loop,
        pair = (.whileDo condition body span, .letIn chain loop .dummy) ∧
          DeclaresFound body chain loop) := by
  obtain ⟨changed, hrebuilds⟩ := rebuilds_optimise program
  have hsnd := hrebuilds.map_snd_beside
  have hfst := hrebuilds.map_fst_beside
  refine ⟨fun command hmem => ?_, hsnd, hfst, fun pair hpair => ?_⟩
  · rcases hrebuilds.mem_subcommands_or hmem with hpart | hinside
    · rw [← hsnd] at hpart
      obtain ⟨⟨before, after⟩, hpair, rfl⟩ := List.mem_map.mp hpart
      obtain ⟨changed, hpart⟩ := hrebuilds.of_mem_beside _ hpair
      cases changed with
      | true => exact iff_of_true hpart.span_eq_dummy (hpart.hasRebuilt rfl)
      | false =>
          obtain rfl : after = before := hpart.eq_of_unchanged
          -- what was not rebuilt stands beside itself, so it is a command that was written
          have hbefore : after ∈ program.command.subcommands := by
            rw [← hfst]
            exact List.mem_map_of_mem (List.mem_filter.mpr ⟨hpair, by simp⟩)
          exact hwritten.span_eq_dummy_iff (Command.mem_fragments_of_mem_subcommands hbefore)
    · exact hwritten.span_eq_dummy_iff hinside
  · obtain ⟨changed, hpart⟩ := hrebuilds.of_mem_beside pair hpair
    refine ⟨fun hspan => ?_, hpart.head_eq, hpart.exists_of_isAdded⟩
    cases changed with
    | true => exact absurd hpart.span_eq_dummy hspan
    | false => exact hpart.eq_of_unchanged

open Sketch

/-- A place on the first line. -/
def spot (column : Nat) : Span := ⟨column, column, 1, column⟩

/-- A loop with one invariant value, in a block with a procedure, each command at its own place:

```
let proc p () ~ skip in
  while c do begin x := 1; if d then y := y else p() end
``` -/
def writtenLoop : Program :=
  ⟨.letIn (.proc (name "p") [] (.skip (spot 1)) .dummy)
    (.whileDo (var "c")
      (.seq (.assign (.simple (name "x") .dummy) (int "1") (spot 4))
        (.ifThenElse (var "d") (.assign (.simple (name "y") .dummy) (var "y") (spot 6))
          (.call (name "p") [] (spot 7)) (spot 5)) (spot 3)) (spot 2)) (spot 0), spot 0⟩

theorem optimise_rebuilds_paths_writtenLoop :
    writtenLoop.Written ∧
      writtenLoop.optimise.command.subcommands.map Command.span =
        [.dummy, .dummy, .dummy, .dummy, .dummy, spot 5, spot 6, spot 7] ∧
      ∀ pair ∈ writtenLoop.command.beside writtenLoop.optimise.command,
        pair.2.span ≠ .dummy → pair.2 = pair.1 := by
  have hwritten : writtenLoop.Written := by
    simp [Program.Written, Program.fragments, Fragment.fragments_eq, Fragment.children, writtenLoop,
      Command.children, Declaration.children, Expression.children, Vname.children, var, int, spot,
      Command.span, Span.dummy]
  refine ⟨hwritten, by decide +kernel, fun pair hpair => ?_⟩
  exact ((optimise_rebuilds_paths writtenLoop hwritten).2.2.2 pair hpair).1

end LoopHoist
