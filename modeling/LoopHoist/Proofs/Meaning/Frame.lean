import LoopHoist.Proofs.Hoisting.Scope
import LoopHoist.Proofs.Sketch

/-!
# What a command can change

`Command.assigned` is all that hoisting knows of the effect of a loop body.  This file says what
the list is worth: a command without calls changes no variable outside it, whatever its
expressions, places and declarations mean, and it can change every variable of the list that none of
its blocks declares.

The first half is `Acts.frame`.  It holds for every conduct, and the runs of `Interpretation` are
among these (`acts_conduct_iff`).  For the second half one conduct has to be found, and the most
permissive one will do.
-/

namespace LoopHoist

open Sketch

universe u

/-! ## Everything on the list can change

In the conduct `anything` every expression can have every value.  So a command without calls can
take any path, leave any loop at any time, and assign what it likes. -/

/-- The conduct in which conditions and assigned values are up to choice. -/
def Conduct.anything : Conduct Bool where
  yields _ _ _ := True
  holds := id
  around _ _ value := value
  opens _ store inner := inner = store
  opens_frame hopens _ := congrFun hopens _
  calls _ _ _ _ := False

/-- Any value can be chosen for an expression. -/
theorem Conduct.yields_anything {expression : Expression} {store : Store Bool} (value : Bool) :
    Conduct.anything.yields expression store value :=
  trivial

theorem Conduct.write_anything {store : Store Bool} :
    ∀ (target : Vname) (value : Bool),
      Conduct.anything.write target value store target.base.spelling = value
  | .simple _ _, _ => Function.update_self ..
  | .dot base _ _, value | .subscript base _ _, value => Conduct.write_anything base value

/-- A command without calls can be run to its end. -/
theorem Command.exists_acts : ∀ (command : Command), command.isCallFree = true →
    ∀ store : Store Bool, ∃ final, Acts .anything command store final
  | .assign .., _, _ => ⟨_, .assign (Conduct.yields_anything true)⟩
  | .skip _, store, _ => ⟨_, .skip⟩
  | .call .., hfree, _ => by simp [Command.isCallFree] at hfree
  | .ifThenElse _ thenBranch _ _, hfree, store => by
      rw [Command.isCallFree, Bool.and_eq_true] at hfree
      obtain ⟨final, hthen⟩ := thenBranch.exists_acts hfree.1 store
      exact ⟨final, .ifTrue (Conduct.yields_anything true) rfl hthen⟩
  | .letIn _ body _, hfree, store => by
      obtain ⟨final, hbody⟩ := body.exists_acts hfree store
      exact ⟨_, .letIn rfl hbody⟩
  | .seq first second _, hfree, store => by
      rw [Command.isCallFree, Bool.and_eq_true] at hfree
      obtain ⟨middle, hfirst⟩ := first.exists_acts hfree.1 store
      obtain ⟨final, hsecond⟩ := second.exists_acts hfree.2 middle
      exact ⟨final, .seq hfirst hsecond⟩
  | .whileDo .., _, store => ⟨store, .whileDone (Conduct.yields_anything false) rfl⟩

/-- A command without calls can end with any value in a variable that it assigns and none of its
blocks declares. -/
theorem Command.exists_acts_eq {name : String} (value : Bool) :
    ∀ (command : Command), command.isCallFree = true → name ∈ command.assigned →
      name ∉ command.declared → ∀ store : Store Bool,
        ∃ final, Acts .anything command store final ∧ final name = value
  | .assign target _ _, _, hname, _, store => by
      rw [Command.assigned, List.mem_singleton] at hname
      subst hname
      exact ⟨_, .assign (Conduct.yields_anything value), Conduct.write_anything target value⟩
  | .skip _, _, hname, _, _ | .call .., _, hname, _, _ => by simp [Command.assigned] at hname
  | .ifThenElse _ thenBranch elseBranch _, hfree, hname, hdeclared, store => by
      rw [Command.isCallFree, Bool.and_eq_true] at hfree
      rw [Command.declared, List.mem_append, not_or] at hdeclared
      rw [Command.assigned, List.mem_append] at hname
      rcases hname with hname | hname
      · obtain ⟨final, hacts, hfinal⟩ :=
          thenBranch.exists_acts_eq value hfree.1 hname hdeclared.1 store
        exact ⟨final, .ifTrue (Conduct.yields_anything true) rfl hacts, hfinal⟩
      · obtain ⟨final, hacts, hfinal⟩ :=
          elseBranch.exists_acts_eq value hfree.2 hname hdeclared.2 store
        exact ⟨final, .ifFalse (Conduct.yields_anything false) rfl hacts, hfinal⟩
  | .letIn declaration body _, hfree, hname, hdeclared, store => by
      rw [Command.declared, List.mem_append, not_or] at hdeclared
      obtain ⟨final, hacts, hfinal⟩ := body.exists_acts_eq value hfree hname hdeclared.2 store
      refine ⟨_, .letIn rfl hacts, ?_⟩
      rw [Store.restore, if_neg hdeclared.1, hfinal]
  | .seq first second _, hfree, hname, hdeclared, store => by
      rw [Command.isCallFree, Bool.and_eq_true] at hfree
      rw [Command.declared, List.mem_append, not_or] at hdeclared
      rw [Command.assigned, List.mem_append] at hname
      -- the second command has the last word if it assigns the variable
      by_cases hlast : name ∈ second.assigned
      · obtain ⟨middle, hfirst⟩ := first.exists_acts hfree.1 store
        obtain ⟨final, hsecond, hfinal⟩ :=
          second.exists_acts_eq value hfree.2 hlast hdeclared.2 middle
        exact ⟨final, .seq hfirst hsecond, hfinal⟩
      · obtain ⟨middle, hfirst, hmiddle⟩ :=
          first.exists_acts_eq value hfree.1 (hname.resolve_right hlast) hdeclared.1 store
        obtain ⟨final, hsecond⟩ := second.exists_acts hfree.2 middle
        exact ⟨final, .seq hfirst hsecond, (hsecond.frame (.inl hfree.2) hlast).trans hmiddle⟩
  | .whileDo condition body span, hfree, hname, hdeclared, store => by
      -- one round is enough
      obtain ⟨final, hacts, hfinal⟩ := body.exists_acts_eq value hfree hname hdeclared store
      have hdone : Acts .anything (.whileDo condition body span) final final :=
        .whileDone (Conduct.yields_anything false) rfl
      exact ⟨final, .whileStep (Conduct.yields_anything true) rfl hacts hdone, hfinal⟩

/-- **What a command can change.**  A run of a command without calls leaves every variable alone
that the command does not assign, and a variable that it does assign, and that is not declared in
it, can change. -/
theorem Command.changes_assigned (command : Command) (hfree : command.isCallFree = true)
    (name : String) :
    (name ∉ command.assigned → ∀ {V : Type u} (K : Conduct V) {store final : Store V},
      Acts K command store final → final name = store name) ∧
    (name ∈ command.assigned → name ∉ command.declared → ∀ store : Store Bool,
      ∃ final, Acts .anything command store final ∧ final name ≠ store name) := by
  constructor
  · intro hname V K store final hacts
    exact hacts.frame (.inl hfree) hname
  · intro hname hdeclared store
    obtain ⟨final, hacts, hfinal⟩ :=
      command.exists_acts_eq (!store name) hfree hname hdeclared store
    exact ⟨final, hacts, by simp [hfinal]⟩

/-- `while x do let const t ~ x - 1 in begin a[t].f := b; x := t end`. -/
def countdown : Command :=
  let item : Vname := .subscript (.simple (name "a") .dummy) (var "t") .dummy
  loop (var "x") [block [const "t" (binary (var "x") "-" (int "1"))]
    (.seqAll .dummy [.assign (.dot item (name "f") .dummy) (var "b") .dummy, assign "x" (var "t")])]

/-- The constant has its outer value again when the countdown ends, and the array can change. -/
theorem changes_assigned_countdown :
    (∃ final, Acts Interpretation.arithmetic.conduct countdown (fun _ => 7) final ∧
      final "x" = 0 ∧ final "t" = 7) ∧
    ∃ final, Acts .anything countdown (fun _ => true) final ∧ final "a" ≠ true := by
  constructor
  · obtain ⟨final, hruns, hfinal⟩ : ∃ final,
        Runs .arithmetic countdown (fun _ => 7) final ∧ final "x" = 0 :=
      exists_runs_of_run 8 (by decide +kernel)
    have hacts := acts_conduct_iff.mpr hruns
    exact ⟨final, hacts, hfinal,
      (Command.changes_assigned countdown rfl "t").1 (by decide) _ hacts⟩
  · exact (Command.changes_assigned.{0} countdown rfl "a").2 (by decide) (by decide) _

end LoopHoist
