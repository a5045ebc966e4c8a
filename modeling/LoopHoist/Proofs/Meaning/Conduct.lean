import LoopHoist.Proofs.Meaning.Store

/-!
# How commands run, whatever their parts mean

A `Conduct` says how expressions, declarations and procedures behave and leaves all of it open that
can be left open: an expression may have any values in a store but no effect, a block may start in
any store that differs in the names it declares only, an assignment to a field or an element updates
the place around it in any way, and so on outwards to a variable, and procedures do anything.
`Acts K c s t` says that by the conduct `K` the command `c`, started in the store `s`, can end in the
store `t`.

Two laws hold for every conduct, and are inherited by every semantics that has one:

* `Acts.frame`: a run changes no variable that the command does not assign, calls apart;
* `Acts.deterministic`: where expressions, declarations and calls leave nothing to choice, there is
  at most one store to end in.
-/

namespace LoopHoist

universe u

variable {V : Type u}

/-- The store after a block: the names it declared have their values from outside again. -/
def Store.restore (names : List String) (outer inner : Store V) : Store V := fun name =>
  if name ∈ names then outer name else inner name

/-- How the parts of commands behave. -/
structure Conduct (V : Type u) where
  /-- The values that an expression can have in a store. -/
  yields : Expression → Store V → V → Prop
  /-- Whether a value, as a condition, is true. -/
  holds : V → Bool
  /-- What the place around a field or an element holds after that was given a value. -/
  around : Vname → Store V → V → V
  /-- The stores in which the body of a block can start. -/
  opens : Declaration → Store V → Store V → Prop
  /-- A declaration leaves the names alone that it does not declare. -/
  opens_frame {declaration : Declaration} {store inner : Store V} {name : String} :
    opens declaration store inner → name ∉ declaration.names → inner name = store name
  /-- What a procedure can do. -/
  calls : Identifier → List ActualParameter → Store V → Store V → Prop

/-- The store after a place was given a value, which goes outwards through the places around it. -/
def Conduct.write (K : Conduct V) : Vname → V → Store V → Store V
  | .simple name _, value, store => Function.update store name.spelling value
  | .dot base field span, value, store =>
      K.write base (K.around (.dot base field span) store value) store
  | .subscript base index span, value, store =>
      K.write base (K.around (.subscript base index span) store value) store

/-- The command, started in the first store, can end in the second. -/
inductive Acts (K : Conduct V) : Command → Store V → Store V → Prop
  | assign {target value span store result} (hvalue : K.yields value store result) :
      Acts K (.assign target value span) store (K.write target result store)
  | call {procedure arguments span store store'}
      (hcall : K.calls procedure arguments store store') :
      Acts K (.call procedure arguments span) store store'
  | skip {span store} : Acts K (.skip span) store store
  | ifTrue {condition thenBranch elseBranch span store test store'}
      (hvalue : K.yields condition store test) (htest : K.holds test = true)
      (hthen : Acts K thenBranch store store') :
      Acts K (.ifThenElse condition thenBranch elseBranch span) store store'
  | ifFalse {condition thenBranch elseBranch span store test store'}
      (hvalue : K.yields condition store test) (htest : K.holds test = false)
      (helse : Acts K elseBranch store store') :
      Acts K (.ifThenElse condition thenBranch elseBranch span) store store'
  | letIn {declaration body span store inner store'} (hopens : K.opens declaration store inner)
      (hbody : Acts K body inner store') :
      Acts K (.letIn declaration body span) store (Store.restore declaration.names store store')
  | seq {first second span store middle store'}
      (hfirst : Acts K first store middle) (hsecond : Acts K second middle store') :
      Acts K (.seq first second span) store store'
  | whileDone {condition body span store test}
      (hvalue : K.yields condition store test) (htest : K.holds test = false) :
      Acts K (.whileDo condition body span) store store
  | whileStep {condition body span store test middle store'}
      (hvalue : K.yields condition store test) (htest : K.holds test = true)
      (hbody : Acts K body store middle)
      (hrest : Acts K (.whileDo condition body span) middle store') :
      Acts K (.whileDo condition body span) store store'

/-! ## Nothing else changes -/

/-- Whether no command in a command is a call. -/
def Command.isCallFree : Command → Bool
  | .assign .. | .skip _ => true
  | .call .. => false
  | .ifThenElse _ thenBranch elseBranch _ => thenBranch.isCallFree && elseBranch.isCallFree
  | .letIn _ body _ | .whileDo _ body _ => body.isCallFree
  | .seq first second _ => first.isCallFree && second.isCallFree

/-- No procedure changes the variable. -/
def Conduct.CallsKeep (K : Conduct V) (name : String) : Prop :=
  ∀ ⦃procedure arguments store store'⦄, K.calls procedure arguments store store' →
    store' name = store name

/-- However deep in a variable a place is, giving it a value changes that variable only. -/
theorem Conduct.write_of_ne (K : Conduct V) {name : String} {store : Store V} :
    ∀ (target : Vname) (value : V), name ≠ target.base.spelling →
      K.write target value store name = store name
  | .simple _ _, _, hname => Function.update_of_ne hname _ _
  | .dot base _ _, _, hname => K.write_of_ne base _ hname
  | .subscript base _ _, _, hname => K.write_of_ne base _ hname

/-- A variable that the body of a block leaves alone has its old value after the block, whether or
not the block declares it. -/
theorem Conduct.restore_frame {K : Conduct V} {declaration : Declaration}
    {store inner final : Store V} {name : String} (hopens : K.opens declaration store inner)
    (hbody : final name = inner name) :
    Store.restore declaration.names store final name = store name := by
  unfold Store.restore
  by_cases hdeclared : name ∈ declaration.names
  · rw [if_pos hdeclared]
  · rw [if_neg hdeclared, hbody, K.opens_frame hopens hdeclared]

/-- A run leaves every variable alone that the command does not assign, provided that calls leave it
alone or that there are none. -/
theorem Acts.frame {K : Conduct V} {command : Command} {store final : Store V} {name : String}
    (hacts : Acts K command store final)
    (hcalls : command.isCallFree = true ∨ K.CallsKeep name)
    (hname : name ∉ command.assigned) : final name = store name := by
  induction hacts with
  | @assign target _ _ _ result _ =>
      rw [Command.assigned, List.mem_singleton] at hname
      exact K.write_of_ne target result hname
  | call hcall =>
      rcases hcalls with hfree | hkeep
      · simp [Command.isCallFree] at hfree
      · exact hkeep hcall
  | skip => rfl
  | ifTrue _ _ _ ih =>
      rw [Command.isCallFree, Bool.and_eq_true] at hcalls
      rw [Command.assigned, List.mem_append, not_or] at hname
      exact ih (hcalls.imp_left And.left) hname.1
  | ifFalse _ _ _ ih =>
      rw [Command.isCallFree, Bool.and_eq_true] at hcalls
      rw [Command.assigned, List.mem_append, not_or] at hname
      exact ih (hcalls.imp_left And.right) hname.2
  | letIn hopens _ ih =>
      -- the block may give the name a value of its own, but that ends with the block
      exact Conduct.restore_frame hopens (ih hcalls hname)
  | @seq _ _ _ store middle final _ _ ihFirst ihSecond =>
      rw [Command.isCallFree, Bool.and_eq_true] at hcalls
      rw [Command.assigned, List.mem_append, not_or] at hname
      calc final name = middle name := ihSecond (hcalls.imp_left And.right) hname.2
        _ = store name := ihFirst (hcalls.imp_left And.left) hname.1
  | whileDone => rfl
  | @whileStep _ _ _ store _ middle final _ _ _ _ ihBody ihRest =>
      -- the rest of the loop is the same command, so it assigns the same variables
      calc final name = middle name := ihRest hcalls hname
        _ = store name := ihBody hcalls hname

/-! ## Nothing is left to choice -/

/-- Expressions, declarations and calls have at most one result in a store. -/
structure Conduct.Deterministic (K : Conduct V) : Prop where
  yields {expression : Expression} {store : Store V} {value value' : V} :
    K.yields expression store value → K.yields expression store value' → value = value'
  opens {declaration : Declaration} {store inner inner' : Store V} :
    K.opens declaration store inner → K.opens declaration store inner' → inner = inner'
  calls {procedure : Identifier} {arguments : List ActualParameter} {store final final' : Store V} :
    K.calls procedure arguments store final → K.calls procedure arguments store final' →
      final = final'

/-- A condition is not both true and false. -/
theorem Conduct.Deterministic.false_of_tests {K : Conduct V} (hK : K.Deterministic)
    {condition : Expression} {store : Store V} {test test' : V}
    (hvalue : K.yields condition store test) (htest : K.holds test = true)
    (hvalue' : K.yields condition store test') (htest' : K.holds test' = false) : False := by
  obtain rfl := hK.yields hvalue hvalue'
  rw [htest] at htest'
  contradiction

/-- A command ends in at most one store. -/
theorem Acts.deterministic {K : Conduct V} (hK : K.Deterministic) {command : Command}
    {store final final' : Store V} (hacts : Acts K command store final)
    (hacts' : Acts K command store final') : final = final' := by
  -- the second run has to take the rule that the first one took: where two rules compete, they ask
  -- for different outcomes of one test
  induction hacts generalizing final' with
  | assign hvalue =>
      cases hacts' with
      | assign hvalue' => rw [hK.yields hvalue hvalue']
  | call hcall =>
      cases hacts' with
      | call hcall' => exact hK.calls hcall hcall'
  | skip => cases hacts'; rfl
  | ifTrue hvalue htest _ ih =>
      cases hacts' with
      | ifTrue _ _ hthen => exact ih hthen
      | ifFalse hvalue' htest' _ => exact (hK.false_of_tests hvalue htest hvalue' htest').elim
  | ifFalse hvalue htest _ ih =>
      cases hacts' with
      | ifTrue hvalue' htest' _ => exact (hK.false_of_tests hvalue' htest' hvalue htest).elim
      | ifFalse _ _ helse => exact ih helse
  | letIn hopens _ ih =>
      cases hacts' with
      | letIn hopens' hbody =>
          obtain rfl := hK.opens hopens hopens'
          rw [ih hbody]
  | seq _ _ ihFirst ihSecond =>
      cases hacts' with
      | seq hfirst hsecond =>
          obtain rfl := ihFirst hfirst
          exact ihSecond hsecond
  | whileDone hvalue htest =>
      cases hacts' with
      | whileDone => rfl
      | whileStep hvalue' htest' _ _ =>
          exact (hK.false_of_tests hvalue' htest' hvalue htest).elim
  | whileStep hvalue htest _ _ ihBody ihRest =>
      cases hacts' with
      | whileDone hvalue' htest' => exact (hK.false_of_tests hvalue htest hvalue' htest').elim
      | whileStep _ _ hbody hrest =>
          obtain rfl := ihBody hbody
          exact ihRest hrest

end LoopHoist
