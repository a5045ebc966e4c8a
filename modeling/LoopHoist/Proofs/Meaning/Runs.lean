import LoopHoist.Proofs.Meaning.Conduct

/-!
# Runs of commands

`Runs I c s t` says that the command `c`, started in the store `s`, ends in the store `t`.  A block
binds its names, runs its body and gives the names back the values they had outside.  A call of a
procedure has no rule here.

The rules are what the results are stated with.  The proofs work with `Command.run`, which computes
the same stores but gives up on a loop after so many rounds: that two commands end in the
same stores, and so run forever from the same ones, is then a single equation between functions, for
every number of rounds.  `runs_iff_exists_run` ties the two together.
-/

namespace LoopHoist

universe u

variable {V : Type u}

/-- The command, started in the first store, ends in the second. -/
inductive Runs (I : Interpretation V) : Command → Store V → Store V → Prop
  | assign {target value span store} :
      Runs I (.assign target value span) store (target.assign I (value.eval I store) store)
  | skip {span store} : Runs I (.skip span) store store
  | ifTrue {condition thenBranch elseBranch span store store'}
      (htest : I.holds (condition.eval I store) = true) (hthen : Runs I thenBranch store store') :
      Runs I (.ifThenElse condition thenBranch elseBranch span) store store'
  | ifFalse {condition thenBranch elseBranch span store store'}
      (htest : I.holds (condition.eval I store) = false) (helse : Runs I elseBranch store store') :
      Runs I (.ifThenElse condition thenBranch elseBranch span) store store'
  | letIn {declaration body span store store'}
      (hbody : Runs I body (declaration.bind I store) store') :
      Runs I (.letIn declaration body span) store (Store.restore declaration.names store store')
  | seq {first second span store middle store'}
      (hfirst : Runs I first store middle) (hsecond : Runs I second middle store') :
      Runs I (.seq first second span) store store'
  | whileDone {condition body span store} (htest : I.holds (condition.eval I store) = false) :
      Runs I (.whileDo condition body span) store store
  | whileStep {condition body span store middle store'}
      (htest : I.holds (condition.eval I store) = true) (hbody : Runs I body store middle)
      (hrest : Runs I (.whileDo condition body span) middle store') :
      Runs I (.whileDo condition body span) store store'

/-! ## Runs as a conduct -/

theorem Declaration.bind_of_notMem (I : Interpretation V) {name : String} :
    ∀ (declaration : Declaration) (store : Store V), name ∉ declaration.names →
      declaration.bind I store name = store name
  | .const .., _, hname | .var .., _, hname | .proc .., _, hname | .func .., _, hname
  | .type .., _, hname => by
      simp only [Declaration.names, List.mem_singleton] at hname
      exact Function.update_of_ne hname _ _
  | .unaryOperator .., _, _ | .binaryOperator .., _, _ => rfl
  | .seq first second _, store, hname => by
      rw [Declaration.names, List.mem_append, not_or] at hname
      rw [Declaration.bind, second.bind_of_notMem I _ hname.2, first.bind_of_notMem I _ hname.1]

/-- The conduct that an interpretation describes.  It has no runs for calls of procedures. -/
def Interpretation.conduct (I : Interpretation V) : Conduct V where
  yields expression store value := expression.eval I store = value
  holds := I.holds
  around
    | .simple _ _, _, value => value
    | .dot base field _, store, value => I.setField field.spelling (base.eval I store) value
    | .subscript base index _, store, value =>
        I.setItem (base.eval I store) (index.eval I store) value
  opens declaration store inner := declaration.bind I store = inner
  opens_frame hopens hname := hopens ▸ Declaration.bind_of_notMem I _ _ hname
  calls _ _ _ _ := False

theorem Interpretation.write_conduct (I : Interpretation V) {store : Store V} :
    ∀ (target : Vname) (value : V), I.conduct.write target value store = target.assign I value store
  | .simple _ _, _ => rfl
  | .dot base _ _, _ | .subscript base _ _, _ => I.write_conduct base _

/-- What a command can do by the conduct of an interpretation are its runs. -/
theorem acts_conduct_iff {I : Interpretation V} {command : Command} {store final : Store V} :
    Acts I.conduct command store final ↔ Runs I command store final := by
  constructor
  · intro hacts
    induction hacts with
    | @assign target _ _ _ _ hvalue =>
        obtain rfl := hvalue
        rw [I.write_conduct]
        exact .assign
    | call hcall => exact hcall.elim
    | skip => exact .skip
    | ifTrue hvalue htest _ ih =>
        obtain rfl := hvalue
        exact .ifTrue htest ih
    | ifFalse hvalue htest _ ih =>
        obtain rfl := hvalue
        exact .ifFalse htest ih
    | letIn hopens _ ih =>
        obtain rfl := hopens
        exact .letIn ih
    | seq _ _ ihFirst ihSecond => exact .seq ihFirst ihSecond
    | whileDone hvalue htest =>
        obtain rfl := hvalue
        exact .whileDone htest
    | whileStep hvalue htest _ _ ihBody ihRest =>
        obtain rfl := hvalue
        exact .whileStep htest ihBody ihRest
  · intro hruns
    induction hruns with
    | @assign target value _ store =>
        rw [← I.write_conduct]
        exact .assign rfl
    | skip => exact .skip
    | ifTrue htest _ ih => exact .ifTrue rfl htest ih
    | ifFalse htest _ ih => exact .ifFalse rfl htest ih
    | letIn _ ih => exact .letIn rfl ih
    | seq _ _ ihFirst ihSecond => exact .seq ihFirst ihSecond
    | whileDone htest => exact .whileDone rfl htest
    | whileStep htest _ _ ihBody ihRest => exact .whileStep rfl htest ihBody ihRest

/-- A command ends in at most one store. -/
theorem Runs.deterministic {I : Interpretation V} {command : Command} {store final final' : Store V}
    (hruns : Runs I command store final) (hruns' : Runs I command store final') :
    final = final' := by
  -- every part of an interpretation is a function of the store, and there are no calls
  have hconduct : I.conduct.Deterministic :=
    ⟨fun hvalue hvalue' => hvalue.symm.trans hvalue', fun hopens hopens' => hopens.symm.trans hopens',
      fun hcall _ => hcall.elim⟩
  exact (acts_conduct_iff.mpr hruns).deterministic hconduct (acts_conduct_iff.mpr hruns')

/-! ## Running with a bound on the rounds of loops -/

/-- Takes steps for as long as the test holds, but fewer than the given number. -/
def iterate {S : Type u} (test : S → Bool) (step : S → Option S) : Nat → S → Option S
  | 0, _ => none
  | rounds + 1, state =>
      if test state then (step state).bind (iterate test step rounds) else some state

/-- The store in which a command ends, if no loop in it is tested more than `rounds` times. -/
def Command.run (I : Interpretation V) (rounds : Nat) : Command → Store V → Option (Store V)
  | .assign target value _, store => some (target.assign I (value.eval I store) store)
  | .call .., _ => none
  | .skip _, store => some store
  | .ifThenElse condition thenBranch elseBranch _, store =>
      if I.holds (condition.eval I store) then thenBranch.run I rounds store
      else elseBranch.run I rounds store
  | .letIn declaration body _, store =>
      (body.run I rounds (declaration.bind I store)).map (Store.restore declaration.names store)
  | .seq first second _, store => (first.run I rounds store).bind (second.run I rounds)
  | .whileDo condition body _, store =>
      iterate (fun state => I.holds (condition.eval I state)) (body.run I rounds) rounds store

/-! ### More rounds change nothing that ended -/

theorem iterate_mono {S : Type u} {test : S → Bool} {step step' : S → Option S}
    (hstep : ∀ state next, step state = some next → step' state = some next) {rounds : Nat} :
    ∀ {rounds' : Nat} {state final : S}, rounds ≤ rounds' →
      iterate test step rounds state = some final →
      iterate test step' rounds' state = some final := by
  induction rounds with
  | zero => intro _ _ _ _ hfinal; simp [iterate] at hfinal
  | succ rounds ih =>
      intro rounds' state final hrounds hfinal
      obtain ⟨more, rfl⟩ : ∃ more, rounds' = more + 1 := ⟨rounds' - 1, by omega⟩
      unfold iterate at hfinal ⊢
      split at hfinal
      · rename_i htest
        obtain ⟨next, hnext, hrest⟩ := Option.bind_eq_some_iff.mp hfinal
        rw [if_pos htest, hstep state next hnext, Option.bind_some]
        exact ih (by omega) hrest
      · rename_i htest
        rw [if_neg htest]
        exact hfinal

theorem Command.run_mono (I : Interpretation V) {rounds rounds' : Nat}
    (hrounds : rounds ≤ rounds') :
    ∀ (command : Command) {store final : Store V}, command.run I rounds store = some final →
      command.run I rounds' store = some final
  | .assign .., _, _, hfinal | .skip _, _, _, hfinal => hfinal
  | .call .., _, _, hfinal => by simp [Command.run] at hfinal
  | .ifThenElse condition thenBranch elseBranch _, store, final, hfinal => by
      unfold Command.run at hfinal ⊢
      split at hfinal
      · rename_i htest
        rw [if_pos htest]
        exact thenBranch.run_mono I hrounds hfinal
      · rename_i htest
        rw [if_neg htest]
        exact elseBranch.run_mono I hrounds hfinal
  | .letIn declaration body _, store, final, hfinal => by
      unfold Command.run at hfinal ⊢
      obtain ⟨inner, hinner, rfl⟩ := Option.map_eq_some_iff.mp hfinal
      rw [body.run_mono I hrounds hinner, Option.map_some]
  | .seq first second _, store, final, hfinal => by
      unfold Command.run at hfinal ⊢
      obtain ⟨middle, hmiddle, hrest⟩ := Option.bind_eq_some_iff.mp hfinal
      rw [first.run_mono I hrounds hmiddle, Option.bind_some]
      exact second.run_mono I hrounds hrest
  | .whileDo _ body _, _, _, hfinal =>
      iterate_mono (fun _ _ hstep => body.run_mono I hrounds hstep) hrounds hfinal

/-! ### The bounded run finds exactly the runs -/

theorem runs_of_run (I : Interpretation V) {rounds : Nat} :
    ∀ {command : Command} {store final : Store V}, command.run I rounds store = some final →
      Runs I command store final
  | .assign .., _, _, hfinal => by
      obtain rfl := Option.some.inj hfinal
      exact .assign
  | .skip _, _, _, hfinal => by
      obtain rfl := Option.some.inj hfinal
      exact .skip
  | .call .., _, _, hfinal => by simp [Command.run] at hfinal
  | .ifThenElse condition thenBranch elseBranch _, store, final, hfinal => by
      unfold Command.run at hfinal
      split at hfinal
      · rename_i htest
        exact .ifTrue htest (runs_of_run I hfinal)
      · rename_i htest
        exact .ifFalse (by simpa using htest) (runs_of_run I hfinal)
  | .letIn declaration body _, store, final, hfinal => by
      unfold Command.run at hfinal
      obtain ⟨inner, hinner, rfl⟩ := Option.map_eq_some_iff.mp hfinal
      exact .letIn (runs_of_run I hinner)
  | .seq first second _, store, final, hfinal => by
      unfold Command.run at hfinal
      obtain ⟨middle, hmiddle, hrest⟩ := Option.bind_eq_some_iff.mp hfinal
      exact .seq (runs_of_run I hmiddle) (runs_of_run I hrest)
  | .whileDo condition body span, store, final, hfinal => by
      unfold Command.run at hfinal
      -- the rounds that are left for the loop, while its body keeps the full number
      have hloop : ∀ left store, iterate (fun state => I.holds (condition.eval I state))
          (body.run I rounds) left store = some final →
            Runs I (.whileDo condition body span) store final := by
        intro left
        induction left with
        | zero => intro store hfinal; simp [iterate] at hfinal
        | succ left ih =>
            intro store hfinal
            unfold iterate at hfinal
            split at hfinal
            · rename_i htest
              obtain ⟨middle, hmiddle, hrest⟩ := Option.bind_eq_some_iff.mp hfinal
              exact .whileStep htest (runs_of_run I hmiddle) (ih middle hrest)
            · rename_i htest
              obtain rfl := Option.some.inj hfinal
              exact .whileDone (by simpa using htest)
      exact hloop rounds store hfinal

theorem exists_run_of_runs {I : Interpretation V} {command : Command} {store final : Store V}
    (hruns : Runs I command store final) : ∃ rounds, command.run I rounds store = some final := by
  induction hruns with
  | assign | skip => exact ⟨0, rfl⟩
  | ifTrue htest _ ih =>
      obtain ⟨rounds, hrun⟩ := ih
      exact ⟨rounds, by rw [Command.run, if_pos htest, hrun]⟩
  | ifFalse htest _ ih =>
      obtain ⟨rounds, hrun⟩ := ih
      exact ⟨rounds, by rw [Command.run, if_neg (by simp [htest]), hrun]⟩
  | letIn _ ih =>
      obtain ⟨rounds, hrun⟩ := ih
      exact ⟨rounds, by rw [Command.run, hrun, Option.map_some]⟩
  | seq _ _ ihFirst ihSecond =>
      -- the larger of the two bounds is enough for both
      obtain ⟨rounds, hfirst⟩ := ihFirst
      obtain ⟨rounds', hsecond⟩ := ihSecond
      refine ⟨max rounds rounds', ?_⟩
      rw [Command.run, Command.run_mono I (Nat.le_max_left ..) _ hfirst, Option.bind_some,
        Command.run_mono I (Nat.le_max_right ..) _ hsecond]
  | whileDone htest => exact ⟨1, by simp [Command.run, iterate, htest]⟩
  | @whileStep condition body span store middle store' htest _ _ ihBody ihRest =>
      obtain ⟨rounds, hbody⟩ := ihBody
      obtain ⟨rounds', hrest⟩ := ihRest
      -- one round for the first step, and enough for whichever part needs more
      have hfirst : rounds ≤ max rounds rounds' + 1 := by omega
      have hmore : rounds' ≤ max rounds rounds' + 1 := by omega
      have hbody := body.run_mono I hfirst hbody
      have hrest := iterate_mono (fun _ _ hstep => body.run_mono I hmore hstep)
        (Nat.le_max_right rounds rounds') hrest
      refine ⟨max rounds rounds' + 1, ?_⟩
      simp only [Command.run, iterate, htest, if_true, hbody, Option.bind_some, hrest]

theorem runs_iff_exists_run {I : Interpretation V} {command : Command} {store final : Store V} :
    Runs I command store final ↔ ∃ rounds, command.run I rounds store = some final :=
  ⟨exists_run_of_runs, fun ⟨_, hrun⟩ => runs_of_run I hrun⟩

/-- A bounded run that ends with some value in a variable is a run that does. -/
theorem exists_runs_of_run {I : Interpretation V} {command : Command} (rounds : Nat)
    {store : Store V} {name : String} {value : V}
    (hrun : (command.run I rounds store).map (fun final => final name) = some value) :
    ∃ final, Runs I command store final ∧ final name = value := by
  obtain ⟨final, hfinal, hvalue⟩ := Option.map_eq_some_iff.mp hrun
  exact ⟨final, runs_of_run I hfinal, hvalue⟩

/-- Commands whose bounded runs agree for every number of rounds have the same runs. -/
theorem runs_congr {I : Interpretation V} {command command' : Command}
    (hrun : ∀ rounds store, command.run I rounds store = command'.run I rounds store)
    {store final : Store V} : Runs I command store final ↔ Runs I command' store final := by
  simp only [runs_iff_exists_run, hrun]

/-! ## What loops keep and what commands leave alone -/

/-- Two loops go in step when, from states that satisfy an invariant, the second does on the image
of a state what the first does on the state. -/
theorem iterate_map {S : Type u} {test test' : S → Bool} {step step' : S → Option S} (image : S → S)
    (holds : S → Prop) (htest : ∀ state, holds state → test' (image state) = test state)
    (hstep : ∀ state, holds state → step' (image state) = (step state).map image)
    (hholds : ∀ state next, holds state → step state = some next → holds next) :
    ∀ (rounds : Nat) (state : S), holds state →
      iterate test' step' rounds (image state) = (iterate test step rounds state).map image := by
  intro rounds
  induction rounds with
  | zero => intro state _; rfl
  | succ rounds ih =>
      intro state hstate
      unfold iterate
      rw [htest state hstate, hstep state hstate]
      split
      · -- a step that fails, fails in both loops; otherwise the invariant holds after it
        cases hnext : step state with
        | none => rfl
        | some next =>
            simp only [Option.map_some, Option.bind_some]
            exact ih next (hholds state next hstate hnext)
      · rfl

/-- A command leaves every variable alone that it does not assign. -/
theorem Command.run_frame (I : Interpretation V) {rounds : Nat} {name : String} (command : Command)
    {store final : Store V} (hfinal : command.run I rounds store = some final)
    (hname : name ∉ command.assigned) : final name = store name := by
  have hacts := acts_conduct_iff.mpr (runs_of_run I hfinal)
  exact hacts.frame (.inr fun _ _ _ _ hcall => hcall.elim) hname

end LoopHoist
