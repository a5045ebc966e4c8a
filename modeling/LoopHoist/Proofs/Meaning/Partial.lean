import LoopHoist.Proofs.Meaning.Conduct

/-!
# Runs that can fail

The operators of `Interpretation` are total.  Here operators, fields and elements are partial: a
`PartialInterpretation` says where they are defined, and a run that applies one of them anywhere
else fails.  `Completes I c s t` says that the command `c`, started in the store `s`, ends in the
store `t` without having failed.

Only what the results about failures need has a meaning: commands without calls over expressions
without calls and blocks, and blocks of constants around commands.

## Total and partial

`Expression.value?_congr` is the fact hoisting rests on: whether an expression without calls and
blocks is defined, and what its value is, depends on the variables it reads only.  A total
interpretation is a partial one that is defined everywhere (`Interpretation.toPartial`), so the same
holds of the values that it gives (`Expression.eval_congr`).

Completed runs have a conduct (`Completes.acts`).  So they end in one store and leave alone what the
command does not assign, as all commands do that act by a conduct.
-/

namespace LoopHoist

universe u

/-- The meaning of what program text leaves open, where operators, fields and elements need not be
defined. -/
structure PartialInterpretation (V : Type u) where
  /-- The value of the empty expression. -/
  nothing : V
  integer : String → V
  character : String → V
  unary : String → V → Option V
  binary : String → V → V → Option V
  /-- Whether a value, as a condition, is true. -/
  holds : V → Bool
  /-- Selecting a field of a record. -/
  field : String → V → Option V
  /-- A record with one field replaced. -/
  setField : String → V → V → Option V
  /-- Selecting an element of an array. -/
  item : V → V → Option V
  /-- An array with one element replaced. -/
  setItem : V → V → V → Option V
  array : List V → V
  record : List (String × V) → V

variable {V : Type u}

/-! ## Values -/

mutual

/-- The value kept at a place, if there is such a place. -/
def Vname.value? (I : PartialInterpretation V) : Vname → Store V → Option V
  | .simple name _, store => some (store name.spelling)
  | .dot base field _, store => (base.value? I store).bind (I.field field.spelling)
  | .subscript base index _, store =>
      (base.value? I store).bind fun array => (index.value? I store).bind (I.item array)

/-- The value of an expression, if everything in it that is evaluated is defined. -/
def Expression.value? (I : PartialInterpretation V) : Expression → Store V → Option V
  | .empty _, _ => some I.nothing
  | .integer literal _, _ => some (I.integer literal.spelling)
  | .character literal _, _ => some (I.character literal.spelling)
  | .read vname _, store => vname.value? I store
  | .unary operator operand _, store =>
      (operand.value? I store).bind (I.unary operator.spelling)
  | .binary operator left right _, store =>
      (left.value? I store).bind fun value =>
        (right.value? I store).bind (I.binary operator.spelling value)
  | .ifThenElse condition thenBranch elseBranch _, store =>
      (condition.value? I store).bind fun test =>
        if I.holds test then thenBranch.value? I store else elseBranch.value? I store
  | .letIn .., _ | .call .., _ => none
  | .array elements _, store => (Expression.valueAll? I elements store).map I.array
  | .record fields _, store => (Expression.valueFields? I fields store).map I.record

/-- The values of a list of expressions, if all of them have one. -/
def Expression.valueAll? (I : PartialInterpretation V) :
    List Expression → Store V → Option (List V)
  | [], _ => some []
  | element :: rest, store =>
      (element.value? I store).bind fun value =>
        (Expression.valueAll? I rest store).map (value :: ·)

/-- The values of the fields of a record, if all of them have one. -/
def Expression.valueFields? (I : PartialInterpretation V) :
    List (Identifier × Expression) → Store V → Option (List (String × V))
  | [], _ => some []
  | (name, field) :: rest, store =>
      (field.value? I store).bind fun value =>
        (Expression.valueFields? I rest store).map ((name.spelling, value) :: ·)

end

/-- What the variable of a place holds after the place was given a value, if there is such a place.
-/
def Vname.put? (I : PartialInterpretation V) : Vname → Store V → V → Option V
  | .simple _ _, _, value => some value
  | .dot base field _, store, value =>
      (base.value? I store).bind fun record =>
        (I.setField field.spelling record value).bind (base.put? I store)
  | .subscript base index _, store, value =>
      (base.value? I store).bind fun array => (index.value? I store).bind fun position =>
        (I.setItem array position value).bind (base.put? I store)

/-- The store inside a block of constants, if their values are defined. -/
def Declaration.bind? (I : PartialInterpretation V) : Declaration → Store V → Option (Store V)
  | .const name value _, store =>
      (value.value? I store).map (Function.update store name.spelling)
  | .seq first second _, store => (first.bind? I store).bind (second.bind? I)
  | .var .., _ | .proc .., _ | .func .., _ | .type .., _ | .unaryOperator .., _
  | .binaryOperator .., _ => none

section

variable (I : PartialInterpretation V) {store store' : Store V}

mutual

theorem Vname.value?_congr : ∀ {vname : Vname}, vname.isPlain = true →
    (∀ name ∈ vname.free, store name = store' name) →
    vname.value? I store = vname.value? I store'
  | .simple name _, _, hstore => congrArg some (hstore name.spelling (by simp [Vname.free]))
  | .dot base field _, hplain, hstore => by
      have hbase : base.value? I store = base.value? I store' := Vname.value?_congr hplain hstore
      simp only [Vname.value?, hbase]
  | .subscript base index _, hplain, hstore => by
      simp only [Vname.isPlain, Bool.and_eq_true] at hplain
      simp only [Vname.free, List.forall_mem_append] at hstore
      have hbase := Vname.value?_congr hplain.1 hstore.1
      have hindex := Expression.value?_congr hplain.2 hstore.2
      simp only [Vname.value?, hbase, hindex]

/-- Whether an expression without calls and blocks is defined, and what its value is, depends on the
variables it reads only. -/
theorem Expression.value?_congr : ∀ {expression : Expression}, expression.isPlain = true →
    (∀ name ∈ expression.free, store name = store' name) →
    expression.value? I store = expression.value? I store'
  | .empty _, _, _ | .integer .., _, _ | .character .., _, _ => rfl
  | .read vname _, hplain, hstore => by
      have hvname : vname.value? I store = vname.value? I store' :=
        Vname.value?_congr hplain hstore
      simp only [Expression.value?, hvname]
  | .unary _ operand _, hplain, hstore => by
      have hoperand : operand.value? I store = operand.value? I store' :=
        Expression.value?_congr hplain hstore
      simp only [Expression.value?, hoperand]
  | .binary _ left right _, hplain, hstore => by
      simp only [Expression.isPlain, Bool.and_eq_true] at hplain
      simp only [Expression.free, List.forall_mem_append] at hstore
      have hleft := Expression.value?_congr hplain.1 hstore.1
      have hright := Expression.value?_congr hplain.2 hstore.2
      simp only [Expression.value?, hleft, hright]
  | .ifThenElse condition thenBranch elseBranch _, hplain, hstore => by
      simp only [Expression.isPlain, Bool.and_eq_true] at hplain
      simp only [Expression.free, List.forall_mem_append] at hstore
      have hcondition := Expression.value?_congr hplain.1.1 hstore.1.1
      have hthen := Expression.value?_congr hplain.1.2 hstore.1.2
      have helse := Expression.value?_congr hplain.2 hstore.2
      simp only [Expression.value?, hcondition, hthen, helse]
  | .letIn .., hplain, _ | .call .., hplain, _ => by simp [Expression.isPlain] at hplain
  | .array elements _, hplain, hstore => by
      have helements : Expression.valueAll? I elements store =
          Expression.valueAll? I elements store' := Expression.valueAll?_congr hplain hstore
      simp only [Expression.value?, helements]
  | .record fields _, hplain, hstore => by
      have hfields : Expression.valueFields? I fields store =
          Expression.valueFields? I fields store' := Expression.valueFields?_congr hplain hstore
      simp only [Expression.value?, hfields]

theorem Expression.valueAll?_congr : ∀ {elements : List Expression},
    Expression.isPlainAll elements = true →
    (∀ name ∈ Expression.freeAll elements, store name = store' name) →
    Expression.valueAll? I elements store = Expression.valueAll? I elements store'
  | [], _, _ => rfl
  | element :: rest, hplain, hstore => by
      simp only [Expression.isPlainAll, Bool.and_eq_true] at hplain
      simp only [Expression.freeAll, List.forall_mem_append] at hstore
      have helement := Expression.value?_congr hplain.1 hstore.1
      have hrest := Expression.valueAll?_congr hplain.2 hstore.2
      simp only [Expression.valueAll?, helement, hrest]

theorem Expression.valueFields?_congr : ∀ {fields : List (Identifier × Expression)},
    Expression.isPlainFields fields = true →
    (∀ name ∈ Expression.freeFields fields, store name = store' name) →
    Expression.valueFields? I fields store = Expression.valueFields? I fields store'
  | [], _, _ => rfl
  | (_, value) :: rest, hplain, hstore => by
      simp only [Expression.isPlainFields, Bool.and_eq_true] at hplain
      simp only [Expression.freeFields, List.forall_mem_append] at hstore
      have hvalue := Expression.value?_congr hplain.1 hstore.1
      have hrest := Expression.valueFields?_congr hplain.2 hstore.2
      simp only [Expression.valueFields?, hvalue, hrest]

end

/-- What an assignment to a place stores depends on the variables the place reads only. -/
theorem Vname.put?_congr : ∀ (target : Vname), target.isPlain = true →
    (∀ name ∈ target.free, store name = store' name) →
    target.put? I store = target.put? I store'
  | .simple .., _, _ => rfl
  | .dot base _ _, hplain, hstore => by
      have hbase : base.value? I store = base.value? I store' := Vname.value?_congr I hplain hstore
      have hput : base.put? I store = base.put? I store' := base.put?_congr hplain hstore
      funext value
      simp only [Vname.put?, hbase, hput]
  | .subscript base _ _, hplain, hstore => by
      simp only [Vname.isPlain, Bool.and_eq_true] at hplain
      simp only [Vname.free, List.forall_mem_append] at hstore
      have hbase := Vname.value?_congr I hplain.1 hstore.1
      have hindex := Expression.value?_congr I hplain.2 hstore.2
      have hput := base.put?_congr hplain.1 hstore.1
      funext value
      simp only [Vname.put?, hbase, hindex, hput]

end

/-! ## Total interpretations -/

/-- An interpretation as a partial one that is defined everywhere. -/
def Interpretation.toPartial (I : Interpretation V) : PartialInterpretation V where
  nothing := I.nothing
  integer := I.integer
  character := I.character
  unary operator operand := some (I.unary operator operand)
  binary operator left right := some (I.binary operator left right)
  holds := I.holds
  field name record := some (I.field name record)
  setField name record value := some (I.setField name record value)
  item array index := some (I.item array index)
  setItem array index value := some (I.setItem array index value)
  array := I.array
  record := I.record

section

variable (I : Interpretation V) {store store' : Store V}

mutual

theorem Vname.value?_toPartial : ∀ {vname : Vname}, vname.isPlain = true →
    vname.value? I.toPartial store = some (vname.eval I store)
  | .simple .., _ => rfl
  | .dot base _ _, hplain => by
      have hbase : base.value? I.toPartial store = some (base.eval I store) :=
        Vname.value?_toPartial hplain
      rw [Vname.value?, hbase]
      rfl
  | .subscript base index _, hplain => by
      rw [Vname.isPlain, Bool.and_eq_true] at hplain
      rw [Vname.value?, Vname.value?_toPartial hplain.1, Expression.value?_toPartial hplain.2]
      rfl

/-- Where everything is defined, so is the value of every expression without calls and blocks. -/
theorem Expression.value?_toPartial : ∀ {expression : Expression}, expression.isPlain = true →
    expression.value? I.toPartial store = some (expression.eval I store)
  | .empty _, _ | .integer .., _ | .character .., _ => rfl
  | .read _ _, hplain => Vname.value?_toPartial hplain
  | .unary _ operand _, hplain => by
      have hoperand : operand.value? I.toPartial store = some (operand.eval I store) :=
        Expression.value?_toPartial hplain
      rw [Expression.value?, hoperand]
      rfl
  | .binary .., hplain => by
      rw [Expression.isPlain, Bool.and_eq_true] at hplain
      rw [Expression.value?, Expression.value?_toPartial hplain.1,
        Expression.value?_toPartial hplain.2]
      rfl
  | .ifThenElse .., hplain => by
      rw [Expression.isPlain, Bool.and_eq_true, Bool.and_eq_true] at hplain
      rw [Expression.value?, Expression.value?_toPartial hplain.1.1,
        Expression.value?_toPartial hplain.1.2, Expression.value?_toPartial hplain.2,
        Option.bind_some, Expression.eval, ← apply_ite some]
      rfl
  | .letIn .., hplain | .call .., hplain => by simp [Expression.isPlain] at hplain
  | .array elements _, hplain => by
      have helements : Expression.valueAll? I.toPartial elements store =
          some (Expression.evalAll I elements store) := Expression.valueAll?_toPartial hplain
      rw [Expression.value?, helements]
      rfl
  | .record fields _, hplain => by
      have hfields : Expression.valueFields? I.toPartial fields store =
          some (Expression.evalFields I fields store) := Expression.valueFields?_toPartial hplain
      rw [Expression.value?, hfields]
      rfl

theorem Expression.valueAll?_toPartial : ∀ {elements : List Expression},
    Expression.isPlainAll elements = true →
    Expression.valueAll? I.toPartial elements store = some (Expression.evalAll I elements store)
  | [], _ => rfl
  | _ :: _, hplain => by
      rw [Expression.isPlainAll, Bool.and_eq_true] at hplain
      rw [Expression.valueAll?, Expression.value?_toPartial hplain.1,
        Expression.valueAll?_toPartial hplain.2]
      rfl

theorem Expression.valueFields?_toPartial : ∀ {fields : List (Identifier × Expression)},
    Expression.isPlainFields fields = true →
    Expression.valueFields? I.toPartial fields store =
      some (Expression.evalFields I fields store)
  | [], _ => rfl
  | (_, _) :: _, hplain => by
      rw [Expression.isPlainFields, Bool.and_eq_true] at hplain
      rw [Expression.valueFields?, Expression.value?_toPartial hplain.1,
        Expression.valueFields?_toPartial hplain.2]
      rfl

end

theorem Vname.put?_toPartial : ∀ {target : Vname} (value : V), target.isPlain = true →
    target.put? I.toPartial store value = some (target.put I store value)
  | .simple .., _, _ => rfl
  | .dot base _ _, value, hplain => by
      have hbase : base.value? I.toPartial store = some (base.eval I store) :=
        Vname.value?_toPartial I hplain
      rw [Vname.put?, hbase]
      exact Vname.put?_toPartial _ hplain
  | .subscript .., value, hplain => by
      rw [Vname.isPlain, Bool.and_eq_true] at hplain
      rw [Vname.put?, Vname.value?_toPartial I hplain.1, Expression.value?_toPartial I hplain.2]
      exact Vname.put?_toPartial _ hplain.1

/-- The value of an expression without calls and blocks depends on the variables it reads only. -/
theorem Expression.eval_congr {expression : Expression} (hplain : expression.isPlain = true)
    (hstore : ∀ name ∈ expression.free, store name = store' name) :
    expression.eval I store = expression.eval I store' := by
  -- the law for what can fail, where nothing does
  have hvalue := Expression.value?_congr I.toPartial hplain hstore
  rw [Expression.value?_toPartial I hplain, Expression.value?_toPartial I hplain] at hvalue
  exact Option.some.inj hvalue

/-- What an assignment to a place stores depends on the variables the place reads only. -/
theorem Vname.put_congr (target : Vname) (value : V) (hplain : target.isPlain = true)
    (hstore : ∀ name ∈ target.free, store name = store' name) :
    target.put I store value = target.put I store' value := by
  have hput := congrFun (target.put?_congr I.toPartial hplain hstore) value
  rw [Vname.put?_toPartial I value hplain, Vname.put?_toPartial I value hplain] at hput
  exact Option.some.inj hput

end

/-! ## Completed runs -/

/-- The command, started in the first store, ends in the second, and nothing that is evaluated on
the way is undefined. -/
inductive Completes (I : PartialInterpretation V) : Command → Store V → Store V → Prop
  | assign {target value span store result stored} (hvalue : value.value? I store = some result)
      (hput : target.put? I store result = some stored) :
      Completes I (.assign target value span) store
        (Function.update store target.base.spelling stored)
  | skip {span store} : Completes I (.skip span) store store
  | ifTrue {condition thenBranch elseBranch span test store store'}
      (hcondition : condition.value? I store = some test) (htest : I.holds test = true)
      (hthen : Completes I thenBranch store store') :
      Completes I (.ifThenElse condition thenBranch elseBranch span) store store'
  | ifFalse {condition thenBranch elseBranch span test store store'}
      (hcondition : condition.value? I store = some test) (htest : I.holds test = false)
      (helse : Completes I elseBranch store store') :
      Completes I (.ifThenElse condition thenBranch elseBranch span) store store'
  | letIn {declaration body span store inner store'}
      (hbind : declaration.bind? I store = some inner) (hbody : Completes I body inner store') :
      Completes I (.letIn declaration body span) store
        (Store.restore declaration.names store store')
  | seq {first second span store middle store'}
      (hfirst : Completes I first store middle) (hsecond : Completes I second middle store') :
      Completes I (.seq first second span) store store'
  | whileDone {condition body span test store}
      (hcondition : condition.value? I store = some test) (htest : I.holds test = false) :
      Completes I (.whileDo condition body span) store store
  | whileStep {condition body span test store middle store'}
      (hcondition : condition.value? I store = some test) (htest : I.holds test = true)
      (hbody : Completes I body store middle)
      (hrest : Completes I (.whileDo condition body span) middle store') :
      Completes I (.whileDo condition body span) store store'

section

variable {I : PartialInterpretation V} {store final : Store V}

theorem completes_assign_iff {target : Vname} {value : Expression} {span : Span} :
    Completes I (.assign target value span) store final ↔
      ∃ result stored, value.value? I store = some result ∧
        target.put? I store result = some stored ∧
        final = Function.update store target.base.spelling stored := by
  constructor
  · intro hcompletes
    cases hcompletes with
    | assign hvalue hput => exact ⟨_, _, hvalue, hput, rfl⟩
  · rintro ⟨result, stored, hvalue, hput, rfl⟩
    exact .assign hvalue hput

theorem completes_skip_iff {span : Span} :
    Completes I (.skip span) store final ↔ final = store := by
  constructor
  · intro hcompletes
    cases hcompletes with
    | skip => rfl
  · rintro rfl
    exact .skip

theorem completes_ifThenElse_iff {condition : Expression} {thenBranch elseBranch : Command}
    {span : Span} :
    Completes I (.ifThenElse condition thenBranch elseBranch span) store final ↔
      ∃ test, condition.value? I store = some test ∧
        Completes I (if I.holds test then thenBranch else elseBranch) store final := by
  constructor
  · intro hcompletes
    cases hcompletes with
    | ifTrue hcondition htest hthen => exact ⟨_, hcondition, by rwa [if_pos htest]⟩
    | ifFalse hcondition htest helse => exact ⟨_, hcondition, by rwa [if_neg (by simp [htest])]⟩
  · rintro ⟨test, hcondition, hbranch⟩
    split at hbranch
    · rename_i htest
      exact .ifTrue hcondition htest hbranch
    · rename_i htest
      exact .ifFalse hcondition (by simpa using htest) hbranch

theorem completes_letIn_iff {declaration : Declaration} {body : Command} {span : Span} :
    Completes I (.letIn declaration body span) store final ↔
      ∃ inner ending, declaration.bind? I store = some inner ∧ Completes I body inner ending ∧
        final = Store.restore declaration.names store ending := by
  constructor
  · intro hcompletes
    cases hcompletes with
    | letIn hbind hbody => exact ⟨_, _, hbind, hbody, rfl⟩
  · rintro ⟨inner, ending, hbind, hbody, rfl⟩
    exact .letIn hbind hbody

theorem completes_seq_iff {first second : Command} {span : Span} :
    Completes I (.seq first second span) store final ↔
      ∃ middle, Completes I first store middle ∧ Completes I second middle final := by
  constructor
  · intro hcompletes
    cases hcompletes with
    | seq hfirst hsecond => exact ⟨_, hfirst, hsecond⟩
  · rintro ⟨middle, hfirst, hsecond⟩
    exact .seq hfirst hsecond

end

theorem Declaration.bind?_of_notMem {I : PartialInterpretation V} {name : String} :
    ∀ (declaration : Declaration) {store inner : Store V},
      declaration.bind? I store = some inner → name ∉ declaration.names → inner name = store name
  | .const .., store, inner, hbind, hname => by
      obtain ⟨value, -, rfl⟩ := Option.map_eq_some_iff.mp hbind
      simp only [Declaration.names, List.mem_singleton] at hname
      exact Function.update_of_ne hname _ _
  | .var .., _, _, hbind, _ | .proc .., _, _, hbind, _ | .func .., _, _, hbind, _
  | .type .., _, _, hbind, _ | .unaryOperator .., _, _, hbind, _
  | .binaryOperator .., _, _, hbind, _ => by simp [Declaration.bind?] at hbind
  | .seq first second _, store, inner, hbind, hname => by
      obtain ⟨middle, hfirst, hsecond⟩ := Option.bind_eq_some_iff.mp hbind
      rw [Declaration.names, List.mem_append, not_or] at hname
      rw [second.bind?_of_notMem hsecond hname.2, first.bind?_of_notMem hfirst hname.1]

/-- The conduct of what can fail.  Where a place is undefined the conduct goes on with the value that
was to be put there; a completed run never comes to that. -/
def PartialInterpretation.conduct (I : PartialInterpretation V) : Conduct V where
  yields expression store value := expression.value? I store = some value
  holds := I.holds
  around
    | .simple _ _, _, value => value
    | .dot base field _, store, value =>
        ((base.value? I store).bind fun record =>
          I.setField field.spelling record value).getD value
    | .subscript base index _, store, value =>
        ((base.value? I store).bind fun array => (index.value? I store).bind fun position =>
          I.setItem array position value).getD value
  opens declaration store inner := declaration.bind? I store = some inner
  opens_frame hopens hname := Declaration.bind?_of_notMem _ hopens hname
  calls _ _ _ _ := False

theorem PartialInterpretation.write_conduct (I : PartialInterpretation V) {store : Store V} :
    ∀ {target : Vname} {value stored : V}, target.put? I store value = some stored →
      I.conduct.write target value store = Function.update store target.base.spelling stored
  | .simple _ _, _, _, hput => by
      obtain rfl := Option.some.inj hput
      rfl
  | .dot base field span, value, _, hput => by
      obtain ⟨record, hrecord, hput⟩ := Option.bind_eq_some_iff.mp hput
      obtain ⟨record', hset, hput⟩ := Option.bind_eq_some_iff.mp hput
      have haround : I.conduct.around (.dot base field span) store value = record' := by
        simp [PartialInterpretation.conduct, hrecord, hset]
      rw [Conduct.write, haround]
      exact I.write_conduct hput
  | .subscript base index span, value, _, hput => by
      obtain ⟨array, harray, hput⟩ := Option.bind_eq_some_iff.mp hput
      obtain ⟨position, hposition, hput⟩ := Option.bind_eq_some_iff.mp hput
      obtain ⟨array', hset, hput⟩ := Option.bind_eq_some_iff.mp hput
      have haround : I.conduct.around (.subscript base index span) store value = array' := by
        simp [PartialInterpretation.conduct, harray, hposition, hset]
      rw [Conduct.write, haround]
      exact I.write_conduct hput

/-- Completed runs follow the conduct. -/
theorem Completes.acts {I : PartialInterpretation V} {command : Command} {store final : Store V}
    (hcompletes : Completes I command store final) : Acts I.conduct command store final := by
  induction hcompletes with
  | assign hvalue hput =>
      -- the place is defined, so the conduct stores there what the run stores
      rw [← I.write_conduct hput]
      exact .assign hvalue
  | skip => exact .skip
  | ifTrue hcondition htest _ ih => exact .ifTrue hcondition htest ih
  | ifFalse hcondition htest _ ih => exact .ifFalse hcondition htest ih
  | letIn hbind _ ih => exact .letIn hbind ih
  | seq _ _ ihFirst ihSecond => exact .seq ihFirst ihSecond
  | whileDone hcondition htest => exact .whileDone hcondition htest
  | whileStep hcondition htest _ _ ihBody ihRest => exact .whileStep hcondition htest ihBody ihRest

/-- A command completes in at most one store. -/
theorem Completes.deterministic {I : PartialInterpretation V} {command : Command}
    {store final final' : Store V} (hcompletes : Completes I command store final)
    (hcompletes' : Completes I command store final') : final = final' := by
  -- values and openings are given by functions, and calls are never completed
  have hconduct : I.conduct.Deterministic :=
    ⟨fun hvalue hvalue' => Option.some.inj (hvalue.symm.trans hvalue'),
      fun hopens hopens' => Option.some.inj (hopens.symm.trans hopens'), fun hcall _ => hcall.elim⟩
  exact hcompletes.acts.deterministic hconduct hcompletes'.acts

/-- A completed run leaves every variable alone that the command does not assign. -/
theorem Completes.frame {I : PartialInterpretation V} {command : Command} {store final : Store V}
    {name : String} (hcompletes : Completes I command store final)
    (hname : name ∉ command.assigned) : final name = store name :=
  hcompletes.acts.frame (.inr fun _ _ _ _ hcall => hcall.elim) hname

/-! ## Loops that go in step -/

/-- Two loops complete together when, from stores that satisfy an invariant, the second does on the
image of a store what the first does on the store. -/
theorem completes_whileDo_iff {I : PartialInterpretation V} {condition : Expression}
    {body body' : Command} {span span' : Span} (image : Store V → Store V)
    (holds : Store V → Prop)
    (hcondition : ∀ store, holds store →
      condition.value? I (image store) = condition.value? I store)
    (hbody : ∀ store ending, holds store →
      (Completes I body' (image store) ending ↔
        ∃ final, Completes I body store final ∧ ending = image final))
    (hholds : ∀ store final, holds store → Completes I body store final → holds final)
    {store ending : Store V} (hstore : holds store) :
    Completes I (.whileDo condition body' span') (image store) ending ↔
      ∃ final, Completes I (.whileDo condition body span) store final ∧ ending = image final := by
  constructor
  · intro hcompletes
    -- induction on the rounds of the second loop, each brought back to the first one
    generalize hloop : Command.whileDo condition body' span' = loop at hcompletes
    generalize hstart : image store = start at hcompletes
    induction hcompletes generalizing store with
    | assign | skip | ifTrue | ifFalse | letIn | seq => simp at hloop
    | whileDone htested htest =>
        obtain ⟨rfl, rfl, rfl⟩ := Command.whileDo.inj hloop
        subst hstart
        rw [hcondition store hstore] at htested
        exact ⟨store, .whileDone htested htest, rfl⟩
    | whileStep htested htest hround _ _ ih =>
        obtain ⟨rfl, rfl, rfl⟩ := Command.whileDo.inj hloop
        subst hstart
        rw [hcondition store hstore] at htested
        -- the round ends in an image again, so the rounds that are left can go on from it
        obtain ⟨middle, hmiddle, rfl⟩ := (hbody store _ hstore).mp hround
        obtain ⟨final, hfinal, rfl⟩ := ih (hholds store middle hstore hmiddle) rfl rfl
        exact ⟨final, .whileStep htested htest hmiddle hfinal, rfl⟩
  · rintro ⟨final, hcompletes, rfl⟩
    generalize hloop : Command.whileDo condition body span = loop at hcompletes
    induction hcompletes with
    | assign | skip | ifTrue | ifFalse | letIn | seq => simp at hloop
    | whileDone htested htest =>
        obtain ⟨rfl, rfl, rfl⟩ := Command.whileDo.inj hloop
        rw [← hcondition _ hstore] at htested
        exact .whileDone htested htest
    | whileStep htested htest hround _ _ ih =>
        obtain ⟨rfl, rfl, rfl⟩ := Command.whileDo.inj hloop
        rw [← hcondition _ hstore] at htested
        have hround' := (hbody _ _ hstore).mpr ⟨_, hround, rfl⟩
        exact .whileStep htested htest hround' (ih (hholds _ _ hstore hround) rfl)

/-! ## Integers -/

/-- Integers as in `Interpretation.arithmetic`, with a division that is undefined for zero. -/
def PartialInterpretation.arithmetic : PartialInterpretation Int :=
  { Interpretation.arithmetic.toPartial with
    binary := fun operator left right =>
      if operator = "/" then if right = 0 then none else some (left.tdiv right)
      else some (Interpretation.arithmetic.binary operator left right) }

end LoopHoist
