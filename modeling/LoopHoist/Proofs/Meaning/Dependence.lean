import LoopHoist.Proofs.Fragments
import LoopHoist.Proofs.Hoisting.Takings
import LoopHoist.Proofs.Meaning.Store
import LoopHoist.Proofs.Sketch
import Mathlib.Logic.Encodable.Basic
import Mathlib.Data.Nat.Pairing
import Mathlib.Logic.Equiv.List

/-!
# What the value of an expression depends on

Whether a value may leave a loop is decided by the variables it is said to read, `Expression.free`.
Of a block these are the variables of the body alone.  That would do if blocks were never pure, but
a read is pure whatever its indices are, and a block in an index can declare a constant whose value
reads a variable that is read nowhere else.

`Expression.needs` are the variables that the value does depend on.  They are found backwards
through declarations: a constant needs the variables of its value if it is needed itself.
`determinedByFree_of_needs` says that an expression is determined by the variables it is said to
read if these include all that it needs, and that for expressions without conditionals this is the
weakest such condition.
-/

namespace LoopHoist

universe u

/-! ## Needed variables -/

mutual

/-- The variables that the value at a place depends on. -/
def Vname.needs : Vname → List String
  | .simple name _ => [name.spelling]
  | .dot base _ _ => base.needs
  | .subscript base index _ => base.needs ++ index.needs

/-- The variables that the value of an expression depends on. -/
def Expression.needs : Expression → List String
  | .empty _ | .integer .. | .character .. => []
  | .read vname _ => vname.needs
  | .unary _ operand _ => operand.needs
  | .binary _ left right _ => left.needs ++ right.needs
  | .ifThenElse condition thenBranch elseBranch _ =>
      condition.needs ++ thenBranch.needs ++ elseBranch.needs
  | .letIn declaration body _ => declaration.needs body.needs
  | .call _ arguments _ => ActualParameter.needsAll arguments
  | .array elements _ => Expression.needsAll elements
  | .record fields _ => Expression.needsFields fields

/-- The variables that the values of a list of expressions depend on. -/
def Expression.needsAll : List Expression → List String
  | [] => []
  | element :: rest => element.needs ++ Expression.needsAll rest

/-- The variables that the values of the fields of a record depend on. -/
def Expression.needsFields : List (Identifier × Expression) → List String
  | [] => []
  | (_, value) :: rest => value.needs ++ Expression.needsFields rest

/-- The variables that the value handed over for an argument depends on. -/
def ActualParameter.needs : ActualParameter → List String
  | .const value => value.needs
  | .var vname => vname.needs
  | .proc _ | .func _ => []

/-- The variables that the values handed over at a call depend on. -/
def ActualParameter.needsAll : List ActualParameter → List String
  | [] => []
  | argument :: rest => argument.needs ++ ActualParameter.needsAll rest

/-- The variables that are needed before a declaration if the given ones are needed after it. -/
def Declaration.needs : Declaration → List String → List String
  | .const name value _, after =>
      after.filter (· ≠ name.spelling) ++ if name.spelling ∈ after then value.needs else []
  | .var name _ _, after | .proc name _ _ _, after | .func name _ _ _ _, after
  | .type name _ _, after => after.filter (· ≠ name.spelling)
  | .unaryOperator .., after | .binaryOperator .., after => after
  | .seq first second _, after => first.needs (second.needs after)

end

/-- What is declared is the same in all stores, constants apart. -/
def Interpretation.Static {V : Type u} (I : Interpretation V) : Prop :=
  ∀ (declaration : Declaration) (store store' : Store V),
    I.declared declaration store = I.declared declaration store'

/-! ## Nothing else matters -/

section

variable {V : Type u} {I : Interpretation V} {store store' : Store V}

theorem update_congr {name : String} {after : List String} {value value' : V}
    (hstore : ∀ other ∈ after.filter (· ≠ name), store other = store' other)
    (hvalue : name ∈ after → value = value') :
    ∀ other ∈ after,
      Function.update store name value other = Function.update store' name value' other := by
  intro other hother
  by_cases hname : other = name
  · subst hname
    simpa using hvalue hother
  · have hagree := hstore other (List.mem_filter.mpr ⟨hother, by simpa using hname⟩)
    simpa [Function.update_of_ne hname] using hagree

mutual

theorem Vname.eval_congr_needs (hI : I.Static) : ∀ (vname : Vname) {store store' : Store V},
    (∀ name ∈ vname.needs, store name = store' name) → vname.eval I store = vname.eval I store'
  | .simple name _, _, _, hstore => hstore name.spelling (by simp [Vname.needs])
  | .dot base field _, _, _, hstore => by
      have hbase := base.eval_congr_needs hI hstore
      simp only [Vname.eval, hbase]
  | .subscript base index _, _, _, hstore => by
      obtain ⟨hbase, hindex⟩ := List.forall_mem_append.mp hstore
      simp only [Vname.eval, base.eval_congr_needs hI hbase, index.eval_congr_needs hI hindex]

theorem Expression.eval_congr_needs (hI : I.Static) :
    ∀ (expression : Expression) {store store' : Store V},
      (∀ name ∈ expression.needs, store name = store' name) →
      expression.eval I store = expression.eval I store'
  | .empty _, _, _, _ | .integer .., _, _, _ | .character .., _, _, _ => rfl
  | .read vname _, _, _, hstore => vname.eval_congr_needs hI hstore
  | .unary _ operand _, _, _, hstore => by
      have hoperand := operand.eval_congr_needs hI hstore
      simp only [Expression.eval, hoperand]
  | .binary _ left right _, _, _, hstore => by
      obtain ⟨hleft, hright⟩ := List.forall_mem_append.mp hstore
      simp only [Expression.eval, left.eval_congr_needs hI hleft, right.eval_congr_needs hI hright]
  | .ifThenElse condition thenBranch elseBranch _, _, _, hstore => by
      obtain ⟨hrest, helse⟩ := List.forall_mem_append.mp hstore
      obtain ⟨hcondition, hthen⟩ := List.forall_mem_append.mp hrest
      simp only [Expression.eval, condition.eval_congr_needs hI hcondition,
        thenBranch.eval_congr_needs hI hthen, elseBranch.eval_congr_needs hI helse]
  | .letIn declaration body _, _, _, hstore =>
      body.eval_congr_needs hI (declaration.bind_congr_needs hI hstore)
  | .call function arguments _, _, _, hstore => by
      have harguments := ActualParameter.evalAll_congr_needs hI arguments hstore
      simp only [Expression.eval, harguments]
  | .array elements _, _, _, hstore => by
      have helements := Expression.evalAll_congr_needs hI elements hstore
      simp only [Expression.eval, helements]
  | .record fields _, _, _, hstore => by
      have hfields := Expression.evalFields_congr_needs hI fields hstore
      simp only [Expression.eval, hfields]

theorem Expression.evalAll_congr_needs (hI : I.Static) :
    ∀ (elements : List Expression) {store store' : Store V},
      (∀ name ∈ Expression.needsAll elements, store name = store' name) →
      Expression.evalAll I elements store = Expression.evalAll I elements store'
  | [], _, _, _ => rfl
  | element :: rest, _, _, hstore => by
      obtain ⟨helement, hrest⟩ := List.forall_mem_append.mp hstore
      simp only [Expression.evalAll, element.eval_congr_needs hI helement,
        Expression.evalAll_congr_needs hI rest hrest]

theorem Expression.evalFields_congr_needs (hI : I.Static) :
    ∀ (fields : List (Identifier × Expression)) {store store' : Store V},
      (∀ name ∈ Expression.needsFields fields, store name = store' name) →
      Expression.evalFields I fields store = Expression.evalFields I fields store'
  | [], _, _, _ => rfl
  | (_, value) :: rest, _, _, hstore => by
      obtain ⟨hvalue, hrest⟩ := List.forall_mem_append.mp hstore
      simp only [Expression.evalFields, value.eval_congr_needs hI hvalue,
        Expression.evalFields_congr_needs hI rest hrest]

theorem ActualParameter.eval_congr_needs (hI : I.Static) :
    ∀ (argument : ActualParameter) {store store' : Store V},
      (∀ name ∈ argument.needs, store name = store' name) →
      argument.eval I store = argument.eval I store'
  | .const value, _, _, hstore => value.eval_congr_needs hI hstore
  | .var vname, _, _, hstore => vname.eval_congr_needs hI hstore
  | .proc _, _, _, _ | .func _, _, _, _ => rfl

theorem ActualParameter.evalAll_congr_needs (hI : I.Static) :
    ∀ (arguments : List ActualParameter) {store store' : Store V},
      (∀ name ∈ ActualParameter.needsAll arguments, store name = store' name) →
      ActualParameter.evalAll I arguments store = ActualParameter.evalAll I arguments store'
  | [], _, _, _ => rfl
  | argument :: rest, _, _, hstore => by
      obtain ⟨hargument, hrest⟩ := List.forall_mem_append.mp hstore
      simp only [ActualParameter.evalAll, argument.eval_congr_needs hI hargument,
        ActualParameter.evalAll_congr_needs hI rest hrest]

/-- Stores that agree on what a declaration needs for some names agree on these names after it. -/
theorem Declaration.bind_congr_needs (hI : I.Static) :
    ∀ (declaration : Declaration) {after : List String} {store store' : Store V},
      (∀ name ∈ declaration.needs after, store name = store' name) →
      ∀ name ∈ after, declaration.bind I store name = declaration.bind I store' name
  | .const name value _, after, _, _, hstore => by
      obtain ⟨hrest, hvalue⟩ := List.forall_mem_append.mp hstore
      refine update_congr hrest fun hname => value.eval_congr_needs hI ?_
      -- the value of the constant is only needed where its name is
      rwa [if_pos hname] at hvalue
  | .var .., _, _, _, hstore | .proc .., _, _, _, hstore | .func .., _, _, _, hstore
  | .type .., _, _, _, hstore => update_congr hstore fun _ => hI _ _ _
  | .unaryOperator .., _, _, _, hstore | .binaryOperator .., _, _, _, hstore => hstore
  | .seq first second _, _, _, _, hstore =>
      second.bind_congr_needs hI (first.bind_congr_needs hI hstore)

end

end

/-! ## All of it can matter -/

/-- The reading that keeps all operands apart: a value is a number that codes those it was made
from. -/
def Interpretation.pairing : Interpretation Nat where
  nothing := 0
  integer _ := 0
  character _ := 0
  unary _ operand := operand
  binary _ left right := Nat.pair left right
  holds _ := true
  field _ value := value
  setField _ _ value := value
  item array index := Nat.pair array index
  setItem _ _ value := value
  array elements := Encodable.encode elements
  record fields := Encodable.encode (fields.map Prod.snd)
  routine _ := 0
  apply _ arguments := Encodable.encode arguments
  declared _ _ := 0

theorem Interpretation.pairing_static : Interpretation.pairing.Static := fun _ _ _ => rfl

/-- Whether a fragment is a conditional expression. -/
def Fragment.isConditional : Fragment → Bool
  | .expression (.ifThenElse ..) => true
  | _ => false

/-- There is no conditional expression in a fragment. -/
abbrev Fragment.Straight (whole : Fragment) : Prop :=
  whole.Everywhere fun fragment => fragment.isConditional = false

theorem agree_of_update {V : Type u} {store store' : Store V} {name : String}
    {after : List String} {value value' : V}
    (hupdate : ∀ other ∈ after,
      Function.update store name value other = Function.update store' name value' other) :
    (∀ other ∈ after.filter (· ≠ name), store other = store' other) ∧
      (name ∈ after → value = value') := by
  constructor
  · intro other hother
    obtain ⟨hmem, hne⟩ := List.mem_filter.mp hother
    have hname : other ≠ name := by simpa using hne
    simpa [Function.update_of_ne hname] using hupdate other hmem
  · intro hname
    simpa using hupdate name hname

section

open Interpretation (pairing)
open Fragment (everywhere_iff)

mutual

theorem Vname.agree_of_eval_pairing : ∀ (vname : Vname) {store store' : Store Nat},
    (Fragment.vname vname).Straight → vname.eval pairing store = vname.eval pairing store' →
    ∀ name ∈ vname.needs, store name = store' name
  | .simple name _, _, _, _, heval => by simpa [Vname.needs, Vname.eval] using heval
  | .dot base _ _, _, _, hstraight, heval => by
      have hbase : (Fragment.vname base).Straight := by simpa using (everywhere_iff.mp hstraight).2
      exact base.agree_of_eval_pairing hbase heval
  | .subscript base index _, _, _, hstraight, heval => by
      obtain ⟨hbase, hindex⟩ : (Fragment.vname base).Straight ∧
          (Fragment.expression index).Straight := by
        simpa using (everywhere_iff.mp hstraight).2
      obtain ⟨hleft, hright⟩ := Nat.pair_eq_pair.mp heval
      exact List.forall_mem_append.mpr ⟨base.agree_of_eval_pairing hbase hleft,
        index.agree_of_eval_pairing hindex hright⟩

/-- Where all operands are kept apart, equal values come from stores that agree on what is needed.
-/
theorem Expression.agree_of_eval_pairing : ∀ (expression : Expression) {store store' : Store Nat},
    (Fragment.expression expression).Straight →
    expression.eval pairing store = expression.eval pairing store' →
    ∀ name ∈ expression.needs, store name = store' name
  | .empty _, _, _, _, _ | .integer .., _, _, _, _ | .character .., _, _, _, _ =>
      List.forall_mem_nil _
  | .read vname _, _, _, hstraight, heval => by
      have hvname : (Fragment.vname vname).Straight := by
        simpa using (everywhere_iff.mp hstraight).2
      exact vname.agree_of_eval_pairing hvname heval
  | .unary _ operand _, _, _, hstraight, heval => by
      have hoperand : (Fragment.expression operand).Straight := by
        simpa using (everywhere_iff.mp hstraight).2
      exact operand.agree_of_eval_pairing hoperand heval
  | .binary _ left right _, _, _, hstraight, heval => by
      obtain ⟨hleft, hright⟩ : (Fragment.expression left).Straight ∧
          (Fragment.expression right).Straight := by
        simpa using (everywhere_iff.mp hstraight).2
      obtain ⟨hevalLeft, hevalRight⟩ := Nat.pair_eq_pair.mp heval
      exact List.forall_mem_append.mpr ⟨left.agree_of_eval_pairing hleft hevalLeft,
        right.agree_of_eval_pairing hright hevalRight⟩
  | .ifThenElse .., _, _, hstraight, _ => by
      -- a conditional forgets the branch that is not taken, so it is excluded here
      have hconditional := (everywhere_iff.mp hstraight).1
      cases hconditional
  | .letIn declaration body _, _, _, hstraight, heval => by
      obtain ⟨hdeclaration, hbody⟩ : (Fragment.declaration declaration).Straight ∧
          (Fragment.expression body).Straight := by
        simpa using (everywhere_iff.mp hstraight).2
      have hafter := body.agree_of_eval_pairing hbody heval
      exact declaration.agree_of_bind_pairing hdeclaration hafter
  | .call _ arguments _, _, _, hstraight, heval => by
      have harguments : ∀ argument ∈ arguments, (Fragment.argument argument).Straight := by
        simpa using (everywhere_iff.mp hstraight).2
      have hvalues := Encodable.encode_injective heval
      exact ActualParameter.agree_of_evalAll_pairing arguments harguments hvalues
  | .array elements _, _, _, hstraight, heval => by
      have helements : ∀ element ∈ elements, (Fragment.expression element).Straight := by
        simpa using (everywhere_iff.mp hstraight).2
      have hvalues := Encodable.encode_injective heval
      exact Expression.agree_of_evalAll_pairing elements helements hvalues
  | .record fields _, _, _, hstraight, heval => by
      have hfields : ∀ field ∈ fields, (Fragment.expression field.2).Straight :=
        List.forall_mem_map.mp (everywhere_iff.mp hstraight).2
      have hvalues := Encodable.encode_injective heval
      exact Expression.agree_of_evalFields_pairing fields hfields hvalues

theorem Expression.agree_of_evalAll_pairing :
    ∀ (elements : List Expression) {store store' : Store Nat},
      (∀ element ∈ elements, (Fragment.expression element).Straight) →
      Expression.evalAll pairing elements store = Expression.evalAll pairing elements store' →
      ∀ name ∈ Expression.needsAll elements, store name = store' name
  | [], _, _, _, _ => List.forall_mem_nil _
  | element :: rest, _, _, hstraight, heval => by
      obtain ⟨helement, hrest⟩ := List.forall_mem_cons.mp hstraight
      obtain ⟨hfirst, hothers⟩ := List.cons.inj heval
      exact List.forall_mem_append.mpr ⟨element.agree_of_eval_pairing helement hfirst,
        Expression.agree_of_evalAll_pairing rest hrest hothers⟩

theorem Expression.agree_of_evalFields_pairing :
    ∀ (fields : List (Identifier × Expression)) {store store' : Store Nat},
      (∀ field ∈ fields, (Fragment.expression field.2).Straight) →
      (Expression.evalFields pairing fields store).map Prod.snd =
        (Expression.evalFields pairing fields store').map Prod.snd →
      ∀ name ∈ Expression.needsFields fields, store name = store' name
  | [], _, _, _, _ => List.forall_mem_nil _
  | (_, value) :: rest, _, _, hstraight, heval => by
      obtain ⟨hvalue, hrest⟩ := List.forall_mem_cons.mp hstraight
      obtain ⟨hfirst, hothers⟩ := List.cons.inj heval
      exact List.forall_mem_append.mpr ⟨value.agree_of_eval_pairing hvalue hfirst,
        Expression.agree_of_evalFields_pairing rest hrest hothers⟩

theorem ActualParameter.agree_of_eval_pairing :
    ∀ (argument : ActualParameter) {store store' : Store Nat},
      (Fragment.argument argument).Straight →
      argument.eval pairing store = argument.eval pairing store' →
      ∀ name ∈ argument.needs, store name = store' name
  | .const value, _, _, hstraight, heval => by
      have hvalue : (Fragment.expression value).Straight := by
        simpa using (everywhere_iff.mp hstraight).2
      exact value.agree_of_eval_pairing hvalue heval
  | .var vname, _, _, hstraight, heval => by
      have hvname : (Fragment.vname vname).Straight := by
        simpa using (everywhere_iff.mp hstraight).2
      exact vname.agree_of_eval_pairing hvname heval
  | .proc _, _, _, _, _ | .func _, _, _, _, _ => List.forall_mem_nil _

theorem ActualParameter.agree_of_evalAll_pairing :
    ∀ (arguments : List ActualParameter) {store store' : Store Nat},
      (∀ argument ∈ arguments, (Fragment.argument argument).Straight) →
      ActualParameter.evalAll pairing arguments store =
        ActualParameter.evalAll pairing arguments store' →
      ∀ name ∈ ActualParameter.needsAll arguments, store name = store' name
  | [], _, _, _, _ => List.forall_mem_nil _
  | argument :: rest, _, _, hstraight, heval => by
      obtain ⟨hargument, hrest⟩ := List.forall_mem_cons.mp hstraight
      obtain ⟨hfirst, hothers⟩ := List.cons.inj heval
      exact List.forall_mem_append.mpr ⟨argument.agree_of_eval_pairing hargument hfirst,
        ActualParameter.agree_of_evalAll_pairing rest hrest hothers⟩

theorem Declaration.agree_of_bind_pairing :
    ∀ (declaration : Declaration) {after : List String} {store store' : Store Nat},
      (Fragment.declaration declaration).Straight →
      (∀ name ∈ after, declaration.bind pairing store name = declaration.bind pairing store' name) →
      ∀ name ∈ declaration.needs after, store name = store' name
  | .const name value _, after, _, _, hstraight, hbind => by
      have hvalue : (Fragment.expression value).Straight := by
        simpa using (everywhere_iff.mp hstraight).2
      obtain ⟨hrest, hname⟩ := agree_of_update hbind
      refine List.forall_mem_append.mpr ⟨hrest, ?_⟩
      -- if the name is not used after it, the constant asks for nothing
      by_cases hmem : name.spelling ∈ after
      · rw [if_pos hmem]
        exact value.agree_of_eval_pairing hvalue (hname hmem)
      · rw [if_neg hmem]
        exact List.forall_mem_nil _
  | .var .., _, _, _, _, hbind | .proc .., _, _, _, _, hbind | .func .., _, _, _, _, hbind
  | .type .., _, _, _, _, hbind => (agree_of_update hbind).1
  | .unaryOperator .., _, _, _, _, hbind | .binaryOperator .., _, _, _, _, hbind => hbind
  | .seq first second _, _, _, _, hstraight, hbind => by
      obtain ⟨hfirst, hsecond⟩ : (Fragment.declaration first).Straight ∧
          (Fragment.declaration second).Straight := by
        simpa using (everywhere_iff.mp hstraight).2
      -- backwards: what the second declaration needs is what the first has to provide
      have hmiddle := second.agree_of_bind_pairing hsecond hbind
      exact first.agree_of_bind_pairing hfirst hmiddle

end

end

/-! ## Blocks in indices -/

/-- Whether a fragment is an expression with declarations of its own. -/
def Fragment.isBlock : Fragment → Bool
  | .expression (.letIn ..) => true
  | _ => false

/-- There is no expression with declarations of its own in a fragment. -/
abbrev Fragment.Blockless (whole : Fragment) : Prop :=
  whole.Everywhere fun fragment => fragment.isBlock = false

section

open Fragment (everywhere_iff)

mutual

theorem Vname.needs_eq_free : ∀ vname : Vname, (Fragment.vname vname).Blockless →
    vname.needs = vname.free
  | .simple .., _ => rfl
  | .dot base _ _, hblockless => by
      have hbase : (Fragment.vname base).Blockless := by
        simpa using (everywhere_iff.mp hblockless).2
      exact base.needs_eq_free hbase
  | .subscript base index _, hblockless => by
      obtain ⟨hbase, hindex⟩ : (Fragment.vname base).Blockless ∧
          (Fragment.expression index).Blockless := by
        simpa using (everywhere_iff.mp hblockless).2
      rw [Vname.needs, Vname.free, base.needs_eq_free hbase, index.needs_eq_free hindex]

/-- Without declarations of its own an expression needs just the variables it is said to read. -/
theorem Expression.needs_eq_free : ∀ expression : Expression,
    (Fragment.expression expression).Blockless → expression.needs = expression.free
  | .empty _, _ | .integer .., _ | .character .., _ => rfl
  | .read vname _, hblockless => by
      have hvname : (Fragment.vname vname).Blockless := by
        simpa using (everywhere_iff.mp hblockless).2
      exact vname.needs_eq_free hvname
  | .unary _ operand _, hblockless => by
      have hoperand : (Fragment.expression operand).Blockless := by
        simpa using (everywhere_iff.mp hblockless).2
      exact operand.needs_eq_free hoperand
  | .binary _ left right _, hblockless => by
      obtain ⟨hleft, hright⟩ : (Fragment.expression left).Blockless ∧
          (Fragment.expression right).Blockless := by
        simpa using (everywhere_iff.mp hblockless).2
      rw [Expression.needs, Expression.free, left.needs_eq_free hleft,
        right.needs_eq_free hright]
  | .ifThenElse condition thenBranch elseBranch _, hblockless => by
      obtain ⟨hcondition, hthen, helse⟩ : (Fragment.expression condition).Blockless ∧
          (Fragment.expression thenBranch).Blockless ∧
          (Fragment.expression elseBranch).Blockless := by
        simpa using (everywhere_iff.mp hblockless).2
      rw [Expression.needs, Expression.free, condition.needs_eq_free hcondition,
        thenBranch.needs_eq_free hthen, elseBranch.needs_eq_free helse]
  | .letIn .., hblockless => by
      have hblock := (everywhere_iff.mp hblockless).1
      cases hblock
  | .call _ arguments _, hblockless => by
      have harguments : ∀ argument ∈ arguments, (Fragment.argument argument).Blockless := by
        simpa using (everywhere_iff.mp hblockless).2
      exact ActualParameter.needsAll_eq_freeAll arguments harguments
  | .array elements _, hblockless => by
      have helements : ∀ element ∈ elements, (Fragment.expression element).Blockless := by
        simpa using (everywhere_iff.mp hblockless).2
      exact Expression.needsAll_eq_freeAll elements helements
  | .record fields _, hblockless => by
      have hfields : ∀ field ∈ fields, (Fragment.expression field.2).Blockless :=
        List.forall_mem_map.mp (everywhere_iff.mp hblockless).2
      exact Expression.needsFields_eq_freeFields fields hfields

theorem Expression.needsAll_eq_freeAll : ∀ elements : List Expression,
    (∀ element ∈ elements, (Fragment.expression element).Blockless) →
    Expression.needsAll elements = Expression.freeAll elements
  | [], _ => rfl
  | element :: rest, hblockless => by
      obtain ⟨helement, hrest⟩ := List.forall_mem_cons.mp hblockless
      rw [Expression.needsAll, Expression.freeAll, element.needs_eq_free helement,
        Expression.needsAll_eq_freeAll rest hrest]

theorem Expression.needsFields_eq_freeFields : ∀ fields : List (Identifier × Expression),
    (∀ field ∈ fields, (Fragment.expression field.2).Blockless) →
    Expression.needsFields fields = Expression.freeFields fields
  | [], _ => rfl
  | (_, value) :: rest, hblockless => by
      obtain ⟨hvalue, hrest⟩ := List.forall_mem_cons.mp hblockless
      rw [Expression.needsFields, Expression.freeFields, value.needs_eq_free hvalue,
        Expression.needsFields_eq_freeFields rest hrest]

theorem ActualParameter.needs_eq_free : ∀ argument : ActualParameter,
    (Fragment.argument argument).Blockless → argument.needs = argument.free
  | .const value, hblockless => by
      have hvalue : (Fragment.expression value).Blockless := by
        simpa using (everywhere_iff.mp hblockless).2
      exact value.needs_eq_free hvalue
  | .var vname, hblockless => by
      have hvname : (Fragment.vname vname).Blockless := by
        simpa using (everywhere_iff.mp hblockless).2
      exact vname.needs_eq_free hvname
  | .proc _, _ | .func _, _ => rfl

theorem ActualParameter.needsAll_eq_freeAll : ∀ arguments : List ActualParameter,
    (∀ argument ∈ arguments, (Fragment.argument argument).Blockless) →
    ActualParameter.needsAll arguments = ActualParameter.freeAll arguments
  | [], _ => rfl
  | argument :: rest, hblockless => by
      obtain ⟨hargument, hrest⟩ := List.forall_mem_cons.mp hblockless
      rw [ActualParameter.needsAll, ActualParameter.freeAll, argument.needs_eq_free hargument,
        ActualParameter.needsAll_eq_freeAll rest hrest]

end

end

theorem Vname.needs_eq_free_of_indices : ∀ vname : Vname,
    (∀ index ∈ vname.indices, (Fragment.expression index).Blockless) → vname.needs = vname.free
  | .simple .., _ => rfl
  | .dot base _ _, hindices => base.needs_eq_free_of_indices hindices
  | .subscript base index _, hindices => by
      obtain ⟨hbase, hrest⟩ := List.forall_mem_append.mp hindices
      have hindex : (Fragment.expression index).Blockless := by simpa using hrest
      rw [Vname.needs, Vname.free, base.needs_eq_free_of_indices hbase,
        index.needs_eq_free hindex]

/-- The declarations of a pure expression are those of its indices. -/
theorem Expression.needs_eq_free_of_indices : ∀ expression : Expression,
    expression.isPure = true →
    (∀ index ∈ expression.indices, (Fragment.expression index).Blockless) →
    expression.needs = expression.free
  | .empty _, _, _ | .integer .., _, _ | .character .., _, _ => rfl
  | .read vname _, _, hindices => vname.needs_eq_free_of_indices hindices
  | .unary _ operand _, hpure, hindices => operand.needs_eq_free_of_indices hpure hindices
  | .binary _ left right _, hpure, hindices => by
      rw [Expression.isPure, Bool.and_eq_true] at hpure
      obtain ⟨hleft, hright⟩ := List.forall_mem_append.mp hindices
      rw [Expression.needs, Expression.free, left.needs_eq_free_of_indices hpure.1 hleft,
        right.needs_eq_free_of_indices hpure.2 hright]

/-! ## What the variables read determine -/

/-- The value is the same in any two stores that agree on the variables the expression is said to
read, whatever the operators and functions are. -/
def Expression.DeterminedByFree (expression : Expression) : Prop :=
  ∀ (V : Type) (I : Interpretation V), I.Static → ∀ store store' : Store V,
    (∀ name ∈ expression.free, store name = store' name) →
      expression.eval I store = expression.eval I store'

/-- **When the variables read determine a value.**  It is enough that they include all variables
that the expression needs, and no less will do if it has no conditional in it.  For a pure
expression it is enough that its indices have no declarations of their own. -/
theorem determinedByFree_of_needs (expression : Expression) :
    (expression.needs ⊆ expression.free → expression.DeterminedByFree) ∧
      ((Fragment.expression expression).Straight → expression.DeterminedByFree →
        expression.needs ⊆ expression.free) ∧
      (expression.isPure = true →
        (∀ index ∈ expression.indices, (Fragment.expression index).Blockless) →
        expression.DeterminedByFree) := by
  have henough : expression.needs ⊆ expression.free → expression.DeterminedByFree := by
    intro hneeds V I hI store store' hagree
    exact expression.eval_congr_needs hI fun name hname => hagree name (hneeds hname)
  refine ⟨henough, ?_, ?_⟩
  · intro hstraight hdetermined name hname
    by_contra hfree
    -- two stores that differ in the one variable that is needed but not read
    let store : Store Nat := fun _ => 0
    let store' : Store Nat := Function.update store name 1
    have hagree : ∀ other ∈ expression.free, store other = store' other := by
      intro other hother
      have hne : other ≠ name := fun heq => hfree (heq ▸ hother)
      exact (Function.update_of_ne hne 1 store).symm
    have heval := hdetermined Nat .pairing Interpretation.pairing_static store store' hagree
    have hsame : 0 = Function.update store name 1 name :=
      expression.agree_of_eval_pairing hstraight heval name hname
    simp at hsame
  · intro hpure hindices
    have hneeds := expression.needs_eq_free_of_indices hpure hindices
    apply henough
    rw [hneeds]
    exact List.Subset.refl _

/-- `t[let const k ~ i in k] + i`: the block needs `i`, which is read outside it as well. -/
def doubleRead : Expression :=
  Sketch.binary (Sketch.item "t" (.letIn (Sketch.const "k" (Sketch.var "i")) (Sketch.var "k")
    .dummy)) "+" (Sketch.var "i")

theorem doubleRead_determinedByFree :
    doubleRead.isPure = true ∧ doubleRead.needs ⊆ doubleRead.free ∧
      doubleRead.DeterminedByFree := by
  have hneeds : doubleRead.needs ⊆ doubleRead.free := by decide
  exact ⟨rfl, hneeds, (determinedByFree_of_needs doubleRead).1 hneeds⟩

/-- `t[let const k ~ x in k]`. -/
def hiddenRead : Expression :=
  Sketch.item "t" (.letIn (Sketch.const "k" (Sketch.var "x")) (Sketch.var "k") .dummy)

/-- A pure expression whose value depends on a variable that it is not said to read. -/
theorem hiddenRead_varies_with_unread : hiddenRead.isPure = true ∧ hiddenRead.free = ["t", "k"] ∧
    (∀ name ∈ hiddenRead.free,
      (fun _ => 0 : Store Nat) name = Function.update (fun _ => 0 : Store Nat) "x" 1 name) ∧
    hiddenRead.eval .pairing (fun _ => 0) ≠
      hiddenRead.eval .pairing (Function.update (fun _ => 0) "x" 1) := by
  refine ⟨rfl, rfl, by decide, by decide⟩

end LoopHoist
