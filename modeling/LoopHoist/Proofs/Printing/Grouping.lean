import LoopHoist.Proofs.Printing.Unambiguous

/-!
# Operands that take up an operator

An operand is printed in parentheses if it is a binary expression, and in no other case.  Where a
conditional or a block stands on the left of an operator, its last branch runs on over the operator:
`(if c then a else b) + 1` and `if c then a else (b + 1)` have the same text.

`print_eq_iff_of_settled` says that this is the only thing that can go wrong.  Of expressions in which
no left operand is open, the text determines the grouping, whatever stands on the right of operators,
under unary ones or anywhere else.  The text of a binary expression with an open left operand does
not: `Expression.extend` hands the operator and its right operand on to the last branch of the left
one, and the text stays the same.

An operand is open (`Expression.isOpen`) only if its last branch can take the operator up.  In
`(if c then a else b + d) + 1` there are two operands in it already, and the second one is closed.
-/

namespace LoopHoist

open Parse

/-! ## Well-formed and settled expressions -/

/-- The leaves of a fragment are spelled as the language asks for, it is not the empty expression,
and it is not a unary expression over another one. -/
def Fragment.Spelled (fragment : Fragment) : Prop :=
  (∀ leaf ∈ fragment.ownLeaves, leaf.2.Legible) ∧
    match fragment with
    | .expression (.empty _) => False
    | .expression (.unary _ operand _) => operand.isUnary = false
    | _ => True

/-- The left operand of a binary expression does not take up the operator. -/
def Fragment.Settled : Fragment → Prop
  | .expression (.binary _ left _ _) => left.isOpen = false
  | _ => True

/-- All of an expression is well formed. -/
abbrev Expression.Spelled (expression : Expression) : Prop :=
  (Fragment.expression expression).Everywhere Fragment.Spelled

/-- No left operand in an expression is open. -/
abbrev Expression.Settled (expression : Expression) : Prop :=
  (Fragment.expression expression).Everywhere Fragment.Settled

theorem Expression.allReadable {expression : Expression} (hspelled : expression.Spelled)
    (hsettled : expression.Settled) : (Fragment.expression expression).AllReadable := by
  intro fragment hfragment
  obtain ⟨hleaves, hshape⟩ := hspelled fragment hfragment
  refine ⟨hleaves, ?_⟩
  rintro part rfl
  cases part with
  | empty => exact hshape
  | unary => exact hshape
  | binary => exact hsettled _ hfragment
  | _ => trivial

/-- With enough fuel the parser reads an expression back. -/
theorem Parse.expression_print {expression : Expression}
    (hreadable : (Fragment.expression expression).AllReadable) {fuel : Nat}
    (hfuel : 2 * sizeOf expression + 1 ≤ fuel) :
    Parse.expression fuel expression.print.toList = some (expression.canonical, []) := by
  have hread := (expression.isRead hreadable).alone fuel hfuel [] stops_nil
  rwa [List.append_nil] at hread

theorem Expression.canonical_eq_of_print_eq {first second : Expression}
    (hfirst : (Fragment.expression first).AllReadable)
    (hsecond : (Fragment.expression second).AllReadable) (hprint : first.print = second.print) :
    first.canonical = second.canonical := by
  -- the same fuel is enough for both, so the parser gives the same answer twice
  have hread := expression_print hfirst
    (show _ ≤ 2 * sizeOf first + 2 * sizeOf second + 1 by omega)
  have hread' := expression_print hsecond
    (show _ ≤ 2 * sizeOf first + 2 * sizeOf second + 1 by omega)
  rw [hprint, hread'] at hread
  exact (Prod.mk.inj (Option.some.inj hread)).1.symm

/-! ## Handing an operator on -/

/-- Puts an operator and a right operand at the end of an expression that goes on with them. -/
def Expression.extend : Expression → Operator → Expression → Span → Expression
  | .binary operator' left last span', operator, right, span =>
      .binary operator' left (last.extend operator right span) span'
  | .ifThenElse condition thenBranch last span', operator, right, span =>
      if last.goesOn then
        .ifThenElse condition thenBranch (last.extend operator right span) span'
      else .binary operator (.ifThenElse condition thenBranch last span') right span
  | .letIn declaration last span', operator, right, span =>
      if last.goesOn then .letIn declaration (last.extend operator right span) span'
      else .binary operator (.letIn declaration last span') right span
  | .unary operator' last span', operator, right, span =>
      if last.isOpen then .unary operator' (last.extend operator right span) span'
      else .binary operator (.unary operator' last span') right span
  | operand, operator, right, span => .binary operator operand right span

section

variable {operator : Operator} {right : Expression} {span : Span}

/-- What an open operand is. -/
theorem Expression.isOpen_cases {operand : Expression} (hopen : operand.isOpen = true) :
    (∃ condition thenBranch last span', operand = .ifThenElse condition thenBranch last span' ∧
      last.goesOn = true) ∨
    (∃ declaration last span', operand = .letIn declaration last span' ∧ last.goesOn = true) ∨
    ∃ operator' last span', operand = .unary operator' last span' ∧ last.isOpen = true := by
  cases operand with
  | ifThenElse condition thenBranch last span' => exact .inl ⟨_, _, _, _, rfl, hopen⟩
  | letIn declaration last span' => exact .inr (.inl ⟨_, _, _, rfl, hopen⟩)
  | unary operator' last span' => exact .inr (.inr ⟨_, _, _, rfl, hopen⟩)
  | _ => cases hopen

theorem Expression.goesOn_of_isOpen {operand : Expression} (hopen : operand.isOpen = true) :
    operand.goesOn = true := by
  obtain ⟨_, _, _, _, rfl, -⟩ | ⟨_, _, _, rfl, -⟩ | ⟨_, _, _, rfl, -⟩ :=
    Expression.isOpen_cases hopen <;> rfl

theorem Expression.bracketed_of_isOpen {operand : Expression} (hopen : operand.isOpen = true)
    (text : String) : operand.bracketed text = text := by
  obtain ⟨_, _, _, _, rfl, -⟩ | ⟨_, _, _, rfl, -⟩ | ⟨_, _, _, rfl, -⟩ :=
    Expression.isOpen_cases hopen <;> rfl

/-- An open operand stays what it is when it takes an operator up. -/
theorem Expression.bracketed_extend {operand : Expression} (hopen : operand.isOpen = true)
    (text : String) : (operand.extend operator right span).bracketed text = text := by
  obtain ⟨_, _, _, _, rfl, hlast⟩ | ⟨_, _, _, rfl, hlast⟩ | ⟨_, _, _, rfl, hlast⟩ :=
    Expression.isOpen_cases hopen <;> rw [Expression.extend, if_pos hlast] <;> rfl

theorem Expression.isUnary_extend {operand : Expression} (hopen : operand.isOpen = true) :
    (operand.extend operator right span).isUnary = operand.isUnary := by
  obtain ⟨_, _, _, _, rfl, hlast⟩ | ⟨_, _, _, rfl, hlast⟩ | ⟨_, _, _, rfl, hlast⟩ :=
    Expression.isOpen_cases hopen <;> rw [Expression.extend, if_pos hlast] <;> rfl

/-- The text of an expression that goes on is continued by the operator and its right operand. -/
theorem Expression.print_extend : ∀ expression : Expression, expression.goesOn = true →
    (expression.extend operator right span).print =
      expression.print ++ " " ++ operator.spelling ++ " " ++ right.bracketed right.print
  | .binary operator' left last span', hgoesOn => by
      have hopen : last.isOpen = true := hgoesOn
      have hlast := last.print_extend (Expression.goesOn_of_isOpen hopen)
      simp only [Expression.extend, Expression.print, Expression.bracketed_extend hopen,
        Expression.bracketed_of_isOpen hopen, hlast, String.append_assoc]
  | .ifThenElse condition thenBranch last span', _ => by
      by_cases hlast : last.goesOn = true
      · have hprint := last.print_extend hlast
        simp only [Expression.extend, if_pos hlast, Expression.print, hprint, String.append_assoc]
      · rw [Expression.extend, if_neg hlast]
        rfl
  | .letIn declaration last span', _ => by
      by_cases hlast : last.goesOn = true
      · have hprint := last.print_extend hlast
        simp only [Expression.extend, if_pos hlast, Expression.print, hprint, String.append_assoc]
      · rw [Expression.extend, if_neg hlast]
        rfl
  | .unary operator' last span', _ => by
      by_cases hopen : last.isOpen = true
      · have hprint := last.print_extend (Expression.goesOn_of_isOpen hopen)
        simp only [Expression.extend, if_pos hopen, Expression.print,
          Expression.bracketed_extend hopen, Expression.bracketed_of_isOpen hopen, hprint,
          String.append_assoc]
      · rw [Expression.extend, if_neg hopen]
        rfl
  | .empty _, _ | .integer .., _ | .character .., _ | .read .., _ | .call .., _ | .array .., _
  | .record .., _ => rfl

theorem Expression.spelled_binary {left : Expression} (hoperator : operator.Legible)
    (hleft : left.Spelled) (hright : right.Spelled) :
    (Expression.binary operator left right span).Spelled := by
  refine Fragment.everywhere_iff.mpr ⟨⟨?_, trivial⟩, ?_⟩
  · simpa using hoperator
  · simp [hleft, hright]

/-- Handing an operator on builds well-formed expressions from well-formed ones. -/
theorem Expression.spelled_extend (hoperator : operator.Legible) (hright : right.Spelled) :
    ∀ expression : Expression, expression.goesOn = true → expression.Spelled →
      (expression.extend operator right span).Spelled
  | .binary operator' left last span', hgoesOn, hspelled => by
      have hopen : last.isOpen = true := hgoesOn
      obtain ⟨⟨hleaves, -⟩, hparts⟩ := Fragment.everywhere_iff.mp hspelled
      have hlast := last.spelled_extend hoperator hright (Expression.goesOn_of_isOpen hopen)
        (hparts (.expression last) (by simp))
      exact Expression.spelled_binary (hleaves ⟨_, operator'⟩ (by simp))
        (hparts (.expression left) (by simp)) hlast
  | .ifThenElse condition thenBranch last span', _, hspelled => by
      by_cases hlast : last.goesOn = true
      · obtain ⟨hown, hparts⟩ := Fragment.everywhere_iff.mp hspelled
        have hextend := last.spelled_extend hoperator hright hlast
          (hparts (.expression last) (by simp))
        have hcondition := hparts (.expression condition) (by simp)
        have hthen := hparts (.expression thenBranch) (by simp)
        rw [Expression.extend, if_pos hlast]
        exact Fragment.everywhere_iff.mpr ⟨hown, by simp [hcondition, hthen, hextend]⟩
      · rw [Expression.extend, if_neg hlast]
        exact Expression.spelled_binary hoperator hspelled hright
  | .letIn declaration last span', _, hspelled => by
      by_cases hlast : last.goesOn = true
      · obtain ⟨hown, hparts⟩ := Fragment.everywhere_iff.mp hspelled
        have hextend := last.spelled_extend hoperator hright hlast
          (hparts (.expression last) (by simp))
        have hdeclaration := hparts (.declaration declaration) (by simp)
        rw [Expression.extend, if_pos hlast]
        exact Fragment.everywhere_iff.mpr ⟨hown, by simp [hdeclaration, hextend]⟩
      · rw [Expression.extend, if_neg hlast]
        exact Expression.spelled_binary hoperator hspelled hright
  | .unary operator' last span', _, hspelled => by
      by_cases hopen : last.isOpen = true
      · obtain ⟨⟨hleaves, hunary⟩, hparts⟩ := Fragment.everywhere_iff.mp hspelled
        have hextend := last.spelled_extend hoperator hright (Expression.goesOn_of_isOpen hopen)
          (hparts (.expression last) (by simp))
        rw [Expression.extend, if_pos hopen]
        -- the operand took the operator up inside, so it is still not unary
        refine Fragment.everywhere_iff.mpr ⟨⟨hleaves, ?_⟩, by simp [hextend]⟩
        exact (Expression.isUnary_extend hopen).trans hunary
      · rw [Expression.extend, if_neg hopen]
        exact Expression.spelled_binary hoperator hspelled hright
  | .empty _, _, hspelled | .integer .., _, hspelled | .character .., _, hspelled
  | .read .., _, hspelled | .call .., _, hspelled | .array .., _, hspelled
  | .record .., _, hspelled => Expression.spelled_binary hoperator hspelled hright

/-- An open operand that took up the operator is not the binary expression it was the left of. -/
theorem Expression.canonical_extend_ne {left : Expression} (hopen : left.isOpen = true) :
    (left.extend operator right span).canonical ≠
      (Expression.binary operator left right span).canonical := by
  obtain ⟨_, _, _, _, rfl, hlast⟩ | ⟨_, _, _, rfl, hlast⟩ | ⟨_, _, _, rfl, hlast⟩ :=
    Expression.isOpen_cases hopen <;> rw [Expression.extend, if_pos hlast] <;> intro heq <;> cases heq

end

/-! ## The text and the grouping of an expression -/

/-- **The text of an expression determines its grouping where no left operand is open.**  Two such
expressions have the same text exactly if they are equal up to places and the nesting of sequences.
A binary expression with an open left operand shares its text with another expression. -/
theorem Expression.print_eq_iff_of_settled {first second : Expression} (hfirst : first.Spelled)
    (hsecond : second.Spelled) :
    (first.Settled → second.Settled →
      (first.print = second.print ↔ first.canonical = second.canonical)) ∧
    ∀ operator left right span, first = .binary operator left right span → left.isOpen = true →
      ∃ other : Expression, other.Spelled ∧ other.print = first.print ∧
        other.canonical ≠ first.canonical := by
  constructor
  · intro hsettled hsettled'
    constructor
    · exact Expression.canonical_eq_of_print_eq (Expression.allReadable hfirst hsettled)
        (Expression.allReadable hsecond hsettled')
    · intro hcanonical
      rw [← first.print_canonical, hcanonical, second.print_canonical]
  · rintro operator left right span rfl hopen
    obtain ⟨⟨hleaves, -⟩, hparts⟩ := Fragment.everywhere_iff.mp hfirst
    -- the other expression is the left operand with the operator handed on to it
    have hgoesOn := Expression.goesOn_of_isOpen hopen
    refine ⟨left.extend operator right span, ?_, ?_, Expression.canonical_extend_ne hopen⟩
    · exact Expression.spelled_extend (hleaves ⟨_, operator⟩ (by simp))
        (hparts (.expression right) (by simp)) left hgoesOn (hparts (.expression left) (by simp))
    · rw [Expression.print_extend left hgoesOn, Expression.print,
        Expression.bracketed_of_isOpen hopen]

open Sketch

/-- The sum `(if c then a else b) + 1`. -/
def branchSum : Expression :=
  binary (.ifThenElse (var "c") (var "a") (var "b") .dummy) "+" (int "1")

/-- The conditional `if c then a else (b + 1)`. -/
def sumBranch : Expression :=
  .ifThenElse (var "c") (var "a") (binary (var "b") "+" (int "1")) .dummy

theorem spelled_branchSum : branchSum.Spelled := by
  have hname : ∀ word ∈ ["a", "b", "c"], IsName word := by decide
  simp [Fragment.Everywhere, branchSum, Fragment.fragments_eq, Fragment.Spelled, binary, var,
    Sketch.name, int, Terminal.Legible, Terminal.WellSpelled, isOperatorChar, hname]

/-- The product `a * if c then 1 else let const x ~ 1; const y ~ 2; const z ~ 3 in -(x + y)`, where
the first two declarations are put together, and with places. -/
def productLeft : Expression :=
  let place : Span := ⟨1, 2, 3, 4⟩
  let declarations : Declaration :=
    .seq (.seq (const "x" (int "1")) (const "y" (int "2")) place) (const "z" (int "3")) place
  binary (var "a") "*" (.ifThenElse (var "c") (int "1") (.letIn declarations
    (.unary ⟨"-", place⟩ (binary (var "x") "+" (var "y")) place) place) place)

/-- The same with the last two declarations put together, and without places. -/
def productRight : Expression :=
  let declarations : Declaration :=
    .seq (const "x" (int "1")) (.seq (const "y" (int "2")) (const "z" (int "3")) .dummy) .dummy
  binary (var "a") "*" (.ifThenElse (var "c") (int "1") (.letIn declarations
    (.unary ⟨"-", .dummy⟩ (binary (var "x") "+" (var "y")) .dummy) .dummy) .dummy)

/-- A conditional with a block may stand on the right of an operator, but not on its left. -/
theorem print_eq_iff_of_settled_product :
    (productLeft.Spelled ∧ productRight.Spelled ∧ productLeft.Settled ∧ productRight.Settled ∧
      productLeft.print = productRight.print ∧ productLeft.canonical = productRight.canonical) ∧
    branchSum.Spelled ∧ ∃ other : Expression, other.Spelled ∧ other.print = branchSum.print ∧
      other.canonical ≠ branchSum.canonical := by
  have hname : ∀ word ∈ ["a", "c", "x", "y", "z"], IsName word := by decide
  have hleft : productLeft.Spelled := by
    simp [Fragment.Everywhere, productLeft, Fragment.fragments_eq, Fragment.Spelled, binary, var,
      Sketch.name, int, const, Expression.isUnary, Terminal.Legible, Terminal.WellSpelled,
      isOperatorChar, hname]
  have hright : productRight.Spelled := by
    simp [Fragment.Everywhere, productRight, Fragment.fragments_eq, Fragment.Spelled, binary, var,
      Sketch.name, int, const, Expression.isUnary, Terminal.Legible, Terminal.WellSpelled,
      isOperatorChar, hname]
  have hsettled : productLeft.Settled := by
    simp [Fragment.Everywhere, productLeft, Fragment.fragments_eq, Fragment.Settled, binary, var,
      int, const, Expression.isOpen]
  have hsettled' : productRight.Settled := by
    simp [Fragment.Everywhere, productRight, Fragment.fragments_eq, Fragment.Settled, binary, var,
      int, const, Expression.isOpen]
  have hprint : productLeft.print = productRight.print := by decide
  exact ⟨⟨hleft, hright, hsettled, hsettled', hprint,
      ((Expression.print_eq_iff_of_settled hleft hright).1 hsettled hsettled').mp hprint⟩,
    spelled_branchSum,
    (Expression.print_eq_iff_of_settled spelled_branchSum spelled_branchSum).2 _ _ _ _ rfl rfl⟩

/-- The sum and the conditional have the same text `if c then a else b + 1`. -/
theorem branchSum_print_eq_sumBranch :
    branchSum.Spelled ∧ sumBranch.Spelled ∧ branchSum.print = sumBranch.print ∧
      branchSum.canonical ≠ sumBranch.canonical := by
  have hname : ∀ word ∈ ["a", "b", "c"], IsName word := by decide
  have hbranch : sumBranch.Spelled := by
    simp [Fragment.Everywhere, sumBranch, Fragment.fragments_eq, Fragment.Spelled, binary, var,
      Sketch.name, int, Terminal.Legible, Terminal.WellSpelled, isOperatorChar, hname]
  exact ⟨spelled_branchSum, hbranch, by decide, fun heq => by cases heq⟩

end LoopHoist
