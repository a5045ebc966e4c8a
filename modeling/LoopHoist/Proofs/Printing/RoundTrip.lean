import LoopHoist.Proofs.Printing.Beginnings
import Mathlib.Data.List.Forall2

/-!
# Printing and reading back

The parser gives back the canonical form of whatever was printed, provided that it can be read back
at all (`Fragment.AllReadable`).  There is a statement for each sort of tree:

* `Vname.IsRead`: after the name at the front, the parser takes up the fields and indices of a value
  name one by one.
* `Expression.IsRead`: the parser reads an expression without parentheses, and it reads it also as an
  operand, where a binary expression has them.  What may follow depends on whether the expression
  would take up an operator (`Parse.Follows`).
* `Declaration.IsRead` and `Command.IsRead`: the parser reads all parts of a sequence.

They are proved together by induction over the trees.  Fuel is measured by the size of the tree; it
is counted twice because an expression is read by way of an operand.
-/

namespace LoopHoist

open Parse

/-! ## Value names -/

/-- The number of fields and indices of a value name. -/
def Vname.depth : Vname → Nat
  | .simple .. => 0
  | .dot base _ _ => base.depth + 1
  | .subscript base _ _ => base.depth + 1

theorem Vname.depth_lt_sizeOf (vname : Vname) : vname.depth < sizeOf vname := by
  cases vname with
  | simple =>
      simp only [Vname.depth, Vname.simple.sizeOf_spec]
      omega
  | dot base | subscript base =>
      have hbase := base.depth_lt_sizeOf
      simp only [Vname.depth, Vname.dot.sizeOf_spec, Vname.subscript.sizeOf_spec]
      omega

/-- Where nothing of a value name follows, there are no more fields and indices. -/
theorem Parse.suffixes_of_breaks (base : Vname) {rest : List Char} (hrest : Breaks rest)
    (fuel : Nat) : suffixes (fuel + 1) base rest = some (base, rest) := by
  cases rest with
  | nil => rfl
  | cons c cs =>
      have hmem := hrest c rfl
      simp only [List.mem_cons, List.not_mem_nil, or_false] at hmem
      obtain rfl | rfl | rfl | rfl | rfl | rfl := hmem <;> rfl

/-- The parser takes up the fields and indices of a value name one by one.  Each of them costs one
unit of fuel, and what is left of it is the same for the value name and for the rest. -/
def Vname.IsRead (vname : Vname) : Prop :=
  ∀ (fuel : Nat) (rest : List Char), 2 * sizeOf vname ≤ fuel + vname.depth → Ends rest →
    suffixes (fuel + vname.depth) (.simple vname.base.canonical .dummy)
      (vname.tail.toList ++ rest) = suffixes fuel vname.canonical rest

theorem Vname.IsRead.reads {vname : Vname} (hread : vname.IsRead) {fuel : Nat}
    (hfuel : 2 * sizeOf vname ≤ fuel) :
    Reads Breaks (suffixes fuel (.simple vname.base.canonical .dummy)) vname.tail
      vname.canonical := by
  intro rest hrest
  have hdepth := vname.depth_lt_sizeOf
  obtain ⟨less, rfl⟩ : ∃ less, fuel = less + 1 + vname.depth :=
    ⟨fuel - vname.depth - 1, by omega⟩
  rw [hread _ rest hfuel hrest.ends, suffixes_of_breaks _ hrest]

/-! ## Expressions -/

/-- What may follow an expression: an operator only if it is not taken up. -/
def Parse.Follows : Bool → List Char → Prop
  | true => Stops
  | false => Breaks

theorem Parse.Stops.follows {rest : List Char} (hrest : Stops rest) (takesUp : Bool) :
    Follows takesUp rest := by
  cases takesUp with
  | true => exact hrest
  | false => exact hrest.breaks

/-- The parser reads an expression, as an operand and without parentheses. -/
structure Expression.IsRead (expression : Expression) : Prop where
  asOperand : ∀ fuel : Nat, 2 * sizeOf expression ≤ fuel →
    Reads (Follows expression.isOpen) (operand fuel) (expression.bracketed expression.print)
      expression.canonical
  asBranch : ∀ fuel : Nat, 2 * sizeOf expression + 1 ≤ fuel →
    Reads (Follows expression.goesOn) (Parse.expression fuel) expression.print expression.canonical

theorem Expression.IsRead.alone {expression : Expression} (hread : expression.IsRead) (fuel : Nat)
    (hfuel : 2 * sizeOf expression + 1 ≤ fuel) :
    Reads Stops (Parse.expression fuel) expression.print expression.canonical :=
  fun rest hrest => hread.asBranch fuel hfuel rest (hrest.follows _)

theorem Expression.sizeOf_pos (expression : Expression) : 0 < sizeOf expression := by
  cases expression <;> simp +arith

theorem Expression.goesOn_of_bracketed {expression : Expression}
    (hbracketed : ∀ text, expression.bracketed text = text) : expression.goesOn = true := by
  cases expression with
  | binary => exact absurd (hbracketed "") (by simp [Expression.bracketed])
  | _ => rfl

theorem Expression.IsRead.of_operand {expression : Expression}
    (hbracketed : ∀ text, expression.bracketed text = text)
    (hoperand : ∀ fuel : Nat, 2 * sizeOf expression ≤ fuel + 1 →
      Reads (Follows expression.isOpen) (operand (fuel + 1)) expression.print
        expression.canonical) :
    expression.IsRead := by
  have hpos := expression.sizeOf_pos
  have hread : ∀ fuel : Nat, 2 * sizeOf expression ≤ fuel →
      Reads (Follows expression.isOpen) (operand fuel) expression.print expression.canonical := by
    intro fuel hfuel
    obtain ⟨less, rfl⟩ : ∃ less, fuel = less + 1 := ⟨fuel - 1, by omega⟩
    exact hoperand less hfuel
  constructor
  · intro fuel hfuel
    rw [hbracketed]
    exact hread fuel hfuel
  · rw [Expression.goesOn_of_bracketed hbracketed]
    intro fuel hfuel rest hrest
    have hstops : Stops rest := hrest
    obtain ⟨less, rfl⟩ : ∃ less, fuel = less + 1 := ⟨fuel - 1, by omega⟩
    rw [Parse.expression, hread less (by omega) rest (hstops.follows _)]
    simp only [Option.bind_eq_bind, Option.bind_some, hstops.noOperator]

theorem Parse.operatorAhead_append {operator : Operator} (hoperator : operator.Legible)
    (rest : List Char) :
    operatorAhead (" ".toList ++ (operator.spelling.toList ++ (" ".toList ++ rest))) =
      some (operator.canonical, rest) := by
  obtain ⟨hnonempty, hsymbols⟩ := hoperator
  -- the blank behind the operator ends it
  have hspace : ∀ c ∈ (" ".toList ++ rest).head?, isOperatorChar c = false := by
    intro c hc
    obtain rfl : ' ' = c := by simpa using hc
    rfl
  have hne : operator.spelling.toList ≠ [] := by simpa using hnonempty
  have htake := takeWhile_append hsymbols hspace
  have hdrop := dropWhile_append hsymbols hspace
  change operatorAhead (' ' :: (operator.spelling.toList ++ (" ".toList ++ rest))) = _
  rw [operatorAhead, htake, hdrop, expect_append]
  split
  · contradiction
  · simp [Terminal.canonical]

/-- Two operands are read one after the other if the first one cannot go on. -/
theorem Expression.IsRead.binary {operator : Operator} {left right : Expression} {span : Span}
    (hoperator : operator.Legible) (hclosed : left.isOpen = false) (hleft : left.IsRead)
    (hright : right.IsRead) : (Expression.binary operator left right span).IsRead := by
  -- without parentheses: the blank before the operator ends the left operand
  have hbranch : ∀ fuel : Nat,
      2 * sizeOf (Expression.binary operator left right span) ≤ fuel + 1 →
      Reads (Follows right.isOpen) (Parse.expression fuel)
        (Expression.binary operator left right span).print
        (Expression.binary operator left right span).canonical := by
    intro fuel hfuel rest hrest
    simp only [Expression.binary.sizeOf_spec] at hfuel
    obtain ⟨less, rfl⟩ : ∃ less, fuel = less + 1 := ⟨fuel - 1, by omega⟩
    have hfollows : ∀ rest, Follows left.isOpen (" ".toList ++ rest) := by
      intro rest
      rw [hclosed]
      simp [Follows, Breaks]
    have hfirst := hleft.asOperand less (by omega)
      (" ".toList ++ (operator.spelling.toList ++ (" ".toList ++
        ((right.bracketed right.print).toList ++ rest)))) (hfollows _)
    have hsecond := hright.asOperand less (by omega) rest hrest
    simp only [Expression.print, String.toList_append, List.append_assoc]
    rw [Parse.expression, hfirst]
    simp only [Option.bind_eq_bind, Option.bind_some, operatorAhead_append hoperator, hsecond]
    rfl
  refine ⟨?_, fun fuel hfuel => hbranch fuel (by omega)⟩
  -- as an operand it has parentheses, so it does not matter what follows
  intro fuel hfuel rest _
  obtain ⟨less, rfl⟩ : ∃ less, fuel = less + 1 := by
    simp only [Expression.binary.sizeOf_spec] at hfuel
    exact ⟨fuel - 1, by omega⟩
  have hclose := stops_of_closes ")" rfl rest
  have hinside := hbranch less hfuel (")".toList ++ rest) (hclose.follows _)
  have hbetween := between_append "(" ")" hinside
  simp only [Expression.bracketed, String.toList_append, List.append_assoc]
  exact hbetween

/-! ## Sequences -/

/-- The parts of a sequence are read if each of them is. -/
theorem Parse.items_parts {α : Type} {parser : Parser α} {print : α → String} {canonical : α → α}
    {parts : List α} {rest : List Char}
    (hparts : ∀ part ∈ parts, Reads Stops parser (print part) (canonical part))
    (hne : parts ≠ []) (hrest : Stops rest) (hend : expect "; " rest = none) :
    items "; " parser ((String.intercalate "; " (parts.map print)).toList ++ rest) =
      some (parts.map canonical, rest) := by
  have hitems : List.Forall₂ (Reads Stops parser) (parts.map print) (parts.map canonical) := by
    rw [List.forall₂_map_left_iff, List.forall₂_map_right_iff, List.forall₂_same]
    exact hparts
  exact items_intercalate rfl hrest hend (by simpa using hne) hitems

theorem Parse.sequence_append {parser : Parser Command} {command : Command} {rest : List Char}
    (hparts : ∀ part ∈ command.parts, Reads Stops parser part.print part.canonical)
    (hrest : Stops rest) (hend : expect "; " rest = none) :
    sequence parser (command.print.toList ++ rest) = some (command.canonical, rest) := by
  have hread := items_parts hparts command.parts_ne_nil hrest hend
  rw [command.print_eq_intercalate, sequence, hread, command.canonical_eq_seqAll]
  rfl

theorem Parse.chain_append {parser : Parser Declaration} {declaration : Declaration}
    {rest : List Char}
    (hparts : ∀ part ∈ declaration.parts, Reads Stops parser part.print part.canonical)
    (hrest : Stops rest) (hend : expect "; " rest = none) :
    chain parser (declaration.print.toList ++ rest) = some (declaration.canonical, rest) := by
  have hread := items_parts hparts declaration.parts_ne_nil hrest hend
  rw [declaration.print_eq_intercalate, chain, hread]
  simp only [Option.bind_eq_bind, Option.bind_some, declaration.chain?_parts]
  rfl

/-- The parser reads all parts of a command. -/
def Command.IsRead (command : Command) : Prop :=
  ∀ fuel : Nat, 2 * sizeOf command ≤ fuel → ∀ part ∈ command.parts,
    Reads Stops (Parse.command fuel) part.print part.canonical

/-- The parser reads all parts of a declaration. -/
def Declaration.IsRead (declaration : Declaration) : Prop :=
  ∀ fuel : Nat, 2 * sizeOf declaration ≤ fuel → ∀ part ∈ declaration.parts,
    Reads Stops (Parse.declaration fuel) part.print part.canonical

theorem Command.IsRead.of_single {command : Command} (hsingle : command.parts = [command])
    (hread : ∀ fuel : Nat, 2 * sizeOf command ≤ fuel + 1 →
      Reads Stops (Parse.command (fuel + 1)) command.print command.canonical) :
    command.IsRead := by
  have hpos : 0 < sizeOf command := by cases command <;> simp +arith
  intro fuel hfuel part hpart
  rw [hsingle, List.mem_singleton] at hpart
  subst hpart
  obtain ⟨less, rfl⟩ : ∃ less, fuel = less + 1 := ⟨fuel - 1, by omega⟩
  exact hread less hfuel

theorem Declaration.IsRead.of_single {declaration : Declaration}
    (hsingle : declaration.parts = [declaration])
    (hread : ∀ fuel : Nat, 2 * sizeOf declaration ≤ fuel + 1 →
      Reads Stops (Parse.declaration (fuel + 1)) declaration.print declaration.canonical) :
    declaration.IsRead := by
  have hpos : 0 < sizeOf declaration := by cases declaration <;> simp +arith
  intro fuel hfuel part hpart
  rw [hsingle, List.mem_singleton] at hpart
  subst hpart
  obtain ⟨less, rfl⟩ : ∃ less, fuel = less + 1 := ⟨fuel - 1, by omega⟩
  exact hread less hfuel

theorem Command.IsRead.nested {command : Command} (hread : command.IsRead) {fuel : Nat}
    (hfuel : 2 * sizeOf command + 1 ≤ fuel) :
    Reads Stops (Parse.command fuel) (command.bracketed command.print) command.canonical := by
  cases command with
  | seq first second span =>
      intro rest _
      obtain ⟨less, rfl⟩ : ∃ less, fuel = less + 1 := ⟨fuel - 1, by omega⟩
      -- only a sequence gets `begin` and `end`, and inside them it is read part by part
      have hparts := hread less (by omega)
      have hinside := sequence_append hparts (stops_of_closes " end" rfl rest) rfl
      have hbetween := between_append "begin " " end" hinside
      simp only [Command.bracketed, String.toList_append, List.append_assoc]
      rw [Parse.command, wordAhead_keyword "begin " "begin" rfl rfl, if_neg (by decide),
        if_pos rfl, hbetween]
  | _ => exact hread fuel (by omega) _ (List.mem_singleton.mpr rfl)

/-- A block reads its declarations up to the word that ends them. -/
theorem Declaration.IsRead.between {declaration : Declaration} (hread : declaration.IsRead)
    {fuel : Nat} (hfuel : 2 * sizeOf declaration ≤ fuel) (rest : List Char) :
    Parse.between "let " (chain (Parse.declaration fuel)) " in "
        ("let ".toList ++ (declaration.print.toList ++ (" in ".toList ++ rest))) =
      some (declaration.canonical, rest) :=
  between_append "let " " in "
    (chain_append (hread fuel hfuel) (stops_of_closes " in " rfl rest) rfl)

/-! ## Names and closing brackets -/

theorem Parse.expression_closed : ∀ (fuel : Nat) (rest : List Char),
    Parse.expression fuel (']' :: rest) = none
  | 0, _ | 1, _ | _ + 2, _ => rfl

theorem Parse.argument_closed : ∀ (fuel : Nat) (rest : List Char),
    argument fuel (')' :: rest) = none
  | 0, _ | 1, _ | 2, _ | _ + 3, _ => rfl

theorem Parse.IsName.operand_append {identifier : Identifier} (hname : IsName identifier.spelling)
    {rest : List Char} (hrest : Ends rest) (fuel : Nat) :
    operand (fuel + 1) (identifier.spelling.toList ++ rest) =
      callOrRead (list "(" (argument fuel) ")") (suffixes fuel) identifier.canonical rest := by
  rw [Parse.operand, hname.opening_append, wordAhead_append hname.letters hrest]
  simp only [if_neg (hname.ne_of_mem (show "if" ∈ keywords by decide)),
    if_neg (hname.ne_of_mem (show "let" ∈ keywords by decide)), hname.name_append hrest,
    Option.bind_eq_bind, Option.bind_some]

theorem Parse.IsName.command_append {identifier : Identifier} (hname : IsName identifier.spelling)
    {rest : List Char} (hrest : Ends rest) (fuel : Nat) :
    Parse.command (fuel + 1) (identifier.spelling.toList ++ rest) =
      callOrAssign (list "(" (argument fuel) ")") (suffixes fuel) (Parse.expression fuel)
        identifier.canonical rest := by
  rw [Parse.command, wordAhead_append hname.letters hrest, if_neg hname.nonempty,
    if_neg (hname.ne_of_mem (by decide)), if_neg (hname.ne_of_mem (by decide)),
    if_neg (hname.ne_of_mem (by decide)), if_neg (hname.ne_of_mem (by decide)),
    hname.name_append hrest]
  rfl

/-! ## Every tree that can be read back is -/

mutual

theorem Vname.isRead : ∀ vname : Vname, (Fragment.vname vname).AllReadable → vname.IsRead
  | .simple name _, _ => by
      intro fuel rest _ _
      simp [Vname.depth, Vname.tail, Vname.base, Vname.canonical]
  | .dot base field _, hreadable => by
      intro fuel rest hfuel hrest
      simp only [Vname.dot.sizeOf_spec, Vname.depth] at hfuel
      have hfield : IsName field.spelling := hreadable.leaf ⟨_, field⟩ (by simp)
      have hbase := base.isRead (hreadable.child (.vname base) (by simp)) (fuel + 1)
        (".".toList ++ (field.spelling.toList ++ rest)) (by omega) (ends_append "." rfl _)
      have hstep : suffixes (fuel + 1) base.canonical
          (".".toList ++ (field.spelling.toList ++ rest)) =
            suffixes fuel (.dot base.canonical field.canonical .dummy) rest := by
        rw [suffixes, expect_append]
        simp only [hfield.name_append hrest, Option.bind_eq_bind, Option.bind_some]
      simp only [Vname.tail, Vname.depth, Vname.base, Vname.canonical, String.toList_append,
        List.append_assoc]
      rw [← hstep, ← hbase]
      congr 1
      omega
  | .subscript base index _, hreadable => by
      intro fuel rest hfuel _
      simp only [Vname.subscript.sizeOf_spec, Vname.depth] at hfuel
      have hdepth := base.depth_lt_sizeOf
      have hindex := (index.isRead (hreadable.child (.expression index) (by simp))).alone fuel
        (by omega) ("]".toList ++ rest) (stops_of_closes "]" rfl rest)
      have hbase := base.isRead (hreadable.child (.vname base) (by simp)) (fuel + 1)
        ("[".toList ++ (index.print.toList ++ ("]".toList ++ rest))) (by omega)
        (ends_append "[" rfl _)
      have hstep : suffixes (fuel + 1) base.canonical
          ("[".toList ++ (index.print.toList ++ ("]".toList ++ rest))) =
            suffixes fuel (.subscript base.canonical index.canonical .dummy) rest := by
        -- no field is selected here, so the bracket is tried next
        have hdot : ∀ rest, expect "." ("[".toList ++ rest) = none := fun _ => rfl
        rw [suffixes, hdot, expect_append]
        simp only [hindex, Option.bind_eq_bind, Option.bind_some, expect_append]
      simp only [Vname.tail, Vname.depth, Vname.base, Vname.canonical, String.toList_append,
        List.append_assoc]
      rw [← hstep, ← hbase]
      congr 1
      omega

theorem Expression.isRead : ∀ expression : Expression,
    (Fragment.expression expression).AllReadable → expression.IsRead
  | .empty _, hreadable => by
      have hseparated := (Fragment.everywhere_iff.mp hreadable).1.2 _ rfl
      exact hseparated.elim
  | .integer literal _, hreadable => by
      refine .of_operand (fun _ => rfl) ?_
      intro fuel _ rest hrest
      have hliteral : literal.Legible := hreadable.leaf ⟨_, literal⟩ (by simp)
      have hbreaks : Breaks rest := hrest
      rw [Expression.print, Parse.operand, opening_digits hliteral]
      simp only [leaf_append hliteral.2 hbreaks.notDigit, Option.bind_eq_bind, Option.bind_some]
      rfl
  | .character literal _, hreadable => by
      refine .of_operand (fun _ => rfl) ?_
      intro fuel _ rest _
      obtain ⟨c, hc⟩ : ∃ c, literal.spelling = "'" ++ String.singleton c ++ "'" :=
        hreadable.leaf ⟨_, literal⟩ (by simp)
      have hliteral : literal.Legible := hreadable.leaf ⟨_, literal⟩ (by simp)
      have htext : literal.spelling.toList = ['\'', c, '\''] := by simp [hc]
      have hread : character (literal.spelling.toList ++ rest) =
          some (literal.canonical, rest) := by
        have hspelling : String.ofList ['\'', c, '\''] = literal.spelling := by
          rw [← htext, String.ofList_toList]
        rw [htext, Terminal.canonical, ← hspelling]
        rfl
      rw [Expression.print, Parse.operand, opening_character hliteral]
      simp only [hread, Option.bind_eq_bind, Option.bind_some]
      rfl
  | .read vname _, hreadable => by
      refine .of_operand (fun _ => rfl) ?_
      intro fuel hfuel rest hrest
      simp only [Expression.read.sizeOf_spec] at hfuel
      have hvname := hreadable.child (.vname vname) (by simp)
      have hname := vname.isName_base hvname
      have hbreaks : Breaks rest := hrest
      have hends := vname.ends_tail hbreaks
      have htail := (vname.isRead hvname).reads (show 2 * sizeOf vname ≤ fuel by omega) rest hbreaks
      rw [Expression.print, vname.print_eq, String.toList_append, List.append_assoc,
        hname.operand_append hends, callOrRead, vname.expect_tail hbreaks]
      simp only [htail, Option.bind_eq_bind, Option.bind_some]
      rfl
  | .unary operator operand _, hreadable => by
      refine .of_operand (fun _ => rfl) ?_
      intro fuel hfuel rest hrest
      simp only [Expression.unary.sizeOf_spec] at hfuel
      have hoperator : operator.Legible := hreadable.leaf ⟨_, operator⟩ (by simp)
      have hoperand := (operand.isRead (hreadable.child (.expression operand) (by simp))).asOperand
        fuel (by omega) rest hrest
      -- the symbols of the operator end where the operand begins
      have hunary : operand.isUnary = false := (Fragment.everywhere_iff.mp hreadable).1.2 _ rfl
      have hends := operand.notOperator_bracketed (hreadable.child (.expression operand) (by simp))
        hunary rest
      rw [Expression.print, String.toList_append, List.append_assoc, Parse.operand,
        opening_operator hoperator]
      simp only [leaf_append hoperator.2 hends, hoperand, Option.bind_eq_bind, Option.bind_some]
      rfl
  | .binary operator left right _, hreadable => by
      have hoperator : operator.Legible := hreadable.leaf ⟨_, operator⟩ (by simp)
      have hclosed : left.isOpen = false := (Fragment.everywhere_iff.mp hreadable).1.2 _ rfl
      have hleft := left.isRead (hreadable.child (.expression left) (by simp))
      have hright := right.isRead (hreadable.child (.expression right) (by simp))
      exact .binary hoperator hclosed hleft hright
  | .ifThenElse condition thenBranch elseBranch _, hreadable => by
      refine .of_operand (fun _ => rfl) ?_
      intro fuel hfuel rest hrest
      simp only [Expression.ifThenElse.sizeOf_spec] at hfuel
      have hcondition := (condition.isRead (hreadable.child (.expression condition)
        (by simp))).alone fuel (by omega)
      have hthen := (thenBranch.isRead (hreadable.child (.expression thenBranch)
        (by simp))).alone fuel (by omega)
      -- what may follow the conditional is what may follow its last branch
      have helse := (elseBranch.isRead (hreadable.child (.expression elseBranch)
        (by simp))).asBranch fuel (by omega) rest hrest
      have hthen' := hthen (" else ".toList ++ (elseBranch.print.toList ++ rest))
        (stops_of_closes " else " rfl _)
      have hif := between_append "if " " then " (hcondition (" then ".toList ++
        (thenBranch.print.toList ++ (" else ".toList ++ (elseBranch.print.toList ++ rest))))
        (stops_of_closes " then " rfl _))
      simp only [Expression.print, String.toList_append, List.append_assoc]
      have hopening : ∀ rest, opening ("if ".toList ++ rest) = .word := fun _ => rfl
      rw [Parse.operand, hopening, wordAhead_keyword "if " "if" rfl rfl]
      simp only [↓reduceIte, hif, hthen', expect_append, helse, Option.bind_eq_bind,
        Option.bind_some]
      rfl
  | .letIn declaration body _, hreadable => by
      refine .of_operand (fun _ => rfl) ?_
      intro fuel hfuel rest hrest
      simp only [Expression.letIn.sizeOf_spec] at hfuel
      have hdeclaration := (declaration.isRead (hreadable.child (.declaration declaration)
        (by simp))).between (show 2 * sizeOf declaration ≤ fuel by omega)
        (body.print.toList ++ rest)
      have hbody := (body.isRead (hreadable.child (.expression body) (by simp))).asBranch fuel
        (by omega) rest hrest
      have hopening : ∀ rest, opening ("let ".toList ++ rest) = .word := fun _ => rfl
      simp only [Expression.print, String.toList_append, List.append_assoc]
      rw [Parse.operand, hopening, wordAhead_keyword "let " "let" rfl rfl]
      simp only [if_neg (show "let" ≠ "if" by decide), ↓reduceIte, hdeclaration, hbody,
        Option.bind_eq_bind, Option.bind_some]
      rfl
  | .call function arguments _, hreadable => by
      refine .of_operand (fun _ => rfl) ?_
      intro fuel hfuel rest _
      simp only [Expression.call.sizeOf_spec] at hfuel
      have hname : IsName function.spelling := hreadable.leaf ⟨_, function⟩ (by simp)
      have harguments := ActualParameter.readsAll arguments fuel
        (fun argument hargument => hreadable.child _ (List.mem_map_of_mem hargument)) (by omega)
      have hlist := list_append "(" ")" rfl (fun _ => rfl) (argument_closed fuel) harguments rest
      simp only [Expression.print, String.toList_append, List.append_assoc]
      rw [hname.operand_append (ends_append "(" rfl _), callOrRead, expect_append]
      simp only [hlist, Option.bind_eq_bind, Option.bind_some]
      rfl
  | .array elements _, hreadable => by
      refine .of_operand (fun _ => rfl) ?_
      intro fuel hfuel rest _
      simp only [Expression.array.sizeOf_spec] at hfuel
      have helements := Expression.readsAll elements fuel
        (fun element helement => hreadable.child _ (List.mem_map_of_mem helement)) (by omega)
      have hlist := list_append "[" "]" rfl (fun _ => rfl) (expression_closed fuel) helements rest
      have hopening : ∀ rest, opening ("[".toList ++ rest) = .bracket := fun _ => rfl
      simp only [Expression.print, String.toList_append, List.append_assoc]
      rw [Parse.operand, hopening]
      simp only [hlist, Option.bind_eq_bind, Option.bind_some]
      rfl
  | .record fields _, hreadable => by
      refine .of_operand (fun _ => rfl) ?_
      intro fuel hfuel rest _
      simp only [Expression.record.sizeOf_spec] at hfuel
      have hnames : ∀ field ∈ fields, IsName field.1.spelling :=
        fun field hfield => hreadable.leaf ⟨_, field.1⟩ (List.mem_map_of_mem hfield)
      have hvalues : ∀ field ∈ fields, (Fragment.expression field.2).AllReadable :=
        fun field hfield => hreadable.child _ (List.mem_map_of_mem hfield)
      have hfields := Expression.readsFields fields fuel hnames hvalues (by omega)
      have hlist := list_append "\x7b" "\x7d" rfl (fun _ => rfl) (fun _ => rfl) hfields rest
      have hopening : ∀ rest, opening ("\x7b".toList ++ rest) = .brace := fun _ => rfl
      simp only [Expression.print, String.toList_append, List.append_assoc]
      rw [Parse.operand, hopening]
      simp only [hlist, Option.bind_eq_bind, Option.bind_some]
      rfl

theorem Expression.readsAll : ∀ (elements : List Expression) (fuel : Nat),
    (∀ element ∈ elements, (Fragment.expression element).AllReadable) →
    2 * sizeOf elements + 1 ≤ fuel →
    List.Forall₂ (Reads Stops (Parse.expression fuel)) (Expression.printAll elements)
      (Expression.canonicalAll elements)
  | [], _, _, _ => .nil
  | element :: rest, fuel, hreadable, hfuel => by
      simp only [List.cons.sizeOf_spec] at hfuel
      obtain ⟨helement, hothers⟩ := List.forall_mem_cons.mp hreadable
      have hfirst := (element.isRead helement).alone fuel (by omega)
      have hlater := Expression.readsAll rest fuel hothers (by omega)
      exact .cons hfirst hlater

theorem Expression.readsFields : ∀ (fields : List (Identifier × Expression)) (fuel : Nat),
    (∀ field ∈ fields, IsName field.1.spelling) →
    (∀ field ∈ fields, (Fragment.expression field.2).AllReadable) →
    2 * sizeOf fields + 1 ≤ fuel →
    List.Forall₂ (Reads Stops (Parse.field " ~ " (Parse.expression fuel)))
      (Expression.printFields fields) (Expression.canonicalFields fields)
  | [], _, _, _, _ => .nil
  | (name, value) :: rest, fuel, hnames, hvalues, hfuel => by
      simp only [List.cons.sizeOf_spec, Prod.mk.sizeOf_spec] at hfuel
      obtain ⟨hname, hothers⟩ := List.forall_mem_cons.mp hnames
      obtain ⟨hvalue, hrest⟩ := List.forall_mem_cons.mp hvalues
      have hfirst := (value.isRead hvalue).alone fuel (by omega)
      have hlater := Expression.readsFields rest fuel hothers hrest (by omega)
      exact .cons (field_append " ~ " hname rfl hfirst) hlater

theorem ActualParameter.reads : ∀ (argument : ActualParameter) (fuel : Nat),
    (Fragment.argument argument).AllReadable → 2 * sizeOf argument ≤ fuel →
    Reads Stops (Parse.argument fuel) argument.print argument.canonical
  | .const value, fuel, hreadable, hfuel => by
      simp only [ActualParameter.const.sizeOf_spec] at hfuel
      obtain ⟨less, rfl⟩ : ∃ less, fuel = less + 1 := ⟨fuel - 1, by omega⟩
      have hvalue := hreadable.child (.expression value) (by simp)
      intro rest hrest
      have hword := value.wordAhead_notMem hvalue hrest.breaks
      simp only [List.mem_cons, List.not_mem_nil, or_false, not_or] at hword
      rw [ActualParameter.print, Parse.argument, if_neg hword.1, if_neg hword.2.1,
        if_neg hword.2.2, (value.isRead hvalue).alone less (by omega) rest hrest]
      rfl
  | .var vname, fuel, hreadable, hfuel => by
      simp only [ActualParameter.var.sizeOf_spec] at hfuel
      obtain ⟨less, rfl⟩ : ∃ less, fuel = less + 1 := ⟨fuel - 1, by omega⟩
      have hvname := hreadable.child (.vname vname) (by simp)
      have hname := vname.isName_base hvname
      intro rest hrest
      have htail := (vname.isRead hvname).reads (show 2 * sizeOf vname ≤ less by omega) rest
        hrest.breaks
      simp only [ActualParameter.print, vname.print_eq, String.toList_append, List.append_assoc]
      rw [Parse.argument, wordAhead_keyword "var " "var" rfl rfl, if_pos rfl]
      simp only [expect_append, hname.name_append (vname.ends_tail hrest.breaks), htail,
        Option.bind_eq_bind, Option.bind_some]
      rfl
  | .proc name, fuel, hreadable, hfuel => by
      simp only [ActualParameter.proc.sizeOf_spec] at hfuel
      obtain ⟨less, rfl⟩ : ∃ less, fuel = less + 1 := ⟨fuel - 1, by omega⟩
      have hname : IsName name.spelling := hreadable.leaf ⟨_, name⟩ (by simp)
      intro rest hrest
      simp only [ActualParameter.print, String.toList_append, List.append_assoc]
      rw [Parse.argument, wordAhead_keyword "proc " "proc" rfl rfl, if_neg (by decide),
        if_pos rfl]
      simp only [expect_append, hname.name_append hrest.breaks.ends, Option.bind_eq_bind,
        Option.bind_some]
      rfl
  | .func name, fuel, hreadable, hfuel => by
      simp only [ActualParameter.func.sizeOf_spec] at hfuel
      obtain ⟨less, rfl⟩ : ∃ less, fuel = less + 1 := ⟨fuel - 1, by omega⟩
      have hname : IsName name.spelling := hreadable.leaf ⟨_, name⟩ (by simp)
      intro rest hrest
      simp only [ActualParameter.print, String.toList_append, List.append_assoc]
      rw [Parse.argument, wordAhead_keyword "func " "func" rfl rfl, if_neg (by decide),
        if_neg (by decide), if_pos rfl]
      simp only [expect_append, hname.name_append hrest.breaks.ends, Option.bind_eq_bind,
        Option.bind_some]
      rfl

theorem ActualParameter.readsAll : ∀ (arguments : List ActualParameter) (fuel : Nat),
    (∀ argument ∈ arguments, (Fragment.argument argument).AllReadable) →
    2 * sizeOf arguments ≤ fuel →
    List.Forall₂ (Reads Stops (Parse.argument fuel)) (ActualParameter.printAll arguments)
      (ActualParameter.canonicalAll arguments)
  | [], _, _, _ => .nil
  | argument :: rest, fuel, hreadable, hfuel => by
      simp only [List.cons.sizeOf_spec] at hfuel
      obtain ⟨hargument, hothers⟩ := List.forall_mem_cons.mp hreadable
      have hfirst := argument.reads fuel hargument (by omega)
      have hlater := ActualParameter.readsAll rest fuel hothers (by omega)
      exact .cons hfirst hlater

theorem Declaration.isRead : ∀ declaration : Declaration,
    (Fragment.declaration declaration).AllReadable → declaration.IsRead
  | .const name value _, hreadable => by
      refine .of_single rfl ?_
      intro fuel hfuel rest hrest
      simp only [Declaration.const.sizeOf_spec] at hfuel
      have hname : IsName name.spelling := hreadable.leaf ⟨_, name⟩ (by simp)
      have hvalue := (value.isRead (hreadable.child (.expression value) (by simp))).alone fuel
        (by omega)
      have hfield := field_append " ~ " hname rfl hvalue rest hrest
      simp only [Declaration.print, String.toList_append, List.append_assoc] at hfield ⊢
      rw [Parse.declaration, wordAhead_keyword "const " "const" rfl rfl, if_pos rfl]
      simp only [expect_append, hfield, Option.bind_eq_bind, Option.bind_some]
      rfl
  | .var name type _, hreadable => by
      refine .of_single rfl ?_
      intro fuel hfuel rest hrest
      simp only [Declaration.var.sizeOf_spec] at hfuel
      have hname : IsName name.spelling := hreadable.leaf ⟨_, name⟩ (by simp)
      have htype : Reads Stops (Parse.type fuel) type.print type.canonical :=
        type.reads (hreadable.child (.type type) (by simp)) (by omega)
      have hfield := field_append " : " hname rfl htype rest hrest
      simp only [Declaration.print, String.toList_append, List.append_assoc] at hfield ⊢
      rw [Parse.declaration, wordAhead_keyword "var " "var" rfl rfl, if_neg (by decide),
        if_pos rfl]
      simp only [expect_append, hfield, Option.bind_eq_bind, Option.bind_some]
      rfl
  | .proc name parameters body _, hreadable => by
      refine .of_single rfl ?_
      intro fuel hfuel rest hrest
      simp only [Declaration.proc.sizeOf_spec] at hfuel
      have hname : IsName name.spelling := hreadable.leaf ⟨_, name⟩ (by simp)
      have hparameters := FormalParameter.readsAll parameters
        (fun parameter hparameter => hreadable.child _
          (List.mem_append_left _ (List.mem_map_of_mem hparameter)))
        (show sizeOf parameters ≤ fuel by omega)
      have hbody := (body.isRead (hreadable.child (.command body) (by simp))).nested
        (show 2 * sizeOf body + 1 ≤ fuel by omega) rest hrest
      have hlist := list_append "(" ")" rfl (fun _ => rfl) (parameter_closed fuel) hparameters
        (" ~ ".toList ++ ((body.bracketed body.print).toList ++ rest))
      simp only [Declaration.print, FormalParameter.printList, String.toList_append,
        List.append_assoc]
      rw [Parse.declaration, wordAhead_keyword "proc " "proc" rfl rfl, if_neg (by decide),
        if_neg (by decide), if_pos rfl]
      simp only [expect_append, hname.name_append (ends_append "(" rfl _), hlist, hbody,
        Option.bind_eq_bind, Option.bind_some]
      rfl
  | .func name parameters result body _, hreadable => by
      refine .of_single rfl ?_
      intro fuel hfuel rest hrest
      simp only [Declaration.func.sizeOf_spec] at hfuel
      have hname : IsName name.spelling := hreadable.leaf ⟨_, name⟩ (by simp)
      have hparameters := FormalParameter.readsAll parameters
        (fun parameter hparameter => hreadable.child _
          (List.mem_append_left _ (List.mem_map_of_mem hparameter)))
        (show sizeOf parameters ≤ fuel by omega)
      have hresult : Reads Stops (Parse.type fuel) result.print result.canonical :=
        result.reads (hreadable.child (.type result) (by simp)) (by omega)
      have hbody := (body.isRead (hreadable.child (.expression body) (by simp))).alone fuel
        (by omega) rest hrest
      have hlist := list_append "(" ")" rfl (fun _ => rfl) (parameter_closed fuel) hparameters
        (" : ".toList ++ (result.print.toList ++ (" ~ ".toList ++ (body.print.toList ++ rest))))
      have hbetween := between_append " : " " ~ " (hresult (" ~ ".toList ++
        (body.print.toList ++ rest)) (stops_of_closes " ~ " rfl _))
      simp only [Declaration.print, FormalParameter.printList, String.toList_append,
        List.append_assoc]
      rw [Parse.declaration, wordAhead_keyword "func " "func" rfl rfl, if_neg (by decide),
        if_neg (by decide), if_neg (by decide), if_pos rfl]
      simp only [expect_append, hname.name_append (ends_append "(" rfl _), hlist, hbetween, hbody,
        Option.bind_eq_bind, Option.bind_some]
      rfl
  | .type name type _, hreadable => by
      refine .of_single rfl ?_
      intro fuel hfuel rest hrest
      simp only [Declaration.type.sizeOf_spec] at hfuel
      have hname : IsName name.spelling := hreadable.leaf ⟨_, name⟩ (by simp)
      have htype : Reads Stops (Parse.type fuel) type.print type.canonical :=
        type.reads (hreadable.child (.type type) (by simp)) (by omega)
      have hfield := field_append " ~ " hname rfl htype rest hrest
      simp only [Declaration.print, String.toList_append, List.append_assoc] at hfield ⊢
      rw [Parse.declaration, wordAhead_keyword "type " "type" rfl rfl, if_neg (by decide),
        if_neg (by decide), if_neg (by decide), if_neg (by decide), if_pos rfl]
      simp only [expect_append, hfield, Option.bind_eq_bind, Option.bind_some]
      rfl
  | .unaryOperator operator argument result _, hreadable => by
      refine .of_single rfl ?_
      intro fuel hfuel rest hrest
      simp only [Declaration.unaryOperator.sizeOf_spec] at hfuel
      have hoperator : operator.Legible := hreadable.leaf ⟨_, operator⟩ (by simp)
      have hargument : Reads Stops (Parse.type fuel) argument.print argument.canonical :=
        argument.reads (hreadable.child (.type argument) (by simp)) (by omega)
      have hresult : Reads Stops (Parse.type fuel) result.print result.canonical :=
        result.reads (hreadable.child (.type result) (by simp)) (by omega)
      have hfirst := hargument (") : ".toList ++ (result.print.toList ++ rest))
        (stops_of_closes ") : " rfl _)
      -- a comma in this place would start a second argument
      have hcomma : ∀ rest, expect ", " (") : ".toList ++ rest) = none := fun _ => rfl
      simp only [Declaration.print, String.toList_append, List.append_assoc]
      rw [Parse.declaration, wordAhead_keyword "operator " "operator" rfl rfl,
        if_neg (by decide), if_neg (by decide), if_neg (by decide), if_neg (by decide),
        if_neg (by decide)]
      simp only [expect_append, leaf_append hoperator.2 (notOperator_parenthesis _), hfirst,
        hcomma, hresult rest hrest, Option.bind_eq_bind, Option.bind_some]
      rfl
  | .binaryOperator operator left right result _, hreadable => by
      refine .of_single rfl ?_
      intro fuel hfuel rest hrest
      simp only [Declaration.binaryOperator.sizeOf_spec] at hfuel
      have hoperator : operator.Legible := hreadable.leaf ⟨_, operator⟩ (by simp)
      have hleft : Reads Stops (Parse.type fuel) left.print left.canonical :=
        left.reads (hreadable.child (.type left) (by simp)) (by omega)
      have hright : Reads Stops (Parse.type fuel) right.print right.canonical :=
        right.reads (hreadable.child (.type right) (by simp)) (by omega)
      have hresult : Reads Stops (Parse.type fuel) result.print result.canonical :=
        result.reads (hreadable.child (.type result) (by simp)) (by omega)
      have hfirst := hleft (", ".toList ++ (right.print.toList ++ (") : ".toList ++
        (result.print.toList ++ rest)))) (stops_of_closes ", " rfl _)
      have hsecond := hright (") : ".toList ++ (result.print.toList ++ rest))
        (stops_of_closes ") : " rfl _)
      simp only [Declaration.print, String.toList_append, List.append_assoc]
      rw [Parse.declaration, wordAhead_keyword "operator " "operator" rfl rfl,
        if_neg (by decide), if_neg (by decide), if_neg (by decide), if_neg (by decide),
        if_neg (by decide)]
      simp only [expect_append, leaf_append hoperator.2 (notOperator_parenthesis _), hfirst,
        hsecond, hresult rest hrest, Option.bind_eq_bind, Option.bind_some]
      rfl
  | .seq first second _, hreadable => by
      intro fuel hfuel
      simp only [Declaration.seq.sizeOf_spec] at hfuel
      have hfirst := first.isRead (hreadable.child (.declaration first) (by simp)) fuel (by omega)
      have hsecond := second.isRead (hreadable.child (.declaration second) (by simp)) fuel
        (by omega)
      exact List.forall_mem_append.mpr ⟨hfirst, hsecond⟩

theorem Command.isRead : ∀ command : Command, (Fragment.command command).AllReadable →
    command.IsRead
  | .assign target value _, hreadable => by
      refine .of_single rfl ?_
      intro fuel hfuel rest hrest
      simp only [Command.assign.sizeOf_spec] at hfuel
      have htarget := hreadable.child (.vname target) (by simp)
      have hname := target.isName_base htarget
      have hbreaks := (stops_of_closes " := " rfl (value.print.toList ++ rest)).breaks
      have htail := (target.isRead htarget).reads (show 2 * sizeOf target ≤ fuel by omega) _ hbreaks
      have hvalue := (value.isRead (hreadable.child (.expression value) (by simp))).alone fuel
        (by omega) rest hrest
      simp only [Command.print, target.print_eq, String.toList_append, List.append_assoc]
      rw [hname.command_append (target.ends_tail hbreaks), callOrAssign,
        target.expect_tail hbreaks]
      simp only [htail, expect_append, hvalue, Option.bind_eq_bind, Option.bind_some]
      rfl
  | .call procedure arguments _, hreadable => by
      refine .of_single rfl ?_
      intro fuel hfuel rest _
      simp only [Command.call.sizeOf_spec] at hfuel
      have hname : IsName procedure.spelling := hreadable.leaf ⟨_, procedure⟩ (by simp)
      have harguments := ActualParameter.readsAll arguments fuel
        (fun argument hargument => hreadable.child _ (List.mem_map_of_mem hargument)) (by omega)
      have hlist := list_append "(" ")" rfl (fun _ => rfl) (argument_closed fuel) harguments rest
      simp only [Command.print, String.toList_append, List.append_assoc]
      rw [hname.command_append (ends_append "(" rfl _), callOrAssign, expect_append]
      simp only [hlist, Option.bind_eq_bind, Option.bind_some]
      rfl
  | .skip _, _ => by
      refine .of_single rfl ?_
      -- nothing is printed, so what comes next must not look like a command
      intro fuel _ rest hrest
      rw [Command.print, String.toList_empty, List.nil_append, Parse.command,
        wordAhead_of_ends hrest.breaks.ends, if_pos rfl]
      rfl
  | .ifThenElse condition thenBranch elseBranch _, hreadable => by
      refine .of_single rfl ?_
      intro fuel hfuel rest hrest
      simp only [Command.ifThenElse.sizeOf_spec] at hfuel
      have hcondition := (condition.isRead (hreadable.child (.expression condition)
        (by simp))).alone fuel (by omega)
      have hthen := (thenBranch.isRead (hreadable.child (.command thenBranch) (by simp))).nested
        (show 2 * sizeOf thenBranch + 1 ≤ fuel by omega)
      have helse := (elseBranch.isRead (hreadable.child (.command elseBranch) (by simp))).nested
        (show 2 * sizeOf elseBranch + 1 ≤ fuel by omega) rest hrest
      have hthen' := hthen (" else ".toList ++
        ((elseBranch.bracketed elseBranch.print).toList ++ rest)) (stops_of_closes " else " rfl _)
      have hif := between_append "if " " then " (hcondition (" then ".toList ++
        ((thenBranch.bracketed thenBranch.print).toList ++ (" else ".toList ++
          ((elseBranch.bracketed elseBranch.print).toList ++ rest))))
        (stops_of_closes " then " rfl _))
      simp only [Command.print, String.toList_append, List.append_assoc]
      rw [Parse.command, wordAhead_keyword "if " "if" rfl rfl, if_neg (by decide),
        if_neg (by decide), if_pos rfl]
      simp only [hif, hthen', expect_append, helse, Option.bind_eq_bind, Option.bind_some]
      rfl
  | .letIn declaration body _, hreadable => by
      refine .of_single rfl ?_
      intro fuel hfuel rest hrest
      simp only [Command.letIn.sizeOf_spec] at hfuel
      have hdeclaration := (declaration.isRead (hreadable.child (.declaration declaration)
        (by simp))).between (show 2 * sizeOf declaration ≤ fuel by omega)
        ((body.bracketed body.print).toList ++ rest)
      have hbody := (body.isRead (hreadable.child (.command body) (by simp))).nested
        (show 2 * sizeOf body + 1 ≤ fuel by omega) rest hrest
      simp only [Command.print, String.toList_append, List.append_assoc]
      rw [Parse.command, wordAhead_keyword "let " "let" rfl rfl, if_neg (by decide),
        if_neg (by decide), if_neg (by decide), if_pos rfl]
      simp only [hdeclaration, hbody, Option.bind_eq_bind, Option.bind_some]
      rfl
  | .seq first second _, hreadable => by
      intro fuel hfuel
      simp only [Command.seq.sizeOf_spec] at hfuel
      have hfirst := first.isRead (hreadable.child (.command first) (by simp)) fuel (by omega)
      have hsecond := second.isRead (hreadable.child (.command second) (by simp)) fuel (by omega)
      exact List.forall_mem_append.mpr ⟨hfirst, hsecond⟩
  | .whileDo condition body _, hreadable => by
      refine .of_single rfl ?_
      intro fuel hfuel rest hrest
      simp only [Command.whileDo.sizeOf_spec] at hfuel
      have hcondition := (condition.isRead (hreadable.child (.expression condition)
        (by simp))).alone fuel (by omega)
      have hbody := (body.isRead (hreadable.child (.command body) (by simp))).nested
        (show 2 * sizeOf body + 1 ≤ fuel by omega) rest hrest
      have hwhile := between_append "while " " do " (hcondition (" do ".toList ++
        ((body.bracketed body.print).toList ++ rest)) (stops_of_closes " do " rfl _))
      simp only [Command.print, String.toList_append, List.append_assoc]
      rw [Parse.command, wordAhead_keyword "while " "while" rfl rfl, if_neg (by decide),
        if_neg (by decide), if_neg (by decide), if_neg (by decide), if_pos rfl]
      simp only [hwhile, hbody, Option.bind_eq_bind, Option.bind_some]
      rfl

end

end LoopHoist
