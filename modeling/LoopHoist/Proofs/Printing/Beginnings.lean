import LoopHoist.Analysis.Names
import LoopHoist.Proofs.Printing.Reading

/-!
# How texts begin

What a parser does is decided by the front of the text that is left.  This file says what that is
for value names and expressions: which character the text of an operand can start with, so that an
operator symbol before it ends where it should, and which words the text of an expression does not
start with, so that it is not taken for an argument of another sort.

A value name starts with a name, and what stands after the name is its `Vname.tail`.
-/

namespace LoopHoist

open Parse

/-! ## Value names -/

/-- The fields and indices of a value name as they are printed. -/
def Vname.tail : Vname → String
  | .simple .. => ""
  | .dot base field _ => base.tail ++ "." ++ field.spelling
  | .subscript base index _ => base.tail ++ "[" ++ index.print ++ "]"

theorem Vname.print_eq (vname : Vname) : vname.print = vname.base.spelling ++ vname.tail := by
  cases vname with
  | simple => simp [Vname.print, Vname.base, Vname.tail]
  | dot base | subscript base =>
      simp only [Vname.print, Vname.base, Vname.tail, base.print_eq, String.append_assoc]

theorem Vname.isName_base : ∀ vname : Vname, (Fragment.vname vname).AllReadable →
    IsName vname.base.spelling
  | .simple name _, hreadable => hreadable.leaf ⟨_, name⟩ (by simp)
  | .dot base _ _, hreadable | .subscript base _ _, hreadable => by
      have hbase := hreadable.child (.vname base) (by simp)
      exact base.isName_base hbase

/-- What can stand after the name at the front of a value name. -/
theorem Vname.head_tail : ∀ (vname : Vname) {rest : List Char} {c : Char},
    c ∈ (vname.tail.toList ++ rest).head? → c = '.' ∨ c = '[' ∨ c ∈ rest.head?
  | .simple .., _, _, hc => .inr (.inr (by simpa [Vname.tail] using hc))
  | .dot base field _, rest, c, hc => by
      have hbase : c ∈ (base.tail.toList ++ '.' :: (field.spelling.toList ++ rest)).head? := by
        simpa [Vname.tail] using hc
      -- the base is printed first, and if it has no tail this field comes first
      rcases base.head_tail hbase with hdot | hbracket | hhead
      · exact .inl hdot
      · exact .inr (.inl hbracket)
      · exact .inl (by simpa using hhead.symm)
  | .subscript base index _, rest, c, hc => by
      have hbase : c ∈ (base.tail.toList ++ '[' :: (index.print.toList ++ ']' :: rest)).head? := by
        simpa [Vname.tail] using hc
      rcases base.head_tail hbase with hdot | hbracket | hhead
      · exact .inl hdot
      · exact .inr (.inl hbracket)
      · exact .inr (.inl (by simpa using hhead.symm))

theorem Vname.ends_tail (vname : Vname) {rest : List Char} (hrest : Breaks rest) :
    Ends (vname.tail.toList ++ rest) := by
  intro c hc
  rcases vname.head_tail hc with rfl | rfl | hhead
  · rfl
  · rfl
  · exact hrest.ends c hhead

theorem Vname.expect_tail (vname : Vname) {rest : List Char} (hrest : Breaks rest) :
    expect "(" (vname.tail.toList ++ rest) = none := by
  have hhead : ∀ c ∈ (vname.tail.toList ++ rest).head?, c ≠ '(' := by
    intro c hc
    rcases vname.head_tail hc with rfl | rfl | hhead
    · decide
    · decide
    · rintro rfl
      have hmem := hrest _ hhead
      revert hmem
      decide
  cases hlist : vname.tail.toList ++ rest with
  | nil => rfl
  | cons c cs =>
      have hc : '(' ≠ c := (hhead c (by simp [hlist])).symm
      simp [expect, List.isPrefixOf?, hc]

/-! ## First characters -/

theorem Parse.opening_digits {literal : IntegerLiteral} (hliteral : literal.Legible)
    (rest : List Char) : opening (literal.spelling.toList ++ rest) = .digit := by
  obtain ⟨hnonempty, hdigits⟩ := hliteral
  cases hlist : literal.spelling.toList with
  | nil => exact absurd (by simpa using hlist) hnonempty
  | cons c cs =>
      have hdigit : c.isDigit = true := hdigits c (by simp [hlist])
      have hquote : c ≠ '\'' := by rintro rfl; cases hdigit
      have hparenthesis : c ≠ '(' := by rintro rfl; cases hdigit
      have hbracket : c ≠ '[' := by rintro rfl; cases hdigit
      have hbrace : c ≠ '\x7b' := by rintro rfl; cases hdigit
      simp [opening, hdigit, hquote, hparenthesis, hbracket, hbrace]

theorem Parse.opening_character {literal : CharacterLiteral} (hliteral : literal.Legible)
    (rest : List Char) : opening (literal.spelling.toList ++ rest) = .quote := by
  obtain ⟨c, hc⟩ := hliteral
  simp only [hc, String.toList_append, List.append_assoc]
  rfl

/-- What holds of each operator symbol. -/
theorem Parse.of_isOperatorChar (p : Char → Prop) [DecidablePred p]
    (hall : "+-*/=<>\\&@%^?".toList.all (fun c => decide (p c)) = true) {c : Char}
    (hc : isOperatorChar c = true) : p c := by
  have hmem : c ∈ "+-*/=<>\\&@%^?".toList := by simpa [isOperatorChar] using hc
  exact of_decide_eq_true (List.all_eq_true.mp hall c hmem)

theorem Parse.opening_of_isOperatorChar {c : Char} (hc : isOperatorChar c = true)
    (rest : List Char) : opening (c :: rest) = .operator :=
  of_isOperatorChar (fun c => opening [c] = .operator) rfl hc

theorem Parse.opening_operator {operator : Operator} (hoperator : operator.Legible)
    (rest : List Char) : opening (operator.spelling.toList ++ rest) = .operator := by
  obtain ⟨hnonempty, hsymbols⟩ := hoperator
  cases hlist : operator.spelling.toList with
  | nil => exact absurd (by simpa using hlist) hnonempty
  | cons c cs => exact opening_of_isOperatorChar (hsymbols c (by simp [hlist])) _

/-- An operand that is not unary does not start with an operator symbol. -/
theorem Expression.opening_bracketed (expression : Expression)
    (hreadable : (Fragment.expression expression).AllReadable)
    (hunary : expression.isUnary = false) (rest : List Char) :
    opening ((expression.bracketed expression.print).toList ++ rest) ≠ .operator := by
  cases expression with
  | empty _ => exact ((Fragment.everywhere_iff.mp hreadable).1.2 _ rfl).elim
  | integer literal _ =>
      have hliteral : literal.Legible := hreadable.leaf ⟨_, literal⟩ (by simp)
      rw [Expression.bracketed, Expression.print, opening_digits hliteral]
      all_goals simp
  | character literal _ =>
      have hliteral : literal.Legible := hreadable.leaf ⟨_, literal⟩ (by simp)
      rw [Expression.bracketed, Expression.print, opening_character hliteral]
      all_goals simp
  | read vname _ =>
      have hname := vname.isName_base (hreadable.child (.vname vname) (by simp))
      rw [Expression.bracketed, Expression.print, vname.print_eq, String.toList_append,
        List.append_assoc, hname.opening_append]
      all_goals simp
  | unary => cases hunary
  | call function _ _ =>
      have hname : IsName function.spelling := hreadable.leaf ⟨_, function⟩ (by simp)
      simp only [Expression.bracketed, Expression.print, String.toList_append, List.append_assoc]
      rw [hname.opening_append]
      simp
  | binary | ifThenElse | letIn | array | record =>
      simp only [Expression.bracketed, Expression.print, String.toList_append, List.append_assoc]
      exact nofun

theorem Expression.notOperator_bracketed (expression : Expression)
    (hreadable : (Fragment.expression expression).AllReadable)
    (hunary : expression.isUnary = false) (rest : List Char) :
    ∀ c ∈ ((expression.bracketed expression.print).toList ++ rest).head?,
      isOperatorChar c = false := by
  have hopening := expression.opening_bracketed hreadable hunary rest
  intro c hc
  cases hlist : (expression.bracketed expression.print).toList ++ rest with
  | nil => simp [hlist] at hc
  | cons first later =>
      obtain rfl : first = c := by simpa [hlist] using hc
      by_contra hsymbol
      rw [hlist] at hopening
      exact hopening (opening_of_isOperatorChar (by simpa using hsymbol) later)

theorem Parse.notOperator_parenthesis (rest : List Char) :
    ∀ c ∈ (" (".toList ++ rest).head?, isOperatorChar c = false := by
  intro c hc
  obtain rfl : ' ' = c := by simpa using hc
  rfl

/-! ## First words -/

theorem Parse.not_isWordChar_of_isOperatorChar {c : Char} (hc : isOperatorChar c = true) :
    isWordChar c = false :=
  of_isOperatorChar (fun c => isWordChar c = false) rfl hc

theorem Parse.ends_operator {operator : Operator} (hoperator : operator.Legible)
    (rest : List Char) : Ends (operator.spelling.toList ++ rest) := by
  obtain ⟨hnonempty, hsymbols⟩ := hoperator
  cases hlist : operator.spelling.toList with
  | nil => exact absurd (by simpa using hlist) hnonempty
  | cons c cs =>
      intro c' hc'
      obtain rfl : c = c' := by simpa using hc'
      exact not_isWordChar_of_isOperatorChar (hsymbols c (by simp [hlist]))

theorem Expression.bracketed_cases (expression : Expression) :
    (∀ text, expression.bracketed text = text) ∨
      ∀ text, expression.bracketed text = "(" ++ text ++ ")" := by
  cases expression with
  | binary => exact .inr fun _ => rfl
  | _ => exact .inl fun _ => rfl

theorem Parse.IsName.notMem {word : String} (hname : IsName word) :
    word ∉ ["var", "proc", "func"] := by
  have hvar : word ≠ "var" := hname.ne_of_mem (by decide)
  have hproc : word ≠ "proc" := hname.ne_of_mem (by decide)
  have hfunc : word ≠ "func" := hname.ne_of_mem (by decide)
  simp [hvar, hproc, hfunc]

/-- No expression starts like an argument of another sort. -/
theorem Expression.wordAhead_notMem : ∀ expression : Expression,
    (Fragment.expression expression).AllReadable → ∀ {rest : List Char}, Breaks rest →
    wordAhead (expression.print.toList ++ rest) ∉ ["var", "proc", "func"]
  | .empty _, hreadable, _, _ => by
      have hseparated := (Fragment.everywhere_iff.mp hreadable).1.2 _ rfl
      exact hseparated.elim
  | .integer literal _, hreadable, rest, hrest => by
      obtain ⟨-, hdigits⟩ := hreadable.leaf ⟨_, literal⟩ (by simp)
      have hletters : ∀ c ∈ literal.spelling.toList, isWordChar c = true := by
        intro c hc
        simp [isWordChar, Char.isAlphanum, hdigits c hc]
      rw [Expression.print, wordAhead_append hletters hrest.ends]
      intro hmem
      -- digits are word characters too, but none of the three words is made of them
      have hall : ∀ word ∈ ["var", "proc", "func"], word.toList.all Char.isDigit = false := by
        simp
      have hcontra := List.all_eq_true.mpr hdigits
      rw [hall _ hmem] at hcontra
      cases hcontra
  | .character literal _, hreadable, rest, _ => by
      obtain ⟨c, hc⟩ := hreadable.leaf ⟨_, literal⟩ (by simp)
      have hspelling : literal.spelling = "'" ++ String.singleton c ++ "'" := hc
      simp only [Expression.print, hspelling, String.toList_append, List.append_assoc]
      rw [wordAhead_of_ends (ends_append "'" rfl _)]
      decide
  | .read vname _, hreadable, rest, hrest => by
      have hname := vname.isName_base (hreadable.child (.vname vname) (by simp))
      have hword := wordAhead_append hname.letters (vname.ends_tail hrest)
      rw [Expression.print, vname.print_eq, String.toList_append, List.append_assoc, hword]
      exact hname.notMem
  | .unary operator operand _, hreadable, rest, _ => by
      have hoperator : operator.Legible := hreadable.leaf ⟨_, operator⟩ (by simp)
      rw [Expression.print, String.toList_append, List.append_assoc,
        wordAhead_of_ends (ends_operator hoperator _)]
      decide
  | .binary operator left right _, hreadable, rest, _ => by
      simp only [Expression.print, String.toList_append, List.append_assoc]
      -- a left operand in parentheses starts with no word at all
      rcases left.bracketed_cases with hbare | hbracketed
      · rw [hbare]
        exact left.wordAhead_notMem (hreadable.child (.expression left) (by simp))
          (by simp [Breaks])
      · rw [hbracketed, String.append_assoc, String.toList_append, List.append_assoc,
          wordAhead_of_ends (ends_append "(" rfl _)]
        decide
  | .ifThenElse .., _, _, _ => by
      simp only [Expression.print, String.toList_append, List.append_assoc]
      rw [wordAhead_keyword "if " "if" rfl rfl]
      decide
  | .letIn .., _, _, _ => by
      simp only [Expression.print, String.toList_append, List.append_assoc]
      rw [wordAhead_keyword "let " "let" rfl rfl]
      decide
  | .call function _ _, hreadable, _, _ => by
      have hname : IsName function.spelling := hreadable.leaf ⟨_, function⟩ (by simp)
      simp only [Expression.print, String.toList_append, List.append_assoc]
      rw [wordAhead_append hname.letters (ends_append "(" rfl _)]
      exact hname.notMem
  | .array .., _, _, _ => by
      simp only [Expression.print, String.toList_append, List.append_assoc]
      rw [wordAhead_of_ends (ends_append "[" rfl _)]
      decide
  | .record .., _, _, _ => by
      simp only [Expression.print, String.toList_append, List.append_assoc]
      rw [wordAhead_of_ends (ends_append "\x7b" rfl _)]
      decide

end LoopHoist
