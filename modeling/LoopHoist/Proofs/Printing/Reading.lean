import LoopHoist.Proofs.Fragments
import LoopHoist.Proofs.Printing.Canonical
import LoopHoist.Proofs.Printing.Parser

/-!
# What parsers read

`Reads after parser text a` says that a parser reads a text as `a` and nothing else, whatever comes
after the text, as long as it cannot be taken for a part of it.
-/

namespace LoopHoist.Parse

/-! ## What may follow -/

/-- No word goes on at the front of a text. -/
def Ends (rest : List Char) : Prop := ∀ c ∈ rest.head?, isWordChar c = false

/-- Nothing that belongs to an operand goes on at the front of a text. -/
def Breaks (rest : List Char) : Prop := ∀ c ∈ rest.head?, c ∈ [' ', ')', ']', '\x7d', ',', ';']

/-- Nothing that belongs to an expression goes on at the front of a text. -/
structure Stops (rest : List Char) : Prop where
  breaks : Breaks rest
  noOperator : operatorAhead rest = none

/-- Whether a text that starts like this stops an expression. -/
def closes (text : String) : Bool :=
  match text.toList with
  | ' ' :: c :: _ => !isOperatorChar c
  | ' ' :: [] => false
  | c :: _ => [')', ']', '\x7d', ',', ';'].contains c
  | [] => false

theorem Breaks.ends {rest : List Char} (hrest : Breaks rest) : Ends rest := by
  intro c hc
  have hmem := hrest c hc
  simp only [List.mem_cons, List.not_mem_nil, or_false] at hmem
  obtain rfl | rfl | rfl | rfl | rfl | rfl := hmem <;> decide

theorem Breaks.notDigit {rest : List Char} (hrest : Breaks rest) :
    ∀ c ∈ rest.head?, c.isDigit = false := by
  intro c hc
  have hword := hrest.ends c hc
  simp only [isWordChar, Char.isAlphanum, Bool.or_eq_false_iff] at hword
  exact hword.1.1.2

theorem stops_nil : Stops [] := ⟨by simp [Breaks], rfl⟩

theorem stops_of_closes (text : String) (hcloses : closes text = true) (rest : List Char) :
    Stops (text.toList ++ rest) := by
  unfold closes at hcloses
  split at hcloses
  case h_1 c cs hcs =>
      have hoperator : isOperatorChar c = false := by simpa using hcloses
      rw [hcs]
      exact ⟨by simp [Breaks], by simp [operatorAhead, hoperator]⟩
  case h_2 => cases hcloses
  case h_3 c cs hspace hspaces hcs =>
      have hmem : c ∈ [')', ']', '\x7d', ',', ';'] := by simpa using hcloses
      rw [hcs]
      refine ⟨?_, ?_⟩
      · intro c' hc'
        obtain rfl : c = c' := by simpa using hc'
        exact List.mem_cons_of_mem _ hmem
      · simp only [List.mem_cons, List.not_mem_nil, or_false] at hmem
        obtain rfl | rfl | rfl | rfl | rfl := hmem <;> rfl
  case h_4 => cases hcloses

/-- Whether a text that starts like this ends a word. -/
def endsWord (text : String) : Bool := text.toList.head?.any fun c => !isWordChar c

theorem ends_append (text : String) (hends : endsWord text = true) (rest : List Char) :
    Ends (text.toList ++ rest) := by
  unfold endsWord at hends
  cases hlist : text.toList with
  | nil => simp [hlist] at hends
  | cons c cs =>
      intro c' hc'
      obtain rfl : c = c' := by simpa using hc'
      simpa [hlist] using hends

/-! ## Words -/

@[simp] theorem expect_append (text : String) (rest : List Char) :
    expect text (text.toList ++ rest) = some rest := by
  rw [expect, List.isPrefixOf?_eq_some_iff_append_eq]

variable {isPart : Char → Bool} {word rest : List Char}

theorem takeWhile_append (hword : ∀ c ∈ word, isPart c = true)
    (hrest : ∀ c ∈ rest.head?, isPart c = false) : (word ++ rest).takeWhile isPart = word := by
  rw [List.takeWhile_append_of_pos hword]
  cases rest with
  | nil => simp
  | cons c cs =>
      have hc := hrest c rfl
      simp [hc]

theorem dropWhile_append (hword : ∀ c ∈ word, isPart c = true)
    (hrest : ∀ c ∈ rest.head?, isPart c = false) : (word ++ rest).dropWhile isPart = rest := by
  rw [List.dropWhile_append_of_pos hword]
  cases rest with
  | nil => rfl
  | cons c cs =>
      have hc := hrest c rfl
      simp [hc]

theorem leaf_append {sort : Lexeme} {terminal : Terminal sort}
    (hword : ∀ c ∈ terminal.spelling.toList, isPart c = true)
    (hrest : ∀ c ∈ rest.head?, isPart c = false) :
    leaf isPart (terminal.spelling.toList ++ rest) = some (terminal.canonical, rest) := by
  rw [leaf, takeWhile_append hword hrest, dropWhile_append hword hrest, String.ofList_toList]
  rfl

/-! ## Names -/

/-- The words of the language, which are not names. -/
def keywords : List String :=
  ["array", "begin", "const", "do", "else", "end", "func", "if", "in", "let", "of", "proc",
    "record", "then", "type", "var", "while"]

/-- A name: letters, digits and `$`, not starting with a digit, and no word of the language. -/
structure IsName (word : String) : Prop where
  nonempty : word ≠ ""
  letters : ∀ c ∈ word.toList, isWordChar c = true
  start : ∀ c ∈ word.toList.head?, c.isDigit = false
  notKeyword : word ∉ keywords

theorem isName_iff {word : String} : IsName word ↔
    word ≠ "" ∧ word.toList.all isWordChar = true ∧
      (word.toList.head?.all fun c => !c.isDigit) = true ∧ word ∉ keywords := by
  have hhead : (word.toList.head?.all fun c => !c.isDigit) = true ↔
      ∀ c ∈ word.toList.head?, c.isDigit = false := by
    cases word.toList.head? <;> simp
  rw [List.all_eq_true, hhead]
  exact ⟨fun ⟨hnonempty, hletters, hstart, hkeyword⟩ => ⟨hnonempty, hletters, hstart, hkeyword⟩,
    fun ⟨hnonempty, hletters, hstart, hkeyword⟩ => ⟨hnonempty, hletters, hstart, hkeyword⟩⟩

instance : DecidablePred IsName := fun _ => decidable_of_iff _ isName_iff.symm

theorem wordAhead_append {word : String} (hword : ∀ c ∈ word.toList, isWordChar c = true)
    (hrest : Ends rest) : wordAhead (word.toList ++ rest) = word := by
  rw [wordAhead, takeWhile_append hword hrest, String.ofList_toList]

theorem wordAhead_of_ends (hrest : Ends rest) : wordAhead rest = "" := by
  have hempty : ∀ c ∈ "".toList, isWordChar c = true := by simp
  simpa using wordAhead_append hempty hrest

theorem wordAhead_keyword (text word : String) (hword : word.toList.all isWordChar = true)
    (htext : text.toList = word.toList ++ [' ']) (rest : List Char) :
    wordAhead (text.toList ++ rest) = word := by
  rw [htext, List.append_assoc]
  exact wordAhead_append (by simpa using hword) (by simp [Ends, isWordChar])

theorem IsName.opening_append {word : String} (hname : IsName word) (rest : List Char) :
    opening (word.toList ++ rest) = .word := by
  obtain ⟨hnonempty, hletters, hstart, -⟩ := hname
  cases hlist : word.toList with
  | nil => exact absurd (by simpa using hlist) hnonempty
  | cons c cs =>
      have hletter : isWordChar c = true := hletters c (by simp [hlist])
      have hdigit : c.isDigit = false := hstart c (by simp [hlist])
      -- none of the characters that decide otherwise is a letter
      have hquote : c ≠ '\'' := by rintro rfl; cases hletter
      have hparenthesis : c ≠ '(' := by rintro rfl; cases hletter
      have hbracket : c ≠ '[' := by rintro rfl; cases hletter
      have hbrace : c ≠ '\x7b' := by rintro rfl; cases hletter
      simp [opening, hletter, hdigit, hquote, hparenthesis, hbracket, hbrace]

theorem IsName.ne_of_mem {word keyword : String} (hname : IsName word)
    (hkeyword : keyword ∈ keywords) : word ≠ keyword := by
  rintro rfl
  exact hname.notKeyword hkeyword

theorem IsName.name_append {identifier : Identifier} (hname : IsName identifier.spelling)
    (hrest : Ends rest) :
    name (identifier.spelling.toList ++ rest) = some (identifier.canonical, rest) :=
  leaf_append hname.letters hrest

/-! ## Reading with any rest -/

section

variable {α : Type}

/-- The parser reads the text as `a`, whatever comes after it that satisfies the condition. -/
def Reads (after : List Char → Prop) (parser : Parser α) (text : String) (a : α) : Prop :=
  ∀ rest, after rest → parser (text.toList ++ rest) = some (a, rest)

theorem between_append (opened closed : String) {item : Parser α} {text : String} {a : α}
    {rest : List Char}
    (hitem : item (text.toList ++ (closed.toList ++ rest)) = some (a, closed.toList ++ rest)) :
    between opened item closed (opened.toList ++ (text.toList ++ (closed.toList ++ rest))) =
      some (a, rest) := by
  simp only [between, expect_append, Option.bind_eq_bind, Option.bind_some, hitem]
  rfl

theorem field_append (separator : String) {value : Parser α} {identifier : Identifier}
    {text : String} {a : α} (hname : IsName identifier.spelling)
    (hseparator : closes separator = true) (hvalue : Reads Stops value text a) :
    Reads Stops (field separator value) (identifier.spelling ++ separator ++ text)
      (identifier.canonical, a) := by
  intro rest hrest
  -- the separator ends the name before it
  have hends := (stops_of_closes separator hseparator (text.toList ++ rest)).breaks.ends
  have hread := hvalue rest hrest
  simp [field, hname.name_append hends, hread]

/-- Items are read one by one, until no separator follows. -/
theorem itemsUpTo_intercalate {separator : String} {item : Parser α}
    (hseparator : closes separator = true) (hrest : Stops rest)
    (hend : expect separator rest = none) :
    ∀ {texts : List String} {values : List α}, texts ≠ [] →
      List.Forall₂ (Reads Stops item) texts values → ∀ {count : Nat}, texts.length ≤ count →
      itemsUpTo separator item count ((String.intercalate separator texts).toList ++ rest) =
        some (values, rest)
  | [], _, hne, _, _, _ => absurd rfl hne
  | _ :: _, _, _, _, 0, hcount => by simp at hcount
  | [text], [value], _, .cons htext .nil, count + 1, _ => by
      have hread := htext rest hrest
      simp [itemsUpTo, String.intercalate_singleton, hread, hend]
  | text :: next :: texts, value :: values, _, .cons htext htexts, count + 1, hcount => by
      have hlater := itemsUpTo_intercalate hseparator hrest hend (by simp) htexts
        (Nat.le_of_succ_le_succ hcount)
      -- the item before a separator is read to its end, since separators stop expressions
      have hread := htext (separator.toList ++
        ((String.intercalate separator (next :: texts)).toList ++ rest))
        (stops_of_closes separator hseparator _)
      rw [String.intercalate_cons_cons, String.toList_append, String.toList_append,
        List.append_assoc, List.append_assoc, itemsUpTo, hread]
      simp only [expect_append, hlater, Option.map_some]

theorem length_le_length_intercalate {separator : String} (hseparator : closes separator = true) :
    ∀ texts : List String, texts.length ≤ (String.intercalate separator texts).toList.length + 1
  | [] => Nat.zero_le _
  | [_] => Nat.succ_le_succ (Nat.zero_le _)
  | text :: next :: texts => by
      have hlater := length_le_length_intercalate hseparator (next :: texts)
      -- a separator has a character at least, and there is one for each item but the last
      have hpositive : separator.toList ≠ [] := by
        intro hnil
        simp [closes, hnil] at hseparator
      have hlength := List.length_pos_of_ne_nil hpositive
      rw [String.intercalate_cons_cons, String.toList_append, String.toList_append,
        List.length_append, List.length_append, List.length_cons]
      omega

theorem items_intercalate {separator : String} {item : Parser α} {texts : List String}
    {values : List α} (hseparator : closes separator = true) (hrest : Stops rest)
    (hend : expect separator rest = none) (htexts : texts ≠ [])
    (hitems : List.Forall₂ (Reads Stops item) texts values) :
    items separator item ((String.intercalate separator texts).toList ++ rest) =
      some (values, rest) := by
  have hlength := length_le_length_intercalate hseparator texts
  refine itemsUpTo_intercalate hseparator hrest hend htexts hitems ?_
  rw [List.length_append]
  omega

theorem list_append (opened closed : String) {item : Parser α} {texts : List String}
    {values : List α} (hclosed : closes closed = true)
    (hend : ∀ rest, expect ", " (closed.toList ++ rest) = none)
    (hnone : ∀ rest, item (closed.toList ++ rest) = none)
    (hitems : List.Forall₂ (Reads Stops item) texts values) (rest : List Char) :
    list opened item closed
        (opened.toList ++ ((commaSeparated texts).toList ++ (closed.toList ++ rest))) =
      some (values, rest) := by
  have hread : items ", " item ((commaSeparated texts).toList ++ (closed.toList ++ rest)) =
      some (values, closed.toList ++ rest) := by
    by_cases htexts : texts = []
    · -- nothing between the brackets: no item can start with the closing one
      subst htexts
      cases hitems
      simp only [commaSeparated, String.intercalate_nil, String.toList_empty, List.nil_append,
        items, itemsUpTo, hnone]
    · exact items_intercalate (by decide) (stops_of_closes closed hclosed rest) (hend rest) htexts
        hitems
  simp only [list, expect_append, Option.bind_eq_bind, Option.bind_some, hread]
  rfl

end

end LoopHoist.Parse

namespace LoopHoist

open Parse

/-! ## Trees that can be read back -/

/-- A leaf is spelled as the language asks for. -/
def Terminal.Legible : {sort : Lexeme} → Terminal sort → Prop
  | .identifier, leaf => IsName leaf.spelling
  | .operator, leaf => leaf.spelling ≠ "" ∧ ∀ c ∈ leaf.spelling.toList, isOperatorChar c = true
  | .integer, leaf | .character, leaf => leaf.WellSpelled

mutual

/-- Whether an operand takes up an operator that follows it: its text ends with the last branch of a
conditional or the body of a block, and that goes on. -/
def Expression.isOpen : Expression → Bool
  | .ifThenElse _ _ branch _ | .letIn _ branch _ => branch.goesOn
  | .unary _ operand _ => operand.isOpen
  | .empty _ | .integer .. | .character .. | .read .. | .binary .. | .call .. | .array ..
  | .record .. => false

/-- Whether an expression without parentheses goes on with an operator that follows it.  One operand
always does; where there are two of them, the second one has to take the operator up. -/
def Expression.goesOn : Expression → Bool
  | .binary _ _ right _ => right.isOpen
  | _ => true

end

/-- Whether an expression is a unary one. -/
def Expression.isUnary : Expression → Bool
  | .unary .. => true
  | _ => false

/-- The parts of an expression do not run into each other. -/
def Expression.Separated : Expression → Prop
  | .empty _ => False
  | .unary _ operand _ => operand.isUnary = false
  | .binary _ left _ _ => left.isOpen = false
  | _ => True

/-- A fragment has a text that can be read back, if those that it is built from have. -/
def Fragment.Readable (fragment : Fragment) : Prop :=
  (∀ leaf ∈ fragment.ownLeaves, leaf.2.Legible) ∧
    ∀ expression, fragment = .expression expression → expression.Separated

/-- All of a fragment can be read back. -/
abbrev Fragment.AllReadable (whole : Fragment) : Prop := whole.Everywhere Fragment.Readable

section

variable {whole : Fragment} (hreadable : whole.AllReadable)
include hreadable

theorem Fragment.AllReadable.leaf (leaf : Leaf) (hleaf : leaf ∈ whole.ownLeaves) :
    leaf.2.Legible :=
  (Fragment.everywhere_iff.mp hreadable).1.1 leaf hleaf

theorem Fragment.AllReadable.child (child : Fragment) (hchild : child ∈ whole.children) :
    child.AllReadable :=
  (Fragment.everywhere_iff.mp hreadable).2 child hchild

end

/-! ## Types and formal parameters -/

mutual

theorem TypeDenoter.reads : ∀ (type : TypeDenoter) {fuel : Nat},
    (Fragment.type type).AllReadable → sizeOf type ≤ fuel →
    Reads Stops (Parse.type fuel) type.print type.canonical
  | .simple name, fuel, hreadable, hfuel => by
      obtain ⟨less, rfl⟩ : ∃ less, fuel = less + 1 := ⟨fuel - 1, by simp at hfuel; omega⟩
      have hname : IsName name.spelling := hreadable.leaf ⟨_, name⟩ (by simp)
      intro rest hrest
      -- a name is no word of the language, so the type is neither an array nor a record
      have hword := wordAhead_append hname.letters hrest.breaks.ends
      rw [TypeDenoter.print, Parse.type, hword, if_neg (hname.ne_of_mem (by decide)),
        if_neg (hname.ne_of_mem (by decide)), hname.name_append hrest.breaks.ends]
      rfl
  | .array length element, fuel, hreadable, hfuel => by
      simp only [TypeDenoter.array.sizeOf_spec] at hfuel
      obtain ⟨less, rfl⟩ : ∃ less, fuel = less + 1 := ⟨fuel - 1, by omega⟩
      have hdigits : ∀ c ∈ length.spelling.toList, c.isDigit = true :=
        (hreadable.leaf ⟨_, length⟩ (by simp)).2
      have helement : Reads Stops (Parse.type less) element.print element.canonical :=
        element.reads (hreadable.child (.type element) (by simp)) (by omega)
      intro rest hrest
      simp only [TypeDenoter.print, String.toList_append, List.append_assoc]
      have hlength : leaf Char.isDigit (length.spelling.toList ++
          (" of ".toList ++ (element.print.toList ++ rest))) =
            some (length.canonical, " of ".toList ++ (element.print.toList ++ rest)) :=
        leaf_append hdigits (by simp)
      rw [Parse.type, wordAhead_keyword "array " "array" rfl rfl, if_pos rfl]
      simp only [expect_append, Option.bind_eq_bind, Option.bind_some, hlength,
        helement rest hrest]
      rfl
  | .record fields, fuel, hreadable, hfuel => by
      simp only [TypeDenoter.record.sizeOf_spec] at hfuel
      obtain ⟨less, rfl⟩ : ∃ less, fuel = less + 1 := ⟨fuel - 1, by omega⟩
      have hnames : ∀ field ∈ fields, IsName field.1.spelling :=
        fun field hfield => hreadable.leaf ⟨_, field.1⟩ (List.mem_map_of_mem hfield)
      have htypes : ∀ field ∈ fields, (Fragment.type field.2).AllReadable :=
        fun field hfield => hreadable.child _ (List.mem_map_of_mem hfield)
      have hfields := TypeDenoter.readsFields fields hnames htypes
        (show sizeOf fields ≤ less by omega)
      intro rest _
      simp only [TypeDenoter.print, String.toList_append, List.append_assoc]
      have hlist := list_append "record " " end" rfl (fun _ => rfl) (fun _ => rfl) hfields rest
      rw [Parse.type, wordAhead_keyword "record " "record" rfl rfl, if_neg (by decide),
        if_pos rfl, hlist]
      rfl

theorem TypeDenoter.readsFields : ∀ (fields : List (Identifier × TypeDenoter)) {fuel : Nat},
    (∀ field ∈ fields, IsName field.1.spelling) →
    (∀ field ∈ fields, (Fragment.type field.2).AllReadable) → sizeOf fields ≤ fuel →
    List.Forall₂ (Reads Stops (Parse.field " : " (Parse.type fuel)))
      (TypeDenoter.printFields fields) (TypeDenoter.canonicalFields fields)
  | [], _, _, _, _ => .nil
  | (name, type) :: rest, fuel, hnames, htypes, hfuel => by
      simp only [List.cons.sizeOf_spec, Prod.mk.sizeOf_spec] at hfuel
      obtain ⟨hname, hothers⟩ := List.forall_mem_cons.mp hnames
      obtain ⟨htype, hrest⟩ := List.forall_mem_cons.mp htypes
      have hvalue := type.reads htype (show sizeOf type ≤ fuel by omega)
      have hlater := TypeDenoter.readsFields rest hothers hrest (show sizeOf rest ≤ fuel by omega)
      exact .cons (field_append " : " hname rfl hvalue) hlater

end

theorem Parse.parameter_closed : ∀ (fuel : Nat) (rest : List Char),
    parameter fuel (')' :: rest) = none
  | 0, _ | _ + 1, _ => rfl

mutual

theorem FormalParameter.reads : ∀ (parameter : FormalParameter) {fuel : Nat},
    (Fragment.parameter parameter).AllReadable → sizeOf parameter ≤ fuel →
    Reads Stops (Parse.parameter fuel) parameter.print parameter.canonical
  | .const name type, fuel, hreadable, hfuel => by
      simp only [FormalParameter.const.sizeOf_spec] at hfuel
      obtain ⟨less, rfl⟩ : ∃ less, fuel = less + 1 := ⟨fuel - 1, by omega⟩
      have hname : IsName name.spelling := hreadable.leaf ⟨_, name⟩ (by simp [FormalParameter.name])
      have htype : Reads Stops (Parse.type less) type.print type.canonical :=
        type.reads (hreadable.child (.type type) (by simp)) (by omega)
      intro rest hrest
      have hword := wordAhead_append hname.letters
        (ends_append " : " rfl (type.print.toList ++ rest))
      have hfield := field_append " : " hname rfl htype rest hrest
      simp only [FormalParameter.print, String.toList_append, List.append_assoc] at hfield ⊢
      rw [Parse.parameter, hword, if_neg (hname.ne_of_mem (by decide)),
        if_neg (hname.ne_of_mem (by decide)), if_neg (hname.ne_of_mem (by decide)), hfield]
      rfl
  | .var name type, fuel, hreadable, hfuel => by
      simp only [FormalParameter.var.sizeOf_spec] at hfuel
      obtain ⟨less, rfl⟩ : ∃ less, fuel = less + 1 := ⟨fuel - 1, by omega⟩
      have hname : IsName name.spelling := hreadable.leaf ⟨_, name⟩ (by simp [FormalParameter.name])
      have htype : Reads Stops (Parse.type less) type.print type.canonical :=
        type.reads (hreadable.child (.type type) (by simp)) (by omega)
      intro rest hrest
      have hfield := field_append " : " hname rfl htype rest hrest
      simp only [FormalParameter.print, String.toList_append, List.append_assoc] at hfield ⊢
      rw [Parse.parameter, wordAhead_keyword "var " "var" rfl rfl, if_pos rfl]
      simp only [expect_append, Option.bind_eq_bind, Option.bind_some, hfield]
      rfl
  | .proc name parameters, fuel, hreadable, hfuel => by
      simp only [FormalParameter.proc.sizeOf_spec] at hfuel
      obtain ⟨less, rfl⟩ : ∃ less, fuel = less + 1 := ⟨fuel - 1, by omega⟩
      have hname : IsName name.spelling := hreadable.leaf ⟨_, name⟩ (by simp [FormalParameter.name])
      have hparameters := FormalParameter.readsAll parameters
        (fun parameter hparameter => hreadable.child _ (List.mem_map_of_mem hparameter))
        (show sizeOf parameters ≤ less by omega)
      intro rest _
      have hlist := list_append "(" ")" rfl (fun _ => rfl) (parameter_closed less) hparameters rest
      simp only [FormalParameter.print, String.toList_append, List.append_assoc]
      rw [Parse.parameter, wordAhead_keyword "proc " "proc" rfl rfl, if_neg (by decide),
        if_pos rfl]
      simp only [expect_append, Option.bind_eq_bind, Option.bind_some,
        hname.name_append (ends_append "(" rfl _), hlist]
      rfl
  | .func name parameters result, fuel, hreadable, hfuel => by
      simp only [FormalParameter.func.sizeOf_spec] at hfuel
      obtain ⟨less, rfl⟩ : ∃ less, fuel = less + 1 := ⟨fuel - 1, by omega⟩
      have hname : IsName name.spelling := hreadable.leaf ⟨_, name⟩ (by simp [FormalParameter.name])
      have hparameters := FormalParameter.readsAll parameters
        (fun parameter hparameter => hreadable.child _
          (List.mem_append_left _ (List.mem_map_of_mem hparameter)))
        (show sizeOf parameters ≤ less by omega)
      have hresult : Reads Stops (Parse.type less) result.print result.canonical :=
        result.reads (hreadable.child (.type result) (by simp)) (by omega)
      intro rest hrest
      have hlist := list_append "(" ") : " rfl (fun _ => rfl) (fun _ => parameter_closed less _)
        hparameters (result.print.toList ++ rest)
      simp only [FormalParameter.print, String.toList_append, List.append_assoc]
      rw [Parse.parameter, wordAhead_keyword "func " "func" rfl rfl, if_neg (by decide),
        if_neg (by decide), if_pos rfl]
      simp only [expect_append, Option.bind_eq_bind, Option.bind_some,
        hname.name_append (ends_append "(" rfl _), hlist, hresult rest hrest]
      rfl

theorem FormalParameter.readsAll : ∀ (parameters : List FormalParameter) {fuel : Nat},
    (∀ parameter ∈ parameters, (Fragment.parameter parameter).AllReadable) →
    sizeOf parameters ≤ fuel →
    List.Forall₂ (Reads Stops (Parse.parameter fuel)) (FormalParameter.printAll parameters)
      (FormalParameter.canonicalAll parameters)
  | [], _, _, _ => .nil
  | parameter :: rest, fuel, hreadable, hfuel => by
      simp only [List.cons.sizeOf_spec] at hfuel
      obtain ⟨hparameter, hothers⟩ := List.forall_mem_cons.mp hreadable
      have hfirst := parameter.reads hparameter (show sizeOf parameter ≤ fuel by omega)
      have hlater := FormalParameter.readsAll rest hothers (show sizeOf rest ≤ fuel by omega)
      exact .cons hfirst hlater

end

end LoopHoist
