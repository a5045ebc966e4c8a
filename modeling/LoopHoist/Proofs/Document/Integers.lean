import LoopHoist.Proofs.Document.Lowered
import Mathlib.Data.Nat.Digits.Defs

/-!
# The values of integer literals

A literal keeps the spelling it was given, of any length and with any number of zeros in front.  Its
value is the number that the digits stand for, as long as that number fits in a signed 64-bit word.

Two other readings of the digits are compared with `Terminal.value` here.  `Decimal.positional` weighs
each digit by its place, counted from the back.  `Decimal.wordFrom?` goes through the digits from the
front with a word as its only memory, and gives up at the first digit that would not fit.  It is never
too early to give up, because a number does not get smaller when digits are appended
(`Decimal.le_of_digitsFrom?`).
-/

namespace LoopHoist

namespace Decimal

/-! ## Digits by their places -/

/-- The number that digits stand for: each is weighed by its place, counted from the back. -/
def positional (digits : List Char) : Nat :=
  Nat.ofDigits 10 (digits.map fun c => c.toNat - '0'.toNat).reverse

theorem positional_eq_ofDigitChars (digits : List Char) :
    positional digits = Nat.ofDigitChars 10 digits 0 := by
  induction digits with
  | nil => rfl
  | cons c rest ih =>
      -- the first digit weighs ten to the number of digits after it
      rw [Nat.ofDigitChars_cons, Nat.ofDigitChars_eq_ofDigitChars_zero, ← ih, positional,
        List.map_cons, Nat.ofDigits_reverse_cons, List.length_map, Nat.mul_zero, Nat.zero_add,
        Nat.add_comm]
      rfl

theorem digit?_of_isDigit {c : Char} (hc : isDigit c = true) :
    digit? c = some (c.toNat - '0'.toNat) := by
  unfold isDigit digit? at hc
  split at hc
  · rename_i hrange
    exact if_pos hrange
  · cases hc

theorem digitsFrom?_eq_ofDigitChars {digits : List Char}
    (hdigits : ∀ c ∈ digits, isDigit c = true) :
    ∀ acc, digitsFrom? acc digits = some (Nat.ofDigitChars 10 digits acc) := by
  induction digits with
  | nil => intro acc; rfl
  | cons c rest ih =>
      intro acc
      obtain ⟨hc, hrest⟩ := List.forall_mem_cons.mp hdigits
      simp only [digitsFrom?, digit?_of_isDigit hc, ih hrest, Nat.ofDigitChars_cons]

/-- Digits alone have no sign, so they are read as they stand. -/
theorem integer?_eq_digitsFrom? {digits : List Char} (hne : digits ≠ [])
    (hdigits : ∀ c ∈ digits, isDigit c = true) :
    integer? digits = (digitsFrom? 0 digits).map Int.ofNat := by
  obtain ⟨c, rest, rfl⟩ := List.exists_cons_of_ne_nil hne
  have hc := hdigits c (List.mem_cons_self ..)
  unfold integer?
  -- neither sign is a digit
  split
  · rename_i hplus
    cases hplus
    exact absurd hc (by decide)
  · rename_i hminus
    cases hminus
    exact absurd hc (by decide)
  · rfl

/-! ## Digits in a word -/

/-- Reads digits on from a word, and gives up at the first digit that would not fit. -/
def wordFrom? (word : Int64) : List Char → Option Int64
  | [] => some word
  | c :: rest =>
      match digit? c with
      | some d =>
          if 10 * word.toInt + d ≤ greatestWord then wordFrom? (10 * word + .ofNat d) rest else none
      | none => none

theorem isWord_natCast_iff {n : Nat} : isWord (n : Int) = true ↔ n ≤ 2 ^ 63 - 1 := by
  unfold isWord leastWord greatestWord
  rw [decide_eq_true_iff]
  norm_num

theorem le_of_digitsFrom? {digits : List Char} :
    ∀ {acc n : Nat}, digitsFrom? acc digits = some n → acc ≤ n := by
  induction digits with
  | nil =>
      intro acc n hread
      cases hread
      exact Nat.le_refl _
  | cons c rest ih =>
      intro acc n hread
      unfold digitsFrom? at hread
      split at hread
      · have hle := ih hread
        omega
      · cases hread

/-- A word is enough to read a number that fits in one, and to find that it does not. -/
theorem wordFrom?_eq_digitsFrom? {digits : List Char} :
    ∀ {n : Nat}, n < 2 ^ 63 → (wordFrom? (.ofNat n) digits).map Int64.toInt =
      ((digitsFrom? n digits).map Int.ofNat).filter isWord := by
  induction digits with
  | nil =>
      intro n hn
      simp only [wordFrom?, digitsFrom?, Option.map_some, Int64.toInt_ofNat_of_lt hn]
      have hword : isWord (Int.ofNat n) = true := isWord_natCast_iff.mpr (by omega)
      rw [Option.filter_some, if_pos hword]
      rfl
  | cons c rest ih =>
      intro n hn
      unfold wordFrom? digitsFrom?
      cases digit? c with
      | none => rfl
      | some d =>
          have hnext : 10 * Int64.ofNat n + .ofNat d = .ofNat (10 * n + d) := by
            rw [Int64.ofNat_add, Int64.ofNat_mul]
            rfl
          have hfits : 10 * (Int64.ofNat n).toInt + d ≤ greatestWord ↔ 10 * n + d < 2 ^ 63 := by
            rw [Int64.toInt_ofNat_of_lt hn]
            unfold greatestWord
            norm_num
            omega
          simp only [hnext, hfits]
          by_cases hlt : 10 * n + d < 2 ^ 63
          · rw [if_pos hlt, ih hlt]
          · -- no digit that follows can bring the number back into the range
            rw [if_neg hlt]
            cases hread : digitsFrom? (10 * n + d) rest with
            | none => rfl
            | some m =>
                have hle := le_of_digitsFrom? hread
                have hword : ¬ isWord (Int.ofNat m) = true := by
                  rw [Int.ofNat_eq_natCast, isWord_natCast_iff]
                  omega
                rw [Option.map_some, Option.filter_some, if_neg hword]
                rfl

end Decimal

/-! ## Literals from lowering -/

theorem toList_toString_natCast (n : Nat) : (toString (n : Int)).toList = Nat.toDigits 10 n :=
  Nat.toList_repr

namespace Document

theorem Integer.lower_eq_ok_iff {span : Span} {integer : Integer} {literal : IntegerLiteral} :
    integer.lower span = .ok literal ↔
      isNumeral integer.text = true ∧ literal = ⟨integer.text, span⟩ := by
  unfold Integer.lower
  split
  · rename_i hnumeral
    simp [hnumeral, eq_comm]
  · rename_i hnumeral
    simp [hnumeral]

/-- The numbers that digits alone spell are those without a sign. -/
theorem isNumeral_toString_iff {n : Int} : isNumeral (toString n) = true ↔ 0 ≤ n := by
  cases n with
  | ofNat n =>
      have htext := toList_toString_natCast n
      refine iff_of_true (isNumeral_iff.mpr ⟨fun hempty => ?_, fun c hc => ?_⟩)
        (Int.natCast_nonneg n)
      · rw [Int.ofNat_eq_natCast] at hempty
        rw [hempty] at htext
        exact Nat.toDigits_ne_nil htext.symm
      · rw [Int.ofNat_eq_natCast, htext] at hc
        exact Nat.isDigit_of_mem_toDigits (by decide) (by decide) hc
  | negSucc n =>
      refine iff_of_false (fun hnumeral => ?_) (by omega)
      have hminus : '-' ∈ (toString (Int.negSucc n)).toList := by
        have htext : toString (Int.negSucc n) = "-" ++ (n + 1).repr := rfl
        rw [htext, String.toList_append]
        exact List.mem_append_left _ (List.mem_singleton_self _)
      exact absurd ((isNumeral_iff.mp hnumeral).2 '-' hminus) (by decide)

section Literals

variable {text : String} (hnumeral : isNumeral text = true) (span : Span)
include hnumeral

theorem value_eq_filter : Terminal.value ⟨text, span⟩ =
    ((Decimal.digitsFrom? 0 text.toList).map Int.ofNat).filter Decimal.isWord := by
  obtain ⟨hne, hdigits⟩ := isNumeral_iff.mp hnumeral
  simp only [← isDigit_eq] at hdigits
  rw [Terminal.value, Decimal.integer?_eq_digitsFrom? (by simpa using hne) hdigits]

/-- The value of a literal is the number that its digits stand for, if that is a word. -/
theorem value_eq_ite : Terminal.value ⟨text, span⟩ =
    if Nat.ofDigitChars 10 text.toList 0 ≤ 2 ^ 63 - 1 then
      some (Nat.ofDigitChars 10 text.toList 0 : Int) else none := by
  obtain ⟨-, hdigits⟩ := isNumeral_iff.mp hnumeral
  simp only [← isDigit_eq] at hdigits
  rw [value_eq_filter hnumeral, Decimal.digitsFrom?_eq_ofDigitChars hdigits, Option.map_some,
    Option.filter_some]
  simp only [Int.ofNat_eq_natCast, Decimal.isWord_natCast_iff]

end Literals

/-- **Literals keep their value up to the limit of a word.**  A number can be lowered if and only if
it is not negative, and the value of the literal is that number.  A spelling that can be lowered has
as its value the number that its digits stand for, if that is at most 2⁶³ - 1, and no value otherwise;
reading the digits one after the other into a word finds the same. -/
theorem Integer.value_of_lower (span : Span) (n : Int64) (text : String) :
    (((∃ literal, (Integer.number n).lower span = .ok literal) ↔ 0 ≤ n) ∧
      ∀ literal, (Integer.number n).lower span = .ok literal → literal.value = some n.toInt) ∧
    ∀ literal, (Integer.spelling text).lower span = .ok literal →
      literal.value = (if Decimal.positional text.toList ≤ 2 ^ 63 - 1 then
        some (Decimal.positional text.toList : Int) else none) ∧
      literal.value = (Decimal.wordFrom? 0 text.toList).map Int64.toInt := by
  have hnonneg : isNumeral (toString n.toInt) = true ↔ 0 ≤ n := by
    rw [isNumeral_toString_iff, Int64.le_iff_toInt_le, Int64.toInt_zero]
  refine ⟨⟨?_, ?_⟩, ?_⟩
  · simp only [Integer.lower_eq_ok_iff, Integer.text, exists_and_left, exists_eq, and_true,
      hnonneg]
  · intro literal hlower
    obtain ⟨hnumeral, rfl⟩ := Integer.lower_eq_ok_iff.mp hlower
    rw [value_eq_ite hnumeral span]
    -- the digits of a number that is not negative stand for it, and it is a word already
    obtain ⟨m, hm⟩ := Int.eq_ofNat_of_zero_le (isNumeral_toString_iff.mp hnumeral)
    have hlt : (m : Int) < 2 ^ 63 := hm ▸ n.toInt_lt
    simp only [Integer.text, hm, toList_toString_natCast, Nat.ofDigitChars_ten_toDigits]
    rw [if_pos (by omega)]
  · intro literal hlower
    obtain ⟨hnumeral, rfl⟩ := Integer.lower_eq_ok_iff.mp hlower
    constructor
    · rw [value_eq_ite hnumeral span, Decimal.positional_eq_ofDigitChars]
      rfl
    · have hword := @Decimal.wordFrom?_eq_digitsFrom? text.toList 0 (by decide)
      exact (value_eq_filter hnumeral span).trans hword.symm

/-- The greatest word has a value, also with zeros in front of it; the number after it has none. -/
theorem value_of_lower_limits :
    (Integer.number 9223372036854775807).lower .dummy = .ok ⟨"9223372036854775807", .dummy⟩ ∧
      Terminal.value ⟨"9223372036854775807", .dummy⟩ = some 9223372036854775807 ∧
    (Integer.spelling "0009223372036854775807").lower .dummy =
        .ok ⟨"0009223372036854775807", .dummy⟩ ∧
      Terminal.value ⟨"0009223372036854775807", .dummy⟩ = some 9223372036854775807 ∧
    (Integer.spelling "9223372036854775808").lower .dummy =
        .ok ⟨"9223372036854775808", .dummy⟩ ∧
      Terminal.value ⟨"9223372036854775808", .dummy⟩ = none := by
  have hnumber : (Integer.number 9223372036854775807).lower .dummy =
      .ok ⟨"9223372036854775807", .dummy⟩ := rfl
  have hzeros : (Integer.spelling "0009223372036854775807").lower .dummy =
      .ok ⟨"0009223372036854775807", .dummy⟩ := rfl
  have hbeyond : (Integer.spelling "9223372036854775808").lower .dummy =
      .ok ⟨"9223372036854775808", .dummy⟩ := rfl
  obtain ⟨⟨-, hvalue⟩, hspelled⟩ :=
    Integer.value_of_lower .dummy 9223372036854775807 "0009223372036854775807"
  obtain ⟨-, hspelled'⟩ := Integer.value_of_lower .dummy 0 "9223372036854775808"
  refine ⟨hnumber, (hvalue _ hnumber).trans ?_, hzeros, (hspelled _ hzeros).1.trans ?_, hbeyond,
    (hspelled' _ hbeyond).1.trans ?_⟩
  · decide
  · decide
  · decide

end Document

end LoopHoist
