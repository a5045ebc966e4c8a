import LoopHoist.Text.Shown

/-!
# Quoted text

Two ways of writing a text between quotes.  `quoted` is for people: what cannot be shown is written by
its code point in braces.  `jsonQuoted` is for documents: only what must be escaped is.
-/

namespace LoopHoist.Text

/-- A number in hexadecimal, without leading zeros. -/
def hexadecimal (n : Nat) : String := String.ofList (Nat.toDigits 16 n)

/-- A character of a text quoted for people. -/
def shownCharacter (c : Char) : String :=
  if c = '\x00' then "\\0"
  else if c = '\t' then "\\t"
  else if c = '\r' then "\\r"
  else if c = '\n' then "\\n"
  else if c = '\\' then "\\\\"
  else if c = '"' then "\\\""
  else if isShown c then String.singleton c
  else "\\u\x7b" ++ hexadecimal c.toNat ++ "\x7d"

/-- A text quoted for people. -/
def quoted (text : String) : String :=
  "\"" ++ String.join (text.toList.map shownCharacter) ++ "\""

/-- A number below 65536 as four hexadecimal digits. -/
def hexadecimal4 (n : Nat) : String :=
  let digits := Nat.toDigits 16 n
  String.ofList (List.replicate (4 - digits.length) '0' ++ digits)

/-- A character of a text quoted for a document. -/
def jsonCharacter (c : Char) : String :=
  if c = '"' then "\\\""
  else if c = '\\' then "\\\\"
  else if c = '\n' then "\\n"
  else if c = '\t' then "\\t"
  else if c = '\r' then "\\r"
  else if c = '\x08' then "\\b"
  else if c = '\x0c' then "\\f"
  else if c < ' ' then "\\u" ++ hexadecimal4 c.toNat
  else String.singleton c

/-- A text quoted for a document. -/
def jsonQuoted (text : String) : String :=
  "\"" ++ String.join (text.toList.map jsonCharacter) ++ "\""

end LoopHoist.Text
