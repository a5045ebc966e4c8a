import LoopHoist.Yaml.Token

/-!
# The tokens of a text

Outside of flow collections the columns of a text show where blocks start and end, so the lexer keeps the
columns of the blocks that are open.

The key of an entry can be written without a mark of its own: that a scalar was a key shows only when a
colon comes after it.  The lexer therefore remembers where a key may have started, one such *candidate* for
each open flow collection and one for the blocks around them.  When the colon comes the token `key`, and the
start of a block if there is none at that column, are put in where the candidate stands.  A candidate has to
stand on the line of its colon, and no more than 1024 characters before it.
-/

namespace LoopHoist.Yaml

/-- A place where a key may have started. -/
structure Candidate where
  /-- The number of tokens before it. -/
  position : Nat
  mark : Marked
  /-- Whether nothing but a key can stand there. -/
  required : Bool

/-- What the lexer knows between two tokens. -/
structure Lexer where
  tokens : Array Token := #[]
  /-- The columns of the open blocks, innermost first. -/
  columns : List Nat := []
  candidate : Option Candidate := none
  /-- The candidates around the open flow collections, innermost first. -/
  outer : List (Option Candidate) := []
  /-- Whether a key can start here. -/
  keyAllowed : Bool := true

namespace Lexer

/-- Whether a flow collection is open. -/
def flow (lexer : Lexer) : Bool := !lexer.outer.isEmpty

/-- The column of the innermost block; one less than the first column if there is none. -/
def indent (lexer : Lexer) : Int :=
  match lexer.columns with
  | [] => -1
  | column :: _ => column

/-- The first column that belongs to the inside of the innermost block. -/
def contentColumn (lexer : Lexer) : Nat := (lexer.indent + 1).toNat

/-- A token more. -/
def push (lexer : Lexer) (token : Token) : Lexer := { lexer with tokens := lexer.tokens.push token }

/-- A token put in after the first `position` tokens. -/
def insert (lexer : Lexer) (position : Nat) (token : Token) : Lexer :=
  { lexer with
    tokens := (lexer.tokens.extract 0 position).push token ++ lexer.tokens.extract position }

/-- Whether a key can start after this. -/
def allowKey (lexer : Lexer) (allowed : Bool) : Lexer := { lexer with keyAllowed := allowed }

/-! ## Blocks -/

/-- Opens a block at a column if the innermost one stands further left. -/
def openBlock (lexer : Lexer) (column position : Nat) (token : Token) : Lexer :=
  if !lexer.flow && lexer.indent < column then
    { lexer.insert position token with columns := column :: lexer.columns }
  else lexer

/-- Closes the blocks that stand to the right of a column. -/
def closeBlocks (lexer : Lexer) (column : Nat) : Lexer :=
  if lexer.flow then lexer
  else
    let closed := lexer.columns.takeWhile fun c => column < c
    { lexer with
      columns := lexer.columns.drop closed.length
      tokens := lexer.tokens ++ Array.replicate closed.length Token.blockEnd }

/-- Closes all blocks. -/
def closeAllBlocks (lexer : Lexer) : Lexer :=
  if lexer.flow then lexer
  else
    { lexer with
      columns := []
      tokens := lexer.tokens ++ Array.replicate lexer.columns.length Token.blockEnd }

/-! ## Candidates for keys -/

/-- How far before its colon a key can start. -/
def keyLimit : Nat := 1024

/-- A candidate as it looks from a later place; it fails where a key had to stand. -/
def Candidate.seenFrom? (mark : Marked) : Option Candidate → Option (Option Candidate)
  | none => some none
  | some candidate =>
      if candidate.mark.line < mark.line || candidate.mark.index + keyLimit < mark.index then
        if candidate.required then none else some none
      else some (some candidate)

/-- Drops the candidates that are too far away. -/
def dropStale? (lexer : Lexer) (mark : Marked) : Option Lexer := do
  let candidate ← Candidate.seenFrom? mark lexer.candidate
  let outer ← lexer.outer.mapM (Candidate.seenFrom? mark)
  return { lexer with candidate := candidate, outer := outer }

/-- Drops the candidate. -/
def dropCandidate? (lexer : Lexer) : Option Lexer :=
  if lexer.candidate.any Candidate.required then none else some { lexer with candidate := none }

/-- Makes this place the candidate if a key can start here. -/
def saveCandidate? (lexer : Lexer) (mark : Marked) : Option Lexer :=
  if lexer.keyAllowed then do
    let lexer ← lexer.dropCandidate?
    let required := !lexer.flow && lexer.indent == (mark.column : Int)
    return { lexer with candidate := some ⟨lexer.tokens.size, mark, required⟩ }
  else some lexer

/-! ## Marks -/

/-- The start or the end of a document, or a directive. -/
def documentLevel? (lexer : Lexer) (token : Token) : Option Lexer := do
  let lexer ← lexer.closeAllBlocks.dropCandidate?
  return (lexer.push token).allowKey false

/-- The start of a flow collection. -/
def openFlow? (lexer : Lexer) (mark : Marked) (token : Token) : Option Lexer := do
  let lexer ← lexer.saveCandidate? mark
  return { lexer.push token with
    candidate := none, outer := lexer.candidate :: lexer.outer, keyAllowed := true }

/-- The end of a flow collection. -/
def closeFlow? (lexer : Lexer) (token : Token) : Option Lexer := do
  let lexer ← lexer.dropCandidate?
  let lexer := (lexer.push token).allowKey false
  match lexer.outer with
  | [] => some lexer
  | candidate :: outer => some { lexer with candidate := candidate, outer := outer }

/-- A comma. -/
def flowEntry? (lexer : Lexer) : Option Lexer := do
  let lexer ← lexer.dropCandidate?
  return (lexer.push .flowEntry).allowKey true

/-- The mark of an entry of a block sequence. -/
def blockEntry? (lexer : Lexer) (column : Nat) : Option Lexer := do
  if !lexer.flow && !lexer.keyAllowed then none
  let lexer ← (lexer.openBlock column lexer.tokens.size .blockSequenceStart).dropCandidate?
  return (lexer.push .blockEntry).allowKey true

/-- The mark of a key. -/
def key? (lexer : Lexer) (column : Nat) : Option Lexer := do
  if !lexer.flow && !lexer.keyAllowed then none
  let lexer ← (lexer.openBlock column lexer.tokens.size .blockMappingStart).dropCandidate?
  return (lexer.push .key).allowKey !lexer.flow

/-- The mark of a value. -/
def value? (lexer : Lexer) (column : Nat) : Option Lexer :=
  match lexer.candidate with
  | some candidate =>
      let lexer := lexer.insert candidate.position .key
      let lexer := lexer.openBlock candidate.mark.column candidate.position .blockMappingStart
      some (({ lexer with candidate := none }.push .value).allowKey false)
  | none =>
      if !lexer.flow && !lexer.keyAllowed then none
      else
        let lexer := lexer.openBlock column lexer.tokens.size .blockMappingStart
        some ((lexer.push .value).allowKey !lexer.flow)

/-! ## One token after another -/

/-- Skips what stands between two tokens: blanks, comments, line breaks, and a byte order mark at the very
start.  A tab counts as a blank only where no key can start.  Also says whether a key can start after
that: after a line break outside of flow collections it can. -/
def skipSpace (flow keyAllowed comment : Bool) : Input → Bool × Input
  | [] => (keyAllowed, [])
  | m :: rest =>
      if isBreak m.char then skipSpace flow (keyAllowed || !flow) false rest
      else if comment then skipSpace flow keyAllowed true rest
      else if m.char == ' ' || (m.char == '\t' && (flow || !keyAllowed)) then
        skipSpace flow keyAllowed false rest
      else if m.char == '#' then skipSpace flow keyAllowed true rest
      else if m.char == '\ufeff' && m.index == 0 then skipSpace flow keyAllowed false rest
      else (keyAllowed, m :: rest)

/-- Whether a plain scalar can start with the first character of the input. -/
def startsPlain (flow : Bool) (input : Input) : Bool :=
  match input with
  | [] => false
  | m :: _ =>
      let c := m.char
      !(isBlank c || isBreak c || isFlowMark c || "-?:#&*!|>'\"%@".toList.contains c || c == '\x60') ||
        (c == '-' && !(input.peek? 1).any isBlank) ||
        (!flow && (c == '?' || c == ':') && !input.endsWordAt 1)

/-- Reads the token that starts with `m`. -/
def next? (lexer : Lexer) (m : Marked) (rest : Input) : Option (Lexer × Input) := do
  let input : Input := m :: rest
  let lexer ← lexer.dropStale? m
  let lexer := lexer.closeBlocks m.column
  let scalar (lexer : Lexer) (style : Style) (scalar : ScalarRead) :=
    (lexer.push (.scalar scalar.text style), scalar.rest)
  if m.column == 0 && m.char == '%' then
    let (token, rest) ← directive? rest
    return (← lexer.documentLevel? token, rest)
  if input.atDocumentMark then
    let token := if m.char == '-' then .documentStart else .documentEnd
    return (← lexer.documentLevel? token, input.drop 3)
  match m.char with
  | '[' => return (← lexer.openFlow? m .flowSequenceStart, rest)
  | '\x7b' => return (← lexer.openFlow? m .flowMappingStart, rest)
  | ']' => return (← lexer.closeFlow? .flowSequenceEnd, rest)
  | '\x7d' => return (← lexer.closeFlow? .flowMappingEnd, rest)
  | ',' => return (← lexer.flowEntry?, rest)
  | '*' =>
      let lexer ← lexer.saveCandidate? m
      let (name, rest) ← anchorName? rest
      return ((lexer.push (.alias name)).allowKey false, rest)
  | '&' =>
      let lexer ← lexer.saveCandidate? m
      let (name, rest) ← anchorName? rest
      return ((lexer.push (.anchor name)).allowKey false, rest)
  | '!' =>
      let lexer ← lexer.saveCandidate? m
      let (token, rest) ← tag? lexer.flow input
      return ((lexer.push token).allowKey false, rest)
  | '\'' =>
      let lexer ← lexer.saveCandidate? m
      return scalar (lexer.allowKey false) .quoted (← singleQuotedFrom? [] .none rest)
  | '"' =>
      let lexer ← lexer.saveCandidate? m
      return scalar (lexer.allowKey false) .quoted (← doubleQuotedFrom? [] .none rest)
  | c =>
      if c == '-' && input.endsWordAt 1 then return (← lexer.blockEntry? m.column, rest)
      if c == '?' && (lexer.flow || input.endsWordAt 1) then return (← lexer.key? m.column, rest)
      if c == ':' && (lexer.flow || input.endsWordAt 1) then return (← lexer.value? m.column, rest)
      if (c == '|' || c == '>') && !lexer.flow then
        let lexer ← lexer.dropCandidate?
        let style := if c == '>' then .folded else .literal
        return scalar (lexer.allowKey true) style (← block? (c == '>') lexer.indent rest)
      if startsPlain lexer.flow input then
        let lexer ← lexer.saveCandidate? m
        let read ← plain? lexer.flow lexer.contentColumn input
        return scalar (lexer.allowKey read.endsLine) .plain read
      none

/-- Reads tokens to the end of the text. -/
def run? (lexer : Lexer) (input : Input) : Option Lexer :=
  match skipSpace lexer.flow lexer.keyAllowed false input with
  | (_, []) => lexer.closeAllBlocks.dropCandidate?
  | (keyAllowed, m :: rest) =>
      match (lexer.allowKey keyAllowed).next? m rest with
      | none => none
      | some (lexer, rest') => if rest'.length < input.length then lexer.run? rest' else none
termination_by input.length

end Lexer

/-- The tokens of a text. -/
def Token.scan? (text : String) : Option (List Token) := do
  let lexer ← Lexer.run? {} (← ofText? text)
  return lexer.tokens.toList

end LoopHoist.Yaml
