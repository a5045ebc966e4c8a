import LoopHoist.Yaml.Lexer

/-!
# Nodes

The tokens of a text describe a tree: scalars, sequences and mappings, each of which can have a tag, and
aliases for nodes that were named before.  `document?` finds the tree of a text that holds one document, or
none.

An alias stands for the node it names.  Inside of the very node that it names there is no such tree, and
the node `cycle` stands in its place.
-/

namespace LoopHoist.Yaml

/-- A node of a document. -/
inductive Node where
  | scalar (tag : Option String) (text : String) (style : Style)
  | sequence (tag : Option String) (elements : List Node)
  | mapping (tag : Option String) (entries : List (Node × Node))
  /-- A node inside of itself. -/
  | cycle

/-- The node where nothing is written. -/
def Node.empty : Node := .scalar none "" .plain

/-! ## Properties of nodes -/

/-- What can stand in front of a node. -/
structure Properties where
  anchor : Option String := none
  /-- The handle and the suffix of the tag. -/
  tag : Option (String × String) := none

/-- The properties that tokens start with, in either order, and the rest. -/
def Properties.take : List Token → Properties × List Token
  | .anchor name :: .tag handle suffix :: rest => (⟨some name, some (handle, suffix)⟩, rest)
  | .tag handle suffix :: .anchor name :: rest => (⟨some name, some (handle, suffix)⟩, rest)
  | .anchor name :: rest => (⟨some name, none⟩, rest)
  | .tag handle suffix :: rest => (⟨none, some (handle, suffix)⟩, rest)
  | tokens => ({}, tokens)

/-- Whether there are none. -/
def Properties.isEmpty (properties : Properties) : Bool :=
  properties.anchor.isNone && properties.tag.isNone

/-- What handles stand for in the tags of a document. -/
abbrev Handles := List (String × String)

/-- The handles that every document knows. -/
def Handles.standard : Handles := [("!", "!"), ("!!", "tag:yaml.org,2002:")]

/-- The whole tag, if its handle is known. -/
def Handles.tag? (handles : Handles) : Option (String × String) → Option (Option String)
  | none => some none
  | some (handle, suffix) =>
      if handle.isEmpty then some (some suffix)
      else (handles.lookup handle).map fun uri => some (uri ++ suffix)

/-! ## Named nodes -/

/-- The tokens still to be read, and the nodes named so far, latest last. -/
structure Cursor where
  tokens : List Token
  named : List (String × Node) := []

namespace Cursor

/-- The node that a name stands for. -/
def lookup? (cursor : Cursor) (name : String) : Option Node :=
  cursor.named.reverse.lookup name

/-- The cursor at other tokens. -/
def goTo (cursor : Cursor) (tokens : List Token) : Cursor := { cursor with tokens := tokens }

/-- Announces a name for the node that comes next. -/
def announce (cursor : Cursor) : Option String → Cursor
  | none => cursor
  | some name => { cursor with named := cursor.named ++ [(name, .cycle)] }

/-- Gives the name that was announced when `count` others were known to a node. -/
def assign (cursor : Cursor) (count : Nat) (node : Node) : Option String → Cursor
  | none => cursor
  | some name => { cursor with named := cursor.named.set count (name, node) }

end Cursor

/-! ## Trees

The fuel bounds the number of nested calls.  A token is read at least at every fourth of them, so four
times the number of tokens is enough. -/

mutual

/-- The node at a cursor.  `block` says whether it can be a block, and `indentless` whether it can be a
block sequence without a start of its own, as the values of block mappings can. -/
def node? (handles : Handles) (block indentless : Bool) : Nat → Cursor → Option (Node × Cursor)
  | 0, _ => none
  | fuel + 1, cursor =>
      match cursor.tokens with
      | .alias name :: rest => (cursor.lookup? name).map fun node => (node, cursor.goTo rest)
      | tokens => do
          let (properties, tokens) := Properties.take tokens
          let tag ← handles.tag? properties.tag
          let inside := (cursor.goTo tokens).announce properties.anchor
          let (node, after) ← content? handles block indentless properties tag fuel inside
          return (node, after.assign cursor.named.length node properties.anchor)

/-- The node at a cursor after its properties. -/
def content? (handles : Handles) (block indentless : Bool) (properties : Properties)
    (tag : Option String) : Nat → Cursor → Option (Node × Cursor)
  | 0, _ => none
  | fuel + 1, cursor =>
      let missing := if properties.isEmpty then none else some (.scalar tag "" .plain, cursor)
      match cursor.tokens with
      | .scalar text style :: rest =>
          some (.scalar (tag.filter (· != "!")) text style, cursor.goTo rest)
      | .flowSequenceStart :: rest => do
          let (elements, cursor) ← flowElements? handles true fuel (cursor.goTo rest)
          return (.sequence tag elements, cursor)
      | .flowMappingStart :: rest => do
          let (entries, cursor) ← flowEntries? handles true fuel (cursor.goTo rest)
          return (.mapping tag entries, cursor)
      | .blockEntry :: _ =>
          if indentless then do
            let (elements, cursor) ← indentlessElements? handles fuel cursor
            return (.sequence tag elements, cursor)
          else missing
      | .blockSequenceStart :: rest =>
          if block then do
            let (elements, cursor) ← blockElements? handles fuel (cursor.goTo rest)
            return (.sequence tag elements, cursor)
          else missing
      | .blockMappingStart :: rest =>
          if block then do
            let (entries, cursor) ← blockEntries? handles fuel (cursor.goTo rest)
            return (.mapping tag entries, cursor)
          else missing
      | _ => missing

/-- The node at a cursor, or the empty one before any of some tokens. -/
def nodeUnless? (handles : Handles) (stops : List Token) (block indentless : Bool) :
    Nat → Cursor → Option (Node × Cursor)
  | 0, _ => none
  | fuel + 1, cursor =>
      if cursor.tokens.head?.any stops.contains then some (.empty, cursor)
      else node? handles block indentless fuel cursor

/-- The value of an entry, which is empty without a mark. -/
def entryValue? (handles : Handles) (stops : List Token) (block : Bool) :
    Nat → Cursor → Option (Node × Cursor)
  | 0, _ => none
  | fuel + 1, cursor =>
      match cursor.tokens with
      | .value :: rest => nodeUnless? handles stops block block fuel (cursor.goTo rest)
      | _ => some (.empty, cursor)

/-- The elements of a block sequence after its start. -/
def blockElements? (handles : Handles) : Nat → Cursor → Option (List Node × Cursor)
  | 0, _ => none
  | fuel + 1, cursor =>
      match cursor.tokens with
      | .blockEnd :: rest => some ([], cursor.goTo rest)
      | .blockEntry :: rest => do
          let (element, cursor) ←
            nodeUnless? handles [.blockEntry, .blockEnd] true false fuel (cursor.goTo rest)
          let (elements, cursor) ← blockElements? handles fuel cursor
          return (element :: elements, cursor)
      | _ => none

/-- The elements of a block sequence without a start of its own, which has no end of its own either. -/
def indentlessElements? (handles : Handles) : Nat → Cursor → Option (List Node × Cursor)
  | 0, _ => none
  | fuel + 1, cursor =>
      match cursor.tokens with
      | .blockEntry :: rest => do
          let (element, cursor) ←
            nodeUnless? handles [.blockEntry, .key, .value, .blockEnd] true false fuel
              (cursor.goTo rest)
          let (elements, cursor) ← indentlessElements? handles fuel cursor
          return (element :: elements, cursor)
      | _ => some ([], cursor)

/-- The entries of a block mapping after its start. -/
def blockEntries? (handles : Handles) : Nat → Cursor → Option (List (Node × Node) × Cursor)
  | 0, _ => none
  | fuel + 1, cursor =>
      match cursor.tokens with
      | .blockEnd :: rest => some ([], cursor.goTo rest)
      | .key :: rest => do
          let stops := [.key, .value, .blockEnd]
          let (key, cursor) ← nodeUnless? handles stops true true fuel (cursor.goTo rest)
          let (value, cursor) ← entryValue? handles stops true fuel cursor
          let (entries, cursor) ← blockEntries? handles fuel cursor
          return ((key, value) :: entries, cursor)
      | _ => none

/-- The elements of a flow sequence after its start, or after an element. -/
def flowElements? (handles : Handles) (first : Bool) : Nat → Cursor → Option (List Node × Cursor)
  | 0, _ => none
  | fuel + 1, cursor =>
      match first, cursor.tokens with
      | _, .flowSequenceEnd :: rest => some ([], cursor.goTo rest)
      | false, .flowEntry :: .flowSequenceEnd :: rest => some ([], cursor.goTo rest)
      | false, .flowEntry :: rest => flowElement? handles fuel (cursor.goTo rest)
      | true, _ => flowElement? handles fuel cursor
      | false, _ => none

/-- The elements of a flow sequence, of which there is one more.  An element that starts with a key is a
mapping with one entry. -/
def flowElement? (handles : Handles) : Nat → Cursor → Option (List Node × Cursor)
  | 0, _ => none
  | fuel + 1, cursor => do
      let (element, cursor) ← match cursor.tokens with
        | .key :: rest => do
            let (key, cursor) ← match rest with
              | .value :: rest => some (.empty, cursor.goTo rest)
              | .flowEntry :: rest => some (.empty, cursor.goTo rest)
              | .flowSequenceEnd :: rest => some (.empty, cursor.goTo rest)
              | rest => node? handles false false fuel (cursor.goTo rest)
            let (value, cursor) ←
              entryValue? handles [.flowEntry, .flowSequenceEnd] false fuel cursor
            some (.mapping none [(key, value)], cursor)
        | _ => node? handles false false fuel cursor
      let (elements, cursor) ← flowElements? handles false fuel cursor
      return (element :: elements, cursor)

/-- The entries of a flow mapping after its start, or after an entry. -/
def flowEntries? (handles : Handles) (first : Bool) :
    Nat → Cursor → Option (List (Node × Node) × Cursor)
  | 0, _ => none
  | fuel + 1, cursor =>
      match first, cursor.tokens with
      | _, .flowMappingEnd :: rest => some ([], cursor.goTo rest)
      | false, .flowEntry :: .flowMappingEnd :: rest => some ([], cursor.goTo rest)
      | false, .flowEntry :: rest => flowEntry? handles fuel (cursor.goTo rest)
      | true, _ => flowEntry? handles fuel cursor
      | false, _ => none

/-- The entries of a flow mapping, of which there is one more.  An entry that does not start with a key
has no value. -/
def flowEntry? (handles : Handles) : Nat → Cursor → Option (List (Node × Node) × Cursor)
  | 0, _ => none
  | fuel + 1, cursor => do
      let (entry, cursor) ← match cursor.tokens with
        | .key :: rest => do
            let (key, cursor) ←
              nodeUnless? handles [.value, .flowEntry, .flowMappingEnd] false false fuel
                (cursor.goTo rest)
            let (value, cursor) ←
              entryValue? handles [.flowEntry, .flowMappingEnd] false fuel cursor
            some ((key, value), cursor)
        | _ => do
            let (key, cursor) ← node? handles false false fuel cursor
            some ((key, .empty), cursor)
      let (entries, cursor) ← flowEntries? handles false fuel cursor
      return (entry :: entries, cursor)

end

/-! ## Documents -/

/-- The handles that directives declare, and the rest of the tokens after the start of the document. -/
def directives? (versioned : Bool) (handles : Handles) : List Token → Option (Handles × List Token)
  | .version major minor :: rest =>
      if versioned || major != 1 || (minor != 1 && minor != 2) then none
      else directives? true handles rest
  | .handle name uri :: rest =>
      if (handles.lookup name).isSome then none
      else directives? versioned (handles ++ [(name, uri)]) rest
  | .documentStart :: rest => some (handles, rest)
  | _ => none

/-- Whether the content of a document that was started can be missing before these tokens. -/
def lacksContent : List Token → Bool
  | [] => true
  | .version .. :: _ => true
  | .handle .. :: _ => true
  | .documentStart :: _ => true
  | .documentEnd :: _ => true
  | _ => false

/-- The root of a document. -/
def root? (handles : Handles) (tokens : List Token) : Option (Node × Cursor) :=
  node? (handles ++ Handles.standard) true false (4 * tokens.length + 4) { tokens := tokens }

/-- The first document and what comes after it. -/
def firstDocument? (tokens : List Token) : Option (Node × Cursor) :=
  match tokens with
  | .version .. :: _ | .handle .. :: _ | .documentStart :: _ => do
      let (handles, rest) ← directives? false [] tokens
      if lacksContent rest then some (.empty, { tokens := rest }) else root? handles rest
  | _ => root? [] tokens

/-- The document of a text that holds one document, or none. -/
def document? (text : String) : Option (Option Node) := do
  let tokens ← Token.scan? text
  if tokens.isEmpty then some none
  else
    let (node, after) ← firstDocument? tokens
    if after.tokens.all (· == .documentEnd) then some (some node) else none

end LoopHoist.Yaml
