import LogWatch.Yaml.Scalar
import LogWatch.Yaml.Token

/-!
From a text to its tokens. In blocks the indentation opens and closes collections. A key is known
only by the colon after it, so the scanner remembers for each level of brackets where a key may
have started and puts the key token there once the colon comes; a key that has to be one, because
it stands where the lines of a mapping start, must get its colon on its own line.
-/

namespace LogWatch.Yaml

/-- A place where a key may have started. -/
structure PossibleKey where
  /-- How many tokens came before it. -/
  token : Nat
  required : Bool
  index : Nat
  line : Nat
  column : Nat

structure Scanner where
  cursor : Cursor
  /-- How many brackets are open. -/
  flow : Nat
  /-- The indentation of the innermost block, less than zero outside all blocks. -/
  indent : Int
  indents : List Int
  keyAllowed : Bool
  /-- The possible key of each level of brackets, the innermost first. -/
  keys : List (Option PossibleKey)
  tokens : Array Token

namespace Scanner

def start (s : List Char) : Scanner := ⟨.start s, 0, -1, [], true, [none], #[]⟩

def push (s : Scanner) (t : Token) : Scanner := { s with tokens := s.tokens.push t }

def allowKey (s : Scanner) (b : Bool) : Scanner := { s with keyAllowed := b }

def atCursor (s : Scanner) (c : Cursor) : Scanner := { s with cursor := c }

def longestKey : Nat := 1024

/-- Forgets possible keys that a colon can no longer follow. -/
def dropStale (s : Scanner) : Except YamlError Scanner := do
  let keys ← s.keys.mapM fun key? =>
    match key? with
    | some k =>
      if k.line < s.cursor.line || k.index + longestKey < s.cursor.index then
        if k.required then throw YamlError.missingColon else pure none
      else pure (some k)
    | none => pure none
  return { s with keys }

def dropKey (s : Scanner) : Except YamlError Scanner :=
  match s.keys with
  | some k :: keys =>
    if k.required then .error .missingColon else .ok { s with keys := none :: keys }
  | _ => .ok s

/-- Remembers that a key may start here. -/
def saveKey (s : Scanner) : Except YamlError Scanner :=
  if !s.keyAllowed then .ok s
  else do
    let s ← s.dropKey
    let c := s.cursor
    let required := s.flow == 0 && s.indent == (c.column : Int)
    let key := ⟨s.tokens.size, required, c.index, c.line, c.column⟩
    return { s with keys := some key :: s.keys.drop 1 }

/-- Opens a block at a column that is indented further, before the token with a number. -/
def roll (s : Scanner) (column before : Nat) (t : Token) : Scanner :=
  if s.flow > 0 || (column : Int) ≤ s.indent then s
  else { s with
    indents := s.indent :: s.indents
    indent := column
    tokens := s.tokens.insertIdxIfInBounds before t }

/-- The blocks to close before a column, innermost first. -/
def closing (column : Int) : Int → List Int → Nat → Int × List Int × Nat
  | indent, [], n => (indent, [], n)
  | indent, outer :: indents, n =>
    if column < indent then closing column outer indents (n + 1) else (indent, outer :: indents, n)

/-- Closes the blocks that are indented further than a column. -/
def unroll (s : Scanner) (column : Int) : Scanner :=
  if s.flow > 0 then s
  else
    let (indent, indents, n) := closing column s.indent s.indents 0
    { s with indent, indents, tokens := s.tokens ++ Array.replicate n Token.blockEnd }

/-- The place of the next token, and whether a key may start there. -/
def toToken (inFlow keyAllowed comment : Bool) (index line column : Nat) :
    List Char → Cursor × Bool
  | [] => (⟨[], index, line, column⟩, keyAllowed)
  | '\r' :: '\n' :: s => toToken inFlow (keyAllowed || !inFlow) false (index + 2) (line + 1) 0 s
  | c :: s =>
    if isBreak c then toToken inFlow (keyAllowed || !inFlow) false (index + 1) (line + 1) 0 s
    else if comment || c == ' ' || (c == '\t' && (inFlow || !keyAllowed))
        || (index == 0 && c == byteOrderMark) then
      toToken inFlow keyAllowed comment (index + 1) line (column + 1) s
    else if c == '#' then toToken inFlow keyAllowed true (index + 1) line (column + 1) s
    else (⟨c :: s, index, line, column⟩, keyAllowed)

def skipToToken (s : Scanner) : Scanner :=
  let c := s.cursor
  let (cursor, keyAllowed) := toToken (s.flow > 0) s.keyAllowed false c.index c.line c.column c.rest
  { s with cursor, keyAllowed }

/-- A token of so many characters. -/
def take (s : Scanner) (n : Nat) (t : Token) : Scanner :=
  (s.push t).atCursor (s.cursor.skip n)

def marker (s : Scanner) (t : Token) : Except YamlError Scanner := do
  let s ← (s.unroll (-1)).dropKey
  return (s.allowKey false).take 3 t

def directive (s : Scanner) : Except YamlError Scanner := do
  let s ← (s.unroll (-1)).dropKey
  let (t, c) ← Token.readDirective s.cursor
  return ((s.allowKey false).push t).atCursor c

def openFlow (s : Scanner) (t : Token) : Except YamlError Scanner := do
  let s ← s.saveKey
  return { (s.allowKey true).take 1 t with flow := s.flow + 1, keys := none :: s.keys }

def closeFlow (s : Scanner) (t : Token) : Except YamlError Scanner := do
  let s ← s.dropKey
  let s := if s.flow > 0 then { s with flow := s.flow - 1, keys := s.keys.drop 1 } else s
  return (s.allowKey false).take 1 t

def flowEntry (s : Scanner) : Except YamlError Scanner := do
  let s ← s.dropKey
  return (s.allowKey true).take 1 .flowEntry

def blockEntry (s : Scanner) : Except YamlError Scanner := do
  if s.flow == 0 && !s.keyAllowed then throw .misplacedIndicator
  let s := s.roll s.cursor.column s.tokens.size .blockSequenceStart
  let s ← s.dropKey
  return (s.allowKey true).take 1 .blockEntry

def key (s : Scanner) : Except YamlError Scanner := do
  if s.flow == 0 && !s.keyAllowed then throw .misplacedIndicator
  let s := s.roll s.cursor.column s.tokens.size .blockMappingStart
  let s ← s.dropKey
  return (s.allowKey (s.flow == 0)).take 1 .key

def value (s : Scanner) : Except YamlError Scanner :=
  match s.keys with
  | some k :: keys =>
    let tokens := s.tokens.insertIdxIfInBounds k.token Token.key
    let s := { s with keys := none :: keys, tokens }
    let s := s.roll k.column k.token .blockMappingStart
    .ok ((s.allowKey false).take 1 .value)
  | _ =>
    if s.flow == 0 && !s.keyAllowed then .error .misplacedIndicator
    else
      let s := s.roll s.cursor.column s.tokens.size .blockMappingStart
      .ok ((s.allowKey (s.flow == 0)).take 1 .value)

def name (s : Scanner) (f : List Char → Token) : Except YamlError Scanner := do
  let s ← s.saveKey
  let (name, c) ← Token.readName s.cursor
  return ((s.allowKey false).push (f name)).atCursor c

def tag (s : Scanner) : Except YamlError Scanner := do
  let s ← s.saveKey
  let (t, c) ← Token.readTag (s.flow > 0) s.cursor
  return ((s.allowKey false).push t).atCursor c

def block (s : Scanner) (folded : Bool) : Except YamlError Scanner := do
  let s ← s.dropKey
  let (h, c) ← readHeader folded (s.cursor.skip 1)
  let outer := s.indent.toNat
  let indent := h.indent.map (outer + ·)
  let least := max 1 (s.indent + 1).toNat
  let (text, c) ← readBlock h least indent false c.index c.line c.column .empty c.rest
  let form := if folded then Form.other else .lines
  return ((s.allowKey true).push (.scalar text form)).atCursor c

def quoted (s : Scanner) (q : Quote) : Except YamlError Scanner := do
  let s ← s.saveKey
  let c := s.cursor.skip 1
  let (text, c) ← readQuoted q 0 c.index c.line c.column .none [] c.rest
  return ((s.allowKey false).push (.scalar text .other)).atCursor c

def plain (s : Scanner) : Except YamlError Scanner := do
  let s ← s.saveKey
  let c := s.cursor
  let t ← readPlain ⟨s.flow > 0, (s.indent + 1).toNat⟩ c.index c.line c.column .none [] c.rest
  return ((s.allowKey t.broken).push (.scalar t.text .plain)).atCursor t.after

/-- The characters that start no plain text. -/
def isIndicator (c : Char) : Bool :=
  ['-', '?', ':', ',', '[', ']', '{', '}', '#', '&', '*', '!', '|', '>', '\'', '"', '%', '@',
    '`'].contains c

/-- Whether a plain text can start with a character. -/
def startsPlain (inFlow : Bool) (c : Char) (rest : List Char) : Bool :=
  !isIndicator c && !isBlank c && !isBreak c
    || c == '-' && !(rest.head?.any isBlank)
    || !inFlow && (c == '?' || c == ':') && !startsBlank rest

/-- Closes whatever is open at the end of the text. -/
def finish (s : Scanner) : Except YamlError (Array Token) := do
  let s ← (s.unroll (-1)).dropKey
  return s.tokens

/-- Reads the next token of a text that does not end here. -/
def next (s : Scanner) (c : Char) (rest : List Char) : Except YamlError Scanner :=
  let inFlow := s.flow > 0
  if s.cursor.column == 0 && c == '%' then s.directive
  else if s.cursor.column == 0 && startsMarker (c :: rest) then
    s.marker (if c == '-' then .documentStart else .documentEnd)
  else match c with
    | '[' => s.openFlow .flowSequenceStart
    | '{' => s.openFlow .flowMappingStart
    | ']' => s.closeFlow .flowSequenceEnd
    | '}' => s.closeFlow .flowMappingEnd
    | ',' => s.flowEntry
    | '*' => s.name .alias
    | '&' => s.name .anchor
    | '!' => s.tag
    | '\'' => s.quoted .single
    | '"' => s.quoted .double
    | _ =>
      if c == '-' && startsBlank rest then s.blockEntry
      else if c == '?' && (inFlow || startsBlank rest) then s.key
      else if c == ':' && (inFlow || startsBlank rest) then s.value
      else if c == '|' && !inFlow then s.block false
      else if c == '>' && !inFlow then s.block true
      else if startsPlain inFlow c rest then s.plain
      else .error .misplacedIndicator

/-- Reads tokens to the end of the text; every token takes a character at least, so `n` need not
be more than the length of the text and one. -/
def run : Nat → Scanner → Except YamlError (Array Token)
  | 0, s => s.finish
  | n + 1, s => do
    let s ← s.skipToToken.dropStale
    match s.cursor.rest with
    | [] => s.finish
    | c :: rest =>
      let s ← (s.unroll s.cursor.column).next c rest
      run n s

end Scanner

/-- The tokens of a text. A byte order mark at its start does not belong to it. -/
def Token.scan (text : String) : Except YamlError (List Token) := do
  let s := text.toList
  let s := if s.head? == some byteOrderMark then s.drop 1 else s
  if !s.all isAllowed then throw .forbiddenCharacter
  let tokens ← (Scanner.start s).run (s.length + 1)
  return tokens.toList

end LogWatch.Yaml
