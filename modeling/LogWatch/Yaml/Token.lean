import LogWatch.Yaml.Cursor

/-!
Tokens of YAML, and the small ones that are read by themselves: directives, anchors and tags.
-/

namespace LogWatch.Yaml

/-- How a scalar is written: plainly, line by line in a block, or in any other way. -/
inductive Form where
  | plain
  | lines
  | other
deriving DecidableEq, Repr

inductive Token where
  | version (major minor : Nat)
  | tagHandle (handle start : List Char)
  | documentStart
  | documentEnd
  | blockSequenceStart
  | blockMappingStart
  | blockEnd
  | flowSequenceStart
  | flowSequenceEnd
  | flowMappingStart
  | flowMappingEnd
  | blockEntry
  | flowEntry
  | key
  | value
  | alias (name : List Char)
  | anchor (name : List Char)
  | tag (handle rest : List Char)
  | scalar (text : List Char) (form : Form)
deriving DecidableEq, Repr

namespace Token

/-- Reads the name after `*` or `&`; it ends at a blank or at an indicator that cannot belong to
it. -/
def readName (c : Cursor) : Except YamlError (List Char × Cursor) :=
  let c := c.skip 1
  let name := c.rest.takeWhile isWord
  let c := c.skip name.length
  let ends := startsBlank c.rest || match c.rest with
    | d :: _ => ['?', ':', ',', ']', '}', '%', '@', '`'].contains d
    | [] => true
  if name.isEmpty || !ends then .error .badAnchor else .ok (name, c)

/-- The characters of a tag; some more may stand between angle brackets. -/
def isTagChar (verbatim : Bool) (c : Char) : Bool :=
  isWord c || [';', '/', '?', ':', '@', '&', '=', '+', '$', '.', '!', '~', '*', '\'', '(', ')',
    '%'].contains c || (verbatim && [',', '[', ']'].contains c)

/-- How many bytes a character has that starts with a byte. -/
def bytesOf? (first : Nat) : Option Nat :=
  if first < 0x80 then some 1
  else if 0xc0 ≤ first && first < 0xe0 then some 2
  else if 0xe0 ≤ first && first < 0xf0 then some 3
  else if 0xf0 ≤ first && first < 0xf8 then some 4
  else none

/-- Reads on a tag in which a percent sign writes a byte; `left` bytes are missing of a character
whose bytes so far make `n`. The answer is the text and how many characters it took. -/
def readTagChars (verbatim : Bool) (left n : Nat) (taken : Nat) (text : List Char) :
    List Char → Except YamlError (List Char × Nat)
  | '%' :: a :: b :: s => do
    let some a := hexValue? a | throw .badTag
    let some b := hexValue? b | throw .badTag
    let byte := a * 16 + b
    if left > 0 then
      if byte / 0x40 != 2 then throw .badTag
      let n := n * 0x40 + byte % 0x40
      if left == 1 then readTagChars verbatim 0 0 (taken + 3) (Char.ofNat n :: text) s
      else readTagChars verbatim (left - 1) n (taken + 3) text s
    else match bytesOf? byte with
      | none => throw .badTag
      | some 1 => readTagChars verbatim 0 0 (taken + 3) (Char.ofNat byte :: text) s
      | some k => readTagChars verbatim (k - 1) (byte % (1 <<< (7 - k))) (taken + 3) text s
  | c :: s =>
    if left > 0 || c == '%' then .error .badTag
    else if isTagChar verbatim c then readTagChars verbatim 0 0 (taken + 1) (c :: text) s
    else .ok (text.reverse, taken)
  | [] => if left > 0 then .error .badTag else .ok (text.reverse, taken)

/-- Reads the characters of a tag after `start`, which counts for its length. -/
def readTagRest (verbatim : Bool) (start : List Char) (c : Cursor) :
    Except YamlError (List Char × Cursor) := do
  let (text, taken) ← readTagChars verbatim 0 0 0 [] c.rest
  if start.isEmpty && taken == 0 then throw .badTag
  return (start.drop 1 ++ text, c.skip taken)

/-- Reads a handle: an exclamation mark, a word and, if there is one, a second mark. -/
def readHandle (c : Cursor) : Except YamlError (List Char × Cursor) :=
  match c.rest with
  | '!' :: s =>
    let word := s.takeWhile isWord
    let c := c.skip (word.length + 1)
    match c.rest with
    | '!' :: _ => .ok ('!' :: word ++ ['!'], c.skip 1)
    | _ => .ok ('!' :: word, c)
  | _ => .error .badTag

/-- Reads a tag as its handle and the rest. -/
def readTag (inFlow : Bool) (c : Cursor) : Except YamlError (Token × Cursor) := do
  let (token, c) ← match c.rest with
    | '!' :: '<' :: _ => do
      let (text, c) ← readTagRest true [] (c.skip 2)
      match c.rest with
      | '>' :: _ => pure (Token.tag [] text, c.skip 1)
      | _ => throw YamlError.badTag
    | _ => do
      let (handle, c) ← readHandle c
      if handle.length > 1 && handle.getLast? == some '!' then
        let (text, c) ← readTagRest false [] c
        pure (Token.tag handle text, c)
      else
        let (text, c) ← readTagRest false handle c
        pure (if text.isEmpty then Token.tag [] ['!'] else Token.tag ['!'] text, c)
  if startsBlank c.rest || (inFlow && c.rest.head? == some ',') then return (token, c)
  throw .badTag

def longestNumber : Nat := 9

def readNumber (c : Cursor) : Except YamlError (Nat × Cursor) :=
  let digits := c.rest.takeWhile Char.isDigit
  if digits.isEmpty || digits.length > longestNumber then .error .badDirective
  else .ok (digits.foldl (fun n d => n * 10 + (d.toNat - '0'.toNat)) 0, c.skip digits.length)

/-- Reads a directive with the rest of its line. -/
def readDirective (c : Cursor) : Except YamlError (Token × Cursor) := do
  let c := c.skip 1
  let name := c.rest.takeWhile isWord
  let c := c.skip name.length
  if name.isEmpty || !startsBlank c.rest then throw .badDirective
  let (token, c) ←
    if name = "YAML".toList then do
      let (major, c) ← readNumber (c.skipWhile isBlank)
      if c.rest.head? != some '.' then throw YamlError.badDirective
      let (minor, c) ← readNumber (c.skip 1)
      pure (Token.version major minor, c)
    else if name = "TAG".toList then do
      let (handle, c) ← readHandle (c.skipWhile isBlank)
      if handle.length > 1 && handle.getLast? != some '!' then throw YamlError.badDirective
      if !(c.rest.head?.any isBlank) then throw YamlError.badDirective
      let (start, c) ← readTagRest true [] (c.skipWhile isBlank)
      if !startsBlank c.rest then throw YamlError.badDirective
      pure (Token.tagHandle handle start, c)
    else throw YamlError.badDirective
  let c := c.skipWhile isBlank
  let c := if c.rest.head? == some '#' then c.skipWhile (!isBreak ·) else c
  if !startsBreak c.rest then throw .badDirective
  return (token, c.skipBreak)

end Token

end LogWatch.Yaml
