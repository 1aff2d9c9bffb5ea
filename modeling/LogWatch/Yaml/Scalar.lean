import LogWatch.Yaml.Cursor

/-!
Scalars: texts written plainly, in quotes or as blocks. Plain and quoted texts fold: blanks around
a line break vanish, a single break becomes a space, and of several breaks the first vanishes. Each
reader goes over the characters once and gives the text with the place after it.
-/

namespace LogWatch.Yaml

/-- What has been read since the last visible character of a folded text. -/
structure Gap where
  blanks : List Char
  /-- Whether a line has ended in the gap. -/
  broken : Bool
  /-- The first break, if it counts. -/
  first : List Char
  more : List Char

namespace Gap

def none : Gap := ⟨[], false, [], []⟩

/-- The gap after an escaped break, which itself leaves no trace. -/
def escapedBreak : Gap := ⟨[], true, [], []⟩

def isNone (g : Gap) : Bool := g.blanks.isEmpty && !g.broken

def addBlank (g : Gap) (c : Char) : Gap :=
  if g.broken then g else { g with blanks := g.blanks ++ [c] }

def addBreak (g : Gap) (c : Char) : Gap :=
  if g.broken then { g with more := g.more ++ [breakText c] }
  else ⟨[], true, [breakText c], g.more⟩

/-- The text that a gap stands for. -/
def folded (g : Gap) : List Char :=
  if !g.broken then g.blanks
  else if g.first = ['\n'] then (if g.more.isEmpty then [' '] else g.more)
  else g.first ++ g.more

end Gap

/-! ### Plain texts -/

/-- Where a plain text stands: inside brackets or not, and how far its lines are indented. -/
structure PlainContext where
  inFlow : Bool
  indent : Nat

structure PlainText where
  text : List Char
  /-- Whether the text was followed by the end of a line. -/
  broken : Bool
  after : Cursor

def isFlowIndicator (c : Char) : Bool :=
  c == ',' || c == '[' || c == ']' || c == '{' || c == '}'

/-- Whether a plain text ends at a visible character. -/
def plainEnds (ctx : PlainContext) (c : Char) (rest : List Char) : Bool :=
  (c == ':' && startsBlank rest) || (ctx.inFlow && isFlowIndicator c)

/-- Whether a colon stands where it is neither text nor an indicator. -/
def plainColonFault (ctx : PlainContext) (c : Char) (rest : List Char) : Bool :=
  ctx.inFlow && c == ':' && match rest with
    | d :: _ => isFlowIndicator d || d == '?'
    | [] => false

/-- Reads on a plain text; `text` is what was read, backwards. -/
def readPlain (ctx : PlainContext) (index line column : Nat) (gap : Gap) (text : List Char) :
    List Char → Except YamlError PlainText
  | [] => .ok ⟨text.reverse, gap.broken, ⟨[], index, line, column⟩⟩
  | '\r' :: '\n' :: s => readPlain ctx (index + 2) (line + 1) 0 (gap.addBreak '\n') text s
  | c :: s =>
    let done : Except YamlError PlainText :=
      .ok ⟨text.reverse, gap.broken, ⟨c :: s, index, line, column⟩⟩
    if isBreak c then readPlain ctx (index + 1) (line + 1) 0 (gap.addBreak c) text s
    else if isBlank c then
      if gap.broken && c == '\t' && column < ctx.indent then .error .tabInIndentation
      else readPlain ctx (index + 1) line (column + 1) (gap.addBlank c) text s
    else if !gap.isNone && (c == '#' || (!ctx.inFlow && column < ctx.indent)) then done
    else if column == 0 && startsMarker (c :: s) then done
    else if plainColonFault ctx c s then .error .misplacedIndicator
    else if plainEnds ctx c s then done
    else readPlain ctx (index + 1) line (column + 1) .none (c :: (gap.folded.reverse ++ text)) s

/-! ### Quoted texts -/

def hexNumber? (digits : List Char) : Option Nat :=
  digits.foldlM (fun n c => (hexValue? c).map (n * 16 + ·)) 0

/-- A character by its number, unless no character has it. -/
def character? (n : Nat) : Option Char := if n.isValidChar then some (Char.ofNat n) else none

/-- The escapes of one letter. -/
def shortEscape? : Char → Option Char
  | '0' => some '\x00'
  | 'a' => some '\x07'
  | 'b' => some '\x08'
  | 't' | '\t' => some '\t'
  | 'n' => some '\n'
  | 'v' => some '\x0b'
  | 'f' => some '\x0c'
  | 'r' => some '\r'
  | 'e' => some '\x1b'
  | ' ' => some ' '
  | '"' => some '"'
  | '/' => some '/'
  | '\\' => some '\\'
  | 'N' => some '\u0085'
  | '_' => some '\u00a0'
  | 'L' => some '\u2028'
  | 'P' => some '\u2029'
  | _ => none

/-- How many digits follow the letter of an escape by number. -/
def escapeDigits? : Char → Option Nat
  | 'x' => some 2
  | 'u' => some 4
  | 'U' => some 8
  | _ => none

/-- What a quoted text is read as: single quotes double their quote, double quotes escape. -/
inductive Quote where
  | single
  | double
deriving DecidableEq

def Quote.mark : Quote → Char
  | single => '\''
  | double => '"'

/-- Reads on a quoted text; `skip` characters belong to an escape that has been read. -/
def readQuoted (q : Quote) (skip index line column : Nat) (gap : Gap) (text : List Char) :
    List Char → Except YamlError (List Char × Cursor)
  | [] => .error .unclosedQuote
  | '\r' :: '\n' :: s =>
    readQuoted q 0 (index + 2) (line + 1) 0 (gap.addBreak '\n') text s
  | c :: s =>
    if skip > 0 then readQuoted q (skip - 1) (index + 1) line (column + 1) gap text s
    else if isBreak c then readQuoted q 0 (index + 1) (line + 1) 0 (gap.addBreak c) text s
    else if isBlank c then readQuoted q 0 (index + 1) line (column + 1) (gap.addBlank c) text s
    else if column == 0 && startsMarker (c :: s) then .error .unclosedQuote
    else
      let text := gap.folded.reverse ++ text
      let put (d : Char) (skip : Nat) : Except YamlError (List Char × Cursor) :=
        readQuoted q skip (index + 1) line (column + 1) .none (d :: text) s
      match q, c, s with
      | .single, '\'', '\'' :: _ => put '\'' 1
      | .double, '\\', '\r' :: '\n' :: s' =>
        readQuoted q 0 (index + 3) (line + 1) 0 .escapedBreak text s'
      | .double, '\\', d :: s' =>
        if isBreak d then readQuoted q 0 (index + 2) (line + 1) 0 .escapedBreak text s'
        else match shortEscape? d, escapeDigits? d with
          | some e, _ => put e 1
          | none, some n =>
            let digits := s'.take n
            if digits.length < n then .error .badEscape
            else match (hexNumber? digits).bind character? with
              | some e => put e (n + 1)
              | none => .error .badEscape
          | none, none => .error .badEscape
      | .double, '\\', [] => .error .badEscape
      | _, _, _ =>
        if c == q.mark then .ok (text.reverse, ⟨s, index + 1, line, column + 1⟩) else put c 0

/-! ### Blocks -/

/-- What happens to the breaks at the end of a block. -/
inductive Chomp where
  | strip
  | clip
  | keep
deriving DecidableEq

structure BlockHeader where
  folded : Bool
  chomp : Chomp
  /-- How far the block is indented beyond what holds it, if the header says so. -/
  indent : Option Nat

/-- A block read so far. -/
structure Block where
  /-- The text, backwards. -/
  text : List Char
  /-- The break that ended the last line, and those of the empty lines after it. -/
  last : List Char
  more : List Char
  /-- Whether the last line started with a blank. -/
  blankStart : Bool
  /-- The widest indentation among the lines that have none of their own yet. -/
  widest : Nat

namespace Block

def empty : Block := ⟨[], [], [], false, 0⟩

/-- Starts a line that has text; between two lines that start without a blank one break folds. -/
def startLine (b : Block) (folded : Bool) (c : Char) : Block :=
  let blank := isBlank c
  let breaks :=
    if folded && b.last = ['\n'] && !b.blankStart && !blank then
      (if b.more.isEmpty then [' '] else b.more)
    else b.last ++ b.more
  { b with text := breaks.reverse ++ b.text, last := [], more := [], blankStart := blank }

def put (b : Block) (c : Char) : Block := { b with text := c :: b.text }

def finish (b : Block) (chomp : Chomp) : List Char :=
  match chomp with
  | .strip => b.text.reverse
  | .clip => b.text.reverse ++ b.last
  | .keep => b.text.reverse ++ b.last ++ b.more

end Block

/-- Reads on a block whose lines are indented by `indent`, or by what the first of them shows and
at least `least`; `inLine` says whether the text of a line is being read. -/
def readBlock (h : BlockHeader) (least : Nat) (indent : Option Nat) (inLine : Bool)
    (index line column : Nat) (b : Block) : List Char → Except YamlError (List Char × Cursor)
  | [] => .ok (b.finish h.chomp, ⟨[], index, line, column⟩)
  | '\r' :: '\n' :: s =>
    let b := if inLine then { b with last := ['\n'] }
      else { b with more := b.more ++ ['\n'], widest := max b.widest column }
    readBlock h least indent false (index + 2) (line + 1) 0 b s
  | c :: s =>
    if isBreak c then
      let b := if inLine then { b with last := [breakText c] }
        else { b with more := b.more ++ [breakText c], widest := max b.widest column }
      readBlock h least indent false (index + 1) (line + 1) 0 b s
    else if inLine then readBlock h least indent true (index + 1) line (column + 1) (b.put c) s
    else if c == ' ' && indent.all (column < ·) then
      readBlock h least indent false (index + 1) line (column + 1) b s
    else if c == '\t' && indent.all (column < ·) then .error .tabInIndentation
    else
      let indent := indent.getD (max least (max b.widest column))
      if column == indent then
        let b := (b.startLine h.folded c).put c
        readBlock h least (some indent) true (index + 1) line (column + 1) b s
      else .ok (b.finish h.chomp, ⟨c :: s, index, line, column⟩)

/-- The header of a block after its indicator: chomping and indentation in either order. -/
def readHeader (folded : Bool) (c : Cursor) : Except YamlError (BlockHeader × Cursor) := do
  let chomp? (c : Cursor) : Option Chomp × Cursor :=
    match c.rest with
    | '+' :: _ => (some .keep, c.skip 1)
    | '-' :: _ => (some .strip, c.skip 1)
    | _ => (none, c)
  let indent? (c : Cursor) : Except YamlError (Option Nat × Cursor) :=
    match c.rest with
    | '0' :: _ => .error .badBlockHeader
    | d :: _ => .ok (if d.isDigit then (some (d.toNat - '0'.toNat), c.skip 1) else (none, c))
    | [] => .ok (none, c)
  let (before, c) := chomp? c
  let (indent, c) ← indent? c
  let (after, c) := match before with
    | some _ => (before, c)
    | none => if indent.isSome then chomp? c else (none, c)
  let c := c.skipWhile isBlank
  let c := if c.rest.head? == some '#' then c.skipWhile (!isBreak ·) else c
  if !startsBreak c.rest then throw .badBlockHeader
  return (⟨folded, after.getD .clip, indent⟩, c.skipBreak)

end LogWatch.Yaml
