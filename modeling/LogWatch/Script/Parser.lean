import LogWatch.Script.Syntax
import LogWatch.Text.Split

/-!
Reading a script. Every reader takes what it wants from the front of the text and leaves the rest;
a number, larger than the text has characters, bounds how deep commands lie in commands.
-/

namespace LogWatch.Script

abbrev Read := StateT (List Char) Option

namespace Read

def isBlank (c : Char) : Bool := c = ' ' || c = '\t'
def isNameStart (c : Char) : Bool := c.isAlpha || c = '_'
def isNameChar (c : Char) : Bool := c.isAlphanum || c = '_'

/-- Whether a character ends a word that is not quoted. -/
def endsWord (c : Char) : Bool := isBlank c || "\n;&|<>()".toList.contains c

def peek? : Read (Option Char) := do return (← get).head?

def skip (n : Nat) : Read Unit := modify (·.drop n)

def takeWhile (p : Char → Bool) : Read String := do
  let s ← get
  set (s.dropWhile p)
  return String.ofList (s.takeWhile p)

/-- Takes a text if it stands next. -/
def accept (text : String) : Read Bool := do
  let s ← get
  if text.toList.isPrefixOf s then
    skip text.length
    return true
  else return false

def expect (text : String) : Read Unit := do
  guard (← accept text)

/-- Skips blanks, comments and broken lines. -/
def blanks : Nat → Read Unit
  | 0 => pure ()
  | n + 1 => do
    match ← get with
    | '\\' :: '\n' :: _ => skip 2; blanks n
    | '#' :: s => set (s.dropWhile (· ≠ '\n'))
    | c :: _ => if isBlank c then skip 1; blanks n
    | [] => pure ()

def gap : Read Unit := do blanks (← get).length

/-- Skips blanks, line ends and semicolons. -/
def lines : Nat → Read Unit
  | 0 => pure ()
  | n + 1 => do
    gap
    if (← peek?) == some '\n' then skip 1; lines n

def breaks : Read Unit := do lines (← get).length

/-- The text up to the brackets that close an arithmetic expression, `depth` brackets deep. -/
def sumBody : Nat → List Char → Option (List Char × List Char)
  | 0, ')' :: ')' :: s => some ([], s)
  | _, [] => none
  | depth, c :: s =>
    let depth := if c = '(' then depth + 1 else if c = ')' then depth - 1 else depth
    (sumBody depth s).map fun (body, rest) => (c :: body, rest)

/-- What follows a dollar sign. -/
def value (quoted : Bool) : Read Piece := do
  match ← get with
  | '(' :: '(' :: s =>
    let (body, rest) ← sumBody 0 s
    set rest
    return .sum (String.ofList body) quoted
  | '{' :: s =>
    let inner := s.takeWhile (· ≠ '}')
    guard (inner.length < s.length)
    skip (inner.length + 2)
    let name := inner.takeWhile isNameChar
    let name := if name.isEmpty then inner.take 1 else name
    let rest := inner.drop name.length
    let name := String.ofList name
    match rest with
    | [] => return .value name quoted
    | ':' :: '-' :: other => return .valueOr name true (String.ofList other) quoted
    | '-' :: other => return .valueOr name false (String.ofList other) quoted
    | _ => failure
  | c :: _ =>
    if isNameStart c then return .value (← takeWhile isNameChar) quoted
    else if c.isDigit || "@*#?$!".toList.contains c then
      skip 1
      return .value c.toString quoted
    else return .text "$"
  | [] => return .text "$"

/-- The rest of a text in double quotes. -/
def doubleQuoted : Nat → Read Word
  | 0 => failure
  | n + 1 => do
    match ← get with
    | '"' :: _ => skip 1; return []
    | '\\' :: '\n' :: _ => skip 2; doubleQuoted n
    | '\\' :: c :: _ =>
      skip 2
      let kept := if "$\x60\"\\".toList.contains c then c.toString else String.ofList ['\\', c]
      return .text kept :: (← doubleQuoted n)
    | '$' :: _ =>
      skip 1
      let piece ← value true
      return piece :: (← doubleQuoted n)
    | c :: _ =>
      skip 1
      return .text c.toString :: (← doubleQuoted n)
    | [] => failure

def pieces : Nat → Read Word
  | 0 => return []
  | n + 1 => do
    match ← get with
    | [] => return []
    | '\'' :: s =>
      let inner := s.takeWhile (· ≠ '\'')
      guard (inner.length < s.length)
      skip (inner.length + 2)
      return .text (String.ofList inner) :: (← pieces n)
    | '"' :: s =>
      skip 1
      let inner ← doubleQuoted (s.length + 1)
      return .text "" :: inner ++ (← pieces n)
    | '\\' :: '\n' :: _ => skip 2; pieces n
    | '\\' :: c :: _ =>
      skip 2
      return .text c.toString :: (← pieces n)
    | '$' :: _ =>
      skip 1
      let piece ← value false
      return piece :: (← pieces n)
    | c :: _ =>
      if endsWord c then return []
      skip 1
      return .text c.toString :: (← pieces n)

/-- A word, if one stands next. -/
def word? : Read (Option Word) := do
  gap
  match ← get with
  | [] => return none
  | s@(c :: _) =>
    if endsWord c then return none
    return some (← pieces s.length)

/-- The characters of the next word as they are written. -/
def ahead : Read String := do
  gap
  return String.ofList ((← get).takeWhile fun c => !endsWord c)

/-- Takes a word of the language itself if it stands next. -/
def keyword (w : String) : Read Bool := do
  if (← ahead) == w then
    skip w.length
    return true
  else return false

def demand (w : String) : Read Unit := do
  guard (← keyword w)

def closers : List String := ["then", "elif", "else", "fi", "do", "done", "\x7d"]

/-- A redirection, if one stands next; `channel` is the number that was written before it. -/
def redirect? : Read (Option Redirect) := do
  gap
  let s ← get
  let digits := s.takeWhile Char.isDigit
  let sign := (s.drop digits.length).head?
  if sign ≠ some '<' && sign ≠ some '>' then return none
  skip digits.length
  let channel (usual : Nat) : Nat := (Text.natural? digits).getD usual
  let path : Read Word := do
    match ← word? with
    | some w => return w
    | none => failure
  if ← accept ">>" then return some ⟨channel 1, .append (← path)⟩
  if ← accept ">&" then
    gap
    let target ← takeWhile Char.isDigit
    return some ⟨channel 1, .same (← Text.natural? target.toList)⟩
  if ← accept ">|" then return some ⟨channel 1, .write (← path)⟩
  if ← accept ">" then return some ⟨channel 1, .write (← path)⟩
  expect "<"
  return some ⟨channel 0, .read (← path)⟩

def redirects : Nat → Read (List Redirect)
  | 0 => return []
  | n + 1 => do
    match ← redirect? with
    | some r => return r :: (← redirects n)
    | none => return []

def words : Nat → Read (List Word)
  | 0 => return []
  | n + 1 => do
    match ← word? with
    | some w => return w :: (← words n)
    | none => return []

/-- The name that a word sets, if it is an assignment. -/
def assigned? : Read (Option String) := do
  let s ← ahead
  let name := s.toList.takeWhile isNameChar
  match name, s.toList.drop name.length with
  | c :: _, '=' :: _ =>
    if isNameStart c then
      skip (name.length + 1)
      return some (String.ofList name)
    else return none
  | _, _ => return none

/-- A simple command from here on: assignments first, then words and redirections. -/
def simple : Nat → Read Cmd
  | 0 => return .simple [] [] []
  | n + 1 => do
    if let some r ← redirect? then
      match ← simple n with
      | .simple sets words rs => return .simple sets words (r :: rs)
      | c => return c
    else if let some name ← assigned? then
      let w ← pieces (← get).length
      match ← simple n with
      | .simple sets words rs => return .simple ((name, w) :: sets) words rs
      | c => return c
    else arguments (n + 1)
where
  arguments : Nat → Read Cmd
    | 0 => return .simple [] [] []
    | n + 1 => do
      if let some r ← redirect? then
        match ← arguments n with
        | .simple sets words rs => return .simple sets words (r :: rs)
        | c => return c
      else match ← word? with
        | some w =>
          match ← arguments n with
          | .simple sets words rs => return .simple sets (w :: words) rs
          | c => return c
        | none => return .simple [] [] []

mutual

def command : Nat → Read Cmd
  | 0 => failure
  | n + 1 => do
    let inner : Read (Option Cmd) := do
      if ← keyword "if" then return some (← branches n)
      if ← keyword "while" then return some (← loop n true)
      if ← keyword "until" then return some (← loop n false)
      if ← keyword "for" then
        gap
        let name ← takeWhile isNameChar
        guard (name ≠ "")
        let values ← if ← keyword "in" then words (← get).length else pure [[.value "@" true]]
        gap
        let _ ← accept ";"
        breaks
        demand "do"
        let body ← sequence n
        demand "done"
        return some (.each name values body)
      if ← keyword "\x7b" then
        let body ← sequence n
        demand "\x7d"
        return some body
      gap
      if ← accept "(" then
        let body ← sequence n
        gap
        expect ")"
        return some (.apart body)
      return none
    match ← inner with
    | some c =>
      match ← redirects (← get).length with
      | [] => return c
      | rs => return .redirected c rs
    | none =>
      guard (!closers.contains (← ahead))
      let c ← simple (← get).length
      guard (c ≠ .simple [] [] [])
      return c

/-- A condition with its branches, from the condition on. -/
def branches : Nat → Read Cmd
  | 0 => failure
  | n + 1 => do
    let test ← sequence n
    demand "then"
    let yes ← sequence n
    if ← keyword "elif" then return .choose test yes (← branches n)
    if ← keyword "else" then
      let no ← sequence n
      demand "fi"
      return .choose test yes no
    demand "fi"
    return .choose test yes .nothing

def loop : Nat → Bool → Read Cmd
  | 0, _ => failure
  | n + 1, success => do
    let test ← sequence n
    demand "do"
    let body ← sequence n
    demand "done"
    return .loop success test body

/-- A command with what follows on its success or failure. -/
def chain : Nat → Read Cmd
  | 0 => failure
  | n + 1 => do
    if ← keyword "!" then
      let c ← command n
      links n (.negate c)
    else
      let c ← command n
      links n c

def links : Nat → Cmd → Read Cmd
  | 0, c => return c
  | n + 1, c => do
    gap
    let success := ← accept "&&"
    if success || (← accept "||") then
      breaks
      let negated ← keyword "!"
      let next ← command n
      links n (.after c success (if negated then .negate next else next))
    else return c

/-- Commands one after the other, up to a word that ends them. -/
def sequence : Nat → Read Cmd
  | 0 => failure
  | n + 1 => do
    breaks
    let word ← ahead
    if closers.contains word || (← peek?).all (· = ')') then return .nothing
    let first ← chain n
    gap
    let sign ← peek?
    if sign.any fun c => c = ';' || c = '\n' || c = '&' then
      skip 1
      let first := if sign = some '&' then .beside first else first
      let next ← sequence n
      return if next = .nothing then first else .seq first next
    else return first

end

end Read

/-- A script, if it can be read to its end. -/
def parse? (s : String) : Option Cmd :=
  match (Read.sequence (4 * s.length + 4)).run s.toList with
  | some (c, []) => some c
  | _ => none

end LogWatch.Script
