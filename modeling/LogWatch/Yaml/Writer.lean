import LogWatch.Yaml.Style

/-!
Writing values as YAML in block style. Mappings within mappings are indented by two spaces, the
items of a list stand where its key stands, and what is empty is written in brackets. The pen knows
its column and what it wrote last, because a new line begins only where the text is not at the
start of one already.
-/

namespace LogWatch.Yaml

inductive Value where
  | null
  | number (n : Nat)
  | text (s : String)
  | list (items : List String)
  | mapping (entries : List (String × Value))
deriving Repr

structure Pen where
  /-- What is written, backwards. -/
  written : List Char
  column : Nat
  /-- Whether the last thing written was a space or the start of a line. -/
  spaced : Bool
  /-- Whether nothing but indentation stands on the line. -/
  indenting : Bool

namespace Pen

def start : Pen := ⟨[], 0, true, true⟩

def put (p : Pen) (c : Char) : Pen := { p with written := c :: p.written, column := p.column + 1 }

def puts (p : Pen) (s : List Char) : Pen := s.foldl put p

/-- Writes a break, after which the line is empty. -/
def putBreak (p : Pen) (c : Char) : Pen := { p with written := c :: p.written, column := 0 }

/-- Writes an indicator, after a space if it needs one. -/
def indicator (p : Pen) (s : String) (needsSpace spaced indenting : Bool) : Pen :=
  let p := if needsSpace && !p.spaced then p.put ' ' else p
  { p.puts s.toList with spaced, indenting := p.indenting && indenting }

/-- Goes to an indentation, on a new line unless the pen is at the start of one. -/
def indent (p : Pen) (n : Nat) : Pen :=
  let p :=
    if !p.indenting || p.column > n || (p.column == n && !p.spaced) then p.putBreak '\n' else p
  { p.puts (List.replicate (n - p.column) ' ') with spaced := true, indenting := true }

def ended (p : Pen) : Pen := { p with spaced := false, indenting := false }

def plain (p : Pen) (s : List Char) : Pen :=
  let p := if !p.spaced && !s.isEmpty then p.put ' ' else p
  (p.puts s).ended

/-- Writes on a text in single quotes; `broken` says that the last character was a break. -/
def singleRest (n : Nat) (p : Pen) (broken : Bool) : List Char → Pen
  | [] => if broken then p.indent n else p
  | c :: s =>
    if c == ' ' then singleRest n (p.put c) broken s
    else if isBreak c then
      let p := if !broken && c == '\n' then p.putBreak '\n' else p
      singleRest n { p.putBreak c with indenting := true } true s
    else
      let p := if broken then p.indent n else p
      let p := if c == '\'' then p.put '\'' else p
      singleRest n { p.put c with indenting := false } false s

def single (p : Pen) (n : Nat) (s : List Char) : Pen :=
  let p := p.indicator "'" true false false
  let p := singleRest n p false s
  (p.indicator "'" false false false).ended

def hexDigit (n : Nat) : Char := Char.ofNat (if n < 10 then '0'.toNat + n else 'A'.toNat + n - 10)

/-- So many hexadecimal digits of a number, the last ones. -/
def hexDigits : Nat → Nat → List Char
  | 0, _ => []
  | k + 1, n => hexDigits k (n / 16) ++ [hexDigit (n % 16)]

/-- A character as an escape. -/
def escape (c : Char) : List Char :=
  match c with
  | '\x00' => ['\\', '0']
  | '\x07' => ['\\', 'a']
  | '\x08' => ['\\', 'b']
  | '\t' => ['\\', 't']
  | '\n' => ['\\', 'n']
  | '\x0b' => ['\\', 'v']
  | '\x0c' => ['\\', 'f']
  | '\r' => ['\\', 'r']
  | '\x1b' => ['\\', 'e']
  | '"' => ['\\', '"']
  | '\\' => ['\\', '\\']
  | '\u0085' => ['\\', 'N']
  | '\u00a0' => ['\\', '_']
  | '\u2028' => ['\\', 'L']
  | '\u2029' => ['\\', 'P']
  | c =>
    let n := c.toNat
    if n ≤ 0xff then '\\' :: 'x' :: hexDigits 2 n
    else if n ≤ 0xffff then '\\' :: 'u' :: hexDigits 4 n
    else '\\' :: 'U' :: hexDigits 8 n

def needsEscape (c : Char) : Bool := !isVisible c || isBreak c || c == '"' || c == '\\'

def double (p : Pen) (s : List Char) : Pen :=
  let p := p.indicator "\"" true false false
  let p := p.puts (s.flatMap fun c => if needsEscape c then escape c else [c])
  (p.indicator "\"" false false false).ended

/-- What the header of a block says beyond its indicator: the indentation if the first line does
not show it, and what becomes of the breaks at the end. -/
def hints (s : List Char) : String :=
  let indent := if s.head?.any fun c => c == ' ' || isBreak c then "2" else ""
  let chomp := match s.reverse with
    | [] => "-"
    | c :: before =>
      if !isBreak c then "-"
      else match before with
        | [] => "+"
        | d :: _ => if isBreak d then "+" else ""
  indent ++ chomp

/-- Writes on the lines of a block; `broken` says that the last character was a break. -/
def literalRest (n : Nat) (p : Pen) (broken : Bool) : List Char → Pen
  | [] => p
  | c :: s =>
    if isBreak c then literalRest n { p.putBreak c with indenting := true } true s
    else
      let p := if broken then p.indent n else p
      literalRest n { p.put c with indenting := false } false s

def literal (p : Pen) (n : Nat) (s : List Char) : Pen :=
  let p := p.indicator "|" true false false
  let p := p.indicator (hints s) false false false
  literalRest n { p.putBreak '\n' with spaced := true, indenting := true } true s

/-- Writes a text; its further lines are indented by `n`. -/
def text (p : Pen) (n : Nat) (s : String) : Pen :=
  match styleOf s with
  | .plain => p.plain s.toList
  | .single => p.single n s.toList
  | .double => p.double s.toList
  | .literal => p.literal n s.toList

/-- Writes a key at an indentation and the colon after it. -/
def key (p : Pen) (n : Nat) (k : String) : Pen :=
  let p := p.indent n
  if isSimpleKey k then (p.text (n + 2) k).indicator ":" false false false
  else
    let p := (p.indicator "?" true false true).text (n + 2) k
    (p.indent n).indicator ":" true false true

def items (p : Pen) (n : Nat) (xs : List String) : Pen :=
  xs.foldl (fun p x => ((p.indent n).indicator "-" true false true).text (n + 2) x) p

mutual

/-- Writes a value that stands after a key at an indentation. -/
def value (p : Pen) (n : Nat) : Value → Pen
  | .null => p.plain "null".toList
  | .number k => p.plain (Nat.toDigits 10 k)
  | .text s => p.text (n + 2) s
  | .list [] => (p.indicator "[" true true false).indicator "]" false false false
  | .list xs => p.items n xs
  | .mapping [] => (p.indicator "\x7b" true true false).indicator "\x7d" false false false
  | .mapping es => entries p (n + 2) es

def entries (p : Pen) (n : Nat) : List (String × Value) → Pen
  | [] => p
  | (k, v) :: es => entries (value (key p n k) n v) n es

end

end Pen

/-- A mapping as a whole document. -/
def render (es : List (String × Value)) : String :=
  String.ofList ((Pen.start.entries 0 es).indent 0).written.reverse

end LogWatch.Yaml
