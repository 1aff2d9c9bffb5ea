import LogWatch.Yaml.Cursor
import LogWatch.Yaml.Number

/-!
In which forms a text can be written so that it reads as itself. What stands against a form: an
indicator, a blank at an end, a blank beside a break, a break, a character that cannot be seen.
-/

namespace LogWatch.Yaml

/-- Characters that are written as they are. Those beyond the basic plane are not among them. -/
def isVisible (c : Char) : Bool :=
  let n := c.toNat
  n == 0x0a || (0x20 ≤ n && n ≤ 0x7e) || (0xa0 ≤ n && n ≤ 0xd7ff)
    || (0xe000 ≤ n && n ≤ 0xfffd && n ≠ 0xfeff)

def startIndicators : List Char :=
  ['#', ',', '[', ']', '{', '}', '&', '*', '!', '|', '>', '\'', '"', '%', '@', '`']

/-- Whether the characters of a text, after `before`, hold what would end it or begin a comment. -/
def holdsIndicator (before : Char) : List Char → Bool
  | [] => false
  | c :: s =>
    (c == ':' && startsBlank s) || (c == '#' && (isBlank before || isBreak before))
      || holdsIndicator c s

/-- Whether a text written plainly in a block would be read as something with structure. -/
def hasIndicator : List Char → Bool
  | [] => false
  | c :: s =>
    startsMarkerText (c :: s) || startIndicators.contains c
      || ((c == '?' || c == ':' || c == '-') && startsBlank s) || holdsIndicator c s
where
  startsMarkerText : List Char → Bool
    | '-' :: '-' :: '-' :: _ => true
    | '.' :: '.' :: '.' :: _ => true
    | _ => false

/-- Whether somewhere in a text one kind of character is followed by another. -/
def hasPair (p q : Char → Bool) : List Char → Bool
  | a :: b :: s => (p a && q b) || hasPair p q (b :: s)
  | _ => false

/-- What stands in the way of writing a text. -/
structure Shape where
  indicator : Bool
  edgeSpace : Bool
  edgeBreak : Bool
  trailingSpace : Bool
  breaks : Bool
  breakSpace : Bool
  spaceBreak : Bool
  invisible : Bool

def Shape.of (s : List Char) : Shape :=
  let space (c : Char) : Bool := c == ' '
  { indicator := hasIndicator s
    edgeSpace := s.head?.any space || s.getLast?.any space
    edgeBreak := s.head?.any isBreak || s.getLast?.any isBreak
    trailingSpace := s.getLast?.any space
    breaks := s.any isBreak
    breakSpace := hasPair isBreak space s
    spaceBreak := hasPair space isBreak s
    invisible := s.any (!isVisible ·) }

namespace Shape

def allowsSingle (sh : Shape) : Bool := !sh.breakSpace && !sh.spaceBreak && !sh.invisible

def allowsPlain (sh : Shape) : Bool :=
  sh.allowsSingle && !sh.edgeSpace && !sh.edgeBreak && !sh.breaks && !sh.indicator

def allowsBlock (sh : Shape) : Bool := !sh.trailingSpace && !sh.spaceBreak && !sh.invisible

end Shape

inductive Style where
  | plain
  | single
  | double
  | literal
deriving DecidableEq, Repr

/-- The longest key, in bytes, that stands before its colon on one line. -/
def longestSimpleKey : Nat := 128

/-- Whether a key stands on one line with its colon. -/
def isSimpleKey (text : String) : Bool :=
  !text.toList.any isBreak && text.utf8ByteSize ≤ longestSimpleKey

/-- How a text is written: in several lines if it has several, in quotes if it would read as
something else, and plainly otherwise; each only as far as its shape allows. -/
def styleOf (text : String) : Style :=
  let sh := Shape.of text.toList
  if text.toList.contains '\n' then (if sh.allowsBlock then .literal else .double)
  else if !readsAsOther text && sh.allowsPlain then .plain
  else if sh.allowsSingle then .single
  else .double

end LogWatch.Yaml
