import LogWatch.Text.Quoted
import LogWatch.Text.Search

/-!
Events: what a caller waits for, as a formula over text patterns. A pattern has happened once a
line holds it; the two operators combine what has happened. `holds` is the meaning under a
valuation of the patterns, `display` the written form, in which every operand that is not a
pattern stands in parentheses.
-/

namespace LogWatch

inductive Event where
  | pattern (text : String)
  | and (left right : Event)
  | or (left right : Event)
deriving DecidableEq, Repr

namespace Event

/-- The left fold of a nonempty list under `and`. -/
def all (first : Event) (more : List Event) : Event := more.foldl and first

def any (first : Event) (more : List Event) : Event := more.foldl or first

/-- The right fold of a nonempty list under `and`. -/
def allRight : Event → List Event → Event
  | first, [] => first
  | first, second :: more => and first (allRight second more)

def anyRight : Event → List Event → Event
  | first, [] => first
  | first, second :: more => or first (anyRight second more)

/-- The patterns from left to right, repetitions kept. -/
def patterns : Event → List String
  | pattern p => [p]
  | and l r => l.patterns ++ r.patterns
  | or l r => l.patterns ++ r.patterns

def leafCount : Event → Nat
  | pattern _ => 1
  | and l r => l.leafCount + r.leafCount
  | or l r => l.leafCount + r.leafCount

def isPattern : Event → Bool
  | pattern _ => true
  | _ => false

/-- The meaning of an event when exactly the patterns with `v p` have happened. -/
def holds (v : String → Bool) : Event → Bool
  | pattern p => v p
  | and l r => l.holds v && r.holds v
  | or l r => l.holds v || r.holds v

/-- An operand as it is written: a pattern bare, all else in parentheses. -/
def enclose (e : Event) (written : List Char) : List Char :=
  if e.isPattern then written else '(' :: written ++ [')']

def displayChars : Event → List Char
  | pattern p => Text.quotedChars .text p.toList
  | and l r => l.enclose l.displayChars ++ " AND ".toList ++ r.enclose r.displayChars
  | or l r => l.enclose l.displayChars ++ " OR ".toList ++ r.enclose r.displayChars

def display (e : Event) : String := String.ofList e.displayChars

end Event

end LogWatch
