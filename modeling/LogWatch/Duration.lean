/-!
Lengths of time in whole nanoseconds, and their written form: a number in the largest unit that
it reaches, with exactly the digits it has after the point.
-/

namespace LogWatch

structure Duration where
  nanos : Nat
deriving DecidableEq, Repr

namespace Duration

def nanosPerSecond : Nat := 1000000000
def nanosPerMilli : Nat := 1000000

/-- The longest duration: all seconds of 64 bits, and a second less a nanosecond. -/
def longest : Duration := ⟨0x10000000000000000 * nanosPerSecond - 1⟩

def ofMillis (n : Nat) : Duration := ⟨n * nanosPerMilli⟩

def ofParts (seconds nanos : Nat) : Duration := ⟨seconds * nanosPerSecond + nanos⟩

def seconds (t : Duration) : Nat := t.nanos / nanosPerSecond
def subsecond (t : Duration) : Nat := t.nanos % nanosPerSecond
def wholeMillis (t : Duration) : Nat := t.nanos / nanosPerMilli

/-- The digits after the point of a number below `10 ^ places` parts, without trailing zeros. -/
def fraction (places part : Nat) : String :=
  let digits := Nat.toDigits 10 part
  let digits := List.replicate (places - digits.length) '0' ++ digits
  let kept := (digits.reverse.dropWhile (· = '0')).reverse
  if kept.isEmpty then "" else "." ++ String.ofList kept

/-- Units from the largest down: their name and the number of decimal places below them. -/
def units : List (String × Nat) := [("s", 9), ("ms", 6), ("µs", 3)]

/-- How many nanoseconds a unit with so many places has. -/
def unitSize (places : Nat) : Nat := Nat.pow 10 places

def display (t : Duration) : String :=
  match units.find? fun u => unitSize u.2 ≤ t.nanos with
  | some (name, places) =>
    s!"{t.nanos / unitSize places}{fraction places (t.nanos % unitSize places)}{name}"
  | none => s!"{t.nanos}ns"

/-- The last moment that a clock can show, in nanoseconds. -/
def horizon : Nat := 0x8000000000000000 * nanosPerSecond

/-- The moment `t` after `now`, unless no clock can show it. -/
def after (t : Duration) (now : Nat) : Option Nat :=
  let moment := now + t.nanos
  if moment < horizon then some moment else none

end Duration

end LogWatch
