/-!
Texts cut at a character, and the numbers that texts of digits write.
-/

namespace LogWatch.Text

/-- The pieces between the places where a character stands, empty ones included. -/
def split (at' : Char) : List Char → List (List Char)
  | [] => [[]]
  | c :: s =>
    if c = at' then [] :: split at' s
    else match split at' s with
      | [] => [[c]]
      | p :: ps => (c :: p) :: ps

def digitValue (c : Char) : Nat := c.toNat - '0'.toNat

/-- The number that digits write in a base. -/
def value (base : Nat) (digits : List Char) : Nat :=
  digits.foldl (fun n c => n * base + digitValue c) 0

/-- The number that a text of decimal digits writes. -/
def natural? (s : List Char) : Option Nat :=
  if s.isEmpty || !s.all Char.isDigit then none else some (value 10 s)

/-- The number that decimal digits write, with or without a sign before them. -/
def integer? (s : List Char) : Option Int :=
  match s with
  | '-' :: digits => (natural? digits).map fun n => -(n : Int)
  | '+' :: digits => (natural? digits).map Int.ofNat
  | digits => (natural? digits).map Int.ofNat

end LogWatch.Text
