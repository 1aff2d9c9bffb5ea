import LogWatch.Text.Split

/-!
Arithmetic in scripts: whole numbers, names that stand for numbers, the usual operators in the
usual order, comparisons that answer one or zero. A division by zero has no value.
-/

namespace LogWatch.Script

inductive Term where
  | number (n : Int)
  | name (x : String)
  | sign (s : String)
deriving DecidableEq, Repr

namespace Term

def signs : List String :=
  ["==", "!=", "<=", ">=", "&&", "||", "<<", ">>", "+", "-", "*", "/", "%", "<", ">", "!", "(", ")",
    "?", ":", "&", "|", "^", "~"]

def isNameChar (c : Char) : Bool := c.isAlphanum || c = '_'

/-- The terms of a text; the number bounds how many. -/
def scan : Nat → List Char → Option (List Term)
  | _, [] => some []
  | 0, _ => none
  | n + 1, c :: s =>
    if c.isWhitespace || c = '$' || c = '\x7b' || c = '\x7d' then scan n s
    else if c.isDigit then
      let digits := c :: s.takeWhile Char.isDigit
      (scan n (s.dropWhile Char.isDigit)).map (number (Text.value 10 digits) :: ·)
    else if isNameChar c then
      let word := String.ofList (c :: s.takeWhile isNameChar)
      (scan n (s.dropWhile isNameChar)).map (name word :: ·)
    else
      match signs.find? fun sign => sign.toList.isPrefixOf (c :: s) with
      | some found => (scan n (s.drop (found.length - 1))).map (sign found :: ·)
      | none => none

def truth (b : Bool) : Int := if b then 1 else 0

/-- Operators between two operands, from those that bind least to those that bind most. -/
def levels : List (List String) :=
  [["||"], ["&&"], ["==", "!="], ["<=", ">=", "<", ">"], ["+", "-"], ["*", "/", "%"]]

def apply (op : String) (a b : Int) : Option Int :=
  match op with
  | "||" => some (truth (a ≠ 0 || b ≠ 0))
  | "&&" => some (truth (a ≠ 0 && b ≠ 0))
  | "==" => some (truth (a = b))
  | "!=" => some (truth (a ≠ b))
  | "<=" => some (truth (a ≤ b))
  | ">=" => some (truth (a ≥ b))
  | "<" => some (truth (a < b))
  | ">" => some (truth (a > b))
  | "+" => some (a + b)
  | "-" => some (a - b)
  | "*" => some (a * b)
  | "/" => if b = 0 then none else some (a.tdiv b)
  | "%" => if b = 0 then none else some (a.tmod b)
  | _ => none

mutual

/-- The value at the front of the terms, made of operators of these levels and those below. -/
def value (named : String → Option Int) :
    Nat → List (List String) → List Term → Option (Int × List Term)
  | 0, _, _ => none
  | n + 1, [], ts =>
    match ts with
    | number v :: ts => some (v, ts)
    | name x :: ts => (named x).map (·, ts)
    | sign "-" :: ts => (value named n [] ts).map fun (v, ts) => (-v, ts)
    | sign "+" :: ts => value named n [] ts
    | sign "!" :: ts => (value named n [] ts).map fun (v, ts) => (truth (v = 0), ts)
    | sign "(" :: ts =>
      match value named n levels ts with
      | some (v, sign ")" :: ts) => some (v, ts)
      | _ => none
    | _ => none
  | n + 1, ops :: below, ts =>
    match value named n below ts with
    | some (v, ts) => rest named n ops below v ts
    | none => none

def rest (named : String → Option Int) :
    Nat → List String → List (List String) → Int → List Term → Option (Int × List Term)
  | 0, _, _, _, _ => none
  | n + 1, ops, below, a, ts =>
    match ts with
    | sign op :: more =>
      if ops.contains op then
        match value named n below more with
        | some (b, more) =>
          match apply op a b with
          | some v => rest named n ops below v more
          | none => none
        | none => none
      else some (a, ts)
    | _ => some (a, ts)

end

end Term

/-- The value of an arithmetic expression, if it has one. -/
def sum? (named : String → Option Int) (s : String) : Option Int := do
  let ts ← Term.scan s.length s.toList
  match ← Term.value named (8 * ts.length + 8) Term.levels ts with
  | (v, []) => some v
  | _ => none

end LogWatch.Script
