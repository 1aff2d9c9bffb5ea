/-!
Texts that read as something else: numbers in four bases, decimal fractions, truth values and
null. A number may not start with a zero unless it is one.
-/

namespace LogWatch.Yaml

def digitValue? (base : Nat) (c : Char) : Option Nat :=
  let v :=
    if c.isDigit then some (c.toNat - '0'.toNat)
    else if 'a' ≤ c ∧ c ≤ 'z' then some (c.toNat - 'a'.toNat + 10)
    else if 'A' ≤ c ∧ c ≤ 'Z' then some (c.toNat - 'A'.toNat + 10)
    else none
  v.filter (· < base)

/-- The number that digits of a base write, at least one of them. -/
def natural? (base : Nat) (s : List Char) : Option Nat :=
  if s.isEmpty then none
  else s.foldlM (fun n c => (digitValue? base c).map (n * base + ·)) 0

def isSign (c : Char) : Bool := c == '+' || c == '-'

def dropPlus (s : List Char) : List Char :=
  match s with
  | '+' :: s => s
  | s => s

/-- Whether a text is digits after a zero, which is how no number is written. -/
def isZeroPadded (s : List Char) : Bool :=
  let s := match s with
    | c :: s' => if isSign c then s' else s
    | [] => s
  match s with
  | '0' :: d :: s => (d :: s).all Char.isDigit
  | _ => false

/-- The base that the first two characters of a number announce. -/
def base? : List Char → Option (Nat × List Char)
  | '0' :: 'x' :: s => some (16, s)
  | '0' :: 'o' :: s => some (8, s)
  | '0' :: 'b' :: s => some (2, s)
  | _ => none

/-- A number that is not negative, at most `largest`. -/
def unsigned? (largest : Nat) (text : List Char) : Option Nat :=
  let s := dropPlus text
  let number := match base? s with
    | some (base, digits) => natural? base digits
    | none => if isZeroPadded text then none else natural? 10 s
  number.filter (· ≤ largest)

/-- Whether a text is a number with a minus sign, at least `- largest`. -/
def isNegative (largest : Nat) (text : List Char) : Bool :=
  match text with
  | '-' :: s =>
    let number := match base? s with
      | some (base, digits) => natural? base digits
      | none => if isZeroPadded text then none else natural? 10 s
    number.any (· ≤ largest)
  | _ => false

/-- The value of a decimal text as digits and a power of ten: digits with at most one point among
or around them, then perhaps an exponent. -/
def decimal? (s : List Char) : Option (List Char × Int) := do
  let s := match s with
    | c :: s' => if isSign c then s' else s
    | [] => s
  let whole := s.takeWhile Char.isDigit
  let s := s.dropWhile Char.isDigit
  let (part, s) := match s with
    | '.' :: s => (s.takeWhile Char.isDigit, s.dropWhile Char.isDigit)
    | s => ([], s)
  if whole.isEmpty && part.isEmpty then none
  let digits := whole ++ part
  match s with
  | [] => return (digits, -(part.length : Int))
  | e :: s =>
    if e != 'e' && e != 'E' then none
    let (negative, s) := match s with
      | '-' :: s => (true, s)
      | '+' :: s => (false, s)
      | s => (false, s)
    let n ← natural? 10 s
    return (digits, (if negative then -(n : Int) else n) - part.length)

/-- The first number too large for 64 bits of floating point, halfway above the largest. -/
def floatBound : Nat := 0x3fffffffffffff <<< 970

/-- Whether a decimal is small enough to be a number of floating point. -/
def isFinite (digits : List Char) (power : Int) : Bool :=
  let digits := digits.dropWhile (· == '0')
  let magnitude : Int := digits.length + power
  if digits.isEmpty || magnitude < 0 then true
  else if magnitude > 400 then false
  else
    let n := (natural? 10 digits).getD 0
    if power ≥ 0 then n * Nat.pow 10 power.toNat < floatBound
    else n < floatBound * Nat.pow 10 (-power).toNat

def isFraction (text : List Char) : Bool :=
  let s := dropPlus text
  if text.head? == some '+' && s.head?.any isSign then false
  else
    [".inf", ".Inf", ".INF"].contains (String.ofList s)
      || ["-.inf", "-.Inf", "-.INF", ".nan", ".NaN", ".NAN"].contains (String.ofList text)
      || match decimal? s with
        | some (digits, power) => isFinite digits power
        | none => false

def isNull (text : String) : Bool := ["null", "Null", "NULL", "~"].contains text

def isTruth (text : String) : Bool :=
  ["true", "True", "TRUE", "false", "False", "FALSE"].contains text

/-- The largest whole number of 128 bits. -/
def widest : Nat := 0xffffffffffffffffffffffffffffffff

/-- The largest distance below zero of a signed whole number of 128 bits. -/
def widestNegative : Nat := 0x80000000000000000000000000000000

/-- Whether a text, written plainly, reads as something other than a text. -/
def readsAsOther (text : String) : Bool :=
  let s := text.toList
  text.isEmpty || isNull text || isTruth text || (unsigned? widest s).isSome
    || isNegative widestNegative s || isZeroPadded s || isFraction s

end LogWatch.Yaml
