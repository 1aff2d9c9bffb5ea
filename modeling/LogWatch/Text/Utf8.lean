/-!
UTF-8 with damage. A byte sequence is read as characters and damaged parts, a damaged part being
the longest piece that starts a character without completing it, or one byte that starts none.
Read leniently every damaged part is one replacement character; read strictly there may be none.
-/

namespace LogWatch.Text

/-- The ranges that the bytes after a first byte must lie in. -/
def tails (b : UInt8) : Option (List (UInt8 × UInt8)) :=
  let t : UInt8 × UInt8 := (0x80, 0xbf)
  if b < 0x80 then some []
  else if b < 0xc2 then none
  else if b < 0xe0 then some [t]
  else if b = 0xe0 then some [(0xa0, 0xbf), t]
  else if b = 0xed then some [(0x80, 0x9f), t]
  else if b < 0xf0 then some [t, t]
  else if b = 0xf0 then some [(0x90, 0xbf), t, t]
  else if b < 0xf4 then some [t, t, t]
  else if b = 0xf4 then some [(0x80, 0x8f), t, t]
  else none

/-- The longest start of the bytes that fits the ranges one by one. -/
def fitting : List (UInt8 × UInt8) → List UInt8 → List UInt8
  | (lo, hi) :: ranges, b :: bytes =>
    if lo ≤ b ∧ b ≤ hi then b :: fitting ranges bytes else []
  | _, _ => []

/-- The character of a first byte and the bytes after it. -/
def character (first : UInt8) (tail : List UInt8) : Char :=
  let head := match tail.length with
    | 0 => first.toNat
    | 1 => first.toNat % 0x20
    | 2 => first.toNat % 0x10
    | _ => first.toNat % 0x08
  Char.ofNat (tail.foldl (fun n b => n * 0x40 + b.toNat % 0x40) head)

/-- The characters of the bytes, `none` for a damaged part; `skip` bytes belong to the part
before. -/
def decodeFrom : Nat → List UInt8 → List (Option Char)
  | _, [] => []
  | skip + 1, _ :: bytes => decodeFrom skip bytes
  | 0, b :: bytes =>
    match tails b with
    | none => none :: decodeFrom 0 bytes
    | some ranges =>
      let tail := fitting ranges bytes
      (if tail.length = ranges.length then some (character b tail) else none)
        :: decodeFrom tail.length bytes

def decode (bytes : List UInt8) : List (Option Char) := decodeFrom 0 bytes

def replacement : Char := '\uFFFD'

def decodeLossy (bytes : List UInt8) : String :=
  String.ofList ((decode bytes).map (·.getD replacement))

def decode? (bytes : List UInt8) : Option String :=
  ((decode bytes).mapM id).map String.ofList

def encode (s : String) : List UInt8 := s.toList.flatMap String.utf8EncodeChar

end LogWatch.Text
