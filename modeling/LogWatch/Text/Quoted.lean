import LogWatch.Text.Unprintable
import LogWatch.Text.Extending

/-!
Quoted text: a string between double quotes in which every character can be read. Quotes,
backslashes and the common controls have two-character escapes; all else that cannot be seen by
itself is written by its code point, as in `\u{301}`. File names escape the apostrophe too.
-/

namespace LogWatch.Text

/-- Which characters a quoted text escapes beyond the unreadable ones. -/
structure Quoting where
  apostrophe : Bool

def Quoting.text : Quoting := ⟨false⟩
def Quoting.fileName : Quoting := ⟨true⟩

def codePoint (c : Char) : List Char :=
  ['\\', 'u', '{'] ++ Nat.toDigits 16 c.toNat ++ ['}']

def escape (q : Quoting) (c : Char) : List Char :=
  match c with
  | '"' => ['\\', '"']
  | '\\' => ['\\', '\\']
  | '\n' => ['\\', 'n']
  | '\r' => ['\\', 'r']
  | '\t' => ['\\', 't']
  | '\x00' => ['\\', '0']
  | '\'' => if q.apostrophe then ['\\', '\''] else ['\'']
  | c => if isExtending c || isUnprintable c then codePoint c else [c]

def quotedChars (q : Quoting) (s : List Char) : List Char :=
  '"' :: s.flatMap (escape q) ++ ['"']

def quoted (q : Quoting) (s : String) : String :=
  String.ofList (quotedChars q s.toList)

end LogWatch.Text
