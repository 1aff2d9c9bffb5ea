/-!
The command language that stand-in nodes are written in: words made of texts and values, and
commands made of words, sequences, conditions and loops.
-/

namespace LogWatch.Script

/-- A piece of a word. A value that is not quoted is split at blanks where it is put in. -/
inductive Piece where
  | text (s : String)
  | value (name : String) (quoted : Bool)
  /-- A value, or another text where the name has none, or only a blank one. -/
  | valueOr (name : String) (blankToo : Bool) (other : String) (quoted : Bool)
  | sum (body : String) (quoted : Bool)
deriving DecidableEq, Repr

abbrev Word := List Piece

inductive Aim where
  | write (path : Word)
  | append (path : Word)
  | read (path : Word)
  /-- Wherever another channel goes. -/
  | same (channel : Nat)
deriving DecidableEq, Repr

structure Redirect where
  channel : Nat
  aim : Aim
deriving DecidableEq, Repr

inductive Cmd where
  | nothing
  | simple (sets : List (String × Word)) (words : List Word) (redirects : List Redirect)
  | seq (first next : Cmd)
  /-- `next` runs if `first` succeeds, or if it fails. -/
  | after (first : Cmd) (success : Bool) (next : Cmd)
  | negate (c : Cmd)
  | choose (test yes no : Cmd)
  /-- `body` runs for as long as `test` succeeds, or fails. -/
  | loop (success : Bool) (test body : Cmd)
  | each (name : String) (words : List Word) (body : Cmd)
  | redirected (c : Cmd) (redirects : List Redirect)
  /-- A command whose settings and exit are its own. -/
  | apart (c : Cmd)
  /-- A command that goes on by itself, as a process of its own. -/
  | beside (c : Cmd)
deriving DecidableEq, Repr

end LogWatch.Script
