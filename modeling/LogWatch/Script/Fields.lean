import LogWatch.Script.Sum
import LogWatch.Script.Syntax
import LogWatch.Text.Split

/-!
From words to fields. Texts and quoted values are put in as they are; a value that is not quoted
is split at its blanks, so it may end a field, begin one, or leave none at all.
-/

namespace LogWatch.Script

/-- Fields that are complete, and one that is still open. -/
structure Fields where
  complete : List String
  open? : Option String
deriving DecidableEq, Repr

namespace Fields

def none : Fields := ⟨[], .none⟩

def add (s : String) (fs : Fields) : Fields := { fs with open? := some (fs.open?.getD "" ++ s) }

def close (fs : Fields) : Fields := ⟨fs.complete ++ fs.open?.toList, .none⟩

/-- Puts in a value that is split at blanks. -/
def split (s : String) (fs : Fields) : Fields :=
  s.toList.foldl (fun fs c =>
    if c = ' ' || c = '\t' || c = '\n' then fs.close else fs.add c.toString) fs

/-- Puts in several values, each in a field of its own. -/
def addAll (values : List String) (fs : Fields) : Fields :=
  match values with
  | [] => fs
  | v :: vs => vs.foldl (fun fs v => (fs.close).add v) (fs.add v)

def put (quoted : Bool) (s : String) (fs : Fields) : Fields :=
  if quoted then fs.add s else fs.split s

end Fields

/-- What the names in words stand for. -/
structure Names where
  value? : String → Option String
  args : List String

namespace Names

/-- The number that a name stands for; a name without a value stands for zero. -/
def number? (ns : Names) (name : String) : Option Int :=
  match ns.value? name with
  | none | some "" => some 0
  | some s => Text.integer? s.toList

def piece (ns : Names) (fs : Fields) : Piece → Option Fields
  | .text s => some (fs.add s)
  | .value "@" true => some (fs.addAll ns.args)
  | .value "@" false | .value "*" false =>
    some (ns.args.foldl (fun fs s => (fs.split s).close) fs)
  | .value name quoted => some (fs.put quoted ((ns.value? name).getD ""))
  | .valueOr name blankToo other quoted =>
    let value := match ns.value? name with
      | none => other
      | some "" => if blankToo then other else ""
      | some s => s
    some (fs.put quoted value)
  | .sum body quoted => do
    let value ← sum? ns.number? body
    some (fs.put quoted (toString value))

/-- The fields of words, unless a sum in them has no value. -/
def fields? (ns : Names) (words : List Word) : Option (List String) := do
  let fs ← words.foldlM (fun (fs : Fields) w => do
    let fs ← w.foldlM ns.piece fs
    return fs.close) .none
  return fs.complete

/-- A word as one text: nothing in it is split. -/
def text? (ns : Names) (w : Word) : Option String := do
  let whole : Piece → Piece
    | .text s => .text s
    | .value "@" _ => .value "*" true
    | .value name _ => .value name true
    | .valueOr name blankToo other _ => .valueOr name blankToo other true
    | .sum body _ => .sum body true
  let fs ← (w.map whole).foldlM ns.piece .none
  return fs.open?.getD ""

end Names

end LogWatch.Script
