import LogWatch.Yaml.Tree
import LogWatch.Yaml.Number

/-!
Values out of nodes. A text may be any scalar, as it is written; a number must be written plainly;
a collection may be left out, which is not the same as null. A mapping with known fields may hold
others, but each of its own once at most.
-/

namespace LogWatch.Yaml

/-- What a node means in a document. -/
def asText (d : Document) (n : Tree) : Except YamlError String :=
  match d.resolve n with
  | .scalar text _ _ => .ok text
  | _ => .error .wrongKind

def wholeTag : String := "tag:yaml.org,2002:int"

/-- A number written plainly, or line by line under the tag of whole numbers. -/
def asNumber (largest : Nat) (d : Document) (n : Tree) : Except YamlError Nat :=
  match d.resolve n with
  | .scalar text form tag =>
    if form ≠ .plain && !(form = .lines && tag = some wholeTag) then .error .wrongKind
    else match unsigned? 0xffffffffffffffff text.toList with
    | some n => if n ≤ largest then .ok n else .error .badNumber
    | none => .error .badNumber
  | _ => .error .wrongKind

def nullTag : String := "tag:yaml.org,2002:null"

def asOptionalText (d : Document) (n : Tree) : Except YamlError (Option String) :=
  match d.resolve n with
  | .scalar text .plain none => .ok (if text.isEmpty || isNull text then none else some text)
  | .scalar text .plain (some tag) =>
    if tag != nullTag then .ok (some text)
    else if isNull text then .ok none
    else .error .wrongKind
  | .scalar text _ _ => .ok (some text)
  | _ => .error .wrongKind

def asList (d : Document) (n : Tree) : Except YamlError (List Tree) :=
  match d.resolve n with
  | .sequence items => .ok items
  | .scalar "" .plain _ => .ok []
  | _ => .error .wrongKind

def asMapping (d : Document) (n : Tree) : Except YamlError (List (Tree × Tree)) :=
  match d.resolve n with
  | .mapping entries => .ok entries
  | .scalar "" .plain _ => .ok []
  | _ => .error .wrongKind

/-- The fields of a mapping by name. -/
def asFields (d : Document) (n : Tree) : Except YamlError (List (String × Tree)) := do
  (← asMapping d n).mapM fun (k, v) => return (← asText d k, v)

/-- A field that may be missing. -/
def field? (fields : List (String × Tree)) (name : String) (read : Tree → Except YamlError α) :
    Except YamlError (Option α) :=
  match fields.filter (·.1 = name) with
  | [] => .ok none
  | [(_, n)] => some <$> read n
  | _ => .error (.repeatedField name)

def field (fields : List (String × Tree)) (name : String) (read : Tree → Except YamlError α) :
    Except YamlError α := do
  match ← field? fields name read with
  | some a => return a
  | none => throw (.missingField name)

end LogWatch.Yaml
