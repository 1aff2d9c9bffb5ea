import LogWatch.Event

/-!
An event laid out as a circuit: one gate for each node of the formula, operands before the
operator that reads them, so the last gate is the whole formula and one pass from left to right
computes every value. Leaves latch: a lit leaf stays lit.
-/

namespace LogWatch

inductive Gate where
  | leaf (pattern : String) (lit : Bool)
  | and (left right : Nat)
  | or (left right : Nat)
deriving DecidableEq, Repr

namespace Gate

def value (values : Array Bool) : Gate → Bool
  | leaf _ lit => lit
  | and l r => values.getD l false && values.getD r false
  | or l r => values.getD l false || values.getD r false

/-- The pattern that `line` lights at this gate for the first time. -/
def lights? (line : List Char) : Gate → Option String
  | leaf p false => if Text.occurs p.toList line then some p else none
  | _ => none

def light (line : List Char) (g : Gate) : Gate :=
  match g.lights? line with
  | some p => leaf p true
  | none => g

/-- The gates that this gate reads. -/
def reads : Gate → List Nat
  | leaf _ _ => []
  | and l r => [l, r]
  | or l r => [l, r]

end Gate

namespace Event

/-- Adds the gates of an event to a circuit; the last gate is then the event itself. -/
def layOut : Event → Array Gate → Array Gate
  | pattern p, gates => gates.push (.leaf p false)
  | and l r, gates =>
    let left := l.layOut gates
    let right := r.layOut left
    right.push (.and (left.size - 1) (right.size - 1))
  | or l r, gates =>
    let left := l.layOut gates
    let right := r.layOut left
    right.push (.or (left.size - 1) (right.size - 1))

def circuit (e : Event) : Array Gate := e.layOut #[]

end Event

/-- One pass over the gates, each reading the values that the pass has already renewed. -/
def settle (gates : Array Gate) (values : Array Bool) : Array Bool :=
  Fin.foldl gates.size (fun values i => values.setIfInBounds i (gates[i].value values)) values

end LogWatch
