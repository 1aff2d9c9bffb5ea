import LogWatch.Request.Ledger

/-!
A pause of the follower, taken apart. The follower reads the clock, sweeps the ledger, looks whether
the pause is over, plans when to wake and parks. Whoever enters a request with a deadline, or asks
for a stop, hands the follower a token afterwards; a token that is there lets it go on at once, and
there is never more than one. Seen from outside a pause is a sweep, which is all that
`Listener.advance` says of it; here is what others can do between its parts.
-/

namespace LogWatch

/-- Where the follower stands in a pause. -/
inductive Rest where
  | start
  | sweeping (now : Nat)
  | checking (now : Nat)
  | planning
  | parking (wake : Option Nat)
  | parked (wake : Option Nat)
  | over
deriving DecidableEq, Repr

structure Pause where
  ledger : Ledger
  /-- When the pause ends, unless no clock can show it. -/
  ends : Option Nat
  shutdown : Bool
  token : Bool
  rest : Rest
deriving DecidableEq, Repr

namespace Pause

/-- The next pause begins. A token that was handed over before it is still there. -/
def begin (now : Nat) (length : Duration) (p : Pause) : Pause :=
  { p with ends := length.after now, rest := .start }

/-- When the follower is to wake: at the end of the pause or at the next deadline. -/
def wake (p : Pause) : Option Nat := (p.ends.toList ++ p.ledger.nextDeadline.toList).min?

/-- The next part of the pause; `clock` is what the clock shows. -/
def advance (clock : Nat) (p : Pause) : Pause :=
  match p.rest with
  | .start => { p with rest := .sweeping clock }
  | .sweeping now => { p with ledger := (p.ledger.expire now).1, rest := .checking now }
  | .checking now =>
    { p with rest := if p.shutdown || p.ends.any (· ≤ now) then .over else .planning }
  | .planning => { p with rest := .parking p.wake }
  | .parking wake => { p with rest := .parked wake }
  | .parked wake =>
    if p.token || wake.any (· ≤ clock) then { p with token := false, rest := .start } else p
  | .over => p

/-- Whether the follower sleeps, with nothing to wake it but the clock. -/
def isBlocked (p : Pause) : Bool :=
  match p.rest with
  | .parked _ => !p.token
  | _ => false

/-- A caller enters a request. -/
def enter (e : Event) (deadline : Option Nat) (start : Option Position) (p : Pause) :
    Pause × Option Nat :=
  let (ledger, id) := p.ledger.register e deadline start
  ({ p with ledger }, id)

/-- Somebody asks for a stop. -/
def requestStop (p : Pause) : Pause := { p with shutdown := true }

/-- Hands the follower a token. -/
def unpark (p : Pause) : Pause := { p with token := true }

end Pause

end LogWatch
