import LogWatch.Request.Outcome
import LogWatch.Text.Quoted

/-!
Where the stream of a listener stands, and what the listener and its follower share about it: the
state, how many files have been opened after the first, and whether a stop was asked for.
-/

namespace LogWatch

inductive StreamState where
  | unattached
  | attached (path : String)
  | failed (cause : Cause)
  | stopped
deriving DecidableEq, Repr

namespace StreamState

/-- Whether the state can never change again. -/
def isTerminal : StreamState → Bool
  | failed _ | stopped => true
  | unattached | attached _ => false

def isAttached : StreamState → Bool
  | attached _ => true
  | _ => false

/-- The state with its fields, for people. -/
def describe : StreamState → String
  | unattached => "Unattached"
  | attached path => "Attached \x7b path: " ++ Text.quoted .fileName path ++ " \x7d"
  | failed cause => "Failed \x7b cause: " ++ Text.quoted .text cause.message ++ " \x7d"
  | stopped => "Stopped"

end StreamState

structure Stream where
  state : StreamState
  generation : Nat
  shutdown : Bool
deriving DecidableEq, Repr

end LogWatch
