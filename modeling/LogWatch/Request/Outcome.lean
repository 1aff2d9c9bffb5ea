import LogWatch.LogFile.Rotation

/-!
How a request ends: observed with the labels that its lines gave, expired, or rejected for a cause.
-/

namespace LogWatch

inductive Cause where
  | notListening
  | stopped
  | lost (last : Loss)
  | died
  | stated (text : String)
deriving DecidableEq, Repr

def Cause.message : Cause → String
  | notListening => "Listener is not currently listening to a log file."
  | stopped => "Listener was stopped."
  | lost last => s!"Log file not found! ({last.message})"
  | died => "Log tailer terminated unexpectedly."
  | stated text => text

inductive Outcome where
  | observed (labels : List String)
  | expired
  | rejected (cause : Cause)
deriving DecidableEq, Repr

namespace Outcome

def labels : Outcome → List String
  | observed labels => labels
  | _ => []

def cause? : Outcome → Option Cause
  | rejected cause => some cause
  | _ => none

end Outcome

end LogWatch
