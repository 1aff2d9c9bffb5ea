import LogWatch.Duration
import LogWatch.Listener.Patterns

/-!
Settings of a listener, and what makes them unusable. Of several faults the first in the order of
the checks is reported: the numbers before the patterns, the patterns before the templates.
-/

namespace LogWatch

inductive SettingsFault where
  | noPoll
  | noAttempt
  | emptyPattern (name : String)
  | noPlaceholder (name : String)
  | stated (reason : String)
deriving DecidableEq, Repr

def SettingsFault.message : SettingsFault → String
  | noPoll => "poll_interval_ms must be greater than 0"
  | noAttempt => "rotation_attempts must be at least 1"
  | emptyPattern name => s!"pattern '{name}' is empty"
  | noPlaceholder name => s!"template '{name}' must contain {Patterns.placeholder}"
  | stated reason => reason

namespace Patterns

def fault? (p : Patterns) : Option SettingsFault :=
  if p.heartbeat.isEmpty then some (.emptyPattern "heartbeat")
  else if p.minersStarted.isEmpty then some (.emptyPattern "miners_started")
  else if !hasPlaceholder p.transactionSealed then some (.noPlaceholder "transaction_sealed")
  else if !hasPlaceholder p.transactionRejected then some (.noPlaceholder "transaction_rejected")
  else none

end Patterns

structure Settings where
  pollMillis : Nat
  graceMillis : Nat
  attempts : Nat
  patterns : Patterns
deriving DecidableEq, Repr

namespace Settings

def standard : Settings := ⟨50, 250, 1, .standard⟩

def fault? (s : Settings) : Option SettingsFault :=
  if s.pollMillis = 0 then some .noPoll
  else if s.attempts = 0 then some .noAttempt
  else s.patterns.fault?

def poll (s : Settings) : Duration := .ofMillis s.pollMillis
def grace (s : Settings) : Duration := .ofMillis s.graceMillis

end Settings

end LogWatch
