import LogWatch.Harness.Error
import LogWatch.Node.Settings

/-!
Settings of a harness: those of its node and of its listener, and how much it writes about itself.
-/

namespace LogWatch

structure HarnessSettings where
  node : NodeSettings
  listener : Settings
  logLevel : String
deriving DecidableEq, Repr

namespace HarnessSettings

def standardLogLevel : String := "info"

def ofParts (node : NodeSettings) (listener : Settings) : HarnessSettings :=
  ⟨node, listener, standardLogLevel⟩

/-- What makes the settings unusable; the program is looked at first. -/
def fault? (s : HarnessSettings) : Option HarnessError :=
  if s.node.command.program.isEmpty then some (.settings "node.command.program is empty")
  else s.listener.fault?.map fun fault => .listener (.invalid fault)

end HarnessSettings

end LogWatch
