import LogWatch.Duration
import LogWatch.Node.Command

/-!
Settings of a node: its command, the folder that gets one log for each start, the folder that a
reset wipes, and how long a stop waits before it kills.
-/

namespace LogWatch

structure NodeSettings where
  command : Command
  logDir : String
  dataDir : Option String
  shutdownMillis : Nat
deriving DecidableEq, Repr

namespace NodeSettings

def standardShutdownMillis : Nat := 10000
def longestMillis : Nat := 0xffffffffffffffff

def ofCommand (command : Command) (logDir : String) : NodeSettings :=
  ⟨command, logDir, none, standardShutdownMillis⟩

def withDataDir (s : NodeSettings) (dir : String) : NodeSettings := { s with dataDir := some dir }

/-- The timeout is kept in whole milliseconds, as many as 64 bits can say. -/
def withShutdownTimeout (s : NodeSettings) (t : Duration) : NodeSettings :=
  { s with shutdownMillis := min t.wholeMillis longestMillis }

def shutdownTimeout (s : NodeSettings) : Duration := .ofMillis s.shutdownMillis

end NodeSettings

end LogWatch
