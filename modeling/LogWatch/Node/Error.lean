import LogWatch.Disk.Error

/-!
Why a node cannot be started, stopped or wiped.
-/

namespace LogWatch

inductive NodeError where
  | spawnFailed (reason : String)
  | signalFailed (signal : Int) (reason : String)
  | alreadyRunning (pid : Nat)
  | notRunning
  | io (cause : DiskError)
deriving DecidableEq, Repr

namespace NodeError

def message : NodeError → String
  | spawnFailed reason => s!"failed to spawn node: {reason}"
  | signalFailed signal reason => s!"failed to send signal {signal}: {reason}"
  | alreadyRunning pid => s!"node is already running (pid {pid})"
  | notRunning => "node is not running"
  | io cause => cause.message

/-- No error of a node has another one behind it that is not the error itself. -/
def sources (_ : NodeError) : List String := []

end NodeError

end LogWatch
