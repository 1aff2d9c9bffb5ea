import LogWatch.Listener.Error
import LogWatch.Node.Error

/-!
Why a harness cannot be made or driven: an error of its node or its listener, or one of its own.
-/

namespace LogWatch

inductive HarnessError where
  | node (e : NodeError)
  | listener (e : ListenError)
  | settings (reason : String)
  | io (cause : DiskError)
deriving DecidableEq, Repr

namespace HarnessError

def message : HarnessError → String
  | node e => s!"Node error: {e.message}"
  | listener e => s!"Listener error: {e.message}"
  | settings reason => s!"Invalid configuration: {reason}"
  | io cause => s!"IO error: {cause.message}"

def sources : HarnessError → List String
  | node e => e.message :: e.sources
  | listener e => e.message :: e.sources
  | settings _ => []
  | io cause => [cause.message]

end HarnessError

end LogWatch
