import LogWatch.Disk.Error
import LogWatch.Listener.Settings

/-!
Why a listener cannot be attached, or a wait ends without an outcome.
-/

namespace LogWatch

inductive ListenError where
  | nodeNotAlive
  | noLogFile
  | unavailable (path : String) (cause : DiskError)
  | waitTimedOut (waited : Duration)
  | invalid (fault : SettingsFault)
  | io (cause : DiskError)
deriving DecidableEq, Repr

namespace ListenError

def message : ListenError → String
  | nodeNotAlive => "node is not alive"
  | noLogFile => "node has no current log file"
  | unavailable path cause => s!"log file {path} is unavailable: {cause.message}"
  | waitTimedOut waited => s!"request still pending after waiting {waited.display}"
  | invalid fault => s!"invalid listener configuration: {fault.message}"
  | io cause => cause.message

/-- The texts of the errors behind an error. An error that only passes another on has its text and
stands for it. -/
def sources : ListenError → List String
  | unavailable _ cause => [cause.message]
  | _ => []

end ListenError

end LogWatch
