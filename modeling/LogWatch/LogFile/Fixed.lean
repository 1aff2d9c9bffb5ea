import LogWatch.Disk

/-!
A log that somebody else writes: its path never changes, and its writer counts as alive for as
long as something is there.
-/

namespace LogWatch

structure FixedLog where
  path : String
deriving DecidableEq, Repr

namespace FixedLog

def reported (l : FixedLog) : Option String := some l.path

def isAlive (l : FixedLog) (d : Disk) : Bool := d.isThere l.path

end FixedLog

end LogWatch
