import LogWatch.LogFile.Reader

/-!
When the file a reader holds is no longer the log: the node reports another path, or the path
leads nowhere, to another file, or to a file shorter than what was read of it.
-/

namespace LogWatch

inductive Rotation where
  | moved (path : String)
  | missing
  | replaced
  | truncated
  | unreadable (cause : DiskError)
deriving DecidableEq, Repr

namespace Rotation

def message : Rotation → String
  | moved path => s!"node moved its log to {path}"
  | missing => "log file disappeared"
  | replaced => "log file was replaced"
  | truncated => "log file was truncated"
  | unreadable cause => s!"log file became unreadable: {cause.message}"

end Rotation

/-- What happened to the file of a reader, if it is not the log any more. -/
def Reader.rotation (r : Reader) (d : Disk) (reported : Option String) : Option Rotation :=
  match reported.filter fun path => Path.parts path ≠ Path.parts r.path with
  | some path => some (.moved path)
  | none =>
    match d.find r.path with
    | .error .notFound => some .missing
    | .error e => some (.unreadable e)
    | .ok file =>
      if file ≠ r.file then some .replaced
      else if d.size file < r.offset then some .truncated
      else none

/-- Why an attempt to go on with the log failed. -/
inductive Loss where
  | rotated (r : Rotation)
  | unreported
  | unopened (path : String) (cause : DiskError)
deriving DecidableEq, Repr

def Loss.message : Loss → String
  | rotated r => r.message
  | unreported => "node reports no log file"
  | unopened path cause => s!"{path}: {cause.message}"

end LogWatch
