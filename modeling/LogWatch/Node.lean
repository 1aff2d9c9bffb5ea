import LogWatch.Host
import LogWatch.Node.Error
import LogWatch.Node.LogName
import LogWatch.Node.Settings
import LogWatch.Text.Quoted

/-!
A node under test: a command that is run as a process, one log file for each run, and a folder of
data that a reset wipes. What a node holds of its run is the number of the process and, once a
look at the process showed that it ended, how it ended; the process is reaped by that look. A stop
first takes hold of the run and asks the process to end; then it waits for the end, which it
brings about itself when time is up. If the system refuses a signal, the stop fails, and nobody
holds the run any more.
-/

namespace LogWatch

/-- A process that was started, and how it ended as far as that was seen. -/
structure Child where
  pid : Nat
  ended? : Option ExitStatus
deriving DecidableEq, Repr

namespace Child

/-- Looks whether the process has ended. The look that finds it ended reaps it. -/
def look (c : Child) (h : Host) : Child × Host :=
  match c.ended?, h.ended? c.pid with
  | none, some s => ({ c with ended? := some s }, h.reap c.pid)
  | _, _ => (c, h)

/-- Asks whichever process has the number to end. That there is none is no failure. -/
def terminate (c : Child) (h : Host) : Except NodeError Host :=
  match h.signal c.pid Script.Machine.term with
  | .ok h => .ok h
  | .error .nobody => .ok h
  | .error .refused =>
    .error (.signalFailed Script.Machine.term
      s!"{SignalFault.refused.name}: {SignalFault.refused.words}")

/-- Ends the process at once, unless it was seen to have ended. -/
def kill (c : Child) (h : Host) : Except DiskError Host :=
  match c.ended? with
  | some _ => .ok h
  | none =>
    match h.signal c.pid Script.Machine.kill with
    | .ok h => .ok h
    | .error f => .error f.toError

/-- Lets go of the process, which ends it if a signal can. -/
def drop (c : Child) (h : Host) : Host :=
  match c.kill h with
  | .ok h => h
  | .error _ => h

/-- How a process ended that was killed. -/
def bury (c : Child) (h : Host) : Host × ExitStatus :=
  match c.look h with
  | (⟨_, some s⟩, h) => (h, s)
  | (_, h) => (h, .killed Script.Machine.kill)

/-- Lets ticks pass until the process is seen to have ended, at most so many. -/
def await (c : Child) : Nat → Host → Child × Host
  | 0, h => c.look h
  | n + 1, h =>
    match c.look h with
    | (⟨pid, some s⟩, h) => (⟨pid, some s⟩, h)
    | (c, h) => c.await n h.tick

end Child

structure Node where
  settings : NodeSettings
  child? : Option Child
  logPath? : Option String
deriving DecidableEq, Repr

namespace Node

def ofSettings (settings : NodeSettings) : Node := ⟨settings, none, none⟩

/-- The number of the process that the node holds, ended or not. -/
def pid? (n : Node) : Option Nat := n.child?.map (·.pid)

/-- Whether the process runs; the look may reap it. -/
def isAlive (n : Node) (h : Host) : (Node × Host) × Bool :=
  match n.child? with
  | none => ((n, h), false)
  | some c =>
    let (c, h) := c.look h
    (({ n with child? := some c }, h), c.ended?.isNone)

/-- The file that a run beginning now would log to. -/
def newLogPath (n : Node) (h : Host) : String :=
  Path.join n.settings.logDir (LogName.ofMillis (h.clock / Host.tickTime))

/-- Makes the folder and the file of a new log. The folder may be left without the file. -/
def makeLog (n : Node) (h : Host) : Host × Except NodeError (String × Nat) :=
  match h.disk.makeDir n.settings.logDir with
  | (disk, .error e) => ({ h with disk }, .error (.io e))
  | (disk, .ok _) =>
    let path := n.newLogPath h
    match disk.openFile path with
    | .error e => ({ h with disk }, .error (.io e))
    | .ok (disk, file) => ({ h with disk }, .ok (path, file))

/-- Starts a run with a log of its own, and gives the path of the log. -/
def start (n : Node) (h : Host) : (Node × Host) × Except NodeError String :=
  match n.isAlive h, n.child? with
  | ((n, h), true), some c => ((n, h), .error (.alreadyRunning c.pid))
  | ((n, h), _), _ =>
    match n.makeLog h with
    | (h, .error e) => ((n, h), .error e)
    | (h, .ok (path, file)) =>
      match h.spawn n.settings.command file with
      | .error e =>
        ((n, h), .error (.spawnFailed s!"{n.settings.command.program}: {e.message}"))
      | .ok (h, pid) =>
        (({ n with child? := some ⟨pid, none⟩, logPath? := some path }, h), .ok path)

/-- Takes hold of the run; the node holds none then. -/
def release (n : Node) : Node × Except NodeError Child :=
  match n.child? with
  | none => (n, .error .notRunning)
  | some c => ({ n with child? := none }, .ok c)

/-- How many ticks a stop waits before it kills. -/
def shutdownTicks (n : Node) : Nat := n.settings.shutdownMillis

/-- How many ticks anything is waited for that has no limit of its own. -/
def patience : Nat := 1000000

/-- Takes hold of the run and asks its process to end. -/
def dismiss (n : Node) (h : Host) : (Node × Host) × Except NodeError Child :=
  match n.release with
  | (n, .error e) => ((n, h), .error e)
  | (n, .ok c) =>
    match c.terminate h with
    | .error e => ((n, c.drop h), .error e)
    | .ok h => ((n, h), .ok c)

/-- Takes hold of the run and ends its process at once. -/
def condemn (n : Node) (h : Host) : (Node × Host) × Except NodeError Child :=
  match n.release with
  | (n, .error e) => ((n, h), .error e)
  | (n, .ok c) =>
    match c.kill h with
    | .error e => ((n, c.drop h), .error (.io e))
    | .ok h => ((n, h), .ok c)

/-- Waits for the end of a process that was asked to end, and kills it when time is up. -/
def outlast (n : Node) (c : Child) (h : Host) : Host × Except NodeError ExitStatus :=
  match c.await n.shutdownTicks h with
  | (⟨_, some s⟩, h) => (h, .ok s)
  | (c, h) =>
    match c.kill h with
    | .error e => (c.drop h, .error (.io e))
    | .ok h =>
      let (h, s) := c.bury h
      (h, .ok s)

/-- Stops the run: asks the process to end, and kills it if it does not in time. -/
def stop (n : Node) (h : Host) : (Node × Host) × Except NodeError ExitStatus :=
  match n.dismiss h with
  | (r, .error e) => (r, .error e)
  | ((n, h), .ok c) =>
    let (h, r) := n.outlast c h
    ((n, h), r)

/-- Kills the run. -/
def kill (n : Node) (h : Host) : (Node × Host) × Except NodeError ExitStatus :=
  match n.condemn h with
  | (r, .error e) => (r, .error e)
  | ((n, h), .ok c) =>
    let (h, s) := c.bury h
    ((n, h), .ok s)

/-- One look of a caller that waits for the run to end by itself: nothing while it runs, else how
it ended, and the node lets go of it. -/
def poll (n : Node) (h : Host) : (Node × Host) × Except NodeError (Option ExitStatus) :=
  match n.child? with
  | none => ((n, h), .error .notRunning)
  | some c =>
    match c.look h with
    | (⟨_, some s⟩, h) => (({ n with child? := none }, h), .ok (some s))
    | (c, h) => (({ n with child? := some c }, h), .ok none)

/-- Waits for the run to end by itself, for at most so many ticks. -/
def wait (n : Node) : Nat → Host → (Node × Host) × Except NodeError (Option ExitStatus)
  | 0, h => n.poll h
  | k + 1, h =>
    match n.poll h with
    | ((n, h), .ok none) => n.wait k h.tick
    | r => r

/-- Removes a folder; that there is none is no failure. -/
def wipe (d : Disk) (dir : String) : Disk × Except DiskError Unit :=
  match d.removeDir dir with
  | (d, .error .notFound) => (d, .ok ())
  | r => r

/-- Removes the data and the logs, and forgets the last log. -/
def clear (n : Node) (h : Host) : (Node × Host) × Except NodeError Unit :=
  match n.settings.dataDir.elim (h.disk, .ok ()) (wipe h.disk) with
  | (disk, .error e) => ((n, { h with disk }), .error (.io e))
  | (disk, .ok _) =>
    match wipe disk n.settings.logDir with
    | (disk, .error e) => ((n, { h with disk }), .error (.io e))
    | (disk, .ok _) => (({ n with logPath? := none }, { h with disk }), .ok ())

/-- Stops the run, if there is one, and removes all that is left of it. -/
def reset (n : Node) (h : Host) : (Node × Host) × Except NodeError Unit :=
  match n.stop h with
  | ((n, h), .ok _) | ((n, h), .error .notRunning) => n.clear h
  | ((n, h), .error e) => ((n, h), .error e)

/-- The node with its fields, for people. -/
def describe (n : Node) : String :=
  let some' (s : Option String) : String := s.elim "None" fun s => s!"Some({s})"
  "NodeProcess \x7b program: " ++ Text.quoted .text n.settings.command.program
    ++ ", pid: " ++ some' (n.pid?.map toString)
    ++ ", log_path: " ++ some' (n.logPath?.map (Text.quoted .fileName ·)) ++ " \x7d"

end Node

end LogWatch
