import LogWatch.Node.Command
import LogWatch.Script.Machine

/-!
The machine that nodes run on: a disk, a clock and a table of processes. A process that has ended
stays in the table, with how it ended, until it is reaped; only then may its number be given to
another one. Not all processes are our own children, and some are guarded from our signals. Time
passes in ticks, in which every process does what is due; at the end of a tick the system does what
scripts want of it, and reaps what they have set going and what has ended.
-/

namespace LogWatch

open Script (Cmd Machine)

inductive Life where
  | running (m : Machine)
  | ended (s : ExitStatus)
deriving DecidableEq, Repr

def Life.isRunning : Life → Bool
  | .running _ => true
  | .ended _ => false

structure Process where
  pid : Nat
  life : Life
  /-- Whether it is a child of ours. -/
  ours : Bool
  /-- Whether our signals do not reach it. -/
  guarded : Bool
deriving DecidableEq, Repr

structure Host where
  disk : Disk
  /-- Nanoseconds since the start of 1970. -/
  clock : Nat
  processes : List Process
  /-- The number whose turn it is for the next process. -/
  nextPid : Nat
  /-- Why the system starts nothing more, neither a process nor a thread, if it does not. -/
  limit? : Option DiskError
deriving DecidableEq, Repr

/-- Why a signal is not sent. -/
inductive SignalFault where
  | nobody
  | refused
deriving DecidableEq, Repr

namespace SignalFault

def name : SignalFault → String
  | nobody => "ESRCH"
  | refused => "EPERM"

def words : SignalFault → String
  | nobody => "No such process"
  | refused => "Operation not permitted"

def number : SignalFault → Nat
  | nobody => 3
  | refused => 1

/-- The fault as an error of the system. -/
def toError (f : SignalFault) : DiskError := .stated s!"{f.words} (os error {f.number})"

end SignalFault

namespace Host

/-- Folders that are there from the start, outside the working folder. -/
def systemFolders : List String :=
  ["/bin", "/dev", "/etc", "/home", "/opt", "/proc/sys/kernel", "/root", "/sys", "/tmp", "/usr/bin",
    "/var/log"]

/-- An empty working folder at the start of 2024. -/
def fresh : Host :=
  ⟨systemFolders.foldl (fun d dir => (d.makeDir dir).1) .empty, 1704067200000000000, [], 100, none⟩

def process? (h : Host) (pid : Nat) : Option Process := h.processes.find? (·.pid = pid)

/-- How a process ended, if it has. -/
def ended? (h : Host) (pid : Nat) : Option ExitStatus :=
  match h.process? pid with
  | some ⟨_, .ended s, _, _⟩ => some s
  | _ => none

/-- The children of ours that run, by their numbers. -/
def children (h : Host) : List Nat :=
  (h.processes.filter fun p => p.ours && p.life.isRunning).map (·.pid)

/-- Takes a process out of the table, which frees its number. -/
def reap (h : Host) (pid : Nat) : Host :=
  { h with processes := h.processes.filter (·.pid ≠ pid) }

def setLife (h : Host) (pid : Nat) (life : Life) : Host :=
  { h with processes := h.processes.map fun p => if p.pid = pid then { p with life } else p }

/-- Sends a signal to whichever process has the number. One that has ended does not heed it. -/
def signal (h : Host) (pid n : Nat) : Except SignalFault Host :=
  match h.process? pid with
  | none => .error .nobody
  | some ⟨_, _, _, true⟩ => .error .refused
  | some ⟨_, .running m, _, false⟩ =>
    match m.signal n with
    | .ok m => .ok (h.setLife pid (.running m))
    | .error s => .ok (h.setLife pid (.ended s))
  | some ⟨_, .ended _, _, false⟩ => .ok h

/-! Starting programs. -/

def programs : List String :=
  ["sh", "sleep", "echo", "printf", "cat", "rm", "mkdir", "rmdir", "touch", "mv", "cp",
    "true", "false", "test", "[", "kill", "pwd", "date"]

def programFolders : List String := ["/bin", "/usr/bin"]

/-- The program that a path leads to. What lies on the disk cannot be run. -/
def programAt (h : Host) (path : String) : Except DiskError String :=
  match programs.find? fun name => programFolders.any fun dir => Path.join dir name = path with
  | some name => .ok name
  | none =>
    match h.disk.find path with
    | .ok _ => .error .denied
    | .error e => .error e

/-- Looks for a program: a name without a slash is looked for in one folder after the other. -/
def program? (h : Host) (c : Command) : Except DiskError String :=
  let dir := c.currentDir.getD ""
  if c.program.toList.contains '/' then h.programAt (Script.Tools.seenFrom dir c.program)
  else if c.program = "" then .error .notFound
  else if Disk.longestName < c.program.utf8ByteSize then .error .nameTooLong
  else
    let folders := match c.env.get? "PATH" with
      | some path => (Text.split ':' path.toList).map String.ofList
      | none => programFolders
    let found := folders.map fun folder =>
      h.programAt (Script.Tools.seenFrom dir (Path.join folder c.program))
    match found.findSome? (·.toOption) with
    | some name => .ok name
    | none =>
      .error (if found.any fun r => r matches .error .denied then .denied else .notFound)

def hasNul (s : String) : Bool := s.toList.contains '\x00'

/-- Why a command cannot be started at all. -/
def refuses? (h : Host) (c : Command) : Option DiskError :=
  let texts := c.program :: c.args ++ c.env.entries.flatMap (fun e => [e.1, e.2])
    ++ c.currentDir.toList
  if texts.any hasNul then some (.stated "nul byte found in provided data")
  else match h.limit?, c.currentDir with
    | some e, _ => some e
    | none, none => none
    | none, some dir =>
      match h.disk.find dir with
      | .ok id => if h.disk.isFolder id then none else some .notFolder
      | .error e => some e

/-- The number for the next process. If the one whose turn it is has not been freed yet, it is one
past all that are taken. -/
def freePid (h : Host) : Nat :=
  match h.process? h.nextPid with
  | none => h.nextPid
  | some _ => (h.processes.map (·.pid)).foldl max 0 + 1

/-- A program loaded, with its standard output and error going to a file. -/
def load (h : Host) (c : Command) (program : String) (log : Nat) : Machine :=
  let m := Machine.blank h.freePid h.clock
  let m := { m with
    vars := c.env.entries
    name := c.program
    dir := c.currentDir.getD ""
    channels := ⟨[], .file log, .file log⟩ }
  let refused (text : String) : Machine :=
    { m with stack := [.run (.redirected (.simple [] [[.text "echo"], [.text text]] [])
      [⟨1, .same 2⟩]), .setStatus 2] }
  let running (m : Machine) (script : String) : Machine :=
    match Script.parse? script with
    | some cmd => { m with stack := [.run cmd] }
    | none => refused s!"{m.name}: 1: Syntax error"
  if program = "sh" then
    match c.args with
    | [] => m
    | ["-c"] => refused s!"{m.name}: 0: -c requires an argument"
    | "-c" :: script :: rest =>
      running { m with name := rest.headD m.name, args := rest.tail } script
    | path :: args =>
      match h.disk.read (Script.Tools.seenFrom m.dir path) with
      | .ok bytes => running { m with name := path, args } (Text.decodeLossy bytes)
      | .error _ => refused s!"{m.name}: 0: cannot open {path}: No such file"
  else
    { m with stack := [.run (.simple [] ((program :: c.args).map fun s => [.text s]) [])] }

/-- Starts a command with its output going to a file, and gives the number of its process. -/
def spawn (h : Host) (c : Command) (log : Nat) : Except DiskError (Host × Nat) := do
  if let some e := h.refuses? c then throw e
  let program ← h.program? c
  let m := h.load c program log
  return ({ h with
      processes := h.processes ++ [⟨h.freePid, .running m, true, false⟩]
      nextPid := h.freePid + 1 },
    h.freePid)

/-! Time. -/

/-- A tick, in nanoseconds. -/
def tickTime : Nat := 1000000

/-- Lets a process do what is due. -/
def turn (h : Host) (p : Process) : Host :=
  match p.life with
  | .running m =>
    match m.runUntil h.clock h.disk with
    | (disk, .ok m) => { h with disk }.setLife p.pid (.running m)
    | (disk, .error s) => { h with disk }.setLife p.pid (.ended s)
  | .ended _ => h

/-- Where a script may say which number was given last. -/
def lastPidPath : String := "/proc/sys/kernel/ns_last_pid"

/-- Takes up what a script has said about the number that was given last. -/
def heed (h : Host) : Host :=
  match h.disk.read lastPidPath with
  | .error _ => h
  | .ok bytes =>
    let disk := (h.disk.remove lastPidPath).toOption.getD h.disk
    match Text.natural? ((Text.decodeLossy bytes).toList.takeWhile (· ≠ '\n')) with
    | some n => { h with disk, nextPid := n + 1 }
    | none => { h with disk }

/-- Sets a command going beside a script, or ends the script if the system starts nothing more. -/
def setGoing (h : Host) (pid : Nat) (m : Machine) (c : Cmd) : Host :=
  match h.limit? with
  | some _ => { h with disk := m.complain h.disk "Cannot fork" }.setLife pid (.ended (.exited 2))
  | none =>
    let beside : Process := ⟨h.freePid, .running (m.aside c h.freePid), false, false⟩
    let h := { h.setLife pid (.running (m.besides h.freePid)) with nextPid := h.freePid + 1 }
    { h with processes := h.processes ++ [beside] }

/-- Does what the script with a number wants. -/
def oblige (h : Host) (pid : Nat) : Host :=
  match h.process? pid with
  | some ⟨_, .running m, _, _⟩ =>
    match m.wish? with
    | none => h
    | some (.beside c) => h.setGoing pid m c
    | some (.signal target n) =>
      let told (status : Nat) : Host := h.setLife pid (.running { m with wish? := none, status })
      match (told 0).signal target n with
      | .ok h => h
      | .error f => { told 1 with disk := m.complain h.disk s!"kill: {f.words}\n" }
  | _ => h

/-- Reaps what is not ours to reap, and tells the scripts. -/
def collect (h : Host) : Host :=
  let ends := h.processes.filterMap fun p =>
    match p.life with
    | .ended s => some (p.pid, s.code.getD (128 + s.signal.getD 0))
    | .running _ => none
  let told (p : Process) : Process :=
    match p.life with
    | .running m => { p with life := .running (m.learn ends) }
    | .ended _ => p
  { h with processes := (h.processes.filter fun p => p.ours || p.life.isRunning).map told }

/-- What the system does at the end of a tick. -/
def attend (h : Host) : Host :=
  let h := h.heed
  ((h.processes.map (·.pid)).foldl oblige h).collect

/-- Lets a tick pass. -/
def tick (h : Host) : Host :=
  (h.processes.foldl turn { h with clock := h.clock + tickTime }).attend

end Host

end LogWatch
