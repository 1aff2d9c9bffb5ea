import LogWatch.Duration
import LogWatch.Node.ExitStatus
import LogWatch.Script.Fields
import LogWatch.Script.Parser
import LogWatch.Script.Tools

/-!
A program at work, as a machine: what is left to do is a stack of frames, and each step takes the
frame on top. A step takes a moment; to sleep is to be due later. Signals come between steps: one
that is not ignored ends the machine, unless the script says what to do then, in which case that
is done before the next frame.
-/

namespace LogWatch.Script

/-- Where a channel goes. -/
inductive Sink where
  | file (id : Nat)
  | nowhere
deriving DecidableEq, Repr

structure Channels where
  input : Bytes
  out : Sink
  err : Sink
deriving DecidableEq, Repr

inductive Frame where
  | run (c : Cmd)
  /-- Runs the command if the status says success, or failure. -/
  | after (success : Bool) (c : Cmd)
  | negate
  | choose (yes no : Cmd)
  /-- The condition of a loop has been run; `last` is the status of the body, if it ever ran. -/
  | tested (success : Bool) (test body : Cmd) (last : Nat)
  /-- The body of a loop has been run. -/
  | again (success : Bool) (test body : Cmd)
  | each (name : String) (values : List String) (body : Cmd)
  | restore (channels : Channels)
  | setStatus (n : Nat)
  /-- Waits for the end of a process that the script has set going, or of all of them. -/
  | await (pid? : Option Nat)
  /-- The end of a command whose settings are its own; here are those of the script. -/
  | rejoin (pid : Nat) (vars : List (String × String)) (args : List String) (dir : String)
      (traps : List (Nat × String))
deriving DecidableEq, Repr

namespace Frame

def isLoop : Frame → Bool
  | again _ _ _ | each _ _ _ => true
  | _ => false

def isRejoin : Frame → Bool
  | rejoin _ _ _ _ _ => true
  | _ => false

def isAwait : Frame → Bool
  | await _ => true
  | _ => false

end Frame

/-- What a script wants of the system. -/
inductive Wish where
  /-- To set a command going beside itself. -/
  | beside (c : Cmd)
  | signal (pid n : Nat)
deriving DecidableEq, Repr

/-- A process that a script has set going, with its status once it has ended. -/
structure Job where
  pid : Nat
  status? : Option Nat
deriving DecidableEq, Repr

structure Machine where
  /-- The number that the script takes for its own, which is that of the script it is part of. -/
  pid : Nat
  /-- The number of the process. -/
  self : Nat
  stack : List Frame
  status : Nat
  vars : List (String × String)
  name : String
  args : List String
  dir : String
  channels : Channels
  /-- What to do on a signal: a script, or nothing at all. Signal 0 is the end of the script. -/
  traps : List (Nat × String)
  /-- Signals that the script will see before its next command. -/
  signals : List Nat
  /-- What it has set going beside itself, the last one first. -/
  jobs : List Job
  /-- What the system is to do for it before its next step. -/
  wish? : Option Wish
  /-- When the next step is due. -/
  due : Nat
  frozen : Bool
deriving DecidableEq, Repr

namespace Machine

/-- How long a step takes, in nanoseconds. -/
def stepTime : Nat := 1000

/-- How long a program takes until its first step. -/
def loadTime : Nat := 20000000

def blank (pid : Nat) (now : Nat) : Machine :=
  ⟨pid, pid, [], 0, [], "sh", [], "", ⟨[], .nowhere, .nowhere⟩, [], [], [], none, now + loadTime,
    false⟩

def push (m : Machine) (frames : List Frame) : Machine := { m with stack := frames ++ m.stack }

def get? (m : Machine) : String → Option String
  | "?" => some (toString m.status)
  | "$" => some (toString m.pid)
  | "!" => m.jobs.head?.map fun job => toString job.pid
  | "#" => some (toString m.args.length)
  | "*" => some (" ".intercalate m.args)
  | "@" => some (" ".intercalate m.args)
  | "0" => some m.name
  | name =>
    match Text.natural? name.toList with
    | some (i + 1) => m.args[i]?
    | _ => m.vars.lookup name

def set (m : Machine) (name value : String) : Machine :=
  { m with vars := (name, value) :: m.vars.filter (·.1 ≠ name) }

def names (m : Machine) : Names := ⟨m.get?, m.args⟩

/-! Signals. -/

def signalNames : List (String × Nat) :=
  [("EXIT", 0), ("HUP", 1), ("INT", 2), ("QUIT", 3), ("ILL", 4), ("TRAP", 5), ("ABRT", 6),
    ("BUS", 7), ("FPE", 8), ("KILL", 9), ("USR1", 10), ("SEGV", 11), ("USR2", 12), ("PIPE", 13),
    ("ALRM", 14), ("TERM", 15), ("STKFLT", 16), ("CHLD", 17), ("CONT", 18), ("STOP", 19),
    ("TSTP", 20), ("TTIN", 21), ("TTOU", 22), ("URG", 23), ("XCPU", 24), ("XFSZ", 25),
    ("VTALRM", 26), ("PROF", 27), ("WINCH", 28), ("IO", 29), ("PWR", 30), ("SYS", 31)]

def kill : Nat := 9
def term : Nat := 15
def continued : Nat := 18
def frozenBy : List Nat := [19, 20, 21, 22]
def harmless : List Nat := [0, 17, 18, 23, 28]

def signal? (s : String) : Option Nat :=
  match Text.natural? s.toList, s.toList with
  | some n, _ => if n ≤ 64 then some n else none
  | none, 'S' :: 'I' :: 'G' :: name => signalNames.lookup (String.ofList name)
  | none, _ => signalNames.lookup s

/-- What a signal does: it ends the machine, or leaves it changed. -/
def signal (m : Machine) (n : Nat) : Except ExitStatus Machine :=
  if n = kill then .error (.killed n)
  else
    let m := if n = continued then { m with frozen := false } else m
    match m.traps.lookup n with
    | some "" => .ok m
    | some _ => .ok { m with signals := m.signals ++ [n] }
    | none =>
      if frozenBy.contains n then .ok { m with frozen := true }
      else if harmless.contains n then .ok m
      else if m.frozen then .ok { m with signals := m.signals ++ [n] }
      else .error (.killed n)

/-! Output. -/

def emit (d : Disk) (sink : Sink) (bytes : Bytes) : Disk :=
  match sink with
  | .file id => d.appendTo id bytes
  | .nowhere => d

/-- Writes a complaint of the script itself. -/
def complain (m : Machine) (d : Disk) (text : String) : Disk :=
  emit d m.channels.err (Text.encode s!"{m.name}: 1: {text}\n")

def nullPath : String := "/dev/null"

/-- Opens the target of a redirection. -/
def redirect (m : Machine) (d : Disk) (r : Redirect) : Except String (Disk × Machine) := do
  let c := m.channels
  let text (w : Word) : Except String String :=
    match m.names.text? w with
    | some s => .ok s
    | none => .error "bad substitution"
  let aim (s : Sink) : Machine :=
    { m with channels := if r.channel = 2 then { c with err := s } else { c with out := s } }
  let opened (path : String) (r : Except DiskError (Disk × Nat)) :
      Except String (Disk × Machine) :=
    match r with
    | .ok (d, id) => .ok (d, aim (.file id))
    | .error .notFound => .error s!"cannot create {path}: Directory nonexistent"
    | .error e => .error s!"cannot create {path}: {e.words}"
  match r.aim with
  | .same channel => return (d, aim (if channel = 2 then c.err else c.out))
  | .write w =>
    let path ← text w
    if path = nullPath then return (d, aim .nowhere)
    opened path (do
      let d ← d.write (Tools.seenFrom m.dir path) []
      d.openFile (Tools.seenFrom m.dir path))
  | .append w =>
    let path ← text w
    if path = nullPath then return (d, aim .nowhere)
    opened path (d.openFile (Tools.seenFrom m.dir path))
  | .read w =>
    let path ← text w
    if path = nullPath then return (d, { m with channels := { c with input := [] } })
    match d.read (Tools.seenFrom m.dir path) with
    | .ok input => return (d, { m with channels := { c with input } })
    | .error .notFound => throw s!"cannot open {path}: No such file"
    | .error e => throw s!"cannot open {path}: {e.words}"

/-! Steps. -/

/-- What a step comes to: the machine goes on, or has ended. -/
abbrev Course := Disk × Except ExitStatus Machine

def done (m : Machine) (d : Disk) (status : Nat) : Course := (d, .ok { m with status })

/-- Ends the innermost command with settings of its own, or the machine; what the script wants to
be done at its end is done first. -/
def leave (m : Machine) (d : Disk) (status : Nat) : Course :=
  match m.stack.dropWhile (!·.isRejoin) with
  | [] =>
    match m.traps.lookup 0 >>= parse? with
    | some c =>
      (d, .ok { m with
        stack := [.run c, .setStatus status]
        traps := m.traps.filter (·.1 ≠ 0)
        status })
    | none => (d, .error (.exited status))
  | stack => (d, .ok { m with stack, status })

/-- Ends the machine with a complaint. -/
def fail (m : Machine) (d : Disk) (text : String) : Course := m.leave (m.complain d text) 2

/-- Ends the machine because its first argument is no number. -/
def failNumber (m : Machine) (d : Disk) (args : List String) : Course :=
  m.fail d ("Illegal number: " ++ args.headD "")

def seconds? (s : String) : Option Nat :=
  let unit := match s.toList.getLast? with
    | some 'm' => 60 | some 'h' => 3600 | some 'd' => 86400 | _ => 1
  let digits := (s.toList.reverse.dropWhile fun c => "smhd".toList.contains c).reverse
  let whole := digits.takeWhile Char.isDigit
  match digits.drop whole.length with
  | [] => if whole.isEmpty then none else some (Text.value 10 whole * 1000000000 * unit)
  | '.' :: part =>
    if part.all Char.isDigit && !(whole.isEmpty && part.isEmpty) then
      let nanos := Text.value 10 ((part ++ List.replicate 9 '0').take 9)
      some ((Text.value 10 whole * 1000000000 + nanos) * unit)
    else none
  | _ => none

def sleep (m : Machine) (d : Disk) (args : List String) : Course :=
  let complain (text : String) : Course :=
    let hint := "\nTry " ++ Tools.inQuotes "sleep --help" ++ " for more information.\n"
    (emit d m.channels.err (Text.encode ("sleep: " ++ text ++ hint)), .ok { m with status := 1 })
  if args.isEmpty then complain "missing operand"
  else if args.contains "infinity" then (d, .ok { m with due := m.due + Duration.horizon })
  else match args.find? fun a => (seconds? a).isNone with
    | some a => complain ("invalid time interval " ++ Tools.inQuotes a)
    | none =>
      let nanos := (args.filterMap seconds?).foldl (· + ·) 0
      (d, .ok { m with status := 0, due := m.due + nanos })

def sendSignal (m : Machine) (d : Disk) (args : List String) : Course :=
  let (wanted, targets) : Option Nat × List String := match args with
    | "-s" :: name :: targets => (signal? name, targets)
    | "--" :: targets => (some term, targets)
    | a :: targets =>
      match a.toList with
      | '-' :: name => (signal? (String.ofList name), targets)
      | _ => (some term, a :: targets)
    | [] => (none, [])
  match wanted, targets with
  | none, _ => (m.complain d "kill: Illegal option", .ok { m with status := 2 })
  | some n, [target] =>
    match Text.natural? target.toList with
    | some pid =>
      if pid = m.self then (d, signal { m with status := 0 } n)
      else (d, .ok { m with wish? := some (.signal pid n) })
    | none => (m.complain d ("kill: Illegal number: " ++ target), .ok { m with status := 2 })
  | some _, _ =>
    (m.complain d "kill: Usage: kill [-s sigspec | -signum] pid", .ok { m with status := 2 })

def trap (m : Machine) (d : Disk) (args : List String) : Course :=
  let without (ns : List Nat) : List (Nat × String) := m.traps.filter fun t => !ns.contains t.1
  match (if args.head? = some "--" then args.tail else args) with
  | [] => m.done d 0
  | [n] => (d, .ok { m with status := 0, traps := without (signal? n).toList })
  | action :: names =>
    let ns := names.filterMap signal?
    if ns.length < names.length then m.fail d "trap: bad trap"
    else if action = "-" then (d, .ok { m with status := 0, traps := without ns })
    else (d, .ok { m with status := 0, traps := ns.map (·, action) ++ without ns })

/-- Takes loops off the stack, from the inside; the flag leaves the last one in its place. -/
def leaveLoops (keepLast : Bool) : Nat → List Frame → List Frame
  | 0, stack => stack
  | n + 1, stack =>
    match stack.dropWhile fun f => !f.isLoop && !f.isRejoin with
    | f :: rest =>
      if f.isLoop then if n = 0 && keepLast then f :: rest else leaveLoops keepLast n rest
      else stack
    | [] => stack

def readLine (m : Machine) (d : Disk) (names : List String) : Course :=
  let names := if names.head? = some "-r" then names.tail else names
  let line := m.channels.input.takeWhile (· ≠ 10)
  let ended := line.length < m.channels.input.length
  let fields := (Fields.none.split (Text.decodeLossy line)).close.complete
  let values := names.zipIdx.map fun (x, i) =>
    (x, if i + 1 = names.length then " ".intercalate (fields.drop i) else fields.getD i "")
  let m := values.foldl (fun m (x, v) => m.set x v) m
  (d, .ok { m with
    status := if ended then 0 else 1
    channels := { m.channels with input := m.channels.input.drop (line.length + 1) } })

def status? (args : List String) (usual : Nat) : Option Nat :=
  match args with
  | [] => some usual
  | a :: _ => (Text.natural? a.toList).map (· % 256)

/-- Sets a name to a value if the argument says so. -/
def assign (m : Machine) (a : String) : Machine :=
  match a.toList.span (· ≠ '=') with
  | (name, _ :: value) => m.set (String.ofList name) (String.ofList value)
  | _ => m

/-- Leaves so many loops, the innermost first, or goes on with the last of them. -/
def cut (m : Machine) (d : Disk) (keepLast : Bool) (args : List String) : Course :=
  match status? args 1 with
  | some n => (d, .ok { m with stack := leaveLoops keepLast n m.stack, status := 0 })
  | none => m.failNumber d args

/-- Runs a command whose settings are its own. -/
def enter (m : Machine) (c : Cmd) (args : List String) : Machine :=
  { m.push [.run c, .rejoin m.pid m.vars m.args m.dir m.traps] with
    args
    traps := m.traps.filter (·.2 = "") }

/-- Runs a script of its own, which takes the number of the process for its own. -/
def nest (m : Machine) (c : Cmd) (args : List String) : Machine :=
  { m.enter c args with pid := m.self }

/-- The script as it goes on in a process of its own, with one command to run. -/
def aside (m : Machine) (c : Cmd) (self : Nat) : Machine :=
  { m with
    self
    stack := [.run c]
    traps := [(2, ""), (3, "")] ++ m.traps.filter (·.2 = "")
    channels := { m.channels with input := [] }
    signals := []
    jobs := []
    wish? := none }

/-- Goes on with a process set going beside it. -/
def besides (m : Machine) (pid : Nat) : Machine :=
  { m with status := 0, jobs := ⟨pid, none⟩ :: m.jobs, wish? := none }

/-- Takes note of how processes have ended, given by their numbers. -/
def learn (m : Machine) (ends : List (Nat × Nat)) : Machine :=
  { m with jobs := m.jobs.map fun job =>
      { job with status? := job.status? <|> ends.lookup job.pid } }

/-- How often a script that waits for others looks whether they have ended. -/
def awaitTime : Nat := 1000000

/-- Waits for the end of a process that the script has set going, or of all of them. -/
def await (m : Machine) (d : Disk) (pid? : Option Nat) : Course :=
  let awaited := m.jobs.filter fun job => pid?.all (· = job.pid)
  if awaited.any (·.status?.isNone) then
    (d, .ok { m.push [.await pid?] with due := m.due + awaitTime })
  else match pid? with
    | none => m.done d 0
    | some _ => m.done d ((awaited.head?.bind (·.status?)).getD 127)

/-- Runs a program that is not part of the language. -/
def program (m : Machine) (d : Disk) (name : String) (args : List String) : Course :=
  match name, args with
  | "sleep", _ => m.sleep d args
  | "date", _ =>
    let said := Tools.date d (m.due / 1000000000) args
    m.done (emit (emit d m.channels.out said.out) m.channels.err said.err) said.status
  | "sh", "-c" :: script :: rest =>
    match parse? script with
    | some c => (d, .ok (m.nest c rest.tail))
    | none => m.done (m.complain d "Syntax error") 2
  | "sh", path :: args =>
    match (d.read (Tools.seenFrom m.dir path)).toOption.map Text.decodeLossy >>= parse? with
    | some c => (d, .ok (m.nest c args))
    | none => m.done (m.complain d s!"cannot open {path}: No such file") 2
  | _, _ =>
    match tool? d m.dir m.channels.input name args with
    | some said =>
      m.done (emit (emit said.disk m.channels.out said.out) m.channels.err said.err) said.status
    | none => m.done (m.complain d s!"{name}: not found") 127

/-- Runs a command of the language itself, or a program. -/
def call (m : Machine) (d : Disk) (name : String) (args : List String) : Course :=
  match name with
  | "exit" =>
    match status? args m.status with
    | some n => m.leave d n
    | none => m.failNumber d args
  | "kill" => m.sendSignal d args
  | "trap" => m.trap d args
  | "break" => m.cut d false args
  | "continue" => m.cut d true args
  | "read" => m.readLine d args
  | "export" | "readonly" => (args.foldl assign m).done d 0
  | "unset" => { m with vars := m.vars.filter fun v => !args.contains v.1 }.done d 0
  | "set" | "umask" => m.done d 0
  | "wait" =>
    let awaited := if args.isEmpty then [none] else args.map fun a => Text.natural? a.toList
    (d, .ok (m.push (awaited.map .await)))
  | "shift" => { m with args := m.args.drop ((status? args 1).getD 1) }.done d 0
  | "cd" =>
    let dir := Tools.seenFrom m.dir (args.headD "")
    if (d.find dir).toOption.any d.isFolder then { m with dir }.done d 0
    else m.done (m.complain d ("cd: can't cd to " ++ args.headD "")) 2
  | "eval" =>
    match parse? (" ".intercalate args) with
    | some c => (d, .ok (m.push [.run c]))
    | none => m.fail d "Syntax error"
  | "exec" =>
    match args with
    | [] => m.done d 0
    | name :: args => program { m with stack := [], traps := m.traps.filter (·.2 = "") } d name args
  | _ => m.program d name args

/-- Runs a simple command: its assignments are for the script if there is nothing to call. -/
def simple (m : Machine) (d : Disk) (sets : List (String × Word)) (words : List Word)
    (redirects : List Redirect) : Course :=
  let values : Option Machine := sets.foldlM (fun m (x, w) => do
    let v ← m.names.text? w
    return m.set x v) m
  match m.names.fields? words, values with
  | some fields, some assigned =>
    match redirects.foldlM (fun (d, m) r => m.redirect d r) (d, m), fields with
    | .error text, _ => m.done (m.complain d text) 2
    | .ok (d, _), [] => assigned.done d 0
    | .ok (d, redirected), "exec" :: [] => redirected.done d 0
    | .ok (d, redirected), name :: args =>
      if redirects.isEmpty then m.call d name args
      else call (redirected.push [.restore m.channels]) d name args
  | _, _ => m.fail d "arithmetic expression: expecting primary"

/-- Runs a command, or takes it apart into frames. -/
def run (m : Machine) (d : Disk) (c : Cmd) : Course :=
  match c with
  | .nothing => m.done d 0
  | .simple sets words redirects => m.simple d sets words redirects
  | .seq first next => (d, .ok (m.push [.run first, .run next]))
  | .after first success next => (d, .ok (m.push [.run first, .after success next]))
  | .negate c => (d, .ok (m.push [.run c, .negate]))
  | .choose test yes no => (d, .ok (m.push [.run test, .choose yes no]))
  | .loop success test body => (d, .ok (m.push [.run test, .tested success test body 0]))
  | .each name words body =>
    match m.names.fields? words with
    | some values => (d, .ok ({ m with status := 0 }.push [.each name values body]))
    | none => m.fail d "arithmetic expression: expecting primary"
  | .redirected c redirects =>
    match redirects.foldlM (fun (d, m) r => m.redirect d r) (d, m) with
    | .ok (d, redirected) => (d, .ok (redirected.push [.run c, .restore m.channels]))
    | .error text => m.done (m.complain d text) 2
  | .apart c => (d, .ok (m.enter c m.args))
  | .beside c => (d, .ok { m with wish? := some (.beside c) })

/-- Does what a frame says, with the frame taken off the stack. -/
def unfold (m : Machine) (d : Disk) (f : Frame) : Course :=
  let goes (frames : List Frame) : Course := (d, .ok (m.push frames))
  match f with
  | .run c => m.run d c
  | .after success c => goes (if (m.status = 0) = success then [.run c] else [])
  | .negate => m.done d (if m.status = 0 then 1 else 0)
  | .choose yes no => goes [.run (if m.status = 0 then yes else no)]
  | .tested success test body last =>
    if (m.status = 0) = success then goes [.run body, .again success test body] else m.done d last
  | .again success test body => goes [.run test, .tested success test body m.status]
  | .each _ [] _ => goes []
  | .each name (v :: vs) body => (d, .ok ((m.set name v).push [.run body, .each name vs body]))
  | .restore channels => (d, .ok { m with channels })
  | .setStatus n => m.done d n
  | .await pid? => m.await d pid?
  | .rejoin pid vars args dir traps => (d, .ok { m with pid, vars, args, dir, traps })

/-- One step, which takes a moment. A signal that the script has a trap for comes before the next
frame, and instead of it if the script waits for other processes. -/
def step (m : Machine) (d : Disk) : Course :=
  let m := { m with due := m.due + stepTime }
  match m.signals, m.stack with
  | n :: signals, stack =>
    let m := { m with signals }
    match m.traps.lookup n with
    | none => (d, .error (.killed n))
    | some script =>
      let status := if stack.head?.any (·.isAwait) then 128 + n else m.status
      match parse? script with
      | some c =>
        (d, .ok { m with stack := .run c :: .setStatus status :: stack.dropWhile (·.isAwait) })
      | none => m.fail d "Syntax error"
  | [], [] => m.leave d m.status
  | [], f :: stack => unfold { m with stack } d f

/-- Goes on until nothing is due by a moment or the system has something to do for it, in at most so
many steps. -/
def runTo (now : Nat) : Nat → Machine → Disk → Course
  | 0, m, d => (d, .ok m)
  | n + 1, m, d =>
    if m.frozen || m.wish?.isSome || now < m.due then (d, .ok m)
    else match m.step d with
      | (d, .ok m) => runTo now n m d
      | r => r

/-- Goes on until nothing is due by a moment. -/
def runUntil (now : Nat) (m : Machine) (d : Disk) : Course :=
  m.runTo now ((now - m.due) / stepTime + 1) d

end Machine

end LogWatch.Script
