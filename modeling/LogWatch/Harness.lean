import LogWatch.Harness.Settings
import LogWatch.Listener.Follower
import LogWatch.Node

/-!
A harness: a node and, in a slot, the listener for its current run. A start attaches a new listener
to the new log and puts it into the slot; a stop and a reset put a detached one there first.
Whatever leaves the slot is stopped. All listeners that were ever in the slot are kept, for those
who still hold them; they are numbered in the order they came.
-/

namespace LogWatch

structure Harness where
  listening : Settings
  node : Node
  listeners : List Listener
  /-- The number of the current listener. -/
  slot : Nat
deriving DecidableEq, Repr

namespace Harness

/-- A harness for a node that does not run yet, if the settings are usable. -/
def ofSettings (s : HarnessSettings) : Except HarnessError Harness :=
  match s.fault? with
  | some e => .error e
  | none => .ok ⟨s.listener, .ofSettings s.node, [.detached], 0⟩

def listener (x : Harness) : Listener := x.listeners.getD x.slot .detached

/-- Numbers a new listener. -/
def enroll (x : Harness) (l : Listener) : Harness × Nat :=
  ({ x with listeners := x.listeners ++ [l] }, x.listeners.length)

/-- Puts a new listener into the slot and gives its number. -/
def place (x : Harness) (l : Listener) : Harness × Nat :=
  let (x, i) := x.enroll l
  ({ x with slot := i }, i)

/-- Stops a listener; its follower may still ask the node where its log is. -/
def silence (x : Harness) (h : Host) (i : Nat) : Harness :=
  { x with
    listeners := x.listeners.modify i (·.stop h.disk h.clock (.path x.node.logPath?)) }

/-- Puts a detached listener into the slot, and stops the one that was there. -/
def detach (x : Harness) (h : Host) : Harness := (x.place .detached).1.silence h x.slot

/-- A listener on the log of the node; its follower needs a thread of its own. -/
def engage (x : Harness) (h : Host) (alive : Bool) : Except ListenError Listener :=
  match Listener.attach h.disk x.listening alive x.node.logPath?, h.limit? with
  | .error e, _ => .error e
  | .ok _, some e => .error (.io e)
  | .ok l, none => .ok l

/-- Attaches a listener to the log of the run that was just started. A run that cannot be listened
to is killed. -/
def attach (x : Harness) (h : Host) : (Harness × Host) × Except HarnessError Nat :=
  let ((node, h), alive) := x.node.isAlive h
  match { x with node }.engage h alive with
  | .error e =>
    let ((node, h), _) := node.kill h
    (({ x with node }, h), .error (.listener e))
  | .ok l =>
    let (y, i) := { x with node }.place (l.untilAsks h.disk h.clock)
    ((y.silence h x.slot, h), .ok i)

/-- Starts the node and listens to its new log; gives the number of the new listener. -/
def start (x : Harness) (h : Host) : (Harness × Host) × Except HarnessError Nat :=
  match x.node.start h with
  | ((node, h), .error e) => (({ x with node }, h), .error (.node e))
  | ((node, h), .ok _) => { x with node }.attach h

/-- Stops listening, then the node. -/
def stop (x : Harness) (h : Host) : (Harness × Host) × Except HarnessError ExitStatus :=
  let x := x.detach h
  let ((node, h), r) := x.node.stop h
  (({ x with node }, h), r.mapError .node)

/-- Stops the node, if there is a run, and starts it again. -/
def restart (x : Harness) (h : Host) : (Harness × Host) × Except HarnessError Nat :=
  match x.node.pid? with
  | none => x.start h
  | some _ =>
    match x.stop h with
    | ((x, h), .ok _) => x.start h
    | (r, .error e) => (r, .error e)

/-- Stops everything and wipes the data and the logs of the node. -/
def reset (x : Harness) (h : Host) : (Harness × Host) × Except HarnessError Unit :=
  let x := x.detach h
  let ((node, h), r) := x.node.reset h
  (({ x with node }, h), r.mapError .node)

/-- Makes a request on the current listener; gives the number of the listener and, unless it
refuses, that of the request. -/
def listen (x : Harness) (h : Host) (e : Event) (timeout : Duration) :
    Harness × Nat × Option Nat :=
  let (l, id) := x.listener.listen h.disk h.clock e timeout
  ({ x with listeners := x.listeners.set x.slot l }, x.slot, id)

/-- What became of a request, if it is settled. -/
def outcome? (x : Harness) (listener : Nat) (id : Option Nat) : Option Outcome :=
  (x.listeners[listener]?).bind fun l => (l.ledger.handed id).bind (·.value?)

/-- Lets a tick pass, in which every follower gets one answer. -/
def tick (x : Harness) (h : Host) : Harness × Host :=
  let h := h.tick
  let report := Report.path x.node.logPath?
  ({ x with listeners := x.listeners.map (·.resume h.disk h.clock report) }, h)

/-- Lets ticks pass until something is so, at most as many as that; the flag says whether it is. -/
def await (p : Harness → Host → Bool) : Nat → Harness → Host → (Harness × Host) × Bool
  | 0, x, h => ((x, h), p x h)
  | n + 1, x, h =>
    if p x h then ((x, h), true)
    else
      let (x, h) := x.tick h
      await p n x h

/-- The harness with its parts, for people. -/
def describe (x : Harness) : String :=
  "NodeHarness \x7b node: " ++ x.node.describe ++ ", listener: " ++ x.listener.describe ++ " \x7d"

end Harness

end LogWatch
