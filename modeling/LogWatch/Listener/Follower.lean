import LogWatch.Listener.Error
import LogWatch.Listener.Stream
import LogWatch.Request.Ledger

/-!
A listener and the follower that reads the log for it. The follower moves in small steps: it reads
line after line, at the end of the file asks the node where its log is, rests if that is still the
file it holds, and otherwise waits out a grace and asks again for a file to go on with, as often
as its budget allows. The steps that ask take the answer from outside (`answer`); all others need
only the disk and the clock (`advance`). The end of the stream has two steps: the state is set
first, then the ledger is closed.
-/

namespace LogWatch

/-- What a node answers when it is asked for its log, or that it failed to answer at all. -/
inductive Report where
  | path (path : Option String)
  | died
deriving DecidableEq, Repr

inductive Phase where
  | reading
  /-- At the end of the file, about to ask where the log is. -/
  | asking
  /-- The file is still the log: a pause until the next look at it. -/
  | resting
  /-- The grace before an attempt to reopen the log, of which `left` are left. -/
  | waiting (left : Nat) (last : Loss)
  /-- About to ask which file to open. -/
  | reopening (left : Nat) (last : Loss)
  /-- The stream has ended; the ledger is about to be closed. -/
  | ending (cause : Cause)
  | done
deriving DecidableEq, Repr

namespace Phase

def asks : Phase → Bool
  | asking | reopening _ _ => true
  | _ => false

/-- Whether the follower moves on by itself. -/
def isMoving : Phase → Bool
  | reading | resting | waiting _ _ | ending _ => true
  | asking | reopening _ _ | done => false

end Phase

structure Follower where
  reader : Reader
  generation : Nat
  /-- How often one rotation may be followed by an attempt to reopen the log. -/
  budget : Nat
  phase : Phase
deriving DecidableEq, Repr

structure Listener where
  patterns : Patterns
  ledger : Ledger
  stream : Stream
  follower : Option Follower
deriving DecidableEq, Repr

namespace Listener

/-- A listener that was never attached: every request is refused. -/
def detached : Listener := ⟨.standard, .shut, ⟨.unattached, 0, false⟩, none⟩

/-- Attaches to the end of the log that the node reports. -/
def attach (d : Disk) (s : Settings) (alive : Bool) (reported : Option String) :
    Except ListenError Listener :=
  match s.fault?, alive, reported with
  | some fault, _, _ => .error (.invalid fault)
  | none, false, _ => .error .nodeNotAlive
  | none, true, none => .error .noLogFile
  | none, true, some path =>
    match Reader.openAt d path true with
    | .error e => .error (.unavailable path e)
    | .ok reader =>
      .ok ⟨s.patterns, .fresh, ⟨.attached path, 0, false⟩, some ⟨reader, 0, s.attempts, .reading⟩⟩

def setFollower (l : Listener) (f : Follower) : Listener := { l with follower := some f }

def sweep (l : Listener) (now : Nat) : Listener := { l with ledger := (l.ledger.expire now).1 }

/-- Ends the stream in a state; the cause is for the requests that are pending. -/
def endStream (l : Listener) (f : Follower) (state : StreamState) (cause : Cause) : Listener :=
  { l with
    stream := { l.stream with state }
    follower := some { f with phase := .ending cause } }

/-- One step of the follower that asks nothing. -/
def advance (d : Disk) (now : Nat) (l : Listener) : Listener :=
  match l.follower with
  | none => l
  | some f =>
    match f.phase with
    | .reading =>
      if l.stream.shutdown then l.endStream f .stopped .stopped
      else match f.reader.next d with
        | .ok (reader, some line) =>
          let (ledger, _) := l.ledger.dispatch now line ⟨f.generation, reader.consumed⟩
          { l with ledger, follower := some { f with reader } }
        | .ok (reader, none) => l.setFollower { f with reader, phase := .asking }
        | .error e => l.setFollower { f with phase := .waiting f.budget (.rotated (.unreadable e)) }
    | .resting => (l.sweep now).setFollower { f with phase := .reading }
    | .waiting 0 last => l.endStream f (.failed (.lost last)) (.lost last)
    | .waiting (left + 1) last =>
      let phase := if l.stream.shutdown then .reading else .reopening left last
      (l.sweep now).setFollower { f with phase }
    | .ending cause =>
      { l with
        ledger := (l.ledger.rejectAll cause).1
        follower := some { f with phase := .done } }
    | .asking | .reopening _ _ | .done => l

/-- The step of the follower that the answer to its question brings about. -/
def answer (d : Disk) (r : Report) (l : Listener) : Listener :=
  match l.follower with
  | none => l
  | some f =>
    match f.phase, r with
    | .asking, .died | .reopening _ _, .died => l.endStream f (.failed .died) .died
    | .asking, .path reported =>
      match f.reader.rotation d reported with
      | some rotation => l.setFollower { f with phase := .waiting f.budget (.rotated rotation) }
      | none => l.setFollower { f with phase := .resting }
    | .reopening left _, .path none => l.setFollower { f with phase := .waiting left .unreported }
    | .reopening left _, .path (some path) =>
      match Reader.openAt d path false with
      | .error e => l.setFollower { f with phase := .waiting left (.unopened path e) }
      | .ok reader =>
        let generation := f.generation + 1
        { l with
          stream := { l.stream with state := .attached path, generation }
          follower := some { f with reader, generation, phase := .reading } }
    | _, _ => l

def asks (l : Listener) : Bool := l.follower.any (·.phase.asks)

def isMoving (l : Listener) : Bool := l.follower.any (·.phase.isMoving)

/-- Whether there is a follower that has not come to its end. -/
def isFollowing (l : Listener) : Bool := l.follower.any (·.phase ≠ .done)

/-- At most so many steps that ask nothing. -/
def advanceBy (d : Disk) (now : Nat) : Nat → Listener → Listener
  | 0, l => l
  | n + 1, l => if l.isMoving then advanceBy d now n (l.advance d now) else l

/-- How many steps the follower can take before it asks: one for each line it may read, and those
of a pause, of a failure to read or of the end of the stream. -/
def stepsAhead (d : Disk) (l : Listener) : Nat :=
  match l.follower with
  | none => 0
  | some f => f.reader.unread d + 4

/-- Lets the follower go on by itself until it asks or is done. -/
def untilAsks (d : Disk) (now : Nat) (l : Listener) : Listener :=
  l.advanceBy d now (l.stepsAhead d)

/-- Answers the follower's question and lets it go on to the next one or to its end. -/
def resume (d : Disk) (now : Nat) (r : Report) (l : Listener) : Listener :=
  (l.answer d r).untilAsks d now

/-- The end of what is written to the attached log by now. -/
def writePosition (d : Disk) (l : Listener) : Option Position :=
  match l.stream.state with
  | .attached path =>
    match d.find path with
    | .ok file => some ⟨l.stream.generation, d.size file⟩
    | .error _ => none
  | _ => none

def register (d : Disk) (e : Event) (deadline : Option Nat) (l : Listener) :
    Listener × Option Nat :=
  let (ledger, id) := l.ledger.register e deadline (l.writePosition d)
  ({ l with ledger }, id)

/-- Enters a request that sees only lines not yet completely written. Its number is given unless
the listener refuses it. -/
def listen (d : Disk) (now : Nat) (e : Event) (timeout : Duration) (l : Listener) :
    Listener × Option Nat :=
  l.register d e (timeout.after now)

/-- Enters several requests with one deadline. -/
def listenAll (d : Disk) (now : Nat) (es : List Event) (timeout : Duration) (l : Listener) :
    Listener × List (Option Nat) :=
  es.foldl (fun (l, ids) e =>
    let (l, id) := l.register d e (timeout.after now)
    (l, ids ++ [id])) (l, [])

/-- Asks the follower to stop. It heeds that where it next reads a line or waits out a grace. -/
def requestStop (l : Listener) : Listener :=
  { l with stream := { l.stream with shutdown := true } }

/-- Rejects what a follower left pending that is no more. -/
def closeStopped (l : Listener) : Listener := { l with ledger := (l.ledger.rejectAll .stopped).1 }

/-- Stops the listener: whatever the follower was about to do it does first, with this answer to
its question, and reads nothing more. -/
def stop (d : Disk) (now : Nat) (r : Report) (l : Listener) : Listener :=
  if l.isFollowing then ((l.requestStop.untilAsks d now).resume d now r).closeStopped
  else l

def isListening (l : Listener) : Bool := l.stream.state.isAttached && !l.ledger.closed

/-- The state and the counts, for people. -/
def describe (l : Listener) : String :=
  let t := l.ledger.tally
  "Listener \x7b state: " ++ l.stream.state.describe
    ++ ", stats: ListenerStats \x7b "
    ++ s!"lines_dispatched: {t.lines}, observed: {t.observed}, expired: {t.expired}, "
    ++ s!"rejected: {t.rejected}, pending: {l.ledger.pending.length}" ++ " \x7d \x7d"

end Listener

end LogWatch
