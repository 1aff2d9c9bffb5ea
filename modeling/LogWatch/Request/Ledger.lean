import LogWatch.Event.Progress
import LogWatch.LogFile.Position
import LogWatch.Request.Ticket

/-!
The ledger of a listener: the requests that are pending, in the order they came, a ticket for
every request ever entered, and counts of how requests ended. Each request follows its own
progress; a line, a sweep of the clock or the closing of the ledger settles some of them through
their tickets and takes them out. A request whose ticket was dropped is struck out unsettled when
a line or a sweep comes.
-/

namespace LogWatch

structure Request where
  id : Nat
  progress : Progress
  /-- When the request expires. -/
  deadline : Option Nat
  /-- How far the log had been written when the request was made. -/
  start : Option Position
deriving DecidableEq, Repr

namespace Request

def overdue (now : Nat) (r : Request) : Bool := r.deadline.any (· ≤ now)

/-- Whether a line that ends at `lineEnd` had been written before the request was made. -/
def predates (lineEnd : Position) (r : Request) : Bool := r.start.any (lineEnd ≤ ·)

/-- Shows a line to the request. The answer is its labels once it is satisfied. -/
def offer (line : String) (lineEnd : Position) (r : Request) : Request × Option (List String) :=
  if r.predates lineEnd then (r, none)
  else
    let (progress, satisfied) := r.progress.observe line
    ({ r with progress }, if satisfied then some progress.labels else none)

end Request

structure Tally where
  lines : Nat
  observed : Nat
  expired : Nat
  rejected : Nat
deriving DecidableEq, Repr

structure Ledger where
  pending : List Request
  /-- The tickets of all requests entered; a request's number is its place here. -/
  tickets : List Ticket
  closed : Bool
  tally : Tally
deriving DecidableEq, Repr

namespace Ledger

def fresh : Ledger := ⟨[], [], false, ⟨0, 0, 0, 0⟩⟩

/-- A ledger that refuses every request. -/
def shut : Ledger := { fresh with closed := true }

/-- Enters a request and gives its number, unless the ledger is closed. -/
def register (l : Ledger) (e : Event) (deadline : Option Nat) (start : Option Position) :
    Ledger × Option Nat :=
  if l.closed then ({ l with tally.rejected := l.tally.rejected + 1 }, none)
  else
    let id := l.tickets.length
    ({ l with
        pending := l.pending ++ [⟨id, .start e, deadline, start⟩]
        tickets := l.tickets ++ [.pending id] },
      some id)

def ticket? (l : Ledger) (id : Nat) : Option Ticket := l.tickets[id]?

/-- What the caller of a request is handed, given the number that the request got, if any. -/
def handed (l : Ledger) : Option Nat → Option Ticket
  | some id => l.ticket? id
  | none => some .refused

def isHeld (l : Ledger) (id : Nat) : Bool := (l.ticket? id).any (·.held)

/-- The outcome that the holder of a ticket would see. -/
def outcome? (l : Ledger) (id : Nat) : Option Outcome := (l.ticket? id).bind (·.value?)

def settle (id : Nat) (o : Outcome) (tickets : List Ticket) : List Ticket :=
  tickets.modify id (·.resolve o)

/-- Strikes out what nobody waits for any more and expires what is due. The answer is how many
requests expired. -/
def expire (l : Ledger) (now : Nat) : Ledger × Nat :=
  let wanted := l.pending.filter fun r => l.isHeld r.id
  let due := wanted.filter (·.overdue now)
  ({ l with
      pending := wanted.filter fun r => !r.overdue now
      tickets := due.foldl (fun ts r => settle r.id .expired ts) l.tickets
      tally.expired := l.tally.expired + due.length },
    due.length)

/-- Shows a line, read at `now` and ending at `lineEnd`, to every pending request. What is due
expires first. The answer is how many requests the line satisfied. -/
def dispatch (l : Ledger) (now : Nat) (line : String) (lineEnd : Position) : Ledger × Nat :=
  let (l, _) := { l with tally.lines := l.tally.lines + 1 }.expire now
  let shown := l.pending.map (·.offer line lineEnd)
  let met := shown.filterMap fun (r, labels?) => labels?.map (r.id, ·)
  ({ l with
      pending := shown.filterMap fun (r, labels?) => if labels?.isSome then none else some r
      tickets := met.foldl (fun ts (id, labels) => settle id (.observed labels) ts) l.tickets
      tally.observed := l.tally.observed + met.length },
    met.length)

/-- Closes the ledger and rejects what is pending. The answer is how many requests that were. -/
def rejectAll (l : Ledger) (cause : Cause) : Ledger × Nat :=
  let n := l.pending.length
  ({ l with
      pending := []
      tickets := l.pending.foldl (fun ts r => settle r.id (.rejected cause) ts) l.tickets
      closed := true
      tally.rejected := l.tally.rejected + n },
    n)

/-- The earliest deadline of a pending request. -/
def nextDeadline (l : Ledger) : Option Nat := (l.pending.filterMap (·.deadline)).min?

/-- The caller of a request drops its ticket. -/
def drop (l : Ledger) (id : Nat) : Ledger := { l with tickets := l.tickets.modify id (·.drop) }

/-- The caller of a request looks whether it is done, and keeps its outcome. -/
def collect (l : Ledger) (id : Nat) : Ledger :=
  { l with tickets := l.tickets.modify id (·.collect) }

end Ledger

end LogWatch
