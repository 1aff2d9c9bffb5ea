import LogWatch.Listener.Error
import LogWatch.Request.Outcome

/-!
What a caller holds of its request: a cell that is written once. The outcome goes through a
channel with room for one; the first outcome that is sent closes it, and so does the loss of the
sending end. Whatever the caller collects it keeps, so it can look again as often as it likes.
-/

namespace LogWatch

structure Ticket where
  request : Option Nat
  /-- The outcome under way in the channel. -/
  sent : Option Outcome
  closed : Bool
  /-- The outcome that the caller has collected. -/
  kept : Option Outcome
  /-- Whether the caller still holds the ticket. -/
  held : Bool
deriving DecidableEq, Repr

namespace Ticket

def pending (request : Nat) : Ticket := ⟨some request, none, false, none, true⟩

def ready (o : Outcome) : Ticket := ⟨none, none, true, some o, true⟩

/-- The ticket for a request that nobody would serve: it has no number and is settled already. -/
def refused : Ticket := ready (.rejected .notListening)

/-- Sends an outcome. Only the first has an effect, and only while somebody can collect it. -/
def resolve (o : Outcome) (t : Ticket) : Ticket :=
  if t.closed || !t.held then { t with closed := true }
  else { t with sent := some o, closed := true }

/-- The sending end goes away. -/
def abandon (t : Ticket) : Ticket := { t with closed := true }

/-- The caller drops the ticket. -/
def drop (t : Ticket) : Ticket := { t with held := false }

/-- What the caller would collect now: an outcome already kept or under way, or that of a request
which nobody serves any more. -/
def value? (t : Ticket) : Option Outcome :=
  match t.kept, t.sent with
  | some o, _ => some o
  | none, some o => some o
  | none, none => if t.closed then some (.rejected .stopped) else none

/-- Takes the outcome out of the channel, if there is one. -/
def collect (t : Ticket) : Ticket := { t with kept := t.value?, sent := none }

def isDone (t : Ticket) : Ticket × Bool :=
  let t := t.collect
  (t, t.kept.isSome)

def tryGet (t : Ticket) : Ticket × Option Outcome :=
  let t := t.collect
  (t, t.kept)

/-- Waits at most so long for the outcome; an outcome that is there needs no waiting. -/
def getWithin (t : Ticket) (timeout : Duration) : Ticket × Except ListenError Outcome :=
  match t.tryGet with
  | (t, some o) => (t, .ok o)
  | (t, none) => (t, .error (.waitTimedOut timeout))

/-- Whether nobody can see the outcome any more. -/
def isAbandoned (t : Ticket) : Bool := !t.held

@[simp] theorem value?_collect (t : Ticket) : t.collect.value? = t.value? := by
  obtain ⟨_, sent, closed, kept, _⟩ := t
  cases kept <;> cases sent <;> cases closed <;> rfl

end Ticket

end LogWatch
