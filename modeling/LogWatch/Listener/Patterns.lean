import LogWatch.Event

/-!
What a node writes to its log when something well known happens, and the events that wait for it.
The two patterns about a transaction are templates with a placeholder for its hash.
-/

namespace LogWatch

structure Patterns where
  heartbeat : String
  minersStarted : String
  transactionSealed : String
  transactionRejected : String
deriving DecidableEq, Repr

namespace Patterns

def placeholder : String := "\x7bhash\x7d"

def standard : Patterns :=
  ⟨"p2p-status", "sealing new block", "Transaction: " ++ placeholder ++ " was sealed into block",
    "Transaction: " ++ placeholder ++ " was rejected"⟩

/-- A template with the hash for every placeholder. -/
def render (template hash : String) : String :=
  String.ofList (Text.fill placeholder.toList hash.toList template.toList)

def hasPlaceholder (template : String) : Bool := Text.occurs placeholder.toList template.toList

def heartbeatEvent (p : Patterns) : Event := .pattern p.heartbeat
def minersStartedEvent (p : Patterns) : Event := .pattern p.minersStarted
def sealedEvent (p : Patterns) (hash : String) : Event := .pattern (render p.transactionSealed hash)
def rejectedEvent (p : Patterns) (hash : String) : Event :=
  .pattern (render p.transactionRejected hash)

/-- The transaction was either sealed or rejected; the label tells which. -/
def processedEvent (p : Patterns) (hash : String) : Event :=
  .or (p.sealedEvent hash) (p.rejectedEvent hash)

end Patterns

end LogWatch
