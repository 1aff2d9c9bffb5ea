import LogWatch.Event.Circuit

/-!
How far one request has come: the circuit of its event with the leaves lit so far, the values of
its gates and the labels recorded. A satisfied request takes no notice of further lines, so its
labels stay those of the lines up to the one that satisfied it.
-/

namespace LogWatch

structure Progress where
  gates : Array Gate
  values : Array Bool
  labels : List String
deriving DecidableEq, Repr

namespace Progress

def start (e : Event) : Progress :=
  let gates := e.circuit
  ⟨gates, Array.replicate gates.size false, []⟩

def satisfied (p : Progress) : Bool := p.values.back?.getD false

/-- The patterns that `line` lights for the first time, from left to right. -/
def lit (p : Progress) (line : String) : List String :=
  let chars := line.toList
  p.gates.toList.filterMap (·.lights? chars)

/-- Shows a line to every unlit leaf. The answer is what it lit; nothing is recorded. -/
def feed (p : Progress) (line : String) : Progress × List String :=
  if p.satisfied then (p, [])
  else
    let labels := p.lit line
    if labels.isEmpty then (p, [])
    else
      let chars := line.toList
      let gates := p.gates.map (·.light chars)
      ({ p with gates, values := settle gates p.values }, labels)

/-- Feeds a line and records what it lit. The answer is whether the event is satisfied. -/
def observe (p : Progress) (line : String) : Progress × Bool :=
  if p.satisfied then (p, true)
  else
    let (next, labels) := p.feed line
    let next := { next with labels := p.labels ++ labels }
    (next, next.satisfied)

def takeLabels (p : Progress) : Progress × List String :=
  ({ p with labels := [] }, p.labels)

end Progress

end LogWatch
