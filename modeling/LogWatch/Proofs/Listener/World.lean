import Mathlib
import LogWatch.Listener.Follower
import LogWatch.Proofs.Request.Shown

/-!
A listener among others: whoever writes the log, whoever enters requests, and the node.

A run is any sequence of moves of all of them. The follower reads a line and dispatches it in two
moves, with room for the others in between; together they are the one step of `Listener.advance`.
Every move does to the ledger what a few operations do, so the ledger after a run is that after
the operations of the run.
-/

namespace LogWatch

namespace Listener

/-- The line that the follower reads next, and the follower after it. There is none if it is not
about to read, is to stop, or is at the end of the file. -/
def readLine? (d : Disk) (l : Listener) : Option (Follower × String) :=
  match l.follower with
  | some f =>
    if f.phase = .reading ∧ l.stream.shutdown = false then
      match f.reader.next d with
      | .ok (reader, some line) => some ({ f with reader }, line)
      | _ => none
    else none
  | none => none

/-- Whether the follower is in a pause, where it may look at the clock again and again. -/
def pauses (l : Listener) : Bool :=
  l.follower.any fun f => f.phase matches .resting | .waiting _ _

/-- What a step of the follower without a line does to the ledger. -/
def advanceOps (now : ℕ) (l : Listener) : List Ledger.Op :=
  match l.follower with
  | none => []
  | some f =>
    match f.phase with
    | .resting | .waiting (_ + 1) _ => [.sweep now]
    | .ending cause => [.rejectAll cause]
    | _ => []

end Listener

/-- `hand` is the line that the follower has read and not dispatched yet, with its end. -/
structure World where
  disk : Disk
  listener : Listener
  hand : Option (String × Position)
deriving DecidableEq

inductive Move where
  /-- Somebody changes the disk. -/
  | files (next : Disk)
  /-- The follower goes on by itself. -/
  | follow (now : ℕ)
  /-- The follower looks at the clock in a pause. -/
  | sweep (now : ℕ)
  /-- The node answers the follower. -/
  | answer (r : Report)
  /-- Somebody enters a request. -/
  | listen (now : ℕ) (e : Event) (timeout : Duration)
  | drop (id : ℕ)
  | collect (id : ℕ)
  | requestStop
  /-- Whoever stops the listener rejects what is pending once the follower is no more. -/
  | finishStop
deriving DecidableEq

namespace World

/-- A world in which the listener has just been attached. -/
def begin (d : Disk) (l : Listener) : World := ⟨d, l, none⟩

def setLedger (w : World) (ledger : Ledger) : World :=
  { w with listener := { w.listener with ledger } }

/-- The follower dispatches the line in its hand, or reads one, or does what needs no line. -/
def follow (w : World) (now : ℕ) : World :=
  match w.hand, w.listener.readLine? w.disk with
  | some (line, lineEnd), _ =>
    { w.setLedger (w.listener.ledger.dispatch now line lineEnd).1 with hand := none }
  | none, some (f, line) =>
    { w with
      listener := w.listener.setFollower f
      hand := some (line, ⟨f.generation, f.reader.consumed⟩) }
  | none, none => { w with listener := w.listener.advance w.disk now }

def apply (w : World) : Move → World
  | .files next => { w with disk := next }
  | .follow now => w.follow now
  | .sweep now => if w.listener.pauses then { w with listener := w.listener.sweep now } else w
  | .answer r => { w with listener := w.listener.answer w.disk r }
  | .listen now e timeout => { w with listener := (w.listener.listen w.disk now e timeout).1 }
  | .drop id => w.setLedger (w.listener.ledger.drop id)
  | .collect id => w.setLedger (w.listener.ledger.collect id)
  | .requestStop => { w with listener := w.listener.requestStop }
  | .finishStop =>
    if w.listener.isFollowing then w else { w with listener := w.listener.closeStopped }

def run (w : World) (moves : List Move) : World := moves.foldl apply w

@[simp] lemma run_nil (w : World) : w.run [] = w := rfl
@[simp] lemma run_cons (w : World) (m : Move) (moves : List Move) :
    w.run (m :: moves) = (w.apply m).run moves := rfl
lemma run_append (w : World) (moves more : List Move) :
    w.run (moves ++ more) = (w.run moves).run more := by
  simp [run, List.foldl_append]

/-! ### What a run does to the ledger -/

def followOps (w : World) (now : ℕ) : List Ledger.Op :=
  match w.hand, w.listener.readLine? w.disk with
  | some (line, lineEnd), _ => [.dispatch now line lineEnd]
  | none, some _ => []
  | none, none => w.listener.advanceOps now

def opsOf (w : World) : Move → List Ledger.Op
  | .follow now => w.followOps now
  | .sweep now => if w.listener.pauses then [.sweep now] else []
  | .listen now e timeout => [.register e (timeout.after now) (w.listener.writePosition w.disk)]
  | .drop id => [.drop id]
  | .collect id => [.collect id]
  | .finishStop => if w.listener.isFollowing then [] else [.rejectAll .stopped]
  | .files _ | .answer _ | .requestStop => []

/-- What the moves of a run do to the ledger, in order. -/
def ops (w : World) : List Move → List Ledger.Op
  | [] => []
  | m :: moves => w.opsOf m ++ (w.apply m).ops moves

lemma ops_append (w : World) (moves more : List Move) :
    w.ops (moves ++ more) = w.ops moves ++ (w.run moves).ops more := by
  induction moves generalizing w with
  | nil => rfl
  | cons m moves ih => simp only [List.cons_append, ops, run_cons, ih, List.append_assoc]

end World

namespace Listener

variable {d : Disk} {l : Listener}

lemma readLine?_eq_some {f : Follower} {line : String} (h : l.readLine? d = some (f, line)) :
    ∃ g, l.follower = some g ∧ g.phase = .reading ∧ l.stream.shutdown = false ∧
      g.reader.next d = .ok (f.reader, some line) ∧ f = { g with reader := f.reader } := by
  unfold readLine? at h
  split at h
  · rename_i g hg
    split at h
    · rename_i hready
      split at h
      · rename_i reader text hnext
        obtain ⟨rfl, rfl⟩ := Prod.mk.inj (Option.some.inj h)
        exact ⟨g, hg, hready.1, hready.2, hnext, rfl⟩
      · simp at h
    · simp at h
  · simp at h

lemma advance_of_readLine? {f : Follower} {line : String} (h : l.readLine? d = some (f, line))
    (now : ℕ) : l.advance d now =
      { l.setFollower f with
        ledger := (l.ledger.dispatch now line ⟨f.generation, f.reader.consumed⟩).1 } := by
  obtain ⟨g, hg, hphase, hshutdown, hnext, hf⟩ := readLine?_eq_some h
  have hgeneration : f.generation = g.generation := by rw [hf]
  simp only [advance, hg, hphase, hshutdown, hnext, setFollower, hgeneration, Bool.false_eq_true,
    if_false]
  rw [← hphase, ← hf]

lemma ledger_advance (h : l.readLine? d = none) (now : ℕ) :
    (l.advance d now).ledger = l.ledger.run (l.advanceOps now) := by
  unfold advance advanceOps
  cases hf : l.follower with
  | none => rfl
  | some f =>
    cases hphase : f.phase with
    | reading =>
      cases hshutdown : l.stream.shutdown with
      | true => simp [hphase, hshutdown, endStream]
      | false =>
        simp only [readLine?, hf, hphase, hshutdown, and_self, if_true] at h
        -- a line would have been read
        rcases hnext : f.reader.next d with e | ⟨reader, line⟩
        · simp [hphase, hnext, setFollower]
        · cases line with
          | none => simp [hphase, hnext, setFollower]
          | some line => simp [hnext] at h
    | waiting left last =>
      cases left with
      | zero => simp [hphase, endStream]
      | succ left => simp [hphase, setFollower, sweep, Ledger.apply]
    | resting => simp [hphase, setFollower, sweep, Ledger.apply]
    | ending cause => simp [hphase, Ledger.apply]
    | asking => simp [hphase]
    | reopening left last => simp [hphase]
    | done => simp [hphase]

@[simp] lemma ledger_answer (d : Disk) (r : Report) (l : Listener) :
    (l.answer d r).ledger = l.ledger := by
  unfold answer
  split
  · rfl
  · split
    · rfl
    · rfl
    · split <;> rfl
    · rfl
    · split <;> rfl
    · rfl

end Listener

namespace World

lemma exists_run_eq_advance (d : Disk) (now : ℕ) (l : Listener) :
    ∃ n, (begin d l).run (List.replicate n (.follow now)) = begin d (l.advance d now) := by
  cases hread : l.readLine? d with
  | none =>
    refine ⟨1, ?_⟩
    simp only [List.replicate_one, run_cons, run_nil, apply, follow, begin, hread]
  | some x =>
    obtain ⟨f, line⟩ := x
    refine ⟨2, ?_⟩
    rw [Listener.advance_of_readLine? hread]
    simp only [List.replicate_succ, List.replicate_zero, run_cons, run_nil, apply, follow, begin,
      hread, setLedger]
    rfl

/-- **What the listener does by itself is a run of the follower's moves,** with nobody else in
between. -/
theorem exists_run_eq_advanceBy (d : Disk) (now steps : ℕ) (l : Listener) :
    ∃ n, (begin d l).run (List.replicate n (.follow now)) =
      begin d (l.advanceBy d now steps) := by
  induction steps generalizing l with
  | zero => exact ⟨0, rfl⟩
  | succ steps ih =>
    unfold Listener.advanceBy
    split
    · obtain ⟨n, hn⟩ := exists_run_eq_advance d now l
      obtain ⟨k, hk⟩ := ih (l.advance d now)
      refine ⟨n + k, ?_⟩
      rw [List.replicate_add, run_append, hn, hk]
    · exact ⟨0, rfl⟩

lemma ledger_apply (w : World) (m : Move) :
    (w.apply m).listener.ledger = w.listener.ledger.run (w.opsOf m) := by
  cases m with
  | files next => rfl
  | answer r => exact Listener.ledger_answer w.disk r w.listener
  | listen now e timeout => rfl
  | drop id => rfl
  | collect id => rfl
  | requestStop => rfl
  | sweep now =>
    simp only [apply, opsOf]
    split <;> rfl
  | finishStop =>
    simp only [apply, opsOf]
    split <;> rfl
  | follow now =>
    simp only [apply, opsOf, follow, followOps]
    cases hhand : w.hand with
    | some x => rfl
    | none =>
      cases hread : w.listener.readLine? w.disk with
      | some x => rfl
      | none => exact Listener.ledger_advance hread now

/-- **The ledger after a run is the ledger after its operations.** -/
theorem ledger_run (w : World) (moves : List Move) :
    (w.run moves).listener.ledger = w.listener.ledger.run (w.ops moves) := by
  induction moves generalizing w with
  | nil => rfl
  | cons m moves ih => rw [run_cons, ih, ledger_apply, ops, Ledger.run_append]

lemma sound_run {w : World} (h : w.listener.ledger.Sound) (moves : List Move) :
    (w.run moves).listener.ledger.Sound := by
  rw [ledger_run]
  exact h.run _

/-! ### What becomes of a request -/

def outcome? (w : World) (id : ℕ) : Option Outcome := w.listener.ledger.outcome? id

/-- The lines that a run dispatches, with their ends, in order. -/
def dispatched (w : World) (moves : List Move) : List (String × Position) :=
  (w.ops moves).filterMap Ledger.Op.line?

/-- The lines that a run shows to the request numbered `id`, in order. -/
def shownTo (w : World) (id : ℕ) (moves : List Move) : List String :=
  w.listener.ledger.shownTo id (w.ops moves)

lemma dispatched_append (w : World) (moves more : List Move) :
    w.dispatched (moves ++ more) = w.dispatched moves ++ (w.run moves).dispatched more := by
  simp only [dispatched, ops_append, List.filterMap_append]

/-- While a request is pending it is shown the lines `meant` for it, in order and each once; the
lines it was shown explain its outcome; once it has one it is shown nothing more. -/
structure Serves (w : World) (id : ℕ) (e : Event) (moves : List Move) (meant : List String) :
    Prop where
  inOrder : w.shownTo id moves <+: meant
  all : (w.run moves).outcome? id = none → w.shownTo id moves = meant
  explained : e.Explains (w.shownTo id moves) ((w.run moves).outcome? id)
  finished : ∀ now later, moves = now ++ later → (w.run now).outcome? id ≠ none →
    w.shownTo id moves = w.shownTo id now

lemma drop_notMem_ops {w : World} {id : ℕ} {moves : List Move} (h : .drop id ∉ moves) :
    .drop id ∉ w.ops moves := by
  induction moves generalizing w with
  | nil => simp [ops]
  | cons m moves ih =>
    simp only [List.mem_cons, not_or] at h
    rw [ops, List.mem_append, not_or]
    refine ⟨?_, ih h.2⟩
    cases m with
    | drop other => simpa [opsOf] using h.1
    | files next => simp [opsOf]
    | answer r => simp [opsOf]
    | listen now e timeout => simp [opsOf]
    | collect other => simp [opsOf]
    | requestStop => simp [opsOf]
    | sweep now =>
      simp only [opsOf]
      split <;> simp
    | finishStop =>
      simp only [opsOf]
      split <;> simp
    | follow now =>
      simp only [opsOf, followOps]
      split
      · simp
      · simp
      · unfold Listener.advanceOps
        split
        · simp
        · split <;> simp

/-- What a run is to a request that is pending already. -/
def happenings (w : World) (moves : List Move) : List Happening :=
  (w.ops moves).filterMap Ledger.Op.happening?

lemma happenings_append (w : World) (moves more : List Move) :
    w.happenings (moves ++ more) = w.happenings moves ++ (w.run moves).happenings more := by
  simp only [happenings, ops_append, List.filterMap_append]

/-- The number that the next request gets. -/
def nextId (w : World) : ℕ := w.listener.ledger.tickets.length

def enter (w : World) (now : ℕ) (e : Event) (timeout : Duration) : World :=
  w.apply (.listen now e timeout)

/-- The lone request that stands for the one entered. -/
def lone (w : World) (now : ℕ) (e : Event) (timeout : Duration) : Lone :=
  .begin e (timeout.after now) (w.listener.writePosition w.disk)

/-- Among dispatched lines those that end past what was written when the listener looked. -/
def unwritten (w : World) (lines : List (String × Position)) : List String :=
  (lines.filter fun x => !(w.listener.writePosition w.disk).any (x.2 ≤ ·)).map Prod.fst

variable {w : World} {now : ℕ} {e : Event} {timeout : Duration} {moves : List Move}

lemma outcome?_enter (hsound : w.listener.ledger.Sound) (hopen : w.listener.ledger.closed = false)
    (hkept : .drop w.nextId ∉ moves) :
    ((w.enter now e timeout).run moves).outcome? w.nextId =
      ((w.lone now e timeout).run ((w.enter now e timeout).happenings moves)).outcome := by
  have hmirrors := Ledger.mirrors_register hopen e (timeout.after now)
    (w.listener.writePosition w.disk)
  rw [outcome?, ledger_run]
  exact (hmirrors.run (hsound.register _ _ _) (drop_notMem_ops hkept)).outcome_eq

lemma shownTo_enter (hsound : w.listener.ledger.Sound) (hopen : w.listener.ledger.closed = false)
    (hkept : .drop w.nextId ∉ moves) :
    (w.enter now e timeout).shownTo w.nextId moves =
      (w.lone now e timeout).shown ((w.enter now e timeout).happenings moves) := by
  have hmirrors := Ledger.mirrors_register hopen e (timeout.after now)
    (w.listener.writePosition w.disk)
  exact hmirrors.shownTo_eq (hsound.register _ _ _) (drop_notMem_ops hkept)

lemma meant_enter (w : World) (now : ℕ) (e : Event) (timeout : Duration) (moves : List Move) :
    (w.lone now e timeout).meant ((w.enter now e timeout).happenings moves) =
      w.unwritten ((w.enter now e timeout).dispatched moves) := by
  rw [Lone.meant, happenings, ← Ledger.filterMap_line?]
  rfl

/-- **A request is served the lines that were not written when it was entered.** -/
theorem serves_unwritten (hsound : w.listener.ledger.Sound)
    (hopen : w.listener.ledger.closed = false) (now : ℕ) (e : Event) (timeout : Duration)
    (hkept : .drop w.nextId ∉ moves) :
    (w.enter now e timeout).Serves w.nextId e moves
      (w.unwritten ((w.enter now e timeout).dispatched moves)) := by
  have hwatched := (Lone.watched_begin e (timeout.after now)
    (w.listener.writePosition w.disk)).run ((w.enter now e timeout).happenings moves)
  rw [List.nil_append] at hwatched
  refine ⟨?_, fun hnone => ?_, ?_, fun first later hmoves hended => ?_⟩
  · rw [shownTo_enter hsound hopen hkept, ← meant_enter]
    exact Lone.shown_isPrefix _ _
  · rw [outcome?_enter hsound hopen hkept] at hnone
    rw [shownTo_enter hsound hopen hkept, ← meant_enter]
    exact Lone.shown_eq_meant hnone
  · rw [outcome?_enter hsound hopen hkept, shownTo_enter hsound hopen hkept]
    exact hwatched.explained
  -- once it has ended it is shown nothing more, so `later` makes no difference
  · have hfirst : .drop w.nextId ∉ first := by
      rw [hmoves, List.mem_append, not_or] at hkept
      exact hkept.1
    rw [outcome?_enter hsound hopen hfirst] at hended
    obtain ⟨o, ho⟩ := Option.ne_none_iff_exists'.mp hended
    rw [shownTo_enter hsound hopen hkept, shownTo_enter hsound hopen hfirst, hmoves,
      happenings_append, Lone.shown_append, Lone.shown_of_outcome ho, List.append_nil]

/-- Unless its deadline comes or the ledger is closed, these lines settle how it ends. -/
lemma outcome?_eq_verdict (hsound : w.listener.ledger.Sound)
    (hopen : w.listener.ledger.closed = false) (hkept : .drop w.nextId ∉ moves)
    (hspared : ∀ x ∈ (w.enter now e timeout).happenings moves,
      ∃ c, x.clock? = some c ∧ ∀ deadline ∈ timeout.after now, c < deadline) :
    ((w.enter now e timeout).run moves).outcome? w.nextId =
      e.verdict (w.unwritten ((w.enter now e timeout).dispatched moves)) := by
  rw [outcome?_enter hsound hopen hkept, ← meant_enter]
  refine Lone.outcome_eq_verdict e _ _ fun x hx => ?_
  obtain ⟨c, hclock, hbefore⟩ := hspared x hx
  refine ⟨c, hclock, ?_⟩
  cases hdeadline : timeout.after now with
  | none => rfl
  | some deadline => simpa [Lone.due, Lone.begin] using hbefore deadline hdeadline

end World

end LogWatch
