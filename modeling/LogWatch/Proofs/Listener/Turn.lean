import Mathlib
import LogWatch.Proofs.Listener.World
import LogWatch.Proofs.Request.Closing

/-!
What a move does to a listener that has a follower.

Every move is one of a dozen turns. Most leave the follower where it is; of the others one reads a
line and one dispatches it, one comes to the end of the file, one goes on with another file, one
ends the stream and one closes the ledger, and the rest only change what the follower does next.
What a run preserves is proved turn by turn.
-/

namespace LogWatch

namespace Phase

/-- Whether the follower has yet to come to the end of the stream. -/
def isLive : Phase → Bool
  | reading | asking | resting | waiting _ _ | reopening _ _ => true
  | ending _ | done => false

/-- Whether the follower has read all it could of its file before it looks further. -/
def atEnd : Phase → Bool
  | asking | resting | waiting _ _ | reopening _ _ => true
  | reading | ending _ | done => false

lemma of_not_live {phase : Phase} (h : phase.isLive = false) :
    (∃ cause, phase = .ending cause) ∨ phase = .done := by
  cases phase <;> simp [isLive] at h ⊢

lemma isLive_of_atEnd {phase : Phase} (h : phase.atEnd = true) : phase.isLive = true := by
  cases phase <;> simp [atEnd, isLive] at h ⊢

end Phase

/-- The state in which a stream ends, and the cause that it ends for. -/
inductive StreamState.EndsFor : StreamState → Cause → Prop
  | stopped : EndsFor .stopped .stopped
  | lost (last : Loss) : EndsFor (.failed (.lost last)) (.lost last)
  | died : EndsFor (.failed .died) .died

lemma StreamState.EndsFor.isTerminal {state : StreamState} {cause : Cause}
    (h : state.EndsFor cause) : state.isTerminal = true := by
  cases h <;> rfl

namespace World

/-- The world with the follower in another phase, after these operations on the ledger. -/
def turnTo (w : World) (f : Follower) (phase : Phase) (ops : List Ledger.Op) : World :=
  { w with listener :=
    { w.listener with ledger := w.listener.ledger.run ops, follower := some { f with phase } } }

/-- What a move makes of a world with the follower `f`, and what it does to the ledger. -/
inductive Turn (w : World) (f : Follower) : Move → World → List Ledger.Op → Prop
  | still {m : Move} : Turn w f m w []
  | files (next : Disk) : Turn w f (.files next) { w with disk := next } []
  | calls {m : Move} (op : Ledger.Op) (calm : op.isCalm = true)
      (pause : ∀ now, op = .sweep now → f.phase.isLive = true) :
      Turn w f m (w.setLedger (w.listener.ledger.apply op)) [op]
  | asksToStop : Turn w f .requestStop { w with listener := w.listener.requestStop } []
  | closesAgain (phase : f.phase = .done) :
      Turn w f .finishStop { w with listener := w.listener.closeStopped } [.rejectAll .stopped]
  | sends (now : ℕ) {line : String} {lineEnd : Position} (hand : w.hand = some (line, lineEnd)) :
      Turn w f (.follow now)
        { w.setLedger (w.listener.ledger.dispatch now line lineEnd).1 with hand := none }
        [.dispatch now line lineEnd]
  | reads (now : ℕ) {reader : Reader} {line : String} (hand : w.hand = none)
      (phase : f.phase = .reading) (next : f.reader.next w.disk = .ok (reader, some line)) :
      Turn w f (.follow now)
        { w with
          listener := w.listener.setFollower { f with reader }
          hand := some (line, ⟨f.generation, reader.consumed⟩) } []
  | reachesEnd (now : ℕ) {reader : Reader} (hand : w.hand = none) (phase : f.phase = .reading)
      (next : f.reader.next w.disk = .ok (reader, none)) :
      Turn w f (.follow now)
        { w with listener := w.listener.setFollower { f with reader, phase := .asking } } []
  | turns {m : Move} (phase : Phase) (ops : List Ledger.Op)
      (idle : f.phase = .reading → w.hand = none) (live : f.phase.isLive = true)
      (live' : phase.isLive = true) (other : phase ≠ .asking)
      (atEnd : phase.atEnd = true → f.phase.atEnd = true ∨ ∃ e, f.reader.next w.disk = .error e)
      (calm : ∀ op ∈ ops, op.isCalm = true) : Turn w f m (w.turnTo f phase ops) ops
  | reattaches {path : String} {reader : Reader}
      (phase : ∃ left last, f.phase = .reopening left last)
      (opened : Reader.openAt w.disk path false = .ok reader) :
      Turn w f (.answer (.path (some path)))
        { w with listener :=
          { w.listener with
            stream := { w.listener.stream with
              state := .attached path, generation := f.generation + 1 }
            follower := some { f with
              reader, generation := f.generation + 1, phase := .reading } } } []
  | endsStream {m : Move} {state : StreamState} {cause : Cause}
      (idle : f.phase = .reading → w.hand = none) (live : f.phase.isLive = true)
      (ends : state.EndsFor cause) (stopped : cause = .stopped → w.listener.stream.shutdown = true)
      (died : cause = .died → m = .answer .died) :
      Turn w f m { w with listener := w.listener.endStream f state cause } []
  | closes (now : ℕ) {cause : Cause} (phase : f.phase = .ending cause) :
      Turn w f (.follow now) (w.turnTo f .done [.rejectAll cause]) [.rejectAll cause]

variable {w : World} {f : Follower}

lemma Turn.ofEnd {m : Move} (hend : f.phase.atEnd = true) (phase : Phase) (ops : List Ledger.Op)
    (hlive : phase.isLive = true) (hother : phase ≠ .asking)
    (hcalm : ∀ op ∈ ops, op.isCalm = true) : Turn w f m (w.turnTo f phase ops) ops :=
  .turns phase ops (fun hreading => by simp [hreading, Phase.atEnd] at hend)
    (Phase.isLive_of_atEnd hend) hlive hother (fun _ => .inl hend) hcalm

lemma turn_idle (hf : w.listener.follower = some f) (hhand : w.hand = none)
    (hread : w.listener.readLine? w.disk = none) (now : ℕ) :
    Turn w f (.follow now) { w with listener := w.listener.advance w.disk now }
      (w.listener.advanceOps now) := by
  simp only [Listener.advance, Listener.advanceOps, hf]
  cases hphase : f.phase with
  | reading =>
    have hlive : f.phase.isLive = true := by rw [hphase]; rfl
    cases hshutdown : w.listener.stream.shutdown with
    | true =>
      exact .endsStream (fun _ => hhand) hlive .stopped (fun _ => hshutdown) (fun h => by cases h)
    | false =>
      simp only [Bool.false_eq_true, if_false]
      -- a line would have been read, so the file has ended or the reader has failed
      rcases hnext : f.reader.next w.disk with e | ⟨reader, line⟩
      · exact .turns (.waiting f.budget (.rotated (.unreadable e))) [] (fun _ => hhand) hlive
          rfl (by simp) (fun _ => .inr ⟨e, hnext⟩) (by simp)
      · cases line with
        | none => exact .reachesEnd now hhand hphase hnext
        | some line => simp [Listener.readLine?, hf, hphase, hshutdown, hnext] at hread
  | resting =>
    exact .ofEnd (by rw [hphase]; rfl) .reading [.sweep now] rfl (by simp)
      (by simp [Ledger.Op.isCalm])
  | waiting left last =>
    have hend : f.phase.atEnd = true := by rw [hphase]; rfl
    cases left with
    | zero =>
      exact .endsStream (fun _ => hhand) (Phase.isLive_of_atEnd hend) (.lost last)
        (fun h => by cases h) (fun h => by cases h)
    | succ left =>
      refine .ofEnd hend (if w.listener.stream.shutdown then .reading else .reopening left last)
        [.sweep now] ?_ ?_ (by simp [Ledger.Op.isCalm])
      · split <;> rfl
      · split <;> simp
  | ending cause => exact .closes now hphase
  | asking => exact .still
  | reopening left last => exact .still
  | done => exact .still

lemma turn_answer (hf : w.listener.follower = some f) (r : Report) :
    Turn w f (.answer r) { w with listener := w.listener.answer w.disk r } [] := by
  simp only [Listener.answer, hf]
  cases hphase : f.phase with
  | asking =>
    have hend : f.phase.atEnd = true := by rw [hphase]; rfl
    cases r with
    | died =>
      exact .endsStream (by simp [hphase]) (Phase.isLive_of_atEnd hend) .died (fun h => by cases h)
        (fun _ => rfl)
    | path reported =>
      cases hrotation : f.reader.rotation w.disk reported with
      | none =>
        simp only [hrotation]
        exact .ofEnd hend .resting [] rfl (by simp) (by simp)
      | some rotation =>
        simp only [hrotation]
        exact .ofEnd hend (.waiting f.budget (.rotated rotation)) [] rfl (by simp) (by simp)
  | reopening left last =>
    have hend : f.phase.atEnd = true := by rw [hphase]; rfl
    cases r with
    | died =>
      exact .endsStream (by simp [hphase]) (Phase.isLive_of_atEnd hend) .died (fun h => by cases h)
        (fun _ => rfl)
    | path reported =>
      cases reported with
      | none => exact .ofEnd hend (.waiting left .unreported) [] rfl (by simp) (by simp)
      | some path =>
        cases hopen : Reader.openAt w.disk path false with
        | error e =>
          simp only [hopen]
          exact .ofEnd hend (.waiting left (.unopened path e)) [] rfl (by simp) (by simp)
        | ok reader =>
          simp only [hopen]
          exact .reattaches ⟨left, last, hphase⟩ hopen
  | reading | resting | waiting left last | ending cause | done => exact .still

/-- **What a move does is one of these turns.** -/
theorem turn_apply (hf : w.listener.follower = some f) (m : Move) :
    Turn w f m (w.apply m) (w.opsOf m) := by
  cases m with
  | files next => exact .files next
  | answer r => exact turn_answer hf r
  | listen now e timeout =>
    exact .calls (.register e (timeout.after now) (w.listener.writePosition w.disk)) rfl
      (fun _ h => by cases h)
  | drop id => exact .calls (.drop id) rfl (fun _ h => by cases h)
  | collect id => exact .calls (.collect id) rfl (fun _ h => by cases h)
  | requestStop => exact .asksToStop
  | sweep now =>
    simp only [apply, opsOf]
    split
    · rename_i hpauses
      refine .calls (.sweep now) rfl fun _ _ => ?_
      simp only [Listener.pauses, hf, Option.any_some] at hpauses
      cases hphase : f.phase <;> simp [hphase, Phase.isLive] at hpauses ⊢
    · exact .still
  | finishStop =>
    simp only [apply, opsOf]
    split
    · exact .still
    · rename_i hover
      refine .closesAgain ?_
      simpa [Listener.isFollowing, hf] using hover
  | follow now =>
    simp only [apply, opsOf, follow, followOps]
    cases hhand : w.hand with
    | some x => exact .sends now hhand
    | none =>
      cases hread : w.listener.readLine? w.disk with
      | none =>
        have hturn := turn_idle hf hhand hread now
        rw [hhand] at hturn
        exact hturn
      | some x =>
        obtain ⟨f', line⟩ := x
        obtain ⟨g, hg, hphase, -, hnext, hf'⟩ := Listener.readLine?_eq_some hread
        obtain rfl := Option.some.inj (hg.symm.trans hf)
        have hturn := Turn.reads now hhand hphase hnext
        rw [hf']
        exact hturn

end World

end LogWatch
