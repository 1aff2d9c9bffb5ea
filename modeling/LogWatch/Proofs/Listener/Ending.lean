import Mathlib
import LogWatch.Proofs.Listener.AppendOnly
import LogWatch.Proofs.Listener.Standing
import LogWatch.Proofs.Listener.Stopping

/-!
The end of a stream.

A listener that was attached stays attached, to one file after the other, until its stream ends for
some cause; the end is final. The state is set first and the ledger is closed afterwards, and what
is pending by then, however late it came, is rejected for that one cause. After that every request
is refused and a stop is nothing. A listener that was never attached refuses everything.
-/

namespace LogWatch

lemma Cause.message_lost (last : Loss) :
    (lost last).message = "Log file not found!" ++ (" (" ++ last.message ++ ")") := by
  rw [← String.append_assoc, ← String.append_assoc]
  rfl

namespace StreamState

variable {state : StreamState} {cause cause' : Cause}

lemma EndsFor.unique (h : state.EndsFor cause) (h' : state.EndsFor cause') : cause' = cause := by
  cases h <;> cases h' <;> rfl

lemma EndsFor.message_eq (h : state.EndsFor cause) (hstopped : cause ≠ .stopped)
    (hdied : cause ≠ .died) : ∃ rest, cause.message = "Log file not found!" ++ rest := by
  cases h with
  | stopped => exact absurd rfl hstopped
  | died => exact absurd rfl hdied
  | lost last => exact ⟨_, Cause.message_lost last⟩

end StreamState

/-- The moves of those who stop a listener. -/
def Move.isStop : Move → Bool
  | requestStop | finishStop => true
  | _ => false

namespace World

variable {w w' : World} {f : Follower} {m : Move} {ops : List Ledger.Op} {cause : Cause}

/-- Whether the follower has come to its end. -/
def isOver (w : World) : Bool := !w.listener.isFollowing

/-- What the caller of a request is handed. -/
def reply (w : World) (now : ℕ) (e : Event) (timeout : Duration) : Option Ticket :=
  let (l, id) := w.listener.listen w.disk now e timeout
  l.ledger.handed id

/-- Every request is settled at once, without a number, and changes nothing but a count. -/
def Refuses (w : World) : Prop :=
  ∀ now e timeout, (∃ t, w.reply now e timeout = some t ∧ t.request = none ∧
      t.value? = some (.rejected .notListening)) ∧
    (w.enter now e timeout).ledger =
      { w.ledger with tally.rejected := w.ledger.tally.rejected + 1 }

lemma refuses_of_closed (h : w.ledger.closed = true) : w.Refuses := by
  intro now e timeout
  obtain ⟨hnone, hledger⟩ := Ledger.handed_of_closed h e (timeout.after now)
    (w.listener.writePosition w.disk)
  refine ⟨⟨.refused, ?_, rfl, rfl⟩, hledger⟩
  change Ledger.handed _ (w.ledger.register e (timeout.after now)
    (w.listener.writePosition w.disk)).2 = _
  rw [hnone]
  rfl

/-! ### The end is final -/

lemma Follows.isOver_iff (h : Follows w f) : w.isOver = true ↔ f.phase = .done := by
  simp [isOver, Listener.isFollowing, h.follower]

lemma Follows.closed_iff (h : Follows w f) : w.ledger.closed = true ↔ f.phase = .done := by
  cases h.stands with
  | live hphase _ hopen =>
    simp only [hopen, Bool.false_eq_true, false_iff]
    intro hdone
    simp [hdone, Phase.isLive] at hphase
  | ending hphase _ hopen => simp [hphase, hopen]
  | done hphase _ hclosed => simp [hphase, hclosed]

lemma state_turn (hdead : f.phase.isLive = false)
    (hturn : Turn w f m w' ops) : w'.state = w.state := by
  cases hturn with
  | still | files next | calls op | asksToStop | closesAgain | sends | closes => rfl
  | reads _ _ hreading | reachesEnd _ _ hreading => simp [hreading, Phase.isLive] at hdead
  | turns _ _ _ hlive | endsStream _ hlive => simp [hlive] at hdead
  | reattaches hphase =>
    obtain ⟨left, last, hphase⟩ := hphase
    simp [hphase, Phase.isLive] at hdead

lemma Follows.state_run (h : Follows w f) (hterminal : w.state.isTerminal = true)
    (moves : List Move) : (w.run moves).state = w.state := by
  induction moves generalizing w f with
  | nil => rfl
  | cons m moves ih =>
    obtain ⟨f', h'⟩ := h.apply m
    have hstate := state_turn (h.isTerminal_iff.mp hterminal) (turn_apply h.follower m)
    rw [run_cons, ih h' (by rwa [hstate]), hstate]

/-! ### What the stream ended for -/

def stopAsked (w : World) : Bool := w.listener.stream.shutdown

lemma stopAsked_turn (hturn : Turn w f m w' ops) (h : w'.stopAsked = true) :
    w.stopAsked = true ∨ m = .requestStop := by
  cases hturn with
  | asksToStop => exact .inr rfl
  | still | files | calls | closesAgain | sends | reads | reachesEnd | turns | reattaches |
    endsStream | closes => exact .inl h

lemma Follows.cause_turn (h : Follows w f) (hlive : f.phase.isLive = true)
    (hturn : Turn w f m w' ops) (hends : w'.state.EndsFor cause) :
    (cause = .stopped → w.stopAsked = true) ∧ (cause = .died → m = .answer .died) := by
  obtain ⟨hattached, -⟩ := h.stands.of_live hlive
  have hnot : ¬ w.state.EndsFor cause := by
    rw [hattached]
    intro hends
    cases hends
  cases hturn with
  | still | files | calls | asksToStop | closesAgain | sends | turns | reads | reachesEnd |
    closes => exact absurd hends hnot
  | reattaches => cases hends
  | endsStream _ _ hends' hstopped hdied =>
    obtain rfl := hends'.unique hends
    exact ⟨hstopped, hdied⟩

lemma Follows.cause_run (h : Follows w f) (hlive : f.phase.isLive = true) (moves : List Move)
    (hends : (w.run moves).state.EndsFor cause) :
    (cause = .stopped → w.stopAsked = true ∨ .requestStop ∈ moves) ∧
      (cause = .died → .answer .died ∈ moves) := by
  induction moves generalizing w f with
  | nil =>
    rw [run_nil, (h.stands.of_live hlive).1] at hends
    cases hends
  | cons m moves ih =>
    have hturn := turn_apply h.follower m
    obtain ⟨f', h'⟩ := h.apply m
    cases hlive' : f'.phase.isLive with
    | true =>
      obtain ⟨hstopped, hdied⟩ := ih h' hlive' hends
      refine ⟨fun hcause => ?_, fun hcause => List.mem_cons_of_mem _ (hdied hcause)⟩
      rcases hstopped hcause with hasked | hmem
      · rcases stopAsked_turn hturn hasked with hasked | rfl
        · exact .inl hasked
        · exact .inr List.mem_cons_self
      · exact .inr (List.mem_cons_of_mem _ hmem)
    | false =>
      -- the stream has ended with this move, and what follows does not touch the state
      rw [run_cons, h'.state_run (h'.isTerminal_iff.mpr hlive')] at hends
      obtain ⟨hstopped, hdied⟩ := h.cause_turn hlive hturn hends
      refine ⟨fun hcause => .inl (hstopped hcause), fun hcause => ?_⟩
      rw [hdied hcause]
      exact List.mem_cons_self

/-! ### What was pending is rejected for it -/

/-- A request that is pending when the follower is about to close the ledger, or has the outcome
that this brings. -/
inductive Doomed (w : World) (f : Follower) (cause : Cause) (id : ℕ) : Prop
  | pending (phase : f.phase = .ending cause) (mem : ∃ r ∈ w.ledger.pending, r.id = id)
  | told (phase : f.phase = .done) (tells : w.ledger.Tells id (.rejected cause))

lemma mem_pending_of_calm {l : Ledger} {r : Request} (hopen : l.closed = false)
    (hr : r ∈ l.pending) {op : Ledger.Op} (hcalm : op.isCalm = true)
    (hpause : ∀ now, op ≠ .sweep now) : r ∈ (l.apply op).pending := by
  cases op with
  | register e deadline start =>
    rw [Ledger.apply, Ledger.register_of_open hopen]
    exact List.mem_append_left _ hr
  | drop id | collect id => exact hr
  | sweep now => exact absurd rfl (hpause now)
  | dispatch now line lineEnd | rejectAll cause => simp [Ledger.Op.isCalm] at hcalm

lemma Doomed.turn {id : ℕ} (h : Follows w f) (hsound : w.ledger.Sound) (hd : Doomed w f cause id)
    (hturn : Turn w f m w' ops) : ∃ f', w'.listener.follower = some f' ∧ Doomed w' f' cause id := by
  have hdead : f.phase.isLive = false := by
    cases hd with
    | pending hphase | told hphase => rw [hphase]; rfl
  cases hturn with
  | still | files | asksToStop =>
    refine ⟨f, h.follower, ?_⟩
    cases hd with
    | pending hphase hmem => exact .pending hphase hmem
    | told hphase htells => exact .told hphase htells
  | calls op hcalm hpause =>
    refine ⟨f, h.follower, ?_⟩
    cases hd with
    | pending hphase hmem =>
      -- the closing is still to come, and until then nothing settles the request
      obtain ⟨r, hr, hid⟩ := hmem
      refine .pending hphase ⟨r, ?_, hid⟩
      refine mem_pending_of_calm (h.stands.of_ending hphase).2 hr hcalm fun now hop => ?_
      simp [hpause now hop] at hdead
    | told hphase htells =>
      obtain ⟨-, hclosed, hempty⟩ := h.stands.of_done hphase
      exact .told hphase (htells.apply hclosed hempty hcalm)
  | closesAgain hdone =>
    refine ⟨f, h.follower, ?_⟩
    cases hd with
    | pending hphase => simp [hphase] at hdone
    | told hphase htells =>
      obtain ⟨-, hclosed, hempty⟩ := h.stands.of_done hphase
      refine .told hphase ?_
      change Ledger.Tells (w.ledger.rejectAll .stopped).1 _ _
      rwa [Ledger.rejectAll_of_closed hclosed hempty]
  | closes now hending =>
    cases hd with
    | pending hphase hmem =>
      obtain ⟨r, hr, rfl⟩ := hmem
      obtain rfl := Phase.ending.inj (hending.symm.trans hphase)
      exact ⟨_, rfl, .told rfl (Ledger.tells_rejectAll hsound hr _)⟩
    | told hphase => simp [hphase] at hending
  -- a follower whose stream has ended does none of these
  | sends now hhand => simp [h.phase_of_hand hhand, Phase.isLive] at hdead
  | reads _ _ hreading | reachesEnd _ _ hreading => simp [hreading, Phase.isLive] at hdead
  | turns _ _ _ hlive | endsStream _ hlive => simp [hlive] at hdead
  | reattaches hphase =>
    obtain ⟨left, last, hphase⟩ := hphase
    simp [hphase, Phase.isLive] at hdead

lemma Doomed.run {id : ℕ} (h : Follows w f) (hsound : w.ledger.Sound) (hd : Doomed w f cause id)
    (moves : List Move) :
    ∃ f', Follows (w.run moves) f' ∧ Doomed (w.run moves) f' cause id := by
  induction moves generalizing w f with
  | nil => exact ⟨f, h, hd⟩
  | cons m moves ih =>
    obtain ⟨f', h'⟩ := h.apply m
    obtain ⟨f'', hf'', hd'⟩ := hd.turn h hsound (turn_apply h.follower m)
    obtain rfl := Option.some.inj (h'.follower.symm.trans hf'')
    exact ih h' (sound_run hsound [m]) hd'

/-- Whoever still waits when the stream has ended is told what it ended for. -/
lemma Follows.told (h : Follows w f) (hsound : w.ledger.Sound)
    (hterminal : w.state.isTerminal = true) {r : Request} (hr : r ∈ w.ledger.pending)
    {moves : List Move} (hover : (w.run moves).isOver = true)
    (hheld : (w.run moves).ledger.isHeld r.id = true) :
    ∃ cause, w.state.EndsFor cause ∧ (w.run moves).outcome? r.id = some (.rejected cause) := by
  cases h.stands with
  | live hphase hstate => simp [hstate, StreamState.isTerminal] at hterminal
  | done hphase _ _ hempty => simp [hempty] at hr
  | ending hphase hends =>
    obtain ⟨f', h', hd⟩ := Doomed.run h hsound (.pending hphase ⟨r, hr, rfl⟩) moves
    cases hd with
    | pending hphase' => simp [h'.isOver_iff.mp hover] at hphase'
    | told _ htells => exact ⟨_, hends, htells.outcome?_eq hheld⟩

/-! ### After the end -/

/-- There is no follower, or it has come upon the end of its stream. -/
structure Ended (w : World) : Prop where
  dead : ∀ f ∈ w.listener.follower, f.phase.isLive = false
  hand : w.hand = none
  shut : w.isOver = true → w.ledger.closed = true ∧ w.ledger.pending = []

lemma Follows.ended (h : Follows w f) (hdead : f.phase.isLive = false) : w.Ended := by
  refine ⟨fun g hg => ?_, h.idle ?_, fun hover => (h.stands.of_done (h.isOver_iff.mp hover)).2⟩
  · obtain rfl := Option.some.inj (h.follower.symm.trans hg)
    exact hdead
  · intro hreading
    simp [hreading, Phase.isLive] at hdead

/-- The same world, but for whether a stop was asked for. -/
def setStop (w : World) (shutdown : Bool) : World :=
  { w with listener := { w.listener with stream := { w.listener.stream with shutdown } } }

namespace Ended

lemma setStop (h : w.Ended) (b : Bool) : (w.setStop b).Ended := ⟨h.dead, h.hand, h.shut⟩

lemma setLedger (h : w.Ended) (op : Ledger.Op) (hcalm : op.isCalm = true) :
    (w.setLedger (w.ledger.apply op)).Ended := by
  refine ⟨h.dead, h.hand, fun hover => ?_⟩
  obtain ⟨hclosed, hempty⟩ := h.shut hover
  exact ⟨(Ledger.closed_of_calm hcalm _).trans hclosed,
    Ledger.pending_of_closed hclosed hempty hcalm⟩

lemma sweep_eq (h : w.Ended) (now : ℕ) : w.apply (.sweep now) = w := by
  have hpauses : w.listener.pauses = false := by
    unfold Listener.pauses
    cases hf : w.listener.follower with
    | none => rfl
    | some f =>
      rcases Phase.of_not_live (h.dead f hf) with ⟨cause, hphase⟩ | hphase <;> simp [hphase]
  rw [World.apply, if_neg (by simp [hpauses])]

lemma answer_eq (h : w.Ended) (r : Report) : w.apply (.answer r) = w := by
  have hsame : w.listener.answer w.disk r = w.listener := by
    unfold Listener.answer
    cases hf : w.listener.follower with
    | none => rfl
    | some f =>
      rcases Phase.of_not_live (h.dead f hf) with ⟨cause, hphase⟩ | hphase
      · cases r <;> simp only [hphase]
      · cases r <;> simp only [hphase]
  rw [World.apply, hsame]

lemma follow_eq (h : w.Ended) (now : ℕ) :
    (∃ f cause, w.listener.follower = some f ∧ f.phase = .ending cause ∧
      w.apply (.follow now) = w.turnTo f .done [.rejectAll cause]) ∨
    (w.isOver = true ∧ w.apply (.follow now) = w) := by
  have hread : w.listener.readLine? w.disk = none := by
    unfold Listener.readLine?
    cases hf : w.listener.follower with
    | none => rfl
    | some f =>
      rcases Phase.of_not_live (h.dead f hf) with ⟨cause, hphase⟩ | hphase <;> simp [hphase]
  have hfollow : w.apply (.follow now) = { w with listener := w.listener.advance w.disk now } := by
    simp only [World.apply, World.follow, h.hand, hread]
  rw [hfollow]
  cases hf : w.listener.follower with
  | none => exact .inr ⟨by simp [isOver, Listener.isFollowing, hf], by simp [Listener.advance, hf]⟩
  | some f =>
    rcases Phase.of_not_live (h.dead f hf) with ⟨cause, hphase⟩ | hphase
    · refine .inl ⟨f, cause, rfl, hphase, ?_⟩
      simp only [Listener.advance, hf, hphase]
      rfl
    · refine .inr ⟨by simp [isOver, Listener.isFollowing, hf, hphase], ?_⟩
      simp only [Listener.advance, hf, hphase]

lemma stop_eq (h : w.Ended) (hstop : m.isStop = true) : ∃ b, w.apply m = w.setStop b := by
  cases m with
  | requestStop => exact ⟨true, rfl⟩
  | finishStop =>
    refine ⟨w.stopAsked, ?_⟩
    simp only [World.apply]
    split
    · rfl
    · rename_i hidle
      obtain ⟨hclosed, hempty⟩ := h.shut (by simpa [isOver] using hidle)
      change w.setLedger (w.ledger.rejectAll .stopped).1 = w
      rw [Ledger.rejectAll_of_closed hclosed hempty]
      rfl
  | files | follow | sweep | answer | listen | drop | collect => simp [Move.isStop] at hstop

lemma apply (h : w.Ended) (m : Move) : (w.apply m).Ended := by
  cases m with
  | files next => exact ⟨h.dead, h.hand, h.shut⟩
  | listen now e timeout => exact h.setLedger (.register e _ _) rfl
  | drop id => exact h.setLedger (.drop id) rfl
  | collect id => exact h.setLedger (.collect id) rfl
  | answer r => rwa [h.answer_eq r]
  | sweep now => rwa [h.sweep_eq now]
  | requestStop => exact h.setStop true
  | finishStop =>
    obtain ⟨b, hb⟩ := h.stop_eq (m := .finishStop) rfl
    rw [hb]
    exact h.setStop b
  | follow now =>
    rcases h.follow_eq now with ⟨f, cause, -, -, hnext⟩ | ⟨-, hnext⟩
    · rw [hnext]
      refine ⟨fun g hg => ?_, h.hand, fun _ => ⟨rfl, rfl⟩⟩
      obtain rfl := Option.some.inj hg
      rfl
    · rwa [hnext]

/-- Nothing else depends on whether a stop was asked for. -/
lemma apply_setStop (h : w.Ended) (hstop : m.isStop = false) (b : Bool) :
    (w.setStop b).apply m = (w.apply m).setStop b := by
  cases m with
  | files | listen | drop | collect => rfl
  | requestStop | finishStop => simp [Move.isStop] at hstop
  | sweep now => rw [(h.setStop b).sweep_eq now, h.sweep_eq now]
  | answer r => rw [(h.setStop b).answer_eq r, h.answer_eq r]
  | follow now =>
    -- all that is left to do is the closing, with or without the flag
    rcases h.follow_eq now with ⟨f, cause, hf, hphase, hnext⟩ | ⟨hover, hnext⟩
    · rcases (h.setStop b).follow_eq now with ⟨f', cause', hf', hphase', hnext'⟩ | ⟨hover', -⟩
      · obtain rfl := Option.some.inj (hf.symm.trans hf')
        obtain rfl := Phase.ending.inj (hphase.symm.trans hphase')
        rw [hnext, hnext']
        rfl
      · change w.isOver = true at hover'
        simp [isOver, Listener.isFollowing, hf, hphase] at hover'
    · rcases (h.setStop b).follow_eq now with ⟨f', cause', hf', hphase', -⟩ | ⟨-, hnext'⟩
      · change w.listener.follower = some f' at hf'
        simp [isOver, Listener.isFollowing, hf', hphase'] at hover
      · rw [hnext, hnext']

lemma run_setStop (h : w.Ended) (moves : List Move) (b : Bool) :
    ∃ b', (w.setStop b).run moves = (w.run (moves.filter (!·.isStop))).setStop b' := by
  induction moves generalizing w b with
  | nil => exact ⟨b, rfl⟩
  | cons m moves ih =>
    cases hstop : m.isStop with
    | false =>
      rw [List.filter_cons_of_pos (by simp [hstop]), run_cons, run_cons, h.apply_setStop hstop]
      exact ih (h.apply m) b
    | true =>
      obtain ⟨b', hb'⟩ := (h.setStop b).stop_eq hstop
      rw [List.filter_cons_of_neg (by simp [hstop]), run_cons, hb']
      exact ih h b'

lemma run_stops (h : w.Ended) (moves : List Move) :
    (w.run moves).state = (w.run (moves.filter (!·.isStop))).state ∧
      (w.run moves).ledger = (w.run (moves.filter (!·.isStop))).ledger := by
  obtain ⟨b, hb⟩ := h.run_setStop moves w.stopAsked
  change w.run moves = _ at hb
  rw [hb]
  exact ⟨rfl, rfl⟩

end Ended

/-- What is so of the end of a stream, seen in a world `v` to which the moves `before` led and
from which those `after` go on. -/
structure EndsOnce (before : List Move) (v : World) (after : List Move) : Prop where
  attached : v.state.isTerminal = false → v.state.isAttached = true
  final : v.state.isTerminal = true → (v.run after).state = v.state
  /-- The cause is a stop that was asked for, a failure of the node, or the loss of the log. -/
  cause : v.state.isTerminal = true → ∃ cause, v.state.EndsFor cause ∧
    (cause = .stopped → .requestStop ∈ before) ∧ (cause = .died → .answer .died ∈ before) ∧
    (cause ≠ .stopped → cause ≠ .died → ∃ rest, cause.message = "Log file not found!" ++ rest)
  /-- Once the state is terminal the next step of the follower closes the ledger. -/
  closes : v.state.isTerminal = true → ∀ now, (v.apply (.follow now)).isOver = true
  closed : v.ledger.closed = true ↔ v.isOver = true
  finished : v.isOver = true → v.state.isTerminal = true ∧ v.ledger.pending = []
  /-- Whoever waits by then, or comes before the ledger is closed, is told the one cause. -/
  told : v.state.isTerminal = true → ∀ r ∈ v.ledger.pending, (v.run after).isOver = true →
    (v.run after).ledger.isHeld r.id = true →
    ∃ cause, v.state.EndsFor cause ∧ (v.run after).outcome? r.id = some (.rejected cause)
  answered : v.isOver = true → ∀ id, v.ledger.isHeld id = true → (v.outcome? id).isSome = true
  refuses : v.isOver = true → v.Refuses
  /-- To stop it again, or after it failed, is nothing, whenever that happens. -/
  stops : v.state.isTerminal = true →
    (v.run after).state = (v.run (after.filter (!·.isStop))).state ∧
    (v.run after).ledger = (v.run (after.filter (!·.isStop))).ledger
  stop : v.isOver = true → ∀ now r, v.listener.stop v.disk now r = v.listener
  /-- To stop it leaves nothing to be followed and nothing pending. -/
  halts : ∀ now r, (v.listener.stop v.disk now r).isFollowing = false ∧
    (v.listener.stop v.disk now r).ledger.closed = true ∧
    (v.listener.stop v.disk now r).ledger.pending = []

/-- What is so of a listener that was never attached. -/
structure NeverAttached (v : World) (after : List Move) : Prop where
  state : (v.run after).state = .unattached
  closed : (v.run after).ledger.closed = true
  empty : (v.run after).ledger.pending = []
  refuses : (v.run after).Refuses
  stops : (v.run after).ledger = (v.run (after.filter (!·.isStop))).ledger
  stop : ∀ now r, (v.run after).listener.stop (v.run after).disk now r = (v.run after).listener

lemma Follows.endsOnce (h : Follows w f) (hlive : f.phase.isLive = true)
    (hsound : w.ledger.Sound) (hanswers : w.ledger.Answers) (hasked : w.stopAsked = false)
    (before after : List Move) : EndsOnce before (w.run before) after := by
  obtain ⟨g, hg⟩ := h.run before
  have hsound' : (w.run before).ledger.Sound := sound_run hsound before
  have hanswers' : (w.run before).ledger.Answers := by
    rw [World.ledger, ledger_run]
    exact hanswers.run hsound _
  have hfinished : (w.run before).isOver = true →
      (w.run before).state.isTerminal = true ∧ (w.run before).ledger.pending = [] := by
    intro hover
    obtain ⟨⟨cause, hends⟩, -, hempty⟩ := hg.stands.of_done (hg.isOver_iff.mp hover)
    exact ⟨hends.isTerminal, hempty⟩
  have hstop : (w.run before).isOver = true → ∀ now r,
      (w.run before).listener.stop (w.run before).disk now r = (w.run before).listener := by
    intro hover now r
    rw [Listener.stop, if_neg]
    simpa [isOver] using hover
  refine ⟨fun hopen => ?_, fun hterminal => hg.state_run hterminal after, fun hterminal => ?_,
    fun hterminal now => ?_, hg.closed_iff.trans hg.isOver_iff.symm, hfinished,
    fun hterminal r hr => hg.told hsound' hterminal hr, fun hover id => ?_, fun hover => ?_,
    fun hterminal => ?_, hstop, fun now r => ⟨Listener.isFollowing_stop _ now r _, ?_⟩⟩
  · have hlive : g.phase.isLive = true := by
      by_contra hdead
      simp [hg.isTerminal_iff.mpr (by simpa using hdead)] at hopen
    rw [(hg.stands.of_live hlive).1]
    rfl
  -- the state holds the cause, and the run tells where it came from
  · obtain ⟨cause, hends⟩ : ∃ cause, (w.run before).state.EndsFor cause := by
      cases hg.stands with
      | live _ hstate => simp [hstate, StreamState.isTerminal] at hterminal
      | ending _ hends | done _ hends => exact ⟨_, hends⟩
    obtain ⟨hstopped, hdied⟩ := h.cause_run hlive before hends
    refine ⟨cause, hends, fun hcause => ?_, hdied, fun hnot hnot' => ?_⟩
    · rcases hstopped hcause with hasked' | hmem
      · simp [hasked] at hasked'
      · exact hmem
    · exact hends.message_eq hnot hnot'
  · rcases (hg.ended (hg.isTerminal_iff.mp hterminal)).follow_eq now with
      ⟨f', cause, -, -, hnext⟩ | ⟨hover, hnext⟩
    · rw [hnext]
      rfl
    · rwa [hnext]
  · exact hanswers'.isSome_outcome? (hfinished hover).2
  · exact refuses_of_closed (hg.closed_iff.mpr (hg.isOver_iff.mp hover))
  · exact (hg.ended (hg.isTerminal_iff.mp hterminal)).run_stops after
  · cases hfollowing : (w.run before).listener.isFollowing with
    | true => exact Listener.ledger_stop hfollowing _ now r
    | false =>
      have hover : (w.run before).isOver = true := by simp [isOver, hfollowing]
      rw [hstop hover now r]
      exact ⟨hg.closed_iff.mpr (hg.isOver_iff.mp hover), (hfinished hover).2⟩

/-- A listener that was never attached, whatever was asked of it. -/
structure Unserved (w : World) : Prop where
  ended : w.Ended
  follower : w.listener.follower = none
  state : w.state = .unattached

lemma Unserved.isOver (h : w.Unserved) : w.isOver = true := by
  simp [World.isOver, Listener.isFollowing, h.follower]

lemma unserved_detached (d : Disk) : (begin d .detached).Unserved :=
  ⟨⟨fun f hf => by simp [begin, Listener.detached] at hf, rfl, fun _ => ⟨rfl, rfl⟩⟩, rfl, rfl⟩

lemma Unserved.apply (h : w.Unserved) (m : Move) : (w.apply m).Unserved := by
  have hended := h.ended.apply m
  cases m with
  | files | requestStop | listen | drop | collect => exact ⟨hended, h.follower, h.state⟩
  | answer r => rwa [h.ended.answer_eq r]
  | sweep now => rwa [h.ended.sweep_eq now]
  | follow now =>
    rcases h.ended.follow_eq now with ⟨f, cause, hf, -⟩ | ⟨-, hnext⟩
    · simp [h.follower] at hf
    · rwa [hnext]
  | finishStop =>
    obtain ⟨b, hb⟩ := h.ended.stop_eq (m := .finishStop) rfl
    rw [hb]
    exact ⟨h.ended.setStop b, h.follower, h.state⟩

lemma Unserved.run (h : w.Unserved) (moves : List Move) : (w.run moves).Unserved := by
  induction moves generalizing w with
  | nil => exact h
  | cons m moves ih => exact ih (h.apply m)

/-- **The stream of a listener ends once, for good, and leaves nobody waiting.** This holds at
every moment of every run of an attached listener, whatever others do in between; and a listener
that was never attached refuses everything, whatever is asked of it. -/
theorem stream_ends_once :
    (∀ (d : Disk) (s : Settings) (alive : Bool) (reported : Option String) (l : Listener),
      Listener.attach d s alive reported = .ok l →
        ∀ before after, EndsOnce before ((begin d l).run before) after) ∧
    (∀ (d : Disk) (before after : List Move),
      NeverAttached ((begin d .detached).run before) after) := by
  refine ⟨fun d s alive reported l hattach before after => ?_, fun d before after => ?_⟩
  · obtain ⟨f, hf⟩ := follows_begin hattach
    obtain ⟨path, reader, -, -, rfl⟩ := Listener.attach_eq hattach
    obtain rfl := Option.some.inj hf.follower
    exact hf.endsOnce rfl Ledger.Sound.fresh Ledger.answers_fresh rfl before after
  · have hv := (unserved_detached d).run before
    have hend := hv.run after
    obtain ⟨hclosed, hempty⟩ := hend.ended.shut hend.isOver
    refine ⟨hend.state, hclosed, hempty, refuses_of_closed hclosed, (hv.ended.run_stops after).2,
      fun now r => ?_⟩
    rw [Listener.stop, if_neg]
    simpa [World.isOver] using hend.isOver

/-- One request waits when the stop is asked for, another comes when the stream has ended; both
are told of the stop when the ledger is closed, and a second stop changes nothing of it. -/
theorem stream_ends_once_between_requests :
    ((begin (.withLog "") (.atEnd 0)).run [.listen 0 (.pattern "x") ⟨9⟩, .requestStop, .follow 1,
        .listen 2 (.pattern "y") ⟨9⟩, .follow 3, .requestStop, .finishStop]).outcome? 0 =
      some (.rejected .stopped) ∧
    ((begin (.withLog "") (.atEnd 0)).run [.listen 0 (.pattern "x") ⟨9⟩, .requestStop, .follow 1,
        .listen 2 (.pattern "y") ⟨9⟩, .follow 3, .requestStop, .finishStop]).outcome? 1 =
      some (.rejected .stopped) := by
  have hattach : Listener.attach (.withLog "") .standard true (some "log") = .ok (.atEnd 0) := rfl
  have hends := stream_ends_once.1 _ _ _ _ _ hattach
    [.listen 0 (.pattern "x") ⟨9⟩, .requestStop, .follow 1, .listen 2 (.pattern "y") ⟨9⟩]
    [.follow 3, .requestStop, .finishStop]
  have hstate : ((begin (.withLog "") (.atEnd 0)).run [.listen 0 (.pattern "x") ⟨9⟩, .requestStop,
    .follow 1, .listen 2 (.pattern "y") ⟨9⟩]).state = .stopped := by decide +kernel
  have htold := hends.told (by rw [hstate]; rfl)
  obtain ⟨c₀, hcause₀, hout₀⟩ := htold ⟨0, .start (.pattern "x"), some 9, some ⟨0, 0⟩⟩
    (by decide +kernel) (by decide +kernel) (by decide +kernel)
  obtain ⟨c₁, hcause₁, hout₁⟩ := htold ⟨1, .start (.pattern "y"), some 11, none⟩
    (by decide +kernel) (by decide +kernel) (by decide +kernel)
  rw [hstate] at hcause₀ hcause₁
  obtain rfl := hcause₀.unique .stopped
  obtain rfl := hcause₁.unique .stopped
  exact ⟨hout₀, hout₁⟩

end World

end LogWatch
