import Mathlib
import LogWatch.Proofs.Listener.Turn
import LogWatch.Proofs.LogFile.Tracking

/-!
How the parts of a listener stand to each other.

The state of the stream, the generation in it and the ledger are set in different steps, but never
far apart: while the follower is at work the stream is attached to the file that it reads and the
ledger is open; once it has come upon the end the state says so; and when it is done the ledger is
closed and empty. Every turn keeps this, so it holds after every run.
-/

namespace LogWatch

lemma Listener.attach_eq {d : Disk} {s : Settings} {alive : Bool} {reported : Option String}
    {l : Listener} (h : attach d s alive reported = .ok l) :
    ∃ path reader, reported = some path ∧ Reader.openAt d path true = .ok reader ∧
      l = ⟨s.patterns, .fresh, ⟨.attached path, 0, false⟩,
        some ⟨reader, 0, s.attempts, .reading⟩⟩ := by
  unfold attach at h
  split at h
  · simp at h
  · simp at h
  · simp at h
  · split at h
    · simp at h
    · rename_i path _ _ reader hopen
      exact ⟨path, reader, rfl, hopen, (Except.ok.inj h).symm⟩

namespace World

def state (w : World) : StreamState := w.listener.stream.state

def ledger (w : World) : Ledger := w.listener.ledger

/-- How the stream and the ledger of a listener stand to its follower. -/
inductive Stands (w : World) (f : Follower) : Prop
  | live (phase : f.phase.isLive = true) (state : w.state = .attached f.reader.path)
      (open' : w.ledger.closed = false)
  | ending {cause : Cause} (phase : f.phase = .ending cause) (ends : w.state.EndsFor cause)
      (open' : w.ledger.closed = false)
  | done {cause : Cause} (phase : f.phase = .done) (ends : w.state.EndsFor cause)
      (closed : w.ledger.closed = true) (empty : w.ledger.pending = [])

/-- What holds of a listener with the follower `f` after every run. -/
structure Follows (w : World) (f : Follower) : Prop where
  follower : w.listener.follower = some f
  generation : w.listener.stream.generation = f.generation
  idle : f.phase ≠ .reading → w.hand = none
  stands : w.Stands f

variable {w w' : World} {f : Follower} {m : Move} {ops : List Ledger.Op}

lemma Stands.of_live (h : w.Stands f) (hlive : f.phase.isLive = true) :
    w.state = .attached f.reader.path ∧ w.ledger.closed = false := by
  cases h with
  | live _ hstate hopen => exact ⟨hstate, hopen⟩
  | ending hphase => simp [hphase, Phase.isLive] at hlive
  | done hphase => simp [hphase, Phase.isLive] at hlive

lemma Stands.of_ending (h : w.Stands f) {cause : Cause} (hending : f.phase = .ending cause) :
    w.state.EndsFor cause ∧ w.ledger.closed = false := by
  cases h with
  | live hphase => simp [hending, Phase.isLive] at hphase
  | ending hphase hends hopen =>
    obtain rfl := Phase.ending.inj (hphase.symm.trans hending)
    exact ⟨hends, hopen⟩
  | done hphase => simp [hending] at hphase

lemma Stands.of_done (h : w.Stands f) (hdone : f.phase = .done) :
    (∃ cause, w.state.EndsFor cause) ∧ w.ledger.closed = true ∧ w.ledger.pending = [] := by
  cases h with
  | live hphase => simp [hdone, Phase.isLive] at hphase
  | ending hphase => simp [hdone] at hphase
  | done _ hends hclosed hempty => exact ⟨⟨_, hends⟩, hclosed, hempty⟩

lemma Stands.of_same (h : w.Stands f) (hstate : w'.state = w.state)
    (hclosed : w'.ledger.closed = w.ledger.closed)
    (hempty : w.ledger.closed = true → w.ledger.pending = [] → w'.ledger.pending = []) :
    w'.Stands f := by
  cases h with
  | live hphase hs hopen => exact .live hphase (hstate.trans hs) (hclosed.trans hopen)
  | ending hphase hends hopen => exact .ending hphase (hstate ▸ hends) (hclosed.trans hopen)
  | done hphase hends hshut hnone =>
    exact .done hphase (hstate ▸ hends) (hclosed.trans hshut) (hempty hshut hnone)

lemma Follows.phase_of_hand (h : Follows w f) {x : String × Position} (hhand : w.hand = some x) :
    f.phase = .reading := by
  by_contra hne
  simp [h.idle hne] at hhand

lemma Follows.isTerminal_iff (h : Follows w f) :
    w.state.isTerminal = true ↔ f.phase.isLive = false := by
  cases h.stands with
  | live hphase hstate => simp [hphase, hstate, StreamState.isTerminal]
  | ending hphase hends => simp [hphase, hends.isTerminal, Phase.isLive]
  | done hphase hends => simp [hphase, hends.isTerminal, Phase.isLive]

lemma Follows.isLive_of_isListening (h : Follows w f) (hlistening : w.listener.isListening = true) :
    f.phase.isLive = true := by
  by_contra hdead
  have hterminal := h.isTerminal_iff.mpr (by simpa using hdead)
  have hattached : w.state.isAttached = true := (Bool.and_eq_true_iff.mp hlistening).1
  cases hstate : w.state <;>
    simp [hstate, StreamState.isTerminal, StreamState.isAttached] at hterminal hattached

lemma Follows.hand_of_idle (h : Follows w f) (hidle : f.phase = .reading → w.hand = none) :
    w.hand = none := by
  by_cases hreading : f.phase = .reading
  · exact hidle hreading
  · exact h.idle hreading

lemma follows_begin {d : Disk} {s : Settings} {alive : Bool} {reported : Option String}
    {l : Listener} (h : Listener.attach d s alive reported = .ok l) :
    ∃ f, Follows (begin d l) f := by
  obtain ⟨path, reader, -, hopen, rfl⟩ := Listener.attach_eq h
  obtain ⟨file, start, -, -, rfl⟩ := Reader.openAt_eq hopen
  exact ⟨_, rfl, rfl, fun _ => rfl, .live rfl rfl rfl⟩

lemma Follows.turn (h : Follows w f) (hturn : Turn w f m w' ops) : ∃ f', Follows w' f' := by
  cases hturn with
  | still => exact ⟨f, h⟩
  | files next =>
    exact ⟨f, h.follower, h.generation, h.idle, h.stands.of_same rfl rfl fun _ hnone => hnone⟩
  | asksToStop =>
    exact ⟨f, h.follower, h.generation, h.idle, h.stands.of_same rfl rfl fun _ hnone => hnone⟩
  | calls op hcalm =>
    exact ⟨f, h.follower, h.generation, h.idle, h.stands.of_same rfl (Ledger.closed_of_calm hcalm _)
      fun hclosed hnone => Ledger.pending_of_closed hclosed hnone hcalm⟩
  | closesAgain hdone =>
    obtain ⟨-, hclosed, -⟩ := h.stands.of_done hdone
    exact ⟨f, h.follower, h.generation, h.idle, h.stands.of_same rfl hclosed.symm fun _ _ => rfl⟩
  | sends now hhand =>
    obtain ⟨hstate, hopen⟩ := h.stands.of_live (by rw [h.phase_of_hand hhand]; rfl)
    exact ⟨f, h.follower, h.generation, fun _ => rfl,
      .live (by rw [h.phase_of_hand hhand]; rfl) hstate hopen⟩
  | reads now hhand hreading hnext =>
    have hlive : f.phase.isLive = true := by rw [hreading]; rfl
    obtain ⟨hstate, hopen⟩ := h.stands.of_live hlive
    refine ⟨_, rfl, h.generation, fun hne => absurd hreading hne, .live hlive ?_ hopen⟩
    rw [(Reader.next_same hnext).1]
    exact hstate
  | reachesEnd now hhand hreading hnext =>
    obtain ⟨hstate, hopen⟩ := h.stands.of_live (by rw [hreading]; rfl)
    refine ⟨_, rfl, h.generation, fun _ => hhand, .live rfl ?_ hopen⟩
    rw [(Reader.next_same hnext).1]
    exact hstate
  | turns phase ops hidle hlive hlive' hother hend hcalm =>
    obtain ⟨hstate, hopen⟩ := h.stands.of_live hlive
    exact ⟨_, rfl, h.generation, fun _ => h.hand_of_idle hidle,
      .live hlive' hstate ((Ledger.closed_run_of_calm hcalm _).trans hopen)⟩
  | reattaches hphase hopened =>
    obtain ⟨left, last, hphase⟩ := hphase
    obtain ⟨-, hopen⟩ := h.stands.of_live (by rw [hphase]; rfl)
    obtain ⟨file, start, -, -, rfl⟩ := Reader.openAt_eq hopened
    exact ⟨_, rfl, rfl, fun hne => absurd rfl hne, .live rfl rfl hopen⟩
  | endsStream hidle hlive hends =>
    obtain ⟨-, hopen⟩ := h.stands.of_live hlive
    exact ⟨_, rfl, h.generation, fun _ => h.hand_of_idle hidle, .ending rfl hends hopen⟩
  | closes now hending =>
    obtain ⟨hends, -⟩ := h.stands.of_ending hending
    exact ⟨_, rfl, h.generation, fun _ => h.idle (by simp [hending]), .done rfl hends rfl rfl⟩

lemma Follows.apply (h : Follows w f) (m : Move) : ∃ f', Follows (w.apply m) f' :=
  h.turn (turn_apply h.follower m)

/-- **The parts of a listener stand together after every run.** -/
theorem Follows.run (h : Follows w f) (moves : List Move) : ∃ f', Follows (w.run moves) f' := by
  induction moves generalizing w f with
  | nil => exact ⟨f, h⟩
  | cons m moves ih =>
    obtain ⟨f', h'⟩ := h.apply m
    exact ih h'

end World

end LogWatch
