import Mathlib
import LogWatch.Proofs.Listener.Ending

/-!
How a follower goes on when its file is no longer the log.

It then has a budget of attempts. Each comes after a grace, and ends when a stop is seen, when the
node fails, when it reports nothing or what cannot be opened, or with a file to go on with. Only
the last of these changes where the listener stands in its log, and all of that at once; only when
every attempt has failed is the log lost. Whoever else moves in between does not count.
-/

namespace LogWatch

/-- How many attempts are left to a follower that tries to go on, and the loss that it would name
if there were none. -/
def Phase.tries? : Phase → Option (ℕ × Loss)
  | waiting left last => some (left, last)
  | reopening left last => some (left + 1, last)
  | reading | asking | resting | ending _ | done => none

/-- What an attempt to go on with the log comes to. -/
inductive Attempt where
  | stopped
  | died
  | failed (loss : Loss)
  | opened (reader : Reader)
deriving DecidableEq, Repr

/-- Where a listener stands in its log: the reader and the generation that its follower has, and
the state and the generation that others are shown. -/
structure Place where
  reader : Reader
  generation : ℕ
  state : StreamState
  shown : ℕ
deriving DecidableEq, Repr

/-- The loss that is named after these, the last of them, or the one that was there before. -/
def Loss.lastOf (detected : Loss) (losses : List Loss) : Loss := losses.getLast?.getD detected

@[simp] lemma Loss.lastOf_nil (detected : Loss) : detected.lastOf [] = detected := rfl
@[simp] lemma Loss.lastOf_snoc (detected : Loss) (losses : List Loss) (loss : Loss) :
    detected.lastOf (losses ++ [loss]) = loss := by
  simp [lastOf]

namespace World

def place? (w : World) : Option Place :=
  w.listener.follower.map fun f =>
    ⟨f.reader, f.generation, w.state, w.listener.stream.generation⟩

/-- How many attempts the follower has left, while it tries to go on. -/
def effort? (w : World) : Option (ℕ × Loss) := w.listener.follower.bind (·.phase.tries?)

/-- What this move shows the follower to have happened to its file. -/
def detection? (w : World) : Move → Option Rotation
  | .follow _ => do
    let f ← w.listener.follower
    guard (f.phase = .reading ∧ w.hand = none ∧ w.stopAsked = false)
    match f.reader.next w.disk with
    | .error e => some (.unreadable e)
    | .ok _ => none
  | .answer (.path reported) => do
    let f ← w.listener.follower
    guard (f.phase = .asking)
    f.reader.rotation w.disk reported
  | _ => none

def detections (w : World) : List Move → List Rotation
  | [] => []
  | m :: moves => (w.detection? m).toList ++ (w.apply m).detections moves

/-- What the attempt comes to that this move ends. -/
def attempt? (w : World) (m : Move) : Option Attempt := do
  let f ← w.listener.follower
  match f.phase, m with
  | .waiting (_ + 1) _, .follow _ => if w.stopAsked then some .stopped else none
  | .reopening _ _, .answer .died => some .died
  | .reopening _ _, .answer (.path none) => some (.failed .unreported)
  | .reopening _ _, .answer (.path (some path)) =>
    match Reader.openAt w.disk path false with
    | .error e => some (.failed (.unopened path e))
    | .ok reader => some (.opened reader)
  | _, _ => none

def attempts (w : World) : List Move → List Attempt
  | [] => []
  | m :: moves => (w.attempt? m).toList ++ (w.apply m).attempts moves

variable {w w' : World} {f : Follower} {m : Move} {phase : Phase} {left : ℕ} {last : Loss}

/-! ### One move -/

lemma same_of_others (hfollow : ∀ now, m ≠ .follow now) (hanswer : ∀ r, m ≠ .answer r) :
    (w.apply m).listener.follower = w.listener.follower ∧ (w.apply m).state = w.state ∧
      (w.apply m).listener.stream.generation = w.listener.stream.generation := by
  cases m with
  | follow now => exact absurd rfl (hfollow now)
  | answer r => exact absurd rfl (hanswer r)
  | files | listen | drop | collect | requestStop => exact ⟨rfl, rfl, rfl⟩
  | sweep | finishStop =>
    simp only [apply]
    split <;> exact ⟨rfl, rfl, rfl⟩

lemma Follows.follow_eq (h : Follows w f) (hphase : f.phase ≠ .reading) (now : ℕ) :
    w.apply (.follow now) = { w with listener := w.listener.advance w.disk now } := by
  have hread : w.listener.readLine? w.disk = none := by
    simp [Listener.readLine?, h.follower, hphase]
  simp only [World.apply, World.follow, h.idle hphase, hread]

/-- The world after a move has the follower in this phase, and else what it had. -/
structure Turned (w : World) (f : Follower) (m : Move) (phase : Phase) : Prop where
  follower : (w.apply m).listener.follower = some { f with phase }
  state : (w.apply m).state = w.state
  generation : (w.apply m).listener.stream.generation = w.listener.stream.generation

lemma Turned.place?_eq (h : Turned w f m phase) (hf : w.listener.follower = some f) :
    (w.apply m).place? = w.place? := by
  simp [place?, h.follower, h.state, h.generation, hf]

lemma Turned.effort?_eq (h : Turned w f m phase) : (w.apply m).effort? = phase.tries? := by
  simp [effort?, h.follower]

/-- What a move makes of an effort with so many attempts left. -/
inductive Tries (w : World) (f : Follower) (left : ℕ) (last : Loss) (m : Move) : Prop
  | still (attempt : w.attempt? m = none) {phase : Phase} (tries : phase.tries? = some (left, last))
      (turned : Turned w f m phase)
  | stopped (attempt : w.attempt? m = some .stopped) (some' : 0 < left)
      (asked : w.stopAsked = true) (turned : Turned w f m .reading)
  | failed {loss : Loss} (attempt : w.attempt? m = some (.failed loss)) (some' : 0 < left)
      (turned : Turned w f m (.waiting (left - 1) loss))
  | opened {reader : Reader} (attempt : w.attempt? m = some (.opened reader)) (some' : 0 < left)
      (answer : m = .answer (.path (some reader.path)))
      (opens : Reader.openAt w.disk reader.path false = .ok reader)
      (follower : (w.apply m).listener.follower =
        some { f with reader, generation := f.generation + 1, phase := .reading })
      (state : (w.apply m).state = .attached reader.path)
      (generation : (w.apply m).listener.stream.generation = f.generation + 1)
  | died (attempt : w.attempt? m = some .died) (some' : 0 < left)
      (ends : w.apply m = { w with listener := w.listener.endStream f (.failed .died) .died })
  | givesUp (attempt : w.attempt? m = none) (none' : left = 0)
      (ends : w.apply m =
        { w with listener := w.listener.endStream f (.failed (.lost last)) (.lost last) })

lemma attempt?_eq (hf : w.listener.follower = some f) (m : Move) :
    w.attempt? m =
      match f.phase, m with
      | .waiting (_ + 1) _, .follow _ => if w.stopAsked then some .stopped else none
      | .reopening _ _, .answer .died => some .died
      | .reopening _ _, .answer (.path none) => some (.failed .unreported)
      | .reopening _ _, .answer (.path (some path)) =>
        match Reader.openAt w.disk path false with
        | .error e => some (.failed (.unopened path e))
        | .ok reader => some (.opened reader)
      | _, _ => none := by
  simp [attempt?, hf]

lemma attempt?_eq_none (hf : w.listener.follower = some f) (htries : f.phase.tries? = none)
    (m : Move) : w.attempt? m = none := by
  rw [attempt?_eq hf]
  cases hphase : f.phase <;> simp [hphase, Phase.tries?] at htries ⊢

lemma attempt?_of_others (hf : w.listener.follower = some f) (hfollow : ∀ now, m ≠ .follow now)
    (hanswer : ∀ r, m ≠ .answer r) : w.attempt? m = none := by
  rw [attempt?_eq hf]
  cases m with
  | follow now => exact absurd rfl (hfollow now)
  | answer r => exact absurd rfl (hanswer r)
  | files | listen | drop | collect | requestStop | sweep | finishStop => split <;> simp_all

lemma turned_of_others (hf : w.listener.follower = some f) (hfollow : ∀ now, m ≠ .follow now)
    (hanswer : ∀ r, m ≠ .answer r) : Turned w f m f.phase := by
  obtain ⟨hfollower, hstate, hgeneration⟩ := same_of_others hfollow hanswer
  exact ⟨hfollower.trans hf, hstate, hgeneration⟩

lemma turned_of_same (hf : w.listener.follower = some f)
    (hsame : (w.apply m).listener = w.listener) : Turned w f m f.phase :=
  ⟨by rw [hsame, hf], by rw [World.state, World.state, hsame], by rw [hsame]⟩

lemma Follows.tries_follow_waiting (h : Follows w f) (hphase : f.phase = .waiting left last)
    (now : ℕ) : Tries w f left last (.follow now) := by
  have hnext := h.follow_eq (by simp [hphase]) now
  have hattempt := attempt?_eq h.follower (.follow now)
  rw [hphase] at hattempt
  -- with no attempt left the stream fails; before another one a stop is heeded
  cases left with
  | zero =>
    refine .givesUp hattempt rfl ?_
    rw [hnext]
    simp [Listener.advance, h.follower, hphase]
  | succ left =>
    cases hasked : w.listener.stream.shutdown with
    | true =>
      refine .stopped ?_ left.succ_pos hasked ⟨?_, ?_, ?_⟩
      · rw [hattempt]
        simp [stopAsked, hasked]
      all_goals
        rw [hnext]
        simp [Listener.advance, h.follower, hphase, hasked, Listener.setFollower, Listener.sweep,
          World.state]
    | false =>
      have htries : (Phase.reopening left last).tries? = some (left + 1, last) := rfl
      refine .still ?_ htries ⟨?_, ?_, ?_⟩
      · rw [hattempt]
        simp [stopAsked, hasked]
      all_goals
        rw [hnext]
        simp [Listener.advance, h.follower, hphase, hasked, Listener.setFollower, Listener.sweep,
          World.state]

lemma tries_answer_reopening (hf : w.listener.follower = some f)
    (hphase : f.phase = .reopening left last) (r : Report) :
    Tries w f (left + 1) last (.answer r) := by
  have hattempt := attempt?_eq hf (.answer r)
  rw [hphase] at hattempt
  -- whatever the answer, it ends the attempt, which fails unless a file can be opened
  cases r with
  | died =>
    refine .died hattempt left.succ_pos ?_
    simp [World.apply, Listener.answer, hf, hphase]
  | path reported =>
    cases reported with
    | none =>
      refine .failed hattempt left.succ_pos ⟨?_, ?_, ?_⟩ <;>
        simp [World.apply, Listener.answer, hf, hphase, Listener.setFollower, World.state]
    | some path =>
      cases hopen : Reader.openAt w.disk path false with
      | error e =>
        simp only [hopen] at hattempt
        refine .failed hattempt left.succ_pos ⟨?_, ?_, ?_⟩ <;>
          simp [World.apply, Listener.answer, hf, hphase, hopen, Listener.setFollower, World.state]
      | ok reader =>
        simp only [hopen] at hattempt
        obtain ⟨file, start, -, -, rfl⟩ := Reader.openAt_eq hopen
        refine .opened hattempt left.succ_pos rfl hopen ?_ ?_ ?_ <;>
          simp [World.apply, Listener.answer, hf, hphase, hopen, World.state]

/-- Every move is one of these to a follower that tries to go on. -/
lemma Follows.tries (h : Follows w f) (htries : f.phase.tries? = some (left, last)) (m : Move) :
    Tries w f left last m := by
  -- most moves leave the follower where it is
  have hstill : w.attempt? m = none → Turned w f m f.phase → Tries w f left last m :=
    fun hattempt hturned => .still hattempt htries hturned
  have hothers : (∀ now, m ≠ .follow now) → (∀ r, m ≠ .answer r) → Tries w f left last m :=
    fun hfollow hanswer => hstill (attempt?_of_others h.follower hfollow hanswer)
      (turned_of_others h.follower hfollow hanswer)
  cases hphase : f.phase with
  | waiting left' last' =>
    obtain ⟨rfl, rfl⟩ : left' = left ∧ last' = last := by simpa [hphase, Phase.tries?] using htries
    cases m with
    | follow now => exact h.tries_follow_waiting hphase now
    | answer r =>
      refine hstill ?_ (turned_of_same h.follower ?_)
      · simp [attempt?_eq h.follower, hphase]
      · simp [World.apply, Listener.answer, h.follower, hphase]
    | files | listen | drop | collect | requestStop | sweep | finishStop =>
      exact hothers (by simp) (by simp)
  | reopening left' last' =>
    obtain ⟨rfl, rfl⟩ : left' + 1 = left ∧ last' = last := by
      simpa [hphase, Phase.tries?] using htries
    cases m with
    | follow now =>
      have hnext := h.follow_eq (by simp [hphase]) now
      refine hstill ?_ (turned_of_same h.follower ?_)
      · simp [attempt?_eq h.follower, hphase]
      · rw [hnext]
        simp [Listener.advance, h.follower, hphase]
    | answer r => exact tries_answer_reopening h.follower hphase r
    | files | listen | drop | collect | requestStop | sweep | finishStop =>
      exact hothers (by simp) (by simp)
  | reading | asking | resting | ending cause | done => simp [hphase, Phase.tries?] at htries

/-! ### Runs -/

/-- All attempts that these moves bring to an end have failed, with these losses. -/
def Fails (w : World) (moves : List Move) (losses : List Loss) : Prop :=
  w.attempts moves = losses.map .failed

/-- How it stands with an effort for which `n` attempts were given in a world with this place, when
the attempts so far failed with these losses. -/
inductive Trying (place : Option Place) (n : ℕ) (detected : Loss) (losses : List Loss)
    (u : World) : Prop
  | going (within : losses.length ≤ n)
      (effort : u.effort? = some (n - losses.length, detected.lastOf losses))
      (place : u.place? = place)
  | lost (spent : losses.length = n) (effort : u.effort? = none)
      (place : u.place? =
        place.map fun p => { p with state := .failed (.lost (detected.lastOf losses)) })

lemma place?_of_dead (hf : w.listener.follower = some f) (hdead : f.phase.isLive = false)
    {ops : List Ledger.Op} (hturn : Turn w f m w' ops) : w'.place? = w.place? := by
  cases hturn with
  | still | files | calls | asksToStop | closesAgain | sends => rfl
  | closes => simp [place?, turnTo, World.state, hf]
  | reads _ _ hreading | reachesEnd _ _ hreading => simp [hreading, Phase.isLive] at hdead
  | turns _ _ _ hlive | endsStream _ hlive => simp [hlive] at hdead
  | reattaches hphase =>
    obtain ⟨left, last, hphase⟩ := hphase
    simp [hphase, Phase.isLive] at hdead

lemma Follows.place?_eq (h : Follows w f) :
    w.place? = some ⟨f.reader, f.generation, w.state, f.generation⟩ := by
  simp [place?, h.follower, h.generation]

lemma tries?_of_dead (hdead : phase.isLive = false) : phase.tries? = none := by
  cases phase <;> simp [Phase.isLive, Phase.tries?] at hdead ⊢

namespace Trying

variable {place : Option Place} {n : ℕ} {detected : Loss} {losses : List Loss}

lemma dead_of_spent (h : Follows w f) {p : Place}
    (hplace : w.place? = some { p with state := .failed (.lost last) }) :
    f.phase.isLive = false := by
  rw [h.place?_eq, Option.some.injEq, Place.mk.injEq] at hplace
  rw [← h.isTerminal_iff, hplace.2.2.1]
  rfl

lemma still (h : Trying place n detected losses w) (hfollows : Follows w f) (hplace : place.isSome)
    (hattempt : w.attempt? m = none) : Trying place n detected losses (w.apply m) := by
  obtain ⟨f', hfollows'⟩ := hfollows.apply m
  cases h with
  | going within effort hsame =>
    have htries : f.phase.tries? = some (n - losses.length, detected.lastOf losses) := by
      simpa [effort?, hfollows.follower] using effort
    cases hfollows.tries htries m with
    | still _ htries' hturned =>
      exact .going within (hturned.effort?_eq.trans htries')
        ((hturned.place?_eq hfollows.follower).trans hsame)
    | stopped hattempt' | failed hattempt' | opened hattempt' | died hattempt' =>
      simp [hattempt'] at hattempt
    | givesUp _ hnone hends =>
      -- all attempts are spent, and the stream ends where the follower was
      refine .lost (by omega) ?_ ?_
      · simp [hends, effort?, Listener.endStream, Phase.tries?]
      · rw [← hsame, hends]
        simp [place?, hfollows.follower, Listener.endStream, World.state]
  | lost spent effort hsame =>
    obtain ⟨p, rfl⟩ := Option.isSome_iff_exists.mp hplace
    have hsame' : (w.apply m).place? = w.place? := place?_of_dead hfollows.follower
      (dead_of_spent hfollows hsame) (turn_apply hfollows.follower m)
    have hdead' := dead_of_spent hfollows' (hsame'.trans hsame)
    refine .lost spent ?_ (hsame'.trans hsame)
    simp [effort?, hfollows'.follower, tries?_of_dead hdead']

lemma effort_of_attempt (h : Trying place n detected losses w) (hfollows : Follows w f) {a : Attempt}
    (hattempt : w.attempt? m = some a) : losses.length ≤ n ∧ w.place? = place ∧
      f.phase.tries? = some (n - losses.length, detected.lastOf losses) := by
  cases h with
  | going within effort hsame =>
    exact ⟨within, hsame, by simpa [effort?, hfollows.follower] using effort⟩
  | lost _ effort =>
    rw [attempt?_eq_none hfollows.follower] at hattempt
    · simp at hattempt
    · simpa [effort?, hfollows.follower] using effort

lemma failed (h : Trying place n detected losses w) (hfollows : Follows w f) {loss : Loss}
    (hattempt : w.attempt? m = some (.failed loss)) :
    Trying place n detected (losses ++ [loss]) (w.apply m) := by
  obtain ⟨within, hsame, htries⟩ := h.effort_of_attempt hfollows hattempt
  cases hfollows.tries htries m with
  | still hattempt' | stopped hattempt' | opened hattempt' | died hattempt' | givesUp hattempt' =>
    simp [hattempt'] at hattempt
  | failed hattempt' hsome hturned =>
    obtain rfl : _ = loss := by simpa [hattempt'] using hattempt
    refine .going ?_ (hturned.effort?_eq.trans ?_)
      ((hturned.place?_eq hfollows.follower).trans hsame)
    · rw [List.length_append, List.length_singleton]
      omega
    · simp [Phase.tries?, Nat.sub_sub]

lemma run (h : Trying place n detected losses w) (hfollows : Follows w f) (hplace : place.isSome)
    {moves : List Move} {more : List Loss} (hattempts : w.Fails moves more) :
    Trying place n detected (losses ++ more) (w.run moves) := by
  induction moves generalizing w f losses more with
  | nil =>
    obtain rfl : more = [] := by simpa [Fails, attempts] using hattempts.symm
    simpa using h
  | cons m moves ih =>
    obtain ⟨f', hfollows'⟩ := hfollows.apply m
    rw [run_cons]
    -- a move that ends an attempt adds a loss, any other leaves their number
    cases hattempt : w.attempt? m with
    | none =>
      refine ih (h.still hfollows hplace hattempt) hfollows' ?_
      simpa [Fails, attempts, hattempt] using hattempts
    | some a =>
      simp only [Fails, attempts, hattempt, Option.toList_some, List.singleton_append] at hattempts
      obtain ⟨loss, more, rfl, rfl, hrest⟩ := List.map_eq_cons_iff.mp hattempts.symm
      rw [← List.singleton_append, ← List.append_assoc]
      exact ih (h.failed hfollows hattempt) hfollows' hrest.symm

end Trying

/-- What is so of an effort that sets out in a world `v` with `n` attempts, when this loss was
detected: at any time while the attempts that came to an end have failed, and with the next that
comes to its end. -/
structure Reattaches (n : ℕ) (detected : Loss) (v : World) : Prop where
  /-- There are never more than `n`, and until they are spent nothing has changed. -/
  failing : ∀ moves losses, v.Fails moves losses →
    Trying v.place? n detected losses (v.run moves)
  /-- While some are left, a step of the follower and an answer to it bring one to its end. -/
  goesOn : ∀ moves losses, v.Fails moves losses → losses.length < n →
    ∀ now r, (v.run moves).attempts [.follow now, .answer r] ≠ []
  /-- When they are spent the next step fails the stream, which names the last loss, and changes
  nothing else. -/
  givesUp : ∀ moves losses, v.Fails moves losses → losses.length = n → ∀ now,
    ∃ p cause, v.place? = some p ∧
      ((v.run moves).apply (.follow now)).place? = some { p with state := .failed cause } ∧
      cause.message = "Log file not found! (" ++ (detected.lastOf losses).message ++ ")"
  /-- An attempt that sees a stop changes nothing. -/
  stopped : ∀ moves losses m, v.Fails moves losses →
    (v.run moves).attempt? m = some .stopped →
    losses.length < n ∧ (v.run moves).stopAsked = true ∧
      ((v.run moves).apply m).place? = v.place? ∧ ((v.run moves).apply m).effort? = none
  /-- An attempt that opens what the node reports moves the whole place there, to the start of the
  file and one generation further. -/
  opened : ∀ moves losses m reader, v.Fails moves losses →
    (v.run moves).attempt? m = some (.opened reader) →
    losses.length < n ∧ ((v.run moves).apply m).effort? = none ∧
      ∃ p path file, v.place? = some p ∧ m = .answer (.path (some path)) ∧
        (v.run moves).disk.find path = .ok file ∧ reader = ⟨path, file, 0, [], 0, []⟩ ∧
        ((v.run moves).apply m).place? =
          some ⟨reader, p.generation + 1, .attached path, p.generation + 1⟩
  /-- An attempt in which the node fails ends the stream for that. -/
  died : ∀ moves losses m, v.Fails moves losses →
    (v.run moves).attempt? m = some .died →
    losses.length < n ∧ ∃ p, v.place? = some p ∧
      ((v.run moves).apply m).place? = some { p with state := .failed .died }

lemma Cause.message_lost_eq (last : Loss) :
    (Cause.lost last).message = "Log file not found! (" ++ last.message ++ ")" := by
  rw [Cause.message_lost, ← String.append_assoc, ← String.append_assoc]
  rfl

lemma attempt?_answer_ne_none (hf : w.listener.follower = some f)
    (hphase : f.phase = .reopening left last) (r : Report) : w.attempt? (.answer r) ≠ none := by
  cases tries_answer_reopening hf hphase r with
  | stopped h | failed h | opened h | died h => simp [h]
  | givesUp _ hnone => exact absurd hnone (Nat.succ_ne_zero left)
  | still h =>
    rw [attempt?_eq hf, hphase] at h
    cases r with
    | died => simp at h
    | path reported =>
      cases reported with
      | none => simp at h
      | some path => cases hopen : Reader.openAt w.disk path false <;> simp [hopen] at h

lemma Follows.asks_of_tries (h : Follows w f) (htries : f.phase.tries? = some (left + 1, last))
    (now : ℕ) : w.attempt? (.follow now) ≠ none ∨
      ∃ g, (w.apply (.follow now)).listener.follower = some g ∧ g.phase = .reopening left last := by
  cases hphase : f.phase with
  | waiting left' last' =>
    obtain ⟨rfl, rfl⟩ : left' = left + 1 ∧ last' = last := by
      simpa [hphase, Phase.tries?] using htries
    rw [attempt?_eq h.follower, hphase, h.follow_eq (by simp [hphase]) now]
    cases hasked : w.listener.stream.shutdown <;>
      simp [stopAsked, Listener.advance, h.follower, hphase, hasked, Listener.setFollower]
  | reopening left' last' =>
    obtain ⟨rfl, rfl⟩ : left' = left ∧ last' = last := by simpa [hphase, Phase.tries?] using htries
    refine .inr ⟨f, ?_, hphase⟩
    rw [h.follow_eq (by simp [hphase]) now]
    simp [Listener.advance, h.follower, hphase]
  | reading | asking | resting | ending cause | done => simp [hphase, Phase.tries?] at htries

lemma Follows.attempts_ne_nil (h : Follows w f) (htries : f.phase.tries? = some (left + 1, last))
    (now : ℕ) (r : Report) : w.attempts [.follow now, .answer r] ≠ [] := by
  rcases h.asks_of_tries htries now with hattempt | ⟨g, hg, hphase⟩
  · obtain ⟨a, ha⟩ := Option.ne_none_iff_exists'.mp hattempt
    simp [attempts, ha]
  · obtain ⟨a, ha⟩ := Option.ne_none_iff_exists'.mp (attempt?_answer_ne_none hg hphase r)
    simp [attempts, ha]

lemma Follows.reattaches (h : Follows w f) {n : ℕ} {detected : Loss}
    (htries : f.phase.tries? = some (n, detected)) : Reattaches n detected w := by
  obtain ⟨p, hp⟩ : ∃ p, w.place? = some p := ⟨_, h.place?_eq⟩
  have hbegin : Trying w.place? n detected [] w :=
    .going (Nat.zero_le n) (by simpa [effort?, h.follower] using htries) rfl
  have hrun : ∀ moves losses, w.Fails moves losses →
      Trying w.place? n detected losses (w.run moves) := fun moves losses hfails =>
    hbegin.run h (by simp [hp]) hfails
  -- what an attempt finds that comes to its end after those have failed
  have htry : ∀ moves losses m a, w.Fails moves losses → (w.run moves).attempt? m = some a →
      ∃ g, Follows (w.run moves) g ∧ (w.run moves).place? = w.place? ∧
        Tries (w.run moves) g (n - losses.length) (detected.lastOf losses) m := by
    intro moves losses m a hfails hattempt
    obtain ⟨g, hg⟩ := h.run moves
    obtain ⟨-, hplace, hleft⟩ := (hrun moves losses hfails).effort_of_attempt hg hattempt
    exact ⟨g, hg, hplace, hg.tries hleft m⟩
  refine ⟨hrun, fun moves losses hfails hleft now r => ?_,
    fun moves losses hfails hspent now => ?_, fun moves losses m hfails hattempt => ?_,
    fun moves losses m reader hfails hattempt => ?_,
    fun moves losses m hfails hattempt => ?_⟩
  · obtain ⟨g, hg⟩ := h.run moves
    cases hrun moves losses hfails with
    | going _ heffort =>
      obtain ⟨left, hleft⟩ : ∃ left, n - losses.length = left + 1 :=
        ⟨n - losses.length - 1, by omega⟩
      have htries : g.phase.tries? = some (left + 1, detected.lastOf losses) := by
        simpa [effort?, hg.follower, hleft] using heffort
      exact hg.attempts_ne_nil htries now r
    | lost hspent => exact absurd hspent hleft.ne
  -- with the budget spent the next step ends the stream, unless it has ended
  · refine ⟨p, .lost (detected.lastOf losses), hp, ?_, Cause.message_lost_eq _⟩
    obtain ⟨g, hg⟩ := h.run moves
    cases hrun moves losses hfails with
    | going _ heffort hplace =>
      have hwaiting : g.phase = .waiting 0 (detected.lastOf losses) := by
        have htries : g.phase.tries? = some (0, detected.lastOf losses) := by
          simpa [effort?, hg.follower, hspent] using heffort
        cases hphase : g.phase <;> simp_all [Phase.tries?]
      rw [hp, hg.place?_eq, Option.some.injEq] at hplace
      rw [hg.follow_eq (by simp [hwaiting]) now]
      simp [Listener.advance, hg.follower, hwaiting, place?, Listener.endStream, World.state,
        ← hplace, hg.generation]
    | lost _ _ hplace =>
      rw [place?_of_dead hg.follower (Trying.dead_of_spent hg (by rw [hplace, hp]; rfl))
        (turn_apply hg.follower _), hplace, hp]
      rfl
  · obtain ⟨g, hg, hplace, htries⟩ := htry moves losses m _ hfails hattempt
    cases htries with
    | still h' | failed h' | opened h' | died h' | givesUp h' => simp [h'] at hattempt
    | stopped _ hsome hasked hturned =>
      exact ⟨by omega, hasked, (hturned.place?_eq hg.follower).trans hplace, hturned.effort?_eq⟩
  · obtain ⟨g, hg, hplace, htries⟩ := htry moves losses m _ hfails hattempt
    cases htries with
    | still h' | failed h' | stopped h' | died h' | givesUp h' => simp [h'] at hattempt
    | opened h' hsome hanswer hopens hfollower hstate hgeneration =>
      obtain rfl : _ = reader := by simpa [h'] using hattempt
      obtain ⟨file, start, hfind, hstart, hreader⟩ := Reader.openAt_eq hopens
      rw [hg.place?_eq, hp, Option.some.injEq] at hplace
      refine ⟨by omega, ?_, p, _, file, hp, hanswer, hfind, ?_, ?_⟩
      · simp [effort?, hfollower, Phase.tries?]
      · rw [hstart] at hreader
        simpa using hreader
      · simp [place?, hfollower, hstate, hgeneration, ← hplace]
  · obtain ⟨g, hg, hplace, htries⟩ := htry moves losses m _ hfails hattempt
    cases htries with
    | still h' | failed h' | stopped h' | opened h' | givesUp h' => simp [h'] at hattempt
    | died _ hsome hends =>
      rw [hp, hg.place?_eq, Option.some.injEq] at hplace
      refine ⟨by omega, p, hp, ?_⟩
      simp [hends, place?, Listener.endStream, World.state, ← hplace, hg.generation]

/-! ### Detections -/

lemma detection?_eq_some (hf : w.listener.follower = some f) {r : Rotation}
    (h : w.detection? m = some r) :
    (∃ now e, m = .follow now ∧ f.phase = .reading ∧ w.hand = none ∧ w.stopAsked = false ∧
      f.reader.next w.disk = .error e ∧ r = .unreadable e) ∨
    (∃ reported, m = .answer (.path reported) ∧ f.phase = .asking ∧
      f.reader.rotation w.disk reported = some r) := by
  cases m with
  | files | sweep | listen | drop | collect | requestStop | finishStop => simp [detection?] at h
  | follow now =>
    simp only [detection?, hf, Option.bind_eq_bind, Option.bind_some, Option.bind_eq_some_iff,
      Option.guard_eq_some'] at h
    obtain ⟨_, ⟨hphase, hhand, hasked⟩, hnext⟩ := h
    cases hread : f.reader.next w.disk with
    | ok x => simp [hread] at hnext
    | error e =>
      simp only [hread, Option.some.injEq] at hnext
      exact .inl ⟨now, e, rfl, hphase, hhand, hasked, rfl, hnext.symm⟩
  | answer report =>
    cases report with
    | died => simp [detection?] at h
    | path reported =>
      simp only [detection?, hf, Option.bind_eq_bind, Option.bind_some, Option.bind_eq_some_iff,
        Option.guard_eq_some'] at h
      obtain ⟨_, hphase, hrotation⟩ := h
      exact .inr ⟨reported, rfl, hphase, hrotation⟩

/-- **A detection sets out with the whole budget** and changes nothing yet. -/
lemma Follows.of_detection (h : Follows w f) {r : Rotation} (hdetection : w.detection? m = some r) :
    Turned w f m (.waiting f.budget (.rotated r)) := by
  rcases detection?_eq_some h.follower hdetection with
    ⟨now, e, rfl, hphase, hhand, hasked, hnext, rfl⟩ | ⟨reported, rfl, hphase, hrotation⟩
  · have hread : w.listener.readLine? w.disk = none := by
      simp [Listener.readLine?, h.follower, hphase, hnext]
    have hshutdown : w.listener.stream.shutdown = false := hasked
    refine ⟨?_, ?_, ?_⟩ <;>
      simp [World.apply, World.follow, hhand, hread, Listener.advance, h.follower, hphase,
        hshutdown, hnext, Listener.setFollower, World.state]
  · refine ⟨?_, ?_, ?_⟩ <;>
      simp [World.apply, Listener.answer, h.follower, hphase, hrotation, Listener.setFollower,
        World.state]

/-- Without a detection no effort begins. -/
lemma Follows.effort?_of_undetected (h : Follows w f) (htries : f.phase.tries? = none)
    (hdetection : w.detection? m = none) : (w.apply m).effort? = none := by
  have heffort : w.effort? = none := by simp [effort?, h.follower, htries]
  -- an effort begins with a step of the follower or with an answer to it
  have hothers : (∀ now, m ≠ .follow now) → (∀ r, m ≠ .answer r) → (w.apply m).effort? = none := by
    intro hfollow hanswer
    rw [effort?, (same_of_others hfollow hanswer).1, ← effort?, heffort]
  cases m with
  | files | sweep | listen | drop | collect | requestStop | finishStop =>
    exact hothers (by simp) (by simp)
  | answer r =>
    cases hphase : f.phase with
    | waiting | reopening => simp [hphase, Phase.tries?] at htries
    | reading | resting | ending | done =>
      simp [World.apply, Listener.answer, effort?, h.follower, hphase, Phase.tries?]
    | asking =>
      cases r with
      | died =>
        simp [World.apply, Listener.answer, effort?, h.follower, hphase, Listener.endStream,
          Phase.tries?]
      | path reported =>
        have hrotation : f.reader.rotation w.disk reported = none := by
          simpa [detection?, h.follower, hphase] using hdetection
        simp [World.apply, Listener.answer, effort?, h.follower, hphase, hrotation,
          Listener.setFollower, Phase.tries?]
  | follow now =>
    cases hhand : w.hand with
    | some x =>
      have hsame : (w.apply (.follow now)).effort? = w.effort? := by
        simp [World.apply, World.follow, hhand, effort?, setLedger]
      rw [hsame, heffort]
    | none =>
      cases hread : w.listener.readLine? w.disk with
      | some x =>
        obtain ⟨g, line⟩ := x
        obtain ⟨g', -, hphase, -, -, hg⟩ := Listener.readLine?_eq_some hread
        have hreading : g.phase = .reading := by rw [hg, hphase]
        simp [World.apply, World.follow, hhand, hread, effort?, Listener.setFollower, hreading,
          Phase.tries?]
      | none =>
        have hnext : w.apply (.follow now) =
            { w with listener := w.listener.advance w.disk now } := by
          simp only [World.apply, World.follow, hhand, hread]
        rw [hnext]
        cases hphase : f.phase with
        | waiting | reopening => simp [hphase, Phase.tries?] at htries
        | asking | resting | ending | done =>
          simp [Listener.advance, effort?, h.follower, hphase, Listener.setFollower, Phase.tries?]
        | reading =>
          cases hasked : w.listener.stream.shutdown with
          | true =>
            simp [Listener.advance, effort?, h.follower, hphase, hasked, Listener.endStream,
              Phase.tries?]
          | false =>
            -- a failure to read would be a detection, and a line would have been read
            rcases hline : f.reader.next w.disk with e | ⟨reader, line⟩
            · simp [detection?, h.follower, hphase, hhand, stopAsked, hasked, hline] at hdetection
            · cases line with
              | none =>
                simp [Listener.advance, effort?, h.follower, hphase, hasked, hline,
                  Listener.setFollower, Phase.tries?]
              | some line => simp [Listener.readLine?, h.follower, hphase, hasked, hline] at hread

lemma budget_turn {ops : List Ledger.Op} (hf : w.listener.follower = some f)
    (hturn : Turn w f m w' ops) : ∀ f' ∈ w'.listener.follower, f'.budget = f.budget := by
  intro f' hf'
  cases hturn with
  | still | files | calls | asksToStop | closesAgain | sends =>
    rw [Option.some.inj (hf.symm.trans hf')]
  | reads | reachesEnd | turns | reattaches | endsStream | closes =>
    rw [← Option.some.inj hf']

lemma Follows.attempts_of_undetected (h : Follows w f) (htries : f.phase.tries? = none)
    {moves : List Move} (hnone : w.detections moves = []) : w.attempts moves = [] := by
  induction moves generalizing w f with
  | nil => rfl
  | cons m moves ih =>
    obtain ⟨f', h'⟩ := h.apply m
    rw [detections, List.append_eq_nil_iff, Option.toList_eq_nil_iff] at hnone
    have hstill := h.effort?_of_undetected htries hnone.1
    have htries' : f'.phase.tries? = none := by simpa [effort?, h'.follower] using hstill
    rw [attempts, attempt?_eq_none h.follower htries, ih h' htries' hnone.2]
    rfl

lemma Follows.budget_run (h : Follows w f) (moves : List Move) :
    ∀ f' ∈ (w.run moves).listener.follower, f'.budget = f.budget := by
  induction moves generalizing w f with
  | nil =>
    intro f' hf'
    rw [Option.some.inj (h.follower.symm.trans hf')]
  | cons m moves ih =>
    obtain ⟨f₁, h₁⟩ := h.apply m
    intro f' hf'
    rw [ih h₁ f' hf']
    exact budget_turn h.follower (turn_apply h.follower m) f₁ h₁.follower

/-- **A listener goes on with its log within its budget, and wholly or not at all.** At every moment
of every run of an attached listener: while the follower is at work others are shown the path and
the generation that it has itself. Whenever it detects that its file is no longer the log, all
attempts of the budget lie before it and nothing has changed yet; each ends as `Reattaches` says;
and while nothing is detected no attempt is made. -/
theorem reattaches_within_budget {d : Disk} {s : Settings} {alive : Bool}
    {reported : Option String} {l : Listener}
    (hattach : Listener.attach d s alive reported = .ok l) (moves : List Move) :
    let w := (begin d l).run moves
    (∀ f ∈ w.listener.follower, f.phase.isLive = true →
      w.state = .attached f.reader.path ∧ w.listener.stream.generation = f.generation) ∧
    (∀ m rotation, w.detection? m = some rotation →
      (w.apply m).place? = w.place? ∧ Reattaches s.attempts (.rotated rotation) (w.apply m)) ∧
    (w.effort? = none → ∀ more, w.detections more = [] → w.attempts more = []) := by
  intro w
  obtain ⟨f₀, h₀⟩ := follows_begin hattach
  obtain ⟨f, hf⟩ : ∃ f, Follows w f := h₀.run moves
  have hbudget : f.budget = s.attempts := by
    obtain ⟨path, reader, -, -, rfl⟩ := Listener.attach_eq hattach
    rw [h₀.budget_run moves f hf.follower, ← Option.some.inj h₀.follower]
  refine ⟨fun g hg hlive => ?_, fun m rotation hdetection => ?_, fun hidle more hnone => ?_⟩
  · obtain rfl := Option.some.inj (hf.follower.symm.trans hg)
    exact ⟨(hf.stands.of_live hlive).1, hf.generation⟩
  · have hturned := hf.of_detection hdetection
    obtain ⟨g, hg⟩ := hf.apply m
    refine ⟨hturned.place?_eq hf.follower, hg.reattaches ?_⟩
    rw [← Option.some.inj (hturned.follower.symm.trans hg.follower), ← hbudget]
    rfl
  · exact hf.attempts_of_undetected (by simpa [effort?, hf.follower] using hidle) hnone

end World

/-- A listener at the start of an empty log whose follower has two attempts. -/
def Listener.twice : Listener :=
  ⟨.standard, .fresh, ⟨.attached "log", 0, false⟩, some ⟨⟨"log", 2, 0, [], 0, []⟩, 0, 2, .reading⟩⟩

/-- The node names a log that is not there, and a first attempt to open it fails. -/
def Move.firstFailing : List Move := [.follow 1, .answer (.path (some "new"))]

namespace World

/-- A second attempt opens the log that the node names then; or it fails too, and its loss is the
one that is named. -/
theorem reattaches_at_second_attempt :
    let v := ((begin (.withLog "") .twice).run [.follow 0]).apply (.answer (.path (some "new")))
    ((v.run (Move.firstFailing ++ [.follow 2])).apply (.answer (.path (some "log")))).place? =
      some ⟨⟨"log", 2, 0, [], 0, []⟩, 1, .attached "log", 1⟩ ∧
    ∃ p, ((v.run (Move.firstFailing ++ [.follow 2, .answer (.path none)])).apply
        (.follow 3)).place? = some p ∧
      ∃ cause, p.state = .failed cause ∧
        cause.message = "Log file not found! (node reports no log file)" := by
  intro v
  have hattach : Listener.attach (.withLog "") { Settings.standard with attempts := 2 } true
    (some "log") = .ok .twice := by decide +kernel
  obtain ⟨-, hdetects, -⟩ := reattaches_within_budget hattach [.follow 0]
  obtain ⟨hplace, hreattaches⟩ := hdetects (.answer (.path (some "new"))) (.moved "new")
    (by decide +kernel)
  constructor
  · obtain ⟨-, -, p, path, file, hp, hanswer, -, -, hnext⟩ := hreattaches.opened
      (Move.firstFailing ++ [.follow 2]) [.unopened "new" .notFound] (.answer (.path (some "log")))
      ⟨"log", 2, 0, [], 0, []⟩ (by unfold Fails; decide +kernel) (by decide +kernel)
    have hbefore : v.place? =
        some ⟨⟨"log", 2, 0, [], 0, []⟩, 0, .attached "log", 0⟩ := by decide +kernel
    obtain rfl := Option.some.inj (hp.symm.trans hbefore)
    obtain rfl : "log" = path := by simpa using hanswer
    exact hnext
  · obtain ⟨p, cause, -, hnext, hmessage⟩ := hreattaches.givesUp
      (Move.firstFailing ++ [.follow 2, .answer (.path none)])
      [.unopened "new" .notFound, .unreported] (by unfold Fails; decide +kernel) rfl 3
    exact ⟨_, hnext, cause, rfl, hmessage⟩

end World

end LogWatch
