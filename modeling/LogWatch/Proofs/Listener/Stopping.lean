import Mathlib
import LogWatch.Listener.Follower

/-!
How a stop comes to its end.

A follower that was asked to stop takes at most three more steps by itself, unless it asks the node
first; then it takes them after the answer. So to stop a listener, with whatever answer, leaves
none of its requests waiting.
-/

namespace LogWatch

namespace Phase

/-- How many steps a follower that is to stop still takes by itself. -/
def stepsLeft : Phase → ℕ
  | resting | waiting (_ + 1) _ => 3
  | reading | waiting 0 _ => 2
  | ending _ => 1
  | asking | reopening _ _ | done => 0

lemma stepsLeft_le (phase : Phase) : phase.stepsLeft ≤ 3 := by
  unfold stepsLeft
  split <;> omega

lemma stepsLeft_pos {phase : Phase} (h : phase.isMoving = true) : 0 < phase.stepsLeft := by
  cases phase with
  | waiting left last => cases left <;> exact Nat.succ_pos _
  | reading | resting | ending cause => exact Nat.succ_pos _
  | asking | reopening left last | done => simp [isMoving] at h

end Phase

namespace Listener

variable {d : Disk} {now : ℕ} {l : Listener} {f : Follower}

/-- A follower that is to stop does so within a few steps, unless it has to ask before. -/
def Halting (l : Listener) (n : ℕ) : Prop :=
  ∃ f, l.follower = some f ∧ l.stream.shutdown = true ∧ f.phase.stepsLeft ≤ n ∧
    (f.phase.isMoving = true ∨ f.phase = .done)

lemma Halting.advance {n : ℕ} (h : Halting l (n + 1)) (hmoving : l.isMoving = true) (d : Disk)
    (now : ℕ) : Halting (l.advance d now) n := by
  obtain ⟨f, hf, hshutdown, hsteps, -⟩ := h
  simp only [isMoving, hf, Option.any_some] at hmoving
  simp only [Listener.advance, hf]
  -- with the flag set every step is one towards the end
  cases hphase : f.phase with
  | reading =>
    rw [hphase] at hsteps
    simp only [hshutdown, if_true]
    exact ⟨_, rfl, hshutdown, Nat.le_of_succ_le_succ hsteps, .inl rfl⟩
  | resting =>
    rw [hphase] at hsteps
    exact ⟨_, rfl, hshutdown, Nat.le_of_succ_le_succ hsteps, .inl rfl⟩
  | waiting left last =>
    cases left with
    | zero =>
      rw [hphase] at hsteps
      exact ⟨_, rfl, hshutdown, Nat.le_of_succ_le_succ hsteps, .inl rfl⟩
    | succ left =>
      rw [hphase] at hsteps
      simp only [hshutdown, if_true]
      exact ⟨_, rfl, hshutdown, Nat.le_of_succ_le_succ hsteps, .inl rfl⟩
  | ending cause => exact ⟨_, rfl, hshutdown, Nat.zero_le _, .inr rfl⟩
  | asking | reopening left last | done => simp [hphase, Phase.isMoving] at hmoving

lemma Halting.advanceBy {n : ℕ} (h : Halting l n) (d : Disk) (now : ℕ) :
    (l.advanceBy d now n).isFollowing = false := by
  induction n generalizing l with
  | zero =>
    obtain ⟨f, hf, -, hsteps, hmoving | hdone⟩ := h
    · have hpos := Phase.stepsLeft_pos hmoving
      omega
    · simp [Listener.advanceBy, isFollowing, hf, hdone]
  | succ n ih =>
    rw [Listener.advanceBy]
    split
    · rename_i hmoving
      exact ih (h.advance hmoving d now)
    · rename_i hstill
      obtain ⟨f, hf, -, -, hmoving | hdone⟩ := h
      · simp [isMoving, hf, hmoving] at hstill
      · simp [isFollowing, hf, hdone]

lemma Halting.untilAsks (h : Halting l 3) (d : Disk) (now : ℕ) :
    (l.untilAsks d now).isFollowing = false := by
  refine Halting.advanceBy ?_ d now
  obtain ⟨f, hf, hshutdown, hsteps, hphase⟩ := h
  refine ⟨f, hf, hshutdown, ?_, hphase⟩
  simp only [stepsAhead, hf]
  omega

lemma advanceBy_of_still (h : l.isMoving = false) (d : Disk) (now n : ℕ) :
    l.advanceBy d now n = l := by
  cases n with
  | zero => rfl
  | succ n => rw [Listener.advanceBy, if_neg (by simp [h])]

lemma resume_of_over (h : l.isFollowing = false) (d : Disk) (now : ℕ) (r : Report) :
    l.resume d now r = l := by
  cases hf : l.follower with
  | none =>
    have hanswer : l.answer d r = l := by simp only [answer, hf]
    rw [resume, hanswer, untilAsks, advanceBy_of_still (by simp [isMoving, hf])]
  | some f =>
    have hdone : f.phase = .done := by simpa [isFollowing, hf] using h
    have hanswer : l.answer d r = l := by
      cases r <;> simp only [answer, hf, hdone]
    rw [resume, hanswer, untilAsks,
      advanceBy_of_still (by simp [isMoving, hf, hdone, Phase.isMoving])]

lemma halting_answer (hf : l.follower = some f) (hasks : f.phase.asks = true)
    (hshutdown : l.stream.shutdown = true) (d : Disk) (r : Report) :
    Halting (l.answer d r) 3 := by
  -- an answer sets the follower in motion, and then three steps are enough from any phase
  suffices h : ∃ f', (l.answer d r).follower = some f' ∧
      (l.answer d r).stream.shutdown = true ∧ f'.phase.isMoving = true by
    obtain ⟨f', hf', hshutdown', hmoving⟩ := h
    exact ⟨f', hf', hshutdown', Phase.stepsLeft_le _, .inl hmoving⟩
  simp only [answer, hf]
  cases hphase : f.phase with
  | asking =>
    cases r with
    | died => exact ⟨_, rfl, hshutdown, rfl⟩
    | path reported =>
      cases hrotation : f.reader.rotation d reported with
      | none | some rotation =>
        simp only [hrotation]
        exact ⟨_, rfl, hshutdown, rfl⟩
  | reopening left last =>
    cases r with
    | died => exact ⟨_, rfl, hshutdown, rfl⟩
    | path reported =>
      cases reported with
      | none => exact ⟨_, rfl, hshutdown, rfl⟩
      | some path =>
        cases hopen : Reader.openAt d path false with
        | error e | ok reader =>
          simp only [hopen]
          exact ⟨_, rfl, hshutdown, rfl⟩
  | reading | resting | waiting left last | ending cause | done =>
    simp [hphase, Phase.asks] at hasks

lemma isFollowing_stop (d : Disk) (now : ℕ) (r : Report) (l : Listener) :
    (l.stop d now r).isFollowing = false := by
  rw [stop]
  split
  · rename_i hfollowing
    obtain ⟨f, hf⟩ : ∃ f, l.follower = some f := by
      cases hf : l.follower with
      | none => simp [isFollowing, hf] at hfollowing
      | some f => exact ⟨f, rfl⟩
    change ((l.requestStop.untilAsks d now).resume d now r).isFollowing = false
    -- a follower that moves comes to its end before it could ask; any other is asking now
    cases hmoving : f.phase.isMoving with
    | true =>
      have hhalting : Halting l.requestStop 3 :=
        ⟨f, hf, rfl, Phase.stepsLeft_le _, .inl hmoving⟩
      have hover := hhalting.untilAsks d now
      rwa [resume_of_over hover]
    | false =>
      have hsame : l.requestStop.untilAsks d now = l.requestStop :=
        advanceBy_of_still (by simp [isMoving, requestStop, hf, hmoving]) d now _
      rw [hsame]
      refine (halting_answer (l := l.requestStop) hf ?_ rfl d r).untilAsks d now
      have hlive : f.phase ≠ .done := by simpa [isFollowing, hf] using hfollowing
      cases hphase : f.phase <;> simp [hphase, Phase.isMoving, Phase.asks] at hmoving hlive ⊢
  · rename_i hidle
    simpa using hidle

lemma ledger_stop (h : l.isFollowing = true) (d : Disk) (now : ℕ) (r : Report) :
    (l.stop d now r).ledger.closed = true ∧ (l.stop d now r).ledger.pending = [] := by
  rw [stop, if_pos h]
  exact ⟨rfl, rfl⟩

end Listener
end LogWatch
