import Mathlib
import LogWatch.Proofs.Listener.Chapters
import LogWatch.Proofs.Request.Skipped

/-!
Each line that is dispatched ends later than the one before, whatever happens to the files.

A reader only goes forward, whether its file grows, is cut or is written anew, and every file that
is opened later has a later number. So a mark at the end of the last line dispatched is never
passed by the line in the hand of the follower or by its reader. A request has such a mark too, the
start that it was made with, and skips lines only until they come past it.
-/

namespace LogWatch

/-! ### A reader goes forward -/

namespace Reader

variable {d : Disk} {r r' : Reader}

lemma nextRaw_offset {raw : Option Bytes} (h : r.nextRaw d = .ok (r', raw)) :
    r.offset ≤ r'.offset ∧ ∀ line ∈ raw, r.offset < r'.consumed := by
  unfold nextRaw at h
  -- a line in the buffer leaves the offset alone, and bytes of the file only add to it
  split at h
  · rename_i line rest hcut
    obtain ⟨-, start, rfl, -⟩ := cutLine_eq_some hcut
    obtain ⟨rfl, rfl⟩ := Prod.mk.inj (Except.ok.inj h)
    simp [consumed]
  · split at h
    · simp at h
    · dsimp only at h
      split at h
      · rename_i line rest hcut
        obtain ⟨-, start, rfl, -⟩ := cutLine_eq_some hcut
        obtain ⟨rfl, rfl⟩ := Prod.mk.inj (Except.ok.inj h)
        refine ⟨?_, fun raw _ => ?_⟩
        · simp only [List.length_append, List.length_singleton]
          omega
        · simp only [consumed, List.length_append, List.length_singleton, List.length_nil]
          omega
      · obtain ⟨rfl, rfl⟩ := Prod.mk.inj (Except.ok.inj h)
        refine ⟨?_, by simp⟩
        rw [Nat.add_assoc]
        exact Nat.le_add_right _ _

lemma next_offset {line : Option String} (h : r.next d = .ok (r', line)) :
    r.offset ≤ r'.offset ∧ (line ≠ none → r.offset < r'.consumed) := by
  obtain ⟨raw, hraw, rfl⟩ := next_eq_ok.mp h
  obtain ⟨hforward, hline⟩ := nextRaw_offset hraw
  refine ⟨hforward, fun hsome => ?_⟩
  cases raw with
  | none => exact absurd rfl hsome
  | some raw => exact hline raw rfl

end Reader

/-- How far a follower has read in the log. -/
def Follower.place (f : Follower) : Position := ⟨f.generation, f.reader.offset⟩

namespace World

/-! ### A mark that is never passed -/

/-- All that is yet to be dispatched ends past the mark. -/
structure Beyond (mark : Position) (w : World) (f : Follower) : Prop where
  follows : Follows w f
  reader : mark ≤ f.place
  hand : ∀ x ∈ w.hand, mark < x.2 ∧ x.2 ≤ f.place

variable {w w' : World} {f f' : Follower} {m : Move} {mark : Position} {ops : List Ledger.Op}

lemma Beyond.of_same (h : Beyond mark w f) (hfollows : Follows w' f') (hplace : f'.place = f.place)
    (hhand : w'.hand = w.hand) : Beyond mark w' f' := by
  refine ⟨hfollows, hplace ▸ h.reader, ?_⟩
  rw [hhand, hplace]
  exact h.hand

lemma Beyond.of_idle (hfollows : Follows w f) (hreader : mark ≤ f.place) (hhand : w.hand = none) :
    Beyond mark w f := by
  refine ⟨hfollows, hreader, ?_⟩
  rw [hhand]
  simp

/-- A turn dispatches no line and keeps the mark, or it dispatches one past it, which is the mark
from then on. -/
lemma Beyond.turn (h : Beyond mark w f) (hturn : Turn w f m w' ops) :
    ∃ f', (ops.filterMap Ledger.Op.line? = [] ∧ Beyond mark w' f') ∨
      ∃ x, ops.filterMap Ledger.Op.line? = [x] ∧ mark < x.2 ∧ Beyond x.2 w' f' := by
  obtain ⟨f', hfollows⟩ := h.follows.turn hturn
  have hf := h.follows.follower
  have hf' := hfollows.follower
  refine ⟨f', ?_⟩
  cases hturn with
  | still | files | asksToStop | closesAgain =>
    obtain rfl := Option.some.inj (hf.symm.trans hf')
    exact .inl ⟨rfl, h.of_same hfollows rfl rfl⟩
  | calls op hcalm =>
    obtain rfl := Option.some.inj (hf.symm.trans hf')
    refine .inl ⟨?_, h.of_same hfollows rfl rfl⟩
    rw [List.filterMap_cons_none (line?_of_calm hcalm), List.filterMap_nil]
  | turns phase ops _ _ _ _ _ hcalm =>
    obtain rfl := Option.some.inj hf'
    refine .inl ⟨?_, h.of_same hfollows rfl rfl⟩
    exact List.filterMap_eq_nil_iff.mpr fun op hop => line?_of_calm (hcalm op hop)
  | endsStream | closes =>
    obtain rfl := Option.some.inj hf'
    exact .inl ⟨rfl, h.of_same hfollows rfl rfl⟩
  | sends now hhand =>
    obtain rfl := Option.some.inj (hf.symm.trans hf')
    obtain ⟨hlt, hle⟩ := h.hand _ hhand
    exact .inr ⟨_, rfl, hlt, .of_idle hfollows hle rfl⟩
  -- the line in the hand ends past the mark, which moves when it is dispatched
  | reads now hhand hphase hnext =>
    obtain rfl := Option.some.inj hf'
    obtain ⟨hforward, hline⟩ := Reader.next_offset hnext
    have hmark := h.reader
    refine .inl ⟨rfl, hfollows, ?_, fun x hx => ?_⟩
    · rw [Position.le_def] at *
      simp only [Follower.place] at *
      omega
    · obtain rfl := Option.some.inj hx
      have hlt := hline (by simp)
      refine ⟨?_, .inr ⟨rfl, Nat.sub_le _ _⟩⟩
      rw [Position.le_def] at hmark
      rw [Position.lt_def]
      simp only [Follower.place] at *
      omega
  | reachesEnd now hhand hphase hnext =>
    obtain rfl := Option.some.inj hf'
    obtain ⟨hforward, -⟩ := Reader.next_offset hnext
    have hmark := h.reader
    refine .inl ⟨rfl, .of_idle hfollows ?_ hhand⟩
    rw [Position.le_def] at *
    simp only [Follower.place] at *
    omega
  | reattaches hphase hopened =>
    obtain ⟨left, last, hphase⟩ := hphase
    obtain rfl := Option.some.inj hf'
    have hmark := h.reader
    refine .inl ⟨rfl, .of_idle hfollows ?_ (h.follows.idle (by simp [hphase]))⟩
    -- the new file is read from its top, but it has a later number
    rw [Position.le_def] at *
    simp only [Follower.place] at *
    omega

lemma dispatched_cons (w : World) (m : Move) (moves : List Move) :
    w.dispatched (m :: moves) =
      (w.opsOf m).filterMap Ledger.Op.line? ++ (w.apply m).dispatched moves := by
  simp only [dispatched, ops, List.filterMap_append]

lemma Beyond.dispatched (h : Beyond mark w f) (moves : List Move) :
    (∀ x ∈ w.dispatched moves, mark < x.2) ∧ (w.dispatched moves).Pairwise (·.2 < ·.2) := by
  induction moves generalizing w f mark with
  | nil => exact ⟨by simp [World.dispatched, World.ops], .nil⟩
  | cons m moves ih =>
    rw [dispatched_cons]
    obtain ⟨f', ⟨hnone, h'⟩ | ⟨x, hone, hlt, h'⟩⟩ := h.turn (turn_apply h.follows.follower m)
    · rw [hnone]
      exact ih h'
    · obtain ⟨hpast, hordered⟩ := ih h'
      rw [hone]
      refine ⟨fun y hy => ?_, List.pairwise_cons.mpr ⟨hpast, hordered⟩⟩
      rcases List.mem_cons.mp hy with rfl | hy
      · exact hlt
      · exact Position.lt_trans hlt (hpast y hy)

lemma Beyond.run (h : Beyond mark w f) (moves : List Move) :
    ∃ mark' f', Beyond mark' (w.run moves) f' := by
  induction moves generalizing w f mark with
  | nil => exact ⟨mark, f, h⟩
  | cons m moves ih =>
    obtain ⟨f', ⟨-, h'⟩ | ⟨x, -, -, h'⟩⟩ := h.turn (turn_apply h.follows.follower m)
    · exact ih h'
    · exact ih h'

lemma beyond_begin {d : Disk} {s : Settings} {alive : Bool} {reported : Option String}
    {l : Listener} (h : Listener.attach d s alive reported = .ok l) :
    ∃ f, Beyond .zero (begin d l) f := by
  obtain ⟨f, hfollows⟩ := follows_begin h
  refine ⟨f, .of_idle hfollows ?_ rfl⟩
  rw [Position.le_def]
  simp only [Position.zero, Follower.place]
  omega

/-! ### What a request skips -/

/-- Enters a request with this start. -/
def enroll (w : World) (e : Event) (deadline : Option ℕ) (start : Option Position) : World :=
  w.setLedger (w.listener.ledger.apply (.register e deadline start))

/-- The lines, with their ends, that the request numbered `id` skips in a run, in order. -/
def skippedBy (w : World) (id : ℕ) (moves : List Move) : List (String × Position) :=
  w.listener.ledger.skippedBy id (w.ops moves)

/-- A request skips an initial stretch of the lines that come, of lines that end by its start.
While it is pending it is shown all the lines after those; and once it was shown one, or one of a
later file than that of its start has come, it skips no more. -/
structure SkipsFirst (w : World) (id : ℕ) (start : Option Position) (moves : List Move) :
    Prop where
  inOrder : w.skippedBy id moves <+: w.dispatched moves
  written : ∀ x ∈ w.skippedBy id moves, ∃ s ∈ start, x.2 ≤ s
  rest : (∃ r ∈ (w.run moves).ledger.pending, r.id = id) →
    ∃ rest, w.dispatched moves = w.skippedBy id moves ++ rest ∧
      w.shownTo id moves = rest.map Prod.fst
  finished : ∀ first later, moves = first ++ later →
    (w.shownTo id first ≠ [] ∨
      ∃ x ∈ w.dispatched first, ∀ s ∈ start, s.generation < x.2.generation) →
    (w.run first).skippedBy id later = []

lemma Beyond.enroll (h : Beyond mark w f) (e : Event) (deadline : Option ℕ)
    (start : Option Position) : ∃ f', Beyond mark (w.enroll e deadline start) f' := by
  have hturn : Turn w f .requestStop (w.enroll e deadline start) [.register e deadline start] :=
    .calls (.register e deadline start) rfl (fun _ h => by cases h)
  obtain ⟨f', ⟨-, h'⟩ | ⟨x, hone, -⟩⟩ := h.turn hturn
  · exact ⟨f', h'⟩
  · cases hone

lemma Beyond.skipsFirst (h : Beyond mark w f) (hs : w.ledger.Sound) {id : ℕ}
    {start : Option Position} (hmade : w.ledger.MadeAt id start) (moves : List Move) :
    w.SkipsFirst id start moves := by
  have hlines := (h.dispatched moves).2
  refine ⟨hmade.skippedBy_isPrefix hs hlines, fun x hx => ?_, fun hpending => ?_,
    fun first later hmoves hcame => ?_⟩
  · have hwritten := hmade.isWritten_of_skipped x hx
    rw [Position.isWritten, Option.any_eq_true] at hwritten
    simpa using hwritten
  · rw [ledger, ledger_run] at hpending
    exact hmade.shownTo_eq hs hlines hpending
  · have hunwritten : ∃ x ∈ w.dispatched first, x.2.isWritten start = false := by
      rcases hcame with hshown | ⟨x, hx, hgeneration⟩
      · exact hmade.exists_unwritten_of_shown hshown
      · refine ⟨x, hx, ?_⟩
        -- a line of a later file had not been written when the request was made
        cases start with
        | none => rfl
        | some s => exact Position.not_isWritten_of_generation (hgeneration s rfl)
    rw [hmoves, World.dispatched, ops_append] at hlines
    rw [skippedBy, ledger_run]
    exact hmade.skippedBy_run_eq_nil hs hlines hunwritten

/-- **Each line that is dispatched ends later than the one before, and a request skips lines only
at first.** The files may grow, be cut, be written anew or be replaced at any moment, and the
follower may go on with other files as often as it likes; the request may be entered at any moment
and with any start. -/
theorem dispatched_increasing_skips_first {d : Disk} {s : Settings} {alive : Bool}
    {reported : Option String} {l : Listener}
    (hattach : Listener.attach d s alive reported = .ok l) :
    (∀ moves, ((begin d l).dispatched moves).Pairwise (·.2 < ·.2)) ∧
      ∀ before after e deadline start id,
        (((begin d l).run before).ledger.register e deadline start).2 = some id →
          (((begin d l).run before).enroll e deadline start).SkipsFirst id start after := by
  obtain ⟨f, hbegin⟩ := beyond_begin hattach
  refine ⟨fun moves => (hbegin.dispatched moves).2, fun before after e deadline start id hid => ?_⟩
  obtain ⟨mark, f', hbefore⟩ := hbegin.run before
  obtain ⟨f'', henrolled⟩ := hbefore.enroll e deadline start
  have hsound : ((begin d l).run before).ledger.Sound := by
    refine sound_run ?_ before
    obtain ⟨path, reader, -, -, rfl⟩ := Listener.attach_eq hattach
    exact Ledger.Sound.fresh
  exact henrolled.skipsFirst (hsound.apply (.register e deadline start)) (hsound.madeAt hid) after

end World

/-- A line is read and its file emptied; the file comes to have more than that, and goes on. -/
def Move.rewriting : List Move :=
  [.files (.withLog "a\n"), .follow 0, .files (.withLog ""), .follow 1, .follow 2,
    .files (.withLog "b\nb\nb\n"), .answer (.path (some "log")), .follow 3, .follow 4, .follow 5,
    .follow 6, .follow 7]

namespace World

theorem dispatched_increasing_rewritten :
    ∃ w, w = (begin (.withLog "") (.atEnd 0)).enroll (.pattern "b") none (some ⟨0, 4⟩) ∧
      w.SkipsFirst 0 (some ⟨0, 4⟩) Move.rewriting ∧
      w.skippedBy 0 Move.rewriting = [("a", ⟨0, 2⟩), ("b", ⟨0, 4⟩)] ∧
      w.dispatched Move.rewriting = [("a", ⟨0, 2⟩), ("b", ⟨0, 4⟩), ("b", ⟨0, 6⟩)] := by
  have hattach : Listener.attach (.withLog "") .standard true (some "log") = .ok (.atEnd 0) := rfl
  refine ⟨_, rfl, ?_, ?_, ?_⟩
  · exact (dispatched_increasing_skips_first hattach).2 [] Move.rewriting (.pattern "b") none
      (some ⟨0, 4⟩) 0 rfl
  · decide +kernel
  · decide +kernel

end World

end LogWatch
