import Mathlib
import LogWatch.Proofs.Listener.World
import LogWatch.Proofs.LogFile.Growth

/-!
A listener on a log that only grows.

Nobody takes the log away, the node goes on reporting it, and the listener is not stopped. Then the
follower keeps its first file for good and dispatches the lines of what was written after it was
attached. A request gets to see those that were not completely written when it was made, whoever
did what in between.
-/

namespace LogWatch

/-- The node reports the path, however it is spelled, or none. -/
def Report.Stays (path : String) : Report → Prop
  | .path reported => ∀ p ∈ reported, Path.parts p = Path.parts path
  | .died => False

/-- Whether a follower goes on with the file that it holds. -/
def Phase.keeps : Phase → Bool
  | reading | asking | resting => true
  | waiting _ _ | reopening _ _ | ending _ | done => false

namespace Move

/-- A move that leaves the log in its place or lets it grow, and does not stop the listener. -/
def Steady (path : String) (d : Disk) : Move → Prop
  | .files next => d.Grows path next
  | .answer r => r.Stays path
  | .requestStop | .finishStop => False
  | .follow _ | .sweep _ | .listen _ _ _ | .drop _ | .collect _ => True

/-- What the clock shows to the follower. -/
def clock? : Move → Option ℕ
  | .follow now | .sweep now => some now
  | _ => none

end Move

/-- The line as it is dispatched from a file that was opened so many files after the first. -/
def LogLine.placed (generation : ℕ) (x : LogLine) : String × Position :=
  (x.text, ⟨generation, x.stop⟩)

lemma LogLine.placed_injective (generation : ℕ) :
    Function.Injective (LogLine.placed generation) := by
  rintro ⟨text, stop⟩ ⟨text', stop'⟩ h
  simp only [placed, Prod.mk.injEq, Position.mk.injEq, true_and] at h
  obtain ⟨rfl, rfl⟩ := h
  rfl

/-- How a request for the event ends if its log had `start` bytes when the listener was attached,
`written` bytes when the request was entered, and has `bytes` in the end. -/
def Event.verdictOn (e : Event) (start written : ℕ) (bytes : Bytes) : Option Outcome :=
  e.verdict (((linesFrom start bytes).filter (written < ·.stop)).map (·.text))

namespace World

def Steady (path : String) (w : World) : List Move → Prop
  | [] => True
  | m :: moves => m.Steady path w.disk ∧ (w.apply m).Steady path moves

lemma steady_append {path : String} {w : World} {moves more : List Move} :
    w.Steady path (moves ++ more) ↔ w.Steady path moves ∧ (w.run moves).Steady path more := by
  induction moves generalizing w with
  | nil => simp [Steady]
  | cons m moves ih => simp only [List.cons_append, Steady, run_cons, ih, and_assoc]

/-! ### The follower of a log that only grows -/

/-- The log had `start` bytes when the listener was attached and has `bytes` now; the follower `f`
still reads it, has dispatched `lines` and has `hand` in its hand. -/
structure Tails (path : String) (file start : ℕ) (w : World) (f : Follower)
    (hand : Option LogLine) (lines : List LogLine) (bytes : Bytes) : Prop where
  log : w.disk.HasLog path file bytes
  stream : w.listener.stream = ⟨.attached path, 0, false⟩
  follower : w.listener.follower = some f
  generation : f.generation = 0
  keeps : f.phase.keeps = true
  path_eq : f.reader.path = path
  file_eq : f.reader.file = file
  hand_eq : w.hand = hand.map (LogLine.placed 0)
  inStep : Reader.InStep start f.reader bytes (lines ++ hand.toList)

variable {path : String} {file start : ℕ} {w : World} {f : Follower} {hand : Option LogLine}
  {lines : List LogLine} {bytes : Bytes}

lemma tails_begin {d : Disk} {s : Settings} {alive : Bool} {l : Listener}
    (hlog : d.HasLog path file bytes) (hattach : Listener.attach d s alive (some path) = .ok l) :
    l.ledger = .fresh ∧ ∃ f, Tails path file bytes.length (begin d l) f none [] bytes := by
  obtain ⟨r, hopen, hpath, hfile, hstep⟩ := Reader.openAt_end hlog
  unfold Listener.attach at hattach
  split at hattach
  · simp at hattach
  · simp at hattach
  · simp at hattach
  · rename_i path' heq
    obtain rfl := Option.some.inj heq
    rw [hopen] at hattach
    obtain rfl := Except.ok.inj hattach
    exact ⟨rfl, _, hlog, rfl, rfl, rfl, rfl, hpath, hfile, rfl, hstep⟩

lemma Tails.reader_log (h : Tails path file start w f hand lines bytes) :
    w.disk.HasLog f.reader.path f.reader.file bytes := by
  rw [h.path_eq, h.file_eq]
  exact h.log

lemma Tails.stop_le (h : Tails path file start w f hand lines bytes) :
    ∀ x ∈ lines, x.stop ≤ bytes.length := fun x hx =>
  (h.inStep.stop_le x (List.mem_append_left _ hx)).trans h.inStep.offset_le

lemma Tails.lines_prefix (h : Tails path file start w f hand lines bytes) :
    lines <+: linesFrom start bytes :=
  (List.prefix_append _ _).trans h.inStep.done_prefix

lemma Tails.rotation_eq_none (h : Tails path file start w f hand lines bytes)
    {reported : Option String} (hreported : (Report.path reported).Stays path) :
    f.reader.rotation w.disk reported = none :=
  Reader.rotation_eq_none h.inStep h.reader_log (by rw [h.path_eq]; exact hreported)

lemma Tails.writePosition_eq (h : Tails path file start w f hand lines bytes) :
    w.listener.writePosition w.disk = some ⟨0, bytes.length⟩ := by
  simp [Listener.writePosition, h.stream, h.log.1, h.log.size_eq]

/-! ### Each move keeps to the log -/

/-- A world further on: more lines were sent, and the log may have grown. -/
def Goes (path : String) (file start : ℕ) (lines : List LogLine) (bytes : Bytes) (w' : World)
    (sent : List (String × Position)) : Prop :=
  ∃ f hand more bytes', Tails path file start w' f hand (lines ++ more) bytes' ∧
    bytes <+: bytes' ∧ sent = more.map (LogLine.placed 0)

lemma Tails.goes_silent {w' : World} (f' : Follower) (hand' : Option LogLine)
    (h : Tails path file start w' f' hand' lines bytes) :
    Goes path file start lines bytes w' [] :=
  ⟨f', hand', [], bytes, by rwa [List.append_nil], List.prefix_rfl, rfl⟩

lemma Tails.files (h : Tails path file start w f hand lines bytes) {next : Disk}
    (hgrows : w.disk.Grows path next) :
    Goes path file start lines bytes { w with disk := next } [] := by
  obtain ⟨more, hlog⟩ := hgrows file bytes h.log
  refine ⟨f, hand, [], bytes ++ more, ?_, List.prefix_append _ _, rfl⟩
  rw [List.append_nil]
  exact ⟨hlog, h.stream, h.follower, h.generation, h.keeps, h.path_eq, h.file_eq, h.hand_eq,
    h.inStep.append more⟩

lemma Tails.answer (h : Tails path file start w f hand lines bytes) {r : Report}
    (hstays : r.Stays path) :
    Goes path file start lines bytes { w with listener := w.listener.answer w.disk r } [] := by
  cases r with
  | died => exact hstays.elim
  | path reported =>
    have hnone := h.rotation_eq_none hstays
    cases hphase : f.phase with
    | asking =>
      refine Tails.goes_silent { f with phase := .resting } hand ?_
      simp only [Listener.answer, h.follower, hphase, hnone, Listener.setFollower]
      exact ⟨h.log, h.stream, rfl, h.generation, rfl, h.path_eq, h.file_eq, h.hand_eq, h.inStep⟩
    | reading | resting =>
      refine Tails.goes_silent f hand ?_
      simp only [Listener.answer, h.follower, hphase]
      exact h
    | waiting left last | reopening left last | ending cause | done =>
      exact absurd h.keeps (by simp [Phase.keeps, hphase])

lemma Tails.dispatch {x : LogLine} (h : Tails path file start w f (some x) lines bytes) (now : ℕ) :
    Goes path file start lines bytes (w.follow now) [x.placed 0] ∧
      w.followOps now = [.dispatch now x.text ⟨0, x.stop⟩] := by
  have hhand : w.hand = some (x.text, ⟨0, x.stop⟩) := h.hand_eq
  simp only [follow, followOps, hhand, and_true]
  refine ⟨f, none, [x], bytes, ?_, List.prefix_rfl, rfl⟩
  refine ⟨h.log, h.stream, h.follower, h.generation, h.keeps, h.path_eq, h.file_eq, rfl, ?_⟩
  simpa using h.inStep

lemma Tails.read (h : Tails path file start w f none lines bytes) {f' : Follower} {line : String}
    (hread : w.listener.readLine? w.disk = some (f', line)) (now : ℕ) :
    Goes path file start lines bytes (w.follow now) [] ∧ w.followOps now = [] := by
  have hhand : w.hand = none := h.hand_eq
  obtain ⟨g, hg, hphase, hshutdown, hnext, hf'⟩ := Listener.readLine?_eq_some hread
  obtain rfl : g = f := Option.some.inj (hg.symm.trans h.follower)
  have hlog := h.log
  -- what the reader hands out is the next line of the file past `start`
  obtain ⟨r', line', hspec, hpath, hfile, hstep⟩ := Reader.next_spec h.inStep h.reader_log.2
  rw [hnext, Except.ok.injEq, Prod.mk.injEq] at hspec
  obtain ⟨rfl, rfl⟩ := hspec
  simp only [follow, followOps, hhand, hread, and_true]
  refine Tails.goes_silent f' (some ⟨line, f'.reader.consumed⟩) ?_
  have hgeneration : f'.generation = 0 := by rw [hf']; exact h.generation
  refine ⟨h.log, h.stream, rfl, hgeneration, ?_, hpath.trans h.path_eq, hfile.trans h.file_eq,
    ?_, ?_⟩
  · rw [hf']
    exact h.keeps
  · rw [hgeneration]
    rfl
  · simpa using hstep

/-- The follower has no line to read: it comes to the end of the log, waits for the node, or has
rested. -/
lemma Tails.idle (h : Tails path file start w f none lines bytes)
    (hread : w.listener.readLine? w.disk = none) (now : ℕ) :
    Goes path file start lines bytes (w.follow now) [] ∧
      (w.followOps now = [] ∨ w.followOps now = [.sweep now]) := by
  have hhand : w.hand = none := h.hand_eq
  have hshutdown : w.listener.stream.shutdown = false := by rw [h.stream]
  simp only [follow, followOps, hhand, hread, Listener.advanceOps, h.follower]
  cases hphase : f.phase with
  | asking =>
    refine ⟨Tails.goes_silent f none ?_, .inl rfl⟩
    simp only [Listener.advance, h.follower, hphase]
    exact ⟨h.log, h.stream, h.follower, h.generation, h.keeps, h.path_eq, h.file_eq, rfl, h.inStep⟩
  | resting =>
    refine ⟨Tails.goes_silent { f with phase := .reading } none ?_, .inr rfl⟩
    simp only [Listener.advance, h.follower, hphase]
    exact ⟨h.log, h.stream, rfl, h.generation, rfl, h.path_eq, h.file_eq, rfl, h.inStep⟩
  | reading =>
    -- the reader is at the end of the file, since a line would have been read
    obtain ⟨r', line, hnext, hpath, hfile, hstep⟩ := Reader.next_spec h.inStep h.reader_log.2
    cases line with
    | some line =>
      simp [Listener.readLine?, h.follower, hphase, hshutdown, hnext] at hread
    | none =>
      refine ⟨Tails.goes_silent { f with reader := r', phase := .asking } none ?_,
        .inl rfl⟩
      simp only [Listener.advance, h.follower, hphase, hshutdown, hnext, Bool.false_eq_true,
        if_false]
      exact ⟨h.log, h.stream, rfl, h.generation, rfl, hpath.trans h.path_eq,
        hfile.trans h.file_eq, rfl, hstep.1⟩
  -- phases of a rotation or of an end, which a steady run never comes to
  | waiting left last | reopening left last | ending cause | done =>
    exact absurd h.keeps (by simp [Phase.keeps, hphase])

lemma Tails.follow (h : Tails path file start w f hand lines bytes) (now : ℕ) :
    Goes path file start lines bytes (w.follow now) ((w.followOps now).filterMap Ledger.Op.line?) ∧
      ∀ x ∈ (w.followOps now).filterMap Ledger.Op.happening?, x.clock? = some now := by
  cases hand with
  | some x =>
    obtain ⟨hgoes, hops⟩ := h.dispatch now
    rw [hops]
    exact ⟨hgoes, by simp [Ledger.Op.happening?, Happening.clock?]⟩
  | none =>
    cases hread : w.listener.readLine? w.disk with
    | some x =>
      obtain ⟨hgoes, hops⟩ := h.read hread now
      rw [hops]
      exact ⟨hgoes, by simp⟩
    | none =>
      obtain ⟨hgoes, hops | hops⟩ := h.idle hread now
      · rw [hops]
        exact ⟨hgoes, by simp⟩
      · rw [hops]
        exact ⟨hgoes, by simp [Ledger.Op.happening?, Happening.clock?]⟩

lemma Tails.setLedger (h : Tails path file start w f hand lines bytes) (ledger : Ledger) :
    Tails path file start (w.setLedger ledger) f hand lines bytes :=
  ⟨h.log, h.stream, h.follower, h.generation, h.keeps, h.path_eq, h.file_eq, h.hand_eq, h.inStep⟩

lemma Tails.enter (h : Tails path file start w f hand lines bytes) (now : ℕ) (e : Event)
    (timeout : Duration) : Tails path file start (w.enter now e timeout) f hand lines bytes :=
  h.setLedger _

lemma Tails.apply (h : Tails path file start w f hand lines bytes) {m : Move}
    (hm : m.Steady path w.disk) :
    Goes path file start lines bytes (w.apply m) ((w.opsOf m).filterMap Ledger.Op.line?) ∧
      ∀ x ∈ (w.opsOf m).filterMap Ledger.Op.happening?,
        ∃ now, m.clock? = some now ∧ x.clock? = some now := by
  cases m with
  | files next => exact ⟨h.files hm, by simp [opsOf]⟩
  | answer r => exact ⟨h.answer hm, by simp [opsOf]⟩
  | requestStop => exact hm.elim
  | finishStop => exact hm.elim
  | listen now e timeout =>
    exact ⟨Tails.goes_silent f hand (h.enter now e timeout), by simp [opsOf, Ledger.Op.happening?]⟩
  | drop id =>
    exact ⟨Tails.goes_silent f hand (h.setLedger _), by simp [opsOf, Ledger.Op.happening?]⟩
  | collect id =>
    exact ⟨Tails.goes_silent f hand (h.setLedger _), by simp [opsOf, Ledger.Op.happening?]⟩
  | follow now =>
    obtain ⟨hgoes, hclock⟩ := h.follow now
    exact ⟨hgoes, fun x hx => ⟨now, rfl, hclock x hx⟩⟩
  | sweep now =>
    cases hpauses : w.listener.pauses with
    | true =>
      simp only [World.apply, opsOf, hpauses, if_true]
      exact ⟨Tails.goes_silent f hand (h.setLedger _),
        by simp [Ledger.Op.happening?, Happening.clock?, Move.clock?]⟩
    | false =>
      simp only [World.apply, opsOf, hpauses, Bool.false_eq_true, if_false]
      exact ⟨h.goes_silent f hand, by simp⟩

lemma Tails.run (h : Tails path file start w f hand lines bytes) {moves : List Move}
    (hsteady : w.Steady path moves) :
    Goes path file start lines bytes (w.run moves) (w.dispatched moves) ∧
      ∀ x ∈ (w.ops moves).filterMap Ledger.Op.happening?,
        ∃ now ∈ moves.filterMap Move.clock?, x.clock? = some now := by
  induction moves generalizing w f hand lines bytes with
  | nil => exact ⟨h.goes_silent f hand, by simp [ops]⟩
  | cons m moves ih =>
    obtain ⟨⟨f₁, hand₁, more₁, bytes₁, htails₁, hbytes₁, hsent₁⟩, hclock₁⟩ := h.apply hsteady.1
    obtain ⟨⟨f₂, hand₂, more₂, bytes₂, htails₂, hbytes₂, hsent₂⟩, hclock₂⟩ :=
      ih htails₁ hsteady.2
    refine ⟨⟨f₂, hand₂, more₁ ++ more₂, bytes₂, ?_, hbytes₁.trans hbytes₂, ?_⟩, fun x hx => ?_⟩
    · rwa [← List.append_assoc]
    · rw [dispatched, ops, List.filterMap_append, hsent₁, List.map_append]
      exact congrArg _ hsent₂
    · rw [ops, List.filterMap_append, List.mem_append] at hx
      rcases hx with hx | hx
      · obtain ⟨now, hm, hclock⟩ := hclock₁ x hx
        exact ⟨now, List.mem_filterMap.mpr ⟨m, List.mem_cons_self, hm⟩, hclock⟩
      · obtain ⟨now, hnow, hclock⟩ := hclock₂ x hx
        obtain ⟨m', hm', hclock'⟩ := List.mem_filterMap.mp hnow
        exact ⟨now, List.mem_filterMap.mpr ⟨m', List.mem_cons_of_mem _ hm', hclock'⟩, hclock⟩

/-! ### Requests on a log that only grows -/

/-- The follower reads the file that was opened first and takes it for the log, and would still do
so if it asked the node now. -/
structure KeepsLog (path : String) (w : World) : Prop where
  stream : w.listener.stream = ⟨.attached path, 0, false⟩
  follower : ∃ f, w.listener.follower = some f ∧ f.generation = 0 ∧ f.phase.keeps = true ∧
    ∀ reported, (Report.path reported).Stays path → f.reader.rotation w.disk reported = none

/-- The follower has taken all that is in its file and has no line in its hand. -/
def CaughtUp (w : World) : Prop :=
  w.hand = none ∧ ∀ f ∈ w.listener.follower, f.reader.offset = w.disk.size f.reader.file

instance (w : World) : Decidable w.CaughtUp := inferInstanceAs (Decidable (_ ∧ _))

lemma Tails.keepsLog (h : Tails path file start w f hand lines bytes) : w.KeepsLog path :=
  ⟨h.stream, f, h.follower, h.generation, h.keeps, fun _ hstays => h.rotation_eq_none hstays⟩

lemma Tails.lines_eq (h : Tails path file start w f hand lines bytes) (hcaught : w.CaughtUp) :
    lines = linesFrom start bytes := by
  have hhand : hand = none := by
    rw [← Option.map_eq_none_iff, ← h.hand_eq]
    exact hcaught.1
  have hoffset : f.reader.offset = bytes.length := by
    rw [hcaught.2 f h.follower, h.reader_log.size_eq]
  have hall := h.inStep.run_all
  rw [hoffset, List.drop_length, Scan.run_nil] at hall
  rw [linesFrom, hall, hhand]
  simp

lemma Tails.unwritten_eq (h : Tails path file start w f hand lines bytes) (more : List LogLine) :
    w.unwritten (more.map (LogLine.placed 0)) =
      (more.filter (bytes.length < ·.stop)).map (·.text) := by
  have hlate : ∀ x : LogLine, (!(some (⟨0, bytes.length⟩ : Position)).any ((x.placed 0).2 ≤ ·)) =
      decide (bytes.length < x.stop) := by
    intro x
    rw [Bool.eq_iff_iff]
    simp [LogLine.placed, Position.le_def]
  rw [unwritten, h.writePosition_eq, List.filter_map, List.map_map]
  simp only [Function.comp_def, hlate]
  rfl

/-- What was dispatched before counts as written, so the lines meant can be picked from all. -/
lemma Tails.unwritten_dispatched (h : Tails path file start w f hand lines bytes)
    {sent : List (String × Position)} {more : List LogLine}
    (hsent : sent = more.map (LogLine.placed 0)) :
    w.unwritten sent = ((lines ++ more).filter (bytes.length < ·.stop)).map (·.text) := by
  have hearly : lines.filter (bytes.length < ·.stop) = [] :=
    List.filter_eq_nil_iff.mpr fun x hx => by simpa using h.stop_le x hx
  rw [hsent, h.unwritten_eq, List.filter_append, hearly, List.nil_append]

lemma Tails.open_run (h : Tails path file start w f hand lines bytes)
    (hopen : w.listener.ledger.closed = false) {moves : List Move} (hsteady : w.Steady path moves) :
    (w.run moves).listener.ledger.closed = false := by
  rw [ledger_run, Ledger.closed_run, hopen]
  intro x hx
  obtain ⟨now, -, hnow⟩ := (h.run hsteady).2 x hx
  simp [hnow]

/-- **A request on a log that only grows is served what was completed after it was entered.** In
any steady run the follower keeps its file; it dispatches lines of what was written since it was
attached; and a request is served those of them that end past the length of the log when it was
entered. Short of its deadline these lines settle how it ends, so once the follower has caught up
only the bytes of the log and the two lengths do. -/
theorem serves_lines_completed_later {d : Disk} {s : Settings} {alive : Bool} {l : Listener}
    (hlog : d.HasLog path file bytes) (hattach : Listener.attach d s alive (some path) = .ok l)
    {moves : List Move} (hsteady : (begin d l).Steady path moves) :
    ∃ lines final,
      ((begin d l).run moves).disk.HasLog path file final ∧ bytes <+: final ∧
      ((begin d l).run moves).KeepsLog path ∧
      (begin d l).dispatched moves = lines.map (LogLine.placed 0) ∧
      lines <+: linesFrom bytes.length final ∧
      (((begin d l).run moves).CaughtUp → lines = linesFrom bytes.length final) ∧
      ∀ before now e timeout after, moves = before ++ .listen now e timeout :: after →
        let w := (begin d l).run before
        let meant := (lines.filter (w.disk.size file < ·.stop)).map (·.text)
        (w.listener.listen w.disk now e timeout).2 = some w.nextId ∧
        (.drop w.nextId ∉ after →
          (w.enter now e timeout).Serves w.nextId e after meant ∧
          ((∀ c ∈ after.filterMap Move.clock?, ∀ deadline ∈ timeout.after now, c < deadline) →
            ((begin d l).run moves).outcome? w.nextId = e.verdict meant ∧
            (((begin d l).run moves).CaughtUp → ((begin d l).run moves).outcome? w.nextId =
              e.verdictOn bytes.length (w.disk.size file) final))) := by
  obtain ⟨hfresh, f, htails⟩ := tails_begin hlog hattach
  have hledger : (begin d l).listener.ledger = .fresh := hfresh
  obtain ⟨⟨f', hand', lines, final, hend, hgrown, hsent⟩, -⟩ := htails.run hsteady
  rw [List.nil_append] at hend
  refine ⟨lines, final, hend.log, hgrown, hend.keepsLog, hsent, hend.lines_prefix,
    hend.lines_eq, ?_⟩
  intro before now e timeout after hmoves w meant
  subst hmoves
  -- what was measured is known from the run up to the call, what comes from the run after it
  obtain ⟨hbefore, -, hafter⟩ := steady_append.mp hsteady
  obtain ⟨⟨f₁, hand₁, lines₁, bytes₁, htails₁, -, hsent₁⟩, -⟩ := htails.run hbefore
  rw [List.nil_append] at htails₁
  obtain ⟨⟨f₂, hand₂, lines₂, bytes₂, -, -, hsent₂⟩, hclock⟩ :=
    (htails₁.enter now e timeout).run hafter
  have hsound : w.listener.ledger.Sound := sound_run (hledger ▸ Ledger.Sound.fresh) before
  have hopen : w.listener.ledger.closed = false := htails.open_run (by rw [hledger]; rfl) hbefore
  have hlines : lines = lines₁ ++ lines₂ := by
    refine (LogLine.placed_injective 0).list_map ?_
    rw [← hsent, dispatched_append, hsent₁, List.map_append]
    exact congrArg _ hsent₂
  -- what was dispatched before the call ends by what was measured
  have hmeant : meant = w.unwritten ((w.enter now e timeout).dispatched after) := by
    rw [htails₁.unwritten_dispatched hsent₂, ← hlines, ← htails₁.log.size_eq]
  refine ⟨?_, fun hkept => ⟨?_, fun htimely => ?_⟩⟩
  · change (w.listener.ledger.register _ _ _).2 = _
    rw [Ledger.register_of_open hopen]
    rfl
  · rw [hmeant]
    exact serves_unwritten hsound hopen now e timeout hkept
  · have houtcome : ((begin d l).run (before ++ .listen now e timeout :: after)).outcome?
        w.nextId = e.verdict meant := by
      rw [hmeant, run_append, run_cons]
      refine outcome?_eq_verdict hsound hopen hkept fun x hx => ?_
      obtain ⟨c, hc, hxc⟩ := hclock x hx
      exact ⟨c, hxc, htimely c hc⟩
    refine ⟨houtcome, fun hcaught => ?_⟩
    rw [houtcome, Event.verdictOn, ← hend.lines_eq hcaught]

end World

/-- A disk with nothing on it but a log. -/
def Disk.withLog (text : String) : Disk :=
  ⟨#[.folder 1 [("log", 2)], .folder 1 [], .file text.toUTF8.data.toList]⟩

/-- A listener attached to that log when it has `start` bytes. -/
def Listener.atEnd (start : ℕ) : Listener :=
  ⟨.standard, .fresh, ⟨.attached "log", 0, false⟩,
    some ⟨⟨"log", 2, start, [], start, []⟩, 0, 1, .reading⟩⟩

/-- A line is read, a request entered while the next is half written, and that one completed. -/
def Move.halfWritten : List Move :=
  [.files (.withLog "ok\nok\nok"), .follow 0, .listen 0 (.or (.pattern "ok") (.pattern "!")) ⟨9⟩,
    .follow 1, .follow 2, .answer (.path none), .files (.withLog "ok\nok\nok!\n"), .follow 3,
    .follow 4, .follow 5, .follow 6]

namespace World

/-- The follower has a line in its hand when the request is entered, and the next is half written:
the request is served the second only. -/
theorem serves_line_half_written :
    ((begin (.withLog "ok\n") (.atEnd 3)).run Move.halfWritten).outcome? 0 =
      some (.observed ["ok", "!"]) := by
  have hlog : (Disk.withLog "ok\n").HasLog "log" 2 "ok\n".toUTF8.data.toList := ⟨rfl, rfl⟩
  have hattach : Listener.attach (.withLog "ok\n") .standard true (some "log") =
      .ok (.atEnd 3) := rfl
  have hfirst : (Disk.withLog "ok\n").Grows "log" (.withLog "ok\nok\nok") :=
    Disk.grows_of_append "ok\nok".toUTF8.data.toList rfl
  have hsecond : (Disk.withLog "ok\nok\nok").Grows "log" (.withLog "ok\nok\nok!\n") :=
    Disk.grows_of_append "!\n".toUTF8.data.toList rfl
  have hstays : (Report.path none).Stays "log" := fun p hp => by simp at hp
  have hsteady : (begin (.withLog "ok\n") (.atEnd 3)).Steady "log" Move.halfWritten :=
    ⟨hfirst, trivial, trivial, trivial, trivial, hstays, hsecond, trivial, trivial, trivial,
      trivial, trivial⟩
  obtain ⟨lines, final, hfinal, -, -, -, -, -, hserved⟩ :=
    serves_lines_completed_later hlog hattach hsteady
  have hbytes : final = "ok\nok\nok!\n".toUTF8.data.toList := by
    have hentry : ((begin (.withLog "ok\n") (.atEnd 3)).run Move.halfWritten).disk.get? 2 =
      some (.file "ok\nok\nok!\n".toUTF8.data.toList) := by decide +kernel
    exact Entry.file.inj (Option.some.inj (hfinal.2.symm.trans hentry))
  obtain ⟨-, hrequest⟩ := hserved [_, _] 0 _ _ _ rfl
  obtain ⟨-, houtcome⟩ := hrequest (by decide +kernel)
  have hcaught := (houtcome (by decide +kernel)).2 (by decide +kernel)
  rw [hbytes] at hcaught
  exact hcaught.trans (by decide +kernel)

end World

end LogWatch
