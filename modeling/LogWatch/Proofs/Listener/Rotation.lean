import Mathlib
import LogWatch.Proofs.Listener.Chapters

/-!
What happens to lines and requests while the log is rotated.

A follower that has come to the end of its file asks about the log and does not read on before it
has an answer; if the log was rotated it never does. So what comes to the old file after that is
lost, and nothing else is. A request that comes in the meantime is measured against a file that
the follower does not read: it has the number of the one file and the length of the other.
-/

namespace LogWatch

lemma Position.not_le_iff {a b : Position} : ¬ a ≤ b ↔ b < a := by
  rw [Position.le_def, Position.lt_def]
  omega

namespace World

/-! ### Lines that are lost -/

/-- **Of a file that the follower has left, just the lines that it found when it last came to the
end have been dispatched.** They all come before any line of a later file. What was completed
afterwards, though the file may still have been the log, is never dispatched. -/
theorem dispatched_of_left_iff {d : Disk} {s : Settings} {alive : Bool} {reported : Option String}
    {l : Listener} (hattach : Listener.attach d s alive reported = .ok l) {moves : List Move}
    (happends : (begin d l).Appends (begin d l).held moves) {g : ℕ}
    (hleft : g < ((begin d l).run moves).listener.stream.generation) :
    ((begin d l).dispatched moves).Pairwise (·.2 < ·.2) ∧
    ∃ file n, ((begin d l).held ++ (begin d l).opened moves)[g]? = some file ∧
      (((begin d l).run moves).disk.IsFile file →
        (((begin d l).ends moves).filter (·.1 = g)).getLast? = some (g, n)) ∧
      ∀ before after, moves = before ++ after →
        g ≤ ((begin d l).run before).listener.stream.generation →
        ∀ x ∈ linesFrom (if g = 0 then d.size file else 0)
            (((begin d l).run before).disk.bytes file),
          x.placed g ∈ (begin d l).dispatched moves ↔ x.stop ≤ n := by
  obtain ⟨chapters, -, h, -⟩ := exists_recounts hattach
    (show (begin d l).Appends _ (moves ++ []) by rwa [List.append_nil])
  obtain ⟨c, hc, hfile⟩ := h.exists_chapter hleft.le
  have hsent : ∀ x : LogLine, x.placed g ∈ (begin d l).dispatched moves ↔ x ∈ c.lines := by
    intro x
    rw [← h.sent_eq]
    exact Chapter.placed_mem_sent hc x
  -- the chapter was left, so it is complete up to some length of its file
  obtain ⟨n, hn, hlines⟩ :=
    (h.complete g c hc hleft).exists_length (h.fits c (List.mem_of_getElem? hc))
  refine ⟨?_, c.file, n, hfile, fun his => ?_, fun before after hmoves hg x hx => ?_⟩
  · rw [← h.sent_eq]
    exact Chapter.sent_pairwise h.fits
  · rw [← h.reached_eq, Chapter.filter_reached hc, List.getLast?_map, hn his]
    rfl
  · -- what was complete earlier is so now, since the file was held by then
    subst hmoves
    obtain ⟨earlier, -, hearlier, -⟩ := exists_recounts hattach happends
    obtain ⟨c', -, hfile'⟩ := hearlier.exists_chapter hg
    rw [opened_append, ← List.append_assoc, List.getElem?_append_left
      (List.getElem?_eq_some_iff.mp hfile').1, hfile', Option.some.injEq] at hfile
    have hkeeps := (appends_append.mp happends).2.keeps (List.mem_of_getElem? (hfile ▸ hfile'))
    rw [← run_append] at hkeeps
    obtain ⟨more, hmore⟩ := hkeeps.bytes_isPrefix
    rw [← h.start_eq g c hc] at hx
    rw [hsent, hlines]
    refine mem_linesFrom_take ?_
    rw [← hmore]
    exact (linesFrom_isPrefix _ _ _).subset hx

end World

/-- The follower comes to the end of the log, and before it asks about it a line is written and the
log is renamed; it goes on with the new log. -/
def Move.tooLate : List Move :=
  [.follow 0, .files (.withLog "x\n"), .files (.renamed "x\n" "y\n"), .answer (.path (some "log")),
    .follow 1, .answer (.path (some "log")), .follow 2, .follow 3]

namespace World

lemma appends_tooLate : (begin (.withLog "") (.atEnd 0)).Appends [2] Move.tooLate := by
  refine ⟨trivial, ?_, ?_, trivial, trivial, trivial, trivial, trivial, trivial⟩
  · intro file hfile
    obtain rfl := List.mem_singleton.mp (show file ∈ [2] from hfile)
    exact Disk.keeps_withLog "x\n".toUTF8.data.toList (by decide +kernel)
  · intro file hfile
    obtain rfl := List.mem_singleton.mp (show file ∈ [2] from hfile)
    exact Disk.keeps_renamed "x\n" "y\n"

/-- The line is complete while its file still is the log, and is never dispatched, though the
follower goes on with the next log and dispatches a line of that. -/
theorem line_lost_at_rotation :
    (begin (.withLog "") (.atEnd 0)).Appends (begin (.withLog "") (.atEnd 0)).held Move.tooLate ∧
    ((begin (.withLog "") (.atEnd 0)).run (Move.tooLate.take 2)).disk.find "log" = .ok 2 ∧
    linesFrom 0 (((begin (.withLog "") (.atEnd 0)).run (Move.tooLate.take 2)).disk.bytes 2) =
      [⟨"x", 2⟩] ∧
    (begin (.withLog "") (.atEnd 0)).opened Move.tooLate = [3] ∧
    (begin (.withLog "") (.atEnd 0)).dispatched Move.tooLate = [("y", ⟨1, 2⟩)] :=
  ⟨appends_tooLate, by decide +kernel, by decide +kernel, by decide +kernel, by decide +kernel⟩

/-- That line ends past what the follower had found when it came to the end. -/
theorem dispatched_of_left_iff_too_late :
    LogLine.placed 0 ⟨"x", 2⟩ ∉ (begin (.withLog "") (.atEnd 0)).dispatched Move.tooLate := by
  have hattach : Listener.attach (.withLog "") .standard true (some "log") = .ok (.atEnd 0) := rfl
  obtain ⟨-, file, n, hfile, hn, hiff⟩ :=
    dispatched_of_left_iff hattach appends_tooLate (show 0 < _ by decide +kernel)
  obtain rfl : 2 = file := Option.some.inj
    ((show ((begin (.withLog "") (.atEnd 0)).held ++
      (begin (.withLog "") (.atEnd 0)).opened Move.tooLate)[0]? = some 2 by
        decide +kernel).symm.trans hfile)
  have hends : (((begin (.withLog "") (.atEnd 0)).ends Move.tooLate).filter (·.1 = 0)).getLast? =
    some (0, 0) := by decide +kernel
  obtain rfl : 0 = n :=
    congrArg Prod.snd (Option.some.inj (hends.symm.trans (hn ⟨_, rfl⟩)))
  rw [hiff [.follow 0, .files (.withLog "x\n")] _ rfl (by decide +kernel) ⟨"x", 2⟩
    (by decide +kernel)]
  decide

/-! ### Requests that come while the log is rotated -/

/-- Among dispatched lines those that a request entered now is shown: the lines that end past the
number of the file that the follower reads and the length of the file that is where this one was,
or all if there is none. -/
def measured (w : World) (f : Follower) (lines : List (String × Position)) :
    List (String × Position) :=
  match w.disk.find f.reader.path with
  | .ok file => lines.filter (⟨f.generation, w.disk.size file⟩ < ·.2)
  | .error _ => lines

variable {w : World} {f : Follower}

lemma Follows.writePosition_eq (h : Follows w f) (hlive : f.phase.isLive = true) :
    w.listener.writePosition w.disk =
      match w.disk.find f.reader.path with
      | .ok file => some ⟨f.generation, w.disk.size file⟩
      | .error _ => none := by
  have hstate : w.listener.stream.state = .attached f.reader.path := (h.stands.of_live hlive).1
  cases hfind : w.disk.find f.reader.path with
  | error e => simp [Listener.writePosition, hstate, hfind]
  | ok file => simp [Listener.writePosition, hstate, hfind, h.generation]

lemma Follows.unwritten_eq (h : Follows w f) (hlive : f.phase.isLive = true)
    (lines : List (String × Position)) :
    w.unwritten lines = (w.measured f lines).map Prod.fst := by
  rw [unwritten, h.writePosition_eq hlive, measured]
  cases w.disk.find f.reader.path with
  | error e => simp
  | ok file =>
    refine congrArg _ (List.filter_congr fun x _ => ?_)
    rw [Bool.eq_iff_iff]
    simp [Position.not_le_iff]

lemma Recounts.reader_file {d : Disk} {l : Listener} {moves : List Move} {chapters : List Chapter}
    (h : Recounts d l moves chapters) (hf : Follows ((begin d l).run moves) f) :
    ∃ c, chapters[f.generation]? = some c ∧ f.reader.file = c.file := by
  have hlength : chapters.length = f.generation + 1 := by rw [h.length_eq, hf.generation]
  obtain ⟨c, hc⟩ : ∃ c, chapters[f.generation]? = some c :=
    ⟨_, List.getElem?_eq_getElem (by omega)⟩
  have hlast : chapters.getLast? = some c := by
    rw [List.getLast?_eq_getElem?, hlength, Nat.add_sub_cancel, hc]
  have hheld := h.held_eq c hlast
  rw [held, hf.follower] at hheld
  exact ⟨c, hc, (List.cons.inj hheld).1⟩

/-- Of the file that is where the follower looks for it, lines are measured right; so are those of
earlier files, and of later ones that had no line yet. -/
lemma Recounts.late_iff {d next : Disk} {l : Listener} {before : List Move}
    {chapters chapters' : List Chapter} (h : Recounts d l before chapters)
    (hf : Follows ((begin d l).run before) f) (hlater : Chapter.Later chapters chapters')
    (hfits : ∀ c ∈ chapters', c.Fits next)
    (hkeeps : ((begin d l).run before).disk.Keeps f.reader.file next)
    (hnew : ∀ g c, chapters'[g]? = some c → chapters.length ≤ g →
      linesFrom c.start (((begin d l).run before).disk.bytes c.file) = [])
    {g : ℕ} {c : Chapter} (hc : chapters'[g]? = some c) {x : LogLine} (hx : x ∈ c.lines) :
    (⟨f.generation, ((begin d l).run before).disk.size f.reader.file⟩ : Position) <
        ⟨g, x.stop⟩ ↔
      x ∉ linesFrom c.start (((begin d l).run before).disk.bytes c.file) := by
  have hlength : chapters.length = f.generation + 1 := by rw [h.length_eq, hf.generation]
  rw [Position.lt_def]
  rcases Nat.lt_trichotomy g f.generation with hg | rfl | hg
  · -- a chapter that was left by then has only lines that were complete
    obtain ⟨c₀, hc₀⟩ : ∃ c₀, chapters[g]? = some c₀ :=
      ⟨_, List.getElem?_eq_getElem (by omega)⟩
    obtain ⟨c', hc', -, -, hsame⟩ := hlater g c₀ hc₀
    obtain rfl := Option.some.inj (hc'.symm.trans hc)
    obtain rfl := hsame (by omega)
    have hmem := (h.fits _ (List.mem_of_getElem? hc₀)).lines_isPrefix.subset hx
    simp only [hmem, not_true_eq_false, iff_false]
    omega
  · -- the chapter of the file that the follower holds
    obtain ⟨c₀, hc₀, hheld⟩ := h.reader_file hf
    obtain ⟨c', hc', hfile, hstart, -⟩ := hlater f.generation c₀ hc₀
    obtain rfl := Option.some.inj (hc'.symm.trans hc)
    have hreader : f.reader.file = c'.file := hheld.trans hfile.symm
    have hmem := (hfits _ (List.mem_of_getElem? hc)).lines_isPrefix.subset hx
    rw [hreader] at hkeeps ⊢
    by_cases his : ((begin d l).run before).disk.IsFile c'.file
    · obtain ⟨bytes, hbytes⟩ := his
      obtain ⟨more, hmore⟩ := hkeeps.grows bytes hbytes
      rw [Disk.bytes_of_file hmore] at hmem
      have hiff := mem_linesFrom_take (n := bytes.length) hmem
      rw [List.take_left] at hiff
      rw [Disk.bytes_of_file hbytes, hiff]
      simp [Disk.size, hbytes]
    · have hnot : ¬ next.IsFile c'.file := fun hnext => his (hkeeps.isFile hnext)
      rw [Disk.bytes_of_not_isFile hnot, linesFrom_nil] at hmem
      simp at hmem
  · -- a chapter of a file that was opened later
    rw [hnew g c hc (by omega)]
    simp [hg]

end World

/-- The texts of the lines of chapters that were not complete yet when the disk was this. -/
def Chapter.completedAfter (d : Disk) : List Chapter → List String :=
  layout fun _ c => (c.lines.filter (· ∉ linesFrom c.start (d.bytes c.file))).map (·.text)

namespace World

section Measured

variable {d : Disk} {l : Listener} {before after : List Move} {chapters chapters' : List Chapter}

lemma Recounts.keeps_reader (h : Recounts d l before chapters)
    (hf : Follows ((begin d l).run before) f)
    (happends : (begin d l).Appends (begin d l).held (before ++ after)) :
    ((begin d l).run before).disk.Keeps f.reader.file
      ((begin d l).run (before ++ after)).disk := by
  obtain ⟨c, hc, hheld⟩ := h.reader_file hf
  have hmem : c.file ∈ (begin d l).held ++ (begin d l).opened before := by
    rw [← h.files_eq]
    exact List.mem_map_of_mem (List.mem_of_getElem? hc)
  rw [hheld, run_append]
  exact (appends_append.mp happends).2.keeps hmem

lemma Recounts.opened_later (h : Recounts d l before chapters)
    (h' : Recounts d l (before ++ after) chapters') {g : ℕ} {c : Chapter}
    (hc : chapters'[g]? = some c) (hg : chapters.length ≤ g) :
    c.start = 0 ∧ c.file ∈ ((begin d l).run before).opened after := by
  have hlength := h.length_eq
  have hfile : (chapters'.map (·.file))[g]? = some c.file := by
    rw [List.getElem?_map, hc]
    rfl
  rw [h'.files_eq, opened_append, ← List.append_assoc, ← h.files_eq,
    List.getElem?_append_right (by rwa [List.length_map])] at hfile
  refine ⟨?_, List.mem_of_getElem? hfile⟩
  rw [h'.start_eq g c hc, if_neg (by omega)]

/-- What was measured for a request is right for all lines if the follower holds the file that is
where it looks for it, and no file that it opens later had a line then. -/
lemma Recounts.measured_eq (h : Recounts d l before chapters)
    (h' : Recounts d l (before ++ after) chapters') (hlater : Chapter.Later chapters chapters')
    (hf : Follows ((begin d l).run before) f)
    (happends : (begin d l).Appends (begin d l).held (before ++ after))
    (hpath : ((begin d l).run before).disk.find f.reader.path = .ok f.reader.file)
    (hnew : ∀ file ∈ ((begin d l).run before).opened after,
      linesFrom 0 (((begin d l).run before).disk.bytes file) = []) :
    (((begin d l).run before).measured f (((begin d l).run before).dispatched after)).map
      Prod.fst = Chapter.completedAfter ((begin d l).run before).disk chapters' := by
  have hempty : ∀ g c, chapters'[g]? = some c → chapters.length ≤ g →
      linesFrom c.start (((begin d l).run before).disk.bytes c.file) = [] := by
    intro g c hc hg
    obtain ⟨hstart, hopened⟩ := h.opened_later h' hc hg
    rw [hstart]
    exact hnew c.file hopened
  have hsent : Chapter.sent chapters' =
      Chapter.sent chapters ++ ((begin d l).run before).dispatched after := by
    rw [h'.sent_eq, h.sent_eq, dispatched_append]
  -- what was dispatched by then was complete
  have hpast : (Chapter.sent chapters).filter
      (⟨f.generation, ((begin d l).run before).disk.size f.reader.file⟩ < ·.2) = [] := by
    refine List.filter_eq_nil_iff.mpr fun y hy => ?_
    obtain ⟨g, c, hc, hy⟩ := Chapter.mem_layout.mp hy
    obtain ⟨x, hx, rfl⟩ := List.mem_map.mp hy
    have hiff := h.late_iff hf (.refl chapters) h.fits (.refl _ _)
      (fun g c hc hg => absurd (List.getElem?_eq_some_iff.mp hc).1 (by omega)) hc hx
    have hmem := (h.fits c (List.mem_of_getElem? hc)).lines_isPrefix.subset hx
    rw [decide_eq_true_iff]
    exact fun hlate => hiff.mp hlate hmem
  -- so whatever of all lines is late was dispatched afterwards
  have hall : (((begin d l).run before).dispatched after).filter
      (⟨f.generation, ((begin d l).run before).disk.size f.reader.file⟩ < ·.2) =
      (Chapter.sent chapters').filter
        (⟨f.generation, ((begin d l).run before).disk.size f.reader.file⟩ < ·.2) := by
    rw [hsent, List.filter_append, hpast, List.nil_append]
  simp only [measured, hpath]
  rw [hall, Chapter.sent, Chapter.filter_map_layout]
  refine Chapter.layout_congr fun g c hc => ?_
  rw [List.filter_map, List.map_map]
  refine congrArg _ (List.filter_congr fun x hx => ?_)
  have hiff := h.late_iff hf hlater h'.fits (h.keeps_reader hf happends) hempty hc hx
  rw [Bool.eq_iff_iff, decide_eq_true_iff, Function.comp_apply, decide_eq_true_iff]
  exact hiff

end Measured

lemma opened_listen (w : World) (now : ℕ) (e : Event) (timeout : Duration) (after : List Move) :
    w.opened (.listen now e timeout :: after) = (w.enter now e timeout).opened after := by
  have hnone : w.openBetween (w.enter now e timeout) = [] := by
    cases hf : w.listener.follower with
    | none => simp [openBetween, hf]
    | some f => exact openBetween_eq_nil hf hf rfl
  rw [opened]
  change w.openBetween (w.enter now e timeout) ++ _ = _
  rw [hnone]
  rfl

/-- **A request is served the lines that end past what was measured for it,** that is past the
number of the file that the follower reads and the length of the file that its path leads to when
the request is entered. If this is one and the same file, and the files that are opened later had
no complete line yet, these are just the lines of the whole log that were not complete then,
through any number of rotations. -/
theorem serves_past_measured {d : Disk} {s : Settings} {alive : Bool} {reported : Option String}
    {l : Listener} (hattach : Listener.attach d s alive reported = .ok l) (before : List Move)
    (now : ℕ) (e : Event) (timeout : Duration) (after : List Move)
    (hlistening : ((begin d l).run before).listener.isListening = true)
    (hkept : .drop ((begin d l).run before).nextId ∉ after) :
    let w := (begin d l).run before
    let later := (w.enter now e timeout).dispatched after
    (w.listener.listen w.disk now e timeout).2 = some w.nextId ∧
    ∃ f, w.listener.follower = some f ∧
      (w.enter now e timeout).Serves w.nextId e after ((w.measured f later).map Prod.fst) ∧
      ((begin d l).Appends (begin d l).held (before ++ .listen now e timeout :: after) →
        w.disk.find f.reader.path = .ok f.reader.file →
        (∀ file ∈ (w.enter now e timeout).opened after, linesFrom 0 (w.disk.bytes file) = []) →
        ∃ chapters, Recounts d l (before ++ .listen now e timeout :: after) chapters ∧
          Chapter.completedAfter w.disk chapters = (w.measured f later).map Prod.fst) := by
  intro w later
  obtain ⟨f₀, hf₀⟩ := follows_begin hattach
  obtain ⟨f, hf⟩ := hf₀.run before
  have hlive : f.phase.isLive = true := hf.isLive_of_isListening hlistening
  have hopen : w.listener.ledger.closed = false := (hf.stands.of_live hlive).2
  have hsound : w.listener.ledger.Sound := by
    obtain ⟨path, reader, -, -, rfl⟩ := Listener.attach_eq hattach
    exact sound_run Ledger.Sound.fresh before
  refine ⟨?_, f, hf.follower, ?_, fun happends hpath hnew => ?_⟩
  · change (w.listener.ledger.register _ _ _).2 = _
    rw [Ledger.register_of_open hopen]
    rfl
  · rw [← hf.unwritten_eq hlive]
    exact serves_unwritten hsound hopen now e timeout hkept
  · obtain ⟨chapters, chapters', h, h', hlater⟩ := exists_recounts hattach happends
    rw [← opened_listen] at hnew
    exact ⟨chapters', h', (h.measured_eq h' hlater hf happends hpath hnew).symm⟩

end World

/-- A line waits in the hand of the follower when the request is entered; then the log is rotated
and another line comes. -/
def Move.acrossRenaming : List Move :=
  [.follow 1, .follow 2, .files (.renamed "a\n" "b\n"), .answer (.path (some "log")), .follow 3,
    .answer (.path (some "log")), .follow 4, .follow 5]

namespace World

/-- The request is served the line of the new log and not that of the old. -/
theorem serves_past_measured_renaming :
    ∃ chapters, Chapter.completedAfter (.withLog "a\n") chapters = ["b"] ∧
      ((begin (.withLog "") (.atEnd 0)).run [.files (.withLog "a\n"), .follow 0,
        .listen 0 (.or (.pattern "a") (.pattern "b")) ⟨9⟩]).Serves 0
          (.or (.pattern "a") (.pattern "b")) Move.acrossRenaming ["b"] := by
  have hattach : Listener.attach (.withLog "") .standard true (some "log") = .ok (.atEnd 0) := rfl
  obtain ⟨-, f, hf, hserves, hright⟩ := serves_past_measured hattach
    [.files (.withLog "a\n"), .follow 0] 0 (.or (.pattern "a") (.pattern "b")) ⟨9⟩
    Move.acrossRenaming (by decide +kernel) (by decide +kernel)
  have hfollower : ((begin (.withLog "") (.atEnd 0)).run
      [.files (.withLog "a\n"), .follow 0]).listener.follower =
    some ⟨⟨"log", 2, 2, [], 2, []⟩, 0, 1, .reading⟩ := by decide +kernel
  obtain rfl := Option.some.inj (hfollower.symm.trans hf)
  have happends : (begin (.withLog "") (.atEnd 0)).Appends [2] ([.files (.withLog "a\n"),
      .follow 0] ++ .listen 0 (.or (.pattern "a") (.pattern "b")) ⟨9⟩ :: Move.acrossRenaming) := by
    refine ⟨?_, trivial, trivial, trivial, trivial, ?_, trivial, trivial, trivial, trivial,
      trivial, trivial⟩
    · intro file hfile
      rw [List.mem_singleton.mp hfile]
      exact Disk.keeps_withLog "a\n".toUTF8.data.toList (by decide +kernel)
    · intro file hfile
      rw [List.mem_singleton.mp (show file ∈ [2] from hfile)]
      exact Disk.keeps_renamed _ _
  obtain ⟨chapters, -, hcompleted⟩ := hright happends (by decide +kernel) (by decide +kernel)
  have hmeasured : (((begin (.withLog "") (.atEnd 0)).run
      [.files (.withLog "a\n"), .follow 0]).measured ⟨⟨"log", 2, 2, [], 2, []⟩, 0, 1, .reading⟩
      ((((begin (.withLog "") (.atEnd 0)).run [.files (.withLog "a\n"), .follow 0]).enter 0
        (.or (.pattern "a") (.pattern "b")) ⟨9⟩).dispatched Move.acrossRenaming)).map Prod.fst =
      ["b"] := by decide +kernel
  rw [hmeasured] at hserves hcompleted
  exact ⟨chapters, hcompleted, hserves⟩

end World

/-- The log is replaced, by one that has a line already, and a request entered before the follower
goes on with it. -/
def Move.afterReplacement (e : Event) : List Move :=
  [.follow 0, .files (.renamed "" "x\n"), .listen 0 e ⟨9⟩, .answer (.path (some "log")), .follow 1,
    .answer (.path (some "log")), .follow 2, .follow 3]

/-- The log is replaced by a longer one, and a request entered before a line comes to the old. -/
def Move.beforeLastLine (e : Event) : List Move :=
  [.files (.renamed "" "long\n"), .listen 0 e ⟨9⟩, .files (.renamed "y\n" "long\n"), .follow 0,
    .follow 1]

namespace World

/-- A request may be shown a line that was complete when it was entered, and may not be shown one
that was not. -/
theorem request_misjudged_at_rotation :
    (linesFrom 0 (((begin (.withLog "") (.atEnd 0)).run
        ((Move.afterReplacement (.pattern "x")).take 2)).disk.bytes 3) = [⟨"x", 2⟩] ∧
      ((begin (.withLog "") (.atEnd 0)).run (Move.afterReplacement (.pattern "x"))).outcome? 0 =
        some (.observed ["x"])) ∧
    (linesFrom 0 (((begin (.withLog "") (.atEnd 0)).run
        ((Move.beforeLastLine (.pattern "y")).take 1)).disk.bytes 2) = [] ∧
      (begin (.withLog "") (.atEnd 0)).dispatched (Move.beforeLastLine (.pattern "y")) =
        [("y", ⟨0, 2⟩)] ∧
      ((begin (.withLog "") (.atEnd 0)).run (Move.beforeLastLine (.pattern "y"))).outcome? 0 =
        none) :=
  ⟨⟨by decide +kernel, by decide +kernel⟩, by decide +kernel, by decide +kernel, by decide +kernel⟩

end World

end LogWatch
