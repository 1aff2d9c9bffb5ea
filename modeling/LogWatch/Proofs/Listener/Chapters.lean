import Mathlib
import LogWatch.Proofs.Listener.AppendOnly
import LogWatch.Proofs.Listener.Standing

/-!
What a follower dispatches of a log that goes through one file after the other.

Every file that the follower opens makes a chapter: the lines that it dispatched of this file and
the lengths at which it came to the file's end. Names may come and go as they like; as long as the
files that were opened only grow, a chapter has complete lines of its own file only, from its start
and without a gap, and a follower leaves a chapter where it last came to the end of it.
-/

namespace LogWatch

/-- What became of one file that the follower opened. -/
structure Chapter where
  file : ℕ
  /-- How much of the file there was that the follower was not to read. -/
  start : ℕ
  /-- The lines dispatched. -/
  lines : List LogLine
  /-- How long the file was each time the follower came to its end. -/
  ends : List ℕ

namespace Chapter

variable {c : Chapter} {d next : Disk}

/-- A chapter has the first lines of its file, among them all that were complete whenever the
follower came to the end of it. -/
structure Fits (c : Chapter) (d : Disk) : Prop where
  lines_isPrefix : c.lines <+: linesFrom c.start (d.bytes c.file)
  covers : ∀ n ∈ c.ends, n ≤ (d.bytes c.file).length ∧
    linesFrom c.start ((d.bytes c.file).take n) <+: c.lines

/-- A chapter has just the lines that were complete when the follower last came to the end, or it
is none of a file. -/
def Complete (c : Chapter) (d : Disk) : Prop :=
  (∃ n ∈ c.ends.getLast?, c.lines = linesFrom c.start ((d.bytes c.file).take n)) ∨
    ¬ d.IsFile c.file

lemma take_of_keeps (h : d.Keeps c.file next) {n : ℕ} (hn : n ≤ (d.bytes c.file).length) :
    (next.bytes c.file).take n = (d.bytes c.file).take n := by
  obtain ⟨more, hmore⟩ := h.bytes_isPrefix
  rw [← hmore, List.take_append_of_le_length hn]

lemma Fits.keep (h : c.Fits d) (hkeeps : d.Keeps c.file next) : c.Fits next := by
  refine ⟨?_, fun n hn => ?_⟩
  · obtain ⟨more, hmore⟩ := hkeeps.bytes_isPrefix
    rw [← hmore]
    exact h.lines_isPrefix.trans (linesFrom_isPrefix _ _ _)
  · obtain ⟨hle, hcovers⟩ := h.covers n hn
    rw [take_of_keeps hkeeps hle]
    exact ⟨hle.trans hkeeps.bytes_isPrefix.length_le, hcovers⟩

lemma Complete.keep (hfits : c.Fits d) (h : c.Complete d) (hkeeps : d.Keeps c.file next) :
    c.Complete next := by
  rcases h with ⟨n, hn, hlines⟩ | hfile
  · refine .inl ⟨n, hn, ?_⟩
    rw [take_of_keeps hkeeps (hfits.covers n (List.mem_of_getLast? hn)).1]
    exact hlines
  · exact .inr fun hnext => hfile (hkeeps.isFile hnext)

lemma Complete.exists_length (hfits : c.Fits d) (h : c.Complete d) :
    ∃ n, (d.IsFile c.file → c.ends.getLast? = some n) ∧
      c.lines = linesFrom c.start ((d.bytes c.file).take n) := by
  rcases h with ⟨n, hn, hlines⟩ | hnot
  · exact ⟨n, fun _ => hn, hlines⟩
  · refine ⟨0, fun his => absurd his hnot, ?_⟩
    have hprefix := hfits.lines_isPrefix
    rw [Disk.bytes_of_not_isFile hnot, linesFrom_nil] at hprefix
    rw [List.take_zero, linesFrom_nil]
    exact List.prefix_nil.mp hprefix

lemma getElem?_snoc_eq_some {past : List Chapter} {now c : Chapter} {g : ℕ} :
    (past ++ [now])[g]? = some c ↔ past[g]? = some c ∨ g = past.length ∧ now = c := by
  rcases Nat.lt_trichotomy g past.length with hg | rfl | hg
  · simp [List.getElem?_append_left hg, hg.ne]
  · simp
  · rw [List.getElem?_eq_none (by simp; omega), List.getElem?_eq_none hg.le]
    simp [hg.ne']

/-- Something of each chapter, chapter after chapter. -/
def layout {α : Type} (part : ℕ → Chapter → List α) (cs : List Chapter) : List α :=
  (cs.mapIdx part).flatten

section Layout

variable {α : Type} (part : ℕ → Chapter → List α)

lemma layout_snoc (past : List Chapter) (c : Chapter) :
    layout part (past ++ [c]) = layout part past ++ part past.length c := by
  simp [layout, List.mapIdx_append]

variable {part} in
lemma mem_layout {cs : List Chapter} {x : α} :
    x ∈ layout part cs ↔ ∃ (g : ℕ) (c : Chapter), cs[g]? = some c ∧ x ∈ part g c := by
  induction cs using List.reverseRecOn with
  | nil => simp [layout]
  | append_singleton past now ih =>
    rw [layout_snoc, List.mem_append, ih]
    constructor
    · rintro (⟨g, c, hc, hx⟩ | hx)
      · exact ⟨g, c, getElem?_snoc_eq_some.mpr (.inl hc), hx⟩
      · exact ⟨past.length, now, getElem?_snoc_eq_some.mpr (.inr ⟨rfl, rfl⟩), hx⟩
    · rintro ⟨g, c, hc, hx⟩
      rcases getElem?_snoc_eq_some.mp hc with hc | ⟨rfl, rfl⟩
      · exact .inl ⟨g, c, hc, hx⟩
      · exact .inr hx

lemma filter_map_layout {β : Type} (p : α → Bool) (h : α → β) (cs : List Chapter) :
    ((layout part cs).filter p).map h =
      layout (fun g c => ((part g c).filter p).map h) cs := by
  induction cs using List.reverseRecOn with
  | nil => rfl
  | append_singleton past now ih =>
    rw [layout_snoc, layout_snoc, List.filter_append, List.map_append, ih]

variable {part} in
lemma layout_congr {part' : ℕ → Chapter → List α} {cs : List Chapter}
    (h : ∀ (g : ℕ) (c : Chapter), cs[g]? = some c → part g c = part' g c) :
    layout part cs = layout part' cs := by
  induction cs using List.reverseRecOn with
  | nil => rfl
  | append_singleton past now ih =>
    rw [layout_snoc, layout_snoc, ih fun g c hc => h g c (getElem?_snoc_eq_some.mpr (.inl hc)),
      h past.length now (getElem?_snoc_eq_some.mpr (.inr ⟨rfl, rfl⟩))]

end Layout

/-- The lines of chapters, as they are dispatched. -/
def sent : List Chapter → List (String × Position) :=
  layout fun g c => c.lines.map (LogLine.placed g)

/-- The ends that the follower came to, each with the number of its chapter. -/
def reached : List Chapter → List (ℕ × ℕ) := layout fun g c => c.ends.map (Prod.mk g)

lemma sent_snoc (past : List Chapter) (c : Chapter) :
    sent (past ++ [c]) = sent past ++ c.lines.map (LogLine.placed past.length) :=
  layout_snoc _ past c

lemma reached_snoc (past : List Chapter) (c : Chapter) :
    reached (past ++ [c]) = reached past ++ c.ends.map (Prod.mk past.length) :=
  layout_snoc _ past c

lemma placed_mem_sent {cs : List Chapter} {g : ℕ} {c : Chapter} (hc : cs[g]? = some c)
    (x : LogLine) : x.placed g ∈ sent cs ↔ x ∈ c.lines := by
  rw [sent, mem_layout]
  constructor
  · rintro ⟨g', c', hc', hx⟩
    obtain ⟨y, hy, hxy⟩ := List.mem_map.mp hx
    obtain rfl : g' = g := congrArg (·.2.generation) hxy
    obtain rfl := Option.some.inj (hc.symm.trans hc')
    rwa [← LogLine.placed_injective g' hxy]
  · exact fun hx => ⟨g, c, hc, List.mem_map_of_mem hx⟩

lemma sent_pairwise {cs : List Chapter} (h : ∀ c ∈ cs, c.Fits d) :
    (sent cs).Pairwise (·.2 < ·.2) := by
  induction cs using List.reverseRecOn with
  | nil => exact .nil
  | append_singleton past now ih =>
    rw [sent_snoc, List.pairwise_append]
    -- within a chapter lines stand in order, and a later chapter has a greater number
    refine ⟨ih fun c hc => h c (List.mem_append_left _ hc), ?_, ?_⟩
    · rw [List.pairwise_map]
      have hnow := h now (List.mem_append_right _ (List.mem_singleton_self _))
      exact ((linesFrom_pairwise _ _).sublist hnow.lines_isPrefix.sublist).imp
        fun hlt => .inr ⟨rfl, hlt⟩
    · intro x hx y hy
      obtain ⟨g, c, hc, hx⟩ := mem_layout.mp hx
      obtain ⟨z, -, rfl⟩ := List.mem_map.mp hx
      obtain ⟨z', -, rfl⟩ := List.mem_map.mp hy
      exact .inl (List.getElem?_eq_some_iff.mp hc).1

/-- The ends of one chapter among all. -/
lemma filter_reached {cs : List Chapter} {g : ℕ} {c : Chapter} (h : cs[g]? = some c) :
    (reached cs).filter (·.1 = g) = c.ends.map (Prod.mk g) := by
  induction cs using List.reverseRecOn with
  | nil => simp at h
  | append_singleton past now ih =>
    rw [reached_snoc, List.filter_append]
    rcases getElem?_snoc_eq_some.mp h with hc | ⟨rfl, rfl⟩
    · have hne := (List.getElem?_eq_some_iff.mp hc).1.ne'
      rw [ih hc, List.filter_eq_nil_iff.mpr, List.append_nil]
      simp [hne]
    · rw [List.filter_eq_nil_iff.mpr, List.nil_append, List.filter_eq_self.mpr]
      · simp
      · intro x hx
        obtain ⟨g, c, hc, hx⟩ := mem_layout.mp hx
        obtain ⟨n, -, rfl⟩ := List.mem_map.mp hx
        simpa using (List.getElem?_eq_some_iff.mp hc).1.ne

/-- The chapters `cs'` come later than `cs`: only the last of these may have changed. -/
def Later (cs cs' : List Chapter) : Prop :=
  ∀ g c, cs[g]? = some c → ∃ c', cs'[g]? = some c' ∧ c'.file = c.file ∧ c'.start = c.start ∧
    (g + 1 < cs.length → c' = c)

lemma Later.refl (cs : List Chapter) : Later cs cs := fun _ c hc => ⟨c, hc, rfl, rfl, fun _ => rfl⟩

lemma Later.trans {cs cs' cs'' : List Chapter} (h : Later cs cs') (h' : Later cs' cs'') :
    Later cs cs'' := by
  intro g c hc
  obtain ⟨c', hc', hfile, hstart, hsame⟩ := h g c hc
  obtain ⟨c'', hc'', hfile', hstart', hsame'⟩ := h' g c' hc'
  refine ⟨c'', hc'', hfile'.trans hfile, hstart'.trans hstart, fun hg => ?_⟩
  -- the next chapter is there later too
  obtain ⟨next, hnext⟩ : ∃ next, cs[g + 1]? = some next := ⟨_, List.getElem?_eq_getElem hg⟩
  obtain ⟨next', hnext', -⟩ := h (g + 1) next hnext
  exact (hsame' (List.getElem?_eq_some_iff.mp hnext').1).trans (hsame hg)

lemma later_replace (past : List Chapter) {now now' : Chapter} (hfile : now'.file = now.file)
    (hstart : now'.start = now.start) : Later (past ++ [now]) (past ++ [now']) := by
  intro g c hc
  rcases getElem?_snoc_eq_some.mp hc with hc | ⟨rfl, rfl⟩
  · exact ⟨c, getElem?_snoc_eq_some.mpr (.inl hc), rfl, rfl, fun _ => rfl⟩
  · exact ⟨now', getElem?_snoc_eq_some.mpr (.inr ⟨rfl, rfl⟩), hfile, hstart,
      fun hg => by simp at hg⟩

lemma later_snoc (cs : List Chapter) (c : Chapter) : Later cs (cs ++ [c]) :=
  fun _ c' hc' => ⟨c', getElem?_snoc_eq_some.mpr (.inl hc'), rfl, rfl, fun _ => rfl⟩

/-- The chapters `cs'` are the chapters `cs` and this more. -/
structure Adds (cs cs' : List Chapter) (lines : List (String × Position)) (ends : List (ℕ × ℕ))
    (files : List ℕ) : Prop where
  later : Later cs cs'
  sent_eq : sent cs' = sent cs ++ lines
  reached_eq : reached cs' = reached cs ++ ends
  files_eq : cs'.map file = cs.map file ++ files

lemma Adds.refl (cs : List Chapter) : Adds cs cs [] [] [] :=
  ⟨.refl cs, (List.append_nil _).symm, (List.append_nil _).symm, (List.append_nil _).symm⟩

lemma Adds.trans {cs cs' cs'' : List Chapter} {lines lines' : List (String × Position)}
    {ends ends' : List (ℕ × ℕ)} {files files' : List ℕ} (h : Adds cs cs' lines ends files)
    (h' : Adds cs' cs'' lines' ends' files') :
    Adds cs cs'' (lines ++ lines') (ends ++ ends') (files ++ files') := by
  refine ⟨h.later.trans h'.later, ?_, ?_, ?_⟩
  · rw [h'.sent_eq, h.sent_eq, List.append_assoc]
  · rw [h'.reached_eq, h.reached_eq, List.append_assoc]
  · rw [h'.files_eq, h.files_eq, List.append_assoc]

end Chapter

/-- Whatever happens to the disk with this move, these files at most get more bytes at the end. -/
def Move.Keeps (files : List ℕ) (d : Disk) : Move → Prop
  | .files next => ∀ file ∈ files, d.Keeps file next
  | _ => True

namespace World

/-! ### What happens to the files of a run -/

/-- Whether the follower has come to the end of its file from one world to the next, and how long
the file was then. -/
def endBetween (w w' : World) : List (ℕ × ℕ) :=
  match w.listener.follower, w'.listener.follower with
  | some f, some f' =>
    if f.phase = .reading ∧ f'.phase = .asking then
      [(f.generation, (w.disk.bytes f.reader.file).length)]
    else []
  | _, _ => []

/-- Whether the follower has gone on with another file from one world to the next. -/
def openBetween (w w' : World) : List ℕ :=
  match w.listener.follower, w'.listener.follower with
  | some f, some f' => if f.generation < f'.generation then [f'.reader.file] else []
  | _, _ => []

/-- What there is from one world to the next, for all moves of a run. -/
def collect {α : Type} (between : World → World → List α) (w : World) : List Move → List α
  | [] => []
  | m :: moves => between w (w.apply m) ++ collect between (w.apply m) moves

lemma collect_append {α : Type} (between : World → World → List α) (w : World)
    (moves more : List Move) :
    collect between w (moves ++ more) =
      collect between w moves ++ collect between (w.run moves) more := by
  induction moves generalizing w with
  | nil => rfl
  | cons m moves ih => simp only [List.cons_append, collect, run_cons, ih, List.append_assoc]

/-- The ends of files that the follower comes to in a run. -/
def ends (w : World) (moves : List Move) : List (ℕ × ℕ) := collect endBetween w moves

/-- The files that the follower goes on with in a run. -/
def opened (w : World) (moves : List Move) : List ℕ := collect openBetween w moves

/-- The file that the follower holds. -/
def held (w : World) : List ℕ := w.listener.follower.toList.map (·.reader.file)

/-- Nothing but bytes at the end comes to these files and to those opened later in the run. Their
names, and all other files, may change as they like. -/
def Appends (w : World) (files : List ℕ) : List Move → Prop
  | [] => True
  | m :: moves =>
    m.Keeps files w.disk ∧ (w.apply m).Appends (files ++ w.openBetween (w.apply m)) moves

variable {w w' : World} {f f' : Follower} {m : Move} {ops : List Ledger.Op}

lemma ends_append (w : World) (moves more : List Move) :
    w.ends (moves ++ more) = w.ends moves ++ (w.run moves).ends more :=
  collect_append _ w moves more

lemma opened_append (w : World) (moves more : List Move) :
    w.opened (moves ++ more) = w.opened moves ++ (w.run moves).opened more :=
  collect_append _ w moves more

lemma appends_append {files : List ℕ} {moves more : List Move} :
    w.Appends files (moves ++ more) ↔
      w.Appends files moves ∧ (w.run moves).Appends (files ++ w.opened moves) more := by
  induction moves generalizing w files with
  | nil => simp [Appends, opened, collect]
  | cons m moves ih =>
    simp only [List.cons_append, Appends, run_cons, ih, opened, collect, and_assoc,
      List.append_assoc]

lemma keeps_apply {files : List ℕ} (h : m.Keeps files w.disk) {file : ℕ} (hfile : file ∈ files) :
    w.disk.Keeps file (w.apply m).disk := by
  cases m with
  | files next => exact h file hfile
  | answer | listen | drop | collect | requestStop => exact .refl file _
  | sweep | finishStop =>
    simp only [apply]
    split <;> exact .refl file _
  | follow =>
    simp only [apply, follow]
    split <;> exact .refl file _

lemma Appends.keeps {files : List ℕ} {moves : List Move} (h : w.Appends files moves) {file : ℕ}
    (hfile : file ∈ files) : w.disk.Keeps file (w.run moves).disk := by
  induction moves generalizing w files with
  | nil => exact .refl file _
  | cons m moves ih => exact (keeps_apply h.1 hfile).trans (ih h.2 (List.mem_append_left _ hfile))

lemma endBetween_eq_nil (hf : w.listener.follower = some f) (hf' : w'.listener.follower = some f')
    (h : f.phase = .reading → f'.phase ≠ .asking) : w.endBetween w' = [] := by
  simp only [endBetween, hf, hf']
  rw [if_neg]
  exact fun hend => h hend.1 hend.2

lemma openBetween_eq_nil (hf : w.listener.follower = some f)
    (hf' : w'.listener.follower = some f') (h : f'.generation = f.generation) :
    w.openBetween w' = [] := by
  simp only [openBetween, hf, hf', h, lt_irrefl, if_false]

/-! ### Each move keeps to the chapters -/

/-- The chapters of a run so far. The follower `f` reads the last of them, `now`, and has `hand` of
it in its hand. -/
structure Told (start : ℕ) (past : List Chapter) (now : Chapter) (w : World) (f : Follower)
    (hand : Option LogLine) : Prop where
  follows : Follows w f
  generation : f.generation = past.length
  file_eq : f.reader.file = now.file
  hand_eq : w.hand = hand.map (LogLine.placed past.length)
  tracks : Reader.Tracks now.start f.reader w.disk (now.lines ++ hand.toList)
  covers : ∀ n ∈ now.ends, n ≤ (w.disk.bytes now.file).length ∧
    linesFrom now.start ((w.disk.bytes now.file).take n) <+: now.lines
  atEnd : f.phase.atEnd = true → now.Complete w.disk
  left : ∀ c ∈ past, c.Fits w.disk ∧ c.Complete w.disk
  starts : (past ++ [now]).map (·.start) = start :: List.replicate past.length 0

variable {start : ℕ} {past : List Chapter} {now : Chapter} {hand : Option LogLine}

lemma Told.lines_isPrefix (h : Told start past now w f hand) :
    now.lines <+: linesFrom now.start (w.disk.bytes now.file) := by
  rw [← h.file_eq]
  exact (List.prefix_append _ _).trans h.tracks.done_isPrefix

lemma Told.fits (h : Told start past now w f hand) : now.Fits w.disk :=
  ⟨h.lines_isPrefix, h.covers⟩

lemma Told.fits_of_mem (h : Told start past now w f hand) {c : Chapter} (hc : c ∈ past ++ [now]) :
    c.Fits w.disk := by
  rcases List.mem_append.mp hc with hc | hc
  · exact (h.left c hc).1
  · rw [List.mem_singleton.mp hc]
    exact h.fits

lemma Told.quiet (h : Told start past now w f hand) (hfollows : Follows w' f')
    (hdisk : w'.disk = w.disk) (hhand : w'.hand = w.hand) (hreader : f'.reader = f.reader)
    (hgeneration : f'.generation = f.generation)
    (hend : f'.phase.atEnd = true → f.phase.atEnd = true ∨ ¬ w.disk.IsFile f.reader.file) :
    Told start past now w' f' hand := by
  refine ⟨hfollows, hgeneration.trans h.generation, ?_, hhand.trans h.hand_eq, ?_, ?_,
    fun hend' => ?_, ?_, h.starts⟩
  · rw [hreader]
    exact h.file_eq
  · rw [hreader, hdisk]
    exact h.tracks
  · rw [hdisk]
    exact h.covers
  · rw [hdisk]
    rcases hend hend' with hend | hfile
    · exact h.atEnd hend
    · exact .inr (h.file_eq ▸ hfile)
  · rw [hdisk]
    exact h.left

lemma Told.files (h : Told start past now w f hand) {next : Disk}
    (hkeeps : ∀ file ∈ (past ++ [now]).map (·.file), w.disk.Keeps file next) :
    Told start past now { w with disk := next } f hand := by
  have hmem : ∀ c ∈ past ++ [now], w.disk.Keeps c.file next := fun c hc =>
    hkeeps c.file (List.mem_map_of_mem hc)
  have hnow : w.disk.Keeps now.file next :=
    hmem now (List.mem_append_right _ (List.mem_singleton_self _))
  refine ⟨?_, h.generation, h.file_eq, h.hand_eq, h.tracks.keep (by rwa [h.file_eq]),
    (h.fits.keep hnow).covers, fun hend => (h.atEnd hend).keep h.fits hnow, fun c hc => ?_,
    h.starts⟩
  · exact ⟨h.follows.follower, h.follows.generation, h.follows.idle,
      h.follows.stands.of_same rfl rfl fun _ hempty => hempty⟩
  · have hc' := hmem c (List.mem_append_left _ hc)
    obtain ⟨hfits, hcomplete⟩ := h.left c hc
    exact ⟨hfits.keep hc', hcomplete.keep hfits hc'⟩

lemma Told.sends {x : LogLine} (h : Told start past now w f (some x)) (hfollows : Follows w' f)
    (hdisk : w'.disk = w.disk) (hhand : w'.hand = none) :
    Told start past { now with lines := now.lines ++ [x] } w' f none := by
  refine ⟨hfollows, h.generation, h.file_eq, hhand, ?_, fun n hn => ?_, fun hend => ?_, ?_, ?_⟩
  · rw [hdisk, Option.toList_none, List.append_nil]
    exact h.tracks
  · rw [hdisk]
    obtain ⟨hle, hcovers⟩ := h.covers n hn
    exact ⟨hle, hcovers.trans (List.prefix_append _ _)⟩
  · have hreading := h.follows.phase_of_hand h.hand_eq
    simp [hreading, Phase.atEnd] at hend
  · rw [hdisk]
    exact h.left
  · rw [← h.starts, List.map_append, List.map_append]
    rfl

lemma Told.reads (h : Told start past now w f none) {reader : Reader} {line : String}
    (hnext : f.reader.next w.disk = .ok (reader, some line))
    (hreading : f.phase = .reading) (hfollows : Follows w' { f with reader })
    (hdisk : w'.disk = w.disk) (hhand : w'.hand = some (line, ⟨f.generation, reader.consumed⟩)) :
    Told start past now w' { f with reader } (some ⟨line, reader.consumed⟩) := by
  have htracks := h.tracks
  rw [Option.toList_none, List.append_nil] at htracks
  refine ⟨hfollows, h.generation, (Reader.next_same hnext).2.trans h.file_eq, ?_, ?_, ?_,
    fun hend => ?_, ?_, h.starts⟩
  · rw [hhand, h.generation]
    rfl
  · rw [hdisk]
    exact htracks.read hnext
  · rw [hdisk]
    exact h.covers
  · simp [hreading, Phase.atEnd] at hend
  · rw [hdisk]
    exact h.left

lemma Told.reachesEnd (h : Told start past now w f none) {reader : Reader}
    (hnext : f.reader.next w.disk = .ok (reader, none))
    (hfollows : Follows w' { f with reader, phase := .asking }) (hdisk : w'.disk = w.disk)
    (hhand : w'.hand = none) :
    Told start past { now with ends := now.ends ++ [(w.disk.bytes now.file).length] } w'
      { f with reader, phase := .asking } none := by
  have htracks := h.tracks
  rw [Option.toList_none, List.append_nil] at htracks
  obtain ⟨htracks', hlines⟩ := htracks.reach hnext
  rw [h.file_eq] at hlines
  -- this end is the length of the file, and all that is complete up to there was dispatched
  refine ⟨hfollows, h.generation, (Reader.next_same hnext).2.trans h.file_eq, hhand, ?_,
    fun n hn => ?_, fun _ => .inl ⟨_, List.getLast?_concat, ?_⟩, ?_, ?_⟩
  · rw [hdisk, Option.toList_none, List.append_nil]
    exact htracks'
  · rw [hdisk]
    rcases List.mem_append.mp hn with hn | hn
    · exact h.covers n hn
    · obtain rfl := List.mem_singleton.mp hn
      refine ⟨le_rfl, ?_⟩
      rw [List.take_length, ← hlines]
  · rw [hdisk, List.take_length]
    exact hlines
  · rw [hdisk]
    exact h.left
  · rw [← h.starts, List.map_append, List.map_append]
    rfl

lemma Told.reattaches (h : Told start past now w f none) {path : String} {reader : Reader}
    (hend : f.phase.atEnd = true) (hopen : Reader.openAt w.disk path false = .ok reader)
    (hfollows : Follows w' { f with reader, generation := f.generation + 1, phase := .reading })
    (hdisk : w'.disk = w.disk) (hhand : w'.hand = none) :
    Told start (past ++ [now]) ⟨reader.file, 0, [], []⟩ w'
      { f with reader, generation := f.generation + 1, phase := .reading } none := by
  -- the follower had come to an end of the chapter that it leaves
  refine ⟨hfollows, ?_, rfl, hhand, ?_, fun n hn => ?_, fun hreading => ?_, fun c hc => ?_, ?_⟩
  · rw [List.length_append, ← h.generation]
    rfl
  · rw [hdisk]
    exact Reader.tracks_open hopen
  · simp at hn
  · simp [Phase.atEnd] at hreading
  · rw [hdisk]
    rcases List.mem_append.mp hc with hc | hc
    · exact h.left c hc
    · rw [List.mem_singleton.mp hc]
      exact ⟨h.fits, h.atEnd hend⟩
  · rw [List.map_append, h.starts, List.length_append, List.length_singleton,
      List.replicate_succ']
    rfl

/-- The chapters after a step, with what the step adds to them. -/
def GoesOn (start : ℕ) (chapters : List Chapter) (w' : World) (lines : List (String × Position))
    (ends : List (ℕ × ℕ)) (files : List ℕ) : Prop :=
  ∃ past now f hand, Told start past now w' f hand ∧
    Chapter.Adds chapters (past ++ [now]) lines ends files

lemma line?_of_calm {op : Ledger.Op} (h : op.isCalm = true) : op.line? = none := by
  cases op with
  | dispatch now line lineEnd | rejectAll cause => simp [Ledger.Op.isCalm] at h
  | register | drop | collect | sweep => rfl

lemma Told.turn (h : Told start past now w f hand) (hturn : Turn w f m w' ops)
    (hkeeps : m.Keeps ((past ++ [now]).map (·.file)) w.disk) :
    GoesOn start (past ++ [now]) w' (ops.filterMap Ledger.Op.line?) (w.endBetween w')
      (w.openBetween w') := by
  obtain ⟨f', hfollows⟩ := h.follows.turn hturn
  have hf := h.follows.follower
  have hf' := hfollows.follower
  -- most turns leave the reader alone
  have hquiet : ops.filterMap Ledger.Op.line? = [] → w'.disk = w.disk → w'.hand = w.hand →
      f'.reader = f.reader → f'.generation = f.generation →
      (f.phase = .reading → f'.phase ≠ .asking) →
      (f'.phase.atEnd = true → f.phase.atEnd = true ∨ ¬ w.disk.IsFile f.reader.file) →
      GoesOn start (past ++ [now]) w' (ops.filterMap Ledger.Op.line?) (w.endBetween w')
        (w.openBetween w') := by
    intro hops hdisk hhand hreader hgeneration hphase hend
    rw [hops, endBetween_eq_nil hf hf' hphase, openBetween_eq_nil hf hf' hgeneration]
    exact ⟨past, now, f', hand, h.quiet hfollows hdisk hhand hreader hgeneration hend, .refl _⟩
  cases hturn with
  | still | asksToStop | closesAgain =>
    obtain rfl := Option.some.inj (hf.symm.trans hf')
    exact hquiet rfl rfl rfl rfl rfl (fun hreading hasking => by simp [hreading] at hasking) .inl
  | calls op hcalm =>
    obtain rfl := Option.some.inj (hf.symm.trans hf')
    exact hquiet (by simp [line?_of_calm hcalm]) rfl rfl rfl rfl
      (fun hreading hasking => by simp [hreading] at hasking) .inl
  | files next =>
    obtain rfl := Option.some.inj (hf.symm.trans hf')
    rw [endBetween_eq_nil hf hf' fun hreading hasking => by simp [hreading] at hasking,
      openBetween_eq_nil hf hf' rfl]
    exact ⟨past, now, f, hand, h.files hkeeps, .refl _⟩
  | turns phase ops hidle hlive hlive' hother hend hcalm =>
    obtain rfl := Option.some.inj hf'
    refine hquiet (List.filterMap_eq_nil_iff.mpr fun op hop => line?_of_calm (hcalm op hop)) rfl rfl
      rfl rfl (fun _ => hother) fun hend' => (hend hend').imp_right ?_
    rintro ⟨e, he⟩
    exact h.tracks.not_isFile he
  | endsStream =>
    obtain rfl := Option.some.inj hf'
    exact hquiet rfl rfl rfl rfl rfl (fun _ => by simp) (fun hend => by simp [Phase.atEnd] at hend)
  | closes =>
    obtain rfl := Option.some.inj hf'
    exact hquiet rfl rfl rfl rfl rfl (fun _ => by simp) (fun hend => by simp [Phase.atEnd] at hend)
  | sends now' hhand =>
    obtain rfl := Option.some.inj (hf.symm.trans hf')
    obtain ⟨x, rfl, hx⟩ := Option.map_eq_some_iff.mp (h.hand_eq.symm.trans hhand)
    rw [endBetween_eq_nil hf hf' fun hreading hasking => by simp [hreading] at hasking,
      openBetween_eq_nil hf hf' rfl]
    -- the line in the hand joins the last chapter
    refine ⟨past, _, f, none, h.sends hfollows rfl rfl, Chapter.later_replace _ rfl rfl, ?_, ?_, ?_⟩
    · rw [Chapter.sent_snoc, Chapter.sent_snoc, List.append_assoc, List.map_append,
        List.map_singleton, hx]
      rfl
    · rw [Chapter.reached_snoc, Chapter.reached_snoc, List.append_nil]
    · rw [List.map_append, List.map_append, List.append_nil]
      rfl
  | reads now' hhand hreading hnext =>
    obtain rfl := Option.some.inj hf'
    obtain rfl := Option.map_eq_none_iff.mp (h.hand_eq.symm.trans hhand)
    rw [endBetween_eq_nil hf hf' fun _ hasking => by simp [hreading] at hasking,
      openBetween_eq_nil hf hf' rfl]
    exact ⟨past, now, _, _, h.reads hnext hreading hfollows rfl rfl, .refl _⟩
  | @reachesEnd now' reader hhand hreading hnext =>
    obtain rfl := Option.some.inj hf'
    obtain rfl := Option.map_eq_none_iff.mp (h.hand_eq.symm.trans hhand)
    rw [openBetween_eq_nil hf hf' rfl]
    have hend : w.endBetween { w with
        listener := w.listener.setFollower { f with reader, phase := .asking } } =
          [(past.length, (w.disk.bytes now.file).length)] := by
      simp only [endBetween, hf, Listener.setFollower, hreading, and_self, if_true, h.generation,
        h.file_eq]
    rw [hend]
    -- the length of the file joins the ends of the last chapter
    refine ⟨past, _, _, none, h.reachesEnd hnext hfollows rfl hhand,
      Chapter.later_replace _ rfl rfl, ?_, ?_, ?_⟩
    · rw [Chapter.sent_snoc, Chapter.sent_snoc]
      exact (List.append_nil _).symm
    · rw [Chapter.reached_snoc, Chapter.reached_snoc, List.append_assoc, List.map_append]
      rfl
    · rw [List.map_append, List.map_append, List.append_nil]
      rfl
  | reattaches hphase hopen =>
    obtain rfl := Option.some.inj hf'
    obtain ⟨left, last, hphase⟩ := hphase
    have hhand := h.follows.idle (by simp [hphase])
    obtain rfl := Option.map_eq_none_iff.mp (h.hand_eq.symm.trans hhand)
    rw [endBetween_eq_nil hf hf' fun hreading => by simp [hphase] at hreading]
    -- the next chapter has no line and no end yet
    refine ⟨past ++ [now], _, _, none,
      h.reattaches (by rw [hphase]; rfl) hopen hfollows rfl hhand, Chapter.later_snoc _ _, ?_, ?_,
      ?_⟩
    · rw [Chapter.sent_snoc]
      rfl
    · rw [Chapter.reached_snoc]
      rfl
    · rw [List.map_append]
      simp [openBetween, hf]

/-- **A run goes on with the chapters.** -/
lemma Told.run (h : Told start past now w f hand) {moves : List Move}
    (happends : w.Appends ((past ++ [now]).map (·.file)) moves) :
    GoesOn start (past ++ [now]) (w.run moves) (w.dispatched moves) (w.ends moves)
      (w.opened moves) := by
  induction moves generalizing w f hand past now with
  | nil => exact ⟨past, now, f, hand, h, .refl _⟩
  | cons m moves ih =>
    obtain ⟨hkeeps, hlater⟩ := happends
    obtain ⟨past₁, now₁, f₁, hand₁, htold, hadds⟩ :=
      h.turn (turn_apply h.follows.follower m) hkeeps
    rw [← hadds.files_eq] at hlater
    obtain ⟨past₂, now₂, f₂, hand₂, htold₂, hadds₂⟩ := ih htold hlater
    refine ⟨past₂, now₂, f₂, hand₂, htold₂, ?_⟩
    rw [dispatched, ops, List.filterMap_append]
    exact hadds.trans hadds₂

lemma told_begin {d : Disk} {s : Settings} {alive : Bool} {reported : Option String}
    {l : Listener} (h : Listener.attach d s alive reported = .ok l) :
    ∃ f file, (begin d l).held = [file] ∧
      Told (d.size file) [] ⟨file, d.size file, [], []⟩ (begin d l) f none := by
  obtain ⟨f, hf⟩ := follows_begin h
  obtain ⟨path, reader, -, hopen, rfl⟩ := Listener.attach_eq h
  obtain rfl := Option.some.inj hf.follower
  exact ⟨_, reader.file, rfl, hf, rfl, rfl, rfl, Reader.tracks_open hopen,
    fun n hn => by simp at hn, fun hend => by simp [Phase.atEnd] at hend,
    fun c hc => by simp at hc, rfl⟩

/-- Reading began at `start` in the first chapter, and at the top in all others. -/
lemma Told.start_eq (h : Told start past now w f hand) {g : ℕ} {c : Chapter}
    (hc : (past ++ [now])[g]? = some c) : c.start = if g = 0 then start else 0 := by
  have hstart : ((past ++ [now]).map (·.start))[g]? = some c.start := by
    rw [List.getElem?_map, hc]
    rfl
  rw [h.starts] at hstart
  cases g with
  | zero => exact (Option.some.inj hstart).symm
  | succ g =>
    rw [List.getElem?_cons_succ] at hstart
    exact List.eq_of_mem_replicate (List.mem_of_getElem? hstart)

lemma Told.complete_of_lt (h : Told start past now w f hand) {g : ℕ} {c : Chapter}
    (hc : (past ++ [now])[g]? = some c) (hg : g < past.length) : c.Complete w.disk := by
  rw [List.getElem?_append_left hg] at hc
  exact (h.left c (List.mem_of_getElem? hc)).2

/-- These are the chapters of a run, with all that it dispatched, of a listener that was attached
on the disk `d`. -/
structure Recounts (d : Disk) (l : Listener) (moves : List Move) (chapters : List Chapter) :
    Prop where
  sent_eq : Chapter.sent chapters = (begin d l).dispatched moves
  reached_eq : Chapter.reached chapters = (begin d l).ends moves
  files_eq : chapters.map (·.file) = (begin d l).held ++ (begin d l).opened moves
  length_eq : chapters.length = ((begin d l).run moves).listener.stream.generation + 1
  held_eq : ∀ c ∈ chapters.getLast?, ((begin d l).run moves).held = [c.file]
  start_eq : ∀ g c, chapters[g]? = some c → c.start = if g = 0 then d.size c.file else 0
  fits : ∀ c ∈ chapters, c.Fits ((begin d l).run moves).disk
  complete : ∀ g c, chapters[g]? = some c →
    g < ((begin d l).run moves).listener.stream.generation →
      c.Complete ((begin d l).run moves).disk

lemma Told.recounts {d : Disk} {l : Listener} {file : ℕ} {moves : List Move}
    (hheld : (begin d l).held = [file])
    (h : Told (d.size file) past now ((begin d l).run moves) f hand)
    (hadds : Chapter.Adds [⟨file, d.size file, [], []⟩] (past ++ [now])
      ((begin d l).dispatched moves) ((begin d l).ends moves) ((begin d l).opened moves)) :
    Recounts d l moves (past ++ [now]) := by
  have hlength : ((begin d l).run moves).listener.stream.generation = past.length :=
    h.follows.generation.trans h.generation
  have hfiles : (past ++ [now]).map (·.file) = file :: (begin d l).opened moves := hadds.files_eq
  refine ⟨hadds.sent_eq, hadds.reached_eq, hheld ▸ hfiles, ?_, fun c hc => ?_, fun g c hc => ?_,
    fun c => h.fits_of_mem, fun g c hc hg => h.complete_of_lt hc (hlength ▸ hg)⟩
  · rw [hlength, List.length_append, List.length_singleton]
  · rw [List.getLast?_concat] at hc
    rw [← Option.some.inj hc, held, h.follows.follower, ← h.file_eq]
    rfl
  · rw [h.start_eq hc]
    split
    · rename_i hzero
      have hfile : ((past ++ [now]).map (·.file))[0]? = some c.file := by
        rw [List.getElem?_map, ← hzero, hc]
        rfl
      rw [hfiles] at hfile
      rw [Option.some.inj hfile]
    · rfl

lemma Recounts.exists_chapter {d : Disk} {l : Listener} {moves : List Move}
    {chapters : List Chapter} (h : Recounts d l moves chapters) {g : ℕ}
    (hg : g ≤ ((begin d l).run moves).listener.stream.generation) :
    ∃ c, chapters[g]? = some c ∧
      ((begin d l).held ++ (begin d l).opened moves)[g]? = some c.file := by
  have hlt : g < chapters.length := by
    rw [h.length_eq]
    exact Nat.lt_succ_of_le hg
  refine ⟨_, List.getElem?_eq_getElem hlt, ?_⟩
  rw [← h.files_eq, List.getElem?_map, List.getElem?_eq_getElem hlt]
  rfl

lemma exists_recounts {d : Disk} {s : Settings} {alive : Bool} {reported : Option String}
    {l : Listener} (hattach : Listener.attach d s alive reported = .ok l)
    {before after : List Move} (happends : (begin d l).Appends (begin d l).held (before ++ after)) :
    ∃ chapters chapters', Recounts d l before chapters ∧
      Recounts d l (before ++ after) chapters' ∧ Chapter.Later chapters chapters' := by
  obtain ⟨f, file, hheld, htold⟩ := told_begin hattach
  obtain ⟨hbefore, hafter⟩ := appends_append.mp happends
  rw [hheld] at hbefore hafter
  obtain ⟨past, now, f', hand, hmid, hadds⟩ := htold.run hbefore
  have hfiles : (past ++ [now]).map (·.file) = [file] ++ (begin d l).opened before :=
    hadds.files_eq
  rw [← hfiles] at hafter
  obtain ⟨past', now', f'', hand', hend, hadds'⟩ := hmid.run hafter
  rw [← run_append] at hend
  have hall := hadds.trans hadds'
  rw [← dispatched_append, ← ends_append, ← opened_append] at hall
  exact ⟨_, _, hmid.recounts hheld hadds, hend.recounts hheld hall, hadds'.later⟩

/-- **The lines of successive files are dispatched as whole lines, in order, file after file.** In
any run in which nothing but bytes at the end comes to the files that the follower opened, all that
it dispatches is a chapter for each of them, one after the other. A chapter has the first complete
lines of its file, from the length at which the first file was attached or from the top of a later
one, with nothing left out, and never an unterminated rest; among them are all that were complete
whenever the follower came to the end of the file, and just those of the last time once it has
gone on with another. -/
theorem dispatches_file_after_file {d : Disk} {s : Settings} {alive : Bool}
    {reported : Option String} {l : Listener}
    (hattach : Listener.attach d s alive reported = .ok l) {moves : List Move}
    (happends : (begin d l).Appends (begin d l).held moves) :
    ∃ chapters : List Chapter,
      Chapter.sent chapters = (begin d l).dispatched moves ∧
      Chapter.reached chapters = (begin d l).ends moves ∧
      ((begin d l).dispatched moves).Pairwise (·.2 < ·.2) ∧
      chapters.map (·.file) = (begin d l).held ++ (begin d l).opened moves ∧
      chapters.length = ((begin d l).run moves).listener.stream.generation + 1 ∧
      ∀ g c, chapters[g]? = some c →
        c.start = (if g = 0 then d.size c.file else 0) ∧
        c.Fits ((begin d l).run moves).disk ∧
        (∀ whole rest, ((begin d l).run moves).disk.bytes c.file = whole ++ rest →
          Reader.newline ∉ rest → c.lines <+: linesFrom c.start whole) ∧
        (g < ((begin d l).run moves).listener.stream.generation →
          c.Complete ((begin d l).run moves).disk) := by
  rw [← List.append_nil moves] at happends
  obtain ⟨chapters, -, h, -⟩ := exists_recounts hattach happends
  refine ⟨chapters, h.sent_eq, h.reached_eq, ?_, h.files_eq, h.length_eq, fun g c hc => ?_⟩
  · rw [← h.sent_eq]
    exact Chapter.sent_pairwise h.fits
  · have hfits := h.fits c (List.mem_of_getElem? hc)
    refine ⟨h.start_eq g c hc, hfits, fun whole rest hbytes hrest => ?_, h.complete g c hc⟩
    rw [← linesFrom_append_of_notMem _ _ hrest, ← hbytes]
    exact hfits.lines_isPrefix

end World

/-- The log has another name now, and a new log is where it was. -/
def Disk.renamed (old new : String) : Disk :=
  ⟨#[.folder 1 [("old", 2), ("log", 3)], .folder 1 [], .file old.toUTF8.data.toList,
    .file new.toUTF8.data.toList]⟩

/-- The log has got another name, and there is none yet where it was. -/
def Disk.away (old : String) : Disk :=
  ⟨#[.folder 1 [("old", 2)], .folder 1 [], .file old.toUTF8.data.toList]⟩

lemma Disk.keeps_renamed (old new : String) : (Disk.withLog old).Keeps 2 (.renamed old new) := by
  have haway : (Disk.withLog old).rename "log" "old" = .ok (.away old) := rfl
  have hnone : (Disk.away old).find "log" = .error .notFound := rfl
  have hwritten : (Disk.away old).write "log" new.toUTF8.data.toList = .ok (.renamed old new) :=
    rfl
  refine (keeps_rename haway 2).trans (keeps_write (Nat.lt_succ_self 2) ?_ _ hwritten)
  rw [hnone]
  simp

lemma Disk.keeps_withLog {old new : String} (more : Bytes)
    (h : (Disk.withLog old).append "log" more = .ok (.withLog new)) :
    (Disk.withLog old).Keeps 2 (.withLog new) :=
  keeps_append (Nat.lt_succ_self 2) more h

/-- The log gets a line and a rest; the follower comes to the end, and goes on with a new log. -/
def Move.renaming : List Move :=
  [.files (.withLog "a\nrest"), .follow 0, .follow 1, .follow 2, .files (.renamed "a\nrest" "b\n"),
    .answer (.path (some "log")), .follow 3, .answer (.path (some "log")), .follow 4, .follow 5]

namespace World

/-- The rest at the end of the old log is neither dispatched nor joined to the line of the new. -/
theorem dispatches_file_after_renaming :
    ∃ chapters, (begin (.withLog "") (.atEnd 0)).dispatched Move.renaming = Chapter.sent chapters ∧
      Chapter.sent chapters = [("a", ⟨0, 2⟩), ("b", ⟨1, 2⟩)] ∧
      Chapter.reached chapters = [(0, 6)] ∧ chapters.map (·.file) = [2, 3] := by
  have hattach : Listener.attach (.withLog "") .standard true (some "log") = .ok (.atEnd 0) := rfl
  have happends : (begin (.withLog "") (.atEnd 0)).Appends [2] Move.renaming := by
    refine ⟨?_, trivial, trivial, trivial, ?_, trivial, trivial, trivial, trivial, trivial, trivial⟩
    · intro file hfile
      rw [List.mem_singleton.mp hfile]
      exact Disk.keeps_withLog "a\nrest".toUTF8.data.toList (by decide +kernel)
    · intro file hfile
      rw [List.mem_singleton.mp (show file ∈ [2] from hfile)]
      exact Disk.keeps_renamed _ _
  obtain ⟨chapters, hsent, hreached, -, hfiles, -⟩ := dispatches_file_after_file hattach happends
  refine ⟨chapters, hsent.symm, hsent.trans ?_, hreached.trans ?_, hfiles.trans ?_⟩
  · decide +kernel
  · decide +kernel
  · decide +kernel

end World

end LogWatch
