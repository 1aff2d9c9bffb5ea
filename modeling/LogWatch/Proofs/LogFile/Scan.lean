import Mathlib
import LogWatch.LogFile.Reader

/-!
The lines of a log file as a scan of its bytes, and the reader against it.

The scan reads byte after byte: a newline completes the fragment before it to a line, which ends
just past the newline. A reader that was opened at some place and has handed out some lines is in
step with the scan of the bytes up to its offset, whatever it has in its buffer, and stays so
while the file grows.
-/

namespace LogWatch

/-- A complete line of a log file: its text, and the place just past its newline. -/
structure LogLine where
  text : String
  stop : ℕ
deriving DecidableEq, Repr

/-- A scan that has come to `stop`, with the fragment after the last line and all lines. -/
structure Scan where
  stop : ℕ
  fragment : Bytes
  lines : List LogLine
deriving DecidableEq, Repr

namespace Scan

/-- The text of a complete raw line. -/
def text (raw : Bytes) : String := Text.decodeLossy (Reader.trimEnd raw)

def step (s : Scan) (b : UInt8) : Scan :=
  if b = Reader.newline then
    ⟨s.stop + 1, [], s.lines ++ [⟨text (s.fragment ++ [b]), s.stop + 1⟩]⟩
  else ⟨s.stop + 1, s.fragment ++ [b], s.lines⟩

def run (s : Scan) (bytes : Bytes) : Scan := bytes.foldl step s

/-- A scan about to begin at a place. -/
def begin (start : ℕ) : Scan := ⟨start, [], []⟩

@[simp] lemma run_nil (s : Scan) : s.run [] = s := rfl
@[simp] lemma run_cons (s : Scan) (b : UInt8) (bytes : Bytes) :
    s.run (b :: bytes) = (s.step b).run bytes := rfl
lemma run_append (s : Scan) (bytes more : Bytes) :
    s.run (bytes ++ more) = (s.run bytes).run more := by
  simp [run, List.foldl_append]

lemma run_of_notMem {bytes : Bytes} (h : Reader.newline ∉ bytes) (s : Scan) :
    s.run bytes = ⟨s.stop + bytes.length, s.fragment ++ bytes, s.lines⟩ := by
  induction bytes generalizing s with
  | nil => simp
  | cons b bytes ih =>
    simp only [List.mem_cons, not_or] at h
    rw [run_cons, step, if_neg (Ne.symm h.1), ih h.2]
    simp only [List.length_cons, List.append_assoc, List.singleton_append, Scan.mk.injEq, and_true]
    omega

lemma run_line {bytes : Bytes} (h : Reader.newline ∉ bytes) (s : Scan) :
    s.run (bytes ++ [Reader.newline]) =
      ⟨s.stop + (bytes ++ [Reader.newline]).length, [],
        s.lines ++ [⟨text (s.fragment ++ (bytes ++ [Reader.newline])),
          s.stop + (bytes ++ [Reader.newline]).length⟩]⟩ := by
  rw [run_append, run_of_notMem h, run_cons, step, if_pos rfl, run_nil]
  simp [Nat.add_assoc]

lemma lines_prefix (s : Scan) (bytes : Bytes) : s.lines <+: (s.run bytes).lines := by
  induction bytes generalizing s with
  | nil => exact List.prefix_rfl
  | cons b bytes ih =>
    refine List.IsPrefix.trans ?_ (ih (s.step b))
    unfold step
    split
    · exact List.prefix_append _ _
    · exact List.prefix_rfl

lemma stop_le {s : Scan} (h : ∀ x ∈ s.lines, x.stop ≤ s.stop) (bytes : Bytes) :
    ∀ x ∈ (s.run bytes).lines, x.stop ≤ (s.run bytes).stop := by
  induction bytes generalizing s with
  | nil => exact h
  | cons b bytes ih =>
    refine ih fun x hx => ?_
    unfold step at hx ⊢
    split at hx
    · rename_i hb
      simp only [hb, if_true]
      rcases List.mem_append.mp hx with hx | hx
      · exact Nat.le_succ_of_le (h x hx)
      · rw [List.mem_singleton.mp hx]
    · rename_i hb
      simp only [hb, if_false]
      exact Nat.le_succ_of_le (h x hx)

end Scan

/-- The complete lines of a file from a place on. -/
def linesFrom (start : ℕ) (bytes : Bytes) : List LogLine :=
  ((Scan.begin start).run (bytes.drop start)).lines

namespace Reader

/-! ### Cutting a line off -/

lemma cutLine_eq_none {bytes : Bytes} (h : cutLine bytes = none) : newline ∉ bytes := by
  induction bytes with
  | nil => simp
  | cons b bytes ih =>
    unfold cutLine at h
    split at h
    · simp at h
    · rename_i hb
      simp only [Option.map_eq_none_iff] at h
      simp only [List.mem_cons, not_or]
      exact ⟨Ne.symm hb, ih h⟩

lemma cutLine_eq_some {bytes line rest : Bytes} (h : cutLine bytes = some (line, rest)) :
    bytes = line ++ rest ∧ ∃ start, line = start ++ [newline] ∧ newline ∉ start := by
  induction bytes generalizing line with
  | nil => simp [cutLine] at h
  | cons b bytes ih =>
    unfold cutLine at h
    split at h
    · rename_i hb
      simp only [Option.some.injEq, Prod.mk.injEq] at h
      obtain ⟨rfl, rfl⟩ := h
      exact ⟨rfl, [], by simp [hb]⟩
    · rename_i hb
      obtain ⟨⟨line', rest'⟩, hcut, heq⟩ := Option.map_eq_some_iff.mp h
      simp only [Prod.mk.injEq] at heq
      obtain ⟨rfl, rfl⟩ := heq
      obtain ⟨hbytes, start, hline, hstart⟩ := ih hcut
      refine ⟨by rw [hbytes, List.cons_append], b :: start, by rw [hline, List.cons_append], ?_⟩
      simp only [List.mem_cons, not_or]
      exact ⟨Ne.symm hb, hstart⟩

lemma taken_le (wanted available : ℕ) : taken wanted available ≤ available :=
  min_le_left _ _

lemma length_le_taken {wanted available : ℕ} (h : wanted ≤ available) :
    wanted ≤ taken wanted available := by
  have hblocks : wanted ≤ (wanted + bufferSize - 1) / bufferSize * bufferSize := by
    simp only [bufferSize]
    omega
  exact le_min h hblocks

/-! ### The reader and the scan -/

/-- A reader opened at `start` that has handed out `done` is in step with the scan of the file
up to its offset, and its buffer holds what comes next. -/
structure InStep (start : ℕ) (r : Reader) (bytes : Bytes) (done : List LogLine) : Prop where
  scan : (Scan.begin start).run ((bytes.take r.offset).drop start) = ⟨r.offset, r.fragment, done⟩
  start_le : start ≤ r.offset
  buffer : bytes.drop r.offset = r.buffer ++ bytes.drop r.position
  position : r.position = r.offset + r.buffer.length
  position_le : r.position ≤ bytes.length

namespace InStep

variable {start : ℕ} {r : Reader} {bytes : Bytes} {done : List LogLine}

lemma offset_le (h : InStep start r bytes done) : r.offset ≤ bytes.length := by
  have := h.position
  have := h.position_le
  omega

lemma run_all (h : InStep start r bytes done) :
    (Scan.begin start).run (bytes.drop start) =
      Scan.run ⟨r.offset, r.fragment, done⟩ (bytes.drop r.offset) := by
  have hsplit : bytes.drop start = (bytes.take r.offset).drop start ++ bytes.drop r.offset := by
    conv_lhs => rw [← List.take_append_drop r.offset bytes]
    rw [List.drop_append_of_le_length]
    simpa using ⟨h.start_le, h.start_le.trans h.offset_le⟩
  rw [hsplit, Scan.run_append, h.scan]

lemma done_prefix (h : InStep start r bytes done) : done <+: linesFrom start bytes := by
  rw [linesFrom, h.run_all]
  exact Scan.lines_prefix ⟨r.offset, r.fragment, done⟩ _

lemma stop_le (h : InStep start r bytes done) : ∀ x ∈ done, x.stop ≤ r.offset := by
  have hstop := Scan.stop_le (s := Scan.begin start) (by simp [Scan.begin])
    ((bytes.take r.offset).drop start)
  rwa [h.scan] at hstop

lemma append (h : InStep start r bytes done) (more : Bytes) :
    InStep start r (bytes ++ more) done where
  scan := by rw [List.take_append_of_le_length h.offset_le]; exact h.scan
  start_le := h.start_le
  buffer := by
    rw [List.drop_append_of_le_length h.offset_le, List.drop_append_of_le_length h.position_le,
      h.buffer, List.append_assoc]
  position := h.position
  position_le := by
    rw [List.length_append]
    exact h.position_le.trans (Nat.le_add_right _ _)

lemma advance (h : InStep start r bytes done) (chunk : Bytes) {r' : Reader} {done' : List LogLine}
    (hoffset : r'.offset = r.offset + chunk.length)
    (hscan : Scan.run ⟨r.offset, r.fragment, done⟩ chunk = ⟨r'.offset, r'.fragment, done'⟩)
    (hbytes : bytes.drop r.offset = chunk ++ (r'.buffer ++ bytes.drop r'.position))
    (hposition : r'.position = r'.offset + r'.buffer.length)
    (hle : r'.position ≤ bytes.length) : InStep start r' bytes done' where
  scan := by
    have htake : bytes.take r'.offset = bytes.take r.offset ++ chunk := by
      rw [hoffset, List.take_add, hbytes, List.take_left']
      rfl
    rw [htake, List.drop_append_of_le_length, Scan.run_append, h.scan, hscan]
    simpa using ⟨h.start_le, h.start_le.trans h.offset_le⟩
  start_le := by rw [hoffset]; exact h.start_le.trans (Nat.le_add_right _ _)
  buffer := by rw [hoffset, ← List.drop_drop, hbytes, List.drop_left']; rfl
  position := hposition
  position_le := hle

end InStep

lemma scan_line {line pre : Bytes} (hline : line = pre ++ [newline]) (hpre : newline ∉ pre)
    (s : Scan) : s.run line =
      ⟨s.stop + line.length, [],
        s.lines ++ [⟨Scan.text (s.fragment ++ line), s.stop + line.length⟩]⟩ := by
  subst hline
  exact Scan.run_line hpre s

variable {start : ℕ} {r : Reader} {d : Disk} {bytes : Bytes} {done : List LogLine}

lemma InStep.line_of_buffer (h : InStep start r bytes done) {line rest : Bytes}
    (hcut : cutLine r.buffer = some (line, rest)) :
    InStep start { r with buffer := rest, offset := r.offset + line.length, fragment := [] } bytes
      (done ++ [⟨Scan.text (r.fragment ++ line), r.offset + line.length⟩]) := by
  obtain ⟨hsplit, pre, hline, hpre⟩ := cutLine_eq_some hcut
  have hbuflen := congrArg List.length hsplit
  rw [List.length_append] at hbuflen
  have hposition := h.position
  refine h.advance line rfl (scan_line hline hpre _) ?_ ?_ h.position_le
  · rw [h.buffer, hsplit, List.append_assoc]
  · simp only
    omega

/-- A line that the buffer does not hold is completed from the file; what was taken along with it
stays in the buffer. -/
lemma InStep.line_of_file (h : InStep start r bytes done) (hbuffer : cutLine r.buffer = none)
    {line rest : Bytes} (hcut : cutLine (bytes.drop r.position) = some (line, rest)) {n : ℕ}
    (hn : line.length ≤ n) (hle : n ≤ (bytes.drop r.position).length) :
    InStep start
      { r with
        position := r.position + n
        buffer := ((bytes.drop r.position).take n).drop line.length
        offset := r.offset + r.buffer.length + line.length
        fragment := [] }
      bytes
      (done ++ [⟨Scan.text (r.fragment ++ r.buffer ++ line),
        r.offset + r.buffer.length + line.length⟩]) := by
  obtain ⟨hsplit, pre, hline, hpre⟩ := cutLine_eq_some hcut
  have hposition := h.position
  have hposle := h.position_le
  have hlen : (bytes.drop r.position).length = bytes.length - r.position := List.length_drop
  -- what was taken along with the line is what stays in the buffer
  have hfilled : (bytes.drop r.position).take n =
      line ++ ((bytes.drop r.position).take n).drop line.length := by
    rw [hsplit, List.take_append, List.take_of_length_le hn, List.drop_left']
    rfl
  have hchunk : r.buffer ++ line = (r.buffer ++ pre) ++ [newline] := by
    rw [hline, List.append_assoc]
  have hclean : newline ∉ r.buffer ++ pre := by simp [cutLine_eq_none hbuffer, hpre]
  refine h.advance (r.buffer ++ line) ?_ ?_ ?_ ?_ ?_
  · simp only [List.length_append]
    omega
  · rw [scan_line hchunk hclean ⟨r.offset, r.fragment, done⟩]
    simp [Nat.add_assoc]
  · rw [h.buffer, ← List.drop_drop]
    simp only [List.append_assoc, List.append_cancel_left_eq]
    rw [← List.append_assoc, ← hfilled, List.take_append_drop]
  · simp only [List.length_drop, List.length_take]
    omega
  · simp only
    omega

lemma InStep.rest_of_file (h : InStep start r bytes done) (hbuffer : cutLine r.buffer = none)
    (hcut : cutLine (bytes.drop r.position) = none) :
    InStep start
      { r with
        position := r.position + (bytes.drop r.position).length
        buffer := []
        offset := r.offset + r.buffer.length + (bytes.drop r.position).length
        fragment := r.fragment ++ r.buffer ++ bytes.drop r.position }
      bytes done := by
  have hposition := h.position
  have hposle := h.position_le
  have hlen : (bytes.drop r.position).length = bytes.length - r.position := List.length_drop
  have hclean : newline ∉ r.buffer ++ bytes.drop r.position := by
    simp [cutLine_eq_none hbuffer, cutLine_eq_none hcut]
  refine h.advance (r.buffer ++ bytes.drop r.position) ?_ ?_ ?_ ?_ ?_
  · simp only [List.length_append]
    omega
  · rw [Scan.run_of_notMem hclean]
    simp [Nat.add_assoc]
  · rw [h.buffer, ← List.drop_drop, List.drop_length]
    simp
  · simp only [List.length_nil]
    omega
  · simp only
    omega

lemma nextRaw_spec (h : InStep start r bytes done) (hfile : d.get? r.file = some (.file bytes)) :
    ∃ r' raw, r.nextRaw d = .ok (r', raw) ∧ r'.path = r.path ∧ r'.file = r.file ∧
      match raw with
      | some raw => InStep start r' bytes (done ++ [⟨Scan.text raw, r'.consumed⟩])
      | none => InStep start r' bytes done ∧ r'.offset = bytes.length := by
  have hahead : r.ahead d = bytes.drop r.position := by simp [ahead, Disk.bytes, hfile]
  have hfolder : d.isFolder r.file = false := by simp [Disk.isFolder, hfile]
  unfold nextRaw
  -- a whole line in the buffer needs no look at the file
  cases hbuffer : cutLine r.buffer with
  | some cut =>
    obtain ⟨line, rest⟩ := cut
    exact ⟨_, _, rfl, rfl, rfl, h.line_of_buffer hbuffer⟩
  | none =>
    simp only [hfolder, hahead, Bool.false_eq_true, if_false]
    cases hcut : cutLine (bytes.drop r.position) with
    | some cut =>
      obtain ⟨line, rest⟩ := cut
      have hline : line.length ≤ (bytes.drop r.position).length := by
        rw [(cutLine_eq_some hcut).1, List.length_append]
        exact Nat.le_add_right _ _
      exact ⟨_, _, rfl, rfl, rfl,
        h.line_of_file hbuffer hcut (length_le_taken hline) (taken_le _ _)⟩
    | none =>
      refine ⟨_, _, rfl, rfl, rfl, h.rest_of_file hbuffer hcut, ?_⟩
      have hposition := h.position
      have hposle := h.position_le
      simp only [List.length_drop]
      omega

lemma next_spec (h : InStep start r bytes done) (hfile : d.get? r.file = some (.file bytes)) :
    ∃ r' line, r.next d = .ok (r', line) ∧ r'.path = r.path ∧ r'.file = r.file ∧
      match line with
      | some line => InStep start r' bytes (done ++ [⟨line, r'.consumed⟩])
      | none => InStep start r' bytes done ∧ r'.offset = bytes.length := by
  obtain ⟨r', raw, hnext, hpath, hid, hstep⟩ := nextRaw_spec h hfile
  refine ⟨r', raw.map Scan.text, ?_, hpath, hid, ?_⟩
  · simp only [next, hnext]
    rfl
  · cases raw with
    | some raw => exact hstep
    | none => exact hstep

end Reader

end LogWatch
