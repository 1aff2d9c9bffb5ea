import Mathlib
import LogWatch.Proofs.LogFile.Tracking

/-!
A reader of a log that somebody writes in chunks.

The chunks may end anywhere: within a line, within a character, between a carriage return and its
newline. A session is a reader with the disk it reads and all that it has returned; it goes on with
a chunk that is appended or with a line that is asked for. Whatever the order, what was returned
depends on the bytes alone, and these are cut at their newlines and nowhere else.
-/

namespace LogWatch

/-! ### Bytes cut at their newlines -/

/-- The bytes are these lines, each with its newline, and a rest with none. -/
structure Cut (bytes : Bytes) (bodies : List Bytes) (rest : Bytes) : Prop where
  whole : bytes = (bodies.map (· ++ [Reader.newline])).flatten ++ rest
  bodies_clean : ∀ body ∈ bodies, Reader.newline ∉ body
  rest_clean : Reader.newline ∉ rest

/-- A line without the carriage return at its end, if there is one. -/
def withoutReturn (body : Bytes) : Bytes :=
  if body.getLast? = some Reader.carriageReturn then body.dropLast else body

/-- The lines as they are returned by who began to read at `start`: the text of each, and the
place just past its newline. -/
def LogLine.ofBodies : ℕ → List Bytes → List LogLine
  | _, [] => []
  | start, body :: bodies =>
    ⟨Text.decodeLossy (withoutReturn body), start + (body.length + 1)⟩ ::
      ofBodies (start + (body.length + 1)) bodies

lemma Reader.trimEnd_line (body : Bytes) :
    Reader.trimEnd (body ++ [Reader.newline]) = withoutReturn body := by
  simp [Reader.trimEnd, withoutReturn]

namespace Cut

variable {bytes rest : Bytes} {bodies : List Bytes}

lemma cons (body : Bytes) (hbody : Reader.newline ∉ body) (h : Cut bytes bodies rest) :
    Cut (body ++ Reader.newline :: bytes) (body :: bodies) rest where
  whole := by simp [h.whole]
  bodies_clean := List.forall_mem_cons.mpr ⟨hbody, h.bodies_clean⟩
  rest_clean := h.rest_clean

lemma exists_cut (bytes : Bytes) : ∃ bodies rest, Cut bytes bodies rest := by
  induction bytes with
  | nil => exact ⟨[], [], rfl, by simp, by simp⟩
  | cons b bytes ih =>
    obtain ⟨bodies, rest, h⟩ := ih
    by_cases hb : b = Reader.newline
    · subst hb
      exact ⟨[] :: bodies, rest, h.cons [] (by simp)⟩
    · -- the byte belongs to the line that comes first, or to the rest if there is none
      cases bodies with
      | nil =>
        refine ⟨[], b :: rest, by simp [h.whole], by simp, ?_⟩
        simp [Ne.symm hb, h.rest_clean]
      | cons body bodies =>
        have hbody := h.bodies_clean body List.mem_cons_self
        refine ⟨(b :: body) :: bodies, rest, by simp [h.whole], ?_, h.rest_clean⟩
        refine List.forall_mem_cons.mpr ⟨by simp [Ne.symm hb, hbody], fun x hx => ?_⟩
        exact h.bodies_clean x (List.mem_cons_of_mem _ hx)

lemma run_begin (h : Cut bytes bodies rest) (start : ℕ) (lines : List LogLine) :
    Scan.run ⟨start, [], lines⟩ bytes =
      ⟨start + bytes.length, rest, lines ++ LogLine.ofBodies start bodies⟩ := by
  induction bodies generalizing bytes start lines with
  | nil =>
    obtain rfl : bytes = rest := by simpa using h.whole
    simp [Scan.run_of_notMem h.rest_clean, LogLine.ofBodies]
  | cons body bodies ih =>
    obtain ⟨hbody, hbodies⟩ := List.forall_mem_cons.mp h.bodies_clean
    obtain ⟨more, hmore⟩ : ∃ more, more = (bodies.map (· ++ [Reader.newline])).flatten ++ rest :=
      ⟨_, rfl⟩
    have hbytes : bytes = (body ++ [Reader.newline]) ++ more := by simp [h.whole, hmore]
    rw [hbytes, Scan.run_append, Scan.run_line hbody, ih ⟨hmore, hbodies, h.rest_clean⟩]
    simp [LogLine.ofBodies, Scan.text, Reader.trimEnd_line, Nat.add_assoc, Nat.add_comm 1]

lemma linesFrom_eq {start : ℕ} (h : Cut (bytes.drop start) bodies rest) :
    linesFrom start bytes = LogLine.ofBodies start bodies := by
  rw [linesFrom, Scan.begin, h.run_begin, List.nil_append]

end Cut

/-! ### Sessions -/

/-- A reader, the disk that it reads, and the lines that it has returned: the text of each, and how
far the reader had consumed the file just after it. -/
structure Session where
  disk : Disk
  reader : Reader
  returned : List LogLine
deriving DecidableEq, Repr

namespace Session

inductive Act where
  | append (chunk : Bytes)
  | read
deriving DecidableEq, Repr

def act (s : Session) : Act → Except DiskError Session
  | .append chunk => do
    let disk ← s.disk.append s.reader.path chunk
    return { s with disk }
  | .read => do
    let (reader, line) ← s.reader.next s.disk
    let lines := (line.map fun text => ⟨text, reader.consumed⟩).toList
    return { s with reader, returned := s.returned ++ lines }

def run (s : Session) (acts : List Act) : Except DiskError Session := acts.foldlM act s

/-- What the acts append, one chunk after the other. -/
def appended : List Act → Bytes
  | [] => []
  | .append chunk :: acts => chunk ++ appended acts
  | .read :: acts => appended acts

/-- The session reads this log, which had `start` bytes before the first that it reads. -/
structure Reads (path : String) (file start : ℕ) (bytes : Bytes) (s : Session) : Prop where
  log : s.disk.HasLog path file bytes
  path_eq : s.reader.path = path
  file_eq : s.reader.file = file
  inStep : Reader.InStep start s.reader bytes s.returned

variable {d : Disk} {path : String} {file start : ℕ} {bytes : Bytes} {s : Session}

lemma reads_begin (hlog : d.HasLog path file bytes) (fromEnd : Bool) :
    ∃ r, Reader.openAt d path fromEnd = .ok r ∧
      Reads path file (if fromEnd then bytes.length else 0) bytes ⟨d, r, []⟩ := by
  refine ⟨⟨path, file, if fromEnd then bytes.length else 0, [],
    if fromEnd then bytes.length else 0, []⟩, ?_, hlog, rfl, rfl, Reader.inStep_begin ?_ path file⟩
  · simp only [Reader.openAt, hlog.1, ← hlog.size_eq]
    rfl
  · split
    · exact le_rfl
    · exact Nat.zero_le _

namespace Reads

lemma act_append (h : Reads path file start bytes s) (chunk : Bytes) :
    ∃ s', s.act (.append chunk) = .ok s' ∧ Reads path file start (bytes ++ chunk) s' := by
  have hopen : s.disk.openFile path = .ok (s.disk, file) := by
    simp [Disk.openFile, h.log.1, h.log.isFolder_eq]
  refine ⟨{ s with disk := s.disk.set file (.file (bytes ++ chunk)) }, ?_, ⟨?_, ?_⟩, h.path_eq,
    h.file_eq, h.inStep.append chunk⟩
  · simp [act, Disk.append, h.path_eq, hopen, Disk.appendTo, h.log.2, bind, Except.bind, pure,
      Except.pure]
  · rw [Disk.find_set_file h.log.2]
    exact h.log.1
  · exact Disk.get?_set_self h.log.2 _

/-- A line that is asked for is the next one of the cut. There is none just if all of them were
returned; then the rest is the fragment. -/
lemma next (h : Reads path file start bytes s) {bodies : List Bytes} {rest : Bytes}
    (hcut : Cut (bytes.drop start) bodies rest) :
    ∃ r line, s.reader.next s.disk = .ok (r, line) ∧
      line.map (fun text => ⟨text, r.consumed⟩) =
        (LogLine.ofBodies start bodies)[s.returned.length]? ∧
      (line = none → r.fragment = rest ∧ r.offset = bytes.length) ∧
      Reads path file start bytes ⟨s.disk, r,
        s.returned ++ (line.map fun text => ⟨text, r.consumed⟩).toList⟩ := by
  have hfile : s.disk.get? s.reader.file = some (.file bytes) := h.file_eq ▸ h.log.2
  obtain ⟨r, line, hnext, hpath, hid, hstep⟩ := Reader.next_spec h.inStep hfile
  refine ⟨r, line, hnext, ?_⟩
  cases line with
  | some text =>
    have hprefix := hstep.done_prefix
    rw [hcut.linesFrom_eq] at hprefix
    refine ⟨?_, by simp, h.log, hpath.trans h.path_eq, hid.trans h.file_eq, hstep⟩
    obtain ⟨more, hmore⟩ := hprefix
    simp [← hmore]
  | none =>
    obtain ⟨hstep, hoffset⟩ := hstep
    -- the reader has come to the end of the file, so its scan is that of the whole cut
    have hall := hstep.run_all
    rw [hoffset, List.drop_length, Scan.run_nil, Scan.begin, hcut.run_begin, List.nil_append,
      Scan.mk.injEq] at hall
    refine ⟨?_, fun _ => ⟨hall.2.1.symm, hoffset⟩, h.log, hpath.trans h.path_eq,
      hid.trans h.file_eq, ?_⟩
    · rw [hall.2.2]
      simp
    · simpa using hstep

lemma act_read (h : Reads path file start bytes s) :
    ∃ s', s.act .read = .ok s' ∧ Reads path file start bytes s' := by
  obtain ⟨bodies, rest, hcut⟩ := Cut.exists_cut (bytes.drop start)
  obtain ⟨r, line, hnext, -, -, hreads⟩ := h.next hcut
  refine ⟨_, ?_, hreads⟩
  simp only [act, hnext, bind, Except.bind, pure, Except.pure]

lemma act (h : Reads path file start bytes s) (a : Act) :
    ∃ s', s.act a = .ok s' ∧ Reads path file start (bytes ++ appended [a]) s' := by
  cases a with
  | append chunk => simpa [appended] using h.act_append chunk
  | read => simpa [appended] using h.act_read

lemma run (h : Reads path file start bytes s) (acts : List Act) :
    ∃ s', s.run acts = .ok s' ∧ Reads path file start (bytes ++ appended acts) s' := by
  induction acts generalizing bytes s with
  | nil => exact ⟨s, rfl, by simpa [appended] using h⟩
  | cons a acts ih =>
    obtain ⟨s₁, hact, h₁⟩ := h.act a
    obtain ⟨s₂, hrun, h₂⟩ := ih h₁
    refine ⟨s₂, ?_, ?_⟩
    · rw [Session.run, List.foldlM_cons, hact]
      exact hrun
    · cases a <;> simpa [appended] using h₂

lemma fragment_le_offset (h : Reads path file start bytes s) :
    s.reader.fragment.length ≤ s.reader.offset := by
  obtain ⟨bodies, rest, hcut⟩ := Cut.exists_cut ((bytes.take s.reader.offset).drop start)
  have hscan := h.inStep.scan
  rw [Scan.begin, hcut.run_begin, Scan.mk.injEq] at hscan
  have hlength := congrArg List.length hcut.whole
  simp only [List.length_append] at hlength
  have := hscan.1
  rw [← hscan.2.1]
  omega

end Reads

/-- **What a reader returns depends on the bytes of the log alone.** In any order of chunks and
reads nothing fails. The bytes from where the log was opened, cut at their newlines, give the lines:
those that were returned are the first of them, each noted with the place just past its newline
which the reader then had consumed. The next that is asked for is the next of them, and there is
none just if all were returned; then the rest of the cut is kept as the fragment. The offset stays
within the file, the fragment within the offset, and the log is never taken for rotated as long as
no other path is reported. -/
theorem returns_lines_of_cut (hlog : d.HasLog path file bytes) (fromEnd : Bool)
    (acts : List Act) :
    ∃ r s bodies rest, Reader.openAt d path fromEnd = .ok r ∧ run ⟨d, r, []⟩ acts = .ok s ∧
      let start := if fromEnd then bytes.length else 0
      let written := bytes ++ appended acts
      s.disk.HasLog path file written ∧
      Cut (written.drop start) bodies rest ∧
      s.returned <+: LogLine.ofBodies start bodies ∧
      (∃ r' line, s.reader.next s.disk = .ok (r', line) ∧
        line.map (fun text => ⟨text, r'.consumed⟩) =
          (LogLine.ofBodies start bodies)[s.returned.length]? ∧
        (line = none ↔ s.returned = LogLine.ofBodies start bodies) ∧
        (line = none → r'.fragment = rest)) ∧
      s.reader.offset ≤ written.length ∧
      s.reader.fragment.length ≤ s.reader.offset ∧
      ∀ reported : Option String, (∀ p ∈ reported, Path.parts p = Path.parts path) →
        s.reader.rotation s.disk reported = none := by
  obtain ⟨r, hopen, hbegin⟩ := reads_begin hlog fromEnd
  obtain ⟨s, hrun, h⟩ := hbegin.run acts
  obtain ⟨bodies, rest, hcut⟩ := Cut.exists_cut
    ((bytes ++ appended acts).drop (if fromEnd then bytes.length else 0))
  have hprefix := h.inStep.done_prefix
  rw [hcut.linesFrom_eq] at hprefix
  obtain ⟨r', line, hnext, hline, hrest, -⟩ := h.next hcut
  refine ⟨r, s, bodies, rest, hopen, hrun, h.log, hcut, hprefix,
    ⟨r', line, hnext, hline, ?_, fun hnone => (hrest hnone).1⟩, h.inStep.offset_le,
    h.fragment_le_offset, fun reported hreported => ?_⟩
  -- nothing is handed out just where all lines of the cut were
  · rw [← Option.map_eq_none_iff (f := fun text => (⟨text, r'.consumed⟩ : LogLine)), hline,
      List.getElem?_eq_none_iff]
    refine ⟨fun hle => hprefix.eq_of_length_le hle, fun heq => by rw [heq]⟩
  · refine Reader.rotation_eq_none h.inStep ?_ (by rwa [h.path_eq])
    rw [h.path_eq, h.file_eq]
    exact h.log

end Session

/-- A disk with nothing on it but a log. -/
def Disk.ofLog (bytes : Bytes) : Disk :=
  ⟨#[.folder 1 [("log", 2)], .folder 1 [], .file bytes]⟩

/-- A log that ends within a line when it is opened. The first chunk ends within a character and the
second between the carriage return and its newline, and after each a line is asked for too early. -/
def Session.Act.cutAnywhere : List Act :=
  [.append [0x63, 0xC3], .read, .append [0xA9, 13, 13], .read, .append [10, 0x64, 10, 0x65], .read,
    .read]

namespace Session

/-- Of two carriage returns one stays, and the line that was not complete is the fragment. -/
theorem returns_lines_of_chunks :
    ∃ r s r', Reader.openAt (.ofLog [0x61, 10, 0x62]) "log" true = .ok r ∧
      run ⟨.ofLog [0x61, 10, 0x62], r, []⟩ Act.cutAnywhere = .ok s ∧
      s.returned = [⟨"cé\r", 9⟩, ⟨"d", 11⟩] ∧
      s.reader.next s.disk = .ok (r', none) ∧ r'.fragment = [0x65] := by
  have hlog : (Disk.ofLog [0x61, 10, 0x62]).HasLog "log" 2 [0x61, 10, 0x62] := ⟨rfl, rfl⟩
  obtain ⟨r, s, _, _, hopen, hrun, -, -, -, ⟨r', line, hnext, -⟩, -⟩ :=
    returns_lines_of_cut hlog true Act.cutAnywhere
  have hr : Reader.openAt (.ofLog [0x61, 10, 0x62]) "log" true =
    .ok ⟨"log", 2, 3, [], 3, []⟩ := by decide +kernel
  obtain rfl := Except.ok.inj (hopen.symm.trans hr)
  have hs : run ⟨.ofLog [0x61, 10, 0x62], ⟨"log", 2, 3, [], 3, []⟩, []⟩ Act.cutAnywhere =
      .ok ⟨.ofLog [0x61, 10, 0x62, 0x63, 0xC3, 0xA9, 13, 13, 10, 0x64, 10, 0x65],
        ⟨"log", 2, 12, [0x65], 11, []⟩, [⟨"cé\r", 9⟩, ⟨"d", 11⟩]⟩ := by
    decide +kernel
  obtain rfl := Except.ok.inj (hrun.symm.trans hs)
  have hat : Reader.next ⟨"log", 2, 12, [0x65], 11, []⟩
      (.ofLog [0x61, 10, 0x62, 0x63, 0xC3, 0xA9, 13, 13, 10, 0x64, 10, 0x65]) =
      .ok (⟨"log", 2, 12, [], 12, [0x65]⟩, none) := by
    decide +kernel
  obtain ⟨rfl, rfl⟩ := Prod.mk.inj (Except.ok.inj (hnext.symm.trans hat))
  exact ⟨_, _, _, hr, hs, rfl, hat, rfl⟩

end Session

end LogWatch
