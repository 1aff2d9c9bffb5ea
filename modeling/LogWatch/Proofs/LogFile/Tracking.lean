import Mathlib
import LogWatch.Proofs.LogFile.Growth

/-!
A reader on whatever is behind its identity, while that only grows.

A path may lead to a file or to a folder, and a reader opens either. A reader of a file is in step
with the scan of its bytes as long as bytes come only at the end; a reader of anything else never
has a line. What a reader has handed out are the complete lines among the bytes up to its offset.
-/

namespace LogWatch

/-! ### Lines and where they end -/

namespace Scan

@[simp] lemma stop_run (s : Scan) (bytes : Bytes) : (s.run bytes).stop = s.stop + bytes.length := by
  induction bytes generalizing s with
  | nil => rfl
  | cons b bytes ih =>
    rw [run_cons, ih, List.length_cons]
    unfold step
    split <;> simp only <;> omega

lemma lines_run (s : Scan) (bytes : Bytes) :
    ∃ more, (s.run bytes).lines = s.lines ++ more ∧ (∀ x ∈ more, s.stop < x.stop) ∧
      more.Pairwise (·.stop < ·.stop) := by
  induction bytes generalizing s with
  | nil => exact ⟨[], by simp, by simp, .nil⟩
  | cons b bytes ih =>
    -- the lines that follow all end past this byte, and so past any line that it completes
    obtain ⟨more, hmore, hstop, hordered⟩ := ih (s.step b)
    rw [run_cons, hmore]
    unfold step at hstop ⊢
    split
    · rename_i hb
      simp only [hb, if_true] at hstop
      refine ⟨⟨text (s.fragment ++ [b]), s.stop + 1⟩ :: more, by simp, fun x hx => ?_,
        List.pairwise_cons.mpr ⟨hstop, hordered⟩⟩
      rcases List.mem_cons.mp hx with rfl | hx
      · exact Nat.lt_succ_self _
      · exact Nat.lt_of_succ_lt (hstop x hx)
    · rename_i hb
      simp only [hb, if_false] at hstop
      exact ⟨more, rfl, fun x hx => Nat.lt_of_succ_lt (hstop x hx), hordered⟩

end Scan

section Lines

variable {start n : ℕ} {bytes : Bytes} {x : LogLine}

lemma linesFrom_nil (start : ℕ) : linesFrom start [] = [] := by
  simp [linesFrom, Scan.begin]

lemma linesFrom_isPrefix (start : ℕ) (bytes more : Bytes) :
    linesFrom start bytes <+: linesFrom start (bytes ++ more) := by
  rw [linesFrom, linesFrom, List.drop_append, Scan.run_append]
  exact Scan.lines_prefix _ _

lemma linesFrom_take_isPrefix (start n : ℕ) (bytes : Bytes) :
    linesFrom start (bytes.take n) <+: linesFrom start bytes := by
  conv_rhs => rw [← List.take_append_drop n bytes]
  exact linesFrom_isPrefix start _ _

lemma linesFrom_append_of_notMem (start : ℕ) (bytes : Bytes) {rest : Bytes}
    (h : Reader.newline ∉ rest) : linesFrom start (bytes ++ rest) = linesFrom start bytes := by
  rw [linesFrom, linesFrom, List.drop_append, Scan.run_append, Scan.run_of_notMem]
  exact fun hmem => h (List.mem_of_mem_drop hmem)

lemma linesFrom_pairwise (start : ℕ) (bytes : Bytes) :
    (linesFrom start bytes).Pairwise (·.stop < ·.stop) := by
  obtain ⟨more, hmore, -, hordered⟩ := (Scan.begin start).lines_run (bytes.drop start)
  rw [linesFrom, hmore]
  exact hordered

lemma start_lt_stop (h : x ∈ linesFrom start bytes) : start < x.stop := by
  obtain ⟨more, hmore, hstop, -⟩ := (Scan.begin start).lines_run (bytes.drop start)
  rw [linesFrom, hmore, Scan.begin, List.nil_append] at h
  exact hstop x h

lemma stop_le_length (h : x ∈ linesFrom start bytes) : x.stop ≤ bytes.length := by
  have hstart := start_lt_stop h
  have hstop := Scan.stop_le (show ∀ x ∈ (Scan.begin start).lines, x.stop ≤ (Scan.begin start).stop
    by simp [Scan.begin]) (bytes.drop start) x h
  rw [Scan.stop_run, List.length_drop, Scan.begin] at hstop
  simp only at hstop
  omega

/-- The lines that were complete when the file had `n` bytes are those that end by then. -/
lemma mem_linesFrom_take (h : x ∈ linesFrom start bytes) :
    x ∈ linesFrom start (bytes.take n) ↔ x.stop ≤ n := by
  constructor
  · intro htake
    have hle := stop_le_length htake
    rw [List.length_take] at hle
    omega
  · intro hle
    by_contra hnot
    have hstart := start_lt_stop h
    have hlength := stop_le_length h
    -- the line is none of those in the part, so it ends past that
    have hsplit : bytes.drop start = (bytes.take n).drop start ++ bytes.drop n := by
      conv_lhs => rw [← List.take_append_drop n bytes]
      rw [List.drop_append_of_le_length]
      rw [List.length_take]
      omega
    obtain ⟨more, hmore, hstop, -⟩ :=
      ((Scan.begin start).run ((bytes.take n).drop start)).lines_run (bytes.drop n)
    rw [linesFrom, hsplit, Scan.run_append, hmore] at h
    rcases List.mem_append.mp h with h | h
    · exact hnot h
    · have hlt := hstop x h
      rw [Scan.stop_run, List.length_drop, List.length_take, Scan.begin] at hlt
      simp only at hlt
      omega

end Lines

/-! ### Entries of a disk that only grow -/

namespace Disk

variable {d next next' : Disk} {file : ℕ}

def IsFile (d : Disk) (id : ℕ) : Prop := ∃ bytes, d.get? id = some (.file bytes)

/-- A file at most gets more bytes at its end, and what is no file does not become one. -/
structure Keeps (file : ℕ) (d next : Disk) : Prop where
  grows : ∀ bytes, d.get? file = some (.file bytes) →
    ∃ more, next.get? file = some (.file (bytes ++ more))
  isFile : next.IsFile file → d.IsFile file

lemma bytes_of_file {bytes : Bytes} (h : d.get? file = some (.file bytes)) :
    d.bytes file = bytes := by
  simp [Disk.bytes, h]

lemma bytes_of_not_isFile (h : ¬ d.IsFile file) : d.bytes file = [] := by
  unfold bytes
  split
  · rename_i hbytes
    exact absurd ⟨_, hbytes⟩ h
  · rfl

lemma Keeps.refl (file : ℕ) (d : Disk) : Keeps file d d :=
  ⟨fun bytes h => ⟨[], by rwa [List.append_nil]⟩, id⟩

lemma Keeps.trans (h : Keeps file d next) (h' : Keeps file next next') : Keeps file d next' := by
  refine ⟨fun bytes hbytes => ?_, fun hfile => h.isFile (h'.isFile hfile)⟩
  obtain ⟨more, hmore⟩ := h.grows bytes hbytes
  obtain ⟨more', hmore'⟩ := h'.grows _ hmore
  exact ⟨more ++ more', by rwa [← List.append_assoc]⟩

lemma Keeps.bytes_isPrefix (h : Keeps file d next) : d.bytes file <+: next.bytes file := by
  by_cases hfile : d.IsFile file
  · obtain ⟨bytes, hbytes⟩ := hfile
    obtain ⟨more, hmore⟩ := h.grows bytes hbytes
    rw [bytes_of_file hbytes, bytes_of_file hmore]
    exact List.prefix_append _ _
  · rw [bytes_of_not_isFile hfile]
    exact List.nil_prefix

/-! ### What keeps a file -/

lemma keeps_of_same (h : next.get? file = d.get? file) : d.Keeps file next := by
  refine ⟨fun bytes hbytes => ⟨[], ?_⟩, fun hfile => ?_⟩
  · rw [h, hbytes, List.append_nil]
  · rwa [IsFile, ← h]

lemma keeps_set_ne {id : ℕ} (h : id ≠ file) (e : Entry) : d.Keeps file (d.set id e) :=
  keeps_of_same (get?_set_ne h d e)

lemma keeps_set_folder {id up up' : ℕ} {names names' : List (String × ℕ)}
    (h : d.get? id = some (.folder up names)) (file : ℕ) :
    d.Keeps file (d.set id (.folder up' names')) := by
  by_cases hid : id = file
  · subst hid
    have hlt : id < d.entries.size := (Array.getElem?_eq_some_iff.mp h).1
    refine ⟨fun bytes hbytes => ?_, fun hfile => ?_⟩
    · simp [h] at hbytes
    · obtain ⟨bytes, hbytes⟩ := hfile
      simp [set, get?, hlt] at hbytes
  · exact keeps_set_ne hid _

lemma keeps_setName (d : Disk) (folder : ℕ) (name : String) (id : Option ℕ) (file : ℕ) :
    d.Keeps file (d.setName folder name id) := by
  unfold setName
  split
  · rename_i up names h
    exact keeps_set_folder h file
  · exact .refl file d

lemma keeps_rename {old new : String} (h : d.rename old new = .ok next) (file : ℕ) :
    d.Keeps file next := by
  have hnames : ∀ oldFolder oldName newFolder newName id, d.Keeps file
      ((d.setName oldFolder oldName none).setName newFolder newName (some id)) := fun _ _ _ _ _ =>
    (keeps_setName _ _ _ _ file).trans (keeps_setName _ _ _ _ file)
  simp only [rename, bind, Except.bind, pure, Except.pure] at h
  repeat' split at h
  all_goals first
    | (simp at h; done)
    | (obtain rfl := Except.ok.inj h; exact .refl file _)
    | (obtain rfl := Except.ok.inj h; exact hnames _ _ _ _ _)
    | (obtain rfl := Except.ok.inj h; exact (hnames _ _ _ _ _).trans (keeps_set_folder ‹_› file))

lemma keeps_add (hfile : file < d.entries.size) (e : Entry) : d.Keeps file (d.add e).1 :=
  keeps_of_same (by simp [add, get?, Array.getElem?_push, hfile.ne])

lemma keeps_openFile (hfile : file < d.entries.size) {path : String} {id : ℕ}
    (h : d.openFile path = .ok (next, id)) : d.Keeps file next := by
  simp only [openFile, bind, Except.bind, pure, Except.pure] at h
  split at h
  · split at h
    · simp at h
    · obtain ⟨rfl, -⟩ := Prod.mk.inj (Except.ok.inj h)
      exact .refl file _
  · split at h
    · simp at h
    · obtain ⟨rfl, -⟩ := Prod.mk.inj (Except.ok.inj h)
      exact (keeps_add hfile _).trans (keeps_setName _ _ _ _ file)
  · simp at h

lemma keeps_appendTo (d : Disk) (id : ℕ) (bytes : Bytes) (file : ℕ) :
    d.Keeps file (d.appendTo id bytes) := by
  unfold appendTo
  split
  · rename_i old hold
    by_cases hid : id = file
    · subst hid
      refine ⟨fun bytes' hbytes => ⟨bytes, ?_⟩, fun _ => ⟨old, hold⟩⟩
      obtain rfl := Entry.file.inj (Option.some.inj (hold.symm.trans hbytes))
      exact get?_set_self hold _
    · exact keeps_set_ne hid _
  · exact .refl file d

lemma keeps_append (hfile : file < d.entries.size) {path : String} (bytes : Bytes)
    (h : d.append path bytes = .ok next) : d.Keeps file next := by
  simp only [append, bind, Except.bind, pure, Except.pure] at h
  split at h
  · simp at h
  · rename_i x hopen
    obtain rfl := Except.ok.inj h
    exact (keeps_openFile hfile hopen).trans (keeps_appendTo _ _ _ file)

lemma keeps_write (hfile : file < d.entries.size) {path : String} (hother : d.find path ≠ .ok file)
    (bytes : Bytes) (h : d.write path bytes = .ok next) : d.Keeps file next := by
  simp only [write, bind, Except.bind, pure, Except.pure] at h
  split at h
  · simp at h
  · rename_i x hopen
    obtain rfl := Except.ok.inj h
    refine (keeps_openFile hfile hopen).trans (keeps_set_ne (fun hid => ?_) _)
    -- the path leads to another file, or to a new one that has the next number
    simp only [openFile, bind, Except.bind, pure, Except.pure] at hopen
    split at hopen
    · rename_i id hfind
      split at hopen
      · simp at hopen
      · rw [← (Prod.mk.inj (Except.ok.inj hopen)).2] at hid
        exact hother (hid ▸ hfind)
    · split at hopen
      · simp at hopen
      · rw [← (Prod.mk.inj (Except.ok.inj hopen)).2] at hid
        exact hfile.ne hid.symm
    · simp at hopen

end Disk

namespace Reader

variable {d next : Disk} {r r' : Reader} {start : ℕ} {done : List LogLine}

/-! ### Which file a reader reads -/

lemma nextRaw_same {raw : Option Bytes} (h : r.nextRaw d = .ok (r', raw)) :
    r'.path = r.path ∧ r'.file = r.file := by
  unfold nextRaw at h
  split at h
  · obtain ⟨rfl, -⟩ := Prod.mk.inj (Except.ok.inj h)
    exact ⟨rfl, rfl⟩
  · split at h
    · simp at h
    · dsimp only at h
      split at h
      · obtain ⟨rfl, -⟩ := Prod.mk.inj (Except.ok.inj h)
        exact ⟨rfl, rfl⟩
      · obtain ⟨rfl, -⟩ := Prod.mk.inj (Except.ok.inj h)
        exact ⟨rfl, rfl⟩

lemma next_eq_ok {line : Option String} : r.next d = .ok (r', line) ↔
    ∃ raw, r.nextRaw d = .ok (r', raw) ∧
      line = raw.map fun raw => Text.decodeLossy (trimEnd raw) := by
  unfold Reader.next
  cases hraw : r.nextRaw d with
  | error e => simp [bind, Except.bind]
  | ok x =>
    obtain ⟨r₁, raw⟩ := x
    simp only [bind, Except.bind, pure, Except.pure, Except.ok.injEq, Prod.mk.injEq]
    constructor
    · rintro ⟨rfl, rfl⟩
      exact ⟨raw, ⟨rfl, rfl⟩, rfl⟩
    · rintro ⟨_, ⟨rfl, rfl⟩, rfl⟩
      exact ⟨rfl, rfl⟩

lemma next_same {line : Option String} (h : r.next d = .ok (r', line)) :
    r'.path = r.path ∧ r'.file = r.file := by
  obtain ⟨raw, hraw, -⟩ := next_eq_ok.mp h
  exact nextRaw_same hraw

lemma openAt_eq {path : String} {fromEnd : Bool} (h : openAt d path fromEnd = .ok r) :
    ∃ file start, d.find path = .ok file ∧ start = (if fromEnd then d.size file else 0) ∧
      r = ⟨path, file, start, [], start, []⟩ := by
  unfold openAt at h
  cases hfind : d.find path with
  | error e => simp [hfind, bind, Except.bind] at h
  | ok file =>
    simp only [hfind, bind, Except.bind, pure, Except.pure, Except.ok.injEq] at h
    exact ⟨file, _, rfl, rfl, h.symm⟩

/-! ### What a reader has handed out -/

/-- A reader that was opened at `start` has handed out `done`: lines of a file, in step with it, or
nothing if it reads no file. -/
inductive Tracks (start : ℕ) (r : Reader) (d : Disk) (done : List LogLine) : Prop
  | file {bytes : Bytes} (entry : d.get? r.file = some (.file bytes))
      (inStep : InStep start r bytes done)
  | other (entry : ¬ d.IsFile r.file) (buffer : r.buffer = []) (nothing : done = [])

lemma inStep_begin {bytes : Bytes} (h : start ≤ bytes.length) (path : String) (file : ℕ) :
    InStep start ⟨path, file, start, [], start, []⟩ bytes [] := by
  refine ⟨?_, le_rfl, rfl, rfl, h⟩
  have hnil : (bytes.take start).drop start = [] := by
    rw [List.drop_eq_nil_iff, List.length_take]
    exact min_le_left _ _
  rw [hnil, Scan.run_nil, Scan.begin]

lemma tracks_open {path : String} {fromEnd : Bool} (h : openAt d path fromEnd = .ok r) :
    Tracks (if fromEnd then d.size r.file else 0) r d [] := by
  obtain ⟨file, start, -, hstart, rfl⟩ := openAt_eq h
  rw [← hstart]
  by_cases hfile : d.IsFile file
  · obtain ⟨bytes, hbytes⟩ := hfile
    refine .file hbytes (inStep_begin ?_ path file)
    rw [hstart]
    split
    · simp [Disk.size, hbytes]
    · exact Nat.zero_le _
  · exact .other hfile rfl rfl

namespace Tracks

lemma keep (h : Tracks start r d done) (hkeeps : d.Keeps r.file next) :
    Tracks start r next done := by
  cases h with
  | file hbytes hstep =>
    obtain ⟨more, hmore⟩ := hkeeps.grows _ hbytes
    exact .file hmore (hstep.append more)
  | other hfile hbuffer hnothing =>
    exact .other (fun hnext => hfile (hkeeps.isFile hnext)) hbuffer hnothing

lemma done_eq (h : Tracks start r d done) :
    done = linesFrom start ((d.bytes r.file).take r.offset) := by
  cases h with
  | file hbytes hstep => rw [Disk.bytes_of_file hbytes, linesFrom, hstep.scan]
  | other hfile hbuffer hnothing =>
    rw [hnothing, Disk.bytes_of_not_isFile hfile, List.take_nil, linesFrom_nil]

lemma done_isPrefix (h : Tracks start r d done) : done <+: linesFrom start (d.bytes r.file) := by
  rw [h.done_eq]
  exact linesFrom_take_isPrefix _ _ _

lemma next_other (hfile : ¬ d.IsFile r.file) (hbuffer : r.buffer = []) {line : Option String}
    (h : r.next d = .ok (r', line)) : line = none ∧ r'.buffer = [] := by
  have hahead : r.ahead d = [] := by
    rw [ahead, Disk.bytes_of_not_isFile hfile, List.drop_nil]
  have hcut : cutLine [] = none := rfl
  unfold Reader.next nextRaw at h
  simp only [hbuffer, hcut, hahead] at h
  split at h
  · simp [bind, Except.bind] at h
  · simp only [bind, Except.bind, pure, Except.pure, Except.ok.injEq, Prod.mk.injEq] at h
    exact ⟨h.2.symm, by rw [← h.1]⟩

lemma read (h : Tracks start r d done) {line : String} (hnext : r.next d = .ok (r', some line)) :
    Tracks start r' d (done ++ [⟨line, r'.consumed⟩]) := by
  cases h with
  | file hbytes hstep =>
    obtain ⟨r₁, line₁, hspec, -, hfile, hstep₁⟩ := next_spec hstep hbytes
    rw [hnext, Except.ok.injEq, Prod.mk.injEq] at hspec
    obtain ⟨rfl, rfl⟩ := hspec
    exact .file (hfile ▸ hbytes) hstep₁
  | other hfile hbuffer hnothing =>
    exact absurd (next_other hfile hbuffer hnext).1 (Option.some_ne_none line)

lemma reach (h : Tracks start r d done) (hnext : r.next d = .ok (r', none)) :
    Tracks start r' d done ∧ done = linesFrom start (d.bytes r.file) := by
  cases h with
  | file hbytes hstep =>
    obtain ⟨r₁, line₁, hspec, -, hfile, hstep₁⟩ := next_spec hstep hbytes
    rw [hnext, Except.ok.injEq, Prod.mk.injEq] at hspec
    obtain ⟨rfl, rfl⟩ := hspec
    have htracks : Tracks start r' d done := .file (hfile ▸ hbytes) hstep₁.1
    refine ⟨htracks, ?_⟩
    rw [htracks.done_eq, hfile, Disk.bytes_of_file hbytes, hstep₁.2, List.take_length]
  | other hfile hbuffer hnothing =>
    have hsame := (next_same hnext).2
    refine ⟨.other (hsame ▸ hfile) (next_other hfile hbuffer hnext).2 hnothing, ?_⟩
    rw [hnothing, Disk.bytes_of_not_isFile hfile, linesFrom_nil]

lemma not_isFile (h : Tracks start r d done) {e : DiskError} (hnext : r.next d = .error e) :
    ¬ d.IsFile r.file := by
  cases h with
  | file hbytes hstep =>
    obtain ⟨r₁, line₁, hspec, -⟩ := next_spec hstep hbytes
    simp [hnext] at hspec
  | other hfile _ _ => exact hfile

end Tracks

end Reader

end LogWatch
