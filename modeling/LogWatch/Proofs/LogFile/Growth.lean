import Mathlib
import LogWatch.LogFile.Rotation
import LogWatch.Proofs.LogFile.Scan

/-!
A log that only grows: its path goes on leading to the same file, and bytes come only at the end
of that file. A reader in step with such a log never takes it for rotated.
-/

namespace LogWatch

namespace Disk

/-- The path leads to a file with these bytes. -/
def HasLog (d : Disk) (path : String) (file : ℕ) (bytes : Bytes) : Prop :=
  d.find path = .ok file ∧ d.get? file = some (.file bytes)

/-- The file that the path leads to stays there and at most grows. -/
def Grows (path : String) (d next : Disk) : Prop :=
  ∀ file bytes, d.HasLog path file bytes → ∃ more, next.HasLog path file (bytes ++ more)

variable {d next : Disk} {path : String} {file : ℕ} {bytes : Bytes}

lemma HasLog.size_eq (h : d.HasLog path file bytes) : d.size file = bytes.length := by
  simp [size, h.2]

lemma HasLog.isFolder_eq (h : d.HasLog path file bytes) : d.isFolder file = false := by
  simp [isFolder, h.2]

/-! ### Appending -/

lemma get?_set_self (h : d.get? file = some (.file bytes)) (e : Entry) :
    (d.set file e).get? file = some e := by
  have hlt : file < d.entries.size := (Array.getElem?_eq_some_iff.mp h).1
  simp [set, get?, hlt]

lemma get?_set_ne {id : ℕ} (h : file ≠ id) (d : Disk) (e : Entry) :
    (d.set file e).get? id = d.get? id := by
  simp [set, get?, h]

lemma step_set_file (h : d.get? file = some (.file bytes)) (new : Bytes) :
    (d.set file (.file new)).step = d.step := by
  funext id name
  unfold step
  by_cases hid : file = id
  · rw [← hid, get?_set_self h, h]
  · rw [get?_set_ne hid]

lemma find_set_file (h : d.get? file = some (.file bytes)) (new : Bytes) :
    (d.set file (.file new)).find = d.find := by
  funext p
  simp only [find, walk, step_set_file h]

lemma grows_of_append (more : Bytes) (h : d.append path more = .ok next) : d.Grows path next := by
  intro file bytes hlog
  have hopen : d.openFile path = .ok (d, file) := by
    simp [openFile, hlog.1, hlog.isFolder_eq]
  have hnext : next = d.appendTo file more := by
    simp only [append, hopen] at h
    exact (Except.ok.inj h).symm
  simp only [appendTo, hlog.2] at hnext
  refine ⟨more, ?_, ?_⟩
  · rw [hnext, find_set_file hlog.2]
    exact hlog.1
  · rw [hnext, get?_set_self hlog.2]

end Disk

namespace Reader

variable {d : Disk} {r : Reader} {start : ℕ} {bytes : Bytes} {done : List LogLine}

lemma openAt_end {path : String} {file : ℕ} (hlog : d.HasLog path file bytes) :
    ∃ r, openAt d path true = .ok r ∧ r.path = path ∧ r.file = file ∧
      InStep bytes.length r bytes [] := by
  refine ⟨⟨path, file, bytes.length, [], bytes.length, []⟩, ?_, rfl, rfl, ?_⟩
  · simp only [openAt, hlog.1, ← hlog.size_eq]
    rfl
  · refine ⟨?_, le_rfl, ?_, ?_, le_rfl⟩
    · simp [Scan.begin]
    · simp
    · simp

lemma rotation_eq_none (h : InStep start r bytes done) (hlog : d.HasLog r.path r.file bytes)
    {reported : Option String} (hreported : ∀ p ∈ reported, Path.parts p = Path.parts r.path) :
    r.rotation d reported = none := by
  have hsame : reported.filter (fun p => Path.parts p ≠ Path.parts r.path) = none := by
    rw [Option.filter_eq_none_iff]
    intro p hp
    simp [hreported p hp]
  have hlength : ¬ d.size r.file < r.offset := by
    rw [hlog.size_eq]
    exact Nat.not_lt.mpr h.offset_le
  unfold rotation
  rw [hsame]
  simp [hlog.1, hlength]

end Reader

end LogWatch
