import Mathlib
import LogWatch.Proofs.Disk.Removal

/-!
What is opened for writing is there afterwards.

To give a new name to an entry leaves all ways as they were and adds some. So the path of a file that
was opened leads to that file: to the one to which it led before, with what is in it, or to a new
one with nothing in it.
-/

namespace LogWatch

namespace Disk

variable {d d' : Disk} {path : String}

/-- The bytes that a path leads to; none if it leads nowhere, or to a folder. -/
def content (d : Disk) (path : String) : Bytes :=
  match d.find path with
  | .ok id => d.bytes id
  | .error _ => []

/-- Every step that leads somewhere leads there still. -/
def Gains (d d' : Disk) : Prop :=
  ∀ id name next, d.step id name = .ok next → d'.step id name = .ok next

lemma Gains.walk (h : d.Gains d') {id last : ℕ} {names : List String}
    (hwalk : d.walk id names = .ok last) : d'.walk id names = .ok last := by
  induction names generalizing id with
  | nil => exact hwalk
  | cons name names ih =>
    simp only [Disk.walk, List.foldlM_cons] at hwalk ⊢
    cases hstep : d.step id name with
    | error e =>
      rw [hstep] at hwalk
      cases hwalk
    | ok next =>
      rw [hstep] at hwalk
      rw [h id name next hstep]
      exact ih hwalk

lemma exists_folder_of_step {id next : ℕ} {name : String} (h : d.step id name = .ok next) :
    ∃ up names, d.get? id = some (.folder up names) := by
  unfold step at h
  split at h
  · exact ⟨_, _, ‹_›⟩
  · simp at h

lemma get?_add_of_lt {id : ℕ} (h : id < d.entries.size) (e : Entry) :
    (d.add e).1.get? id = d.get? id := by
  simp [add, get?, Array.getElem?_push, h.ne]

lemma lt_size_of_get? {id : ℕ} {e : Entry} (h : d.get? id = some e) : id < d.entries.size :=
  (Array.getElem?_eq_some_iff.mp h).1

lemma gains_add (d : Disk) (e : Entry) : d.Gains (d.add e).1 := by
  intro id name next hstep
  obtain ⟨up, names, hget⟩ := exists_folder_of_step hstep
  unfold step at hstep ⊢
  rwa [get?_add_of_lt (lt_size_of_get? hget)]

section NewName

variable {folder up id : ℕ} {names : List (String × ℕ)} {name : String}
  (hfolder : d.get? folder = some (.folder up names))
include hfolder

lemma setName_eq (d' : Option ℕ) : d.setName folder name d' = d.set folder
    (.folder up (match d' with
      | some id => names.filter (·.1 ≠ name) ++ [(name, id)]
      | none => names.filter (·.1 ≠ name))) := by
  cases d' <;> simp only [setName, hfolder]

lemma gains_setName (hnew : ∃ e, d.step folder name = .error e) (id : ℕ) :
    d.Gains (d.setName folder name (some id)) := by
  intro from' other next hstep
  rw [setName_eq hfolder]
  -- only a step from this folder can see the new name, and it asked for another one
  by_cases hid : folder = from'
  · subst hid
    have hother : other ≠ name := by
      rintro rfl
      obtain ⟨e, he⟩ := hnew
      simp [he] at hstep
    have hlookup : (names.filter (·.1 ≠ name) ++ [(name, id)]).lookup other =
        names.lookup other := by
      rw [List.lookup_append, lookup_filter_ne names hother]
      simp [List.lookup_cons, beq_eq_false_iff_ne.mpr hother]
    unfold step at hstep ⊢
    rw [get?_set_folder hfolder]
    rw [hfolder] at hstep
    simpa only [hlookup] using hstep
  · unfold step at hstep ⊢
    rwa [get?_set_ne hid]

lemma step_setName_new (hdot : name ≠ ".") (hdots : name ≠ "..")
    (hlength : ¬ longestName < name.utf8ByteSize) (id : ℕ) :
    (d.setName folder name (some id)).step folder name = .ok id := by
  rw [setName_eq hfolder]
  unfold step
  rw [get?_set_folder hfolder]
  simp only [hdot, hdots, hlength, if_false]
  rw [List.lookup_append, lookup_filter_self]
  simp

end NewName

/-- Where a new file is placed: in a folder at the end of the way, under the last name. -/
lemma place_eq_ok {folder : ℕ} {name : String} (h : d.place path = .ok (folder, name)) :
    refuses path = none ∧ (∃ names, Path.steps path = names ++ [name] ∧
      d.walk (origin path) names = .ok folder) ∧ d.isFolder folder = true ∧
      ¬ longestName < name.utf8ByteSize ∧ name ≠ "." ∧ name ≠ ".." := by
  unfold place at h
  cases hrefuses : refuses path with
  | some e =>
    rw [hrefuses] at h
    cases h
  | none =>
    rw [hrefuses] at h
    cases hlast : (Path.steps path).getLast? with
    | none =>
      simp only [hlast] at h
      cases h
    | some last =>
      simp only [hlast] at h
      cases hwalk : d.walk (origin path) (Path.steps path).dropLast with
      | error e =>
        simp only [hwalk, bind, Except.bind, throw, throwThe, MonadExceptOf.throw] at h
        split at h
        · split at h <;> cases h
        · cases h
      | ok folder' =>
        simp only [hwalk, bind, Except.bind, pure, Except.pure, throw, throwThe,
          MonadExceptOf.throw] at h
        repeat' split at h
        all_goals try (cases h; done)
        rename_i hfolder hlength hdots
        obtain ⟨rfl, rfl⟩ := Prod.mk.inj (Except.ok.inj h)
        have hsteps := List.dropLast_append_getLast? last hlast
        refine ⟨rfl, ⟨_, hsteps.symm, hwalk⟩, by simpa using hfolder, hlength, ?_⟩
        simpa using hdots

/-- **A file that was opened is what its path leads to,** and has in it what the path led to
before. -/
theorem openFile_ok {id : ℕ} (h : d.openFile path = .ok (d', id)) :
    d'.find path = .ok id ∧ d'.bytes id = d.content path := by
  unfold openFile at h
  cases hfind : d.find path with
  | ok id' =>
    simp only [hfind] at h
    split at h
    · cases h
    · obtain ⟨rfl, rfl⟩ := Prod.mk.inj (Except.ok.inj h)
      exact ⟨hfind, by simp [content, hfind]⟩
  | error e =>
    simp only [hfind] at h
    cases e <;> try cases h
    cases hplace : d.place path with
    | error e =>
      rw [hplace] at h
      cases h
    | ok x =>
      obtain ⟨folder, name⟩ := x
      obtain ⟨hrefuses, ⟨names, hsteps, hwalk⟩, hisFolder, hlength, hdot, hdots⟩ :=
        place_eq_ok hplace
      rw [hplace] at h
      obtain ⟨rfl, rfl⟩ := Prod.mk.inj (Except.ok.inj h)
      obtain ⟨up, entries, hfolder⟩ : ∃ up entries, d.get? folder = some (.folder up entries) := by
        unfold isFolder at hisFolder
        split at hisFolder
        · exact ⟨_, _, ‹_›⟩
        · simp at hisFolder
      have hlt := lt_size_of_get? hfolder
      have hfolder' : (d.add (.file [])).1.get? folder = some (.folder up entries) :=
        (get?_add_of_lt hlt _).trans hfolder
      -- the folder is there, so it is the last name that the path lacks
      have hmissing : d.step folder name = .error .notFound := by
        rw [find, hrefuses] at hfind
        simp only [hsteps, walk_append, hwalk] at hfind
        change d.walk folder [name] = _ at hfind
        simp only [walk, List.foldlM_cons, List.foldlM_nil] at hfind
        cases hstep : d.step folder name with
        | error e =>
          rw [hstep] at hfind
          exact hfind
        | ok next =>
          rw [hstep] at hfind
          cases hfind
      have hmissing' : (d.add (.file [])).1.step folder name = .error .notFound := by
        rw [← hmissing]
        unfold step
        rw [hfolder', hfolder]
      constructor
      -- the way to the folder is still there, and the name leads from it to the new entry
      · have hways := (gains_setName hfolder' ⟨_, hmissing'⟩ d.entries.size).walk
          ((gains_add d (.file [])).walk hwalk)
        rw [find, hrefuses]
        simp only [hsteps, walk_append]
        change (((d.add (.file [])).1.setName folder name (some d.entries.size)).walk
          (origin path) names >>= _) = _
        rw [hways]
        change Disk.walk _ folder [name] = _
        simp only [walk, List.foldlM_cons, List.foldlM_nil]
        change (((d.add (.file [])).1.setName folder name (some d.entries.size)).step folder name
          >>= _) = _
        rw [step_setName_new hfolder' hdot hdots hlength]
        rfl
      · have hid : (d.add (.file [])).1.get? d.entries.size = some (.file []) := by
          simp [add, get?]
        change ((d.add (.file [])).1.setName folder name (some d.entries.size)).bytes
          d.entries.size = _
        rw [setName_eq hfolder', Disk.bytes, get?_set_ne hlt.ne, hid]
        simp [content, hfind]

end Disk

end LogWatch
