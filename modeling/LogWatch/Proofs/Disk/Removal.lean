import Mathlib
import LogWatch.Proofs.LogFile.Growth

/-!
What is removed from a disk is gone.

To take a name out of a folder ends the ways that lead through it and leaves all others as they
were. So a path that led nowhere leads nowhere after a removal, and the path of a folder that was
removed leads nowhere at all, whatever the folders on the way hold.
-/

namespace LogWatch

lemma Path.steps_eq (path : String) :
    steps path = names path ∨ steps path = names path ++ ["."] := by
  simp only [steps, names]
  split
  · exact .inr rfl
  · exact .inl rfl

namespace Disk

variable {d d' d'' : Disk} {path : String}

/-- Every step leads where it led before, or nowhere. -/
def Loses (d d' : Disk) : Prop :=
  ∀ id name, d'.step id name = d.step id name ∨ ∃ e, d'.step id name = .error e

lemma Loses.refl (d : Disk) : d.Loses d := fun _ _ => .inl rfl

lemma walk_append (d : Disk) (id : ℕ) (names more : List String) :
    d.walk id (names ++ more) = d.walk id names >>= (d.walk · more) := by
  simp only [walk, List.foldlM_append]

lemma Loses.walk (h : d.Loses d') (id : ℕ) (names : List String) :
    d'.walk id names = d.walk id names ∨ ∃ e, d'.walk id names = .error e := by
  induction names generalizing id with
  | nil => exact .inl rfl
  | cons name names ih =>
    simp only [Disk.walk, List.foldlM_cons]
    rcases h id name with hsame | ⟨e, he⟩
    · rw [hsame]
      cases d.step id name with
      | error e => exact .inl rfl
      | ok next => exact ih next
    · rw [he]
      exact .inr ⟨e, rfl⟩

lemma Loses.isThere (h : d.Loses d') (hgone : d.isThere path = false) :
    d'.isThere path = false := by
  unfold Disk.isThere find at *
  cases hrefuses : refuses path with
  | some e => rfl
  | none =>
    simp only [hrefuses] at hgone ⊢
    rcases h.walk (origin path) (Path.steps path) with hsame | ⟨e, he⟩
    · rwa [hsame]
    · rw [he]
      rfl

lemma get?_set_folder {id up : ℕ} {names : List (String × ℕ)}
    (h : d.get? id = some (.folder up names)) (e : Entry) : (d.set id e).get? id = some e := by
  have hlt : id < d.entries.size := (Array.getElem?_eq_some_iff.mp h).1
  simp [set, get?, hlt]

lemma lookup_filter_self (names : List (String × ℕ)) (name : String) :
    (names.filter (·.1 ≠ name)).lookup name = none := by
  refine List.lookup_eq_none_iff.mpr fun x hx => ?_
  have hne : x.1 ≠ name := by simpa using (List.mem_filter.mp hx).2
  simpa using fun hname => hne hname.symm

lemma lookup_filter_ne (names : List (String × ℕ)) {name other : String} (h : other ≠ name) :
    (names.filter (·.1 ≠ name)).lookup other = names.lookup other := by
  induction names with
  | nil => rfl
  | cons x names ih =>
    obtain ⟨first, id⟩ := x
    by_cases hfirst : first = name
    · rw [List.filter_cons_of_neg (by simpa using hfirst), ih, List.lookup_cons,
        beq_eq_false_iff_ne.mpr (hfirst ▸ h)]
    · rw [List.filter_cons_of_pos (by simpa using hfirst), List.lookup_cons, List.lookup_cons, ih]

lemma loses_setName (d : Disk) (folder : ℕ) (name : String) :
    d.Loses (d.setName folder name none) := by
  intro id other
  unfold setName
  split
  · rename_i up names hfolder
    by_cases hid : folder = id
    · subst hid
      unfold step
      rw [get?_set_folder hfolder, hfolder]
      dsimp only
      split
      · exact .inl rfl
      · split
        · exact .inl rfl
        · split
          · exact .inl rfl
          -- a name that is looked up in the folder itself
          · by_cases hother : other = name
            · rw [hother, lookup_filter_self]
              exact .inr ⟨_, rfl⟩
            · rw [lookup_filter_ne names hother]
              exact .inl rfl
    · unfold step
      rw [get?_set_ne hid]
      exact .inl rfl
  · exact .inl rfl

lemma step_setName_self {folder up : ℕ} {names : List (String × ℕ)} {name : String}
    (h : d.get? folder = some (.folder up names)) (hdot : name ≠ ".") (hdots : name ≠ "..") :
    ∃ e, (d.setName folder name none).step folder name = .error e := by
  unfold setName
  rw [h]
  unfold step
  rw [get?_set_folder h]
  simp only [hdot, hdots, if_false]
  split
  · exact ⟨_, rfl⟩
  · rw [lookup_filter_self]
    exact ⟨_, rfl⟩

lemma walk_setName_self {id folder : ℕ} {names : List String} {name : String}
    (hfolder : d.walk id names = .ok folder) (hnext : ∃ next, d.step folder name = .ok next)
    (hdot : name ≠ ".") (hdots : name ≠ "..") :
    ∃ e, (d.setName folder name none).walk id (names ++ [name]) = .error e := by
  obtain ⟨up, entries, hget⟩ : ∃ up entries, d.get? folder = some (.folder up entries) := by
    obtain ⟨next, hnext⟩ := hnext
    unfold step at hnext
    split at hnext
    · rename_i up entries hget
      exact ⟨up, entries, hget⟩
    · simp at hnext
  obtain ⟨e, he⟩ := step_setName_self hget hdot hdots
  rw [walk_append]
  -- the folder is reached as before, or the way to it led through the name as well
  rcases (loses_setName d folder name).walk id names with hsame | ⟨e', he'⟩
  · refine ⟨e, ?_⟩
    rw [hsame, hfolder]
    change (d.setName folder name none).walk folder [name] = _
    simp only [walk, List.foldlM_cons, he]
    rfl
  · exact ⟨e', by rw [he']; rfl⟩

lemma find_eq_ok {id : ℕ} (h : d.find path = .ok id) :
    refuses path = none ∧ d.walk (origin path) (Path.steps path) = .ok id := by
  unfold find at h
  split at h
  · simp at h
  · rename_i hrefuses
    exact ⟨hrefuses, h⟩

lemma isThere_eq_false (hrefuses : refuses path = none)
    (h : ∃ e, d.walk (origin path) (Path.names path) = .error e) : d.isThere path = false := by
  obtain ⟨e, he⟩ := h
  unfold isThere find
  rw [hrefuses]
  dsimp only
  rcases Path.steps_eq path with hsteps | hsteps
  · rw [hsteps, he]
    rfl
  · rw [hsteps, walk_append, he]
    rfl

lemma exists_step_of_walk {id folder last : ℕ} {names : List String} {name : String}
    (h : d.walk id (names ++ [name]) = .ok last) (hfolder : d.walk id names = .ok folder) :
    ∃ next, d.step folder name = .ok next := by
  rw [walk_append, hfolder] at h
  change d.walk folder [name] = .ok last at h
  simp only [walk, List.foldlM_cons, List.foldlM_nil] at h
  cases hstep : d.step folder name with
  | error e => simp [hstep] at h
  | ok next => exact ⟨next, rfl⟩

lemma exists_folder_of_find {id : ℕ} {name : String} (h : d.find path = .ok id)
    (hlast : Path.lastName path = some name) :
    ∃ folder next, d.walk (origin path) (Path.names path).dropLast = .ok folder ∧
      d.step folder name = .ok next := by
  have hnames : (Path.names path).dropLast ++ [name] = Path.names path :=
    List.dropLast_append_getLast? name hlast
  -- a path may have one step more than names, which stays in the folder
  obtain ⟨last, hall⟩ : ∃ last, d.walk (origin path) (Path.names path) = .ok last := by
    obtain ⟨-, hwalk⟩ := find_eq_ok h
    rcases Path.steps_eq path with hsteps | hsteps
    · exact ⟨id, hsteps ▸ hwalk⟩
    · rw [hsteps, walk_append] at hwalk
      cases hall : d.walk (origin path) (Path.names path) with
      | error e =>
        rw [hall] at hwalk
        cases hwalk
      | ok last => exact ⟨last, rfl⟩
  rw [← hnames] at hall
  cases hfolder : d.walk (origin path) (Path.names path).dropLast with
  | error e =>
    rw [walk_append, hfolder] at hall
    cases hall
  | ok folder =>
    obtain ⟨next, hnext⟩ := exists_step_of_walk hall hfolder
    exact ⟨folder, next, rfl, hnext⟩

/-- **A folder that was removed is not there,** and its removal brought nothing back. -/
theorem removeDir_ok (h : d.removeDir path = (d', .ok ())) :
    d'.isThere path = false ∧ d.Loses d' := by
  unfold removeDir at h
  split at h
  · simp at h
  · rename_i id hfind
    split at h
    · simp at h
    · simp at h
    · rename_i name hdot hdots hget hlast
      obtain ⟨folder, next, hfolder, hnext⟩ := exists_folder_of_find hfind hlast
      rw [hfolder] at h
      obtain ⟨rfl, -⟩ := Prod.mk.inj h
      refine ⟨isThere_eq_false (find_eq_ok hfind).1 ?_, loses_setName d folder name⟩
      rw [← List.dropLast_append_getLast? name hlast]
      exact walk_setName_self hfolder ⟨next, hnext⟩ (by simpa using hdot) (by simpa using hdots)
    · simp at h
    · simp at h

lemma removeDir_notFound (h : d.removeDir path = (d', .error .notFound)) :
    d' = d ∧ d.isThere path = false := by
  unfold removeDir at h
  split at h
  · rename_i e hfind
    obtain ⟨rfl, -⟩ := Prod.mk.inj h
    exact ⟨rfl, by rw [isThere, hfind]; rfl⟩
  · rename_i id hfind
    split at h
    · simp at h
    · simp at h
    · rename_i name hdot hdots hget hlast
      obtain ⟨folder, next, hfolder, -⟩ := exists_folder_of_find hfind hlast
      rw [hfolder] at h
      simp at h
    · simp at h
    · simp at h

end Disk

end LogWatch
