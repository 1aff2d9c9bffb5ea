/-!
How a node is started: a program, its arguments, environment variables beside those of the
harness, and a working folder. The variables are kept in the order of their names, each once.
-/

namespace LogWatch

/-- Variables and their values in increasing order of the names. -/
structure Env where
  entries : List (String × String)
  sorted : entries.Pairwise (fun a b => a.1 < b.1) := by simp

deriving instance DecidableEq, Repr for Env

namespace Env

def empty : Env := { entries := [] }

def insertEntry (k v : String) : List (String × String) → List (String × String)
  | [] => [(k, v)]
  | (k', v') :: rest =>
    if k < k' then (k, v) :: (k', v') :: rest
    else if k = k' then (k, v) :: rest
    else (k', v') :: insertEntry k v rest

theorem key_of_mem_insertEntry {k v : String} {es : List (String × String)} {e : String × String}
    (h : e ∈ insertEntry k v es) : e.1 = k ∨ e ∈ es := by
  induction es with
  | nil => simp_all [insertEntry]
  | cons e' es ih =>
    simp only [insertEntry] at h
    split at h
    · simp only [List.mem_cons] at h ⊢
      grind
    · split at h <;> simp only [List.mem_cons] at h ⊢ <;> grind

theorem sorted_insertEntry (k v : String) {es : List (String × String)}
    (h : es.Pairwise (fun a b => a.1 < b.1)) :
    (insertEntry k v es).Pairwise (fun a b => a.1 < b.1) := by
  induction es with
  | nil => simp [insertEntry]
  | cons e es ih =>
    obtain ⟨k', v'⟩ := e
    have hes := List.pairwise_cons.1 h
    simp only [insertEntry]
    split
    next hlt =>
      refine List.pairwise_cons.2 ⟨?_, h⟩
      intro b hb
      rcases List.mem_cons.1 hb with rfl | hb
      · exact hlt
      · exact String.lt_trans hlt (hes.1 b hb)
    next hlt =>
      split
      next heq =>
        subst heq
        exact List.pairwise_cons.2 ⟨hes.1, hes.2⟩
      next hne =>
        refine List.pairwise_cons.2 ⟨?_, ih hes.2⟩
        intro b hb
        rcases key_of_mem_insertEntry hb with hk | hb
        · have hle : k' ≤ k := String.not_lt.1 hlt
          rw [hk]
          exact Std.lt_of_le_of_ne hle (Ne.symm hne)
        · exact hes.1 b hb

/-- Sets a variable; a value that it had before is lost. -/
def insert (env : Env) (k v : String) : Env :=
  ⟨insertEntry k v env.entries, sorted_insertEntry k v env.sorted⟩

def get? (env : Env) (k : String) : Option String := env.entries.lookup k

end Env

structure Command where
  program : String
  args : List String
  env : Env
  currentDir : Option String
deriving DecidableEq, Repr

namespace Command

def empty : Command := ⟨"", [], .empty, none⟩

def ofProgram (program : String) : Command := { empty with program }

def addArgs (c : Command) (args : List String) : Command := { c with args := c.args ++ args }

def setEnv (c : Command) (k v : String) : Command := { c with env := c.env.insert k v }

def inDir (c : Command) (dir : String) : Command := { c with currentDir := some dir }

end Command

end LogWatch
