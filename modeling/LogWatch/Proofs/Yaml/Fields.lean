import Mathlib
import LogWatch.Proofs.Yaml.Nodes
import LogWatch.Yaml.Settings

/-!
The tree of a value is decoded to the value.

A number is read back from its digits. A text that may be missing is told from null by its form: a
text is written plainly only if it does not read as something else. Fields are found by their
names, and the variables of an environment go back in where they stood.
-/

namespace LogWatch.Yaml

variable {d : Document} {k largest : ℕ} {es : List (String × Value)} {name : String} {v : Value}

/-! ### Numbers -/

lemma digitValue?_of_isDigit {c : Char} (hc : c.isDigit = true) :
    digitValue? 10 c = some (c.toNat - '0'.toNat) := by
  have hbounds : 48 ≤ c.toNat ∧ c.toNat ≤ 57 := by
    simpa [Char.isDigit, UInt32.le_iff_toNat_le] using hc
  have hsmall : c.toNat - '0'.toNat < 10 := by
    rw [show '0'.toNat = 48 from rfl]
    omega
  simp only [digitValue?, hc, if_true, Option.filter, hsmall, decide_true]

lemma natural?_of_digits {s : List Char} (hs : s ≠ []) (h : ∀ c ∈ s, c.isDigit = true) :
    natural? 10 s = some (Nat.ofDigitChars 10 s 0) := by
  have hfold : ∀ (s : List Char) n, (∀ c ∈ s, c.isDigit = true) →
      s.foldlM (fun n c => (digitValue? 10 c).map (n * 10 + ·)) n =
        some (Nat.ofDigitChars 10 s n) := by
    intro s
    induction s with
    | nil => exact fun _ _ => rfl
    | cons c s ih =>
      intro n h
      obtain ⟨hc, hs⟩ := List.forall_mem_cons.mp h
      rw [List.foldlM_cons, digitValue?_of_isDigit hc, Nat.ofDigitChars_cons, Nat.mul_comm 10]
      exact ih _ hs
  rw [natural?, if_neg (by simpa using hs), hfold s 0 h]

lemma head?_toDigits (hk : 0 < k) : (Nat.toDigits 10 k).head? ≠ some '0' := by
  induction k using Nat.strongRecOn with
  | ind k ih =>
    by_cases hsmall : k < 10
    · rw [Nat.toDigits_of_lt_base hsmall]
      simp [Nat.digitChar_eq_zero, hk.ne']
    · have hle : 10 ≤ k := not_lt.mp hsmall
      rw [Nat.toDigits_of_base_le (by decide) hle,
        List.head?_append_of_ne_nil _ Nat.toDigits_ne_nil]
      exact ih (k / 10) (Nat.div_lt_self hk (by decide)) (Nat.div_pos hle (by decide))

lemma isZeroPadded_toDigits (k : ℕ) : isZeroPadded (Nat.toDigits 10 k) = false := by
  obtain ⟨c, s, hs⟩ := List.exists_cons_of_ne_nil (Nat.toDigits_ne_nil (n := k) (b := 10))
  have hc : c.isDigit = true :=
    Nat.isDigit_of_mem_toDigits (by decide) (by decide) (hs ▸ List.mem_cons_self)
  have hsign : isSign c = false := by
    simp [isSign, ne_of_isDigit hc (d := '+') rfl, ne_of_isDigit hc (d := '-') rfl]
  -- only zero has a zero at its front
  rcases Nat.eq_zero_or_pos k with rfl | hk
  · rfl
  · have hzero : c ≠ '0' := by
      intro hzero
      exact head?_toDigits hk (by rw [hs, hzero]; rfl)
    rw [hs, isZeroPadded]
    simp only [hsign, Bool.false_eq_true, if_false]
    split
    · exact absurd (List.cons.inj ‹_›).1 hzero
    · rfl

lemma unsigned?_toDigits (hk : k ≤ largest) : unsigned? largest (Nat.toDigits 10 k) = some k := by
  have hdigits : ∀ c ∈ Nat.toDigits 10 k, c.isDigit = true := fun c hc =>
    Nat.isDigit_of_mem_toDigits (by decide) (by decide) hc
  have hplus : dropPlus (Nat.toDigits 10 k) = Nat.toDigits 10 k := by
    unfold dropPlus
    split
    · rename_i heq
      exact absurd (hdigits '+' (heq ▸ List.mem_cons_self)) (by decide)
    · rfl
  -- the letter of another base would be the second digit
  have hbase : base? (Nat.toDigits 10 k) = none := by
    have hsecond : ∀ c d s, Nat.toDigits 10 k = c :: d :: s → d.isDigit = true := fun c d s heq =>
      hdigits d (by simp [heq])
    unfold base?
    split
    · exact absurd (hsecond _ _ _ ‹_›) (by decide)
    · exact absurd (hsecond _ _ _ ‹_›) (by decide)
    · exact absurd (hsecond _ _ _ ‹_›) (by decide)
    · rfl
  simp only [unsigned?, hplus, hbase, isZeroPadded_toDigits, Bool.false_eq_true, if_false,
    natural?_of_digits Nat.toDigits_ne_nil hdigits, Nat.ofDigitChars_ten_toDigits, Option.filter,
    hk, decide_true, if_true]

lemma asNumber_toTree (hk : k ≤ largest) (hlargest : largest ≤ largestNumber) :
    asNumber largest d (Value.number k).toTree = .ok k := by
  have hread : unsigned? 0xffffffffffffffff (Nat.toDigits 10 k) = some k :=
    unsigned?_toDigits (hk.trans hlargest)
  simp only [asNumber, Value.toTree, Document.resolve, String.toList_ofList, hread, hk, if_true]
  rfl

/-! ### Texts -/

lemma asText_textTree (t : String) : asText d (textTree t) = .ok t := rfl

lemma formOf_eq_plain {t : String} (h : formOf t = .plain) : readsAsOther t = false := by
  have hsuits := styleOf_suits t
  unfold formOf at h
  cases hstyle : styleOf t <;> rw [hstyle] at h hsuits
  · exact hsuits.2
  all_goals cases h

lemma asOptionalText_toTree (o : Option String) :
    asOptionalText d (Command.optional o).toTree = .ok o := by
  cases o with
  | none => rfl
  | some t =>
    have htext : asOptionalText d (textTree t) = .ok (some t) := by
      cases hform : formOf t with
      | plain =>
        have hother := formOf_eq_plain hform
        simp only [readsAsOther, Bool.or_eq_false_iff] at hother
        simp only [asOptionalText, textTree, Document.resolve, hform, hother.1.1.1.1.1,
          Bool.or_self, Bool.false_eq_true, if_false]
      | lines => simp only [asOptionalText, textTree, Document.resolve, hform]
      | other => simp only [asOptionalText, textTree, Document.resolve, hform]
    exact htext

/-! ### Collections -/

lemma asTexts_toTree (ts : List String) :
    (do (← asList d (Value.list ts).toTree).mapM (asText d)) = .ok ts := by
  have hmap : (ts.map textTree).mapM (asText d) = .ok ts := by
    induction ts with
    | nil => rfl
    | cons t ts ih =>
      rw [List.map_cons, List.mapM_cons, asText_textTree, ih]
      rfl
  exact hmap

/-- The trees of a mapping's values, by their names. -/
def fieldTrees (es : List (String × Value)) : List (String × Tree) :=
  es.map fun e => (e.1, e.2.toTree)

lemma asFields_toTree (es : List (String × Value)) :
    asFields d (Value.mapping es).toTree = .ok (fieldTrees es) := by
  have hmap : (entryTrees es).mapM (fun e => do return (← asText d e.1, e.2)) =
      (.ok (fieldTrees es) : Except YamlError (List (String × Tree))) := by
    induction es with
    | nil => rfl
    | cons e es ih =>
      rw [entryTrees, List.mapM_cons, ih]
      rfl
  exact hmap

lemma filter_of_mem (hnames : (es.map Prod.fst).Nodup) (hmem : (name, v) ∈ es) :
    (fieldTrees es).filter (·.1 = name) = [(name, v.toTree)] := by
  induction es with
  | nil => simp at hmem
  | cons e es ih =>
    obtain ⟨hnew, hnames⟩ := List.nodup_cons.mp hnames
    rcases List.mem_cons.mp hmem with rfl | hmem
    · rw [fieldTrees, List.map_cons, List.filter_cons_of_pos (by simp), List.cons.injEq]
      refine ⟨rfl, List.filter_eq_nil_iff.mpr ?_⟩
      intro f hf
      obtain ⟨e, he, rfl⟩ := List.mem_map.mp hf
      have hne : e.1 ≠ name := fun heq => hnew (List.mem_map.mpr ⟨e, he, heq⟩)
      simpa using hne
    · have hne : e.1 ≠ name := fun heq => hnew (heq ▸ List.mem_map.mpr ⟨_, hmem, rfl⟩)
      rw [fieldTrees, List.map_cons, List.filter_cons_of_neg (by simpa using hne)]
      exact ih hnames hmem

lemma field?_of_mem {α : Type} {read : Tree → Except YamlError α} {a : α}
    (hnames : (es.map Prod.fst).Nodup) (hmem : (name, v) ∈ es) (hread : read v.toTree = .ok a) :
    field? (fieldTrees es) name read = .ok (some a) := by
  rw [field?, filter_of_mem hnames hmem]
  simp only [hread]
  rfl

lemma field_of_mem {α : Type} {read : Tree → Except YamlError α} {a : α}
    (hnames : (es.map Prod.fst).Nodup) (hmem : (name, v) ∈ es) (hread : read v.toTree = .ok a) :
    field (fieldTrees es) name read = .ok a := by
  rw [field, field?_of_mem hnames hmem hread]
  rfl

/-! ### Environments -/

lemma insertEntry_last {k v : String} {es : List (String × String)} (h : ∀ e ∈ es, e.1 < k) :
    Env.insertEntry k v es = es ++ [(k, v)] := by
  induction es with
  | nil => rfl
  | cons e es ih =>
    obtain ⟨he, hes⟩ := List.forall_mem_cons.mp h
    obtain ⟨k', v'⟩ := e
    have hlt : ¬ k < k' := String.lt_asymm he
    have hne : k ≠ k' := fun heq => String.lt_irrefl k (heq ▸ he)
    rw [Env.insertEntry, if_neg hlt, if_neg hne, ih hes]
    rfl

/-- The variables of an environment as they are written. -/
def envValue (env : Env) : Value := .mapping (env.entries.map fun e => (e.1, .text e.2))

lemma foldlM_insert (rest : List (String × String)) (env : Env)
    (hsorted : (env.entries ++ rest).Pairwise fun a b => a.1 < b.1) :
    ∃ env' : Env, env'.entries = env.entries ++ rest ∧
      (entryTrees (rest.map fun e => (e.1, .text e.2))).foldlM
        (fun (env : Env) (e : Tree × Tree) => do
          return env.insert (← asText d e.1) (← asText d e.2)) env = .ok env' := by
  induction rest generalizing env with
  | nil => exact ⟨env, by simp, rfl⟩
  | cons e rest ih =>
    have hbefore : ∀ e' ∈ env.entries, e'.1 < e.1 := fun e' he' =>
      (List.pairwise_append.mp hsorted).2.2 e' he' e List.mem_cons_self
    have hentries : (env.insert e.1 e.2).entries = env.entries ++ [e] := insertEntry_last hbefore
    obtain ⟨env', henv', hfold⟩ := ih (env.insert e.1 e.2) (by simpa [hentries] using hsorted)
    exact ⟨env', by simpa [hentries] using henv', hfold⟩

lemma asEnv_toTree (env : Env) :
    (do (← asMapping d (envValue env).toTree).foldlM (fun (env : Env) (e : Tree × Tree) => do
        return env.insert (← asText d e.1) (← asText d e.2)) Env.empty) = .ok env := by
  obtain ⟨env', henv', hfold⟩ := foldlM_insert (d := d) env.entries .empty
    (by simpa [Env.empty] using env.sorted)
  obtain rfl : env' = env := by
    cases env'
    cases env
    simpa [Env.empty] using henv'
  exact hfold

end LogWatch.Yaml
