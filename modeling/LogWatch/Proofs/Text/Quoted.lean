import Mathlib
import LogWatch.Text.Quoted

/-!
A quoted text is read in one way only.

Every character has a form that no other form begins with: itself, a backslash and a mark, or its
code point in braces. None begins with the closing quote, so a text that begins with a quoted one
tells where that ends and every character in it.
-/

namespace LogWatch.Text

/-! ### Code points -/

lemma digitChar_inj : ∀ a < 16, ∀ b < 16, Nat.digitChar a = Nat.digitChar b → a = b := by decide

lemma toDigits_ne {a b : ℕ} (ha : a < 16) (hb : 16 ≤ b) :
    Nat.toDigits 16 a ≠ Nat.toDigits 16 b := by
  intro h
  rw [Nat.toDigits_of_lt_base ha, Nat.toDigits_of_base_le (by decide) hb] at h
  have hlength := congrArg List.length h
  have hpos := Nat.length_toDigits_pos (b := 16) (n := b / 16)
  simp only [List.length_singleton, List.length_append] at hlength
  omega

lemma toDigits_sixteen_injective : Function.Injective (Nat.toDigits 16) := by
  intro a
  induction a using Nat.strong_induction_on with
  | h a ih =>
    intro b h
    -- the last digit tells the remainder, those before it the quotient
    rcases Nat.lt_or_ge a 16 with ha | ha <;> rcases Nat.lt_or_ge b 16 with hb | hb
    · rw [Nat.toDigits_of_lt_base ha, Nat.toDigits_of_lt_base hb] at h
      exact digitChar_inj a ha b hb (List.singleton_inj.mp h)
    · exact absurd h (toDigits_ne ha hb)
    · exact absurd h.symm (toDigits_ne hb ha)
    · rw [Nat.toDigits_of_base_le (by decide) ha, Nat.toDigits_of_base_le (by decide) hb] at h
      obtain ⟨hhigh, hlow⟩ := List.append_inj' h rfl
      have hdiv := ih (a / 16) (by omega) hhigh
      have hmod := digitChar_inj (a % 16) (by omega) (b % 16) (by omega)
        (List.singleton_inj.mp hlow)
      omega

lemma brace_notMem_toDigits (n : ℕ) : '}' ∉ Nat.toDigits 16 n := by
  have hdigit : ∀ d < 16, Nat.digitChar d ≠ '}' := by decide
  induction n using Nat.strong_induction_on with
  | h n ih =>
    rcases Nat.lt_or_ge n 16 with hn | hn
    · rw [Nat.toDigits_of_lt_base hn, List.mem_singleton]
      exact (hdigit n hn).symm
    · rw [Nat.toDigits_of_base_le (by decide) hn, List.mem_append, List.mem_singleton, not_or]
      exact ⟨ih (n / 16) (by omega), (hdigit (n % 16) (by omega)).symm⟩

lemma append_cons_inj {α : Type} {mark : α} {as bs s s' : List α} (ha : mark ∉ as)
    (hb : mark ∉ bs) (h : as ++ mark :: s = bs ++ mark :: s') : as = bs ∧ s = s' := by
  induction as generalizing bs with
  | nil =>
    cases bs with
    | nil => exact ⟨rfl, (List.cons.inj h).2⟩
    | cons b bs => exact absurd (List.cons.inj h).1 (List.ne_of_not_mem_cons hb)
  | cons a as ih =>
    cases bs with
    | nil => exact absurd (List.cons.inj h).1.symm (List.ne_of_not_mem_cons ha)
    | cons b bs =>
      obtain ⟨rfl, htail⟩ := List.cons.inj h
      obtain ⟨rfl, rfl⟩ := ih (List.not_mem_of_not_mem_cons ha) (List.not_mem_of_not_mem_cons hb)
        htail
      exact ⟨rfl, rfl⟩

lemma codePoint_append (c : Char) (s : List Char) :
    codePoint c ++ s = '\\' :: 'u' :: '{' :: (Nat.toDigits 16 c.toNat ++ '}' :: s) := by
  simp [codePoint]

lemma codePoint_append_inj {c c' : Char} {s s' : List Char}
    (h : codePoint c ++ s = codePoint c' ++ s') : c = c' ∧ s = s' := by
  simp only [codePoint_append, List.cons.injEq, true_and] at h
  obtain ⟨hdigits, rfl⟩ :=
    append_cons_inj (brace_notMem_toDigits c.toNat) (brace_notMem_toDigits c'.toNat) h
  exact ⟨Char.toNat_inj.mp (toDigits_sixteen_injective hdigits), rfl⟩

/-! ### Characters -/

/-- The character that a mark after a backslash stands for. -/
def unmark : Char → Option Char
  | 'n' => some '\n'
  | 'r' => some '\r'
  | 't' => some '\t'
  | '0' => some '\x00'
  | 'u' => none
  | c => some c

/-- How a character is written. -/
inductive Form (c : Char) : List Char → Prop where
  | itself (quote : c ≠ '"') (backslash : c ≠ '\\') : Form c [c]
  | marked (mark : Char) (stands : unmark mark = some c) : Form c ['\\', mark]
  | coded : Form c (codePoint c)

lemma form_escape (q : Quoting) (c : Char) : Form c (escape q c) := by
  unfold escape
  split
  · exact .marked '"' rfl
  · exact .marked '\\' rfl
  · exact .marked 'n' rfl
  · exact .marked 'r' rfl
  · exact .marked 't' rfl
  · exact .marked '0' rfl
  · split
    · exact .marked '\'' rfl
    · exact .itself (by decide) (by decide)
  · rename_i hquote hbackslash _ _ _ _ _
    split
    · exact .coded
    · exact .itself hquote hbackslash

/-- A mark stands for one character, and for none where a code point follows. -/
lemma marked_append_inj {c c' mark : Char} {s s' w : List Char} (hmark : unmark mark = some c)
    (hform : Form c' w) (h : '\\' :: mark :: s = w ++ s') : c = c' ∧ s = s' := by
  cases hform with
  | itself _ hbackslash => exact absurd (List.cons.inj h).1.symm hbackslash
  | marked mark' hmark' =>
    simp only [List.cons_append, List.nil_append, List.cons.injEq, true_and] at h
    obtain ⟨rfl, rfl⟩ := h
    exact ⟨Option.some.inj (hmark.symm.trans hmark'), rfl⟩
  | coded =>
    simp only [codePoint_append, List.cons.injEq, true_and] at h
    rw [h.1] at hmark
    cases hmark

/-- **A text that begins with the form of a character tells the character.** -/
theorem Form.append_inj {c c' : Char} {w w' s s' : List Char} (hform : Form c w)
    (hform' : Form c' w') (h : w ++ s = w' ++ s') : c = c' ∧ s = s' := by
  cases hform with
  | itself hquote hbackslash =>
    cases hform' with
    | itself => exact List.cons.inj h
    | marked => exact absurd (List.cons.inj h).1 hbackslash
    | coded => exact absurd (List.cons.inj h).1 hbackslash
  -- a mark and a code point both begin with a backslash; the next character tells them apart
  | marked mark hmark => exact marked_append_inj hmark hform' h
  | coded =>
    cases hform' with
    | itself _ hbackslash => exact absurd (List.cons.inj h).1.symm hbackslash
    | marked mark' hmark' =>
      obtain ⟨rfl, rfl⟩ := marked_append_inj hmark' .coded h.symm
      exact ⟨rfl, rfl⟩
    | coded => exact codePoint_append_inj h

lemma Form.append_ne {c : Char} {w : List Char} (hform : Form c w) (s s' : List Char) :
    w ++ s ≠ '"' :: s' := by
  intro h
  cases hform with
  | itself hquote => exact hquote (List.cons.inj h).1
  | marked | coded => cases (List.cons.inj h).1

/-! ### Texts -/

lemma flatMap_escape_inj (q : Quoting) {s s' rest rest' : List Char}
    (h : s.flatMap (escape q) ++ '"' :: rest = s'.flatMap (escape q) ++ '"' :: rest') :
    s = s' ∧ rest = rest' := by
  induction s generalizing s' with
  | nil =>
    cases s' with
    | nil => exact ⟨rfl, (List.cons.inj h).2⟩
    | cons c' s' =>
      rw [List.flatMap_cons, List.append_assoc] at h
      exact absurd h.symm ((form_escape q c').append_ne _ _)
  | cons c s ih =>
    rw [List.flatMap_cons, List.append_assoc] at h
    cases s' with
    | nil => exact absurd h ((form_escape q c).append_ne _ _)
    | cons c' s' =>
      rw [List.flatMap_cons, List.append_assoc] at h
      obtain ⟨rfl, htail⟩ := (form_escape q c).append_inj (form_escape q c') h
      obtain ⟨rfl, rfl⟩ := ih htail
      exact ⟨rfl, rfl⟩

/-- **A text that begins with a quoted one tells what is quoted and what follows.** -/
theorem quotedChars_append_inj (q : Quoting) {s s' rest rest' : List Char}
    (h : quotedChars q s ++ rest = quotedChars q s' ++ rest') : s = s' ∧ rest = rest' := by
  simp only [quotedChars, List.cons_append, List.append_assoc, List.nil_append, List.cons.injEq,
    true_and] at h
  exact flatMap_escape_inj q h

end LogWatch.Text
