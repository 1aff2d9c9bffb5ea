import Mathlib
import LogWatch.Event
import LogWatch.Proofs.Text.Quoted

/-!
The written form of an event is read in one way only.

An operand ends where its closing quote or parenthesis is, whatever its patterns look like, so a
text that begins with an operand tells the operand and what follows. Of an operator the word
between its operands tells which of the two it is.
-/

namespace LogWatch.Event

/-- An event as it is written where an operand stands. -/
def operandChars (e : Event) : List Char := e.enclose e.displayChars

lemma operandChars_pattern (p : String) :
    (pattern p).operandChars = Text.quotedChars .text p.toList := rfl

lemma displayChars_and (l r : Event) :
    (and l r).displayChars = l.operandChars ++ (" AND ".toList ++ r.operandChars) :=
  List.append_assoc _ _ _

lemma displayChars_or (l r : Event) :
    (or l r).displayChars = l.operandChars ++ (" OR ".toList ++ r.operandChars) :=
  List.append_assoc _ _ _

lemma operandChars_of_not_pattern {e : Event} (h : e.isPattern = false) :
    e.operandChars = '(' :: (e.displayChars ++ [')']) := by
  rw [operandChars, enclose, h]
  rfl

lemma operandChars_append_ne (p : String) {e : Event} (h : e.isPattern = false) (x y : List Char) :
    (pattern p).operandChars ++ x ≠ e.operandChars ++ y := by
  rw [operandChars_pattern, operandChars_of_not_pattern h]
  intro heq
  cases (List.cons.inj heq).1

lemma exists_pattern {e : Event} (h : e.isPattern = true) : ∃ p, e = pattern p := by
  cases e with
  | pattern p => exact ⟨p, rfl⟩
  | and | or => cases h

/-- A text that begins with the event as an operand tells the event and what follows. -/
def Readable (e : Event) : Prop :=
  ∀ b x y, e.operandChars ++ x = b.operandChars ++ y → e = b ∧ x = y

def operands : Event → List Event
  | pattern _ => []
  | and l r => [l, r]
  | or l r => [l, r]

lemma operands_inj {l r l' r' : Event} (hl : l.Readable) (hr : r.Readable) {word x y : List Char}
    (h : l.operandChars ++ (word ++ (r.operandChars ++ x)) =
      l'.operandChars ++ (word ++ (r'.operandChars ++ y))) : l = l' ∧ r = r' ∧ x = y := by
  obtain ⟨rfl, hrest⟩ := hl _ _ _ h
  obtain ⟨rfl, rfl⟩ := hr _ _ _ (List.append_cancel_left hrest)
  exact ⟨rfl, rfl, rfl⟩

/-- An operator is read off its operands and the word between them. -/
lemma displayChars_append_inj {a b : Event} (ha : a.isPattern = false) (hb : b.isPattern = false)
    (hoperands : ∀ e ∈ a.operands, e.Readable) {x y : List Char}
    (h : a.displayChars ++ x = b.displayChars ++ y) : a = b ∧ x = y := by
  cases a with
  | pattern p => cases ha
  | and l r =>
    obtain ⟨hl, hr⟩ : l.Readable ∧ r.Readable := by simpa [operands] using hoperands
    cases b with
    | pattern p => cases hb
    | and l' r' =>
      simp only [displayChars_and, List.append_assoc] at h
      obtain ⟨rfl, rfl, rfl⟩ := operands_inj hl hr h
      exact ⟨rfl, rfl⟩
    | or l' r' =>
      simp only [displayChars_and, displayChars_or, List.append_assoc] at h
      -- the words after the left operand differ
      cases (hl _ _ _ h).2
  | or l r =>
    obtain ⟨hl, hr⟩ : l.Readable ∧ r.Readable := by simpa [operands] using hoperands
    cases b with
    | pattern p => cases hb
    | and l' r' =>
      simp only [displayChars_and, displayChars_or, List.append_assoc] at h
      cases (hl _ _ _ h).2
    | or l' r' =>
      simp only [displayChars_or, List.append_assoc] at h
      obtain ⟨rfl, rfl, rfl⟩ := operands_inj hl hr h
      exact ⟨rfl, rfl⟩

lemma readable_pattern (p : String) : (pattern p).Readable := by
  intro b x y h
  cases b with
  | pattern q =>
    obtain ⟨hp, rfl⟩ := Text.quotedChars_append_inj .text h
    exact ⟨congrArg pattern (String.toList_injective hp), rfl⟩
  | and l r => exact absurd h (operandChars_append_ne p rfl x y)
  | or l r => exact absurd h (operandChars_append_ne p rfl x y)

lemma readable_of_operands {e : Event} (he : e.isPattern = false)
    (hoperands : ∀ o ∈ e.operands, o.Readable) : e.Readable := by
  intro b x y h
  cases hb : b.isPattern with
  | true =>
    obtain ⟨p, rfl⟩ := exists_pattern hb
    exact absurd h.symm (operandChars_append_ne p he y x)
  | false =>
    rw [operandChars_of_not_pattern he, operandChars_of_not_pattern hb] at h
    simp only [List.cons_append, List.append_assoc, List.nil_append, List.cons.injEq,
      true_and] at h
    obtain ⟨rfl, htail⟩ := displayChars_append_inj he hb hoperands h
    exact ⟨rfl, (List.cons.inj htail).2⟩

/-- **A text that begins with an operand tells the operand and what follows.** -/
theorem readable (e : Event) : e.Readable := by
  induction e with
  | pattern p => exact readable_pattern p
  | and l r hl hr | or l r hl hr =>
    exact readable_of_operands rfl (by simpa [operands] using ⟨hl, hr⟩)

lemma displayChars_ne_pattern {e : Event} (h : e.isPattern = false) (p : String) :
    e.displayChars ≠ (pattern p).displayChars := by
  intro heq
  have hoperand : (pattern p).displayChars = (pattern p).operandChars ++ [] :=
    (List.append_nil _).symm
  rw [hoperand] at heq
  cases e with
  | pattern q => cases h
  | and l r =>
    rw [displayChars_and] at heq
    cases (readable l _ _ _ heq).2
  | or l r =>
    rw [displayChars_or] at heq
    cases (readable l _ _ _ heq).2

/-- **Events that are written alike are the same,** with the same operators over the same operands
in the same order, down to the patterns. -/
theorem display_inj {a b : Event} : a.display = b.display ↔ a = b := by
  refine ⟨fun h => ?_, congrArg display⟩
  have hchars : a.displayChars = b.displayChars := String.ofList_injective h
  cases ha : a.isPattern with
  | true =>
    obtain ⟨p, rfl⟩ := exists_pattern ha
    cases hb : b.isPattern with
    | true =>
      obtain ⟨q, rfl⟩ := exists_pattern hb
      exact (readable (pattern p) (pattern q) [] [] (congrArg (· ++ []) hchars)).1
    | false => exact absurd hchars.symm (displayChars_ne_pattern hb p)
  | false =>
    cases hb : b.isPattern with
    | true =>
      obtain ⟨q, rfl⟩ := exists_pattern hb
      exact absurd hchars (displayChars_ne_pattern ha q)
    | false =>
      exact (displayChars_append_inj ha hb (fun e _ => e.readable) (congrArg (· ++ []) hchars)).1

/-- A pattern that looks like an event of two is told from it. -/
example : (pattern "a\" AND \"b").display = "\"a\\\" AND \\\"b\"" ∧
    (and (pattern "a") (pattern "b")).display = "\"a\" AND \"b\"" := by
  decide +kernel

end LogWatch.Event
