import Mathlib
import LogWatch.Yaml.Style

/-!
What the choice of a style promises of the text.

Only quotes that escape can hold every text. Of the other three styles each is chosen for texts of
its own: a plain one has no break and nothing that looks like structure, one in single quotes has
no space beside a break and no line feed, one in lines has a line feed and nothing that is not seen.
-/

namespace LogWatch.Yaml

variable {c d : Char} {s : List Char}

/-! ### Characters -/

lemma isAllowed_of_isVisible (h : isVisible c = true) : isAllowed c = true := by
  simp only [isVisible, isAllowed, Bool.or_eq_true, Bool.and_eq_true, beq_iff_eq,
    decide_eq_true_eq] at h ⊢
  omega

lemma ne_of_isVisible (h : isVisible c = true) (hd : isVisible d = false) : c ≠ d := by
  rintro rfl
  rw [h] at hd
  cases hd

lemma isBlank_of_isVisible (h : isVisible c = true) : isBlank c = (c == ' ') := by
  have htab : c ≠ '\t' := ne_of_isVisible h (by decide)
  simp [isBlank, htab]

lemma isBreak_space : isBreak ' ' = false := by decide
lemma isBlank_space : isBlank ' ' = true := by decide

lemma breakText_of_isVisible (hc : isVisible c = true) (h : isBreak c = true) :
    breakText c = c := by
  have hr : c ≠ '\r' := ne_of_isVisible hc (by decide)
  have hn : c ≠ '\u0085' := ne_of_isVisible hc (by decide)
  simp only [isBreak, Bool.or_eq_true, beq_iff_eq] at h
  rcases h with (((rfl | h) | h) | rfl) | rfl
  · rfl
  · exact absurd h hr
  · exact absurd h hn
  · rfl
  · rfl

/-- Every character of a text can be seen. -/
def Visible (s : List Char) : Prop := ∀ c ∈ s, isVisible c = true

@[simp] lemma visible_nil : Visible [] := by simp [Visible]

@[simp] lemma visible_cons : Visible (c :: s) ↔ isVisible c = true ∧ Visible s := by simp [Visible]

@[simp] lemma visible_append {t : List Char} : Visible (s ++ t) ↔ Visible s ∧ Visible t := by
  simp [Visible, or_imp, forall_and]

/-! ### Pairs -/

lemma hasPair_cons (p q : Char → Bool) (a b : Char) (s : List Char) :
    hasPair p q (a :: b :: s) = ((p a && q b) || hasPair p q (b :: s)) := rfl

lemma hasPair_cons_of_not {p q : Char → Bool} {a : Char} (h : p a = false) (s : List Char) :
    hasPair p q (a :: s) = hasPair p q s := by
  cases s with
  | nil => rfl
  | cons b s => rw [hasPair_cons, h, Bool.false_and, Bool.false_or]

/-! ### Styles -/

/-- A text that can stand plainly on a line. -/
structure IsPlain (s : List Char) : Prop where
  ne_nil : s ≠ []
  visible : Visible s
  unbroken : ∀ c ∈ s, isBreak c = false
  head : s.head? ≠ some ' '
  last : s.getLast? ≠ some ' '
  indicator : hasIndicator s = false

lemma ne_of_isDigit (h : c.isDigit = true) (hd : d.isDigit = false) : c ≠ d := by
  rintro rfl
  rw [h] at hd
  cases hd

lemma isVisible_of_isDigit (h : c.isDigit = true) : isVisible c = true := by
  have hbounds : 48 ≤ c.toNat ∧ c.toNat ≤ 57 := by
    simpa [Char.isDigit, UInt32.le_iff_toNat_le] using h
  simp only [isVisible, Bool.or_eq_true, Bool.and_eq_true, decide_eq_true_eq]
  omega

lemma isBreak_of_isDigit (h : c.isDigit = true) : isBreak c = false := by
  have hne : ∀ d : Char, d.isDigit = false → (c == d) = false := fun d hd =>
    beq_eq_false_iff_ne.mpr (ne_of_isDigit h hd)
  simp only [isBreak, hne '\n' rfl, hne '\r' rfl, hne '\u0085' rfl, hne '\u2028' rfl,
    hne '\u2029' rfl, Bool.or_self]

lemma holdsIndicator_of_digits (before : Char) (h : ∀ c ∈ s, c.isDigit = true) :
    holdsIndicator before s = false := by
  induction s generalizing before with
  | nil => rfl
  | cons c s ih =>
    obtain ⟨hc, hs⟩ := List.forall_mem_cons.mp h
    simp [holdsIndicator, ne_of_isDigit hc (d := ':') rfl, ne_of_isDigit hc (d := '#') rfl, ih c hs]

lemma isPlain_of_digits (hs : s ≠ []) (h : ∀ c ∈ s, c.isDigit = true) : IsPlain s := by
  have hspace : ' ' ∉ s := fun hmem => absurd (h ' ' hmem) (by decide)
  refine ⟨hs, fun c hc => isVisible_of_isDigit (h c hc), fun c hc => isBreak_of_isDigit (h c hc),
    fun hhead => hspace (List.mem_of_mem_head? hhead),
    fun hlast => hspace (List.mem_of_mem_getLast? hlast), ?_⟩
  obtain ⟨c, t, rfl⟩ := List.exists_cons_of_ne_nil hs
  obtain ⟨hc, ht⟩ := List.forall_mem_cons.mp h
  have hmarker : hasIndicator.startsMarkerText (c :: t) = false := by
    unfold hasIndicator.startsMarkerText
    split
    · exact absurd (List.cons.inj ‹_›).1 (ne_of_isDigit hc rfl)
    · exact absurd (List.cons.inj ‹_›).1 (ne_of_isDigit hc rfl)
    · rfl
  have hnone : ∀ d ∈ startIndicators, d.isDigit = false := by simp [startIndicators]
  have hstart : c ∉ startIndicators := fun hmem => ne_of_isDigit hc (hnone c hmem) rfl
  simp [hasIndicator, hmarker, hstart, ne_of_isDigit hc (d := '?') rfl,
    ne_of_isDigit hc (d := ':') rfl, ne_of_isDigit hc (d := '-') rfl, holdsIndicator_of_digits c ht]

/-- A text that single quotes can hold. -/
structure IsQuotable (s : List Char) : Prop where
  visible : Visible s
  unfed : '\n' ∉ s
  breakSpace : hasPair isBreak (· == ' ') s = false
  spaceBreak : hasPair (· == ' ') isBreak s = false

/-- What a style promises of a text for which it is chosen. -/
def Style.Suits : Style → String → Prop
  | plain, t => IsPlain t.toList ∧ readsAsOther t = false
  | single, t => IsQuotable t.toList
  | double, _ => True
  | literal, t => '\n' ∈ t.toList ∧ Visible t.toList

lemma visible_of_shape (h : (Shape.of s).invisible = false) : Visible s := by
  simpa [Shape.of, Visible] using h

lemma isQuotable_of_allowsSingle (hn : '\n' ∉ s) (h : (Shape.of s).allowsSingle = true) :
    IsQuotable s := by
  simp only [Shape.allowsSingle, Bool.and_eq_true, Bool.not_eq_true'] at h
  exact ⟨visible_of_shape h.2, hn, h.1.1, h.1.2⟩

lemma isPlain_of_allowsPlain (hs : s ≠ []) (h : (Shape.of s).allowsPlain = true) : IsPlain s := by
  simp only [Shape.allowsPlain, Shape.allowsSingle, Bool.and_eq_true, Bool.not_eq_true'] at h
  obtain ⟨⟨⟨⟨⟨-, hvisible⟩, hedge⟩, -⟩, hbreaks⟩, hindicator⟩ := h
  have hedge' : (s.head?.any (· == ' ') || s.getLast?.any (· == ' ')) = false := hedge
  have hends := Bool.or_eq_false_iff.mp hedge'
  refine ⟨hs, visible_of_shape hvisible, ?_, ?_, ?_, hindicator⟩
  · simpa [Shape.of] using hbreaks
  · intro hhead
    simp [hhead] at hends
  · intro hlast
    simp [hlast] at hends

lemma readsAsOther_empty : readsAsOther "" = true := by decide

/-- **A style is chosen only for texts that it suits.** -/
theorem styleOf_suits (t : String) : (styleOf t).Suits t := by
  unfold styleOf
  -- a line feed is written in a block or by an escape
  by_cases hn : t.toList.contains '\n' = true
  · simp only [hn, if_true]
    split
    · rename_i hblock
      simp only [Shape.allowsBlock, Bool.and_eq_true, Bool.not_eq_true'] at hblock
      exact ⟨by simpa using hn, visible_of_shape hblock.2⟩
    · trivial
  · have hfeed : '\n' ∉ t.toList := by simpa using hn
    simp only [hn]
    split
    · contradiction
    · split
      · rename_i hplain
        simp only [Bool.and_eq_true, Bool.not_eq_true'] at hplain
        refine ⟨isPlain_of_allowsPlain ?_ hplain.2, hplain.1⟩
        intro hnil
        obtain rfl : t = "" := by simpa using hnil
        rw [readsAsOther_empty] at hplain
        cases hplain.1
      · split
        · exact isQuotable_of_allowsSingle hfeed ‹_›
        · trivial

lemma styleOf_ne_literal {t : String} (h : ∀ c ∈ t.toList, isBreak c = false) :
    styleOf t ≠ .literal := by
  intro hstyle
  have hsuits := styleOf_suits t
  rw [hstyle] at hsuits
  have hbreak := h '\n' hsuits.1
  simp [isBreak] at hbreak

end LogWatch.Yaml
