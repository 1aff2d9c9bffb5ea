import Mathlib
import LogWatch.Proofs.Yaml.Block
import LogWatch.Proofs.Yaml.Quoted

/-!
What is written, line by line.

The pen ends a line only when it begins the next one. Here a text, a value and an entry are whole
lines with their ends, so that what is written of a mapping is the lines of its entries one after
the other, and nothing depends on where the pen stands.
-/

namespace LogWatch.Yaml

/-! ### Layout -/

/-- A text that is not written line by line, as it stands on its line. -/
def inlineText (n : ℕ) (t : String) : List Char :=
  match styleOf t with
  | .plain | .literal => t.toList
  | .single => '\'' :: (singleBody n '\'' t.toList ++ ['\''])
  | .double => '"' :: (doubleBody t.toList ++ ['"'])

/-- A text with the ends of its lines; lines after the first are indented by `n`. -/
def textLines (n : ℕ) (t : String) : List Char :=
  if styleOf t = .literal then
    '|' :: ((Pen.hints t.toList).toList ++
      '\n' :: (literalBody n true t.toList ++ lastBreak t.toList))
  else inlineText n t ++ ['\n']

/-- A key with its colon. -/
def keyLines (n : ℕ) (k : String) : List Char :=
  if isSimpleKey k then inlineText (n + 2) k ++ [':']
  else '?' :: ' ' :: (textLines (n + 2) k ++ (spaces n ++ [':']))

def itemLines (n : ℕ) : List String → List Char
  | [] => []
  | t :: ts => spaces n ++ '-' :: ' ' :: (textLines (n + 2) t ++ itemLines n ts)

mutual

/-- What is written of a value after its key and the colon. -/
def valueLines (n : ℕ) : Value → List Char
  | .null => ' ' :: ("null".toList ++ ['\n'])
  | .number k => ' ' :: (Nat.toDigits 10 k ++ ['\n'])
  | .text t => ' ' :: textLines (n + 2) t
  | .list [] => [' ', '[', ']', '\n']
  | .list ts => '\n' :: itemLines n ts
  | .mapping [] => [' ', '\x7b', '\x7d', '\n']
  | .mapping es => '\n' :: entryLines (n + 2) es

def entryLines (n : ℕ) : List (String × Value) → List Char
  | [] => []
  | (k, v) :: es => spaces n ++ (keyLines n k ++ (valueLines n v ++ entryLines n es))

end

mutual

/-- Whether a key that stands on a line of its own has a text for its value, wherever there is
one. -/
def Value.Fits : Value → Prop
  | .mapping es => EntriesFit es
  | .null | .number _ | .text _ | .list _ => True

def EntriesFit : List (String × Value) → Prop
  | [] => True
  | (k, v) :: es => (isSimpleKey k = false → ∃ t, v = .text t) ∧ v.Fits ∧ EntriesFit es

end

/-! ### What is seen -/

section Visible

variable {s : List Char} {n : ℕ}

@[simp] lemma visible_spaces (n : ℕ) : Visible (spaces n) := by
  intro c hc
  rw [List.eq_of_mem_replicate hc]
  rfl

lemma visible_hexDigits (k n : ℕ) : Visible (Pen.hexDigits k n) := by
  have hdigit : ∀ d < 16, isVisible (Pen.hexDigit d) = true := by decide
  induction k generalizing n with
  | zero => exact visible_nil
  | succ k ih =>
    rw [Pen.hexDigits, visible_append, visible_cons]
    exact ⟨ih _, hdigit _ (Nat.mod_lt n (by decide)), visible_nil⟩

lemma visible_escape (c : Char) : Visible (Pen.escape c) := by
  have hnumber : ∀ (d : Char) k, isVisible d = true →
      Visible ('\\' :: d :: Pen.hexDigits k c.toNat) := fun d k hd =>
    visible_cons.mpr ⟨rfl, visible_cons.mpr ⟨hd, visible_hexDigits k c.toNat⟩⟩
  unfold Pen.escape
  split
  iterate 15 simp [isVisible]
  dsimp only
  split
  · exact hnumber 'x' 2 rfl
  · split
    · exact hnumber 'u' 4 rfl
    · exact hnumber 'U' 8 rfl

lemma visible_doubleBody (s : List Char) : Visible (doubleBody s) := by
  intro d hd
  obtain ⟨c, -, hd⟩ := List.mem_flatMap.mp hd
  split at hd
  · exact visible_escape c d hd
  · rename_i hplain
    obtain rfl := List.mem_singleton.mp hd
    simp only [Pen.needsEscape, Bool.or_eq_true, Bool.not_eq_true', not_or] at hplain
    simpa using hplain.1.1.1

lemma visible_singleBody (b : Char) (hs : Visible s) : Visible (singleBody n b s) := by
  have hstart : ∀ b, Visible (lineStart n b) := by
    intro b
    unfold lineStart
    split <;> simp
  have hdoubled : ∀ c, Visible (doubled c) := by
    intro c
    unfold doubled
    split <;> simp [isVisible]
  induction s generalizing b with
  | nil => exact hstart b
  | cons c s ih =>
    obtain ⟨hc, hs⟩ := visible_cons.mp hs
    rw [singleBody]
    split
    · exact visible_cons.mpr ⟨hc, ih c hs⟩
    · simp [hstart, hdoubled, hc, ih c hs]

lemma visible_literalBody (broken : Bool) (hs : Visible s) : Visible (literalBody n broken s) := by
  induction s generalizing broken with
  | nil => exact visible_nil
  | cons c s ih =>
    obtain ⟨hc, hs⟩ := visible_cons.mp hs
    rw [literalBody]
    split
    · exact visible_cons.mpr ⟨hc, ih true hs⟩
    · split <;> simp [hc, ih false hs]

lemma visible_inlineText (n : ℕ) (t : String) : Visible (inlineText n t) := by
  have hsuits := styleOf_suits t
  unfold inlineText
  cases hstyle : styleOf t <;> rw [hstyle] at hsuits
  · exact hsuits.1.visible
  · simp [visible_singleBody _ hsuits.visible, isVisible]
  · simp [visible_doubleBody, isVisible]
  · exact hsuits.2

lemma visible_textLines (n : ℕ) (t : String) : Visible (textLines n t) := by
  unfold textLines
  split
  · rename_i hstyle
    have hsuits := styleOf_suits t
    rw [hstyle] at hsuits
    have hhints : Visible (Pen.hints t.toList).toList := by
      rw [toList_hints, visible_append]
      refine ⟨by split <;> simp [isVisible], ?_⟩
      cases chompOf t.toList <;> simp [Chomp.mark, isVisible]
    have hlast : Visible (lastBreak t.toList) := by
      unfold lastBreak
      split <;> simp [isVisible]
    simp [hhints, hlast, visible_literalBody _ hsuits.2, isVisible]
  · simp [visible_inlineText, isVisible]

lemma visible_keyLines (n : ℕ) (k : String) : Visible (keyLines n k) := by
  unfold keyLines
  split <;> simp [visible_inlineText, visible_textLines, isVisible]

lemma visible_itemLines (n : ℕ) (ts : List String) : Visible (itemLines n ts) := by
  induction ts with
  | nil => exact visible_nil
  | cons t ts ih => simp [itemLines, visible_textLines, ih, isVisible]

mutual

lemma visible_valueLines (n : ℕ) (v : Value) : Visible (valueLines n v) := by
  match v with
  | .null => simp [valueLines, isVisible]
  | .number k =>
    have hdigits : Visible (Nat.toDigits 10 k) := fun c hc =>
      isVisible_of_isDigit (Nat.isDigit_of_mem_toDigits (by decide) (by decide) hc)
    simp [valueLines, hdigits, isVisible]
  | .text t => simp [valueLines, visible_textLines, isVisible]
  | .list [] => simp [valueLines, isVisible]
  | .list (t :: ts) => simp [valueLines, visible_itemLines, isVisible]
  | .mapping [] => simp [valueLines, isVisible]
  | .mapping (e :: es) => simp [valueLines, visible_entryLines (n + 2) (e :: es), isVisible]

/-- **Whatever the texts are, only what can be seen is written.** -/
theorem visible_entryLines (n : ℕ) (es : List (String × Value)) : Visible (entryLines n es) := by
  match es with
  | [] => exact visible_nil
  | (k, v) :: es =>
    simp [entryLines, visible_keyLines, visible_valueLines n v, visible_entryLines n es]

end

end Visible

/-! ### The pen -/

namespace Pen

variable {p : Pen} {n : ℕ} {s out : List Char} {b c : Char}

lemma puts_eq (p : Pen) (s : List Char) :
    p.puts s = { p with written := s.reverse ++ p.written, column := p.column + s.length } := by
  induction s generalizing p with
  | nil => rfl
  | cons c s ih =>
    rw [puts, List.foldl_cons, ← puts, ih]
    simp [put, Nat.add_comm, Nat.add_left_comm]

/-- What a pen has written so far. -/
def shown (p : Pen) : List Char := p.written.reverse

/-- All these lines are written, the last one perhaps but for its end. -/
inductive Ready (p : Pen) (out : List Char) : Prop
  | fresh (shown : p.shown = out) (column : p.column = 0) (spaced : p.spaced = true)
      (indenting : p.indenting = true)
  | ended (shown : p.shown ++ ['\n'] = out) (indenting : p.indenting = false)

/-- The pen stands behind the indentation of a line. -/
structure Indented (p : Pen) (n : ℕ) (out : List Char) : Prop where
  shown : p.shown = out
  column : p.column = n
  spaced : p.spaced = true
  indenting : p.indenting = true

/-- The pen stands in a line behind something that it does not space. -/
structure Inside (p : Pen) (out : List Char) : Prop where
  shown : p.shown = out
  spaced : p.spaced = false

/-- Space for what comes next on the line. -/
def gap (p : Pen) : List Char := if p.spaced then [] else [' ']

lemma indent_of_stays (hindenting : p.indenting = true) (hcolumn : p.column = 0)
    (hspaced : n = 0 → p.spaced = true) :
    p.indent n = { p.puts (spaces n) with spaced := true, indenting := true } := by
  have hstays :
      ¬ (!p.indenting || decide (p.column > n) || (p.column == n && !p.spaced)) = true := by
    simp only [hindenting, hcolumn, Bool.not_true, Bool.false_or, gt_iff_lt, Nat.not_lt_zero,
      decide_false, Bool.and_eq_true, beq_iff_eq, Bool.not_eq_true', not_and, Bool.not_eq_false]
    exact fun h => hspaced h.symm
  rw [indent, if_neg hstays, hcolumn]
  rfl

lemma indent_of_moves (hindenting : p.indenting = false) :
    p.indent n = { (p.putBreak '\n').puts (spaces n) with spaced := true, indenting := true } := by
  rw [indent, if_pos (by simp [hindenting])]
  rfl

lemma Ready.indent (h : p.Ready out) (n : ℕ) : (p.indent n).Indented n (out ++ spaces n) := by
  cases h with
  | fresh hshown hcolumn hspaced hindenting =>
    rw [indent_of_stays hindenting hcolumn fun _ => hspaced, ← hshown, puts_eq]
    exact ⟨by simp [Pen.shown, spaces], by simp [hcolumn], rfl, rfl⟩
  | ended hshown hindenting =>
    rw [indent_of_moves hindenting, ← hshown, puts_eq]
    exact ⟨by simp [Pen.shown, putBreak, spaces], by simp [putBreak], rfl, rfl⟩

lemma shown_indicator (p : Pen) (s : String) (needsSpace spaced indenting : Bool) :
    (p.indicator s needsSpace spaced indenting).shown =
      p.shown ++ (if needsSpace then p.gap else []) ++ s.toList := by
  unfold indicator gap
  cases needsSpace <;> cases hspaced : p.spaced <;> simp [puts_eq, put, shown, hspaced]

lemma indenting_indicator (p : Pen) (s : String) (needsSpace spaced indenting : Bool) :
    (p.indicator s needsSpace spaced indenting).indenting = (p.indenting && indenting) := by
  unfold indicator
  split <;> simp [put]

/-! ### Texts -/

lemma shown_plain (p : Pen) (hs : s ≠ []) : (p.plain s).shown = p.shown ++ p.gap ++ s := by
  have hne : s.isEmpty = false := by simpa using hs
  unfold plain gap
  cases hspaced : p.spaced <;> simp [puts_eq, put, shown, ended, hne]

lemma indent_of_broken (hn : 0 < n) (hcolumn : p.column = 0) (hindenting : p.indenting = true) :
    (p.indent n).shown = p.shown ++ spaces n ∧ (p.indent n).spaced = true := by
  rw [indent_of_stays hindenting hcolumn (by omega), puts_eq]
  exact ⟨by simp [shown, spaces], rfl⟩

lemma shown_singleRest (hn : 0 < n) (hfeed : '\n' ∉ s)
    (hbreakSpace : hasPair isBreak (· == ' ') (b :: s) = false)
    (hb : isBreak b = true → p.column = 0 ∧ p.indenting = true) :
    (singleRest n p (isBreak b) s).shown = p.shown ++ singleBody n b s := by
  -- a line that a break has begun is indented when its first character comes
  have hstart : ∀ (b : Char) (p : Pen), (isBreak b = true → p.column = 0 ∧ p.indenting = true) →
      (if isBreak b then p.indent n else p).shown = p.shown ++ lineStart n b := by
    intro b p hb
    unfold lineStart
    split
    · obtain ⟨hcolumn, hindenting⟩ := hb ‹_›
      exact (indent_of_broken hn hcolumn hindenting).1
    · simp
  induction s generalizing b p with
  | nil => exact hstart b p hb
  | cons c s ih =>
    rw [List.mem_cons, not_or] at hfeed
    obtain ⟨hcn, hfeed⟩ := hfeed
    rw [hasPair_cons, Bool.or_eq_false_iff] at hbreakSpace
    -- no space comes right after a break, so there is nothing to indent
    by_cases hspace : c = ' '
    · subst hspace
      have hb' : isBreak b = false := by simpa using hbreakSpace.1
      have hrest := ih (p := p.put ' ') hfeed hbreakSpace.2 (by simp [isBreak_space])
      rw [isBreak_space] at hrest
      simp only [singleRest, hb', beq_self_eq_true, if_true, hrest, singleBody, isBreak_space,
        Bool.false_eq_true, if_false, lineStart, doubled, show ¬ ' ' = '\'' by decide]
      simp [shown, put]
    · by_cases hc : isBreak c = true
      · have hline : (c == '\n') = false := beq_eq_false_iff_ne.mpr (Ne.symm hcn)
        have hrest := ih (p := { p.putBreak c with indenting := true }) hfeed hbreakSpace.2
          fun _ => ⟨rfl, rfl⟩
        rw [hc] at hrest
        simp only [singleRest, beq_eq_false_iff_ne.mpr hspace, hc, hline, Bool.and_false,
          Bool.false_eq_true, if_false, if_true, hrest, singleBody]
        simp [shown, putBreak]
      · have hc' : isBreak c = false := by simpa using hc
        have hrest := fun q : Pen => ih (p := q) (b := c) hfeed hbreakSpace.2 (by simp [hc'])
        simp only [hc'] at hrest
        simp only [singleRest, beq_eq_false_iff_ne.mpr hspace, hc', Bool.false_eq_true, if_false,
          hrest, singleBody]
        have hshown := hstart b p hb
        unfold doubled
        split
        · rename_i hquote
          rw [← List.append_assoc, ← hshown]
          simp_all [shown, put]
        · rename_i hquote
          rw [← List.append_assoc, ← hshown]
          simp_all [shown, put]

lemma shown_literalRest (hn : 0 < n) (hspaced : p.spaced = true) (broken : Bool)
    (hbroken : broken = true → p.column = 0 ∧ p.indenting = true)
    (hopen : broken = false → p.indenting = false) :
    (literalRest n p broken s).shown = p.shown ++ literalBody n broken s ∧
      (literalRest n p broken s).spaced = true ∧
      (lineAfter (!broken) s = true → (literalRest n p broken s).indenting = false) ∧
      (lineAfter (!broken) s = false →
        (literalRest n p broken s).column = 0 ∧ (literalRest n p broken s).indenting = true) := by
  induction s generalizing p broken with
  | nil =>
    refine ⟨by simp [literalRest, literalBody], hspaced, ?_, ?_⟩
    · simpa [lineAfter, literalRest] using hopen
    · simpa [lineAfter, literalRest] using hbroken
  | cons c s ih =>
    by_cases hc : isBreak c = true
    · obtain ⟨hshown, hrest⟩ := ih (p := { p.putBreak c with indenting := true }) hspaced true
        (fun _ => ⟨rfl, rfl⟩) (by simp)
      simp only [literalRest, hc, if_true, literalBody, lineAfter]
      exact ⟨hshown.trans (by simp [shown, putBreak]), hrest⟩
    · have hc' : isBreak c = false := by simpa using hc
      -- the indentation comes with the first character of the line
      obtain ⟨q, hq, hspacedq, hshownq⟩ : ∃ q, q = (if broken then p.indent n else p) ∧
          q.spaced = true ∧ q.shown = p.shown ++ (if broken then spaces n else []) := by
        refine ⟨_, rfl, ?_⟩
        cases broken with
        | true =>
          obtain ⟨hshown, hspaced⟩ := indent_of_broken hn (hbroken rfl).1 (hbroken rfl).2
          exact ⟨hspaced, hshown⟩
        | false => exact ⟨hspaced, by simp⟩
      obtain ⟨hshown, hrest⟩ := ih (p := { q.put c with indenting := false }) hspacedq false
        (by simp) (fun _ => rfl)
      simp only [literalRest, hc', Bool.false_eq_true, if_false, literalBody, lineAfter, ← hq]
      refine ⟨hshown.trans ?_, hrest⟩
      rw [← List.append_assoc, ← hshownq]
      simp [shown, put]

lemma inside_inlineText {t : String} (hn : 0 < n) (hstyle : styleOf t ≠ .literal) :
    (p.text n t).Inside (p.shown ++ p.gap ++ inlineText n t) ∧ (p.text n t).indenting = false := by
  have hsuits := styleOf_suits t
  unfold text inlineText
  cases hs : styleOf t with
  | plain =>
    rw [hs] at hsuits
    exact ⟨⟨shown_plain p hsuits.1.ne_nil, rfl⟩, rfl⟩
  | literal => exact absurd hs hstyle
  | single =>
    rw [hs] at hsuits
    have hpair : hasPair isBreak (· == ' ') ('\'' :: t.toList) = false := by
      rw [hasPair_cons_of_not (by decide), hsuits.breakSpace]
    have hquote : isBreak '\'' = false := by decide
    have hrest := shown_singleRest (p := p.indicator "'" true false false) (b := '\'') hn
      hsuits.unfed hpair (by simp [hquote])
    rw [hquote] at hrest
    refine ⟨⟨?_, rfl⟩, rfl⟩
    have hshown : (p.single n t.toList).shown =
        ((singleRest n (p.indicator "'" true false false) false t.toList).indicator "'" false false
          false).shown := rfl
    rw [hshown, shown_indicator, hrest, shown_indicator]
    simp
  | double =>
    refine ⟨⟨?_, rfl⟩, rfl⟩
    have hshown : (p.double t.toList).shown = (((p.indicator "\"" true false false).puts
        (doubleBody t.toList)).indicator "\"" false false false).shown := rfl
    have hputs : ((p.indicator "\"" true false false).puts (doubleBody t.toList)).shown =
        (p.indicator "\"" true false false).shown ++ doubleBody t.toList := by
      simp [puts_eq, shown]
    rw [hshown, shown_indicator, hputs, shown_indicator]
    simp

lemma ready_text (hn : 0 < n) (t : String) :
    (p.text n t).Ready (p.shown ++ p.gap ++ textLines n t) := by
  by_cases hstyle : styleOf t = .literal
  · have hsuits := styleOf_suits t
    rw [hstyle] at hsuits
    obtain ⟨q, hq⟩ : ∃ q, q = (p.indicator "|" true false false).indicator (hints t.toList)
        false false false := ⟨_, rfl⟩
    have hshownq : q.shown = p.shown ++ p.gap ++ '|' :: (hints t.toList).toList := by
      rw [hq, shown_indicator, shown_indicator]
      simp
    obtain ⟨hshown, hspaced, hopen, hclosed⟩ := shown_literalRest (s := t.toList)
      (p := { q.putBreak '\n' with spaced := true, indenting := true }) hn rfl true
      (fun _ => ⟨rfl, rfl⟩) (by simp)
    have htext : p.text n t =
        literalRest n { q.putBreak '\n' with spaced := true, indenting := true } true t.toList := by
      simp only [text, hstyle, literal, hq]
    rw [htext, textLines, if_pos hstyle]
    rw [show ({ q.putBreak '\n' with spaced := true, indenting := true } : Pen).shown =
      q.shown ++ ['\n'] by simp [shown, putBreak], hshownq] at hshown
    -- an open last line ends with what comes next; else the pen is at the start of a line
    by_cases hline : lineAfter false t.toList = true
    · refine .ended ?_ (hopen hline)
      rw [hshown, lastBreak, if_pos hline]
      simp
    · have hline' : lineAfter false t.toList = false := by simpa using hline
      refine .fresh ?_ (hclosed hline').1 hspaced (hclosed hline').2
      rw [hshown, lastBreak, if_neg hline]
      simp
  · obtain ⟨⟨hshown, -⟩, hindenting⟩ := inside_inlineText (p := p) hn hstyle
    refine .ended ?_ hindenting
    rw [hshown, textLines, if_neg hstyle]
    simp

/-! ### Values -/

lemma Inside.gap (h : p.Inside out) : p.gap = [' '] := by
  simp [Pen.gap, h.spaced]

lemma Indented.gap (h : p.Indented n out) : p.gap = [] := by
  simp [Pen.gap, h.spaced]

lemma Indented.indicator (h : p.Indented n out) (s : String) (needsSpace indenting : Bool) :
    (p.indicator s needsSpace false indenting).Inside (out ++ s.toList) := by
  refine ⟨?_, rfl⟩
  rw [shown_indicator, h.shown, h.gap]
  simp

/-- The key and its colon; on a line of its own, the colon leaves the pen where a line begins. -/
lemma Ready.key (h : p.Ready out) (n : ℕ) (k : String) :
    (p.key n k).Inside (out ++ (spaces n ++ keyLines n k)) ∧
      (isSimpleKey k = true → (p.key n k).indenting = false) := by
  have hindent := h.indent n
  unfold Pen.key keyLines
  -- a simple key is followed by its colon, any other has a line for each
  by_cases hsimple : isSimpleKey k = true
  · have hbreaks : ∀ c ∈ k.toList, isBreak c = false := by
      simp only [isSimpleKey, Bool.and_eq_true, Bool.not_eq_true'] at hsimple
      simpa using hsimple.1
    obtain ⟨⟨hshown, -⟩, hindenting⟩ := inside_inlineText (p := p.indent n) (n := n + 2)
      (Nat.succ_pos _) (styleOf_ne_literal hbreaks)
    simp only [hsimple, if_true]
    refine ⟨⟨?_, rfl⟩, fun _ => ?_⟩
    · rw [shown_indicator, hshown, hindent.shown, hindent.gap]
      simp
    · rw [indenting_indicator, hindenting]
      rfl
  · have hmark := hindent.indicator "?" true true
    have htext := ready_text (p := (p.indent n).indicator "?" true false true) (n := n + 2)
      (Nat.succ_pos _) k
    rw [hmark.shown, hmark.gap] at htext
    have hcolon := (htext.indent n).indicator ":" true true
    simp only [hsimple, Bool.false_eq_true, if_false]
    refine ⟨?_, fun hfalse => by simp at hfalse⟩
    convert hcolon using 1
    simp

lemma Ready.items (h : p.Ready out) (n : ℕ) (ts : List String) :
    (p.items n ts).Ready (out ++ itemLines n ts) := by
  induction ts generalizing p out with
  | nil => simpa [Pen.items, itemLines] using h
  | cons t ts ih =>
    have hmark := (h.indent n).indicator "-" true true
    have htext := ready_text (p := (p.indent n).indicator "-" true false true) (n := n + 2)
      (Nat.succ_pos _) t
    rw [hmark.shown, hmark.gap] at htext
    have hsame : p.items n (t :: ts) =
        (((p.indent n).indicator "-" true false true).text (n + 2) t).items n ts := rfl
    rw [hsame]
    simpa [itemLines] using ih htext

lemma Inside.ready (h : p.Inside out) (hindenting : p.indenting = false) :
    p.Ready (out ++ ['\n']) :=
  .ended (by rw [h.shown]) hindenting

lemma Inside.brackets (h : p.Inside out) (a b : String) :
    ((p.indicator a true true false).indicator b false false false).Ready
      (out ++ ' ' :: (a.toList ++ (b.toList ++ ['\n']))) := by
  refine .ended ?_ ?_
  · rw [shown_indicator, shown_indicator, h.shown, h.gap]
    simp
  · simp [indenting_indicator]

lemma Inside.plain (h : p.Inside out) (hs : s ≠ []) :
    (p.plain s).Ready (out ++ ' ' :: (s ++ ['\n'])) := by
  refine .ended ?_ rfl
  rw [shown_plain p hs, h.shown, h.gap]
  simp

mutual

lemma Inside.value {p : Pen} {out : List Char} (h : p.Inside out) (n : ℕ) (v : Value)
    (hfits : v.Fits) (hplace : p.indenting = false ∨ ∃ t, v = .text t) :
    (p.value n v).Ready (out ++ valueLines n v) := by
  match v with
  | .null => exact h.plain (by decide)
  | .number k => exact h.plain Nat.toDigits_ne_nil
  | .text t =>
    have htext := ready_text (p := p) (n := n + 2) (Nat.succ_pos _) t
    rw [h.shown, h.gap] at htext
    simpa [valueLines, Pen.value] using htext
  | .list [] => exact h.brackets "[" "]"
  | .list (t :: ts) =>
    have hrest := (h.ready (hplace.resolve_right (by simp))).items n (t :: ts)
    simpa [valueLines, Pen.value] using hrest
  | .mapping [] => exact h.brackets "\x7b" "\x7d"
  | .mapping (e :: es) =>
    have hrest := (h.ready (hplace.resolve_right (by simp))).entries (n + 2) (e :: es) hfits
    simpa [valueLines, Pen.value] using hrest

lemma Ready.entries {p : Pen} {out : List Char} (h : p.Ready out) (n : ℕ)
    (es : List (String × Value)) (hfits : EntriesFit es) :
    (p.entries n es).Ready (out ++ entryLines n es) := by
  match es with
  | [] => simpa [Pen.entries, entryLines] using h
  | (k, v) :: es =>
    obtain ⟨hkey, hvalue, hrest⟩ := hfits
    obtain ⟨hinside, hsimple⟩ := h.key n k
    have hplace : (p.key n k).indenting = false ∨ ∃ t, v = .text t := by
      by_cases hk : isSimpleKey k = true
      · exact .inl (hsimple hk)
      · exact .inr (hkey (by simpa using hk))
    have hlines := ((hinside.value n v hvalue hplace).entries n es hrest)
    simpa [Pen.entries, entryLines] using hlines

end

end Pen

/-- **What is written of a mapping are the lines of its entries.** -/
theorem toList_render {es : List (String × Value)} (hfits : EntriesFit es) :
    (render es).toList = entryLines 0 es := by
  have hstart : Pen.start.Ready [] := .fresh rfl rfl rfl rfl
  have hend := ((hstart.entries 0 es hfits).indent 0).shown
  rw [render, String.toList_ofList]
  simpa [Pen.shown, spaces] using hend

/-- A key with a line feed stands on lines of its own. -/
example : render [("k", .list ["null", " b", "c\n"]), ("x\ny", .text "")] =
    "k:\n- 'null'\n- ' b'\n- |\n  c\n? |-\n  x\n  y\n: ''\n" := by decide +kernel

end LogWatch.Yaml
