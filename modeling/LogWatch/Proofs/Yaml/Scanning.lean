import Mathlib
import LogWatch.Proofs.Yaml.Lines
import LogWatch.Yaml.Scanner

/-!
What is written is scanned to the tokens that stand for it.

Outside of brackets a scanner is its place, the blocks that are open with the tokens so far, and
perhaps the place of a key that a colon may still follow. Between two lines all that counts is the
level of the next one: which blocks it closes is the same whenever they are closed. So each part of
the layout is scanned by itself, from the line on which it begins to the line after it.
-/

namespace LogWatch.Yaml

/-! ### Blocks -/

/-- The blocks that are open, the innermost apart, and the tokens so far. -/
structure Blocks where
  indent : ℤ
  indents : List ℤ
  tokens : List Token

namespace Blocks

def add (b : Blocks) (ts : List Token) : Blocks := { b with tokens := b.tokens ++ ts }

/-- Closes the blocks that are indented further than a level. -/
def unroll (b : Blocks) (level : ℤ) : Blocks :=
  let (indent, indents, n) := Scanner.closing level b.indent b.indents 0
  ⟨indent, indents, b.tokens ++ List.replicate n .blockEnd⟩

/-- Opens a mapping at a level, unless it is open. -/
def enter (b : Blocks) (n : ℕ) : Blocks :=
  if (n : ℤ) ≤ b.indent then b else ⟨n, b.indent :: b.indents, b.tokens ++ [.blockMappingStart]⟩

variable {b b' : Blocks} {ts ts' : List Token} {n : ℕ} {level : ℤ}

@[simp] lemma indent_add : (b.add ts).indent = b.indent := rfl
@[simp] lemma indents_add : (b.add ts).indents = b.indents := rfl
@[simp] lemma tokens_add : (b.add ts).tokens = b.tokens ++ ts := rfl

@[simp] lemma add_nil (b : Blocks) : b.add [] = b := by simp [add]

lemma add_add (b : Blocks) (ts ts' : List Token) : (b.add ts).add ts' = b.add (ts ++ ts') := by
  simp [add]

lemma enter_of_le (h : (n : ℤ) ≤ b.indent) : b.enter n = b := if_pos h

lemma enter_of_lt (h : b.indent < n) :
    b.enter n = ⟨n, b.indent :: b.indents, b.tokens ++ [.blockMappingStart]⟩ :=
  if_neg (not_le.mpr h)

lemma indent_enter (h : b.indent ≤ n) : (b.enter n).indent = n := by
  unfold enter
  split
  · exact le_antisymm h ‹_›
  · rfl

lemma unroll_of_le (h : b.indent ≤ level) : b.unroll level = b := by
  have hclosing : Scanner.closing level b.indent b.indents 0 = (b.indent, b.indents, 0) := by
    cases hindents : b.indents with
    | nil => rfl
    | cons outer indents => rw [Scanner.closing, if_neg (not_lt.mpr h)]
  simp [unroll, hclosing]

lemma closing_eq (level indent : ℤ) (indents : List ℤ) (n : ℕ) :
    Scanner.closing level indent indents n =
      ((Scanner.closing level indent indents 0).1, (Scanner.closing level indent indents 0).2.1,
        n + (Scanner.closing level indent indents 0).2.2) := by
  induction indents generalizing indent n with
  | nil => rfl
  | cons outer indents ih =>
    simp only [Scanner.closing]
    split
    · rw [ih outer (n + 1), ih outer (0 + 1)]
      simp [Nat.add_assoc]
    · rfl

lemma unroll_close {indent outer : ℤ} {indents : List ℤ} {tokens : List Token}
    (h : level < indent) :
    (⟨indent, outer :: indents, tokens⟩ : Blocks).unroll level =
      (⟨outer, indents, tokens ++ [.blockEnd]⟩ : Blocks).unroll level := by
  simp only [unroll, Scanner.closing, if_pos h, closing_eq level outer indents (0 + 1)]
  simp [List.replicate_add]

end Blocks

/-! ### Scanners outside of brackets -/

/-- How a text is known to be written once it is read. -/
def formOf (t : String) : Form :=
  match styleOf t with
  | .plain => .plain
  | .single | .double => .other
  | .literal => .lines

def textToken (t : String) : Token := .scalar t.toList (formOf t)

namespace Scanner

/-- A scanner outside of all brackets. -/
def ofBlocks (b : Blocks) (c : Cursor) (keyAllowed : Bool) (key? : Option PossibleKey) : Scanner :=
  ⟨c, 0, b.indent, b.indents, keyAllowed, [key?], b.tokens.toArray⟩

/-- The key that may start at a place. -/
def keyAt (b : Blocks) (c : Cursor) : PossibleKey :=
  ⟨b.tokens.length, b.indent == (c.column : ℤ), c.index, c.line, c.column⟩

variable {b b' : Blocks} {c c' : Cursor} {ka : Bool} {key? : Option PossibleKey}
  {s s' s'' : Scanner} {x : Char} {w rest X : List Char} {level : ℤ} {n k : ℕ} {t : Token}
  {P : Scanner → Prop}

@[simp] lemma cursor_ofBlocks : (ofBlocks b c ka key?).cursor = c := rfl

lemma push_ofBlocks : (ofBlocks b c ka key?).push t = ofBlocks (b.add [t]) c ka key? := by
  simp [push, ofBlocks]

lemma allowKey_ofBlocks (ka' : Bool) :
    (ofBlocks b c ka key?).allowKey ka' = ofBlocks b c ka' key? := rfl

lemma atCursor_ofBlocks : (ofBlocks b c ka key?).atCursor c' = ofBlocks b c' ka key? := rfl

lemma unroll_ofBlocks (level : ℤ) :
    (ofBlocks b c ka key?).unroll level = ofBlocks (b.unroll level) c ka key? := by
  simp [unroll, ofBlocks, Blocks.unroll]

lemma saveKey_ofBlocks : (ofBlocks b c ka none).saveKey =
    .ok (ofBlocks b c ka (if ka then some (keyAt b c) else none)) := by
  cases ka <;> rfl

/-! Stale keys. -/

/-- A possible key that a later line forgets. -/
def Lapses (key? : Option PossibleKey) (line : ℕ) : Prop :=
  ∀ k ∈ key?, k.required = false ∧ k.line < line

lemma lapses_none (line : ℕ) : Lapses none line := by simp [Lapses]

lemma dropStale_of_lapses (h : Lapses key? c.line) :
    (ofBlocks b c ka key?).dropStale = .ok (ofBlocks b c ka none) := by
  cases key? with
  | none => rfl
  | some k =>
    obtain ⟨hrequired, hline⟩ := h k rfl
    simp only [dropStale, ofBlocks, List.mapM_cons, List.mapM_nil, hrequired, hline]
    rfl

lemma dropStale_of_fresh {k : PossibleKey} (hline : c.line ≤ k.line)
    (hindex : c.index ≤ k.index + longestKey) :
    (ofBlocks b c ka (some k)).dropStale = .ok (ofBlocks b c ka (some k)) := by
  simp only [dropStale, ofBlocks, List.mapM_cons, List.mapM_nil, Bool.or_eq_true,
    decide_eq_true_eq, not_lt.mpr hline, not_lt.mpr hindex, or_self, if_false]
  rfl

/-! ### The next token -/

lemma toToken_solid {inFlow : Bool} (hx : Solid x) (i l k : ℕ) :
    toToken inFlow ka false i l k (x :: rest) = (⟨x :: rest, i, l, k⟩, ka) := by
  have hblank := hx.unblank
  simp only [isBlank, Bool.or_eq_false_iff] at hblank
  have hmark : (x == byteOrderMark) = false := beq_eq_false_iff_ne.mpr hx.noMark
  have hsharp : (x == '#') = false := beq_eq_false_iff_ne.mpr hx.noComment
  rw [toToken]
  · simp [hx.unbroken, hblank.1, hblank.2, hmark, hsharp]
  · rintro s' rfl
    exact absurd hx.unbroken (by decide)

lemma toToken_space (i l k : ℕ) :
    toToken false ka false i l k (' ' :: rest) = toToken false ka false (i + 1) l (k + 1) rest := by
  rw [toToken]
  · simp [isBreak_space]
  · intro s' h
    cases h

lemma toToken_spaces (n i l k : ℕ) :
    toToken false ka false i l k (spaces n ++ rest) =
      toToken false ka false (i + n) l (k + n) rest := by
  induction n generalizing i k with
  | zero => rfl
  | succ n ih =>
    rw [spaces_succ, List.cons_append, toToken_space, ih]
    simp only [Nat.add_assoc, Nat.add_comm 1]

lemma toToken_line (hline : Line level X) (i l k : ℕ) :
    toToken false ka false i l k X = (⟨X, i, l, k⟩, ka) := by
  cases hline with
  | nothing => rfl
  | something n hx => exact toToken_solid hx i l k

lemma toToken_break (hline : Line level X) (i l k : ℕ) :
    toToken false ka false i l k ('\n' :: indented level X) =
      (⟨X, i + 1 + level.toNat, l + 1, level.toNat⟩, true) := by
  rw [toToken]
  · simp only [show isBreak '\n' = true by decide, if_true, Bool.not_false, Bool.or_true, indented]
    rw [toToken_spaces, toToken_line hline, Nat.zero_add]
  · intro s' h
    cases h

lemma skipToToken_ofBlocks : (ofBlocks b c ka key?).skipToToken =
    ofBlocks b (toToken false ka false c.index c.line c.column c.rest).1
      (toToken false ka false c.index c.line c.column c.rest).2 key? := rfl

/-- The scanner goes on, in so many steps, as the other one does, which has less to read. -/
def Leads (s s' : Scanner) : Prop :=
  ∃ k, k + s'.cursor.rest.length ≤ s.cursor.rest.length ∧ ∀ n, s.run (n + k) = s'.run n

lemma Leads.refl (s : Scanner) : s.Leads s := ⟨0, by simp, fun _ => rfl⟩

lemma Leads.trans (h : s.Leads s') (h' : s'.Leads s'') : s.Leads s'' := by
  obtain ⟨k, hk, hrun⟩ := h
  obtain ⟨k', hk', hrun'⟩ := h'
  refine ⟨k' + k, by omega, fun n => ?_⟩
  rw [← Nat.add_assoc, hrun, hrun']

/-- A scanner between two lines, the next of which is at a level. The blocks are those that are
open, or would be as far as the next line does not close them. -/
structure Poised (b : Blocks) (level : ℤ) (X : List Char) (s : Scanner) : Prop where
  line : Line level X
  short : X.length ≤ s.cursor.rest.length
  settles : ∃ b' c, s.skipToToken.dropStale = .ok (ofBlocks b' c true none) ∧
    b'.unroll level = b.unroll level ∧ c.rest = X ∧ c.column = level.toNat

lemma run_succ (hsettles : s.skipToToken.dropStale = .ok s') (hrest : s'.cursor.rest = x :: rest)
    (n : ℕ) : s.run (n + 1) = ((s'.unroll s'.cursor.column).next x rest >>= run n) := by
  rw [run]
  simp only [hsettles, hrest, bind, Except.bind]

lemma leads_of_next (hsettles : s.skipToToken.dropStale = .ok s')
    (hrest : s'.cursor.rest = x :: rest)
    (hnext : (s'.unroll s'.cursor.column).next x rest = .ok s'')
    (hshort : s''.cursor.rest.length < s.cursor.rest.length) : s.Leads s'' := by
  refine ⟨1, by omega, fun n => ?_⟩
  rw [run_succ hsettles hrest, hnext]
  rfl

/-- What becomes of a scanner that takes the next token at its place. -/
def Yields (b : Blocks) (c : Cursor) (ka : Bool) (P : Scanner → Prop) : Prop :=
  ∃ x rest s', c.rest = x :: rest ∧ Solid x ∧ (ofBlocks b c ka none).next x rest = .ok s' ∧
    s'.cursor.rest.length ≤ rest.length ∧ P s'

lemma Yields.imp {Q : Scanner → Prop} (h : Yields b c ka P) (himp : ∀ s, P s → Q s) :
    Yields b c ka Q := by
  obtain ⟨x, rest, s', hrest, hx, hnext, hshort, hp⟩ := h
  exact ⟨x, rest, s', hrest, hx, hnext, hshort, himp s' hp⟩

lemma Poised.leads (h : Poised b n X s) (hb : b.indent ≤ n)
    (hyields : ∀ c : Cursor, c.rest = X → c.column = n → Yields b c true P) :
    ∃ s', s.Leads s' ∧ P s' := by
  obtain ⟨b', c, hsettles, hsame, hrest, hcolumn⟩ := h.settles
  obtain ⟨x, rest, s', hx, -, hs', hshort, hp⟩ := hyields c hrest hcolumn
  refine ⟨s', leads_of_next hsettles hx ?_ ?_, hp⟩
  · have hlevel : ((ofBlocks b' c true none).cursor.column : ℤ) = n := by
      rw [cursor_ofBlocks, hcolumn]
      simp
    rw [hlevel, unroll_ofBlocks, hsame, Blocks.unroll_of_le hb, hs']
  · have hle := h.short
    rw [← hrest, hx, List.length_cons] at hle
    omega

lemma leads_of_space (hrest : c.rest = ' ' :: rest) (hb : b.indent ≤ c.column)
    (hyields : Yields b ⟨rest, c.index + 1, c.line, c.column + 1⟩ ka P) :
    ∃ s', (ofBlocks b c ka none).Leads s' ∧ P s' := by
  obtain ⟨x, rest', s', hx, hsolid, hs', hshort, hp⟩ := hyields
  obtain rfl : rest = x :: rest' := hx
  have hsettles : (ofBlocks b c ka none).skipToToken.dropStale =
      .ok (ofBlocks b ⟨x :: rest', c.index + 1, c.line, c.column + 1⟩ ka none) := by
    rw [skipToToken_ofBlocks, hrest, toToken_space, toToken_solid hsolid]
    exact dropStale_of_lapses (lapses_none _)
  refine ⟨s', leads_of_next hsettles rfl ?_ ?_, hp⟩
  · have hlevel : b.indent ≤ ((c.column + 1 : ℕ) : ℤ) := by
      push_cast
      omega
    rw [unroll_ofBlocks, cursor_ofBlocks, Blocks.unroll_of_le hlevel, hs']
  · simp only [cursor_ofBlocks, hrest, List.length_cons]
    omega

lemma Poised.close {indent outer : ℤ} {indents : List ℤ} {tokens : List Token}
    (h : Poised ⟨indent, outer :: indents, tokens⟩ level X s) (hlevel : level < indent) :
    Poised ⟨outer, indents, tokens ++ [.blockEnd]⟩ level X s := by
  obtain ⟨b', c, hsettles, hsame, hrest⟩ := h.settles
  exact ⟨h.line, h.short, b', c, hsettles, hsame.trans (Blocks.unroll_close hlevel), hrest⟩

lemma poised_of_break (hline : Line level X) (hrest : c.rest = '\n' :: indented level X)
    (hkey : Lapses key? (c.line + 1)) : Poised b level X (ofBlocks b c ka key?) := by
  refine ⟨hline, ?_, b, ⟨X, c.index + 1 + level.toNat, c.line + 1, level.toNat⟩, ?_, rfl, rfl, rfl⟩
  · simp [hrest, indented]
    omega
  · rw [skipToToken_ofBlocks, hrest, toToken_break hline]
    exact dropStale_of_lapses hkey

lemma poised_of_start (hline : Line level X) (hrest : c.rest = X) (hcolumn : c.column = level.toNat)
    (hkey : Lapses key? c.line) : Poised b level X (ofBlocks b c true key?) := by
  refine ⟨hline, by simp [hrest], b, c, ?_, rfl, hrest, hcolumn⟩
  rw [skipToToken_ofBlocks, hrest, toToken_line hline, ← hrest]
  exact dropStale_of_lapses hkey

lemma Poised.finish (h : Poised b (-1) [] s) (n : ℕ) :
    s.run (n + 1) = .ok (b.unroll (-1)).tokens.toArray := by
  obtain ⟨b', c, hsettles, hsame, hrest, -⟩ := h.settles
  have hrest' : (ofBlocks b' c true none).cursor.rest = [] := hrest
  rw [run]
  simp only [hsettles, hrest', bind, Except.bind]
  rw [Scanner.finish, unroll_ofBlocks, hsame]
  rfl

/-! ### Which token it is -/

/-- What a plain text may start with. -/
structure PlainStart (x : Char) (rest : List Char) : Prop where
  solid : Solid x
  plain : startIndicators.contains x = false
  indicator : x = '-' ∨ x = '?' ∨ x = ':' → startsBlank rest = false
  marker : startsMarker (x :: rest) = false

lemma startsPlain_of_plainStart (h : PlainStart x rest) : startsPlain false x rest = true := by
  have hplain := h.plain
  simp only [startIndicators, List.contains_eq_mem, List.mem_cons, List.not_mem_nil, or_false,
    decide_eq_false_iff_not, not_or] at hplain
  -- these begin a plain text only where no blank follows
  by_cases hx : x = '-' ∨ x = '?' ∨ x = ':'
  · have hblank := h.indicator hx
    rcases hx with rfl | rfl | rfl
    · cases rest with
      | nil => cases hblank
      | cons d rest =>
        simp only [startsBlank, Bool.or_eq_false_iff] at hblank
        simp [startsPlain, hblank.1]
    · simp [startsPlain, hblank]
    · simp [startsPlain, hblank]
  · have hnone : isIndicator x = false := by
      simp only [isIndicator, List.contains_eq_mem, List.mem_cons, List.not_mem_nil, or_false,
        decide_eq_false_iff_not, not_or]
      tauto
    simp [startsPlain, hnone, h.solid.unbroken, h.solid.unblank]

lemma next_eq_plain (h : PlainStart x rest) :
    (ofBlocks b c ka key?).next x rest = (ofBlocks b c ka key?).plain := by
  have hplain := h.plain
  simp only [startIndicators, List.contains_eq_mem, List.mem_cons, List.not_mem_nil, or_false,
    decide_eq_false_iff_not, not_or] at hplain
  have hflow : (ofBlocks b c ka key?).flow = 0 := rfl
  have hmark : ∀ y, y = '-' ∨ y = '?' ∨ y = ':' → (x == y && startsBlank rest) = false := by
    intro y hy
    by_cases hx : x = y
    · rw [h.indicator (hx ▸ hy), Bool.and_false]
    · simp [hx]
  have hbar : (x == '|') = false ∧ (x == '>') = false ∧ (x == '%') = false := by
    simp only [beq_eq_false_iff_ne]
    tauto
  unfold next
  simp only [h.marker, Bool.and_false, Bool.false_eq_true, if_false, hbar.2.2, hflow, gt_iff_lt]
  split
  -- the characters that begin something else are no start of a plain text
  iterate 10 exact absurd hplain (by decide)
  simp only [hmark '-' (by decide), hmark '?' (by decide), hmark ':' (by decide), hbar.1, hbar.2.1,
    Bool.false_and, Bool.false_or, Bool.false_eq_true, if_false, decide_false, Nat.lt_irrefl,
    startsPlain_of_plainStart h, if_true]

lemma startsMarker_append (hmarker : hasIndicator.startsMarkerText w = false)
    (hdash : rest.head? ≠ some '-') (hdot : rest.head? ≠ some '.') (hw : w ≠ []) :
    startsMarker (w ++ rest) = false := by
  match w, hw with
  | [a], _ =>
    match rest with
    | [] => simp [startsMarker]
    | d :: rest => simp_all [startsMarker]
  | [a, b], _ =>
    match rest with
    | [] => simp [startsMarker]
    | d :: rest => simp_all [startsMarker]
  -- the three characters of a marker would all be of the text
  | a :: b :: c :: w, _ =>
    by_cases h : startsMarker (a :: b :: c :: (w ++ rest)) = false
    · exact h
    · unfold startsMarker at h
      split at h
      · rename_i heq
        simp_all [hasIndicator.startsMarkerText]
      · rename_i heq
        simp_all [hasIndicator.startsMarkerText]
      · simp at h

lemma solid_of_visible (hvisible : isVisible x = true) (hbreak : isBreak x = false)
    (hspace : x ≠ ' ') (hsharp : x ≠ '#') : Solid x :=
  ⟨hbreak, by simp [isBlank_of_isVisible hvisible, hspace], hsharp,
    ne_of_isVisible hvisible (by decide)⟩

lemma plainStart_of_isPlain (h : IsPlain (x :: w)) (hdash : rest.head? ≠ some '-')
    (hdot : rest.head? ≠ some '.') : PlainStart x (w ++ rest) := by
  have hindicator := h.indicator
  simp only [hasIndicator, Bool.or_eq_false_iff] at hindicator
  obtain ⟨⟨⟨hmarker, hstart⟩, hflow⟩, -⟩ := hindicator
  refine ⟨solid_of_visible (h.visible x List.mem_cons_self) (h.unbroken x List.mem_cons_self) ?_ ?_,
    hstart, fun hx => ?_, startsMarker_append hmarker hdash hdot (by simp)⟩
  · rintro rfl
    exact h.head rfl
  · rintro rfl
    simp [startIndicators] at hstart
  · have hblank : startsBlank w = false := by
      have heq : (x == '?' || x == ':' || x == '-') = true := by
        rcases hx with rfl | rfl | rfl <;> rfl
      simpa [heq] using hflow
    have hne : w ≠ [] := by
      rintro rfl
      cases hblank
    rw [startsBlank_of_append hne, hblank]

lemma holdsIndicator_of_isPlain (h : IsPlain (x :: w)) :
    holdsIndicator '\'' (x :: w) = false := by
  have hindicator := h.indicator
  simp only [hasIndicator, Bool.or_eq_false_iff] at hindicator
  obtain ⟨⟨⟨-, -⟩, hflow⟩, hholds⟩ := hindicator
  have hcolon : (x == ':' && startsBlank w) = false := by
    by_cases hx : x = ':'
    · simpa [hx] using hflow
    · simp [hx]
  have hquote : (isBlank '\'' || isBreak '\'') = false := by decide
  simp [holdsIndicator, hcolon, hquote, hholds]

lemma next_single (rest : List Char) :
    (ofBlocks b c ka key?).next '\'' rest = (ofBlocks b c ka key?).quoted .single := by
  simp [next, startsMarker]

lemma next_double (rest : List Char) :
    (ofBlocks b c ka key?).next '"' rest = (ofBlocks b c ka key?).quoted .double := by
  simp [next, startsMarker]

lemma next_literal (rest : List Char) :
    (ofBlocks b c ka key?).next '|' rest = (ofBlocks b c ka key?).block false := by
  simp [next, startsMarker, ofBlocks]

/-! ### Scalars -/

/-- The key that may start where a token is taken. -/
def keyOf (b : Blocks) (c : Cursor) (ka : Bool) : Option PossibleKey :=
  if ka then some (keyAt b c) else none

lemma plain_ofBlocks {t : PlainText}
    (hread : readPlain ⟨false, (b.indent + 1).toNat⟩ c.index c.line c.column .none [] c.rest =
      .ok t) :
    (ofBlocks b c ka none).plain =
      .ok (ofBlocks (b.add [.scalar t.text .plain]) t.after t.broken (keyOf b c ka)) := by
  have hcontext : readPlain ⟨decide ((ofBlocks b c ka (keyOf b c ka)).flow > 0),
      ((ofBlocks b c ka (keyOf b c ka)).indent + 1).toNat⟩ c.index c.line c.column .none [] c.rest =
      .ok t := hread
  rw [plain, saveKey_ofBlocks]
  simp only [bind, Except.bind]
  rw [← keyOf, cursor_ofBlocks, hcontext]
  simp only [allowKey_ofBlocks, push_ofBlocks, atCursor_ofBlocks]
  rfl

lemma quoted_ofBlocks {q : Quote} {text : List Char}
    (hread : readQuoted q 0 (c.index + 1) c.line (c.column + 1) .none [] (c.rest.drop 1) =
      .ok (text, c')) :
    (ofBlocks b c ka none).quoted q =
      .ok (ofBlocks (b.add [.scalar text .other]) c' false (keyOf b c ka)) := by
  rw [quoted, saveKey_ofBlocks]
  simp only [bind, Except.bind]
  rw [← keyOf, cursor_ofBlocks, Cursor.skip]
  simp only [hread, allowKey_ofBlocks, push_ofBlocks, atCursor_ofBlocks]
  rfl

lemma block_ofBlocks {h : BlockHeader} {c₁ : Cursor} {text : List Char}
    (hheader : readHeader false (c.skip 1) = .ok (h, c₁))
    (hread : readBlock h (max 1 (b.indent + 1).toNat) (h.indent.map (b.indent.toNat + ·)) false
      c₁.index c₁.line c₁.column .empty c₁.rest = .ok (text, c')) :
    (ofBlocks b c ka none).block false =
      .ok (ofBlocks (b.add [.scalar text .lines]) c' true none) := by
  have hdrop : (ofBlocks b c ka none).dropKey = .ok (ofBlocks b c ka none) := rfl
  have hcontext : readBlock h (max 1 ((ofBlocks b c ka none).indent + 1).toNat)
      (h.indent.map ((ofBlocks b c ka none).indent.toNat + ·)) false c₁.index c₁.line c₁.column
      .empty c₁.rest = .ok (text, c') := hread
  rw [block, hdrop]
  simp only [bind, Except.bind]
  rw [cursor_ofBlocks, hheader]
  simp only [hcontext, allowKey_ofBlocks, push_ofBlocks, atCursor_ofBlocks]
  rfl

lemma lapses_keyOf (hcolumn : b.indent < c.column) {line : ℕ} (hline : c.line < line) :
    Lapses (keyOf b c ka) line := by
  intro k hk
  cases ka with
  | false => cases hk
  | true =>
    obtain rfl := Option.some.inj hk
    exact ⟨by simp [keyAt, hcolumn.ne], hline⟩

lemma exists_readPlain (hw : IsPlain w) (hrest : c.rest = w ++ rest) (hb : b.indent ≤ c.column)
    (hdash : rest.head? ≠ some '-') (hdot : rest.head? ≠ some '.') :
    ∃ x w', w = x :: w' ∧ PlainStart x (w' ++ rest) ∧
      readPlain ⟨false, (b.indent + 1).toNat⟩ c.index c.line c.column .none [] c.rest =
        readPlain ⟨false, (b.indent + 1).toNat⟩ (c.index + w.length) c.line (c.column + w.length)
          .none w.reverse rest := by
  obtain ⟨x, w, rfl⟩ := List.exists_cons_of_ne_nil hw.ne_nil
  have hstart := plainStart_of_isPlain hw hdash hdot
  have hindent : (b.indent + 1).toNat ≤ c.column + 1 := by omega
  refine ⟨x, w, rfl, hstart, ?_⟩
  rw [hrest, readPlain_append rfl hw.visible hw.unbroken hw.ne_nil hw.last
    (holdsIndicator_of_isPlain hw) rfl (by simp) hindent fun _ => hstart.marker]
  simp

lemma yields_plain_line (hw : IsPlain w) (hrest : c.rest = w ++ '\n' :: indented level X)
    (hline : Line level X) (hlevel : level ≤ b.indent) (hcolumn : b.indent < c.column) :
    Yields b c ka (Poised (b.add [.scalar w .plain]) level X) := by
  obtain ⟨x, w, rfl, hstart, hread⟩ := exists_readPlain hw hrest hcolumn.le (by simp) (by simp)
  have hbelow : level < ((b.indent + 1).toNat : ℤ) := by omega
  have hplain : (ofBlocks b c ka none).plain = _ :=
    plain_ofBlocks (hread.trans (readPlain_end rfl hline hbelow))
  rw [List.reverse_reverse] at hplain
  refine ⟨x, _, _, hrest, hstart.solid, (next_eq_plain hstart).trans hplain, ?_, ?_⟩
  · simp [indented]
    omega
  · exact poised_of_start hline rfl rfl (lapses_keyOf hcolumn (Nat.lt_succ_self _))

/-- What a key has come to when the colon after it is next. -/
def AtColon (b : Blocks) (c : Cursor) (t : Token) (rest : List Char) (s : Scanner) : Prop :=
  ∃ c', s = ofBlocks (b.add [t]) c' false (some (keyAt b c)) ∧ c'.rest = ':' :: rest ∧
    c'.line = c.line ∧ c.column < c'.column ∧ c'.index ≤ c.index + longestKey

lemma yields_plain_key (hw : IsPlain w) (hrest : c.rest = w ++ ':' :: rest)
    (hblank : startsBlank rest = true) (hb : b.indent ≤ c.column) (hshort : w.length ≤ longestKey) :
    Yields b c true (AtColon b c (.scalar w .plain) rest) := by
  obtain ⟨x, w, rfl, hstart, hread⟩ := exists_readPlain hw hrest hb (by simp) (by simp)
  have hplain : (ofBlocks b c true none).plain = _ :=
    plain_ofBlocks (hread.trans (readPlain_colon rfl (by simp) hblank))
  rw [List.reverse_reverse] at hplain
  refine ⟨x, _, _, hrest, hstart.solid, (next_eq_plain hstart).trans hplain, by simp, _, rfl, rfl,
    rfl, ?_, ?_⟩
  · simp
  · simpa using hshort

lemma yields_quotes {q : Quote} {text : List Char} (hrest : c.rest = q.mark :: (w ++ q.mark :: rest))
    (hread : readQuoted q 0 (c.index + 1) c.line (c.column + 1) .none [] (w ++ q.mark :: rest) =
      .ok (text, c')) (hafter : c'.rest = rest) :
    Yields b c ka (· = ofBlocks (b.add [.scalar text .other]) c' false (keyOf b c ka)) := by
  have hdrop : c.rest.drop 1 = w ++ q.mark :: rest := by rw [hrest, List.drop_one, List.tail_cons]
  rw [← hdrop] at hread
  have htoken : (ofBlocks b c ka none).next q.mark (c.rest.drop 1) =
      .ok (ofBlocks (b.add [.scalar text .other]) c' false (keyOf b c ka)) := by
    cases q with
    | single => exact (next_single _).trans (quoted_ofBlocks hread)
    | double => exact (next_double _).trans (quoted_ofBlocks hread)
  refine ⟨q.mark, c.rest.drop 1, _, by rw [hdrop, hrest], by cases q <;> decide, htoken, ?_, rfl⟩
  rw [cursor_ofBlocks, hafter, hdrop]
  simp
  omega

/-- What a text in quotes has come to when what follows it is next: it stays on its line, unless it
has a break. -/
def AfterQuotes (b : Blocks) (c : Cursor) (ka : Bool) (n : ℕ) (t : String) (rest : List Char)
    (s : Scanner) : Prop :=
  ∃ c', s = ofBlocks (b.add [.scalar t.toList .other]) c' false (keyOf b c ka) ∧ c'.rest = rest ∧
    c.line ≤ c'.line ∧ ((∀ y ∈ t.toList, isBreak y = false) →
      c' = ⟨rest, c.index + (inlineText n t).length, c.line, c.column + (inlineText n t).length⟩)

lemma yields_single {t : String} (hn : 0 < n) (hstyle : styleOf t = .single)
    (hrest : c.rest = inlineText n t ++ rest) (hquote : rest.head? ≠ some '\'') :
    Yields b c ka (AfterQuotes b c ka n t rest) := by
  have hsuits := styleOf_suits t
  rw [hstyle] at hsuits
  have hinline : inlineText n t = '\'' :: (singleBody n '\'' t.toList ++ ['\'']) := by
    simp only [inlineText, hstyle]
  have hread := readQuoted_single (n := n) (b := '\'') (i := c.index + 1) (l := c.line)
    (k := c.column + 1) (g := .none) [] rest hsuits.visible hsuits.unfed
    (by rw [hasPair_cons_of_not (by decide), hsuits.breakSpace])
    (by rw [hasPair_cons_of_not (by decide), hsuits.spaceBreak])
    (gapAfter_none (by decide)) hn (fun _ => Nat.succ_pos _) hquote
  have hsplit : singleBody n '\'' t.toList ++ '\'' :: rest =
      (singleBody n '\'' t.toList ++ ['\'']) ++ rest := by simp
  rw [hinline, List.cons_append, ← hsplit] at hrest
  have hafter := Cursor.rest_past_append (singleBody n '\'' t.toList ++ ['\'']) rest (c.index + 1)
    c.line (c.column + 1)
  rw [← hsplit] at hafter
  refine (yields_quotes (q := .single) hrest hread hafter).imp ?_
  rintro s rfl
  have hbelow := Cursor.line_le_past
    ⟨singleBody n '\'' t.toList ++ '\'' :: rest, c.index + 1, c.line, c.column + 1⟩
    (singleBody n '\'' t.toList ++ ['\''])
  refine ⟨_, rfl, hafter, hbelow, fun hunbroken => ?_⟩
  -- without a break the cursor has only gone along its line
  obtain ⟨hline, -⟩ := singleBody_of_unbroken (n := n) (b := '\'') (by decide) hunbroken
  have hclosed : ∀ x ∈ singleBody n '\'' t.toList ++ ['\''], isBreak x = false := by
    intro x hx
    rcases List.mem_append.mp hx with hx | hx
    · exact hline x hx
    · rw [List.mem_singleton.mp hx]
      decide
  rw [Cursor.past_of_unbroken hclosed, hsplit, hinline]
  simp only [Cursor.skip, List.drop_left, Cursor.mk.injEq, List.length_cons, true_and]
  omega

lemma yields_double {t : String} (hstyle : styleOf t = .double)
    (hrest : c.rest = inlineText n t ++ rest) : Yields b c ka (AfterQuotes b c ka n t rest) := by
  have hinline : inlineText n t = '"' :: (doubleBody t.toList ++ ['"']) := by
    simp only [inlineText, hstyle]
  have hread := readQuoted_double (i := c.index + 1) (l := c.line) (k := c.column + 1)
    (g := .none) (s := t.toList) [] rest rfl (Nat.succ_pos _)
  rw [hinline, List.cons_append, List.append_assoc] at hrest
  refine (yields_quotes (q := .double) hrest hread rfl).imp ?_
  rintro s rfl
  refine ⟨_, rfl, rfl, le_rfl, fun _ => ?_⟩
  simp only [hinline, Cursor.mk.injEq, List.length_cons, List.length_append, List.length_nil,
    true_and]
  omega

lemma yields_quoted {t : String} (hn : 0 < n) (hstyle : styleOf t = .single ∨ styleOf t = .double)
    (hrest : c.rest = inlineText n t ++ rest) (hquote : rest.head? ≠ some '\'') :
    Yields b c ka (AfterQuotes b c ka n t rest) := by
  rcases hstyle with hstyle | hstyle
  · exact yields_single hn hstyle hrest hquote
  · exact yields_double hstyle hrest

lemma yields_literal {t : String} (hstyle : styleOf t = .literal)
    (hrest : c.rest = textLines n t ++ indented level X) (hn : (n : ℤ) = b.indent + 2)
    (hindent : 0 ≤ b.indent) (hline : Line level X) (hlevel : level ≤ b.indent) :
    Yields b c ka (Poised (b.add [textToken t]) level X) := by
  have hsuits := styleOf_suits t
  rw [hstyle] at hsuits
  have hs : t.toList ≠ [] := List.ne_nil_of_mem hsuits.1
  have hlines : textLines n t = '|' :: ((Pen.hints t.toList).toList ++
      '\n' :: (literalBody n true t.toList ++ lastBreak t.toList)) := if_pos hstyle
  have hbody : c.rest.drop 1 = (Pen.hints t.toList).toList ++
      '\n' :: (literalBody n true t.toList ++ (lastBreak t.toList ++ indented level X)) := by
    rw [hrest, hlines]
    simp
  have hfirst : c.rest = '|' :: c.rest.drop 1 := by
    rw [hrest, hlines]
    rfl
  have hheader := readHeader_hints t.toList
    (literalBody n true t.toList ++ (lastBreak t.toList ++ indented level X)) (c.index + 1) c.line
    (c.column + 1)
  rw [← hbody] at hheader
  have hleast : max 1 (b.indent + 1).toNat ≤ n := by omega
  obtain ⟨i', l', hread⟩ := exists_readBlock_literal
    (i := c.index + 1 + (Pen.hints t.toList).toList.length + 1) (l := c.line + 1) hs hsuits.2 hleast
    (if needsHint t.toList then some 2 else none) hline (by omega)
  -- the hint is counted from the mapping around the text
  have hhint : (if needsHint t.toList then some 2 else none).map (b.indent.toNat + ·) =
      if needsHint t.toList then some n else none := by
    split
    · rw [Option.map_some]
      congr 1
      omega
    · rfl
  have htoken : (ofBlocks b c ka none).next '|' (c.rest.drop 1) = _ :=
    (next_literal (c.rest.drop 1)).trans (block_ofBlocks hheader (hhint ▸ hread))
  refine ⟨'|', _, _, hfirst, by decide, htoken, ?_, ?_⟩
  · rw [hbody]
    simp [indented]
    omega
  · rw [textToken, formOf, hstyle]
    exact poised_of_start hline rfl rfl (lapses_none _)

/-- **A text is taken as one token up to the line after it.** -/
theorem yields_text {t : String} (hrest : c.rest = textLines n t ++ indented level X)
    (hn : (n : ℤ) = b.indent + 2) (hindent : 0 ≤ b.indent) (hline : Line level X)
    (hlevel : level ≤ b.indent) (hcolumn : b.indent < c.column) :
    Yields b c ka (Poised (b.add [textToken t]) level X) := by
  have hsuits := styleOf_suits t
  by_cases hliteral : styleOf t = .literal
  · exact yields_literal hliteral hrest hn hindent hline hlevel
  · have hlines : c.rest = inlineText n t ++ '\n' :: indented level X := by
      rw [hrest, textLines, if_neg hliteral]
      simp
    have hquoted : styleOf t = .single ∨ styleOf t = .double →
        Yields b c ka (Poised (b.add [.scalar t.toList .other]) level X) := by
      intro hstyle
      refine (yields_quoted (by omega) hstyle hlines (by simp)).imp ?_
      rintro s ⟨c', rfl, hafter, hle, -⟩
      exact poised_of_break hline hafter (lapses_keyOf hcolumn (by omega))
    rw [textToken, formOf]
    cases hstyle : styleOf t with
    | literal => exact absurd hstyle hliteral
    | plain =>
      rw [hstyle] at hsuits
      have hinline : inlineText n t = t.toList := by simp only [inlineText, hstyle]
      rw [hinline] at hlines
      exact yields_plain_line hsuits.1 hlines hline hlevel hcolumn
    | single => exact hquoted (.inl hstyle)
    | double => exact hquoted (.inr hstyle)

/-- A key that may stand before its colon is short enough for the scanner to remember where it
began. -/
lemma length_inlineText_le {t : String} (hsimple : isSimpleKey t = true) :
    (∀ x ∈ t.toList, isBreak x = false) ∧ t.toList.length ≤ longestKey ∧
      (inlineText n t).length ≤ longestKey := by
  simp only [isSimpleKey, Bool.and_eq_true, Bool.not_eq_true', decide_eq_true_eq] at hsimple
  obtain ⟨hbreaks, hsize⟩ := hsimple
  have hunbroken : ∀ x ∈ t.toList, isBreak x = false := by simpa using hbreaks
  have hbytes : t.utf8ByteSize = String.utf8Len t.toList := by
    rw [← String.utf8ByteSize_ofList, String.ofList_toList]
  have hchars : ∀ w : List Char, w.length ≤ String.utf8Len w := by
    intro w
    induction w with
    | nil => simp
    | cons x w ih =>
      have hpos := x.utf8Size_pos
      rw [String.utf8Len_cons, List.length_cons]
      omega
  have hlength := hchars t.toList
  have hlimit : longestSimpleKey = 128 := rfl
  have hlongest : longestKey = 1024 := rfl
  refine ⟨hunbroken, by omega, ?_⟩
  -- quotes double a character at most, and escapes take four for a byte
  unfold inlineText
  split
  · omega
  · omega
  · obtain ⟨-, hle⟩ := singleBody_of_unbroken (n := n) (b := '\'') (by decide) hunbroken
    simp only [List.length_cons, List.length_append, List.length_nil]
    omega
  · have hle := length_doubleBody_le t.toList
    simp only [List.length_cons, List.length_append, List.length_nil]
    omega

lemma yields_key {t : String} (hsimple : isSimpleKey t = true) (hn : 0 < n)
    (hrest : c.rest = inlineText n t ++ ':' :: rest) (hblank : startsBlank rest = true)
    (hb : b.indent ≤ c.column) : Yields b c true (AtColon b c (textToken t) rest) := by
  obtain ⟨hunbroken, hchars, hlength⟩ := length_inlineText_le (n := n) hsimple
  have hsuits := styleOf_suits t
  have hquoted : styleOf t = .single ∨ styleOf t = .double →
      Yields b c true (AtColon b c (.scalar t.toList .other) rest) := by
    intro hstyle
    refine (yields_quoted hn hstyle hrest (by simp)).imp ?_
    rintro s ⟨c', rfl, hafter, -, hplace⟩
    refine ⟨c', rfl, hafter, ?_⟩
    have hpos : 0 < (inlineText n t).length := by
      rcases hstyle with hstyle | hstyle <;> simp [inlineText, hstyle]
    rw [hplace hunbroken]
    exact ⟨rfl, Nat.lt_add_of_pos_right hpos, Nat.add_le_add_left hlength _⟩
  rw [textToken, formOf]
  cases hstyle : styleOf t with
  | literal => exact absurd hstyle (styleOf_ne_literal hunbroken)
  | plain =>
    rw [hstyle] at hsuits
    have hinline : inlineText n t = t.toList := by simp only [inlineText, hstyle]
    rw [hinline] at hrest
    exact yields_plain_key hsuits.1 hrest hblank hb hchars
  | single => exact hquoted (.inl hstyle)
  | double => exact hquoted (.inr hstyle)

end Scanner

end LogWatch.Yaml
