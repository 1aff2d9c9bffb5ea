import Mathlib
import LogWatch.Yaml.Writer
import LogWatch.Proofs.Yaml.Scalar

/-!
Texts in quotes, and that they are read back.

Between the quotes stands the body: the characters of the text with what the quotes ask for. Quotes
that escape keep all on one line; single quotes let a text go on over several lines, each of which
is indented. The reader stops right after the closing quote with the text, whatever it has read
before and whatever follows.
-/

namespace LogWatch.Yaml

/-! ### Places -/

namespace Cursor

/-- The place after a text that stands here. -/
def past (c : Cursor) : List Char → Cursor
  | [] => c
  | x :: w => past (if isBreak x then ⟨c.rest.drop 1, c.index + 1, c.line + 1, 0⟩ else c.skip 1) w

variable {c : Cursor} {w w' : List Char} {x : Char}

@[simp] lemma past_nil (c : Cursor) : c.past [] = c := rfl

lemma past_cons_of_break (hx : isBreak x = true) :
    c.past (x :: w) = (⟨c.rest.drop 1, c.index + 1, c.line + 1, 0⟩ : Cursor).past w := by
  rw [past, if_pos hx]

lemma past_cons (hx : isBreak x = false) : c.past (x :: w) = (c.skip 1).past w := by
  rw [past, if_neg (by simp [hx])]

lemma past_append (c : Cursor) (w w' : List Char) : c.past (w ++ w') = (c.past w).past w' := by
  induction w generalizing c with
  | nil => rfl
  | cons x w ih => simp only [List.cons_append, past, ih]

lemma rest_past (c : Cursor) (w : List Char) : (c.past w).rest = c.rest.drop w.length := by
  induction w generalizing c with
  | nil => rfl
  | cons x w ih =>
    rw [past, ih]
    split <;> simp [skip]

lemma rest_past_append (w s : List Char) (i l k : ℕ) :
    ((⟨w ++ s, i, l, k⟩ : Cursor).past w).rest = s := by
  rw [rest_past, List.drop_left]

lemma line_le_past (c : Cursor) (w : List Char) : c.line ≤ (c.past w).line := by
  induction w generalizing c with
  | nil => exact le_rfl
  | cons x w ih =>
    rw [past]
    refine le_trans ?_ (ih _)
    split <;> simp [skip]

lemma past_of_unbroken (h : ∀ x ∈ w, isBreak x = false) : c.past w = c.skip w.length := by
  induction w generalizing c with
  | nil => simp [skip]
  | cons x w ih =>
    rw [past_cons (h x List.mem_cons_self), ih fun y hy => h y (List.mem_cons_of_mem _ hy)]
    simp only [skip, List.drop_drop, List.length_cons, Cursor.mk.injEq]
    exact ⟨by rw [Nat.add_comm], by omega, trivial, by omega⟩

lemma past_mk_append (hw : ∀ x ∈ w, isBreak x = false) (s : List Char) (i l k : ℕ) :
    (⟨w ++ s, i, l, k⟩ : Cursor).past (w ++ w') =
      (⟨s, i + w.length, l, k + w.length⟩ : Cursor).past w' := by
  rw [past_append, past_of_unbroken hw, skip, List.drop_left]

end Cursor

/-! ### Escapes -/

section Escapes

open Pen

variable {c : Char} {n k : ℕ}

lemma hexValue?_hexDigit : ∀ d < 16, hexValue? (hexDigit d) = some d := by decide

lemma hexDigit_ne_return {d : ℕ} (hd : d < 16) : hexDigit d ≠ '\r' := by
  intro h
  have hvalue := hexValue?_hexDigit d hd
  have hnone : hexValue? '\r' = none := by decide
  rw [h, hnone] at hvalue
  cases hvalue

@[simp] lemma length_hexDigits (k n : ℕ) : (hexDigits k n).length = k := by
  induction k generalizing n with
  | zero => rfl
  | succ k ih => simp [hexDigits, ih]

lemma ne_return_of_mem_hexDigits {x : Char} (hx : x ∈ hexDigits k n) : x ≠ '\r' := by
  induction k generalizing n with
  | zero => simp [hexDigits] at hx
  | succ k ih =>
    rw [hexDigits, List.mem_append, List.mem_singleton] at hx
    rcases hx with hx | rfl
    · exact ih hx
    · exact hexDigit_ne_return (Nat.mod_lt _ (by decide))

lemma hexNumber?_hexDigits (hn : n < 16 ^ k) : hexNumber? (hexDigits k n) = some n := by
  induction k generalizing n with
  | zero =>
    obtain rfl : n = 0 := by simpa using hn
    rfl
  | succ k ih =>
    have hlow : n % 16 < 16 := Nat.mod_lt _ (by decide)
    have hhigh : n / 16 < 16 ^ k := by
      rw [Nat.div_lt_iff_lt_mul (by decide)]
      rwa [pow_succ] at hn
    have hread := ih hhigh
    rw [hexNumber?] at hread ⊢
    rw [hexDigits, List.foldlM_append, hread]
    simp only [Option.bind_eq_bind, Option.bind_some, List.foldlM_cons, hexValue?_hexDigit _ hlow,
      List.foldlM_nil, Option.map_some]
    have hsplit : n / 16 * 16 + n % 16 = n := by omega
    simp [hsplit]

lemma character?_toNat (c : Char) : character? c.toNat = some c := by
  have hvalid : c.toNat.isValidChar := c.valid
  simp [character?, hvalid]

/-- How a character stands after a backslash: by a letter, or by its number in so many digits. -/
lemma escape_eq (c : Char) : ∃ d w, escape c = '\\' :: d :: w ∧ isBreak d = false ∧
    (∀ x ∈ w, x ≠ '\r') ∧
    ((shortEscape? d = some c ∧ w = []) ∨
      (shortEscape? d = none ∧ escapeDigits? d = some w.length ∧ hexNumber? w = some c.toNat)) := by
  unfold escape
  split
  -- these have a letter of their own, and all others are written by number
  iterate 15 exact ⟨_, _, rfl, by decide, by simp, .inl ⟨by decide, rfl⟩⟩
  dsimp only
  split
  · exact ⟨_, _, rfl, by decide, fun x hx => ne_return_of_mem_hexDigits hx,
      .inr ⟨by decide, by simp [escapeDigits?], hexNumber?_hexDigits (by omega)⟩⟩
  · split
    · exact ⟨_, _, rfl, by decide, fun x hx => ne_return_of_mem_hexDigits hx,
        .inr ⟨by decide, by simp [escapeDigits?], hexNumber?_hexDigits (by omega)⟩⟩
    · refine ⟨_, _, rfl, by decide, fun x hx => ne_return_of_mem_hexDigits hx,
        .inr ⟨by decide, by simp [escapeDigits?], hexNumber?_hexDigits ?_⟩⟩
      have hvalid : c.toNat.isValidChar := c.valid
      simp only [Nat.isValidChar] at hvalid
      omega

lemma utf8Size_le (h : 0x7f < c.toNat) : 2 ≤ c.utf8Size ∧ (0xffff < c.toNat → 4 ≤ c.utf8Size) := by
  simp only [Char.utf8Size, UInt32.le_iff_toNat_le]
  have hval : c.val.toNat = c.toNat := rfl
  rw [hval]
  constructor
  · split <;> rename_i h1
    · exact absurd h1 (by simp; omega)
    · split <;> [omega; split <;> omega]
  · intro hlarge
    split <;> rename_i h1
    · exact absurd h1 (by simp; omega)
    · split <;> rename_i h2
      · exact absurd h2 (by simp; omega)
      · split <;> rename_i h3
        · exact absurd h3 (by simp; omega)
        · omega

lemma length_escape_le (c : Char) : (escape c).length ≤ 4 * c.utf8Size := by
  have hpos : 1 ≤ c.utf8Size := c.utf8Size_pos
  unfold escape
  split
  iterate 15 simp only [List.length_cons, List.length_nil]; omega
  dsimp only
  split
  · simp only [List.length_cons, length_hexDigits]
    omega
  · split
    · have hsize := (utf8Size_le (c := c) (by omega)).1
      simp only [List.length_cons, length_hexDigits]
      omega
    · have hsize := (utf8Size_le (c := c) (by omega)).2 (by omega)
      simp only [List.length_cons, length_hexDigits]
      omega

end Escapes

/-! ### Quoted texts -/

section Quoted

variable {q : Quote} {i l k n : ℕ} {g : Gap} {text s w tail : List Char} {b c d : Char}

lemma readQuoted_skip (hw : ∀ x ∈ w, x ≠ '\r') :
    readQuoted q w.length i l k g text (w ++ s) =
      readQuoted q 0 (i + w.length) l (k + w.length) g text s := by
  induction w generalizing i k with
  | nil => rfl
  | cons x w ih =>
    have hx := hw x List.mem_cons_self
    rw [List.cons_append, readQuoted]
    · simp only [List.length_cons, Nat.zero_lt_succ, gt_iff_lt, if_true, Nat.add_sub_cancel]
      rw [ih fun y hy => hw y (List.mem_cons_of_mem _ hy)]
      simp only [Nat.add_assoc, Nat.add_comm 1]
    · intro s' h
      exact absurd h hx

lemma readQuoted_space :
    readQuoted q 0 i l k g text (' ' :: s) =
      readQuoted q 0 (i + 1) l (k + 1) (g.addBlank ' ') text s := by
  rw [readQuoted]
  · simp [isBreak_space, isBlank_space]
  · intro s' h
    cases h

lemma readQuoted_break (hr : c ≠ '\r') (hc : isBreak c = true) :
    readQuoted q 0 i l k g text (c :: s) =
      readQuoted q 0 (i + 1) (l + 1) 0 (g.addBreak c) text s := by
  rw [readQuoted]
  · simp [hc]
  · intro s' h
    exact absurd h hr

lemma readQuoted_visible (hbreak : isBreak c = false) (hblank : isBlank c = false) (hk : 0 < k)
    (hmark : c ≠ q.mark) (hescape : q = .double → c ≠ '\\') :
    readQuoted q 0 i l k g text (c :: s) =
      readQuoted q 0 (i + 1) l (k + 1) .none (c :: (g.folded.reverse ++ text)) s := by
  have hr : c ≠ '\r' := by
    rintro rfl
    simp [isBreak] at hbreak
  have hplace : (k == 0 && startsMarker (c :: s)) = false := by simp [hk.ne']
  rw [readQuoted]
  · simp only [hbreak, hblank, hplace, gt_iff_lt, lt_self_iff_false, if_false, Bool.false_eq_true]
    split
    · exact absurd rfl hmark
    · exact absurd rfl (hescape rfl)
    · exact absurd rfl (hescape rfl)
    · exact absurd rfl (hescape rfl)
    · simp [hmark]
  · intro s' h
    exact absurd h hr

lemma readQuoted_mark (hk : 0 < k) (htail : q = .single → tail.head? ≠ some '\'') :
    readQuoted q 0 i l k g text (q.mark :: tail) =
      .ok ((g.folded.reverse ++ text).reverse, ⟨tail, i + 1, l, k + 1⟩) := by
  have hplace : (k == 0 && startsMarker (q.mark :: tail)) = false := by simp [hk.ne']
  have hbreak : isBreak q.mark = false := by cases q <;> decide
  have hblank : isBlank q.mark = false := by cases q <;> decide
  rw [readQuoted]
  · simp only [hbreak, hblank, hplace, gt_iff_lt, lt_self_iff_false, if_false, Bool.false_eq_true]
    cases q with
    | single =>
      rcases tail with _ | ⟨x, tail⟩
      · simp [Quote.mark]
      · have hx : x ≠ '\'' := by simpa using htail rfl
        split <;> rename_i heq
        all_goals simp_all [Quote.mark]
    | double => simp [Quote.mark]
  · intro s' h
    cases q <;> simp [Quote.mark] at h

lemma readQuoted_backslash (hk : 0 < k) (hd : isBreak d = false) :
    readQuoted .double 0 i l k g text ('\\' :: d :: s) =
      match shortEscape? d, escapeDigits? d with
      | some e, _ =>
        readQuoted .double 1 (i + 1) l (k + 1) .none (e :: (g.folded.reverse ++ text)) (d :: s)
      | none, some n =>
        if (s.take n).length < n then .error .badEscape
        else match (hexNumber? (s.take n)).bind character? with
          | some e =>
            readQuoted .double (n + 1) (i + 1) l (k + 1) .none (e :: (g.folded.reverse ++ text))
              (d :: s)
          | none => .error .badEscape
      | none, none => .error .badEscape := by
  have hr : d ≠ '\r' := by
    rintro rfl
    simp [isBreak] at hd
  have hplace : (k == 0 && startsMarker ('\\' :: d :: s)) = false := by simp [hk.ne']
  have hbackslash : isBreak '\\' = false ∧ isBlank '\\' = false := by decide
  rw [readQuoted]
  · simp only [hbackslash.1, hbackslash.2, hplace, gt_iff_lt, lt_self_iff_false, if_false,
      Bool.false_eq_true]
    split
    · contradiction
    · rename_i heq
      exact absurd (List.cons.inj heq).1 hr
    · rename_i heq
      obtain ⟨rfl, rfl⟩ := List.cons.inj heq
      exact if_neg (by simp [hd])
    · rename_i heq
      cases heq
    · rename_i hother _
      exact (hother d s rfl rfl rfl).elim
  · intro s' h
    cases h

lemma readQuoted_escape (hk : 0 < k) :
    readQuoted .double 0 i l k g text (Pen.escape c ++ s) =
      readQuoted .double 0 (i + (Pen.escape c).length) l (k + (Pen.escape c).length) .none
        (c :: (g.folded.reverse ++ text)) s := by
  obtain ⟨d, w, heq, hbreak, hw, hd⟩ := escape_eq c
  have hr : d ≠ '\r' := by
    rintro rfl
    simp [isBreak] at hbreak
  have hskip : ∀ x ∈ d :: w, x ≠ '\r' := List.forall_mem_cons.mpr ⟨hr, hw⟩
  -- once the escape is read, the characters it is made of are passed over
  have hread : ∀ j m t, readQuoted .double (d :: w).length j l m .none t (d :: w ++ s) =
      readQuoted .double 0 (j + (d :: w).length) l (m + (d :: w).length) .none t s :=
    fun _ _ _ => readQuoted_skip hskip
  rw [heq, List.cons_append, List.cons_append, readQuoted_backslash hk hbreak]
  rcases hd with ⟨hshort, rfl⟩ | ⟨hshort, hdigits, hnumber⟩
  · simp only [hshort]
    exact (hread _ _ _).trans (by simp)
  · have htake : (w ++ s).take w.length = w := List.take_left
    simp only [hshort, hdigits, htake, lt_self_iff_false, if_false, hnumber, Option.bind_some,
      character?_toNat]
    refine (hread _ _ _).trans ?_
    simp only [List.length_cons, Nat.add_assoc, Nat.add_comm 1]

lemma readQuoted_spaces (hg : g.broken = true) (n : ℕ) :
    readQuoted q 0 i l k g text (spaces n ++ s) = readQuoted q 0 (i + n) l (k + n) g text s := by
  induction n generalizing i k with
  | zero => rfl
  | succ n ih =>
    rw [spaces_succ, List.cons_append, readQuoted_space, Gap.addBlank_of_broken hg, ih]
    simp only [Nat.add_assoc, Nat.add_comm 1]

lemma readQuoted_twice (hk : 0 < k) :
    readQuoted .single 0 i l k g text ('\'' :: '\'' :: s) =
      readQuoted .single 0 (i + 2) l (k + 2) .none ('\'' :: (g.folded.reverse ++ text)) s := by
  have hplace : (k == 0 && startsMarker ('\'' :: '\'' :: s)) = false := by simp [hk.ne']
  have hquote : isBreak '\'' = false ∧ isBlank '\'' = false := by decide
  rw [readQuoted]
  · simp only [hquote.1, hquote.2, hplace, gt_iff_lt, lt_self_iff_false, if_false,
      Bool.false_eq_true]
    exact readQuoted_skip (w := ['\'']) (by simp)
  · intro s' h
    cases h

/-! Quotes that escape. -/

/-- A text between quotes that escape. -/
def doubleBody (s : List Char) : List Char :=
  s.flatMap fun c => if Pen.needsEscape c then Pen.escape c else [c]

/-- **Quotes that escape hold every text.** -/
lemma readQuoted_double (text tail : List Char) (hg : g.broken = false) (hk : 0 < k) :
    readQuoted .double 0 i l k g text (doubleBody s ++ '"' :: tail) =
      .ok (text.reverse ++ g.folded ++ s,
        ⟨tail, i + (doubleBody s).length + 1, l, k + (doubleBody s).length + 1⟩) := by
  induction s generalizing i k g text with
  | nil =>
    refine (readQuoted_mark (q := .double) hk (by simp)).trans ?_
    simp [doubleBody]
  | cons c s ih =>
    have hcons : doubleBody (c :: s) =
        (if Pen.needsEscape c then Pen.escape c else [c]) ++ doubleBody s := rfl
    rw [hcons, List.append_assoc]
    by_cases hescape : Pen.needsEscape c = true
    · have hpos : 0 < k + (Pen.escape c).length := Nat.add_pos_left hk _
      rw [if_pos hescape, readQuoted_escape hk, ih _ rfl hpos]
      simp [Nat.add_assoc]
    · rw [if_neg hescape]
      simp only [Pen.needsEscape, Bool.or_eq_true, Bool.not_eq_true', beq_iff_eq, not_or,
        Bool.not_eq_false, Bool.not_eq_true] at hescape
      obtain ⟨⟨⟨hvisible, hbreak⟩, hmark⟩, hbackslash⟩ := hescape
      -- a blank is held in the gap until it is known what comes after it
      by_cases hspace : c = ' '
      · subst hspace
        obtain ⟨hbroken, -, hfolded⟩ := Gap.addBlank_of_unbroken hg ' '
        rw [List.singleton_append, readQuoted_space, ih _ hbroken k.succ_pos, hfolded]
        simp [Nat.add_assoc, Nat.add_comm 1]
      · have hblank : isBlank c = false := by simp [isBlank_of_isVisible hvisible, hspace]
        rw [List.singleton_append,
          readQuoted_visible (q := .double) hbreak hblank hk hmark fun _ => hbackslash,
          ih _ rfl k.succ_pos]
        simp [Nat.add_assoc, Nat.add_comm 1]

/-! Single quotes. -/

/-- What comes after a character before a line goes on: a new line is indented. -/
def lineStart (n : ℕ) (b : Char) : List Char := if isBreak b then spaces n else []

/-- A single quote before another one. -/
def doubled (c : Char) : List Char := if c = '\'' then ['\''] else []

/-- The rest of a text between single quotes, after a character. -/
def singleBody (n : ℕ) (b : Char) : List Char → List Char
  | [] => lineStart n b
  | c :: s =>
    if isBreak c then c :: singleBody n c s
    else lineStart n b ++ (doubled c ++ c :: singleBody n c s)

lemma unbroken_lineStart (n : ℕ) (b : Char) : ∀ x ∈ lineStart n b, isBreak x = false := by
  intro x hx
  unfold lineStart at hx
  split at hx
  · exact unbroken_spaces n x hx
  · simp at hx

lemma unbroken_doubled (c : Char) : ∀ x ∈ doubled c, isBreak x = false := by
  intro x hx
  unfold doubled at hx
  split at hx
  · rw [List.mem_singleton.mp hx]
    decide
  · simp at hx

/-- What stands in the gap after a character of a text in single quotes. -/
inductive GapAfter (b : Char) (g : Gap) : Prop
  | unbroken (char : isBreak b = false) (gap : g.broken = false) (more : g.more = [])
      (blanks : b ≠ ' ' → g.blanks = [])
  | broken (char : isBreak b = true) (gap : g.broken = true) (first : ∃ d, g.first = [d] ∧ d ≠ '\n')

lemma GapAfter.blank (h : GapAfter b g) (hb : isBreak b = false) :
    GapAfter ' ' (g.addBlank ' ') ∧ (g.addBlank ' ').folded = g.folded ++ [' '] := by
  cases h with
  | unbroken _ hgap hmore =>
    obtain ⟨hbroken, -, hfolded⟩ := Gap.addBlank_of_unbroken hgap ' '
    exact ⟨.unbroken isBreak_space hbroken (by simp [Gap.addBlank, hgap, hmore]) (by simp), hfolded⟩
  | broken hchar => simp [hb] at hchar

lemma GapAfter.break (h : GapAfter b g) (hb : b ≠ ' ') (hc : isBreak c = true) (hn : c ≠ '\n')
    (hvisible : isVisible c = true) :
    GapAfter c (g.addBreak c) ∧ (g.addBreak c).folded = g.folded ++ [c] := by
  have htext := breakText_of_isVisible hvisible hc
  cases h with
  | unbroken _ hgap hmore hblanks =>
    have hsame : g.addBreak c = ⟨[], true, [c], []⟩ := by
      simp [Gap.addBreak, hgap, htext, hmore]
    rw [hsame]
    refine ⟨.broken hc rfl ⟨c, rfl, hn⟩, ?_⟩
    simp [Gap.folded, hgap, hblanks hb, hn]
  | broken _ hgap hfirst =>
    obtain ⟨d, hd, hdn⟩ := hfirst
    have hsame : g.addBreak c = { g with more := g.more ++ [c] } := by
      simp [Gap.addBreak, hgap, htext]
    rw [hsame]
    refine ⟨.broken hc hgap ⟨d, hd, hdn⟩, ?_⟩
    simp [Gap.folded, hgap, hd, hdn]

lemma gapAfter_none (h : isBreak b = false) : GapAfter b .none :=
  .unbroken h rfl rfl fun _ => rfl

lemma exists_lineStart (hg : GapAfter b g) (hn : 0 < n) (hk : isBreak b = false → 0 < k)
    (i l : ℕ) (text s w : List Char) : ∃ i' k', 0 < k' ∧
      readQuoted q 0 i l k g text (lineStart n b ++ s) = readQuoted q 0 i' l k' g text s ∧
      (⟨lineStart n b ++ s, i, l, k⟩ : Cursor).past (lineStart n b ++ w) =
        (⟨s, i', l, k'⟩ : Cursor).past w := by
  refine ⟨i + (lineStart n b).length, k + (lineStart n b).length, ?_, ?_,
    Cursor.past_mk_append (unbroken_lineStart n b) s i l k⟩
  · unfold lineStart
    split
    · simp [hn]
    · rename_i hb
      exact Nat.lt_add_right _ (hk (by simpa using hb))
  · unfold lineStart
    split
    · cases hg with
      | unbroken hchar => simp_all
      | broken _ hgap => rw [readQuoted_spaces hgap, length_spaces]
    · rfl

lemma readQuoted_doubled (hvisible : isVisible c = true) (hc : isBreak c = false) (hspace : c ≠ ' ')
    (hk : 0 < k) :
    readQuoted .single 0 i l k g text (doubled c ++ c :: s) =
      readQuoted .single 0 (i + (doubled c).length + 1) l (k + (doubled c).length + 1) .none
        (c :: (g.folded.reverse ++ text)) s := by
  have hblank : isBlank c = false := by simp [isBlank_of_isVisible hvisible, hspace]
  by_cases hquote : c = '\''
  · subst hquote
    exact readQuoted_twice hk
  · simp only [doubled, if_neg hquote, List.nil_append, List.length_nil, Nat.add_zero]
    exact readQuoted_visible (q := .single) hc hblank hk hquote (by simp)

/-- **Single quotes hold every text without a line feed in which no space stands beside a
break.** -/
lemma readQuoted_single (text tail : List Char) (hvisible : Visible s)
    (hfeed : '\n' ∉ s)
    (hbreakSpace : hasPair isBreak (· == ' ') (b :: s) = false)
    (hspaceBreak : hasPair (· == ' ') isBreak (b :: s) = false) (hg : GapAfter b g) (hn : 0 < n)
    (hk : isBreak b = false → 0 < k) (htail : tail.head? ≠ some '\'') :
    readQuoted .single 0 i l k g text (singleBody n b s ++ '\'' :: tail) =
      .ok (text.reverse ++ g.folded ++ s,
        (⟨singleBody n b s ++ '\'' :: tail, i, l, k⟩ : Cursor).past
          (singleBody n b s ++ ['\''])) := by
  -- Over the characters; `b` is the one before, which tells what the gap may hold.
  induction s generalizing b i l k g text with
  | nil =>
    obtain ⟨i', k', hk', hread, hpast⟩ :=
      exists_lineStart (q := .single) hg hn hk i l text ('\'' :: tail) ['\'']
    simp only [singleBody, hread, hpast]
    refine (readQuoted_mark (q := .single) hk' fun _ => htail).trans ?_
    simp [Cursor.past, Cursor.skip, isBreak]
  | cons c s ih =>
    rw [visible_cons] at hvisible
    obtain ⟨hcv, hvisible⟩ := hvisible
    rw [List.mem_cons, not_or] at hfeed
    obtain ⟨hcn, hfeed⟩ := hfeed
    rw [hasPair_cons, Bool.or_eq_false_iff] at hbreakSpace hspaceBreak
    by_cases hc : isBreak c = true
    · have hr : c ≠ '\r' := ne_of_isVisible hcv (by decide)
      have hb : b ≠ ' ' := by
        rintro rfl
        simp [hc] at hspaceBreak
      obtain ⟨hgap, hfolded⟩ := hg.break hb hc (Ne.symm hcn) hcv
      simp only [singleBody, if_pos hc, List.cons_append]
      rw [readQuoted_break hr hc,
        ih _ hvisible hfeed hbreakSpace.2 hspaceBreak.2 hgap (by simp [hc]), hfolded,
        Cursor.past_cons_of_break hc]
      simp
    · have hc' : isBreak c = false := by simpa using hc
      by_cases hspace : c = ' '
      · subst hspace
        have hb : isBreak b = false := by simpa using hbreakSpace.1
        obtain ⟨hgap, hfolded⟩ := hg.blank hb
        simp only [singleBody, if_neg hc, lineStart, hb, doubled, List.nil_append, if_false,
          List.cons_append, Bool.false_eq_true, show ¬ ' ' = '\'' by decide]
        rw [readQuoted_space, ih _ hvisible hfeed hbreakSpace.2 hspaceBreak.2 hgap (by simp),
          hfolded, Cursor.past_cons hc']
        simp [Cursor.skip]
      -- if a line begins here, its indentation falls into the gap first
      · obtain ⟨i', k', hk', hread, hpast⟩ := exists_lineStart (q := .single) hg hn hk i l text
          (doubled c ++ c :: singleBody n c s ++ '\'' :: tail)
          (doubled c ++ c :: singleBody n c s ++ ['\''])
        simp only [singleBody, if_neg hc, List.append_assoc, List.cons_append] at hread hpast ⊢
        rw [hread, hpast, readQuoted_doubled hcv hc' hspace hk',
          ih _ hvisible hfeed hbreakSpace.2 hspaceBreak.2 (gapAfter_none hc') (by simp),
          Cursor.past_mk_append (unbroken_doubled c), Cursor.past_cons hc']
        simp [Cursor.skip, Nat.add_assoc]

lemma singleBody_of_unbroken (hb : isBreak b = false) (hs : ∀ c ∈ s, isBreak c = false) :
    (∀ x ∈ singleBody n b s, isBreak x = false) ∧ (singleBody n b s).length ≤ 2 * s.length := by
  induction s generalizing b with
  | nil => simp [singleBody, lineStart, hb]
  | cons c s ih =>
    rw [List.forall_mem_cons] at hs
    obtain ⟨hc, hs⟩ := hs
    obtain ⟨hunbroken, hlength⟩ := ih hc hs
    have hdoubled : (doubled c).length ≤ 1 := by
      unfold doubled
      split <;> simp
    simp only [singleBody, hc, lineStart, hb, Bool.false_eq_true, if_false, List.nil_append]
    refine ⟨fun x hx => ?_, ?_⟩
    · rcases List.mem_append.mp hx with hx | hx
      · exact unbroken_doubled c x hx
      · rcases List.mem_cons.mp hx with rfl | hx
        · exact hc
        · exact hunbroken x hx
    · simp only [List.length_append, List.length_cons]
      omega

lemma length_doubleBody_le (s : List Char) : (doubleBody s).length ≤ 4 * String.utf8Len s := by
  induction s with
  | nil => simp [doubleBody]
  | cons c s ih =>
    have hcons : doubleBody (c :: s) =
        (if Pen.needsEscape c then Pen.escape c else [c]) ++ doubleBody s := rfl
    have hchar : (if Pen.needsEscape c then Pen.escape c else [c]).length ≤ 4 * c.utf8Size := by
      split
      · exact length_escape_le c
      · have hpos := c.utf8Size_pos
        simp only [List.length_singleton]
        omega
    rw [hcons, List.length_append, String.utf8Len_cons]
    omega

end Quoted

end LogWatch.Yaml
