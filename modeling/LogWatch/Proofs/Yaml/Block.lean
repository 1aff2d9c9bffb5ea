import Mathlib
import LogWatch.Yaml.Writer
import LogWatch.Proofs.Yaml.Scalar

/-!
Texts written line by line.

The lines of such a text stand as they are, each behind its indentation, and empty lines have none.
What a reader cannot see there is in the header: how far the lines are indented, if the first does
not show it, and what becomes of the breaks at the end.
-/

namespace LogWatch.Yaml

/-! ### Lines -/

/-- The lines of a text behind their indentation; `broken` says that a line has just ended. -/
def literalBody (n : ℕ) (broken : Bool) : List Char → List Char
  | [] => []
  | c :: s =>
    if isBreak c then c :: literalBody n true s
    else (if broken then spaces n else []) ++ c :: literalBody n false s

/-- Whether a line is left open after a text. -/
def lineAfter (inLine : Bool) : List Char → Bool
  | [] => inLine
  | c :: s => lineAfter (!isBreak c) s

lemma lineAfter_append (inLine : Bool) (s t : List Char) :
    lineAfter inLine (s ++ t) = lineAfter (lineAfter inLine s) t := by
  induction s generalizing inLine with
  | nil => rfl
  | cons c s ih => exact ih _

lemma literalBody_append (n : ℕ) (broken : Bool) (s t : List Char) :
    literalBody n broken (s ++ t) =
      literalBody n broken s ++ literalBody n (!lineAfter (!broken) s) t := by
  induction s generalizing broken with
  | nil => simp [literalBody, lineAfter]
  | cons c s ih =>
    by_cases hc : isBreak c = true
    · simp [literalBody, lineAfter, hc, ih]
    · simp [literalBody, lineAfter, hc, ih]

/-! ### Reading lines -/

section Lines

variable {h : BlockHeader} {least n m i l k : ℕ} {indent : Option ℕ} {b : Block} {c : Char}
  {s rest : List Char}

/-- The text so far, with all breaks after it. -/
def Block.whole (b : Block) : List Char := b.finish .keep

lemma Block.whole_eq (b : Block) : b.whole = b.text.reverse ++ b.last ++ b.more := rfl

lemma ne_return_of_visible (hc : isVisible c = true) : c ≠ '\r' := ne_of_isVisible hc (by decide)

lemma readBlock_put (hr : c ≠ '\r') (hc : isBreak c = false) :
    readBlock h least indent true i l k b (c :: s) =
      readBlock h least indent true (i + 1) l (k + 1) (b.put c) s := by
  rw [readBlock]
  · simp [hc]
  · intro s' h
    exact absurd h hr

lemma readBlock_break (h : BlockHeader) (least : ℕ) (indent : Option ℕ)
    (hvisible : isVisible c = true) (hc : isBreak c = true) (inLine : Bool) :
    ∃ b' : Block, b'.text = b.text ∧ (inLine = true → b'.last = [c] ∧ b'.more = b.more) ∧
      (inLine = false → b'.last = b.last ∧ b'.more = b.more ++ [c]) ∧
      readBlock h least indent inLine i l k b (c :: s) =
        readBlock h least indent false (i + 1) (l + 1) 0 b' s := by
  have htext := breakText_of_isVisible hvisible hc
  refine ⟨if inLine then { b with last := [c] }
    else { b with more := b.more ++ [c], widest := max b.widest k }, ?_, ?_, ?_, ?_⟩
  · split <;> rfl
  · rintro rfl
    exact ⟨rfl, rfl⟩
  · rintro rfl
    exact ⟨rfl, rfl⟩
  · rw [readBlock]
    · simp [hc, htext]
    · intro s' h
      exact absurd h (ne_return_of_visible hvisible)

lemma readBlock_spaces (hm : ∀ n ∈ indent, k + m ≤ n) :
    readBlock h least indent false i l k b (spaces m ++ s) =
      readBlock h least indent false (i + m) l (k + m) b s := by
  induction m generalizing i k with
  | zero => rfl
  | succ m ih =>
    have hbefore : indent.all (k < ·) = true := by
      cases indent with
      | none => rfl
      | some n =>
        have hle := hm n rfl
        simp only [Option.all_some, decide_eq_true_eq]
        omega
    rw [spaces_succ, List.cons_append, readBlock]
    · simp only [isBreak_space, Bool.false_eq_true, if_false, beq_self_eq_true, hbefore,
        Bool.and_self, if_true]
      rw [ih fun n hn => by have hle := hm n hn; omega]
      simp only [Nat.add_assoc, Nat.add_comm 1]
    · intro s' h
      cases h

lemma readBlock_start (hvisible : isVisible c = true) (hc : isBreak c = false)
    (hindent : indent.getD (max least (max b.widest k)) = k)
    (hblank : c = ' ' → indent = some k) :
    readBlock h least indent false i l k b (c :: s) =
      readBlock h least (some k) true (i + 1) l (k + 1) ((b.startLine h.folded c).put c) s := by
  have htab : c ≠ '\t' := ne_of_isVisible hvisible (by decide)
  have hspace : (c == ' ' && indent.all (k < ·)) = false := by
    by_cases hs : c = ' '
    · simp [hblank hs]
    · simp [hs]
  rw [readBlock]
  · simp [hc, hspace, htab, hindent]
  · intro s' h
    exact absurd h (ne_return_of_visible hvisible)

lemma readBlock_dedent (hc : isBreak c = false) (hblank : isBlank c = false) (hk : k < n) :
    readBlock h least (some n) false i l k b (c :: s) =
      .ok (b.finish h.chomp, ⟨c :: s, i, l, k⟩) := by
  simp only [isBlank, Bool.or_eq_false_iff] at hblank
  rw [readBlock]
  · simp [hc, hblank.1, hblank.2, hk.ne]
  · rintro s' rfl
    simp [isBreak] at hc

lemma exists_readBlock_char (hfolded : h.folded = false) (hvisible : isVisible c = true)
    (hc : isBreak c = false) (inLine : Bool) (hk : inLine = false → k = 0)
    (hb : inLine = true → b.last = [] ∧ b.more = []) :
    ∃ b' : Block, ∃ i' k', b'.whole = b.whole ++ [c] ∧ (b'.last = [] ∧ b'.more = []) ∧
      readBlock h least (some n) inLine i l k b ((if (!inLine) then spaces n else []) ++ c :: s) =
        readBlock h least (some n) true i' l k' b' s := by
  cases inLine with
  | true =>
    obtain ⟨hlast, hmore⟩ := hb rfl
    refine ⟨b.put c, i + 1, k + 1, ?_, ⟨hlast, hmore⟩, ?_⟩
    · simp [Block.whole_eq, Block.put, hlast, hmore]
    · exact readBlock_put (ne_return_of_visible hvisible) hc
  | false =>
    obtain rfl := hk rfl
    refine ⟨(b.startLine h.folded c).put c, i + n + 1, n + 1, ?_, ⟨rfl, rfl⟩, ?_⟩
    · simp [Block.whole_eq, Block.put, Block.startLine, hfolded]
    · simp only [Bool.not_false, if_true]
      rw [readBlock_spaces (by simp), readBlock_start hvisible hc (by simp) (by simp)]
      simp

/-- The lines of a text are added to what was read before, whatever comes then. -/
lemma exists_readBlock_lines (least : ℕ) (rest : List Char) (hfolded : h.folded = false)
    (hvisible : Visible s) (inLine : Bool) (hk : inLine = false → k = 0)
    (hb : inLine = true → b.last = [] ∧ b.more = []) :
    ∃ b' : Block, ∃ i' l' k', b'.whole = b.whole ++ s ∧
      (lineAfter inLine s = true → b'.last = [] ∧ b'.more = []) ∧
      (lineAfter inLine s = false → k' = 0) ∧
      readBlock h least (some n) inLine i l k b (literalBody n (!inLine) s ++ rest) =
        readBlock h least (some n) (lineAfter inLine s) i' l' k' b' rest := by
  induction s generalizing inLine b i l k with
  | nil => exact ⟨b, i, l, k, by simp, hb, hk, rfl⟩
  | cons c s ih =>
    obtain ⟨hcv, hvisible⟩ := visible_cons.mp hvisible
    -- a break ends the line, or it is an empty line, which is not indented
    by_cases hc : isBreak c = true
    · obtain ⟨b₁, htext, hin, hout, hread⟩ :=
        readBlock_break h least (some n) (i := i) (l := l) (k := k) (b := b)
          (s := literalBody n true s ++ rest) hcv hc inLine
      obtain ⟨b', i', l', k', hwhole, hline, hcolumn, hrest⟩ :=
        ih hvisible false (k := 0) (i := i + 1) (l := l + 1) (b := b₁) (fun _ => rfl) (by simp)
      have hwhole₁ : b₁.whole = b.whole ++ [c] := by
        cases inLine with
        | true =>
          obtain ⟨hlast, hmore⟩ := hb rfl
          simp [Block.whole_eq, htext, hin rfl, hlast, hmore]
        | false => simp [Block.whole_eq, htext, hout rfl]
      refine ⟨b', i', l', k', by rw [hwhole, hwhole₁]; simp, ?_, ?_, ?_⟩
      · simpa [lineAfter, hc] using hline
      · simpa [lineAfter, hc] using hcolumn
      · simp only [literalBody, lineAfter, hc, Bool.not_true]
        exact hread.trans hrest
    -- the first character of a line comes behind the indentation
    · have hc' : isBreak c = false := by simpa using hc
      obtain ⟨b₁, i₁, k₁, hwhole₁, hb₁, hread₁⟩ :=
        exists_readBlock_char (s := literalBody n false s ++ rest) (l := l) (i := i) hfolded hcv hc'
          inLine hk hb
      obtain ⟨b', i', l', k', hwhole, hline, hcolumn, hrest⟩ :=
        ih hvisible true (k := k₁) (i := i₁) (l := l) (b := b₁) (by simp) (fun _ => hb₁)
      refine ⟨b', i', l', k', by rw [hwhole, hwhole₁]; simp, ?_, ?_, ?_⟩
      · simpa [lineAfter, hc'] using hline
      · simpa [lineAfter, hc'] using hcolumn
      · simp only [literalBody, hc', Bool.false_eq_true, if_false, List.append_assoc,
          List.cons_append, lineAfter, Bool.not_false]
        exact hread₁.trans hrest

end Lines

/-! ### Headers -/

/-- Whether the first line of a text does not show how far it is indented. -/
def needsHint (s : List Char) : Bool := s.head?.any fun c => c == ' ' || isBreak c

/-- What is to become of the breaks at the end of a text so that it stays what it is. -/
def chompOf (s : List Char) : Chomp :=
  match s.reverse with
  | [] => .strip
  | c :: before =>
    if !isBreak c then .strip
    else match before with
      | [] => .keep
      | d :: _ => if isBreak d then .keep else .clip

def Chomp.mark : Chomp → List Char
  | strip => ['-']
  | clip => []
  | keep => ['+']

lemma toList_hints (s : List Char) :
    (Pen.hints s).toList = (if needsHint s then ['2'] else []) ++ (chompOf s).mark := by
  have hchomp : (match s.reverse with
      | [] => "-"
      | c :: before =>
        if !isBreak c then "-"
        else match before with
          | [] => "+"
          | d :: _ => if isBreak d then "+" else "").toList = (chompOf s).mark := by
    unfold chompOf
    repeat' split
    all_goals rfl
  unfold Pen.hints
  simp only [String.toList_append]
  refine congrArg₂ (· ++ ·) ?_ hchomp
  unfold needsHint
  split <;> rfl

lemma readHeader_hints (s rest : List Char) (i l k : ℕ) :
    readHeader false ⟨(Pen.hints s).toList ++ '\n' :: rest, i, l, k⟩ =
      .ok (⟨false, chompOf s, if needsHint s then some 2 else none⟩,
        ⟨rest, i + (Pen.hints s).toList.length + 1, l + 1, 0⟩) := by
  rw [toList_hints]
  cases needsHint s <;> cases chompOf s <;> rfl

/-! ### Whole texts -/

section Text

variable {least n i l : ℕ} {s rest X : List Char} {c : Char} {level : ℤ}

/-- What is written after the last line of a text to end it. -/
def lastBreak (s : List Char) : List Char := if lineAfter false s then ['\n'] else []

lemma chompOf_of_open (h : lineAfter false s = true) : chompOf s = .strip := by
  rcases s.eq_nil_or_concat with rfl | ⟨u, c, rfl⟩
  · rfl
  · have hc : isBreak c = false := by simpa [lineAfter_append, lineAfter] using h
    simp [chompOf, hc]

lemma chompOf_of_closed (hs : s ≠ []) (h : lineAfter false s = false) :
    chompOf s = .keep ∨
      (chompOf s = .clip ∧ ∃ u c, s = u ++ [c] ∧ isBreak c = true ∧ lineAfter false u = true) := by
  obtain ⟨u, c, rfl⟩ := s.eq_nil_or_concat.resolve_left hs
  have hc : isBreak c = true := by simpa [lineAfter_append, lineAfter] using h
  rcases u.eq_nil_or_concat with rfl | ⟨v, d, rfl⟩
  · exact .inl (by simp [chompOf, hc])
  · by_cases hd : isBreak d = true
    · exact .inl (by simp [chompOf, hc, hd])
    · refine .inr ⟨by simp [chompOf, hc, hd], v.concat d, c, by simp, hc, ?_⟩
      simpa [lineAfter_append, lineAfter] using hd

lemma exists_readBlock_ended {h : BlockHeader} (least : ℕ) (rest : List Char)
    (hfolded : h.folded = false) (hvisible : Visible s) (hcv : isVisible c = true)
    (hc : isBreak c = true) (hline : lineAfter false s = true) :
    ∃ b : Block, ∃ i' l', b.text.reverse = s ∧ b.last = [c] ∧
      readBlock h least (some n) false i l 0 .empty (literalBody n true s ++ c :: rest) =
        readBlock h least (some n) false i' l' 0 b rest := by
  obtain ⟨b, i', l', k', hwhole, hlast, -, hread⟩ := exists_readBlock_lines (h := h) (n := n)
    (i := i) (l := l) (k := 0) (b := .empty) least (c :: rest) hfolded hvisible false
    (fun _ => rfl) (by simp)
  obtain ⟨b', htext, hin, -, hbreak⟩ := readBlock_break h least (some n) (i := i') (l := l')
    (k := k') (b := b) (s := rest) hcv hc true
  obtain ⟨hl, hm⟩ := hlast hline
  rw [hline] at hread
  refine ⟨b', i' + 1, l' + 1, ?_, (hin rfl).1, hread.trans hbreak⟩
  simpa [htext, Block.whole_eq, hl, hm, Block.empty] using hwhole

lemma exists_readBlock_all (least : ℕ) (rest : List Char) (hs : s ≠ []) (hvisible : Visible s)
    (hint : Option ℕ) :
    ∃ b : Block, ∃ i' l', b.finish (chompOf s) = s ∧
      readBlock ⟨false, chompOf s, hint⟩ least (some n) false i l 0 .empty
          (literalBody n true s ++ (lastBreak s ++ rest)) =
        readBlock ⟨false, chompOf s, hint⟩ least (some n) false i' l' 0 b rest := by
  -- An open line gets a break of its own; of a closed one the break is the last of the
  -- lines, so that the lines before it are read by themselves.
  by_cases ht : lineAfter false s = true
  · obtain ⟨b, i', l', htext, -, hread⟩ := exists_readBlock_ended
      (h := ⟨false, chompOf s, hint⟩) (n := n) (i := i) (l := l) (c := '\n') least rest rfl hvisible
      (by decide) (by decide) ht
    rw [lastBreak, if_pos ht]
    refine ⟨b, i', l', ?_, hread⟩
    rw [chompOf_of_open ht, Block.finish, htext]
  · have ht' : lineAfter false s = false := by simpa using ht
    rw [lastBreak, if_neg ht]
    rcases chompOf_of_closed hs ht' with hkeep | ⟨hclip, u, c, rfl, hc, hu⟩
    · obtain ⟨b, i', l', k', hwhole, -, hcolumn, hread⟩ := exists_readBlock_lines
        (h := ⟨false, chompOf s, hint⟩) (n := n) (i := i) (l := l) (k := 0) (b := .empty) least rest
        rfl hvisible false (fun _ => rfl) (by simp)
      obtain rfl := hcolumn ht'
      rw [ht'] at hread
      refine ⟨b, i', l', ?_, hread⟩
      rw [hkeep]
      exact hwhole.trans (by simp [Block.whole_eq, Block.empty])
    · obtain ⟨hu', hcv⟩ := visible_append.mp hvisible
      obtain ⟨b, i', l', htext, hlast, hread⟩ := exists_readBlock_ended
        (h := ⟨false, chompOf (u ++ [c]), hint⟩) (n := n) (i := i) (l := l) least rest rfl hu'
        (visible_cons.mp hcv).1 hc hu
      have hbody : literalBody n true (u ++ [c]) = literalBody n true u ++ [c] := by
        rw [literalBody_append]
        simp [literalBody, hc]
      refine ⟨b, i', l', ?_, ?_⟩
      · rw [hclip, Block.finish, htext, hlast]
      · simpa [hbody] using hread

lemma readBlock_end {h : BlockHeader} {b : Block} (hline : Line level X) (hlevel : level < n) :
    readBlock h least (some n) false i l 0 b (indented level X) =
      .ok (b.finish h.chomp, ⟨X, i + level.toNat, l, level.toNat⟩) := by
  rw [indented, readBlock_spaces (by simp; omega), Nat.zero_add]
  cases hline with
  | nothing => rfl
  | something m hsolid =>
    have hlt : (m : ℤ).toNat < n := by omega
    exact readBlock_dedent hsolid.unbroken hsolid.unblank hlt

lemma readBlock_shown {h : BlockHeader} (hleast : least ≤ n)
    (hs : s ≠ []) (hvisible : Visible s) (hhint : needsHint s = false) :
    readBlock h least none false i l 0 .empty (literalBody n true s ++ rest) =
      readBlock h least (some n) false i l 0 .empty (literalBody n true s ++ rest) := by
  obtain ⟨c, s, rfl⟩ := List.exists_cons_of_ne_nil hs
  have hcv := hvisible c List.mem_cons_self
  simp only [needsHint, List.head?_cons, Option.any_some, Bool.or_eq_false_iff,
    beq_eq_false_iff_ne] at hhint
  obtain ⟨hspace, hc⟩ := hhint
  simp only [literalBody, hc, Bool.false_eq_true, if_false, if_true, List.append_assoc,
    List.cons_append]
  rw [readBlock_spaces (by simp), readBlock_spaces (by simp),
    readBlock_start hcv hc (by simp [Block.empty, hleast]) (by simp [hspace]),
    readBlock_start hcv hc (by simp) (by simp)]

/-- **A text written line by line is read back,** whatever line comes after it that is indented
less. -/
theorem exists_readBlock_literal (hs : s ≠ []) (hvisible : Visible s)
    (hleast : least ≤ n) (hint : Option ℕ) (hline : Line level X) (hlevel : level < n) :
    ∃ i' l', readBlock ⟨false, chompOf s, hint⟩ least (if needsHint s then some n else none) false
        i l 0 .empty (literalBody n true s ++ (lastBreak s ++ indented level X)) =
      .ok (s, ⟨X, i', l', level.toNat⟩) := by
  obtain ⟨b, i', l', hfinish, hread⟩ :=
    exists_readBlock_all (n := n) (i := i) (l := l) least (indented level X) hs hvisible hint
  have hknown : readBlock ⟨false, chompOf s, hint⟩ least (if needsHint s then some n else none)
      false i l 0 .empty (literalBody n true s ++ (lastBreak s ++ indented level X)) =
      readBlock ⟨false, chompOf s, hint⟩ least (some n) false i l 0 .empty
        (literalBody n true s ++ (lastBreak s ++ indented level X)) := by
    cases hhint : needsHint s with
    | true => rfl
    | false => exact readBlock_shown hleast hs hvisible hhint
  exact ⟨_, _, by rw [hknown, hread, readBlock_end hline hlevel, hfinish]⟩

end Text

end LogWatch.Yaml
