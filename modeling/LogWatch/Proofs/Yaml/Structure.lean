import Mathlib
import LogWatch.Proofs.Yaml.Scanning

/-!
What is written of values is scanned to their tokens.

A key, an item, a value and an entry are each scanned from the line on which they begin to the line
after them. A mapping within a mapping is open when the line after it is reached; that line is
indented less, so the mapping may as well be closed before.
-/

namespace LogWatch.Yaml

/-! ### Tokens of values -/

def itemTokens : List String → List Token
  | [] => []
  | t :: ts => .blockEntry :: textToken t :: itemTokens ts

mutual

/-- The tokens of a value that stands after a key. -/
def valueTokens : Value → List Token
  | .null => [.scalar "null".toList .plain]
  | .number k => [.scalar (Nat.toDigits 10 k) .plain]
  | .text t => [textToken t]
  | .list [] => [.flowSequenceStart, .flowSequenceEnd]
  | .list ts => itemTokens ts
  | .mapping [] => [.flowMappingStart, .flowMappingEnd]
  | .mapping es => .blockMappingStart :: (entryTokens es ++ [.blockEnd])

def entryTokens : List (String × Value) → List Token
  | [] => []
  | (k, v) :: es => .key :: textToken k :: .value :: (valueTokens v ++ entryTokens es)

end

namespace Scanner

variable {b b' : Blocks} {c : Cursor} {ka : Bool} {s : Scanner} {rest X : List Char} {level : ℤ}
  {n m : ℕ} {t : Token}

/-! ### Colons, dashes and question marks -/

lemma insertIdx_length_append {α : Type} (xs ys : List α) (y : α) :
    (xs ++ ys).insertIdx xs.length y = xs ++ y :: ys := by
  induction xs with
  | nil => simp
  | cons x xs ih => simp [ih]

lemma roll_ofBlocks {key? : Option PossibleKey} (ts : List Token) (n : ℕ) :
    (ofBlocks (b.add ts) c ka key?).roll n b.tokens.length .blockMappingStart =
      ofBlocks ((b.enter n).add ts) c ka key? := by
  have hflow : (ofBlocks (b.add ts) c ka key?).flow = 0 := rfl
  have hindent : (ofBlocks (b.add ts) c ka key?).indent = b.indent := rfl
  unfold roll Blocks.enter
  simp only [hflow, hindent, gt_iff_lt, Nat.lt_irrefl, decide_false, Bool.false_or,
    decide_eq_true_eq]
  split
  · rfl
  · simp [ofBlocks, insertIdx_length_append]

/-- The colon after a key makes it one. -/
lemma value_ofBlocks (c' : Cursor) :
    (ofBlocks (b.add [t]) c' false (some (keyAt b c))).value =
      .ok (ofBlocks ((b.enter c.column).add [.key, t, .value]) (c'.skip 1) false none) := by
  -- the token of the key comes before the text that has turned out to be one
  have hinsert : (b.tokens ++ [t]).toArray.insertIdxIfInBounds b.tokens.length Token.key =
      (b.tokens ++ [.key, t]).toArray := by
    simp [insertIdx_length_append]
  have hkey : (⟨c', 0, b.indent, b.indents, false, [none],
      (b.tokens ++ [t]).toArray.insertIdxIfInBounds b.tokens.length Token.key⟩ : Scanner) =
      ofBlocks (b.add [.key, t]) c' false none := by
    rw [hinsert]
    rfl
  have hvalue : (ofBlocks (b.add [t]) c' false (some (keyAt b c))).value =
      .ok (((((⟨c', 0, b.indent, b.indents, false, [none],
        (b.tokens ++ [t]).toArray.insertIdxIfInBounds b.tokens.length Token.key⟩ : Scanner).roll
          c.column b.tokens.length .blockMappingStart).allowKey false).take 1 .value)) := rfl
  rw [hvalue, hkey, roll_ofBlocks, allowKey_ofBlocks, take, push_ofBlocks, atCursor_ofBlocks,
    Blocks.add_add]
  rfl

lemma solid_colon : Solid ':' := by decide
lemma solid_dash : Solid '-' := by decide
lemma solid_question : Solid '?' := by decide

lemma leads_value (h : AtColon b c t rest s) (hblank : startsBlank rest = true)
    (hb : b.indent ≤ c.column) : ∃ c', c'.rest = rest ∧ c.column < c'.column ∧
      s.Leads (ofBlocks ((b.enter c.column).add [.key, t, .value]) c' false none) := by
  obtain ⟨c', rfl, hrest, hline, hcolumn, hindex⟩ := h
  refine ⟨c'.skip 1, by simp [Cursor.skip, hrest], by simp [Cursor.skip]; omega, ?_⟩
  have hsettles : (ofBlocks (b.add [t]) c' false (some (keyAt b c))).skipToToken.dropStale =
      .ok (ofBlocks (b.add [t]) c' false (some (keyAt b c))) := by
    rw [skipToToken_ofBlocks, hrest, toToken_solid solid_colon, ← hrest]
    exact dropStale_of_fresh hline.le hindex
  have hlevel : (b.add [t]).indent ≤ (c'.column : ℤ) := by
    rw [Blocks.indent_add]
    omega
  refine leads_of_next hsettles hrest ?_ ?_
  · rw [unroll_ofBlocks, cursor_ofBlocks, Blocks.unroll_of_le hlevel, ← value_ofBlocks]
    simp [next, startsMarker, hblank]
  · simp [Cursor.skip, hrest]

/-! ### Keys and items -/

lemma leads_simpleKey {k : String} (hsimple : isSimpleKey k = true) (hn : 0 < m)
    (h : Poised b n (inlineText m k ++ ':' :: rest) s) (hblank : startsBlank rest = true)
    (hb : b.indent ≤ n) : ∃ c', c'.rest = rest ∧ n < c'.column ∧
      s.Leads (ofBlocks ((b.enter n).add [.key, textToken k, .value]) c' false none) := by
  obtain ⟨s', hleads, c, hcolumn, hcolon⟩ := h.leads
    (P := fun s' => ∃ c : Cursor, c.column = n ∧ AtColon b c (textToken k) rest s') hb
    fun c hrest hcolumn => (yields_key hsimple hn hrest hblank (hcolumn ▸ hb)).imp
      fun s' hs' => ⟨c, hcolumn, hs'⟩
  obtain ⟨c', hrest, hright, hvalue⟩ := leads_value hcolon hblank (hcolumn ▸ hb)
  rw [hcolumn] at hright hvalue
  exact ⟨c', hrest, hright, hleads.trans hvalue⟩

/-- What a question mark, a dash or a colon at the start of a line comes to. -/
def AfterMark (b : Blocks) (n : ℕ) (rest : List Char) (s : Scanner) : Prop :=
  ∃ c, s = ofBlocks b c true none ∧ c.rest = rest ∧ c.column = n + 1

lemma yields_mark {x : Char} (hx : Solid x) (hrest : c.rest = x :: rest) (hcolumn : c.column = n)
    (hnext : (ofBlocks b c true none).next x rest = .ok ((ofBlocks b' c true none).take 1 t)) :
    Yields b c true (AfterMark (b'.add [t]) n rest) := by
  rw [take, push_ofBlocks, atCursor_ofBlocks, cursor_ofBlocks] at hnext
  refine ⟨x, rest, _, hrest, hx, hnext, ?_, c.skip 1, rfl, ?_, ?_⟩
  · simp [Cursor.skip, hrest]
  · simp [Cursor.skip, hrest]
  · simp [Cursor.skip, hcolumn]

lemma roll_mark (hcolumn : c.column = n) :
    (ofBlocks b c true none).roll (ofBlocks b c true none).cursor.column
      (ofBlocks b c true none).tokens.size .blockMappingStart =
        ofBlocks (b.enter n) c true none := by
  have hsize : (ofBlocks b c true none).tokens.size = b.tokens.length := by simp [ofBlocks]
  have hroll : (ofBlocks (b.add []) c true none).roll n b.tokens.length .blockMappingStart =
      ofBlocks ((b.enter n).add []) c true none := roll_ofBlocks [] n
  rw [Blocks.add_nil, Blocks.add_nil] at hroll
  rw [hsize, cursor_ofBlocks, hcolumn, hroll]

lemma yields_question (hrest : c.rest = '?' :: rest) (hcolumn : c.column = n)
    (hblank : startsBlank rest = true) :
    Yields b c true (AfterMark ((b.enter n).add [.key]) n rest) := by
  refine yields_mark solid_question hrest hcolumn ?_
  have hnext : (ofBlocks b c true none).next '?' rest = (ofBlocks b c true none).key := by
    simp [next, startsMarker, hblank]
  rw [hnext, key, roll_mark hcolumn]
  rfl

lemma yields_colon (hrest : c.rest = ':' :: rest) (hcolumn : c.column = n)
    (hblank : startsBlank rest = true) :
    Yields b c true (AfterMark ((b.enter n).add [.value]) n rest) := by
  refine yields_mark solid_colon hrest hcolumn ?_
  have hnext : (ofBlocks b c true none).next ':' rest = (ofBlocks b c true none).value := by
    simp [next, startsMarker, hblank]
  have hvalue : ∀ s, (ofBlocks b c true none).roll (ofBlocks b c true none).cursor.column
      (ofBlocks b c true none).tokens.size .blockMappingStart = s →
      (ofBlocks b c true none).value = .ok ((s.allowKey (s.flow == 0)).take 1 .value) := by
    rintro s rfl
    rfl
  exact hnext.trans (hvalue _ (roll_mark hcolumn))

lemma yields_dash (hrest : c.rest = '-' :: rest) (hcolumn : c.column = n)
    (hblank : startsBlank rest = true) (hb : b.indent = n) :
    Yields b c true (AfterMark (b.add [.blockEntry]) n rest) := by
  refine yields_mark solid_dash hrest hcolumn ?_
  have hmarker : startsMarker ('-' :: rest) = false := by
    cases rest with
    | nil => rfl
    | cons d rest =>
      have hd : d ≠ '-' := by
        rintro rfl
        cases hblank
      unfold startsMarker
      split <;> simp_all
  have hnext : (ofBlocks b c true none).next '-' rest = (ofBlocks b c true none).blockEntry := by
    simp [next, hmarker, hblank]
  -- the items stand in the column of the mapping around them, so nothing is opened
  have hroll : (ofBlocks b c true none).roll (ofBlocks b c true none).cursor.column
      (ofBlocks b c true none).tokens.size .blockSequenceStart = ofBlocks b c true none := by
    have hle : ((ofBlocks b c true none).cursor.column : ℤ) ≤ (ofBlocks b c true none).indent := by
      rw [cursor_ofBlocks, hcolumn]
      exact hb.ge
    rw [roll, if_pos (Bool.or_eq_true _ _ ▸ .inr (decide_eq_true hle))]
  rw [hnext, blockEntry, hroll]
  rfl

lemma leads_markedText {k : String}
    (h : AfterMark b n (' ' :: (textLines (n + 2) k ++ indented level X)) s) (hb : b.indent = n)
    (hline : Line level X) (hlevel : level ≤ n) :
    ∃ s', s.Leads s' ∧ Poised (b.add [textToken k]) level X s' := by
  obtain ⟨c, rfl, hrest, hcolumn⟩ := h
  refine leads_of_space hrest (by omega) (yields_text rfl ?_ (by omega) hline (hb ▸ hlevel) ?_)
  · rw [hb]
    push_cast
    ring
  · simp only [hb, hcolumn]
    push_cast
    omega

lemma leads_questionKey {k : String}
    (h : Poised b n ('?' :: ' ' :: (textLines (n + 2) k ++ indented n (':' :: rest))) s)
    (hblank : startsBlank rest = true) (hb : b.indent ≤ n) : ∃ c', c'.rest = rest ∧ n < c'.column ∧
      s.Leads (ofBlocks ((b.enter n).add [.key, textToken k, .value]) c' true none) := by
  have hindent := Blocks.indent_enter hb
  obtain ⟨s₁, hleads₁, hmark⟩ := h.leads hb fun c hrest hcolumn => yields_question hrest hcolumn rfl
  obtain ⟨s₂, hleads₂, hpoised⟩ := leads_markedText hmark hindent (.something n solid_colon) le_rfl
  obtain ⟨s₃, hleads₃, c, rfl, hrest, hcolumn⟩ := hpoised.leads hindent.le
    fun c hrest hcolumn => yields_colon hrest hcolumn hblank
  refine ⟨c, hrest, by omega, ?_⟩
  have hopen : (n : ℤ) ≤ (((b.enter n).add [.key]).add [textToken k]).indent := hindent.ge
  rw [Blocks.enter_of_le hopen, Blocks.add_add, Blocks.add_add] at hleads₃
  exact (hleads₁.trans hleads₂).trans hleads₃

/-! ### Brackets -/

/-- A scanner behind an opening bracket. -/
def inBrackets (b : Blocks) (c : Cursor) : Scanner :=
  ⟨c, 1, b.indent, b.indents, true, [none, none], b.tokens.toArray⟩

lemma openFlow_ofBlocks (t : Token) :
    (ofBlocks b c false none).openFlow t = .ok (inBrackets (b.add [t]) (c.skip 1)) := by
  have hopen : (ofBlocks b c false none).openFlow t =
      .ok { ((ofBlocks b c true none).push t).atCursor (c.skip 1) with
        flow := 1, keys := [none, none] } := rfl
  rw [hopen, push_ofBlocks]
  rfl

lemma closeFlow_inBrackets (t : Token) :
    (inBrackets b c).closeFlow t = .ok (ofBlocks (b.add [t]) (c.skip 1) false none) := by
  have hclose : (inBrackets b c).closeFlow t =
      .ok (((ofBlocks b c false none).push t).atCursor (c.skip 1)) := rfl
  rw [hclose, push_ofBlocks]
  rfl

lemma leads_brackets {x y : Char} {t t' : Token} (hx : Solid x) (hy : Solid y)
    (hopen : ∀ s rest, next s x rest = s.openFlow t)
    (hclose : ∀ s rest, next s y rest = s.closeFlow t')
    (hrest : c.rest = ' ' :: x :: y :: '\n' :: indented level X) (hb : b.indent ≤ c.column)
    (hline : Line level X) :
    ∃ s', (ofBlocks b c false none).Leads s' ∧ Poised (b.add [t, t']) level X s' := by
  obtain ⟨c₁, hc₁⟩ : ∃ c₁ : Cursor,
      c₁ = ⟨y :: '\n' :: indented level X, c.index + 1 + 1, c.line, c.column + 1 + 1⟩ := ⟨_, rfl⟩
  have hrest₁ : c₁.rest = y :: '\n' :: indented level X := by rw [hc₁]
  have hfirst : Yields b ⟨x :: y :: '\n' :: indented level X, c.index + 1, c.line, c.column + 1⟩
      false (· = inBrackets (b.add [t]) c₁) := by
    refine ⟨x, y :: '\n' :: indented level X, _, rfl, hx, ?_, by simp [inBrackets, hc₁], rfl⟩
    rw [hopen, openFlow_ofBlocks, hc₁]
    rfl
  obtain ⟨s₁, hleads₁, hs₁⟩ := leads_of_space hrest hb hfirst
  have hsettles : (inBrackets (b.add [t]) c₁).skipToToken.dropStale =
      .ok (inBrackets (b.add [t]) c₁) := by
    have hskip : (inBrackets (b.add [t]) c₁).skipToToken = inBrackets (b.add [t]) c₁ := by
      have htoken : toToken true true false c₁.index c₁.line c₁.column c₁.rest = (c₁, true) := by
        rw [hrest₁, toToken_solid hy, ← hrest₁]
      unfold skipToToken inBrackets
      simp only [gt_iff_lt, Nat.zero_lt_one, decide_true, htoken]
    rw [hskip]
    rfl
  have hsecond : (inBrackets (b.add [t]) c₁).Leads
      (ofBlocks (b.add [t, t']) (c₁.skip 1) false none) := by
    refine leads_of_next hsettles hrest₁ ?_ ?_
    · have hunroll : (inBrackets (b.add [t]) c₁).unroll (inBrackets (b.add [t]) c₁).cursor.column =
          inBrackets (b.add [t]) c₁ := rfl
      rw [hunroll, hclose, closeFlow_inBrackets, Blocks.add_add]
      rfl
    · simp [inBrackets, Cursor.skip, hrest₁]
  rw [hs₁] at hleads₁
  refine ⟨_, hleads₁.trans hsecond, poised_of_break hline ?_ (lapses_none _)⟩
  simp [Cursor.skip, hrest₁]

/-! ### Lines -/

/-- Lines are scanned from one block to another: whatever line comes after them that is not indented
further than `n`, they begin with such a line, and from there the scanner comes to the one after. -/
def ScansTo (n : ℕ) (w : List Char) (b b' : Blocks) : Prop :=
  ∀ level X, Line level X → level ≤ n → ∃ level' X', w ++ indented level X = indented level' X' ∧
    Line level' X' ∧ level' ≤ n ∧
    ∀ s, Poised b level' X' s → ∃ s', s.Leads s' ∧ Poised b' level X s'

lemma ScansTo.nil (n : ℕ) (b : Blocks) : ScansTo n [] b b :=
  fun level X hline hlevel => ⟨level, X, rfl, hline, hlevel, fun s hs => ⟨s, .refl s, hs⟩⟩

lemma ScansTo.append {w w' : List Char} {b b' b'' : Blocks} (h : ScansTo n w b b')
    (h' : ScansTo n w' b' b'') : ScansTo n (w ++ w') b b'' := by
  intro level X hline hlevel
  obtain ⟨level₁, X₁, heq₁, hline₁, hlevel₁, hscans₁⟩ := h' level X hline hlevel
  obtain ⟨level₂, X₂, heq₂, hline₂, hlevel₂, hscans₂⟩ := h level₁ X₁ hline₁ hlevel₁
  refine ⟨level₂, X₂, by rw [List.append_assoc, heq₁, heq₂], hline₂, hlevel₂, fun s hs => ?_⟩
  obtain ⟨s₁, hleads₁, hs₁⟩ := hscans₂ s hs
  obtain ⟨s₂, hleads₂, hs₂⟩ := hscans₁ s₁ hs₁
  exact ⟨s₂, hleads₁.trans hleads₂, hs₂⟩

lemma scansTo_of_line {w : List Char} {b b' : Blocks} {x : Char} (hx : Solid x)
    (h : ∀ level X, Line level X → level ≤ n → ∀ s, Poised b n (x :: (w ++ indented level X)) s →
      ∃ s', s.Leads s' ∧ Poised b' level X s') : ScansTo n (spaces n ++ x :: w) b b' :=
  fun level X hline hlevel => ⟨n, x :: (w ++ indented level X), by simp [indented],
    .something n hx, le_rfl, h level X hline hlevel⟩

lemma scansTo_items (ts : List String) (hb : b.indent = n) :
    ScansTo n (itemLines n ts) b (b.add (itemTokens ts)) := by
  induction ts generalizing b with
  | nil =>
    rw [itemTokens, Blocks.add_nil]
    exact .nil n b
  | cons t ts ih =>
    have hitem : ScansTo n (spaces n ++ '-' :: ' ' :: textLines (n + 2) t) b
        (b.add [.blockEntry, textToken t]) := by
      refine scansTo_of_line solid_dash fun level X hline hlevel s hs => ?_
      obtain ⟨s₁, hleads₁, hmark⟩ := hs.leads hb.le fun c hrest hcolumn =>
        yields_dash hrest hcolumn rfl hb
      obtain ⟨s₂, hleads₂, hpoised⟩ := leads_markedText hmark hb hline hlevel
      rw [Blocks.add_add] at hpoised
      exact ⟨s₂, hleads₁.trans hleads₂, hpoised⟩
    have hrest := hitem.append (ih (b := b.add [.blockEntry, textToken t]) hb)
    rw [Blocks.add_add] at hrest
    simpa [itemLines, itemTokens] using hrest

/-! ### Values -/

lemma isPlain_null : IsPlain "null".toList := by
  constructor <;> simp [isVisible, isBreak, hasIndicator, hasIndicator.startsMarkerText,
    startIndicators, holdsIndicator]

lemma isPlain_toDigits (k : ℕ) : IsPlain (Nat.toDigits 10 k) :=
  isPlain_of_digits Nat.toDigits_ne_nil fun _ hc =>
    Nat.isDigit_of_mem_toDigits (by decide) (by decide) hc

lemma exists_keyLines (n : ℕ) (k : String) : ∃ x w, keyLines n k = x :: w ∧ Solid x := by
  by_cases hsimple : isSimpleKey k = true
  · have hlines : keyLines n k = inlineText (n + 2) k ++ [':'] := if_pos hsimple
    obtain ⟨x, w, s', hrest, hx, -⟩ := yields_key (b := ⟨-1, [], []⟩)
      (c := ⟨keyLines n k, 0, 0, 0⟩) hsimple (Nat.succ_pos (n + 1)) hlines rfl (by simp)
    exact ⟨x, w, hrest, hx⟩
  · exact ⟨'?', _, if_neg hsimple, solid_question⟩

/-- A key with its colon; after one on lines of its own another key may start. -/
lemma leads_keyLines {k : String} (h : Poised b n (keyLines n k ++ rest) s)
    (hblank : startsBlank rest = true) (hb : b.indent ≤ n) : ∃ c' ka, c'.rest = rest ∧
      n < c'.column ∧ (isSimpleKey k = true → ka = false) ∧
      s.Leads (ofBlocks ((b.enter n).add [.key, textToken k, .value]) c' ka none) := by
  by_cases hsimple : isSimpleKey k = true
  · have hlines : keyLines n k ++ rest = inlineText (n + 2) k ++ ':' :: rest := by
      simp [keyLines, hsimple]
    obtain ⟨c', hrest, hright, hleads⟩ :=
      leads_simpleKey hsimple (Nat.succ_pos (n + 1)) (hlines ▸ h) hblank hb
    exact ⟨c', false, hrest, hright, fun _ => rfl, hleads⟩
  · have hlines : keyLines n k ++ rest =
        '?' :: ' ' :: (textLines (n + 2) k ++ indented n (':' :: rest)) := by
      simp [keyLines, hsimple, indented]
    obtain ⟨c', hrest, hright, hleads⟩ := leads_questionKey (hlines ▸ h) hblank hb
    exact ⟨c', true, hrest, hright, fun hk => absurd hk hsimple, hleads⟩

lemma startsBlank_valueLines (n : ℕ) (v : Value) (rest : List Char) :
    startsBlank (valueLines n v ++ rest) = true := by
  rcases v with _ | _ | _ | (_ | _) | (_ | _) <;> simp [valueLines, startsBlank, isBlank, isBreak]

mutual

lemma leads_valueLines {b : Blocks} {c : Cursor} {ka : Bool} {n : ℕ} {level : ℤ} {X : List Char}
    (v : Value) (hfits : v.Fits) (hrest : c.rest = valueLines n v ++ indented level X)
    (hline : Line level X) (hlevel : level ≤ n) (hb : b.indent = n) (hcolumn : n < c.column)
    (hplace : ka = false ∨ ∃ t, v = .text t) :
    ∃ s', (ofBlocks b c ka none).Leads s' ∧ Poised (b.add (valueTokens v)) level X s' := by
  have hopen : b.indent ≤ c.column := by omega
  have hright : b.indent < ((c.column + 1 : ℕ) : ℤ) := by omega
  have hclosed : level ≤ b.indent := hb ▸ hlevel
  match v with
  | .null =>
    rw [valueLines, List.cons_append, List.append_assoc] at hrest
    exact leads_of_space hrest hopen (yields_plain_line isPlain_null rfl hline hclosed hright)
  | .number k =>
    rw [valueLines, List.cons_append, List.append_assoc] at hrest
    exact leads_of_space hrest hopen
      (yields_plain_line (isPlain_toDigits k) rfl hline hclosed hright)
  | .text t =>
    rw [valueLines, List.cons_append] at hrest
    refine leads_of_space hrest hopen (yields_text rfl ?_ (by omega) hline hclosed hright)
    rw [hb]
    push_cast
    ring
  | .list [] =>
    obtain rfl := hplace.resolve_right (by simp)
    exact leads_brackets (by decide) (by decide) (by simp [next, startsMarker])
      (by simp [next, startsMarker]) hrest hopen hline
  | .mapping [] =>
    obtain rfl := hplace.resolve_right (by simp)
    exact leads_brackets (by decide) (by decide) (by simp [next, startsMarker])
      (by simp [next, startsMarker]) hrest hopen hline
  | .list (t :: ts) =>
    obtain ⟨level', X', hlines, hline', -, hscans⟩ :=
      scansTo_items (t :: ts) hb level X hline hlevel
    simp only [valueLines, List.cons_append, hlines] at hrest
    exact hscans _ (poised_of_break hline' hrest (lapses_none _))
  | .mapping (e :: es) =>
    -- the entries stand deeper, and the line after the last one closes their mapping
    have hdeeper : b.indent < ((n + 2 : ℕ) : ℤ) := by omega
    obtain ⟨level', X', hlines, hline', -, hscans⟩ :=
      scansTo_entries (e :: es) hfits hdeeper.le (by simp) level X hline (by omega)
    simp only [valueLines, List.cons_append, hlines] at hrest
    obtain ⟨s', hleads, hs'⟩ := hscans _ (poised_of_break hline' hrest (lapses_none _))
    rw [Blocks.enter_of_lt hdeeper] at hs'
    have hbelow : level < ((n + 2 : ℕ) : ℤ) := by omega
    have hinside : Poised ⟨(n + 2 : ℕ), b.indent :: b.indents,
        b.tokens ++ [.blockMappingStart] ++ entryTokens (e :: es)⟩ level X s' := hs'
    have hend := hinside.close hbelow
    refine ⟨s', hleads, ?_⟩
    simpa [valueTokens, Blocks.add] using hend

lemma scansTo_entries {b : Blocks} {n : ℕ} (es : List (String × Value)) (hfits : EntriesFit es)
    (hb : b.indent ≤ n) (hopen : es = [] → b.indent = n) :
    ScansTo n (entryLines n es) b ((b.enter n).add (entryTokens es)) := by
  match es with
  | [] =>
    rw [Blocks.enter_of_le (hopen rfl).ge, entryTokens, Blocks.add_nil]
    exact .nil n b
  | (k, v) :: es =>
    obtain ⟨hkey, hvalue, hrest⟩ := hfits
    have hindent := Blocks.indent_enter hb
    obtain ⟨x, w, hlines, hx⟩ := exists_keyLines n k
    have hentry : ScansTo n (spaces n ++ x :: (w ++ valueLines n v)) b
        ((b.enter n).add (.key :: textToken k :: .value :: valueTokens v)) := by
      refine scansTo_of_line hx fun level X hline hlevel s hs => ?_
      have hs' : Poised b n (keyLines n k ++ (valueLines n v ++ indented level X)) s := by
        simpa [hlines] using hs
      obtain ⟨c, ka, hrest, hcolumn, hsimple, hleads⟩ :=
        leads_keyLines hs' (startsBlank_valueLines n v _) hb
      have hplace : ka = false ∨ ∃ t, v = .text t := by
        by_cases hk : isSimpleKey k = true
        · exact .inl (hsimple hk)
        · exact .inr (hkey (by simpa using hk))
      obtain ⟨s', hleads', hpoised⟩ := leads_valueLines v hvalue hrest hline hlevel
        (b := (b.enter n).add [.key, textToken k, .value]) hindent hcolumn hplace
      rw [Blocks.add_add] at hpoised
      exact ⟨s', hleads.trans hleads', hpoised⟩
    -- the first entry has opened the mapping for those that follow
    obtain ⟨b', hb'⟩ :
        ∃ b', b' = (b.enter n).add (.key :: textToken k :: .value :: valueTokens v) := ⟨_, rfl⟩
    have hindent' : b'.indent = n := by rw [hb', Blocks.indent_add, hindent]
    have htail := scansTo_entries es hrest hindent'.le fun _ => hindent'
    rw [Blocks.enter_of_le hindent'.ge, hb', Blocks.add_add] at htail
    have hall := hentry.append htail
    simpa [entryLines, entryTokens, hlines] using hall

end

end Scanner

/-- **What is written of a mapping is scanned to its tokens.** -/
theorem scan_render {es : List (String × Value)} (hfits : EntriesFit es) (hne : es ≠ []) :
    Token.scan (render es) = .ok (.blockMappingStart :: (entryTokens es ++ [.blockEnd])) := by
  obtain ⟨w, hw⟩ : ∃ w, w = entryLines 0 es := ⟨_, rfl⟩
  have hvisible : Visible w := hw ▸ visible_entryLines 0 es
  have hmark : (w.head? == some byteOrderMark) = false := by
    refine beq_eq_false_iff_ne.mpr fun hhead => ?_
    have hseen := hvisible _ (List.mem_of_mem_head? hhead)
    exact absurd hseen (by decide)
  have hallowed : w.all isAllowed = true :=
    List.all_eq_true.mpr fun c hc => isAllowed_of_isVisible (hvisible c hc)
  obtain ⟨level, X, heq, hline, hlevel, hscans⟩ :=
    Scanner.scansTo_entries (b := ⟨-1, [], []⟩) (n := 0) es hfits (by simp) (fun h => absurd h hne)
      (-1) [] .nothing (by simp)
  have hcolumn : level.toNat = 0 := by omega
  have hwX : w = X := by simpa [hw, indented, hcolumn, spaces] using heq
  obtain ⟨s', ⟨k, hk, hrun⟩, hpoised⟩ := hscans (Scanner.start w)
    (Scanner.poised_of_start (c := .start w) hline hwX hcolumn.symm (Scanner.lapses_none _))
  -- a step for each character, and one more for the end
  have hsteps : k ≤ w.length := by
    have hle : k + s'.cursor.rest.length ≤ w.length := hk
    omega
  have htokens : (Scanner.start w).run (w.length + 1) =
      .ok (.blockMappingStart :: (entryTokens es ++ [.blockEnd])).toArray := by
    have hend := hpoised.finish (w.length - k)
    rw [← hrun, show w.length - k + 1 + k = w.length + 1 by omega] at hend
    rw [hend, Blocks.enter_of_lt (by simp)]
    simp only [Blocks.add]
    rw [Blocks.unroll_close (by simp), Blocks.unroll_of_le (by simp)]
    simp
  rw [Token.scan, toList_render hfits, ← hw]
  simp only [hmark, hallowed, htokens, Bool.false_eq_true, if_false, Bool.not_true, bind,
    Except.bind]
  rfl

end LogWatch.Yaml
