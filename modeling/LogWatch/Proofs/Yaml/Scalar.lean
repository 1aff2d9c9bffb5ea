import Mathlib
import LogWatch.Yaml.Scalar
import LogWatch.Proofs.Yaml.Style

/-!
Lines, the gaps in a text that goes on over them, and plain texts.

A plain text is written as it is. Its reader goes on until something ends the text: a colon with a
blank after it, or a line that is not indented enough.
-/

namespace LogWatch.Yaml

/-! ### Lines -/

/-- Blanks at the start of a line. -/
def spaces (n : ℕ) : List Char := List.replicate n ' '

lemma unbroken_spaces (n : ℕ) : ∀ x ∈ spaces n, isBreak x = false := by
  intro x hx
  rw [List.eq_of_mem_replicate hx]
  exact isBreak_space

@[simp] lemma length_spaces (n : ℕ) : (spaces n).length = n := List.length_replicate

lemma spaces_succ (n : ℕ) : spaces (n + 1) = ' ' :: spaces n := rfl

/-- A character with which something begins after blanks. -/
structure Solid (c : Char) : Prop where
  unbroken : isBreak c = false
  unblank : isBlank c = false
  noComment : c ≠ '#'
  noMark : c ≠ byteOrderMark

instance : DecidablePred Solid := fun c =>
  decidable_of_iff (isBreak c = false ∧ isBlank c = false ∧ c ≠ '#' ∧ c ≠ byteOrderMark)
    ⟨fun ⟨h₁, h₂, h₃, h₄⟩ => ⟨h₁, h₂, h₃, h₄⟩, fun h => ⟨h.1, h.2, h.3, h.4⟩⟩

/-- What a line has behind its indentation, or the end of the text, which is at a level of its
own. -/
inductive Line : ℤ → List Char → Prop
  | something (n : ℕ) {c : Char} {s : List Char} (solid : Solid c) : Line n (c :: s)
  | nothing : Line (-1) []

/-- A line with its indentation. -/
def indented (level : ℤ) (s : List Char) : List Char := spaces level.toNat ++ s

/-! ### Gaps -/

namespace Gap

variable {g : Gap}

@[simp] lemma folded_none : Gap.none.folded = [] := rfl
@[simp] lemma broken_none : Gap.none.broken = false := rfl
@[simp] lemma isNone_none : Gap.none.isNone = true := rfl

lemma addBlank_of_unbroken (h : g.broken = false) (c : Char) :
    (g.addBlank c).broken = false ∧ (g.addBlank c).isNone = false ∧
      (g.addBlank c).folded = g.folded ++ [c] := by
  simp [addBlank, isNone, folded, h]

lemma addBlank_of_broken (h : g.broken = true) (c : Char) : g.addBlank c = g := by
  simp [addBlank, h]

end Gap

/-! ### Plain texts -/

section Plain

variable {ctx : PlainContext} {i l k : ℕ} {g : Gap} {text s tail : List Char} {b c : Char}

lemma readPlain_space :
    readPlain ctx i l k g text (' ' :: s) =
      readPlain ctx (i + 1) l (k + 1) (g.addBlank ' ') text s := by
  rw [readPlain]
  · simp [isBreak_space, isBlank_space]
  · intro s' h
    cases h

lemma readPlain_break (hr : c ≠ '\r') (hc : isBreak c = true) :
    readPlain ctx i l k g text (c :: s) =
      readPlain ctx (i + 1) (l + 1) 0 (g.addBreak c) text s := by
  rw [readPlain]
  · simp [hc]
  · intro s' h
    exact absurd h hr

lemma readPlain_visible (hflow : ctx.inFlow = false) (hbreak : isBreak c = false)
    (hblank : isBlank c = false) (hgap : g.isNone = false → c ≠ '#' ∧ ctx.indent ≤ k)
    (hmarker : k = 0 → startsMarker (c :: s) = false) (hcolon : c = ':' → startsBlank s = false) :
    readPlain ctx i l k g text (c :: s) =
      readPlain ctx (i + 1) l (k + 1) .none (c :: (g.folded.reverse ++ text)) s := by
  have hr : c ≠ '\r' := by
    rintro rfl
    simp [isBreak] at hbreak
  have hstays : (!g.isNone && (c == '#' || (!ctx.inFlow && decide (k < ctx.indent)))) = false := by
    cases hnone : g.isNone with
    | true => rfl
    | false =>
      obtain ⟨hsharp, hindent⟩ := hgap hnone
      simp [hsharp, hflow, hindent]
  have hplace : (k == 0 && startsMarker (c :: s)) = false := by
    by_cases hk : k = 0
    · simp [hmarker hk]
    · simp [hk]
  have hends : plainEnds ctx c s = false := by
    by_cases hc : c = ':'
    · simp [plainEnds, hflow, hcolon hc]
    · simp [plainEnds, hflow, hc]
  have hfault : plainColonFault ctx c s = false := by simp [plainColonFault, hflow]
  rw [readPlain]
  · simp [hbreak, hblank, hstays, hplace, hends, hfault]
  · intro s' h
    exact absurd h hr

lemma startsBlank_of_append (h : s ≠ []) : startsBlank (s ++ tail) = startsBlank s := by
  cases s with
  | nil => exact absurd rfl h
  | cons c s => rfl

/-- What does not look like structure is read as it is, up to whatever follows. -/
lemma readPlain_append (hflow : ctx.inFlow = false) (hvisible : Visible s)
    (hunbroken : ∀ c ∈ s, isBreak c = false) (hs : s ≠ []) (hlast : s.getLast? ≠ some ' ')
    (hindicator : holdsIndicator b s = false) (hgap : g.broken = false)
    (hafter : g.isNone = false → isBlank b = true ∧ ctx.indent ≤ k) (hindent : ctx.indent ≤ k + 1)
    (hmarker : k = 0 → startsMarker (s ++ tail) = false) :
    readPlain ctx i l k g text (s ++ tail) =
      readPlain ctx (i + s.length) l (k + s.length) .none ((g.folded ++ s).reverse ++ text)
        tail := by
  induction s generalizing b i k g text with
  | nil => exact absurd rfl hs
  | cons c s ih =>
    obtain ⟨hcv, hrest⟩ := visible_cons.mp hvisible
    have hcb := hunbroken c List.mem_cons_self
    have hrest' := fun x hx => hunbroken x (List.mem_cons_of_mem c hx)
    simp only [holdsIndicator, Bool.or_eq_false_iff] at hindicator
    obtain ⟨⟨hcolon, hsharp⟩, hholds⟩ := hindicator
    have hmore : s ≠ [] → s.getLast? ≠ some ' ' := by
      intro hne
      obtain ⟨d, s', rfl⟩ := List.exists_cons_of_ne_nil hne
      rwa [List.getLast?_cons_cons] at hlast
    have hplace : k = 0 → startsMarker (c :: (s ++ tail)) = false := hmarker
    rw [List.cons_append]
    -- the text does not end with a space, so something closes the gap
    by_cases hspace : c = ' '
    · subst hspace
      have hne : s ≠ [] := by
        rintro rfl
        simp at hlast
      obtain ⟨hbroken, hnone, hfolded⟩ := Gap.addBlank_of_unbroken hgap ' '
      rw [readPlain_space, ih hrest hrest' hne (hmore hne) hholds hbroken
        (fun _ => ⟨isBlank_space, by omega⟩) (by omega) (by omega), hfolded]
      simp [Nat.add_comm, Nat.add_left_comm]
    · have hblank : isBlank c = false := by simp [isBlank_of_isVisible hcv, hspace]
      rw [readPlain_visible hflow hcb hblank ?_ hplace ?_]
      · rcases s with _ | ⟨d, s⟩
        · simp
        · rw [ih hrest hrest' (by simp) (hmore (by simp)) hholds rfl (by simp) (by omega)
            (by omega)]
          simp [Nat.add_comm, Nat.add_left_comm]
      · intro hnone
        obtain ⟨hb, hk⟩ := hafter hnone
        refine ⟨?_, hk⟩
        rintro rfl
        simp [hb] at hsharp
      · rintro rfl
        rcases s with _ | ⟨d, s⟩
        · simp [startsBlank] at hcolon
        · simpa [startsBlank] using hcolon

lemma readPlain_colon (hflow : ctx.inFlow = false) (hk : 0 < k) (hs : startsBlank s = true) :
    readPlain ctx i l k .none text (':' :: s) =
      .ok ⟨text.reverse, false, ⟨':' :: s, i, l, k⟩⟩ := by
  have hcolon : isBreak ':' = false ∧ isBlank ':' = false := by decide
  have hends : plainEnds ctx ':' s = true := by simp [plainEnds, hs]
  have hfault : plainColonFault ctx ':' s = false := by simp [plainColonFault, hflow]
  rw [readPlain]
  · simp [hcolon.1, hcolon.2, hk.ne', hends, hfault]
  · intro s' h
    cases h

lemma readPlain_spaces (hg : g.broken = true) (n : ℕ) :
    readPlain ctx i l k g text (spaces n ++ s) = readPlain ctx (i + n) l (k + n) g text s := by
  induction n generalizing i k with
  | zero => rfl
  | succ n ih =>
    rw [spaces_succ, List.cons_append, readPlain_space, Gap.addBlank_of_broken hg, ih]
    simp only [Nat.add_assoc, Nat.add_comm 1]

lemma readPlain_end {level : ℤ} (hflow : ctx.inFlow = false) (hline : Line level s)
    (hlevel : level < ctx.indent) :
    readPlain ctx i l k .none text ('\n' :: indented level s) =
      .ok ⟨text.reverse, true, ⟨s, i + 1 + level.toNat, l + 1, level.toNat⟩⟩ := by
  rw [readPlain_break (by decide) (by decide), indented, readPlain_spaces (by rfl), Nat.zero_add]
  cases hline with
  | nothing => rfl
  | something n hsolid =>
    rename_i c s'
    -- the gap holds a break and the line is indented too little to go on
    have hends : (!(Gap.none.addBreak '\n').isNone &&
        (c == '#' || (!ctx.inFlow && decide ((n : ℤ).toNat < ctx.indent)))) = true := by
      have hlt : n < ctx.indent := by omega
      simp [Gap.addBreak, Gap.none, Gap.isNone, hflow, hlt]
    rw [readPlain]
    · simp only [hsolid.unbroken, hsolid.unblank, hends, Bool.false_eq_true, if_false, if_true]
      rfl
    · rintro s' rfl
      exact absurd hsolid.unbroken (by decide)

end Plain

end LogWatch.Yaml
