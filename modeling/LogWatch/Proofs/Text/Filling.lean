import Mathlib
import LogWatch.Text.Search

/-!
A text with holes, cut where it is filled.

Holes are looked for from left to right, each after the one before, and this cuts a text into pieces
in one way only. Filling the holes puts the pieces together again with the filling between them,
whatever the filling looks like; so it can be read back if there is a hole at all.
-/

namespace LogWatch.Text

variable {hole text s s' rest rest' t : List Char} {c : Char} {pieces others : List (List Char)}

/-- A text cut at its holes. Before each of them there is none, not even one that overlaps it: the
hole is found at its end only. -/
inductive Cut (hole : List Char) : List Char → List (List Char) → Prop
  | last {s : List Char} (none : ¬ hole <:+: s) : Cut hole s [s]
  | next {s rest : List Char} {pieces : List (List Char)} (first : ¬ hole <:+: s ++ hole.dropLast)
      (more : Cut hole rest pieces) : Cut hole (s ++ hole ++ rest) (s :: pieces)

lemma cut_iff : Cut hole t pieces ↔ (¬ hole <:+: t ∧ pieces = [t]) ∨
    ∃ s rest more, t = s ++ hole ++ rest ∧ ¬ hole <:+: s ++ hole.dropLast ∧
      Cut hole rest more ∧ pieces = s :: more := by
  constructor
  · rintro (none | ⟨first, more⟩)
    · exact .inl ⟨none, rfl⟩
    · exact .inr ⟨_, _, _, rfl, first, more, rfl⟩
  · rintro (⟨none, rfl⟩ | ⟨s, rest, more, rfl, first, hmore, rfl⟩)
    · exact .last none
    · exact .next first hmore

/-! ### One cut for each text -/

lemma prefix_of_dropLast (hole s rest : List Char) : s ++ hole.dropLast <+: s ++ hole ++ rest := by
  have hhole := List.dropLast_prefix hole
  rw [List.append_assoc, List.prefix_append_right_inj]
  exact hhole.trans (List.prefix_append _ _)

lemma length_le_of_first (first : ¬ hole <:+: s ++ hole.dropLast)
    (h : s ++ hole ++ rest = s' ++ hole ++ rest') : s.length ≤ s'.length := by
  by_contra hlt
  refine first ?_
  have hbefore : s' ++ hole <+: s ++ hole ++ rest := ⟨rest', h.symm⟩
  have hprefix : s' ++ hole <+: s ++ hole.dropLast := by
    refine List.prefix_of_prefix_length_le hbefore (prefix_of_dropLast hole s rest) ?_
    simp only [List.length_append, List.length_dropLast]
    omega
  exact (List.suffix_append s' hole).isInfix.trans hprefix.isInfix

lemma Cut.unique (h : Cut hole t pieces) (h' : Cut hole t others) : pieces = others := by
  induction h generalizing others with
  | @last t none =>
    rcases cut_iff.mp h' with ⟨-, rfl⟩ | ⟨s, rest, more, rfl, -⟩
    · rfl
    · exact absurd (List.infix_append s hole rest) none
  | @next s rest pieces first more ih =>
    rcases cut_iff.mp h' with ⟨none, -⟩ | ⟨s', rest', more', heq, first', hmore', rfl⟩
    · exact absurd (List.infix_append s hole rest) none
    -- neither first hole stands before the other
    · have hlength : s.length = s'.length :=
        le_antisymm (length_le_of_first first heq) (length_le_of_first first' heq.symm)
      rw [List.append_assoc, List.append_assoc] at heq
      obtain ⟨rfl, hrest⟩ := List.append_inj heq hlength
      obtain rfl := List.append_cancel_left hrest
      rw [ih hmore']

lemma Cut.at_hole (hhole : hole ≠ []) (h : Cut hole rest pieces) :
    Cut hole (hole ++ rest) ([] :: pieces) := by
  refine .next (s := []) (fun hinfix => ?_) h
  have hlong := hinfix.length_le
  have hpos := List.length_pos_of_ne_nil hhole
  simp only [List.nil_append, List.length_dropLast] at hlong
  omega

lemma Cut.exists_cons (h : Cut hole t pieces) (hhere : ¬ hole <+: c :: t) :
    ∃ more, Cut hole (c :: t) more := by
  cases h with
  | last none =>
    refine ⟨_, .last fun hinfix => ?_⟩
    exact (List.infix_cons_iff.mp hinfix).elim hhere none
  | @next s rest pieces first more =>
    refine ⟨_, .next (s := c :: s) (fun hinfix => ?_) more⟩
    refine (List.infix_cons_iff.mp hinfix).elim (fun hprefix => hhere ?_) first
    exact hprefix.trans (prefix_of_dropLast hole (c :: s) rest)

lemma exists_cut (hhole : hole ≠ []) (t : List Char) : ∃ pieces, Cut hole t pieces := by
  induction hlength : t.length using Nat.strong_induction_on generalizing t with
  | _ n ih =>
    subst hlength
    -- a hole is taken as a whole, any other character by itself
    by_cases hhere : hole <+: t
    · obtain ⟨rest, rfl⟩ := hhere
      have hshort : rest.length < (hole ++ rest).length := by
        rw [List.length_append]
        exact Nat.lt_add_of_pos_left (List.length_pos_of_ne_nil hhole)
      obtain ⟨pieces, hcut⟩ := ih _ hshort rest rfl
      exact ⟨_, hcut.at_hole hhole⟩
    · cases t with
      | nil => exact ⟨[[]], .last (by simpa using hhole)⟩
      | cons c t =>
        obtain ⟨pieces, hcut⟩ := ih _ (Nat.lt_succ_self _) t rfl
        exact hcut.exists_cons hhere

/-- **Every text is cut at its holes in one way.** -/
theorem existsUnique_cut (hhole : hole ≠ []) (t : List Char) : ∃! pieces, Cut hole t pieces := by
  obtain ⟨pieces, hcut⟩ := exists_cut hhole t
  exact ⟨pieces, hcut, fun others h => h.unique hcut⟩

lemma Cut.ne_nil (h : Cut hole t pieces) : pieces ≠ [] := by
  cases h <;> simp

lemma Cut.two_le_length (h : Cut hole t pieces) (hthere : hole <:+: t) : 2 ≤ pieces.length := by
  cases h with
  | last none => exact absurd hthere none
  | next _ more => exact Nat.succ_le_succ (List.length_pos_of_ne_nil more.ne_nil)

/-! ### Filling -/

lemma intercalate_cons (hpieces : pieces ≠ []) :
    text.intercalate (s :: pieces) = s ++ text ++ text.intercalate pieces := by
  obtain ⟨p, more, rfl⟩ := List.exists_cons_of_ne_nil hpieces
  exact List.intercalate_cons_cons

lemma Cut.intercalate_eq (h : Cut hole t pieces) : hole.intercalate pieces = t := by
  induction h with
  | last none => exact List.intercalate_singleton
  | next first more ih => rw [intercalate_cons more.ne_nil, ih]

lemma fillFrom_skip (s rest : List Char) :
    fillFrom hole text s.length (s ++ rest) = fill hole text rest := by
  induction s with
  | nil => rfl
  | cons c s ih => exact ih

lemma fill_hole (hhole : hole ≠ []) :
    fill hole text (hole ++ rest) = text ++ fill hole text rest := by
  obtain ⟨c, s, rfl⟩ := List.exists_cons_of_ne_nil hhole
  have hhere : (c :: s).isPrefixOf (c :: (s ++ rest)) = true := by simp
  rw [fill, List.cons_append, fillFrom, if_pos hhere, List.length_cons, Nat.add_sub_cancel,
    fillFrom_skip]

lemma fill_cons (hhere : ¬ hole <+: c :: t) : fill hole text (c :: t) = c :: fill hole text t := by
  rw [fill, fillFrom, if_neg (by simpa using hhere)]
  rfl

lemma fill_of_none (hnone : ¬ hole <:+: t) : fill hole text t = t := by
  induction t with
  | nil => rfl
  | cons c t ih =>
    rw [List.infix_cons_iff, not_or] at hnone
    rw [fill_cons hnone.1, ih hnone.2]

lemma fill_first (hhole : hole ≠ []) (first : ¬ hole <:+: s ++ hole.dropLast) :
    fill hole text (s ++ hole ++ rest) = s ++ text ++ fill hole text rest := by
  induction s with
  | nil => exact fill_hole hhole
  | cons c s ih =>
    have hhere : ¬ hole <+: c :: (s ++ hole ++ rest) := by
      rintro ⟨rest', hrest'⟩
      have hle : (c :: s).length ≤ ([] : List Char).length := length_le_of_first first hrest'.symm
      simp at hle
    rw [List.cons_append, List.infix_cons_iff, not_or] at first
    rw [List.cons_append, List.cons_append, fill_cons hhere, ih first.2]
    rfl

/-- **Filling a text puts the filling where the holes were,** and looks at no filling again. -/
theorem fill_eq_intercalate (hhole : hole ≠ []) (h : Cut hole t pieces) (text : List Char) :
    fill hole text t = text.intercalate pieces := by
  induction h with
  | last none => rw [fill_of_none none, List.intercalate_singleton]
  | next first more ih => rw [fill_first hhole first, ih, intercalate_cons more.ne_nil]

/-! ### What can be read off a filled text -/

lemma infix_intercalate (hpieces : 2 ≤ pieces.length) : text <:+: text.intercalate pieces := by
  match pieces, hpieces with
  | p :: q :: more, _ =>
    rw [List.intercalate_cons_cons]
    exact List.infix_append p text _

lemma length_intercalate (text s : List Char) (pieces : List (List Char)) :
    (text.intercalate (s :: pieces)).length =
      (s :: pieces).flatten.length + pieces.length * text.length := by
  induction pieces generalizing s with
  | nil => simp
  | cons p pieces ih =>
    rw [List.intercalate_cons_cons, List.length_append, List.length_append, ih,
      List.flatten_cons (l := s), List.length_append, List.length_cons]
    ring

/-- Between the same pieces, different texts make different ones: of the same length they stand at
the same place. -/
lemma intercalate_inj (hpieces : 2 ≤ pieces.length)
    (h : text.intercalate pieces = t.intercalate pieces) : text = t := by
  match pieces, hpieces with
  | p :: q :: more, _ =>
    have hlengths := congrArg List.length h
    rw [length_intercalate, length_intercalate, Nat.add_left_cancel_iff] at hlengths
    have hlength := Nat.eq_of_mul_eq_mul_left (by simp) hlengths
    rw [List.intercalate_cons_cons, List.intercalate_cons_cons, List.append_assoc,
      List.append_assoc, List.append_cancel_left_eq] at h
    exact List.append_inj_left h hlength

end LogWatch.Text
