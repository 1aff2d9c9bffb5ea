import Mathlib
import LogWatch.Event.Progress
import LogWatch.Proofs.Event.Circuit

/-!
What a request makes of the lines it is shown, whatever the order in which it is fed,
observed and asked for its labels.

A request is satisfied exactly when its event holds under the valuation in which a pattern has
happened once some line held it, lines after the satisfying one included: the meaning of an
event is monotone, so nothing is lost by taking no notice of them. The labels of a line are the
patterns that it is the first to hold, from left to right, up to the line that satisfies the
event; those of observed lines are kept until they are taken.
-/

namespace LogWatch

/-- The valuation under which exactly the patterns have happened that some line holds. -/
def seen (lines : List String) (p : String) : Bool :=
  lines.any fun line => decide (p.toList <:+: line.toList)

@[simp] lemma seen_nil : seen [] = fun _ => false := rfl

lemma seen_append (lines more : List String) (p : String) :
    seen (lines ++ more) p = (seen lines p || seen more p) := by
  simp [seen]

lemma seen_singleton (line p : String) : seen [line] p = Text.occurs p.toList line.toList := by
  rw [Bool.eq_iff_iff]
  simp [seen, Text.occurs_iff]

lemma seen_mono {lines more : List String} (h : lines <+: more) (p : String)
    (hp : seen lines p = true) : seen more p = true := by
  obtain ⟨rest, rfl⟩ := h
  rw [seen_append, hp, Bool.true_or]

namespace Event

/-! ### The meaning of an event -/

lemma holds_congr {v w : String → Bool} {e : Event} (h : ∀ p ∈ e.patterns, v p = w p) :
    e.holds v = e.holds w := by
  induction e with
  | pattern p => simpa [patterns, holds] using h
  | and l r ihl ihr | or l r ihl ihr =>
    simp only [patterns, List.forall_mem_append] at h
    simp only [holds, ihl h.1, ihr h.2]

lemma holds_mono {v w : String → Bool} (h : ∀ p, v p = true → w p = true) {e : Event}
    (he : e.holds v = true) : e.holds w = true := by
  induction e with
  | pattern p => exact h p he
  | and l r ihl ihr =>
    simp only [holds, Bool.and_eq_true] at he ⊢
    exact ⟨ihl he.1, ihr he.2⟩
  | or l r ihl ihr =>
    simp only [holds, Bool.or_eq_true] at he ⊢
    exact he.imp ihl ihr

@[simp] lemma holds_dark (e : Event) : (e.holds fun _ => false) = false := by
  induction e <;> simp [holds, *]

lemma holds_seen_mono {lines more : List String} (h : lines <+: more) {e : Event}
    (he : e.holds (seen lines) = true) : e.holds (seen more) = true :=
  holds_mono (seen_mono h) he

/-! ### The labels of a line -/

/-- The number of the first line after which the event holds, or that of no line. -/
def turn (e : Event) (lines : List String) : ℕ :=
  (List.range lines.length).findIdx fun k => e.holds (seen (lines.take (k + 1)))

/-- The labels of line `i`: up to the line that satisfies the event, the patterns from left to
right that this line holds and none before it does. -/
def labelsAt (e : Event) (lines : List String) (i : ℕ) : List String :=
  if i ≤ e.turn lines then
    e.patterns.filter fun p => seen lines[i]?.toList p && !seen (lines.take i) p
  else []

/-- The labels of a line after the lines `before`. -/
def news (e : Event) (before : List String) (line : String) : List String :=
  if e.holds (seen before) then []
  else e.patterns.filter fun p => !seen before p && Text.occurs p.toList line.toList

lemma le_turn_iff {e : Event} {lines : List String} {i : ℕ} (hi : i < lines.length) :
    i ≤ e.turn lines ↔ e.holds (seen (lines.take i)) = false := by
  cases i with
  | zero => simp
  | succ k =>
    rw [turn, Nat.succ_le_iff, List.lt_findIdx_iff]
    simp only [List.length_range, List.getElem_range, exists_prop]
    constructor
    · intro h
      exact h.2 k le_rfl
    · intro h
      refine ⟨by omega, fun j hj => ?_⟩
      -- an event that has happened stays so, which the line after it would have to undo
      by_contra hc
      have hprefix : lines.take (j + 1) <+: lines.take (k + 1) :=
        List.take_prefix_take_left (by omega)
      rw [holds_seen_mono hprefix (by simpa using hc)] at h
      exact absurd h (by decide)

lemma labelsAt_eq_news (e : Event) {lines : List String} {i : ℕ} (hi : i < lines.length) :
    e.labelsAt lines i = e.news (lines.take i) lines[i] := by
  have hturn := le_turn_iff (e := e) hi
  unfold labelsAt news
  cases he : e.holds (seen (lines.take i)) with
  | true => rw [if_neg (by simp [hturn, he])]; rfl
  | false =>
    rw [if_pos (hturn.mpr he), List.getElem?_eq_getElem hi]
    simp only [Option.toList_some, seen_singleton, Bool.and_comm, Bool.false_eq_true, if_false]

lemma labelsAt_append (e : Event) {lines : List String} {i : ℕ} (hi : i < lines.length)
    (more : List String) : e.labelsAt (lines ++ more) i = e.labelsAt lines i := by
  rw [labelsAt_eq_news e hi, labelsAt_eq_news e (by simp; omega),
    List.take_append_of_le_length (by omega), List.getElem_append_left hi]

lemma labelsAt_length (e : Event) (before : List String) (line : String) :
    e.labelsAt (before ++ [line]) before.length = e.news before line := by
  rw [labelsAt_eq_news e (by simp)]
  simp

/-- The labels of all lines so far are some of the patterns that have happened, each leaf of the
event giving at most one. -/
lemma subperm_labels (e : Event) (lines : List String) (n : ℕ) (hn : n ≤ lines.length) :
    ((List.range n).flatMap (e.labelsAt lines)).Subperm
      (e.patterns.filter (seen (lines.take n))) := by
  induction n with
  | zero => simp
  | succ n ih =>
    have hn' : n < lines.length := by omega
    have hseen : ∀ p, seen (lines.take (n + 1)) p =
        (seen (lines.take n) p || Text.occurs p.toList lines[n].toList) := by
      intro p
      rw [List.take_succ_eq_append_getElem hn', seen_append, seen_singleton]
    -- what this line gives had not happened before, so it was not given by an earlier one
    have hnow : (e.labelsAt lines n).Subperm
        ((e.patterns.filter (seen (lines.take (n + 1)))).filter (!seen (lines.take n) ·)) := by
      rw [labelsAt_eq_news e hn', news, List.filter_filter]
      split
      · exact List.nil_subperm
      · refine List.Sublist.subperm (List.monotone_filter_right _ fun p hp => ?_)
        simp_all
    have hbefore : e.patterns.filter (seen (lines.take n)) =
        (e.patterns.filter (seen (lines.take (n + 1)))).filter (seen (lines.take n)) := by
      rw [List.filter_filter]
      refine List.filter_congr fun p _ => ?_
      rw [hseen]
      cases seen (lines.take n) p <;> simp
    rw [List.range_succ, List.flatMap_append, List.flatMap_singleton]
    refine (ih (by omega)).append hnow |>.trans ?_
    rw [hbefore]
    exact (List.filter_append_perm _ _).subperm

end Event

namespace Progress

/-! ### One line -/

/-- Where a request stands after it was shown `lines`: once satisfied it is left as it is, and
until then its circuit is that of its event with the leaves lit that some line lights. -/
structure Tracks (e : Event) (lines : List String) (p : Progress) : Prop where
  satisfied_eq : p.satisfied = e.holds (seen lines)
  gates_eq : p.satisfied = false → p.gates.toList = e.gatesFrom (seen lines) 0
  size_eq : p.values.size = p.gates.size

variable {e : Event} {lines : List String} {p : Progress}

lemma tracks_start (e : Event) : Tracks e [] (start e) where
  satisfied_eq := by
    simp only [satisfied, start, seen_nil, Event.holds_dark]
    rw [Array.back?_eq_getElem?, Array.getElem?_replicate]
    split <;> rfl
  gates_eq _ := by simp [start, Event.toList_circuit]
  size_eq := by simp [start]

lemma Tracks.with_labels (h : Tracks e lines p) (labels : List String) :
    Tracks e lines { p with labels } :=
  ⟨h.satisfied_eq, h.gates_eq, h.size_eq⟩

lemma feed_frozen {line : String} (h : p.satisfied = true) : p.feed line = (p, []) := by
  simp [feed, h]

lemma feed_dark {line : String} (h : p.lit line = []) : p.feed line = (p, []) := by
  simp [feed, h]

lemma feed_lit {line : String} (hsat : p.satisfied = false) (h : p.lit line ≠ []) :
    p.feed line =
      ({ p with
          gates := p.gates.map (·.light line.toList)
          values := settle (p.gates.map (·.light line.toList)) p.values }, p.lit line) := by
  simp [feed, hsat, h]

lemma observe_eq (p : Progress) (line : String) :
    p.observe line = ({ (p.feed line).1 with labels := p.labels ++ (p.feed line).2 },
      (p.feed line).1.satisfied) := by
  cases h : p.satisfied <;> simp [observe, feed, h]
  rfl

lemma lit_eq (h : Tracks e lines p) (hsat : p.satisfied = false) (line : String) :
    p.lit line =
      e.patterns.filter fun p => !seen lines p && Text.occurs p.toList line.toList := by
  rw [lit, h.gates_eq hsat]
  exact Event.filterMap_lights? line.toList (seen lines) 0 e

/-- A line that lights no leaf changes nothing that the event could notice. -/
lemma seen_eq_of_dark {line : String}
    (hdark : (e.patterns.filter fun p => !seen lines p && Text.occurs p.toList line.toList) = []) :
    ∀ p ∈ e.patterns, seen (lines ++ [line]) p = seen lines p := by
  intro p hp
  have := List.filter_eq_nil_iff.mp hdark p hp
  rw [seen_append, seen_singleton]
  cases hs : seen lines p <;> simp_all

lemma Tracks.feed (h : Tracks e lines p) (line : String) :
    Tracks e (lines ++ [line]) (p.feed line).1 ∧ (p.feed line).2 = e.news lines line := by
  cases hsat : p.satisfied with
  | true =>
    have he : e.holds (seen lines) = true := h.satisfied_eq ▸ hsat
    -- from here on the flags stay behind the lines, which only an unsatisfied event forbids
    have hmore := Event.holds_seen_mono (List.prefix_append lines [line]) he
    rw [feed_frozen hsat, Event.news, if_pos he]
    exact ⟨⟨by rw [hsat, hmore], by simp [hsat], h.size_eq⟩, rfl⟩
  | false =>
    have he : e.holds (seen lines) = false := h.satisfied_eq ▸ hsat
    have hlit := lit_eq h hsat line
    rw [Event.news, if_neg (by simp [he]), ← hlit]
    by_cases hempty : p.lit line = []
    · have hsame := seen_eq_of_dark (hlit ▸ hempty)
      rw [feed_dark hempty]
      refine ⟨⟨?_, fun _ => ?_, h.size_eq⟩, hempty.symm⟩
      · rw [hsat, Event.holds_congr hsame, he]
      · rw [Event.gatesFrom_congr hsame, h.gates_eq hsat]
    · have hgates : (p.gates.map (·.light line.toList)).toList =
          e.gatesFrom (seen (lines ++ [line])) 0 := by
        rw [Array.toList_map, h.gates_eq hsat, Event.map_light]
        exact Event.gatesFrom_congr (by simp [seen_append, seen_singleton]) 0
      rw [feed_lit hsat hempty]
      refine ⟨⟨?_, fun _ => hgates, by simp [h.size_eq]⟩, rfl⟩
      exact Event.back_settle hgates (by simp [h.size_eq])

lemma Tracks.observe (h : Tracks e lines p) (line : String) :
    Tracks e (lines ++ [line]) (p.observe line).1 ∧
      (p.observe line).1.labels = p.labels ++ e.news lines line ∧
      (p.observe line).2 = e.holds (seen (lines ++ [line])) := by
  obtain ⟨hnext, hnews⟩ := h.feed line
  rw [observe_eq, hnews]
  exact ⟨hnext.with_labels _, rfl, hnext.satisfied_eq⟩

/-! ### Any sequence of steps -/

/-- What can be done with the progress of a request. -/
inductive Step where
  | feed (line : String)
  | observe (line : String)
  | take

/-- The line that a step shows. -/
def Step.line? : Step → Option String
  | feed line => some line
  | observe line => some line
  | take => none

def apply (p : Progress) : Step → Progress
  | .feed line => (p.feed line).1
  | .observe line => (p.observe line).1
  | .take => p.takeLabels.1

def run (p : Progress) (steps : List Step) : Progress := steps.foldl apply p

/-- The lines that steps show, fed or observed. -/
def linesOf (steps : List Step) : List String := steps.filterMap Step.line?

/-- The numbers of the lines that were observed after the labels were last taken, all lines
shown being counted from 0. -/
def untaken (steps : List Step) : List ℕ :=
  (steps.foldl (fun (count, kept) step =>
    match step with
    | .feed _ => (count + 1, kept)
    | .observe _ => (count + 1, kept ++ [count])
    | .take => (count, [])) (0, [])).2

lemma run_snoc (p : Progress) (steps : List Step) (step : Step) :
    p.run (steps ++ [step]) = (p.run steps).apply step := by
  simp [run]

@[simp] lemma linesOf_append (steps more : List Step) :
    linesOf (steps ++ more) = linesOf steps ++ linesOf more := by
  simp [linesOf]

@[simp] lemma linesOf_singleton (step : Step) : linesOf [step] = step.line?.toList := by
  cases step <;> rfl

lemma untaken_snoc (steps : List Step) (step : Step) :
    untaken (steps ++ [step]) =
      match step with
      | .feed _ => untaken steps
      | .observe _ => untaken steps ++ [(linesOf steps).length]
      | .take => [] := by
  -- the first part of the fold counts lines, and an observed line is noted by that count
  have hcount : ∀ steps : List Step, (steps.foldl (fun (count, kept) step =>
      match step with
      | .feed _ => (count + 1, kept)
      | .observe _ => (count + 1, kept ++ [count])
      | .take => (count, [])) ((0, []) : ℕ × List ℕ)).1 = (linesOf steps).length := by
    intro steps
    induction steps using List.reverseRecOn with
    | nil => rfl
    | append_singleton steps step ih =>
      rw [List.foldl_append, linesOf_append, List.length_append, ← ih]
      cases step <;> rfl
  rw [untaken, List.foldl_append]
  cases step
  · rfl
  · rw [← hcount]; rfl
  · rfl

lemma tracks_run (e : Event) (steps : List Step) :
    Tracks e (linesOf steps) ((start e).run steps) := by
  induction steps using List.reverseRecOn with
  | nil => exact tracks_start e
  | append_singleton steps step ih =>
    rw [run_snoc, linesOf_append]
    cases step with
    | feed line => exact (ih.feed line).1
    | observe line => exact (ih.observe line).1
    | take =>
      simp only [linesOf_singleton, Step.line?, Option.toList_none, List.append_nil]
      exact ih.with_labels []

lemma lt_of_mem_untaken (steps : List Step) : ∀ i ∈ untaken steps, i < (linesOf steps).length := by
  induction steps using List.reverseRecOn with
  | nil => simp [untaken]
  | append_singleton steps step ih =>
    intro i hi
    rw [untaken_snoc] at hi
    rw [linesOf_append, linesOf_singleton, List.length_append]
    cases step with
    | feed line => exact Nat.lt_succ_of_lt (ih i hi)
    | observe line =>
      rcases List.mem_append.mp hi with hi | hi
      · exact Nat.lt_succ_of_lt (ih i hi)
      · rw [List.mem_singleton.mp hi]
        exact Nat.lt_succ_self _
    | take => simp at hi

lemma untaken_labels_append (e : Event) (steps : List Step) (more : List String) :
    (untaken steps).flatMap (e.labelsAt (linesOf steps ++ more)) =
      (untaken steps).flatMap (e.labelsAt (linesOf steps)) :=
  List.flatMap_congr fun i hi => e.labelsAt_append (lt_of_mem_untaken steps i hi) more

lemma labels_run (e : Event) (steps : List Step) :
    ((start e).run steps).labels = (untaken steps).flatMap (e.labelsAt (linesOf steps)) := by
  induction steps using List.reverseRecOn with
  | nil => rfl
  | append_singleton steps step ih =>
    have htracks := tracks_run e steps
    rw [run_snoc, untaken_snoc, linesOf_append, linesOf_singleton]
    cases step with
    | feed line =>
      have hkeep : (((start e).run steps).feed line).1.labels = ((start e).run steps).labels := by
        by_cases hsat : ((start e).run steps).satisfied = true
        · rw [feed_frozen hsat]
        · by_cases hdark : ((start e).run steps).lit line = []
          · rw [feed_dark hdark]
          · rw [feed_lit (by simpa using hsat) hdark]
      rw [untaken_labels_append]
      exact hkeep.trans ih
    | observe line =>
      rw [List.flatMap_append, untaken_labels_append, List.flatMap_singleton]
      simp only [Step.line?, Option.toList_some, Event.labelsAt_length]
      rw [← ih]
      exact (htracks.observe line).2.1
    | take => rfl

/-- **Satisfaction is the meaning of the event** over all lines that were shown, and observing a
line answers with it. -/
theorem satisfied_run_eq_holds (e : Event) (steps : List Step) :
    ((start e).run steps).satisfied = e.holds (seen (linesOf steps)) ∧
      ∀ line, (((start e).run steps).observe line).2 =
        e.holds (seen (linesOf (steps ++ [.observe line]))) := by
  have htracks := tracks_run e steps
  refine ⟨htracks.satisfied_eq, fun line => ?_⟩
  rw [(htracks.observe line).2.2, linesOf_append]
  rfl

/-- **The labels reported are exact.** At every moment those kept are the labels of the lines
observed since they were last taken, a line that is fed is answered with its own, and over all
lines no leaf of the event is reported twice. -/
theorem labels_exact (e : Event) (steps : List Step) :
    (∀ later, ((start e).run steps).labels =
        (untaken steps).flatMap (e.labelsAt (linesOf (steps ++ later)))) ∧
      (∀ line later, (((start e).run steps).feed line).2 =
        e.labelsAt (linesOf (steps ++ .feed line :: later)) (linesOf steps).length) ∧
      ((List.range (linesOf steps).length).flatMap (e.labelsAt (linesOf steps))).Subperm
        e.patterns := by
  refine ⟨fun later => ?_, fun line later => ?_, ?_⟩
  · rw [linesOf_append, untaken_labels_append]
    exact labels_run e steps
  · have hsplit : linesOf (steps ++ .feed line :: later) =
        (linesOf steps ++ [line]) ++ linesOf later := by
      simp [linesOf, Step.line?]
    rw [((tracks_run e steps).feed line).2, hsplit, Event.labelsAt_append _ (by simp),
      Event.labelsAt_length]
  · exact (e.subperm_labels _ _ le_rfl).trans List.filter_sublist.subperm

/-- The label of a branch that came to nothing is reported, a line after the end is not. -/
example :
    (List.range 4).map
      ((Event.or (.and (.pattern "tx") (.pattern "seal")) (.pattern "peer")).labelsAt
        ["new tx", "tx", "1 peer", "seal"]) = [["tx"], [], ["peer"], []] := by decide

end Progress

end LogWatch
