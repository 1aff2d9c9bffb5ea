import Mathlib
import LogWatch.Proofs.Request.Lone

/-!
Which lines a request gets to see.

A line is shown to a request that is still pending once what is due has expired, unless the line
had been written before. How far the request has come is a matter of the lines it was shown, and
these are all the lines meant for it up to the moment when it ends.
-/

namespace LogWatch

/-! ### Lines one after the other -/

namespace Progress

/-- Observes one line after the other. -/
def observeAll (p : Progress) (lines : List String) : Progress :=
  lines.foldl (fun p line => (p.observe line).1) p

lemma observeAll_append (p : Progress) (lines more : List String) :
    p.observeAll (lines ++ more) = (p.observeAll lines).observeAll more := by
  simp [observeAll, List.foldl_append]

@[simp] lemma observeAll_singleton (p : Progress) (line : String) :
    p.observeAll [line] = (p.observe line).1 := rfl

lemma observe_satisfied (p : Progress) (line : String) :
    (p.observe line).2 = (p.observe line).1.satisfied := by
  rw [observe_eq]
  rfl

lemma observeAll_of_satisfied {p : Progress} (h : p.satisfied = true) (lines : List String) :
    p.observeAll lines = p := by
  induction lines with
  | nil => rfl
  | cons line lines ih =>
    have hstep : (p.observe line).1 = p := by simp [observe, h]
    rw [← List.singleton_append, observeAll_append, observeAll_singleton, hstep, ih]

end Progress

/-- How a request for the event ends if it is shown these lines and nothing else happens. -/
def Event.verdict (e : Event) (lines : List String) : Option Outcome :=
  let p := (Progress.start e).observeAll lines
  if p.satisfied then some (.observed p.labels) else none

namespace Event

variable {e : Event}

/-- The outcome agrees with the lines shown: the request was observed on the last of them, or they
do not satisfy it. -/
structure Explains (e : Event) (lines : List String) (outcome : Option Outcome) : Prop where
  met : ∀ labels, outcome = some (.observed labels) →
    e.verdict lines = some (.observed labels) ∧ e.verdict lines.dropLast = none
  unmet : (∀ labels, outcome ≠ some (.observed labels)) → e.verdict lines = none

lemma verdict_eq_none {lines : List String} :
    e.verdict lines = none ↔ ((Progress.start e).observeAll lines).satisfied = false := by
  simp [verdict]

@[simp] lemma verdict_nil (e : Event) : e.verdict [] = none := by
  rw [verdict_eq_none]
  exact (Progress.tracks_start e).satisfied_eq.trans (by simp)

lemma verdict_mono {lines more : List String} {o : Outcome} (hpre : lines <+: more)
    (h : e.verdict lines = some o) : e.verdict more = some o := by
  obtain ⟨rest, rfl⟩ := hpre
  have hsat : ((Progress.start e).observeAll lines).satisfied = true := by
    by_contra hno
    rw [Bool.not_eq_true, ← verdict_eq_none] at hno
    rw [hno] at h
    exact Option.some_ne_none o h.symm
  rw [verdict, Progress.observeAll_append, Progress.observeAll_of_satisfied hsat]
  exact h

end Event

/-! ### What a lone request is shown -/

namespace Happening

/-- The line, with its end, that is read. -/
def line? : Happening → Option (String × Position)
  | line _ text lineEnd => some (text, lineEnd)
  | sweep _ | close _ => none

/-- What the clock shows at a line or a sweep. -/
def clock? : Happening → Option ℕ
  | line now _ _ | sweep now => some now
  | close _ => none

end Happening

namespace Lone

variable {a : Lone} {e : Event}

/-- The lines of what happens that were not written before the request was made. -/
def meant (a : Lone) (hs : List Happening) : List String :=
  ((hs.filterMap Happening.line?).filter fun x => !a.early x.2).map Prod.fst

/-- What a single happening shows to the request. -/
def shows (a : Lone) : Happening → List String
  | .line now text lineEnd =>
    if a.outcome.isNone && !a.due now && !a.early lineEnd then [text] else []
  | .sweep _ | .close _ => []

def shown (a : Lone) : List Happening → List String
  | [] => []
  | h :: hs => a.shows h ++ (a.step h).shown hs

lemma shown_append (a : Lone) (hs more : List Happening) :
    a.shown (hs ++ more) = a.shown hs ++ (a.run hs).shown more := by
  induction hs generalizing a with
  | nil => rfl
  | cons h hs ih => simp only [List.cons_append, shown, run_cons, ih, List.append_assoc]

lemma shown_of_outcome {o : Outcome} (h : a.outcome = some o) (hs : List Happening) :
    a.shown hs = [] := by
  induction hs with
  | nil => rfl
  | cons x hs ih => cases x <;> simpa [shown, shows, h, step_of_outcome h] using ih

lemma terms_step (a : Lone) (h : Happening) :
    (a.step h).deadline = a.deadline ∧ (a.step h).start = a.start := by
  unfold step
  split
  · exact ⟨rfl, rfl⟩
  · split
    · exact ⟨rfl, rfl⟩
    · split <;> exact ⟨rfl, rfl⟩
  · split <;> exact ⟨rfl, rfl⟩
  · exact ⟨rfl, rfl⟩

lemma due_step (a : Lone) (h : Happening) : (a.step h).due = a.due := by
  funext now
  rw [due, due, (a.terms_step h).1]

lemma early_step (a : Lone) (h : Happening) : (a.step h).early = a.early := by
  funext lineEnd
  rw [early, early, (a.terms_step h).2]

lemma meant_cons (a : Lone) (h : Happening) (hs : List Happening) :
    a.meant (h :: hs) = a.meant [h] ++ (a.step h).meant hs := by
  rw [meant, meant, meant, early_step, ← List.map_append, ← List.filter_append,
    ← List.filterMap_append, List.singleton_append]

/-- What is shown is meant, unless the request has ended. -/
lemma shows_eq_meant_or (a : Lone) (h : Happening) :
    a.shows h = a.meant [h] ∨ a.shows h = [] ∧ ∃ o, (a.step h).outcome = some o := by
  cases h with
  | sweep now => exact .inl rfl
  | close cause => exact .inl rfl
  | line now text lineEnd =>
    cases ho : a.outcome with
    | some o =>
      refine .inr ⟨by simp [shows, ho], o, ?_⟩
      rw [step_of_outcome ho, ho]
    | none =>
      cases hd : a.due now with
      | true => exact .inr ⟨by simp [shows, hd], .expired, by simp [step, ho, hd]⟩
      | false =>
        refine .inl ?_
        cases he : a.early lineEnd <;> simp [shows, meant, Happening.line?, ho, hd, he]

lemma shown_isPrefix (a : Lone) (hs : List Happening) : a.shown hs <+: a.meant hs := by
  induction hs generalizing a with
  | nil => exact List.prefix_rfl
  | cons h hs ih =>
    rw [shown, meant_cons]
    rcases shows_eq_meant_or a h with heq | ⟨hnil, o, ho⟩
    · rw [heq]
      exact (List.prefix_append_right_inj _).mpr (ih _)
    · rw [hnil, shown_of_outcome ho]
      exact List.nil_prefix

lemma shown_eq_meant {hs : List Happening} (h : (a.run hs).outcome = none) :
    a.shown hs = a.meant hs := by
  induction hs generalizing a with
  | nil => rfl
  | cons x hs ih =>
    rw [shown, meant_cons, ih h]
    rcases shows_eq_meant_or a x with heq | ⟨-, o, ho⟩
    · rw [heq]
    · rw [run_cons, run_of_outcome ho, ho] at h
      exact absurd h (by simp)

/-! ### The lines shown settle the outcome -/

/-- The request has observed just these lines, and its outcome is in keeping with them. -/
structure Watched (e : Event) (lines : List String) (a : Lone) : Prop where
  progress : a.progress = (Progress.start e).observeAll lines
  explained : e.Explains lines a.outcome

lemma watched_begin (e : Event) (deadline : Option ℕ) (start : Option Position) :
    Watched e [] (begin e deadline start) :=
  ⟨rfl, fun labels h => by simp [begin] at h, fun _ => Event.verdict_nil e⟩

variable {lines : List String}

lemma Watched.verdict_of_open (h : Watched e lines a) (hopen : a.outcome = none) :
    e.verdict lines = none :=
  h.explained.unmet (by simp [hopen])

lemma Watched.end (h : Watched e lines a) (hopen : a.outcome = none) {o : Outcome}
    (ho : ∀ labels, o ≠ .observed labels) : Watched e lines { a with outcome := some o } :=
  ⟨h.progress, fun labels heq => absurd (Option.some.inj heq) (ho labels),
    fun _ => h.verdict_of_open hopen⟩

lemma Watched.observe (h : Watched e lines a) (hopen : a.outcome = none) (text : String) :
    Watched e (lines ++ [text]) { a with
      progress := (a.progress.observe text).1
      outcome := if (a.progress.observe text).2
        then some (.observed (a.progress.observe text).1.labels) else none } := by
  have hprogress : (a.progress.observe text).1 =
      (Progress.start e).observeAll (lines ++ [text]) := by
    rw [Progress.observeAll_append, ← h.progress, Progress.observeAll_singleton]
  rw [Progress.observe_satisfied, hprogress]
  refine ⟨rfl, fun labels hlabels => ⟨hlabels, ?_⟩, fun hno => ?_⟩
  · rw [List.dropLast_concat]
    exact h.verdict_of_open hopen
  · rw [Event.verdict_eq_none]
    by_contra hsat
    exact hno _ (if_pos (Bool.eq_true_of_not_eq_false hsat))

lemma Watched.step (h : Watched e lines a) (x : Happening) :
    Watched e (lines ++ a.shows x) (a.step x) := by
  -- an outcome is final, and with one nothing is shown
  cases ho : a.outcome with
  | some o =>
    have hnil : a.shows x = [] := by cases x <;> simp [shows, ho]
    rwa [hnil, List.append_nil, step_of_outcome ho]
  | none =>
    cases x with
    | sweep now =>
      simp only [shows, List.append_nil, Lone.step, ho]
      split
      · exact h.end ho fun labels => by simp
      · exact h
    | close cause =>
      simp only [shows, List.append_nil, Lone.step, ho]
      exact h.end ho fun labels => by simp
    | line now text lineEnd =>
      cases hd : a.due now with
      | true =>
        simp only [shows, Lone.step, ho, hd, Bool.not_true, Bool.and_false, Bool.false_and,
          Bool.false_eq_true, if_false, if_true, List.append_nil]
        exact h.end ho fun labels => by simp
      | false =>
        cases hearly : a.early lineEnd with
        | true => simpa [shows, Lone.step, ho, hd, hearly] using h
        | false =>
          simp only [shows, Lone.step, ho, hd, hearly, Option.isNone_none, Bool.not_false,
            Bool.and_true, Bool.false_eq_true, if_false, if_true]
          exact h.observe ho text

lemma Watched.run (h : Watched e lines a) (hs : List Happening) :
    Watched e (lines ++ a.shown hs) (a.run hs) := by
  induction hs generalizing a lines with
  | nil => simpa [shown] using h
  | cons x hs ih =>
    rw [shown, ← List.append_assoc]
    exact ih (h.step x)

lemma outcome_run_of_spared {hs : List Happening}
    (hspared : ∀ h ∈ hs, ∃ now, h.clock? = some now ∧ a.due now = false)
    (ha : a.outcome = none ∨ ∃ labels, a.outcome = some (.observed labels)) :
    (a.run hs).outcome = none ∨ ∃ labels, (a.run hs).outcome = some (.observed labels) := by
  induction hs generalizing a with
  | nil => exact ha
  | cons x hs ih =>
    obtain ⟨now, hclock, hdue⟩ := hspared x List.mem_cons_self
    refine ih (fun h hh => ?_) ?_
    · obtain ⟨now, hclock, hdue⟩ := hspared h (List.mem_cons_of_mem _ hh)
      exact ⟨now, hclock, by rw [due_step]; exact hdue⟩
    -- an outcome that is there stays; without one only the closing could bring another
    · rcases ha with ho | ⟨labels, ho⟩
      · cases x with
        | close cause => simp [Happening.clock?] at hclock
        | sweep t =>
          obtain rfl := Option.some.inj hclock
          exact .inl (by simp [Lone.step, ho, hdue])
        | line t text lineEnd =>
          obtain rfl := Option.some.inj hclock
          cases hearly : a.early lineEnd with
          | true => exact .inl (by simp [Lone.step, ho, hdue, hearly])
          | false =>
            cases hmet : (a.progress.observe text).2 with
            | false => exact .inl (by simp [Lone.step, ho, hdue, hearly, hmet])
            | true =>
              exact .inr ⟨(a.progress.observe text).1.labels,
                by simp [Lone.step, ho, hdue, hearly, hmet]⟩
      · exact .inr ⟨labels, by rw [step_of_outcome ho, ho]⟩

lemma outcome_eq_verdict (e : Event) (deadline : Option ℕ) (start : Option Position)
    {hs : List Happening}
    (hspared : ∀ h ∈ hs, ∃ now, h.clock? = some now ∧ (begin e deadline start).due now = false) :
    ((begin e deadline start).run hs).outcome =
      e.verdict ((begin e deadline start).meant hs) := by
  have hwatched := (watched_begin e deadline start).run hs
  rw [List.nil_append] at hwatched
  rcases outcome_run_of_spared hspared (.inl rfl) with hnone | ⟨labels, hlabels⟩
  · rw [hnone, ← shown_eq_meant hnone, hwatched.verdict_of_open hnone]
  · rw [hlabels, Event.verdict_mono (shown_isPrefix _ hs) (hwatched.explained.met labels hlabels).1]

end Lone

/-! ### What a request in a ledger is shown -/

lemma Lone.isNone_step_sweep (a : Lone) (now : ℕ) :
    (a.step (.sweep now)).outcome.isNone = (a.outcome.isNone && !a.due now) := by
  cases ho : a.outcome <;> cases hd : a.due now <;> simp [Lone.step, ho, hd]

namespace Ledger

/-- The line, with its end, that an operation dispatches. -/
def Op.line? (op : Op) : Option (String × Position) := op.happening?.bind Happening.line?

/-- What a single operation shows to the request numbered `id`: a line is shown to what has not
expired by then and is not later than the line. -/
def shows (l : Ledger) (id : ℕ) : Op → List String
  | .dispatch now text lineEnd =>
    ((l.expire now).1.pending.filter fun r => r.id = id && !r.predates lineEnd).map fun _ => text
  | _ => []

def shownTo (l : Ledger) (id : ℕ) : List Op → List String
  | [] => []
  | op :: ops => l.shows id op ++ (l.apply op).shownTo id ops

variable {id : ℕ} {l : Ledger} {a : Lone}

lemma Sound.filter_id (h : Sound l) {r : Request} (hr : r ∈ l.pending) :
    (l.pending.filter fun q => q.id = r.id) = [r] := by
  have hsub := h.nodup_id
  obtain ⟨front, rest, hsplit⟩ := List.append_of_mem hr
  rw [hsplit, List.map_append, List.map_cons, List.nodup_middle, List.nodup_cons,
    ← List.map_append] at hsub
  have hother : ∀ q ∈ front ++ rest, q.id ≠ r.id := fun q hq hid =>
    hsub.1 (List.mem_map.mpr ⟨q, hq, hid⟩)
  have hnil : ∀ part : List Request, part ⊆ front ++ rest →
      (part.filter fun q => q.id = r.id) = [] := fun part hpart =>
    List.filter_eq_nil_iff.mpr fun q hq => by simpa using hother q (hpart hq)
  rw [hsplit, List.filter_append, hnil front (List.subset_append_left _ _),
    List.filter_cons_of_pos (by simp), hnil rest (List.subset_append_right _ _), List.nil_append]

lemma Sound.filter_id_and (h : Sound l) {r : Request} (hr : r ∈ l.pending)
    (p : Request → Bool) :
    (l.pending.filter fun q => q.id = r.id && p q) = if p r then [r] else [] := by
  have hsplit : (l.pending.filter fun q => q.id = r.id && p q) =
      (l.pending.filter fun q => q.id = r.id).filter p := by
    rw [List.filter_filter]
    simp only [Bool.and_comm]
  rw [hsplit, h.filter_id hr, List.filter_singleton, Bool.cond_eq_ite]

lemma Mirrors.shows_eq (hs : Sound l) (h : Mirrors id l a) (op : Op) :
    l.shows id op = op.happening?.toList.flatMap a.shows := by
  cases op with
  | register e deadline start => rfl
  | drop other => rfl
  | collect other => rfl
  | sweep now => rfl
  | rejectAll cause => rfl
  | dispatch now text lineEnd =>
    simp only [shows, Op.happening?, Option.toList_some, List.flatMap_singleton, Lone.shows]
    rw [← Lone.isNone_step_sweep]
    -- whoever is still pending after the look at the clock is shown the line
    cases h.expire hs now with
    | settled o hdone hgone _ =>
      have hnil : ((l.expire now).1.pending.filter fun r => r.id = id && !r.predates lineEnd) =
          [] := List.filter_eq_nil_iff.mpr fun r hr => by simp [hgone r hr]
      simp [hnil, hdone]
    | waiting hopen hmem _ =>
      have hearly : ((a.step (.sweep now)).request id).predates lineEnd = a.early lineEnd := by
        rw [Lone.early_eq, Lone.early_step]
      have hone := (hs.expire now).filter_id_and hmem fun r => !r.predates lineEnd
      rw [show ((a.step (.sweep now)).request id).id = id from rfl] at hone
      rw [hone, hopen, hearly]
      cases he : a.early lineEnd <;> simp

lemma Mirrors.shownTo_eq (hs : Sound l) (h : Mirrors id l a) {ops : List Op}
    (hkept : .drop id ∉ ops) : l.shownTo id ops = a.shown (ops.filterMap Op.happening?) := by
  induction ops generalizing l a with
  | nil => rfl
  | cons op ops ih =>
    simp only [List.mem_cons, not_or] at hkept
    rw [shownTo, h.shows_eq hs, ih (hs.apply op) (h.apply hs (Ne.symm hkept.1)) hkept.2]
    cases hop : op.happening? <;> simp [hop, Lone.shown]

lemma filterMap_line? (ops : List Op) :
    ops.filterMap Op.line? = (ops.filterMap Op.happening?).filterMap Happening.line? := by
  rw [List.filterMap_filterMap]
  rfl

lemma closed_run (l : Ledger) {ops : List Op}
    (h : ∀ x ∈ ops.filterMap Op.happening?, x.clock? ≠ none) : (l.run ops).closed = l.closed := by
  induction ops generalizing l with
  | nil => rfl
  | cons op ops ih =>
    have hrest : ∀ x ∈ ops.filterMap Op.happening?, x.clock? ≠ none := fun x hx => by
      obtain ⟨op', hop', hx⟩ := List.mem_filterMap.mp hx
      exact h x (List.mem_filterMap.mpr ⟨op', List.mem_cons_of_mem _ hop', hx⟩)
    rw [run_cons, ih _ hrest]
    cases op with
    | register e deadline start =>
      cases hc : l.closed with
      | true => rw [apply, register_of_closed hc, hc]
      | false => rw [apply, register_of_open hc, hc]
    | drop id => rfl
    | collect id => rfl
    | dispatch now text lineEnd => rfl
    | sweep now => rfl
    | rejectAll cause =>
      exact absurd rfl (h (.close cause) (List.mem_filterMap.mpr ⟨_, List.mem_cons_self, rfl⟩))

end Ledger

end LogWatch
