import Mathlib
import LogWatch.Proofs.Request.Pending
import LogWatch.Proofs.Request.Shown

/-!
Which lines a request skips.

A pending request skips a line that had been written when it was made, as its end and the start of
the request tell. What a request was made with never changes, so if every line ends later than the
one before, the lines it skips are the first ones that come; once one came that had not been
written then, it skips no more.
-/

namespace LogWatch

namespace Position

lemma lt_trans {a b c : Position} (hab : a < b) (hbc : b < c) : a < c := by
  rw [lt_def] at *
  omega

lemma le_of_lt_of_le {a b c : Position} (hab : a < b) (hbc : b ≤ c) : a ≤ c := by
  rw [lt_def] at hab
  rw [le_def] at *
  omega

lemma not_le_of_generation {a b : Position} (h : b.generation < a.generation) : ¬ a ≤ b := by
  rw [le_def]
  omega

end Position

/-- Whether all up to a place had been written when a log of such a length was found. -/
def Position.isWritten (x : Position) (start : Option Position) : Bool := start.any (x ≤ ·)

namespace Position

variable {x y : Position} {start : Option Position}

lemma isWritten_of_lt (hlt : x < y) (hy : y.isWritten start = true) : x.isWritten start = true := by
  cases start with
  | none => cases hy
  | some s =>
    have hle : y ≤ s := by simpa [isWritten] using hy
    simpa [isWritten] using le_of_lt_of_le hlt hle

lemma not_isWritten_of_generation {s : Position} (h : s.generation < x.generation) :
    x.isWritten (some s) = false := by
  simpa [isWritten] using not_le_of_generation h

end Position

@[simp] lemma Request.start_offer (r : Request) (line : String) (lineEnd : Position) :
    (r.offer line lineEnd).1.start = r.start := by
  unfold offer
  split <;> rfl

namespace Ledger

/-- What the request numbered `id` skips of a single operation: a line that had been written when
the request was made, if the request has not expired by then. -/
def skips (l : Ledger) (id : ℕ) : Op → List (String × Position)
  | .dispatch now text lineEnd =>
    ((l.expire now).1.pending.filter fun r => r.id = id && r.predates lineEnd).map
      fun _ => (text, lineEnd)
  | _ => []

/-- The lines that the request numbered `id` skips, in order. -/
def skippedBy (l : Ledger) (id : ℕ) : List Op → List (String × Position)
  | [] => []
  | op :: ops => l.skips id op ++ (l.apply op).skippedBy id ops

variable {l : Ledger} {id : ℕ} {start : Option Position}

/-! ### The start of a request -/

/-- The request numbered `id` was entered with this start. -/
structure MadeAt (l : Ledger) (id : ℕ) (start : Option Position) : Prop where
  entered : id < l.tickets.length
  start_eq : ∀ r ∈ l.pending, r.id = id → r.start = start

lemma mem_pending_apply {op : Op} {r : Request} (h : r ∈ (l.apply op).pending) :
    (∃ q ∈ l.pending, q.id = r.id ∧ q.start = r.start) ∨ r.id = l.tickets.length := by
  cases op with
  | drop | collect => exact .inl ⟨r, h, rfl, rfl⟩
  | rejectAll cause => cases h
  | sweep now => exact .inl ⟨r, (l.sublist_expire now).subset h, rfl, rfl⟩
  | dispatch now line lineEnd =>
    rw [apply, dispatch_eq, mem_present] at h
    obtain ⟨q, hq, hoffer⟩ := h
    refine .inl ⟨q, (l.sublist_expire now).subset hq, ?_, ?_⟩
    · rw [← q.id_offer line lineEnd, hoffer]
    · rw [← q.start_offer line lineEnd, hoffer]
  | register e deadline begun =>
    cases hc : l.closed with
    | true =>
      rw [apply, register_of_closed hc] at h
      exact .inl ⟨r, h, rfl, rfl⟩
    | false =>
      rw [apply, register_of_open hc] at h
      rcases List.mem_append.mp h with h | h
      · exact .inl ⟨r, h, rfl, rfl⟩
      · rw [List.mem_singleton.mp h]
        exact .inr rfl

lemma MadeAt.apply (h : l.MadeAt id start) (op : Op) : (l.apply op).MadeAt id start := by
  refine ⟨h.entered.trans_le (length_tickets_apply l op), fun r hr hid => ?_⟩
  rcases mem_pending_apply hr with ⟨q, hq, hqid, hqstart⟩ | hnew
  · rw [← hqstart]
    exact h.start_eq q hq (hqid.trans hid)
  · exact absurd h.entered (by omega)

lemma MadeAt.run (h : l.MadeAt id start) (ops : List Op) : (l.run ops).MadeAt id start := by
  induction ops generalizing l with
  | nil => exact h
  | cons op ops ih => exact ih (h.apply op)

lemma Sound.madeAt (hs : Sound l) {e : Event} {deadline : Option ℕ}
    (h : (l.register e deadline start).2 = some id) :
    (l.register e deadline start).1.MadeAt id start := by
  cases hc : l.closed with
  | true => simp [register_of_closed hc] at h
  | false =>
    rw [register_of_open hc] at h ⊢
    obtain rfl := Option.some.inj h
    refine ⟨by simp, fun r hr hid => ?_⟩
    rcases List.mem_append.mp hr with hr | hr
    · exact absurd (hs.id_lt hr) (by omega)
    · rw [List.mem_singleton.mp hr]

/-! ### What is skipped -/

lemma MadeAt.predates_eq (h : l.MadeAt id start) {r : Request} (hr : r ∈ l.pending)
    (hid : r.id = id) (x : Position) : r.predates x = x.isWritten start := by
  rw [← h.start_eq r hr hid]
  rfl

lemma MadeAt.skips_spec (h : l.MadeAt id start) {op : Op} {x : String × Position}
    (hx : x ∈ l.skips id op) : op.line? = some x ∧ x.2.isWritten start = true := by
  cases op with
  | register | drop | collect | sweep | rejectAll => cases hx
  | dispatch now text lineEnd =>
    obtain ⟨r, hr, rfl⟩ := List.mem_map.mp hx
    obtain ⟨hr, hskip⟩ := List.mem_filter.mp hr
    obtain ⟨hid, hpredates⟩ := Bool.and_eq_true_iff.mp hskip
    refine ⟨rfl, ?_⟩
    rw [← hpredates]
    exact (h.predates_eq ((l.sublist_expire now).subset hr) (of_decide_eq_true hid) lineEnd).symm

lemma MadeAt.shows_spec (h : l.MadeAt id start) {op : Op} (hx : l.shows id op ≠ []) :
    ∃ x, op.line? = some x ∧ x.2.isWritten start = false := by
  cases op with
  | register | drop | collect | sweep | rejectAll => exact absurd rfl hx
  | dispatch now text lineEnd =>
    obtain ⟨text', hmem⟩ := List.exists_mem_of_ne_nil _ hx
    obtain ⟨r, hr, -⟩ := List.mem_map.mp hmem
    obtain ⟨hr, hshow⟩ := List.mem_filter.mp hr
    obtain ⟨hid, hlater⟩ := Bool.and_eq_true_iff.mp hshow
    refine ⟨(text, lineEnd), rfl, ?_⟩
    rw [← h.predates_eq ((l.sublist_expire now).subset hr) (of_decide_eq_true hid)]
    simpa using hlater

lemma MadeAt.isWritten_of_skipped (h : l.MadeAt id start) {ops : List Op} :
    ∀ x ∈ l.skippedBy id ops, x.2.isWritten start = true := by
  induction ops generalizing l with
  | nil => simp [skippedBy]
  | cons op ops ih =>
    intro x hx
    rcases List.mem_append.mp hx with hx | hx
    · exact (h.skips_spec hx).2
    · exact ih (h.apply op) x hx

lemma MadeAt.exists_unwritten_of_shown (h : l.MadeAt id start) {ops : List Op}
    (hshown : l.shownTo id ops ≠ []) :
    ∃ x ∈ ops.filterMap Op.line?, x.2.isWritten start = false := by
  induction ops generalizing l with
  | nil => exact absurd rfl hshown
  | cons op ops ih =>
    by_cases hnow : l.shows id op = []
    · rw [shownTo, hnow, List.nil_append] at hshown
      obtain ⟨x, hx, hunwritten⟩ := ih (h.apply op) hshown
      refine ⟨x, ?_, hunwritten⟩
      rw [List.filterMap_cons]
      split
      · exact hx
      · exact List.mem_cons_of_mem _ hx
    · obtain ⟨x, hx, hunwritten⟩ := h.shows_spec hnow
      exact ⟨x, List.mem_filterMap.mpr ⟨op, List.mem_cons_self, hx⟩, hunwritten⟩

lemma Sound.skips_eq (hs : Sound l) {op : Op} {x : String × Position} (hx : x ∈ l.skips id op) :
    (∃ r ∈ l.pending, r.id = id) ∧ l.skips id op = [x] := by
  cases op with
  | register | drop | collect | sweep | rejectAll => cases hx
  | dispatch now text lineEnd =>
    obtain ⟨r, hr, rfl⟩ := List.mem_map.mp hx
    obtain ⟨hleft, hskip⟩ := List.mem_filter.mp hr
    obtain ⟨hid, hpredates⟩ := Bool.and_eq_true_iff.mp hskip
    obtain rfl : r.id = id := of_decide_eq_true hid
    refine ⟨⟨r, (l.sublist_expire now).subset hleft, rfl⟩, ?_⟩
    rw [skips, (hs.expire now).filter_id_and hleft, if_pos hpredates]
    rfl

lemma MadeAt.exists_pending (h : l.MadeAt id start) {op : Op}
    (hpending : ∃ r ∈ (l.apply op).pending, r.id = id) : ∃ r ∈ l.pending, r.id = id := by
  obtain ⟨r, hr, rfl⟩ := hpending
  rcases mem_pending_apply hr with ⟨q, hq, hid, -⟩ | hnew
  · exact ⟨q, hq, hid⟩
  · exact absurd h.entered (by omega)

lemma MadeAt.exists_pending_of_run (h : l.MadeAt id start) {ops : List Op}
    (hpending : ∃ r ∈ (l.run ops).pending, r.id = id) : ∃ r ∈ l.pending, r.id = id := by
  induction ops generalizing l with
  | nil => exact hpending
  | cons op ops ih => exact h.exists_pending (ih (h.apply op) hpending)

lemma MadeAt.parts (hs : Sound l) (h : l.MadeAt id start) {op : Op}
    (hpending : ∃ r ∈ (l.apply op).pending, r.id = id) :
    l.skips id op = op.line?.toList.filter (·.2.isWritten start) ∧
      l.shows id op = (op.line?.toList.filter (!·.2.isWritten start)).map Prod.fst := by
  cases op with
  | register | drop | collect | sweep | rejectAll => exact ⟨rfl, rfl⟩
  | dispatch now text lineEnd =>
    obtain ⟨r, hr, rfl⟩ := hpending
    rw [Ledger.apply, dispatch_eq, mem_present] at hr
    obtain ⟨q, hq, hoffer⟩ := hr
    have hid : q.id = r.id := by rw [← q.id_offer text lineEnd, hoffer]
    have hwritten := h.predates_eq ((l.sublist_expire now).subset hq) hid lineEnd
    have hline : (Op.dispatch now text lineEnd).line?.toList = [(text, lineEnd)] := rfl
    rw [hline, skips, shows, ← hid, (hs.expire now).filter_id_and hq,
      (hs.expire now).filter_id_and hq, hwritten]
    cases hcase : lineEnd.isWritten start <;> simp [hcase]

/-- All that comes while a request is pending is skipped if it had been written when the request
was made, and is shown otherwise. -/
lemma MadeAt.parts_run (hs : Sound l) (h : l.MadeAt id start) {ops : List Op}
    (hpending : ∃ r ∈ (l.run ops).pending, r.id = id) :
    l.skippedBy id ops = (ops.filterMap Op.line?).filter (·.2.isWritten start) ∧
      l.shownTo id ops =
        ((ops.filterMap Op.line?).filter (!·.2.isWritten start)).map Prod.fst := by
  induction ops generalizing l with
  | nil => exact ⟨rfl, rfl⟩
  | cons op ops ih =>
    obtain ⟨hskipped, hshown⟩ := ih (hs.apply op) (h.apply op) hpending
    obtain ⟨hskips, hshows⟩ := h.parts hs ((h.apply op).exists_pending_of_run hpending)
    have hlines : (op :: ops).filterMap Op.line? =
        op.line?.toList ++ ops.filterMap Op.line? := by
      rw [List.filterMap_cons]
      cases op.line? <;> rfl
    rw [skippedBy, shownTo, hskips, hshows, hskipped, hshown, hlines, List.filter_append,
      List.filter_append, List.map_append]
    exact ⟨rfl, rfl⟩

lemma MadeAt.skippedBy_eq_nil (hs : Sound l) (h : l.MadeAt id start) {ops : List Op}
    (hlater : (∃ r ∈ l.pending, r.id = id) →
      ∀ x ∈ ops.filterMap Op.line?, x.2.isWritten start = false) :
    l.skippedBy id ops = [] := by
  induction ops generalizing l with
  | nil => rfl
  | cons op ops ih =>
    have hrest := ih (hs.apply op) (h.apply op) fun hpending x hx => by
      refine hlater (h.exists_pending hpending) x ?_
      obtain ⟨op', hop', hx⟩ := List.mem_filterMap.mp hx
      exact List.mem_filterMap.mpr ⟨op', List.mem_cons_of_mem _ hop', hx⟩
    rw [skippedBy, hrest, List.append_nil, List.eq_nil_iff_forall_not_mem]
    intro x hx
    obtain ⟨hline, hwritten⟩ := h.skips_spec hx
    have hunwritten := hlater (hs.skips_eq hx).1 x
      (List.mem_filterMap.mpr ⟨op, List.mem_cons_self, hline⟩)
    rw [hwritten] at hunwritten
    cases hunwritten

/-- **Where each line ends later than the one before, the lines that a request skips are the first
that come.** -/
theorem MadeAt.skippedBy_isPrefix (hs : Sound l) (h : l.MadeAt id start) {ops : List Op}
    (hlines : (ops.filterMap Op.line?).Pairwise (·.2 < ·.2)) :
    l.skippedBy id ops <+: ops.filterMap Op.line? := by
  induction ops generalizing l with
  | nil => exact List.prefix_rfl
  | cons op ops ih =>
    cases hline : op.line? with
    | none =>
      have hskips : l.skips id op = [] := by
        rw [List.eq_nil_iff_forall_not_mem]
        intro x hx
        rw [(h.skips_spec hx).1] at hline
        cases hline
      rw [List.filterMap_cons_none hline] at hlines ⊢
      rw [skippedBy, hskips]
      exact ih (hs.apply op) (h.apply op) hlines
    | some x =>
      rw [List.filterMap_cons_some hline] at hlines ⊢
      obtain ⟨hfirst, hlines⟩ := List.pairwise_cons.mp hlines
      -- if the first line is not skipped, no later one can be
      by_cases hskips : l.skips id op = []
      · have hrest : (l.apply op).skippedBy id ops = [] :=
          (h.apply op).skippedBy_eq_nil (hs.apply op) fun hpending y hy => by
            -- the line was not skipped by what is pending after it, so it had not been written
            have hunwritten := (h.parts hs hpending).1
            rw [hskips, hline, Option.toList_some, eq_comm, List.filter_eq_nil_iff] at hunwritten
            by_contra hwritten
            exact hunwritten x List.mem_cons_self
              (Position.isWritten_of_lt (hfirst y hy) (by simpa using hwritten))
        rw [skippedBy, hskips, hrest]
        exact List.nil_prefix
      · obtain ⟨y, hy⟩ := List.exists_mem_of_ne_nil _ hskips
        obtain rfl : x = y := Option.some.inj (hline.symm.trans (h.skips_spec hy).1)
        rw [skippedBy, (hs.skips_eq hy).2]
        exact (List.prefix_cons_inj _).mpr (ih (hs.apply op) (h.apply op) hlines)

/-- **Once a line came that had not been written when a request was made, it skips no more.** -/
theorem MadeAt.skippedBy_run_eq_nil (hs : Sound l) (h : l.MadeAt id start) {ops more : List Op}
    (hlines : ((ops ++ more).filterMap Op.line?).Pairwise (·.2 < ·.2))
    (hcame : ∃ x ∈ ops.filterMap Op.line?, x.2.isWritten start = false) :
    (l.run ops).skippedBy id more = [] := by
  obtain ⟨x, hx, hunwritten⟩ := hcame
  rw [List.filterMap_append, List.pairwise_append] at hlines
  refine (h.run ops).skippedBy_eq_nil (hs.run ops) fun _ y hy => ?_
  by_contra hwritten
  rw [Position.isWritten_of_lt (hlines.2.2 x hx y hy) (by simpa using hwritten)] at hunwritten
  cases hunwritten

/-- **While a request is pending, all the lines after those that it skips are shown to it.** -/
theorem MadeAt.shownTo_eq (hs : Sound l) (h : l.MadeAt id start) {ops : List Op}
    (hlines : (ops.filterMap Op.line?).Pairwise (·.2 < ·.2))
    (hpending : ∃ r ∈ (l.run ops).pending, r.id = id) :
    ∃ rest, ops.filterMap Op.line? = l.skippedBy id ops ++ rest ∧
      l.shownTo id ops = rest.map Prod.fst := by
  obtain ⟨rest, hrest⟩ := h.skippedBy_isPrefix hs hlines
  obtain ⟨hskipped, hshown⟩ := h.parts_run hs hpending
  refine ⟨rest, hrest.symm, ?_⟩
  -- what was written is just what is skipped, so nothing of the rest was
  rw [← hrest, List.filter_append, List.filter_eq_self.mpr h.isWritten_of_skipped,
    List.self_eq_append_right, List.filter_eq_nil_iff] at hskipped
  have hfirst : (l.skippedBy id ops).filter (!·.2.isWritten start) = [] :=
    List.filter_eq_nil_iff.mpr fun x hx => by simp [h.isWritten_of_skipped x hx]
  rw [hshown, ← hrest, List.filter_append, hfirst, List.nil_append,
    List.filter_eq_self.mpr fun x hx => by simpa using hskipped x hx]

end Ledger

end LogWatch
