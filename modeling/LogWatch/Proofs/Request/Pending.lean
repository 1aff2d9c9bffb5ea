import Mathlib
import LogWatch.Proofs.Request.Accounts
import LogWatch.Proofs.Request.Closing

/-!
The order of the pending requests, and what the ledger may rely on when it serves them.

Numbers are counted up and requests are pending in the order of their numbers, so whoever goes over
them goes in the order in which they came. Whatever is pending is not satisfied and its ticket is
open, so the outcome that an operation sends it is the first, and reaches the caller. After a look
at the clock nothing that is pending is due.
-/

namespace LogWatch

@[simp] lemma Request.overdue_offer (r : Request) (now : ℕ) (line : String)
    (lineEnd : Position) : (r.offer line lineEnd).1.overdue now = r.overdue now := by
  unfold offer
  split <;> rfl

namespace Ledger

variable {l : Ledger} {op : Op}

/-! ### The numbers of requests -/

/-- The number that an operation gives to a new request. -/
def number? (l : Ledger) : Op → Option ℕ
  | .register e deadline start => (l.register e deadline start).2
  | _ => none

/-- The numbers that are given in a run, in order. -/
def numbers (l : Ledger) : List Op → List ℕ
  | [] => []
  | op :: ops => (l.number? op).toList ++ (l.apply op).numbers ops

lemma number?_spec (l : Ledger) (op : Op) :
    (l.number? op = none ∧ (l.apply op).tickets.length = l.tickets.length) ∨
      l.number? op = some l.tickets.length ∧
        (l.apply op).tickets.length = l.tickets.length + 1 := by
  cases op with
  | register e deadline start =>
    cases hc : l.closed with
    | true => exact .inl (by simp [number?, apply, register_of_closed hc])
    | false => exact .inr (by simp [number?, apply, register_of_open hc])
  | drop id | collect id => exact .inl ⟨rfl, List.length_modify ..⟩
  | dispatch now line lineEnd =>
    refine .inl ⟨rfl, ?_⟩
    rw [apply, dispatch_eq, present_tickets, Books.length_settleAll, expire_tickets,
      Books.length_settleAll]
    rfl
  | sweep now => exact .inl ⟨rfl, by rw [apply, expire_tickets, Books.length_settleAll]⟩
  | rejectAll cause => exact .inl ⟨rfl, by rw [apply, rejectAll_tickets, Books.length_settleAll]⟩

lemma range'_numbers (l : Ledger) (ops : List Op) :
    ∃ n, l.numbers ops = List.range' l.tickets.length n ∧
      (l.run ops).tickets.length = l.tickets.length + n := by
  induction ops generalizing l with
  | nil => exact ⟨0, rfl, rfl⟩
  | cons op ops ih =>
    obtain ⟨n, hnumbers, hlength⟩ := ih (l.apply op)
    rcases l.number?_spec op with ⟨hnone, hsame⟩ | ⟨hnext, hmore⟩
    · refine ⟨n, ?_, ?_⟩
      · rw [numbers, hnone, hnumbers, hsame, Option.toList_none, List.nil_append]
      · rw [run_cons, hlength, hsame]
    · refine ⟨n + 1, ?_, ?_⟩
      · rw [numbers, hnext, hnumbers, hmore, Option.toList_some, List.singleton_append,
          List.range'_succ]
      · rw [run_cons, hlength, hmore]
        omega

lemma numbers_opening (closed : Bool) (ops : List Op) :
    (opening closed).numbers ops = List.range (after closed ops).tickets.length := by
  obtain ⟨n, hnumbers, hlength⟩ := range'_numbers (opening closed) ops
  have hzero : (opening closed).tickets.length = 0 := rfl
  rw [hzero] at hnumbers hlength
  rw [hnumbers, after, hlength, Nat.zero_add, List.range_eq_range']

lemma Sound.sublist_range (h : Sound l) :
    (l.pending.map (·.id)).Sublist (List.range l.tickets.length) := by
  have hsorted : (l.pending.map (·.id)).Pairwise (· < ·) := List.pairwise_map.mpr h.sorted
  have hsubset : l.pending.map (·.id) ⊆ List.range l.tickets.length := fun id hid => by
    obtain ⟨r, hr, rfl⟩ := List.mem_map.mp hid
    exact List.mem_range.mpr (h.id_lt hr)
  exact List.sublist_of_subperm_of_pairwise (h.nodup_id.subperm hsubset) hsorted
    List.pairwise_lt_range

/-! ### What an operation sends -/

/-- What an operation sends to the tickets of requests, pass after pass over those that are
pending: what is due expires before a line is shown to the rest. -/
def passes (l : Ledger) : Op → List (List (ℕ × Outcome))
  | .dispatch now line lineEnd =>
    [(l.dueAt now).map fun r => (r.id, .expired),
      ((l.expire now).1.metBy line lineEnd).map fun m => (m.1, .observed m.2)]
  | .sweep now => [(l.dueAt now).map fun r => (r.id, .expired)]
  | .rejectAll cause => [l.pending.map fun r => (r.id, .rejected cause)]
  | .register _ _ _ | .drop _ | .collect _ => []

/-- All that an operation sends, in order. -/
def sends (l : Ledger) (op : Op) : List (ℕ × Outcome) := (l.passes op).flatten

lemma tickets_apply (h : op.happening? ≠ none) :
    (l.apply op).tickets = settleAll (l.sends op) l.tickets := by
  cases op with
  | register | drop | collect => exact absurd rfl h
  | dispatch now line lineEnd =>
    rw [apply, dispatch_eq, present_tickets, expire_tickets, ← settleAll_append, sends, passes,
      List.flatten_cons, List.flatten_singleton]
    rfl
  | sweep now => rw [apply, expire_tickets, sends, passes, List.flatten_singleton]
  | rejectAll cause => rw [apply, rejectAll_tickets, sends, passes, List.flatten_singleton]

lemma sublist_dueAt (l : Ledger) (now : ℕ) : (l.dueAt now).Sublist l.pending :=
  List.filter_sublist.trans List.filter_sublist

lemma sublist_expire (l : Ledger) (now : ℕ) : (l.expire now).1.pending.Sublist l.pending :=
  List.filter_sublist.trans List.filter_sublist

lemma sublist_of_mem_passes {pass : List (ℕ × Outcome)} (h : pass ∈ l.passes op) :
    (pass.map Prod.fst).Sublist (l.pending.map (·.id)) := by
  cases op with
  | register | drop | collect => cases h
  | dispatch now line lineEnd =>
    rcases List.mem_pair.mp h with rfl | rfl
    · rw [List.map_map]
      exact (l.sublist_dueAt now).map _
    · rw [List.map_map]
      have hmet := map_fst_metBy (l.expire now).1 line lineEnd
      exact hmet ▸ (List.filter_sublist.trans (l.sublist_expire now)).map _
  | sweep now =>
    rw [List.mem_singleton.mp h, List.map_map]
    exact (l.sublist_dueAt now).map _
  | rejectAll cause =>
    rw [List.mem_singleton.mp h, List.map_map]
    exact List.Sublist.refl _

lemma exists_pending_of_sends {id : ℕ} {o : Outcome} (h : (id, o) ∈ l.sends op) :
    ∃ r ∈ l.pending, r.id = id := by
  obtain ⟨pass, hpass, hmem⟩ := List.mem_flatten.mp h
  exact List.mem_map.mp ((sublist_of_mem_passes hpass).subset (List.mem_map_of_mem hmem))

lemma Sound.not_due (h : Sound l) {now : ℕ} {q r : Request} (hq : q ∈ l.dueAt now)
    (hr : r ∈ (l.expire now).1.pending) : q.id ≠ r.id := by
  intro hid
  have heq := h.eq_of_id ((l.sublist_dueAt now).subset hq) ((l.sublist_expire now).subset hr) hid
  have hdue := (List.mem_filter.mp hq).2
  have hnot := (List.mem_filter.mp hr).2
  rw [← heq] at hnot
  simp [hdue] at hnot

lemma Sound.nodup_sends (h : Sound l) (op : Op) : ((l.sends op).map Prod.fst).Nodup := by
  have hpass : ∀ pass ∈ l.passes op, (pass.map Prod.fst).Nodup := fun pass hmem =>
    h.nodup_id.sublist (sublist_of_mem_passes hmem)
  cases op with
  | register | drop | collect => exact List.nodup_nil
  | sweep now | rejectAll cause =>
    rw [sends, passes, List.flatten_singleton]
    exact hpass _ (List.mem_singleton_self _)
  | dispatch now line lineEnd =>
    rw [sends, passes, List.flatten_cons, List.flatten_singleton, List.map_append,
      List.nodup_append]
    -- what expires is gone before the line is shown, so the two passes share no number
    refine ⟨hpass _ List.mem_cons_self, hpass _ (List.mem_cons_of_mem _ List.mem_cons_self), ?_⟩
    rw [List.map_map, List.map_map]
    intro i hi j hj
    obtain ⟨q, hq, rfl⟩ := List.mem_map.mp hi
    obtain ⟨⟨k, labels⟩, hm, rfl⟩ := List.mem_map.mp hj
    obtain ⟨r, hr, rfl, -⟩ := mem_metBy.mp hm
    exact h.not_due hq hr

/-- The ticket of a pending request that is still held gets the outcome that is sent to it. -/
lemma Sound.outcome?_of_sends (h : Sound l) {id : ℕ} {o : Outcome} (hsends : (id, o) ∈ l.sends op)
    (hheld : l.isHeld id = true) :
    l.outcome? id = none ∧ (l.apply op).outcome? id = some o := by
  obtain ⟨r, hr, rfl⟩ := exists_pending_of_sends hsends
  obtain ⟨held, hticket⟩ := h.awaiting r hr
  obtain rfl : held = true := by simpa [isHeld, hticket] using hheld
  have hop : op.happening? ≠ none := by
    cases op with
    | register | drop | collect => cases hsends
    | dispatch | sweep | rejectAll => exact Option.some_ne_none _
  have hafter : (l.apply op).ticket? r.id = (l.ticket? r.id).map (·.resolve o) := by
    rw [ticket?, tickets_apply hop]
    exact getElem?_settleAll_of_mem (h.nodup_sends op) hsends l.tickets
  rw [outcome?, outcome?, hafter, hticket]
  exact ⟨rfl, rfl⟩

/-! ### Deadlines -/

lemma nextDeadline_eq_none :
    l.nextDeadline = none ↔ ∀ r ∈ l.pending, r.deadline = none := by
  rw [nextDeadline, List.min?_eq_none_iff, List.filterMap_eq_nil_iff]

lemma nextDeadline_eq_some {t : ℕ} :
    l.nextDeadline = some t ↔
      (∃ r ∈ l.pending, r.deadline = some t) ∧
        ∀ r ∈ l.pending, ∀ t' ∈ r.deadline, t ≤ t' := by
  rw [nextDeadline, List.min?_eq_some_iff, List.mem_filterMap]
  refine and_congr_right fun _ => ⟨fun hle r hr t' ht' => ?_, fun hle t' ht' => ?_⟩
  · exact hle t' (List.mem_filterMap.mpr ⟨r, hr, ht'⟩)
  · obtain ⟨r, hr, ht'⟩ := List.mem_filterMap.mp ht'
    exact hle r hr t' ht'

/-- Nothing that is pending is due at `now`, and the next deadline, if any, is still to come. -/
def NoneDue (l : Ledger) (now : ℕ) : Prop :=
  (∀ r ∈ l.pending, ∀ t ∈ r.deadline, now < t) ∧ ∀ t ∈ l.nextDeadline, now < t

lemma noneDue_of_not_overdue {now : ℕ} (h : ∀ r ∈ l.pending, r.overdue now = false) :
    l.NoneDue now := by
  have hpending : ∀ r ∈ l.pending, ∀ t ∈ r.deadline, now < t := fun r hr t ht => by
    have hnot := h r hr
    rw [Option.mem_def] at ht
    simpa [Request.overdue, ht] using hnot
  refine ⟨hpending, fun t ht => ?_⟩
  obtain ⟨⟨r, hr, hdeadline⟩, -⟩ := nextDeadline_eq_some.mp ht
  exact hpending r hr t hdeadline

lemma noneDue_expire (l : Ledger) (now : ℕ) : (l.expire now).1.NoneDue now :=
  noneDue_of_not_overdue fun r hr => by simpa using (List.mem_filter.mp hr).2

lemma noneDue_dispatch (l : Ledger) (now : ℕ) (line : String) (lineEnd : Position) :
    (l.dispatch now line lineEnd).1.NoneDue now := by
  refine noneDue_of_not_overdue fun r hr => ?_
  rw [dispatch_eq, mem_present] at hr
  obtain ⟨q, hq, hoffer⟩ := hr
  have hsame := q.overdue_offer now line lineEnd
  rw [hoffer] at hsame
  rw [hsame]
  simpa using (List.mem_filter.mp hq).2

/-! ### What holds in every state -/

/-- What a ledger keeps, and what follows for whatever is done to it next. -/
structure Orderly (l : Ledger) : Prop where
  increasing : l.pending.Pairwise (·.id < ·.id)
  below : ∀ r ∈ l.pending, r.id < l.tickets.length
  unmet : ∀ r ∈ l.pending, r.progress.satisfied = false
  unresolved : ∀ r ∈ l.pending, ∃ t, l.ticket? r.id = some t ∧ t.request = some r.id ∧
    t.sent = none ∧ t.closed = false ∧ t.value? = none
  /-- What lines, the clock and the end do to tickets is to send them these outcomes. -/
  sent : ∀ op, op.happening? ≠ none → (l.apply op).tickets = settleAll (l.sends op) l.tickets
  /-- A pass over the requests goes in their order. -/
  inTurn : ∀ op, ∀ pass ∈ l.passes op,
    (pass.map Prod.fst).Sublist (l.pending.map (·.id)) ∧ (pass.map Prod.fst).Pairwise (· < ·)
  /-- What is sent to a caller who holds the ticket is the first that is, and the caller sees it. -/
  takesEffect : ∀ op id o, (id, o) ∈ l.sends op → l.isHeld id = true →
    l.outcome? id = none ∧ (l.apply op).outcome? id = some o
  /-- A closed ledger has nothing pending and stays closed. -/
  shut : l.closed = true → ∀ ops, (l.run ops).closed = true ∧ (l.run ops).pending = []
  swept : ∀ now, (l.apply (.sweep now)).NoneDue now
  dispatched : ∀ now line lineEnd, (l.apply (.dispatch now line lineEnd)).NoneDue now
  noDeadline : l.nextDeadline = none ↔ ∀ r ∈ l.pending, r.deadline = none
  nextDeadline : ∀ t, l.nextDeadline = some t ↔
    (∃ r ∈ l.pending, r.deadline = some t) ∧ ∀ r ∈ l.pending, ∀ t' ∈ r.deadline, t ≤ t'

lemma closed_apply (h : l.closed = true) (op : Op) : (l.apply op).closed = true := by
  cases op with
  | register | drop | collect | sweep => exact (closed_of_calm rfl l).trans h
  | dispatch now line lineEnd => exact h
  | rejectAll cause => rfl

lemma closed_run_of_closed (h : l.closed = true) (ops : List Op) : (l.run ops).closed = true := by
  induction ops generalizing l with
  | nil => exact h
  | cons op ops ih => exact ih (closed_apply h op)

lemma Sound.orderly (h : Sound l) : Orderly l where
  increasing := h.sorted
  below _ hr := h.id_lt hr
  unmet := h.unmet
  unresolved r hr := by
    obtain ⟨held, hticket⟩ := h.awaiting r hr
    exact ⟨_, hticket, rfl, rfl, rfl, rfl⟩
  sent _ hop := tickets_apply hop
  inTurn op pass hpass := by
    have hsub := sublist_of_mem_passes hpass
    exact ⟨hsub, (List.pairwise_map.mpr h.sorted).sublist hsub⟩
  takesEffect _ _ _ hsends hheld := h.outcome?_of_sends hsends hheld
  shut hclosed ops := by
    have hstays := closed_run_of_closed hclosed ops
    exact ⟨hstays, (h.run ops).closed hstays⟩
  swept now := noneDue_expire l now
  dispatched now line lineEnd := noneDue_dispatch l now line lineEnd
  noDeadline := nextDeadline_eq_none
  nextDeadline _ := nextDeadline_eq_some

/-- **Numbers are counted up, requests are pending in their order, and the ledger is orderly,
whatever was done to it since it was opened,** and also if it was closed from the first. -/
theorem pending_in_order (closed : Bool) (ops : List Op) :
    (opening closed).numbers ops = List.range (after closed ops).tickets.length ∧
      ((after closed ops).pending.map (·.id)).Sublist ((opening closed).numbers ops) ∧
      (after closed ops).Orderly := by
  have hsound := (books_after closed ops).sound
  refine ⟨numbers_opening closed ops, ?_, hsound.orderly⟩
  rw [numbers_opening]
  exact hsound.sublist_range

end Ledger

end LogWatch
