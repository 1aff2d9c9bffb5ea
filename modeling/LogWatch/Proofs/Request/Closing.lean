import Mathlib
import LogWatch.Proofs.Request.Lone

/-!
What becomes of the requests of a ledger when it is closed.

A request whose caller still holds its ticket is pending or has an outcome, so a ledger that has
been closed leaves nobody waiting. The request that was pending when the ledger was closed has the
cause of the closing for its outcome, and nothing that happens later changes that.
-/

namespace LogWatch

namespace Ledger

variable {l : Ledger}

/-- Whether an operation only concerns single requests, or the clock. -/
def Op.isCalm : Op → Bool
  | register _ _ _ | drop _ | collect _ | sweep _ => true
  | dispatch _ _ _ | rejectAll _ => false

lemma closed_of_calm {op : Op} (h : op.isCalm = true) (l : Ledger) :
    (l.apply op).closed = l.closed := by
  cases op with
  | register e deadline start =>
    cases hc : l.closed with
    | true => rw [apply, register_of_closed hc, hc]
    | false => rw [apply, register_of_open hc, hc]
  | drop id | collect id | sweep now => rfl
  | dispatch now line lineEnd | rejectAll cause => simp [Op.isCalm] at h

lemma closed_run_of_calm {ops : List Op} (h : ∀ op ∈ ops, op.isCalm = true) (l : Ledger) :
    (l.run ops).closed = l.closed := by
  induction ops generalizing l with
  | nil => rfl
  | cons op ops ih =>
    rw [run_cons, ih fun x hx => h x (List.mem_cons_of_mem _ hx)]
    exact closed_of_calm (h op List.mem_cons_self) l

/-! ### A ledger that has been closed -/

lemma pending_of_closed (hclosed : l.closed = true) (hempty : l.pending = []) {op : Op}
    (h : op.isCalm = true) : (l.apply op).pending = [] := by
  cases op with
  | register e deadline start => rw [apply, register_of_closed hclosed]; exact hempty
  | drop id | collect id => exact hempty
  | sweep now => rw [apply, expire_pending, hempty]; rfl
  | dispatch now line lineEnd | rejectAll cause => simp [Op.isCalm] at h

lemma rejectAll_of_closed (hclosed : l.closed = true) (hempty : l.pending = []) (cause : Cause) :
    (l.rejectAll cause).1 = l := by
  obtain ⟨pending, tickets, closed, tally⟩ := l
  simp only at hclosed hempty
  subst hclosed hempty
  rfl

lemma handed_of_closed (hclosed : l.closed = true) (e : Event) (deadline : Option ℕ)
    (start : Option Position) :
    (l.register e deadline start).2 = none ∧
      (l.register e deadline start).1 = { l with tally.rejected := l.tally.rejected + 1 } := by
  rw [register_of_closed hclosed]
  exact ⟨rfl, rfl⟩

/-! ### Nobody is left waiting -/

/-- Whoever holds the ticket of a request finds the request pending or has its outcome. -/
def Answers (l : Ledger) : Prop :=
  ∀ id t, l.ticket? id = some t → t.held = true →
    (∃ r ∈ l.pending, r.id = id) ∨ t.value?.isSome = true

lemma answers_fresh : Answers fresh := by
  intro id t ht
  simp [ticket?, fresh] at ht

lemma isSome_value?_resolve (t : Ticket) (o : Outcome) : (t.resolve o).value?.isSome = true := by
  obtain ⟨request, sent, closed, kept, held⟩ := t
  cases kept <;> cases sent <;> cases closed <;> cases held <;> rfl

lemma Answers.settle (h : Answers l) {m : Ledger} {outs : List (ℕ × Outcome)}
    (htickets : m.tickets = settleAll outs l.tickets) (hnodup : (outs.map Prod.fst).Nodup)
    (hout : ∀ r ∈ l.pending, (∃ q ∈ m.pending, q.id = r.id) ∨ r.id ∈ outs.map Prod.fst ∨
      l.isHeld r.id = false) : Answers m := by
  intro id t ht hheld
  rw [ticket?, htickets] at ht
  -- a ticket that is settled shows an outcome to its holder, any other is as it was
  by_cases hid : id ∈ outs.map Prod.fst
  · obtain ⟨⟨i, o⟩, hmem, rfl⟩ := List.mem_map.mp hid
    rw [getElem?_settleAll_of_mem hnodup hmem] at ht
    obtain ⟨t', -, rfl⟩ := Option.map_eq_some_iff.mp ht
    exact .inr (isSome_value?_resolve t' o)
  · rw [getElem?_settleAll_of_notMem hid] at ht
    rcases h id t ht hheld with ⟨r, hr, rfl⟩ | hvalue
    · rcases hout r hr with hstays | hsettled | hfree
      · exact .inl hstays
      · exact absurd hsettled hid
      · simp [isHeld, ticket?, ht, hheld] at hfree
    · exact .inr hvalue

lemma Answers.register (h : Answers l) (e : Event) (deadline : Option ℕ)
    (start : Option Position) : Answers (l.register e deadline start).1 := by
  cases hc : l.closed with
  | true =>
    rw [register_of_closed hc]
    exact h
  | false =>
    rw [register_of_open hc]
    intro id t ht hheld
    rcases Nat.lt_or_ge id l.tickets.length with hlt | hge
    · rw [ticket?, List.getElem?_append_left hlt] at ht
      rcases h id t ht hheld with ⟨r, hr, hid⟩ | hvalue
      · exact .inl ⟨r, List.mem_append_left _ hr, hid⟩
      · exact .inr hvalue
    · have hid : id = l.tickets.length := by
        have hlt := (List.getElem?_eq_some_iff.mp ht).1
        simp only [List.length_append, List.length_singleton] at hlt
        omega
      exact .inl ⟨_, List.mem_append_right _ (List.mem_singleton_self _), hid.symm⟩

lemma Answers.modify (h : Answers l) (id : ℕ) {f : Ticket → Ticket}
    (hheld : ∀ t, (f t).held = true → t.held = true)
    (hvalue : ∀ t, t.value?.isSome = true → (f t).value?.isSome = true) :
    Answers { l with tickets := l.tickets.modify id f } := by
  intro i t ht hti
  rw [ticket?, List.getElem?_modify] at ht
  obtain ⟨t', ht', rfl⟩ := Option.map_eq_some_iff.mp ht
  split at hti
  · rename_i hid
    rw [if_pos hid]
    exact (h i t' ht' (hheld t' hti)).imp_right (hvalue t')
  · rename_i hid
    rw [if_neg hid]
    exact h i t' ht' hti

lemma Answers.expire (hs : Sound l) (h : Answers l) (now : ℕ) : Answers (l.expire now).1 := by
  refine h.settle (expire_tickets l now) (hs.nodup_due now .expired) fun r hr => ?_
  · cases hheld : l.isHeld r.id with
    | false => exact .inr (.inr rfl)
    | true =>
      have hwanted : r ∈ l.pending.filter fun r => l.isHeld r.id :=
        List.mem_filter.mpr ⟨hr, hheld⟩
      cases hdue : r.overdue now with
      | false =>
        refine .inl ⟨r, ?_, rfl⟩
        rw [expire_pending]
        exact List.mem_filter.mpr ⟨hwanted, by simp [hdue]⟩
      | true =>
        refine .inr (.inl ?_)
        rw [List.map_map]
        exact List.mem_map_of_mem (List.mem_filter.mpr ⟨hwanted, hdue⟩)

lemma Answers.present (hs : Sound l) (h : Answers l) (line : String) (lineEnd : Position) :
    Answers (l.present line lineEnd) := by
  refine h.settle (present_tickets l line lineEnd) (hs.nodup_met line lineEnd) fun r hr => ?_
  · cases hmet : (r.offer line lineEnd).2 with
    | none =>
      refine .inl ⟨(r.offer line lineEnd).1, mem_present.mpr ⟨r, hr, ?_⟩, r.id_offer line lineEnd⟩
      rw [← hmet]
    | some labels =>
      refine .inr (.inl ?_)
      rw [List.map_map]
      exact List.mem_map.mpr ⟨(r.id, labels), mem_metBy.mpr ⟨r, hr, rfl, hmet⟩, rfl⟩

lemma Answers.rejectAll (hs : Sound l) (h : Answers l) (cause : Cause) :
    Answers (l.rejectAll cause).1 := by
  refine h.settle (rejectAll_tickets l cause) (hs.nodup_pending _) fun r hr => .inr (.inl ?_)
  rw [List.map_map]
  exact List.mem_map_of_mem hr

lemma Answers.apply (hs : Sound l) (h : Answers l) (op : Op) : Answers (l.apply op) := by
  cases op with
  | register e deadline start => exact h.register e deadline start
  | drop id => exact h.modify id (fun t ht => by simp [Ticket.drop] at ht) fun t ht => ht
  | collect id =>
    exact h.modify id (fun t ht => ht) fun t ht => by rw [Ticket.value?_collect]; exact ht
  | dispatch now line lineEnd =>
    have hcount : Answers l.countLine := h
    rw [Ledger.apply, dispatch_eq]
    exact (hcount.expire hs.countLine now).present (hs.countLine.expire now) line lineEnd
  | sweep now => exact h.expire hs now
  | rejectAll cause => exact h.rejectAll hs cause

lemma Answers.run (hs : Sound l) (h : Answers l) (ops : List Op) : Answers (l.run ops) := by
  induction ops generalizing l with
  | nil => exact h
  | cons op ops ih => exact ih (hs.apply op) (h.apply hs op)

lemma Answers.isSome_outcome? (h : Answers l) (hempty : l.pending = []) {id : ℕ}
    (hheld : l.isHeld id = true) : (l.outcome? id).isSome = true := by
  rw [isHeld, Option.any_eq_true] at hheld
  obtain ⟨t, ht, hheld⟩ := hheld
  rcases h id t ht hheld with ⟨r, hr, -⟩ | hvalue
  · simp [hempty] at hr
  · rwa [outcome?, ht]

/-! ### The cause of the closing -/

/-- Whoever still holds the ticket has this outcome. -/
def Tells (l : Ledger) (id : ℕ) (o : Outcome) : Prop :=
  ∃ t, l.ticket? id = some t ∧ (t.held = true → t.value? = some o)

lemma Tells.outcome?_eq {id : ℕ} {o : Outcome} (h : Tells l id o) (hheld : l.isHeld id = true) :
    l.outcome? id = some o := by
  obtain ⟨t, ht, hvalue⟩ := h
  rw [isHeld, ht, Option.any_some] at hheld
  rw [outcome?, ht]
  exact hvalue hheld

lemma tells_rejectAll (hs : Sound l) {r : Request} (hr : r ∈ l.pending) (cause : Cause) :
    Tells (l.rejectAll cause).1 r.id (.rejected cause) := by
  obtain ⟨held, ht⟩ := hs.awaiting r hr
  refine ⟨({ Ticket.pending r.id with held } : Ticket).resolve (.rejected cause), ?_, fun h => ?_⟩
  · rw [ticket?, rejectAll_tickets, getElem?_settleAll_of_mem (hs.nodup_pending _)
      (List.mem_map.mpr ⟨r, hr, rfl⟩), ← ticket?, ht]
    rfl
  · rw [held_resolve] at h
    obtain rfl : held = true := h
    rfl

lemma Tells.apply (hclosed : l.closed = true) (hempty : l.pending = []) {id : ℕ} {o : Outcome}
    (h : Tells l id o) {op : Op} (hcalm : op.isCalm = true) : Tells (l.apply op) id o := by
  obtain ⟨t, ht, hvalue⟩ := h
  cases op with
  | register e deadline start =>
    rw [Ledger.apply, register_of_closed hclosed]
    exact ⟨t, ht, hvalue⟩
  | sweep now =>
    refine ⟨t, ?_, hvalue⟩
    rw [Ledger.apply, ticket?, expire_tickets, dueAt, hempty]
    exact ht
  | drop other =>
    refine ⟨if other = id then t.drop else t, ?_, fun hheld => ?_⟩
    · rw [Ledger.apply, Ledger.drop, ticket?, List.getElem?_modify, ← ticket?, ht]
      rfl
    · split at hheld
      · simp [Ticket.drop] at hheld
      · rename_i hne
        rw [if_neg hne]
        exact hvalue hheld
  | collect other =>
    refine ⟨if other = id then t.collect else t, ?_, fun hheld => ?_⟩
    · rw [Ledger.apply, Ledger.collect, ticket?, List.getElem?_modify, ← ticket?, ht]
      rfl
    · split at hheld
      · rename_i heq
        rw [if_pos heq, Ticket.value?_collect]
        exact hvalue hheld
      · rename_i hne
        rw [if_neg hne]
        exact hvalue hheld
  | dispatch now line lineEnd | rejectAll cause => simp [Op.isCalm] at hcalm

end Ledger

end LogWatch
