import Mathlib
import LogWatch.Proofs.Request.Books

/-!
The accounts of a ledger: after any operations, what was asked for is what was observed, expired,
rejected, is still pending, or was forgotten.
-/

namespace LogWatch

namespace Ledger

/-- The ledger that was opened so, after these operations. -/
def after (closed : Bool) (ops : List Op) : Ledger := (opening closed).run ops

/-- The fates of its requests, in the order in which they were asked for. -/
def fates (closed : Bool) (ops : List Op) : List Fate := ((Roll.begin closed).run ops).fates

/-- How many of the requests that were pending end in such a way by the next operation. -/
def endedBy (closed : Bool) (ops : List Op) (op : Op) (p : Outcome → Bool) : ℕ :=
  (after closed ops).pending.countP fun r =>
    (fates closed (ops ++ [op]))[r.id]?.any (Fate.endedAs p)

/-- The accounts of a ledger after some operations. -/
structure Accounts (closed : Bool) (ops : List Op) : Prop where
  /-- Every call for a request has one fate. -/
  called : (fates closed ops).length = ops.countP Op.isRegister
  balance : ops.countP Op.isRegister =
    (after closed ops).tally.observed + (after closed ops).tally.expired +
      (after closed ops).tally.rejected + (after closed ops).pending.length +
      (fates closed ops).countP Fate.isForgotten
  observed : (after closed ops).tally.observed =
    (fates closed ops).countP (Fate.endedAs Outcome.isObserved)
  expired : (after closed ops).tally.expired =
    (fates closed ops).countP (Fate.endedAs Outcome.isExpired)
  rejected : (after closed ops).tally.rejected =
    (fates closed ops).countP (Fate.endedAs Outcome.isRejected)
  /-- A caller is handed a ticket, numbered by the calls before unless the request is refused. As
  long as it is kept, it shows the outcome that is counted. -/
  told : ∀ before e deadline start rest, ops = before ++ .register e deadline start :: rest →
    (∀ id ∈ ((after closed before).register e deadline start).2,
      id = before.countP Op.isRegister) ∧
    ∃ t f, (after closed ops).handed ((after closed before).register e deadline start).2 = some t ∧
      (fates closed ops)[before.countP Op.isRegister]? = some f ∧
      (t.held = true → t.value? = f.outcome?)
  /-- A request is forgotten when its ticket was dropped while it was pending and a line or a sweep
  came next, before the closing. -/
  forgotten : ∀ k, (fates closed ops)[k]? = some .forgotten ↔
    ∃ before mid op rest, ops = before ++ .drop k :: mid ++ op :: rest ∧
      (∃ r ∈ (after closed before).pending, r.id = k) ∧
      (∀ x ∈ mid, x.happening? = none) ∧ op.looks = true
  /-- A request that was dropped while it was pending is not among the observed or the expired. -/
  unclaimed : ∀ before k rest f, ops = before ++ .drop k :: rest →
    (∃ r ∈ (after closed before).pending, r.id = k) → (fates closed ops)[k]? = some f →
      f.endedAs Outcome.isObserved = false ∧ f.endedAs Outcome.isExpired = false
  lines : (after closed ops).tally.lines = ops.countP Op.isDispatch
  /-- A line is answered with the number of requests that it satisfies. -/
  dispatch : ∀ now line lineEnd, let n := ((after closed ops).dispatch now line lineEnd).2
    n = endedBy closed ops (.dispatch now line lineEnd) Outcome.isObserved ∧
      (after closed (ops ++ [.dispatch now line lineEnd])).tally.observed =
        (after closed ops).tally.observed + n
  /-- A sweep is answered with the number of requests that expire. -/
  sweep : ∀ now, let n := ((after closed ops).expire now).2
    n = endedBy closed ops (.sweep now) Outcome.isExpired ∧
      (after closed (ops ++ [.sweep now])).tally.expired = (after closed ops).tally.expired + n
  /-- The closing is answered with the number of requests that it rejects. -/
  rejectAll : ∀ cause, let n := ((after closed ops).rejectAll cause).2
    n = endedBy closed ops (.rejectAll cause) Outcome.isRejected ∧
      (after closed (ops ++ [.rejectAll cause])).tally.rejected =
        (after closed ops).tally.rejected + n

variable {l : Ledger} {roll : Roll}

lemma Shows.value?_eq {id : ℕ} {t : Ticket} {f : Fate} (h : Shows id t f)
    (hheld : t.held = true) : t.value? = f.outcome? := by
  cases h with
  | waiting hid hticket => rw [hticket]; rfl
  | ended told => exact told hheld
  | forgotten dropped => cases hheld.symm.trans dropped

lemma Books.waits_iff (h : Books l roll) {k : ℕ} :
    roll.Waits k ↔ ∃ r ∈ l.pending, r.id = k := by
  constructor
  · rintro ⟨r, held, hf⟩
    refine ⟨r, ?_, (h.waiting_eq hf).1⟩
    rw [h.pending]
    exact List.mem_filterMap.mpr ⟨_, List.mem_of_getElem? hf, rfl⟩
  · rintro ⟨r, hr, rfl⟩
    rw [h.pending] at hr
    obtain ⟨f, hf, hreq⟩ := List.mem_filterMap.mp hr
    obtain ⟨held, rfl⟩ := Fate.request?_eq_some hreq
    obtain ⟨i, hi⟩ := List.mem_iff_getElem?.mp hf
    obtain ⟨rfl, -⟩ := h.waiting_eq hi
    exact ⟨r, held, hi⟩

lemma Books.length_pending (h : Books l roll) :
    l.pending.length = roll.fates.countP Fate.isWaiting := by
  rw [h.pending, List.length_filterMap_eq_countP]
  exact List.countP_congr fun f _ => by rw [Fate.isSome_request?]

lemma Books.length_fates (h : Books l roll) :
    roll.fates.length = l.tally.observed + l.tally.expired + l.tally.rejected +
      l.pending.length + roll.fates.countP Fate.isForgotten := by
  rw [Fate.length_eq roll.fates, h.length_pending, h.observed, h.expired, h.rejected]

lemma length_tickets_apply (l : Ledger) (op : Op) :
    l.tickets.length ≤ (l.apply op).tickets.length := by
  cases op with
  | register e deadline start =>
    cases hc : l.closed with
    | true => rw [apply, register_of_closed hc]
    | false => rw [apply, register_of_open hc, List.length_append]; omega
  | drop k | collect k => exact (List.length_modify ..).ge
  | dispatch now line lineEnd =>
    rw [apply, dispatch_eq, present_tickets, Books.length_settleAll, expire_tickets,
      Books.length_settleAll]
    exact le_rfl
  | sweep now => rw [apply, expire_tickets, Books.length_settleAll]
  | rejectAll cause => rw [apply, rejectAll_tickets, Books.length_settleAll]

lemma length_tickets_run (l : Ledger) (ops : List Op) :
    l.tickets.length ≤ (l.run ops).tickets.length := by
  induction ops generalizing l with
  | nil => exact le_rfl
  | cons op ops ih => exact (length_tickets_apply l op).trans (ih _)

lemma lines_run (l : Ledger) (ops : List Op) :
    (l.run ops).tally.lines = l.tally.lines + ops.countP Op.isDispatch := by
  induction ops generalizing l with
  | nil => rfl
  | cons op ops ih =>
    have hstep : (l.apply op).tally.lines = l.tally.lines + if op.isDispatch then 1 else 0 := by
      cases op with
      | register e deadline start =>
        cases hc : l.closed with
        | true => rw [apply, register_of_closed hc]; rfl
        | false => rw [apply, register_of_open hc]; rfl
      | drop | collect | dispatch | sweep | rejectAll => rfl
    rw [run_cons, ih, hstep, List.countP_cons]
    omega

/-! ### Requests that an operation ends -/

lemma Books.countP_onward (h : Books l roll) {g : Fate → Fate} (hg : Fate.Onward g)
    (p : Outcome → Bool) : (roll.fates.map g).countP (Fate.endedAs p) =
      roll.fates.countP (Fate.endedAs p) +
        l.pending.countP fun r => (roll.fates.map g)[r.id]?.any (Fate.endedAs p) := by
  rw [hg.countP_map, h.pending, List.countP_filterMap, List.countP_filterMap]
  refine congrArg _ (List.countP_congr fun f hf => ?_)
  cases hreq : f.request? with
  | none =>
    rw [newly_none f hreq]
    rfl
  | some r =>
    obtain ⟨held, rfl⟩ := Fate.request?_eq_some hreq
    obtain ⟨i, hi⟩ := List.mem_iff_getElem?.mp hf
    obtain ⟨rfl, -⟩ := h.waiting_eq hi
    cases hgf : g (.waiting r held) <;>
      simp [Fate.newly, Fate.request?, hgf, Fate.outcome?, hi, Fate.endedAs]

variable (closed : Bool) (ops : List Op)

lemma books_after : Books (after closed ops) ((Roll.begin closed).run ops) :=
  (Books.opening closed).run ops

lemma length_fates : (fates closed ops).length = ops.countP Op.isRegister := by
  rw [fates, Roll.length_run]
  exact Nat.zero_add _

lemma fates_forgotten_iff (k : ℕ) : (fates closed ops)[k]? = some .forgotten ↔
    ∃ before mid op rest, ops = before ++ .drop k :: mid ++ op :: rest ∧
      (∃ r ∈ (after closed before).pending, r.id = k) ∧
      (∀ x ∈ mid, x.happening? = none) ∧ op.looks = true := by
  have hwaits := fun before => (books_after closed before).waits_iff (k := k)
  rw [fates, Roll.forgotten_iff]
  constructor
  · rintro ⟨_, op, rest, rfl, ⟨before, mid, rfl, hw, hmid⟩, hlooks⟩
    exact ⟨before, mid, op, rest, by simp, (hwaits before).mp hw, hmid, hlooks⟩
  · rintro ⟨before, mid, op, rest, rfl, hw, hmid, hlooks⟩
    exact ⟨before ++ .drop k :: mid, op, rest, by simp,
      ⟨before, mid, rfl, (hwaits before).mpr hw, hmid⟩, hlooks⟩

/-- The answer `n` of an operation that adds it to a count of outcomes is how many pending requests
the operation ends so. -/
lemma answer_eq {op : Op} {g : Fate → Fate} (hg : Fate.Onward g)
    (hop : ∀ id f, Fate.meet id op f = g f) (hregister : op.isRegister = false)
    {p : Outcome → Bool} {count : Tally → ℕ}
    (hcount : ∀ ops, count (after closed ops).tally = (fates closed ops).countP (Fate.endedAs p))
    {n : ℕ}
    (hadded : count (after closed (ops ++ [op])).tally = count (after closed ops).tally + n) :
    n = endedBy closed ops op p ∧
      count (after closed (ops ++ [op])).tally = count (after closed ops).tally + n := by
  have hfates : fates closed (ops ++ [op]) = (fates closed ops).map g := by
    rw [fates, Roll.run_append]
    exact Roll.fates_apply_of_same _ hop hregister
  have hended : (fates closed (ops ++ [op])).countP (Fate.endedAs p) =
      (fates closed ops).countP (Fate.endedAs p) + endedBy closed ops op p := by
    rw [endedBy, hfates]
    exact (books_after closed ops).countP_onward hg p
  rw [← hcount, ← hcount, hadded] at hended
  exact ⟨Nat.add_left_cancel hended, hadded⟩

/-! ### The calls -/

/-- What is handed to a caller shows what becomes of the request, as long as it is kept. -/
lemma handed_shows (before : List Op) (e : Event) (deadline : Option ℕ) (start : Option Position)
    (rest : List Op) :
    (∀ id ∈ ((after closed before).register e deadline start).2,
      id = before.countP Op.isRegister) ∧
    ∃ t f, (after closed (before ++ .register e deadline start :: rest)).handed
        ((after closed before).register e deadline start).2 = some t ∧
      (fates closed (before ++ .register e deadline start :: rest))[before.countP Op.isRegister]? =
        some f ∧ (t.held = true → t.value? = f.outcome?) := by
  have hbefore := books_after closed before
  have hafter := books_after closed (before ++ .register e deadline start :: rest)
  have hlength : ((Roll.begin closed).run before).fates.length = before.countP Op.isRegister :=
    length_fates closed before
  have hfate : (fates closed (before ++ .register e deadline start :: rest))[
      before.countP Op.isRegister]? =
      some ((((Roll.begin closed).run before).entry e deadline start).live
        (before.countP Op.isRegister) rest) := by
    rw [fates, Roll.run_append, Roll.run_cons]
    refine Roll.getElem?_run ?_ rest
    rw [Roll.fates_register, ← hlength, List.getElem?_concat_length]
  -- a request that is refused has no number, and a ticket that is settled from the start
  cases hc : (after closed before).closed with
  | true =>
    rw [register_of_closed hc]
    have hentry : ((Roll.begin closed).run before).entry e deadline start = .refused := by
      rw [Roll.entry, hbefore.closed, hc]
      rfl
    rw [hentry, Fate.live_of_gone rfl] at hfate
    exact ⟨by simp, .refused, .refused, rfl, hfate, fun _ => rfl⟩
  | false =>
    have hnumber : (after closed before).tickets.length = before.countP Op.isRegister :=
      (hbefore.numbered hc).symm.trans hlength
    have hlt : before.countP Op.isRegister <
        (after closed (before ++ .register e deadline start :: rest)).tickets.length := by
      have hgrow :=
        length_tickets_run ((after closed before).apply (.register e deadline start)) rest
      rw [apply, register_of_open hc, List.length_append] at hgrow
      rw [after, run_append, run_cons, ← hnumber]
      rw [apply, ← after, register_of_open hc]
      exact Nat.lt_of_lt_of_le (Nat.lt_succ_self _) hgrow
    rw [register_of_open hc, hnumber]
    have hticket := List.getElem?_eq_getElem hlt
    obtain ⟨f, hf, hshows⟩ := hafter.ticket _ _ hticket
    exact ⟨by simp, _, f, hticket, hf, hshows.value?_eq⟩

/-! ### The accounts -/

/-- **Every request is counted once.** Whatever is done to a ledger, in whatever order and with
tickets dropped at any point, no request is lost from its accounts or counted twice. -/
theorem every_request_counted_once : Accounts closed ops where
  called := length_fates closed ops
  balance := length_fates closed ops ▸ (books_after closed ops).length_fates
  observed := (books_after closed ops).observed
  expired := (books_after closed ops).expired
  rejected := (books_after closed ops).rejected
  told before e deadline start rest hops := by
    subst hops
    exact handed_shows closed before e deadline start rest
  forgotten := fates_forgotten_iff closed ops
  unclaimed before k rest f hops hpending hf := by
    subst hops
    have hwaits := (books_after closed before).waits_iff.mpr hpending
    have hobserved : ∀ o : Outcome, o.isObserved = true → o.isRejected = false
      | .observed _, _ => rfl
    have hexpired : ∀ o : Outcome, o.isExpired = true → o.isRejected = false
      | .expired, _ => rfl
    exact ⟨Roll.not_endedAs_of_dropped hwaits hobserved hf,
      Roll.not_endedAs_of_dropped hwaits hexpired hf⟩
  lines := by
    rw [after, lines_run]
    exact Nat.zero_add _
  dispatch now line lineEnd :=
    answer_eq closed ops ((Fate.onward_lapse now).comp (Fate.onward_read line lineEnd))
      (fun _ _ => rfl) rfl (fun ops => (books_after closed ops).observed)
      (by rw [after, run_append]; rfl)
  sweep now :=
    answer_eq closed ops (Fate.onward_lapse now) (fun _ _ => rfl) rfl
      (fun ops => (books_after closed ops).expired) (by rw [after, run_append]; rfl)
  rejectAll cause :=
    answer_eq closed ops (Fate.onward_close cause) (fun _ _ => rfl) rfl
      (fun ops => (books_after closed ops).rejected) (by rw [after, run_append]; rfl)

end Ledger

end LogWatch
