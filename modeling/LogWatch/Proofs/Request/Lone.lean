import Mathlib
import LogWatch.Proofs.Request.Ledger

/-!
A request in a ledger ends as if it were there alone.

`Lone` is one request by itself, reading what happens to the whole ledger: lines, sweeps of the
clock and the end. It knows of no other request. The relation `Mirrors` ties it to a ledger in
which a request with the same event, deadline and start is pending, and every operation on the
ledger that does not drop this request's ticket keeps it.
-/

namespace LogWatch

/-- What happens to all requests of a ledger at once. -/
inductive Happening where
  | line (now : ℕ) (text : String) (lineEnd : Position)
  | sweep (now : ℕ)
  | close (cause : Cause)
deriving DecidableEq

/-- What an operation is to a request that it was not made for. -/
def Ledger.Op.happening? : Ledger.Op → Option Happening
  | register _ _ _ | drop _ | collect _ => none
  | dispatch now text lineEnd => some (.line now text lineEnd)
  | sweep now => some (.sweep now)
  | rejectAll cause => some (.close cause)

/-- One request by itself. -/
structure Lone where
  progress : Progress
  deadline : Option ℕ
  start : Option Position
  outcome : Option Outcome

namespace Lone

def begin (e : Event) (deadline : Option ℕ) (start : Option Position) : Lone :=
  ⟨.start e, deadline, start, none⟩

def due (a : Lone) (now : ℕ) : Bool := a.deadline.any (· ≤ now)

/-- Whether a line had been written before the request was made. -/
def early (a : Lone) (lineEnd : Position) : Bool := a.start.any (lineEnd ≤ ·)

/-- A line is for a request that is neither due nor later than the line; it may satisfy it. -/
def step (a : Lone) (h : Happening) : Lone :=
  match a.outcome, h with
  | some _, _ => a
  | none, .line now text lineEnd =>
    if a.due now then { a with outcome := some .expired }
    else if a.early lineEnd then a
    else
      let (progress, satisfied) := a.progress.observe text
      { a with progress, outcome := if satisfied then some (.observed progress.labels) else none }
  | none, .sweep now => if a.due now then { a with outcome := some .expired } else a
  | none, .close cause => { a with outcome := some (.rejected cause) }

def run (a : Lone) (hs : List Happening) : Lone := hs.foldl step a

@[simp] lemma run_nil (a : Lone) : a.run [] = a := rfl
@[simp] lemma run_cons (a : Lone) (h : Happening) (hs : List Happening) :
    a.run (h :: hs) = (a.step h).run hs := rfl
lemma run_append (a : Lone) (hs more : List Happening) :
    a.run (hs ++ more) = (a.run hs).run more := by
  simp [run, List.foldl_append]

lemma step_of_outcome {a : Lone} {o : Outcome} (h : a.outcome = some o) (x : Happening) :
    a.step x = a := by
  simp [step, h]

lemma run_of_outcome {a : Lone} {o : Outcome} (h : a.outcome = some o) (hs : List Happening) :
    a.run hs = a := by
  induction hs with
  | nil => rfl
  | cons x hs ih => rw [run_cons, step_of_outcome h, ih]

/-- Reads a line to a request that is not due. -/
def read (a : Lone) (text : String) (lineEnd : Position) : Lone :=
  if a.outcome.isSome || a.early lineEnd then a
  else
    { a with
      progress := (a.progress.observe text).1
      outcome := if (a.progress.observe text).2
        then some (.observed (a.progress.observe text).1.labels) else none }

lemma step_line_eq (a : Lone) (now : ℕ) (text : String) (lineEnd : Position) :
    a.step (.line now text lineEnd) = (a.step (.sweep now)).read text lineEnd := by
  cases ho : a.outcome with
  | some o => simp [step_of_outcome ho, read, ho]
  | none =>
    cases hd : a.due now with
    | true => simp [step, ho, hd, read]
    | false => cases he : a.early lineEnd <;> simp [step, ho, hd, he, read]

/-- The request as it stands in a ledger under a number. -/
def request (id : ℕ) (a : Lone) : Request := ⟨id, a.progress, a.deadline, a.start⟩

lemma due_eq (id : ℕ) (a : Lone) (now : ℕ) : (a.request id).overdue now = a.due now := rfl

lemma early_eq (id : ℕ) (a : Lone) (lineEnd : Position) :
    (a.request id).predates lineEnd = a.early lineEnd := rfl

end Lone

namespace Ledger

/-- In the ledger the request numbered `id` stands as the lone one does: it is pending and its
ticket untouched, or it is gone and its ticket shows the outcome. -/
inductive Mirrors (id : ℕ) (l : Ledger) (a : Lone) : Prop where
  | waiting (open' : a.outcome = none) (mem : a.request id ∈ l.pending)
      (ticket : l.ticket? id = some (.pending id))
  | settled (o : Outcome) (done : a.outcome = some o) (gone : ∀ r ∈ l.pending, r.id ≠ id)
      (ticket : ∃ t, l.ticket? id = some t ∧ t.value? = some o)

variable {id : ℕ} {l : Ledger} {a : Lone}

lemma Mirrors.outcome_eq (h : Mirrors id l a) : l.outcome? id = a.outcome := by
  cases h with
  | waiting hopen _ hticket => rw [outcome?, hticket, hopen]; rfl
  | settled o hdone _ hticket =>
    obtain ⟨t, ht, hvalue⟩ := hticket
    rw [outcome?, ht, hdone]
    exact hvalue

/-! ### Numbers settled by an operation -/

lemma map_fst_metBy (l : Ledger) (line : String) (lineEnd : Position) :
    (l.metBy line lineEnd).map Prod.fst =
      (l.pending.filter fun q => (q.offer line lineEnd).2.isSome).map (·.id) := by
  simp only [metBy, List.filterMap_map, Function.comp_def]
  induction l.pending with
  | nil => rfl
  | cons q rest ih => cases h : (q.offer line lineEnd).2 <;> simpa [h] using ih

lemma Sound.nodup_due (h : Sound l) (now : ℕ) (o : Outcome) :
    (((l.dueAt now).map fun r => (r.id, o)).map Prod.fst).Nodup := by
  rw [List.map_map]
  exact h.nodup_id.sublist ((List.filter_sublist.trans List.filter_sublist).map _)

lemma Sound.nodup_met (h : Sound l) (line : String) (lineEnd : Position) :
    (((l.metBy line lineEnd).map fun m => (m.1, Outcome.observed m.2)).map Prod.fst).Nodup := by
  rw [List.map_map]
  refine (?_ : ((l.metBy line lineEnd).map Prod.fst).Nodup)
  rw [map_fst_metBy]
  exact h.nodup_id.sublist (List.filter_sublist.map _)

lemma Sound.nodup_pending (h : Sound l) (o : Outcome) :
    ((l.pending.map fun r => (r.id, o)).map Prod.fst).Nodup := by
  rw [List.map_map]
  exact h.nodup_id

lemma mirrors_of_gone {m : Ledger} {o : Outcome} (hdone : a.outcome = some o)
    (hgone : ∀ r ∈ l.pending, r.id ≠ id)
    (hticket : ∃ t, l.ticket? id = some t ∧ t.value? = some o)
    (hpending : ∀ r ∈ m.pending, ∃ q ∈ l.pending, q.id = r.id) {outs : List (ℕ × Outcome)}
    (htickets : m.tickets = settleAll outs l.tickets)
    (houts : ∀ out ∈ outs, ∃ r ∈ l.pending, r.id = out.1) : Mirrors id m a := by
  refine .settled o hdone (fun r hr hid => ?_) ?_
  · obtain ⟨q, hq, hqid⟩ := hpending r hr
    exact hgone q hq (hqid.trans hid)
  · rw [ticket?, htickets, getElem?_settleAll_of_notMem]
    · exact hticket
    · intro hmem
      obtain ⟨out, hout, rfl⟩ := List.mem_map.mp hmem
      obtain ⟨r, hr, hid⟩ := houts out hout
      exact hgone r hr hid

lemma mirrors_of_settled {m : Ledger} {o : Outcome} (hdone : a.outcome = some o)
    (hticket : l.ticket? id = some (.pending id)) (hgone : ∀ r ∈ m.pending, r.id ≠ id)
    {outs : List (ℕ × Outcome)} (htickets : m.tickets = settleAll outs l.tickets)
    (hnodup : (outs.map Prod.fst).Nodup) (hin : (id, o) ∈ outs) : Mirrors id m a := by
  refine .settled o hdone hgone ⟨(Ticket.pending id).resolve o, ?_, rfl⟩
  rw [ticket?, htickets, getElem?_settleAll_of_mem hnodup hin, ← ticket?, hticket]
  rfl

lemma mirrors_of_kept {m : Ledger} (hopen : a.outcome = none)
    (hticket : l.ticket? id = some (.pending id)) (hmem : a.request id ∈ m.pending)
    {outs : List (ℕ × Outcome)} (htickets : m.tickets = settleAll outs l.tickets)
    (houts : ∀ out ∈ outs, out.1 ≠ id) : Mirrors id m a := by
  refine .waiting hopen hmem ?_
  rw [ticket?, htickets, getElem?_settleAll_of_notMem]
  · exact hticket
  · intro hin
    obtain ⟨out, hout, hid⟩ := List.mem_map.mp hin
    exact houts out hout hid

/-! ### Each operation keeps the relation -/

lemma Mirrors.register (h : Mirrors id l a) (e : Event) (deadline : Option ℕ)
    (start : Option Position) : Mirrors id (l.register e deadline start).1 a := by
  cases hc : l.closed with
  | true =>
    rw [register_of_closed hc]
    cases h with
    | waiting hopen hmem hticket => exact .waiting hopen hmem hticket
    | settled o hdone hgone hticket => exact .settled o hdone hgone hticket
  | false =>
    rw [register_of_open hc]
    have hold : ∀ t, l.ticket? id = some t → id < l.tickets.length ∧
        (l.tickets ++ [Ticket.pending l.tickets.length])[id]? = some t := by
      intro t ht
      have hlt := (List.getElem?_eq_some_iff.mp ht).1
      exact ⟨hlt, by rw [List.getElem?_append_left hlt]; exact ht⟩
    cases h with
    | waiting hopen hmem hticket =>
      exact .waiting hopen (List.mem_append_left _ hmem) (hold _ hticket).2
    | settled o hdone hgone hticket =>
      obtain ⟨t, ht, hvalue⟩ := hticket
      refine .settled o hdone (fun r hr => ?_) ⟨t, (hold t ht).2, hvalue⟩
      rcases List.mem_append.mp hr with hr | hr
      · exact hgone r hr
      · rw [List.mem_singleton.mp hr]
        exact Nat.ne_of_gt (hold t ht).1

lemma Mirrors.drop (h : Mirrors id l a) {other : ℕ} (hne : other ≠ id) :
    Mirrors id (l.drop other) a := by
  have hticket : (l.drop other).ticket? id = l.ticket? id := by
    simp [Ledger.drop, ticket?, hne]
  cases h with
  | waiting hopen hmem ht => exact .waiting hopen hmem (hticket.trans ht)
  | settled o hdone hgone ht => exact .settled o hdone hgone (by rwa [hticket])

lemma Mirrors.collect (h : Mirrors id l a) (other : ℕ) : Mirrors id (l.collect other) a := by
  have hticket : (l.collect other).ticket? id =
      (l.ticket? id).map fun t => if other = id then t.collect else t := by
    simp [Ledger.collect, ticket?, List.getElem?_modify]
  cases h with
  | waiting hopen hmem ht =>
    refine .waiting hopen hmem ?_
    rw [hticket, ht]
    simp [Ticket.collect, Ticket.pending, Ticket.value?]
  | settled o hdone hgone ht =>
    obtain ⟨t, ht, hvalue⟩ := ht
    refine .settled o hdone hgone ⟨_, by rw [hticket, ht]; rfl, ?_⟩
    split
    · rw [Ticket.value?_collect, hvalue]
    · exact hvalue

lemma Mirrors.expire (hs : Sound l) (h : Mirrors id l a) (now : ℕ) :
    Mirrors id (l.expire now).1 (a.step (.sweep now)) := by
  have hsub : ∀ r ∈ (l.expire now).1.pending, r ∈ l.pending := fun r hr =>
    List.mem_of_mem_filter (List.mem_of_mem_filter hr)
  have hdue : ∀ r ∈ l.dueAt now, r ∈ l.pending ∧ r.overdue now = true := fun r hr =>
    ⟨List.mem_of_mem_filter (List.mem_of_mem_filter hr), (List.mem_filter.mp hr).2⟩
  have htickets := expire_tickets l now
  cases h with
  | settled o hdone hgone hticket =>
    rw [Lone.step_of_outcome hdone]
    refine mirrors_of_gone hdone hgone hticket (fun r hr => ⟨r, hsub r hr, rfl⟩) htickets ?_
    intro out hout
    obtain ⟨r, hr, rfl⟩ := List.mem_map.mp hout
    exact ⟨r, (hdue r hr).1, rfl⟩
  | waiting hopen hmem hticket =>
    have hself : ∀ r ∈ l.pending, r.id = id → r = a.request id := fun r hr hid =>
      hs.eq_of_id hr hmem hid
    have hheld : l.isHeld id = true := by simp [isHeld, hticket, Ticket.pending]
    have hwanted : a.request id ∈ l.pending.filter fun r => l.isHeld r.id :=
      List.mem_filter.mpr ⟨hmem, hheld⟩
    -- ledger and lone request both go by whether it is due
    cases hnow : a.due now with
    | true =>
      simp only [Lone.step, hopen, hnow, if_true]
      refine mirrors_of_settled rfl hticket (fun r hr hid => ?_) htickets
        (hs.nodup_due now .expired) ?_
      · rw [hself r (hsub r hr) hid, expire_pending, List.mem_filter] at hr
        simp [Lone.due_eq, hnow] at hr
      · exact List.mem_map.mpr ⟨a.request id, List.mem_filter.mpr ⟨hwanted, hnow⟩, rfl⟩
    | false =>
      simp only [Lone.step, hopen, hnow, Bool.false_eq_true, if_false]
      refine mirrors_of_kept hopen hticket ?_ htickets fun out hout hid => ?_
      · rw [expire_pending]
        exact List.mem_filter.mpr ⟨hwanted, by simp [Lone.due_eq, hnow]⟩
      · obtain ⟨r, hr, rfl⟩ := List.mem_map.mp hout
        have hover := (hdue r hr).2
        rw [hself r (hdue r hr).1 hid, Lone.due_eq, hnow] at hover
        exact Bool.false_ne_true hover

/-- A line that is kept from a pending request, or does not satisfy it, leaves it pending. -/
lemma mirrors_of_unmet (hs : Sound l) (hmem : a.request id ∈ l.pending)
    (hticket : l.ticket? id = some (.pending id)) {text : String} {lineEnd : Position}
    {a' : Lone} (hopen : a'.outcome = none)
    (hoffer : (a.request id).offer text lineEnd = (a'.request id, none)) :
    Mirrors id (l.present text lineEnd) a' := by
  refine mirrors_of_kept hopen hticket (mem_present.mpr ⟨_, hmem, hoffer⟩)
    (present_tickets l text lineEnd) fun out hout hid => ?_
  obtain ⟨⟨i, labels⟩, hmet, rfl⟩ := List.mem_map.mp hout
  obtain ⟨q, hq, hi, hlabels⟩ := mem_metBy.mp hmet
  rw [hs.eq_of_id hq hmem (hi.trans hid), hoffer] at hlabels
  simp at hlabels

lemma mirrors_of_met (hs : Sound l) (hmem : a.request id ∈ l.pending)
    (hticket : l.ticket? id = some (.pending id)) {text : String} {lineEnd : Position}
    {a' : Lone} {labels : List String} (hdone : a'.outcome = some (.observed labels))
    (hoffer : ((a.request id).offer text lineEnd).2 = some labels) :
    Mirrors id (l.present text lineEnd) a' := by
  refine mirrors_of_settled hdone hticket (fun r hr hid => ?_) (present_tickets l text lineEnd)
    (hs.nodup_met text lineEnd) ?_
  · obtain ⟨q, hq, hqoffer⟩ := mem_present.mp hr
    have hqid : q.id = id := by rw [← q.id_offer text lineEnd, hqoffer, hid]
    rw [← hs.eq_of_id hq hmem hqid, hqoffer] at hoffer
    simp at hoffer
  · exact List.mem_map.mpr ⟨(id, labels), mem_metBy.mpr ⟨_, hmem, rfl, hoffer⟩, rfl⟩

lemma Mirrors.present (hs : Sound l) (h : Mirrors id l a) (text : String) (lineEnd : Position) :
    Mirrors id (l.present text lineEnd) (a.read text lineEnd) := by
  cases h with
  | settled o hdone hgone hticket =>
    simp only [Lone.read, hdone, Option.isSome_some, Bool.true_or, if_true]
    refine mirrors_of_gone hdone hgone hticket (fun r hr => ?_) (present_tickets l text lineEnd) ?_
    · obtain ⟨q, hq, hoffer⟩ := mem_present.mp hr
      exact ⟨q, hq, by rw [← q.id_offer text lineEnd, hoffer]⟩
    · intro out hout
      obtain ⟨⟨i, labels⟩, hmet, rfl⟩ := List.mem_map.mp hout
      obtain ⟨q, hq, hi, -⟩ := mem_metBy.mp hmet
      exact ⟨q, hq, hi⟩
  | waiting hopen hmem hticket =>
    -- a line that was written before is kept from it
    cases hearly : a.early lineEnd with
    | true =>
      have hoffer := Request.offer_of_predates (r := a.request id) hearly text
      simp only [Lone.read, hopen, hearly, Bool.or_true, if_true]
      exact mirrors_of_unmet hs hmem hticket hopen hoffer
    | false =>
      have hoffer := Request.offer_of_not_predates (r := a.request id) hearly text
      simp only [Lone.read, hopen, hearly, Option.isSome_none, Bool.or_false, Bool.false_eq_true,
        if_false]
      change (a.request id).offer text lineEnd = ({ a.request id with
        progress := (a.progress.observe text).1 }, if (a.progress.observe text).2
          then some (a.progress.observe text).1.labels else none) at hoffer
      cases hmet : (a.progress.observe text).2 with
      | false =>
        simp only [hmet, Bool.false_eq_true, if_false] at hoffer ⊢
        exact mirrors_of_unmet hs hmem hticket rfl hoffer
      | true =>
        simp only [hmet, if_true] at hoffer ⊢
        exact mirrors_of_met hs hmem hticket rfl (by rw [hoffer])

lemma Mirrors.rejectAll (hs : Sound l) (h : Mirrors id l a) (cause : Cause) :
    Mirrors id (l.rejectAll cause).1 (a.step (.close cause)) := by
  have hnone : ∀ r ∈ (l.rejectAll cause).1.pending, False := by
    intro r hr
    simp [Ledger.rejectAll] at hr
  have htickets := rejectAll_tickets l cause
  cases h with
  | settled o hdone hgone hticket =>
    rw [Lone.step_of_outcome hdone]
    refine mirrors_of_gone hdone hgone hticket (fun r hr => (hnone r hr).elim) htickets ?_
    intro out hout
    obtain ⟨r, hr, rfl⟩ := List.mem_map.mp hout
    exact ⟨r, hr, rfl⟩
  | waiting hopen hmem hticket =>
    simp only [Lone.step, hopen]
    exact mirrors_of_settled rfl hticket (fun r hr => (hnone r hr).elim) htickets
      (hs.nodup_pending _) (List.mem_map.mpr ⟨a.request id, hmem, rfl⟩)

lemma Mirrors.countLine (h : Mirrors id l a) : Mirrors id l.countLine a := by
  cases h with
  | waiting hopen hmem hticket => exact .waiting hopen hmem hticket
  | settled o hdone hgone hticket => exact .settled o hdone hgone hticket

lemma Mirrors.apply (hs : Sound l) (h : Mirrors id l a) {op : Op} (hkept : op ≠ .drop id) :
    Mirrors id (l.apply op) (a.run op.happening?.toList) := by
  cases op with
  | register e deadline start => exact h.register e deadline start
  | drop other => exact h.drop fun heq => hkept (by rw [heq])
  | collect other => exact h.collect other
  | dispatch now text lineEnd =>
    rw [Ledger.apply, dispatch_eq]
    simp only [Op.happening?, Option.toList_some, Lone.run_cons, Lone.run_nil, Lone.step_line_eq]
    exact (h.countLine.expire hs.countLine now).present (hs.countLine.expire now) text lineEnd
  | sweep now => exact h.expire hs now
  | rejectAll cause => exact h.rejectAll hs cause

lemma Mirrors.run (hs : Sound l) (h : Mirrors id l a) {ops : List Op} (hkept : .drop id ∉ ops) :
    Mirrors id (l.run ops) (a.run (ops.filterMap Op.happening?)) := by
  induction ops generalizing l a with
  | nil => exact h
  | cons op ops ih =>
    simp only [List.mem_cons, not_or] at hkept
    have hsplit : (op :: ops).filterMap Op.happening? =
        op.happening?.toList ++ ops.filterMap Op.happening? := by
      cases hop : op.happening? <;> simp [hop]
    rw [hsplit, Lone.run_append, run_cons]
    exact ih (hs.apply op) (h.apply hs (Ne.symm hkept.1)) hkept.2

lemma mirrors_register (hopen : l.closed = false) (e : Event)
    (deadline : Option ℕ) (start : Option Position) :
    Mirrors l.tickets.length (l.register e deadline start).1 (.begin e deadline start) := by
  rw [register_of_open hopen]
  exact .waiting rfl (List.mem_append_right _ (List.mem_singleton_self _)) (by simp [ticket?])

/-- **A request ends as if it were alone.** Whatever the ledger has been through and whatever other
requests come and go, the outcome of a request whose ticket is kept is that of the lone request
that reads the lines, the sweeps and the end in order. -/
theorem outcome_eq_lone (before : List Op) (e : Event) (deadline : Option ℕ)
    (start : Option Position) (after : List Op) (hopen : (fresh.run before).closed = false)
    (hkept : .drop (fresh.run before).tickets.length ∉ after) :
    ((fresh.run before).register e deadline start).2 = some (fresh.run before).tickets.length ∧
      (((fresh.run before).register e deadline start).1.run after).outcome?
          (fresh.run before).tickets.length =
        ((Lone.begin e deadline start).run (after.filterMap Op.happening?)).outcome := by
  have hsound := Sound.fresh.run before
  have hmirrors := mirrors_register hopen e deadline start
  refine ⟨by rw [register_of_open hopen], ?_⟩
  exact (hmirrors.run (hsound.register e deadline start) hkept).outcome_eq

/-- Between a neighbour that is satisfied and one that is dropped, a request for two lines skips a
line written before it and gets its own labels. -/
theorem outcome_eq_lone_between_neighbours :
    (((fresh.run [.register (.pattern "b") none none]).register
        (.and (.pattern "a") (.pattern "b")) (some 9) (some ⟨0, 2⟩)).1.run
      [.register (.pattern "c") (some 1) none, .dispatch 0 "a" ⟨0, 2⟩, .dispatch 0 "b" ⟨0, 4⟩,
        .drop 2, .dispatch 5 "a" ⟨0, 6⟩, .dispatch 9 "b" ⟨0, 8⟩]).outcome? 1 =
      some (.observed ["b", "a"]) := by
  have h := (outcome_eq_lone [.register (.pattern "b") none none]
    (.and (.pattern "a") (.pattern "b")) (some 9) (some ⟨0, 2⟩)
    [.register (.pattern "c") (some 1) none, .dispatch 0 "a" ⟨0, 2⟩, .dispatch 0 "b" ⟨0, 4⟩,
      .drop 2, .dispatch 5 "a" ⟨0, 6⟩, .dispatch 9 "b" ⟨0, 8⟩] rfl (by decide)).2
  exact h.trans (by decide +kernel)

end Ledger

end LogWatch
