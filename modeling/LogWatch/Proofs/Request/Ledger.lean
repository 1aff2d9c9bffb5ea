import Mathlib
import LogWatch.Request.Ledger
import LogWatch.Proofs.Event.Progress

/-!
What holds of a ledger after any sequence of operations.

Pending requests stand in the order of their numbers, the ticket of each is still open, none is
satisfied yet, and a closed ledger has none. An operation settles tickets of requests that it
takes out and of no others, so what it does to a request can be read off that request alone.
-/

namespace LogWatch

namespace Request

variable {r : Request} {lineEnd : Position}

@[simp] lemma id_offer (r : Request) (line : String) (lineEnd : Position) :
    (r.offer line lineEnd).1.id = r.id := by
  unfold offer
  split <;> rfl

lemma offer_of_predates (h : r.predates lineEnd = true) (line : String) :
    r.offer line lineEnd = (r, none) := by
  simp [offer, h]

lemma offer_of_not_predates (h : r.predates lineEnd = false) (line : String) :
    r.offer line lineEnd = ({ r with progress := (r.progress.observe line).1 },
      if (r.progress.observe line).2 then some (r.progress.observe line).1.labels else none) := by
  simp [offer, h]

lemma unmet_offer {line : String} (h : r.progress.satisfied = false)
    (hkept : (r.offer line lineEnd).2 = none) :
    (r.offer line lineEnd).1.progress.satisfied = false := by
  cases hp : r.predates lineEnd with
  | true => rwa [offer_of_predates hp]
  | false =>
    rw [offer_of_not_predates hp] at hkept ⊢
    rw [Progress.observe_eq] at hkept ⊢
    have hsat : (r.progress.feed line).1.satisfied = false := by
      by_contra hc
      simp [hc] at hkept
    exact hsat

lemma overdue_mono {a b : ℕ} (hab : a ≤ b) (h : r.overdue a = true) : r.overdue b = true := by
  obtain ⟨d, hd, hda⟩ := (Option.any_eq_true _ _).mp h
  exact (Option.any_eq_true _ _).mpr ⟨d, hd, decide_eq_true ((of_decide_eq_true hda).trans hab)⟩

end Request

namespace Ledger

/-- What can happen to a ledger. -/
inductive Op where
  | register (e : Event) (deadline : Option ℕ) (start : Option Position)
  | drop (id : ℕ)
  | collect (id : ℕ)
  | dispatch (now : ℕ) (line : String) (lineEnd : Position)
  | sweep (now : ℕ)
  | rejectAll (cause : Cause)
deriving DecidableEq

def apply (l : Ledger) : Op → Ledger
  | .register e deadline start => (l.register e deadline start).1
  | .drop id => l.drop id
  | .collect id => l.collect id
  | .dispatch now line lineEnd => (l.dispatch now line lineEnd).1
  | .sweep now => (l.expire now).1
  | .rejectAll cause => (l.rejectAll cause).1

def run (l : Ledger) (ops : List Op) : Ledger := ops.foldl apply l

@[simp] lemma run_nil (l : Ledger) : l.run [] = l := rfl
@[simp] lemma run_cons (l : Ledger) (op : Op) (ops : List Op) :
    l.run (op :: ops) = (l.apply op).run ops := rfl
lemma run_append (l : Ledger) (ops more : List Op) :
    l.run (ops ++ more) = (l.run ops).run more := by
  simp [run, List.foldl_append]

/-! ### Settling tickets -/

/-- Settles several tickets, one after the other. -/
def settleAll (outs : List (ℕ × Outcome)) (tickets : List Ticket) : List Ticket :=
  outs.foldl (fun tickets out => settle out.1 out.2 tickets) tickets

lemma getElem?_settle_self (i : ℕ) (o : Outcome) (tickets : List Ticket) :
    (settle i o tickets)[i]? = tickets[i]?.map (·.resolve o) := by
  simp [settle]

lemma getElem?_settle_ne {i j : ℕ} (h : i ≠ j) (o : Outcome) (tickets : List Ticket) :
    (settle i o tickets)[j]? = tickets[j]? := by
  simp [settle, h]

lemma getElem?_settleAll_of_notMem {outs : List (ℕ × Outcome)} {i : ℕ}
    (h : i ∉ outs.map Prod.fst) (tickets : List Ticket) :
    (settleAll outs tickets)[i]? = tickets[i]? := by
  induction outs generalizing tickets with
  | nil => rfl
  | cons out outs ih =>
    simp only [List.map_cons, List.mem_cons, not_or] at h
    rw [settleAll, List.foldl_cons, ← settleAll, ih h.2, getElem?_settle_ne (Ne.symm h.1)]

lemma getElem?_settleAll_of_mem {outs : List (ℕ × Outcome)} {i : ℕ} {o : Outcome}
    (hnodup : (outs.map Prod.fst).Nodup) (h : (i, o) ∈ outs) (tickets : List Ticket) :
    (settleAll outs tickets)[i]? = tickets[i]?.map (·.resolve o) := by
  induction outs generalizing tickets with
  | nil => simp at h
  | cons out outs ih =>
    rw [List.map_cons, List.nodup_cons] at hnodup
    rw [settleAll, List.foldl_cons, ← settleAll]
    rcases List.mem_cons.mp h with rfl | h
    · rw [getElem?_settleAll_of_notMem hnodup.1, getElem?_settle_self]
    · have hne : out.1 ≠ i := by
        rintro rfl
        exact hnodup.1 (List.mem_map.mpr ⟨_, h, rfl⟩)
      rw [ih hnodup.2 h, getElem?_settle_ne hne]

lemma settleAll_append (outs more : List (ℕ × Outcome)) (tickets : List Ticket) :
    settleAll (outs ++ more) tickets = settleAll more (settleAll outs tickets) :=
  List.foldl_append

lemma settleAll_perm {outs outs' : List (ℕ × Outcome)} (hperm : outs.Perm outs')
    (hnodup : (outs.map Prod.fst).Nodup) (tickets : List Ticket) :
    settleAll outs tickets = settleAll outs' tickets := by
  have hids := hperm.map Prod.fst
  refine List.ext_getElem? fun i => ?_
  by_cases hi : i ∈ outs.map Prod.fst
  · obtain ⟨⟨_, o⟩, hout, rfl⟩ := List.mem_map.mp hi
    rw [getElem?_settleAll_of_mem hnodup hout,
      getElem?_settleAll_of_mem (hids.nodup_iff.mp hnodup) (hperm.subset hout)]
  · rw [getElem?_settleAll_of_notMem hi,
      getElem?_settleAll_of_notMem fun hmem => hi (hids.mem_iff.mpr hmem)]

@[simp] lemma held_resolve (t : Ticket) (o : Outcome) : (t.resolve o).held = t.held := by
  unfold Ticket.resolve
  split <;> rfl

lemma held_settleAll (outs : List (ℕ × Outcome)) (tickets : List Ticket) (i : ℕ) :
    (settleAll outs tickets)[i]?.any (·.held) = tickets[i]?.any (·.held) := by
  induction outs generalizing tickets with
  | nil => rfl
  | cons out outs ih =>
    rw [settleAll, List.foldl_cons, ← settleAll, ih]
    by_cases hi : out.1 = i
    · simp [← hi, getElem?_settle_self, Option.any_map]
    · rw [getElem?_settle_ne hi]

/-! ### The parts of an operation -/

lemma register_of_closed {l : Ledger} (h : l.closed = true) (e : Event) (deadline : Option ℕ)
    (start : Option Position) : l.register e deadline start =
      ({ l with tally.rejected := l.tally.rejected + 1 }, none) := by
  simp [register, h]

lemma register_of_open {l : Ledger} (h : l.closed = false) (e : Event) (deadline : Option ℕ)
    (start : Option Position) : l.register e deadline start =
      ({ l with
          pending := l.pending ++ [⟨l.tickets.length, .start e, deadline, start⟩]
          tickets := l.tickets ++ [.pending l.tickets.length] }, some l.tickets.length) := by
  simp [register, h]

/-- What an expiry at `now` strikes out as due. -/
def dueAt (l : Ledger) (now : ℕ) : List Request :=
  (l.pending.filter fun r => l.isHeld r.id).filter (·.overdue now)

lemma expire_pending (l : Ledger) (now : ℕ) :
    (l.expire now).1.pending =
      (l.pending.filter fun r => l.isHeld r.id).filter fun r => !r.overdue now := rfl

lemma expire_tickets (l : Ledger) (now : ℕ) :
    (l.expire now).1.tickets =
      settleAll ((l.dueAt now).map fun r => (r.id, .expired)) l.tickets := by
  rw [settleAll, List.foldl_map]
  rfl

/-- What a line satisfies, with the labels. -/
def metBy (l : Ledger) (line : String) (lineEnd : Position) : List (ℕ × List String) :=
  (l.pending.map (·.offer line lineEnd)).filterMap fun (r, labels?) => labels?.map (r.id, ·)

/-- Shows a line to every pending request, once what is due has been struck out. -/
def present (l : Ledger) (line : String) (lineEnd : Position) : Ledger :=
  { l with
    pending := (l.pending.map (·.offer line lineEnd)).filterMap
      fun (r, labels?) => if labels?.isSome then none else some r
    tickets := (l.metBy line lineEnd).foldl
      (fun ts (id, labels) => settle id (.observed labels) ts) l.tickets
    tally.observed := l.tally.observed + (l.metBy line lineEnd).length }

/-- One more line is counted. -/
def countLine (l : Ledger) : Ledger := { l with tally.lines := l.tally.lines + 1 }

lemma dispatch_eq (l : Ledger) (now : ℕ) (line : String) (lineEnd : Position) :
    (l.dispatch now line lineEnd).1 = (l.countLine.expire now).1.present line lineEnd := rfl

lemma mem_present {l : Ledger} {line : String} {lineEnd : Position} {r : Request} :
    r ∈ (l.present line lineEnd).pending ↔
      ∃ q ∈ l.pending, q.offer line lineEnd = (r, none) := by
  simp only [present, List.filterMap_map, List.mem_filterMap, Function.comp_apply]
  refine exists_congr fun q => and_congr_right fun _ => ?_
  rcases q.offer line lineEnd with ⟨r', labels?⟩
  cases labels? <;> simp

lemma map_id_present (l : Ledger) (line : String) (lineEnd : Position) :
    (l.present line lineEnd).pending.map (·.id) =
      (l.pending.filter fun q => (q.offer line lineEnd).2.isNone).map (·.id) := by
  simp only [present, List.filterMap_map, Function.comp_def]
  induction l.pending with
  | nil => rfl
  | cons q rest ih => cases h : (q.offer line lineEnd).2 <;> simpa [h] using ih

lemma mem_metBy {l : Ledger} {line : String} {lineEnd : Position} {i : ℕ} {labels : List String} :
    (i, labels) ∈ l.metBy line lineEnd ↔
      ∃ q ∈ l.pending, q.id = i ∧ (q.offer line lineEnd).2 = some labels := by
  simp only [metBy, List.filterMap_map, List.mem_filterMap, Function.comp_apply]
  refine exists_congr fun q => and_congr_right fun _ => ?_
  rw [← q.id_offer line lineEnd]
  rcases q.offer line lineEnd with ⟨r', labels?⟩
  cases labels? <;> simp

lemma present_tickets (l : Ledger) (line : String) (lineEnd : Position) :
    (l.present line lineEnd).tickets =
      settleAll ((l.metBy line lineEnd).map fun m => (m.1, .observed m.2)) l.tickets := by
  rw [settleAll, List.foldl_map]
  rfl

lemma rejectAll_tickets (l : Ledger) (cause : Cause) :
    (l.rejectAll cause).1.tickets =
      settleAll (l.pending.map fun r => (r.id, .rejected cause)) l.tickets := by
  rw [settleAll, List.foldl_map]
  rfl

/-! ### The invariant -/

/-- What every operation keeps. -/
structure Sound (l : Ledger) : Prop where
  sorted : l.pending.Pairwise (·.id < ·.id)
  /-- Nothing was sent to the ticket of a pending request, and its caller can still collect. -/
  awaiting : ∀ r ∈ l.pending, ∃ held, l.ticket? r.id = some { Ticket.pending r.id with held }
  unmet : ∀ r ∈ l.pending, r.progress.satisfied = false
  closed : l.closed = true → l.pending = []

namespace Sound

variable {l : Ledger}

lemma nodup_id (h : Sound l) : (l.pending.map (·.id)).Nodup :=
  (List.pairwise_map.mpr (h.sorted.imp Nat.ne_of_lt))

lemma eq_of_id (h : Sound l) {q r : Request} (hq : q ∈ l.pending) (hr : r ∈ l.pending)
    (hid : q.id = r.id) : q = r :=
  List.inj_on_of_nodup_map h.nodup_id hq hr hid

lemma id_lt (h : Sound l) {r : Request} (hr : r ∈ l.pending) : r.id < l.tickets.length := by
  obtain ⟨held, ht⟩ := h.awaiting r hr
  exact (List.getElem?_eq_some_iff.mp ht).1

lemma fresh : Sound Ledger.fresh :=
  ⟨List.Pairwise.nil, by simp [Ledger.fresh], by simp [Ledger.fresh], by simp [Ledger.fresh]⟩

/-- Requests may be taken out, and those that stay may go on as long as they are not satisfied,
if the tickets of those that stay are left alone. -/
lemma shrink (h : Sound l) {m : Ledger}
    (hids : (m.pending.map (·.id)).Sublist (l.pending.map (·.id)))
    (htickets : ∀ r ∈ m.pending, m.ticket? r.id = l.ticket? r.id)
    (hunmet : ∀ r ∈ m.pending, r.progress.satisfied = false)
    (hclosed : m.closed = l.closed) : Sound m where
  sorted := List.pairwise_map.mp ((List.pairwise_map.mpr h.sorted).sublist hids)
  awaiting r hr := by
    obtain ⟨q, hq, hid⟩ := List.mem_map.mp (hids.subset (List.mem_map_of_mem hr))
    rw [htickets r hr, ← hid]
    exact h.awaiting q hq
  unmet := hunmet
  closed hc := by
    have hnil := h.closed (hclosed ▸ hc)
    simpa [hnil] using hids

lemma register (h : Sound l) (e : Event) (deadline : Option ℕ) (start : Option Position) :
    Sound (l.register e deadline start).1 := by
  cases hc : l.closed with
  | true =>
    rw [register_of_closed hc]
    exact ⟨h.sorted, h.awaiting, h.unmet, h.closed⟩
  | false =>
    rw [register_of_open hc]
    refine ⟨?_, ?_, ?_, fun hclosed => absurd (hc.symm.trans hclosed) Bool.false_ne_true⟩
    · rw [List.pairwise_append]
      refine ⟨h.sorted, List.pairwise_singleton _ _, fun q hq r hr => ?_⟩
      rw [List.mem_singleton.mp hr]
      exact h.id_lt hq
    · intro r hr
      rcases List.mem_append.mp hr with hr | hr
      · obtain ⟨held, ht⟩ := h.awaiting r hr
        refine ⟨held, ?_⟩
        rw [Ledger.ticket?, List.getElem?_append_left (h.id_lt hr)]
        exact ht
      · rw [List.mem_singleton.mp hr]
        exact ⟨true, by simp [Ledger.ticket?, Ticket.pending]⟩
    · intro r hr
      rcases List.mem_append.mp hr with hr | hr
      · exact h.unmet r hr
      · rw [List.mem_singleton.mp hr]
        exact (Progress.tracks_start e).satisfied_eq.trans (by simp)

lemma modify (h : Sound l) (id : ℕ) {f : Ticket → Ticket}
    (hf : ∀ i held, ∃ held',
      f { Ticket.pending i with held } = { Ticket.pending i with held := held' }) :
    Sound { l with tickets := l.tickets.modify id f } where
  sorted := h.sorted
  awaiting r hr := by
    obtain ⟨held, ht⟩ := h.awaiting r hr
    simp only [Ledger.ticket?, List.getElem?_modify] at ht ⊢
    rw [ht]
    by_cases hid : id = r.id
    · obtain ⟨held', hf⟩ := hf r.id held
      exact ⟨held', by simp [hid, hf]⟩
    · exact ⟨held, by simp [hid]⟩
  unmet := h.unmet
  closed := h.closed

lemma drop (h : Sound l) (id : ℕ) : Sound (l.drop id) :=
  h.modify id fun _ _ => ⟨false, rfl⟩

lemma collect (h : Sound l) (id : ℕ) : Sound (l.collect id) :=
  h.modify id fun _ held => ⟨held, rfl⟩

lemma expire (h : Sound l) (now : ℕ) : Sound (l.expire now).1 := by
  have hsub : (l.expire now).1.pending.Sublist l.pending :=
    List.filter_sublist.trans List.filter_sublist
  refine h.shrink (hsub.map _) (fun r hr => ?_) (fun r hr => h.unmet r (hsub.subset hr)) rfl
  rw [Ledger.ticket?, expire_tickets]
  refine getElem?_settleAll_of_notMem ?_ _
  -- a request with this number that is due would be the one that stays
  intro hmem
  obtain ⟨out, hout, hid⟩ := List.mem_map.mp hmem
  obtain ⟨q, hq, rfl⟩ := List.mem_map.mp hout
  obtain ⟨hq, hdue⟩ := List.mem_filter.mp hq
  have hqr := h.eq_of_id (List.mem_of_mem_filter hq) (hsub.subset hr) hid
  rw [expire_pending, List.mem_filter, ← hqr] at hr
  simp [hdue] at hr

lemma present (h : Sound l) (line : String) (lineEnd : Position) :
    Sound (l.present line lineEnd) := by
  refine h.shrink ?_ (fun r hr => ?_) (fun r hr => ?_) rfl
  · rw [map_id_present]
    exact List.filter_sublist.map _
  · obtain ⟨q, hq, hoffer⟩ := mem_present.mp hr
    rw [Ledger.ticket?, present_tickets]
    refine getElem?_settleAll_of_notMem ?_ _
    -- a request whose ticket is settled was met, and is not kept
    intro hmem
    obtain ⟨out, hout, hid⟩ := List.mem_map.mp hmem
    obtain ⟨⟨i, labels⟩, hmet, rfl⟩ := List.mem_map.mp hout
    obtain ⟨q', hq', hi, hlabels⟩ := mem_metBy.mp hmet
    have hrq : r.id = q.id := by rw [← q.id_offer line lineEnd, hoffer]
    have := h.eq_of_id hq' hq (by rw [hi, ← hrq]; exact hid)
    rw [this, hoffer] at hlabels
    simp at hlabels
  · obtain ⟨q, hq, hoffer⟩ := mem_present.mp hr
    have hkept : (q.offer line lineEnd).2 = none := by rw [hoffer]
    have hunmet := Request.unmet_offer (h.unmet q hq) hkept
    rwa [hoffer] at hunmet

lemma rejectAll (l : Ledger) (cause : Cause) : Sound (l.rejectAll cause).1 :=
  ⟨List.Pairwise.nil, by simp [Ledger.rejectAll], by simp [Ledger.rejectAll],
    fun _ => by simp [Ledger.rejectAll]⟩

lemma countLine (h : Sound l) : Sound l.countLine :=
  ⟨h.sorted, h.awaiting, h.unmet, h.closed⟩

lemma apply (h : Sound l) (op : Op) : Sound (l.apply op) := by
  cases op with
  | register e deadline start => exact h.register e deadline start
  | drop id => exact h.drop id
  | collect id => exact h.collect id
  | dispatch now line lineEnd =>
    rw [Ledger.apply, dispatch_eq]
    exact (h.countLine.expire now).present line lineEnd
  | sweep now => exact h.expire now
  | rejectAll cause => exact rejectAll l cause

/-- **The invariant holds after any operations.** -/
theorem run (h : Sound l) (ops : List Op) : Sound (l.run ops) := by
  induction ops generalizing l with
  | nil => exact h
  | cons op ops ih => exact ih (h.apply op)

end Sound

/-! ### One sweep after another -/

lemma isHeld_expire (l : Ledger) (now id : ℕ) : (l.expire now).1.isHeld id = l.isHeld id := by
  simp only [isHeld, ticket?, expire_tickets, held_settleAll]

lemma dueAt_expire_perm (l : Ledger) {a b : ℕ} (hab : a ≤ b) :
    (l.dueAt a ++ (l.expire a).1.dueAt b).Perm (l.dueAt b) := by
  have hearly : l.dueAt a = (l.dueAt b).filter (·.overdue a) := by
    simp only [dueAt, List.filter_filter]
    refine List.filter_congr fun r _ => ?_
    cases ha : r.overdue a with
    | true => simp [Request.overdue_mono hab ha]
    | false => simp
  have hlate : (l.expire a).1.dueAt b = (l.dueAt b).filter fun r => !r.overdue a := by
    simp only [dueAt, expire_pending, isHeld_expire, List.filter_filter]
    refine List.filter_congr fun r _ => ?_
    cases l.isHeld r.id <;> cases r.overdue a <;> simp
  rw [hearly, hlate]
  exact List.filter_append_perm _ _

lemma pending_expire_expire (l : Ledger) {a b : ℕ} (hab : a ≤ b) :
    ((l.expire a).1.expire b).1.pending = (l.expire b).1.pending := by
  simp only [expire_pending, isHeld_expire, List.filter_filter]
  refine List.filter_congr fun r _ => ?_
  cases ha : r.overdue a with
  | true => simp [Request.overdue_mono hab ha]
  | false => simp

/-- **A sweep does what earlier ones have left out,** so that those make no difference. -/
theorem Sound.expire_expire {l : Ledger} (h : Sound l) {a b : ℕ} (hab : a ≤ b) :
    ((l.expire a).1.expire b).1 = (l.expire b).1 := by
  have hperm := l.dueAt_expire_perm hab
  have htickets : ((l.expire a).1.expire b).1.tickets = (l.expire b).1.tickets := by
    have hsub : (l.dueAt b).Sublist l.pending := List.filter_sublist.trans List.filter_sublist
    have hnodup : ((l.dueAt b).map (·.id)).Nodup := h.nodup_id.sublist (hsub.map _)
    rw [expire_tickets, expire_tickets, expire_tickets, ← settleAll_append, ← List.map_append]
    refine settleAll_perm (hperm.map _) ?_ _
    rw [List.map_map]
    exact ((hperm.map (·.id)).nodup_iff).mpr hnodup
  have hexpired : l.tally.expired + (l.dueAt a).length + ((l.expire a).1.dueAt b).length =
      l.tally.expired + (l.dueAt b).length := by
    rw [Nat.add_assoc, ← List.length_append, hperm.length_eq]
  have htally : ((l.expire a).1.expire b).1.tally = (l.expire b).1.tally :=
    congrArg (fun expired => { l.tally with expired }) hexpired
  -- the flag of the ledger is left alone by both
  exact (Ledger.mk.injEq ..).mpr ⟨l.pending_expire_expire hab, htickets, rfl, htally⟩

end Ledger

end LogWatch
