import Mathlib
import LogWatch.Proofs.Request.Fate

/-!
Every request of a ledger is counted once.

A ledger, whatever was done to it, keeps the books of the fates of all its requests: its pending
requests are those that wait, its tickets show what has become of the others, and its counts are
counts of fates. A line, a sweep and the closing are what goes on for all requests at once; the
outcomes that they send out are those of the requests that end by them, each once.
-/

namespace LogWatch

open Ledger (Op)

namespace Fate

/-- The outcome that the request gets when `g` goes on, with its number. -/
def newly (g : Fate → Fate) (f : Fate) : Option (ℕ × Outcome) :=
  f.request?.bind fun r => (g f).outcome?.map (r.id, ·)

variable {g : Fate → Fate}

lemma newly_eq_some {f : Fate} {out : ℕ × Outcome} (h : newly g f = some out) :
    ∃ r held, f = waiting r held ∧ r.id = out.1 ∧ g f = ended out.2 := by
  obtain ⟨r, hr, hout⟩ := Option.bind_eq_some_iff.mp h
  obtain ⟨held, rfl⟩ := request?_eq_some hr
  obtain ⟨o, ho, rfl⟩ := Option.map_eq_some_iff.mp hout
  refine ⟨r, held, rfl, rfl, ?_⟩
  cases hg : g (waiting r held) with
  | ended o' => rw [hg] at ho; rw [Option.some.inj ho]
  | waiting | forgotten => rw [hg] at ho; cases ho

lemma newly_of_ended {r : Request} {held : Bool} {o : Outcome}
    (h : g (waiting r held) = ended o) : newly g (waiting r held) = some (r.id, o) := by
  simp [newly, request?, h, outcome?]

lemma Onward.countP_map (hg : Onward g) (p : Outcome → Bool) (fates : List Fate) :
    (fates.map g).countP (endedAs p) =
      fates.countP (endedAs p) + (fates.filterMap (newly g)).countP fun out => p out.2 := by
  induction fates with
  | nil => rfl
  | cons f fates ih =>
    rw [List.map_cons, List.countP_cons, List.countP_cons, ih]
    -- an end is new where the request was waiting
    cases hreq : f.request? with
    | none =>
      have hsame := hg.of_gone hreq
      have hnone : newly g f = none := by rw [newly, hreq]; rfl
      rw [hsame, List.filterMap_cons_none hnone]
      omega
    | some r =>
      obtain ⟨held, rfl⟩ := request?_eq_some hreq
      have hopen : endedAs p (waiting r held) = false := rfl
      cases hgf : g (waiting r held) with
      | ended o =>
        have hended : endedAs p (.ended o) = p o := rfl
        rw [List.filterMap_cons_some (newly_of_ended hgf), List.countP_cons, hopen, hended]
        simp only [Bool.false_eq_true, if_false]
        omega
      | waiting | forgotten =>
        have hnone : newly g (waiting r held) = none := by simp [newly, hgf, outcome?]
        rw [List.filterMap_cons_none hnone, hopen]
        simp [endedAs, outcome?]

end Fate

namespace Roll

lemma fates_apply_of_same (roll : Roll) {op : Op} {g : Fate → Fate}
    (h : ∀ id f, Fate.meet id op f = g f) (hop : op.isRegister = false) :
    (roll.apply op).fates = roll.fates.map g := by
  have hmeet : roll.fates.mapIdx (fun id => Fate.meet id op) = roll.fates.map g := by
    refine List.ext_getElem? fun id => ?_
    rw [List.getElem?_mapIdx, List.getElem?_map, show Fate.meet id op = g from funext (h id)]
  cases op with
  | register => cases hop
  | drop | collect | dispatch | sweep | rejectAll => exact (List.append_nil _).trans hmeet

lemma fates_register (roll : Roll) (e : Event) (deadline : Option ℕ) (start : Option Position) :
    (roll.apply (.register e deadline start)).fates =
      roll.fates ++ [roll.entry e deadline start] := by
  refine congrArg (· ++ _) (List.ext_getElem? fun i => ?_)
  rw [List.getElem?_mapIdx, show Fate.meet i (.register e deadline start) = id from rfl,
    Option.map_id]
  rfl

end Roll

namespace Ledger

/-- The ticket shows what has become of the request. -/
inductive Shows (id : ℕ) (t : Ticket) : Fate → Prop
  | waiting {r : Request} {held : Bool} (id_eq : r.id = id)
      (ticket : t = { Ticket.pending id with held }) : Shows id t (.waiting r held)
  | ended {o : Outcome} (told : t.held = true → t.value? = some o) : Shows id t (.ended o)
  | forgotten (dropped : t.held = false) : Shows id t .forgotten

/-- The ledger keeps the books of these requests. -/
structure Books (l : Ledger) (roll : Roll) : Prop where
  sound : l.Sound
  closed : roll.closed = l.closed
  pending : l.pending = roll.fates.filterMap Fate.request?
  ticket : ∀ id t, l.ticket? id = some t → ∃ f, roll.fates[id]? = some f ∧ Shows id t f
  /-- A request without a ticket here was refused. -/
  refused : ∀ id f, roll.fates[id]? = some f → l.tickets.length ≤ id → f = .refused
  numbered : l.closed = false → roll.fates.length = l.tickets.length
  observed : l.tally.observed = roll.fates.countP (Fate.endedAs Outcome.isObserved)
  expired : l.tally.expired = roll.fates.countP (Fate.endedAs Outcome.isExpired)
  rejected : l.tally.rejected = roll.fates.countP (Fate.endedAs Outcome.isRejected)

namespace Books

variable {l m : Ledger} {roll : Roll}

lemma waiting_eq (h : Books l roll) {id : ℕ} {r : Request} {held : Bool}
    (hf : roll.fates[id]? = some (.waiting r held)) :
    r.id = id ∧ l.ticket? id = some { Ticket.pending id with held } := by
  rcases Nat.lt_or_ge id l.tickets.length with hlt | hge
  · have hsome : l.ticket? id = some l.tickets[id] := List.getElem?_eq_getElem hlt
    obtain ⟨f, hf', hshows⟩ := h.ticket id _ hsome
    obtain rfl := Option.some.inj (hf.symm.trans hf')
    cases hshows with
    | waiting hid hticket => exact ⟨hid, hsome.trans (congrArg some hticket)⟩
  · cases h.refused id _ hf hge

lemma isHeld_eq (h : Books l roll) {r : Request} {held : Bool}
    (hf : .waiting r held ∈ roll.fates) : l.isHeld r.id = held := by
  obtain ⟨id, hid⟩ := List.mem_iff_getElem?.mp hf
  obtain ⟨rfl, hticket⟩ := h.waiting_eq hid
  rw [isHeld, hticket]
  rfl

lemma nodup_newly (h : Books l roll) (g : Fate → Fate) :
    ((roll.fates.filterMap (Fate.newly g)).map Prod.fst).Nodup := by
  have hsorted := h.sound.sorted
  rw [h.pending, List.pairwise_filterMap] at hsorted
  rw [List.Nodup, List.pairwise_map, List.pairwise_filterMap]
  refine hsorted.imp fun {f f'} hlt out hout out' hout' => ?_
  obtain ⟨r, held, rfl, hid, -⟩ := Fate.newly_eq_some hout
  obtain ⟨r', held', rfl, hid', -⟩ := Fate.newly_eq_some hout'
  have := hlt r rfl r' rfl
  omega

lemma length_settleAll (outs : List (ℕ × Outcome)) (tickets : List Ticket) :
    (settleAll outs tickets).length = tickets.length := by
  induction outs generalizing tickets with
  | nil => rfl
  | cons out outs ih => rw [settleAll, List.foldl_cons, ← settleAll, ih, settle, List.length_modify]

/-- A ticket shows what goes on for its request. -/
lemma shows_onward (h : Books l roll) {g : Fate → Fate} (hg : Fate.Onward g)
    (htickets : m.tickets = settleAll (roll.fates.filterMap (Fate.newly g)) l.tickets) {id : ℕ}
    {t : Ticket} (ht : m.ticket? id = some t) :
    ∃ f, (roll.fates.map g)[id]? = some f ∧ Shows id t f := by
  rw [ticket?, htickets] at ht
  -- a ticket that is settled now belongs to a request that ends now
  by_cases hid : id ∈ (roll.fates.filterMap (Fate.newly g)).map Prod.fst
  · obtain ⟨⟨_, o⟩, hout, rfl⟩ := List.mem_map.mp hid
    rw [getElem?_settleAll_of_mem (h.nodup_newly g) hout] at ht
    obtain ⟨f, hf, hnewly⟩ := List.mem_filterMap.mp hout
    obtain ⟨r, held, rfl, hr, hgf⟩ := Fate.newly_eq_some hnewly
    obtain ⟨i, hi⟩ := List.mem_iff_getElem?.mp hf
    obtain ⟨hri, hticket⟩ := h.waiting_eq hi
    have hio : i = _ := hri.symm.trans hr
    subst hio
    refine ⟨.ended o, by simp [hi, hgf], .ended fun hheld => ?_⟩
    rw [← ticket?, hticket] at ht
    obtain rfl := Option.some.inj ht
    cases held with
    | true => rfl
    | false => cases hheld
  · rw [getElem?_settleAll_of_notMem hid] at ht
    obtain ⟨f, hf, hshows⟩ := h.ticket id t ht
    refine ⟨g f, by simp [hf], ?_⟩
    cases hshows with
    | @waiting r held hr hticket =>
      -- its end would have settled the ticket
      cases hgf : g (.waiting r held) with
      | waiting q held' =>
        obtain ⟨hq, rfl⟩ := hg.kept _ _ _ _ hgf
        exact .waiting (hq.trans hr) hticket
      | ended o =>
        have hout : (r.id, o) ∈ roll.fates.filterMap (Fate.newly g) :=
          List.mem_filterMap.mpr ⟨_, List.mem_of_getElem? hf, Fate.newly_of_ended hgf⟩
        exact absurd (hr ▸ List.mem_map_of_mem hout) hid
      | forgotten => exact .forgotten (by rw [hticket]; exact hg.dropped _ _ hgf)
    | ended told => rw [hg.ended]; exact .ended told
    | forgotten dropped => rw [hg.forgotten]; exact .forgotten dropped

/-- **The books are kept while the same goes on for all requests**, if the ledger keeps those that
wait on, and sends out and counts the outcomes of those that end. -/
theorem onward (h : Books l roll) {g : Fate → Fate} (hg : Fate.Onward g) {next : Roll}
    (hfates : next.fates = roll.fates.map g) (hsound : m.Sound) (hclosed : next.closed = m.closed)
    (hopen : m.closed = false → l.closed = false)
    (hpending : m.pending = roll.fates.filterMap fun f => (g f).request?)
    (htickets : m.tickets = settleAll (roll.fates.filterMap (Fate.newly g)) l.tickets)
    (hobserved : m.tally.observed = l.tally.observed +
      (roll.fates.filterMap (Fate.newly g)).countP fun out => out.2.isObserved)
    (hexpired : m.tally.expired = l.tally.expired +
      (roll.fates.filterMap (Fate.newly g)).countP fun out => out.2.isExpired)
    (hrejected : m.tally.rejected = l.tally.rejected +
      (roll.fates.filterMap (Fate.newly g)).countP fun out => out.2.isRejected) :
    Books m next where
  sound := hsound
  closed := hclosed
  pending := by rw [hpending, hfates, List.filterMap_map]; rfl
  ticket id t ht := by
    rw [hfates]
    exact h.shows_onward hg htickets ht
  refused id f hf hlen := by
    rw [hfates, List.getElem?_map] at hf
    obtain ⟨f₀, hf₀, rfl⟩ := Option.map_eq_some_iff.mp hf
    rw [htickets, length_settleAll] at hlen
    rw [h.refused id f₀ hf₀ hlen]
    exact hg.ended _
  numbered hm := by
    rw [hfates, List.length_map, htickets, length_settleAll]
    exact h.numbered (hopen hm)
  observed := by rw [hobserved, hfates, hg.countP_map, h.observed]
  expired := by rw [hexpired, hfates, hg.countP_map, h.expired]
  rejected := by rw [hrejected, hfates, hg.countP_map, h.rejected]

/-! ### The parts of an operation -/

lemma filterMap_pending (h : Books l roll) {α : Type} {f : Request → Option α} {g : Fate → Option α}
    (hg : ∀ x, x.request? = none → g x = none)
    (hfg : ∀ r held, Fate.waiting r held ∈ roll.fates → f r = g (.waiting r held)) :
    l.pending.filterMap f = roll.fates.filterMap g := by
  rw [h.pending, List.filterMap_filterMap]
  refine List.filterMap_congr fun x hx => ?_
  cases hreq : x.request? with
  | none => exact (hg x hreq).symm
  | some r =>
    obtain ⟨held, rfl⟩ := Fate.request?_eq_some hreq
    exact hfg r held hx

lemma newly_none {g : Fate → Fate} (x : Fate) (hx : x.request? = none) :
    Fate.newly g x = none := by
  rw [Fate.newly, hx]
  rfl

lemma dueAt_newly (h : Books l roll) (now : ℕ) :
    (l.dueAt now).map (fun r => (r.id, Outcome.expired)) =
      roll.fates.filterMap (Fate.newly (Fate.lapse now)) := by
  rw [dueAt, List.filter_filter, ← List.filterMap_eq_filter, List.map_filterMap]
  refine h.filterMap_pending newly_none fun r held hr => ?_
  have hheld := h.isHeld_eq hr
  cases held <;> cases hdue : r.overdue now <;>
    simp [Option.guard, hheld, hdue, Fate.newly, Fate.request?, Fate.lapse, Fate.outcome?]

lemma expire (h : Books l roll) (now : ℕ) {next : Roll}
    (hfates : next.fates = roll.fates.map (Fate.lapse now)) (hclosed : next.closed = roll.closed) :
    Books (l.expire now).1 next := by
  have houts := h.dueAt_newly now
  refine h.onward (Fate.onward_lapse now) hfates (h.sound.expire now) (hclosed.trans h.closed) id
    ?_ ?_ ?_ ?_ ?_
  · rw [expire_pending, List.filter_filter, ← List.filterMap_eq_filter]
    refine h.filterMap_pending (fun x hx => ?_) fun r held hr => ?_
    · rw [(Fate.onward_lapse now).of_gone hx, hx]
    · have hheld := h.isHeld_eq hr
      cases held <;> cases hdue : r.overdue now <;>
        simp [Option.guard, hheld, hdue, Fate.request?, Fate.lapse]
  · rw [expire_tickets, houts]
  · rw [← houts, List.countP_map]
    simp [Ledger.expire, Function.comp_def, Outcome.isObserved]
  · rw [← houts, List.countP_map]
    simp [Ledger.expire, Function.comp_def, Outcome.isExpired, dueAt]
  · rw [← houts, List.countP_map]
    simp [Ledger.expire, Function.comp_def, Outcome.isRejected]

lemma metBy_newly (h : Books l roll) (line : String) (lineEnd : Position) :
    (l.metBy line lineEnd).map (fun met => (met.1, Outcome.observed met.2)) =
      roll.fates.filterMap (Fate.newly (Fate.read line lineEnd)) := by
  rw [metBy, List.filterMap_map, List.map_filterMap]
  refine h.filterMap_pending newly_none fun r held hr => ?_
  cases hlabels : (r.offer line lineEnd).2 <;>
    simp [Fate.newly, Fate.request?, Fate.read, Fate.outcome?, hlabels]

lemma present (h : Books l roll) (line : String) (lineEnd : Position) {next : Roll}
    (hfates : next.fates = roll.fates.map (Fate.read line lineEnd))
    (hclosed : next.closed = roll.closed) : Books (l.present line lineEnd) next := by
  have houts := h.metBy_newly line lineEnd
  refine h.onward (Fate.onward_read line lineEnd) hfates (h.sound.present line lineEnd)
    (hclosed.trans h.closed) id ?_ ?_ ?_ ?_ ?_
  · rw [Ledger.present, List.filterMap_map]
    refine h.filterMap_pending (fun x hx => ?_) fun r held hr => ?_
    · rw [(Fate.onward_read line lineEnd).of_gone hx, hx]
    · cases hlabels : (r.offer line lineEnd).2 <;> simp [Fate.request?, Fate.read, hlabels]
  · rw [present_tickets, houts]
  · rw [← houts, List.countP_map]
    simp [Ledger.present, Function.comp_def, Outcome.isObserved]
  · rw [← houts, List.countP_map]
    simp [Ledger.present, Function.comp_def, Outcome.isExpired]
  · rw [← houts, List.countP_map]
    simp [Ledger.present, Function.comp_def, Outcome.isRejected]

lemma pending_newly (h : Books l roll) (cause : Cause) :
    l.pending.map (fun r => (r.id, Outcome.rejected cause)) =
      roll.fates.filterMap (Fate.newly (Fate.close cause)) := by
  rw [← List.filterMap_eq_map]
  exact h.filterMap_pending newly_none fun r held hr => rfl

lemma rejectAll (h : Books l roll) (cause : Cause) {next : Roll}
    (hfates : next.fates = roll.fates.map (Fate.close cause)) (hclosed : next.closed = true) :
    Books (l.rejectAll cause).1 next := by
  have houts := h.pending_newly cause
  refine h.onward (Fate.onward_close cause) hfates (Sound.rejectAll l cause) hclosed
    (fun hopen => by cases hopen) ?_ ?_ ?_ ?_ ?_
  · refine (List.filterMap_eq_nil_iff.mpr fun x hx => ?_).symm
    cases x <;> rfl
  · rw [rejectAll_tickets, houts]
  · rw [← houts, List.countP_map]
    simp [Ledger.rejectAll, Function.comp_def, Outcome.isObserved]
  · rw [← houts, List.countP_map]
    simp [Ledger.rejectAll, Function.comp_def, Outcome.isExpired]
  · rw [← houts, List.countP_map]
    simp [Ledger.rejectAll, Function.comp_def, Outcome.isRejected]

lemma countLine (h : Books l roll) : Books l.countLine roll :=
  ⟨h.sound.countLine, h.closed, h.pending, h.ticket, h.refused, h.numbered, h.observed, h.expired,
    h.rejected⟩

/-! ### What concerns one request -/

lemma map_modify_of_same {α β : Type} {q : α → β} {g : α → α} (h : ∀ x, q (g x) = q x)
    (xs : List α) (k : ℕ) : (xs.modify k g).map q = xs.map q := by
  refine List.ext_getElem? fun i => ?_
  rw [List.getElem?_map, List.getElem?_modify, List.getElem?_map]
  cases xs[i]? with
  | none => rfl
  | some x => by_cases hk : k = i <;> simp [hk, h]

lemma modify (h : Books l roll) (k : ℕ) {use : Ticket → Ticket} {g : Fate → Fate}
    (hsound : Sound { l with tickets := l.tickets.modify k use })
    (hrequest : ∀ f, (g f).request? = f.request?) (houtcome : ∀ f, (g f).outcome? = f.outcome?)
    (hrefused : g .refused = .refused) (hshows : ∀ t f, Shows k t f → Shows k (use t) (g f))
    {next : Roll} (hfates : next.fates = roll.fates.modify k g)
    (hclosed : next.closed = roll.closed) :
    Books { l with tickets := l.tickets.modify k use } next := by
  -- no count looks at what a caller does with its ticket
  have hcount : ∀ p, next.fates.countP (Fate.endedAs p) = roll.fates.countP (Fate.endedAs p) := by
    intro p
    have hsame : ∀ f, (g f).endedAs p = f.endedAs p := fun f => by
      rw [Fate.endedAs, houtcome, Fate.endedAs]
    rw [← Function.id_comp (Fate.endedAs p), ← List.countP_map, ← List.countP_map, hfates,
      map_modify_of_same hsame]
  refine ⟨hsound, hclosed.trans h.closed, ?_, fun id t ht => ?_, fun id f hf hlen => ?_,
    fun hopen => ?_, by rw [hcount]; exact h.observed, by rw [hcount]; exact h.expired,
    by rw [hcount]; exact h.rejected⟩
  · rw [h.pending, ← Function.id_comp Fate.request?, ← List.filterMap_map, ← List.filterMap_map,
      hfates, map_modify_of_same hrequest]
  · rw [ticket?, List.getElem?_modify] at ht
    obtain ⟨t₀, ht₀, rfl⟩ := Option.map_eq_some_iff.mp ht
    obtain ⟨f, hf, hshown⟩ := h.ticket id t₀ ht₀
    rw [hfates, List.getElem?_modify, hf]
    by_cases hk : k = id
    · subst hk
      exact ⟨g f, by simp, by simpa using hshows t₀ f hshown⟩
    · exact ⟨f, by simp [hk], by simpa [hk] using hshown⟩
  · rw [hfates, List.getElem?_modify] at hf
    obtain ⟨f₀, hf₀, rfl⟩ := Option.map_eq_some_iff.mp hf
    rw [List.length_modify] at hlen
    rw [h.refused id f₀ hf₀ hlen]
    by_cases hk : k = id <;> simp [hk, hrefused]
  · rw [hfates, List.length_modify, List.length_modify]
    exact h.numbered hopen

lemma drop (h : Books l roll) (k : ℕ) : Books (l.drop k) (roll.apply (.drop k)) := by
  refine h.modify k (h.sound.drop k) Fate.request?_drop Fate.outcome?_drop rfl
    (fun t f hshows => ?_) ?_ (Bool.or_false _)
  · cases hshows with
    | waiting hid hticket => exact .waiting hid (by rw [hticket]; rfl)
    | ended told => exact .ended fun hheld => by cases hheld
    | forgotten dropped => exact .forgotten rfl
  · refine (List.append_nil _).trans (List.ext_getElem? fun id => ?_)
    rw [List.getElem?_mapIdx, List.getElem?_modify]
    rfl

lemma collect (h : Books l roll) (k : ℕ) : Books (l.collect k) (roll.apply (.collect k)) := by
  refine h.modify k (h.sound.collect k) (fun _ => rfl) (fun _ => rfl) rfl
    (fun t f hshows => ?_) ?_ (Bool.or_false _)
  · cases hshows with
    | waiting hid hticket => exact .waiting hid (by rw [hticket]; rfl)
    | ended told => exact .ended fun hheld => (Ticket.value?_collect t).trans (told hheld)
    | forgotten dropped => exact .forgotten dropped
  · rw [roll.fates_apply_of_same (g := id) (fun _ _ => rfl) rfl, List.map_id]
    exact (List.modify_id k roll.fates).symm

lemma register_closed (h : Books l roll) (hc : l.closed = true) (e : Event)
    (deadline : Option ℕ) (start : Option Position) :
    Books (l.register e deadline start).1 (roll.apply (.register e deadline start)) := by
  have hrefused : roll.entry e deadline start = .refused := by
    rw [Roll.entry, h.closed, hc]
    rfl
  have hfates := roll.fates_register e deadline start
  rw [hrefused] at hfates
  have hsound := h.sound.register e deadline start
  rw [register_of_closed hc] at hsound ⊢
  refine ⟨hsound, (Bool.or_false _).trans h.closed, ?_, fun id t ht => ?_, fun id f hf hlen => ?_,
    fun hopen => (by cases hc.symm.trans hopen), ?_, ?_, ?_⟩
  · rw [hfates, List.filterMap_append, ← h.pending]
    exact (List.append_nil _).symm
  · obtain ⟨f, hf, hshows⟩ := h.ticket id t ht
    refine ⟨f, ?_, hshows⟩
    rw [hfates, List.getElem?_append_left (List.getElem?_eq_some_iff.mp hf).1, hf]
  · rw [hfates] at hf
    rcases Nat.lt_or_ge id roll.fates.length with hlt | hge
    · rw [List.getElem?_append_left hlt] at hf
      exact h.refused id f hf hlen
    · rw [List.getElem?_append_right hge] at hf
      exact List.mem_singleton.mp (List.mem_of_getElem? hf)
  · rw [hfates, List.countP_append, ← h.observed]
    rfl
  · rw [hfates, List.countP_append, ← h.expired]
    rfl
  · rw [hfates, List.countP_append, ← h.rejected]
    rfl

lemma register_open (h : Books l roll) (hc : l.closed = false) (e : Event)
    (deadline : Option ℕ) (start : Option Position) :
    Books (l.register e deadline start).1 (roll.apply (.register e deadline start)) := by
  have hnumber := h.numbered hc
  have hentry : roll.entry e deadline start =
      .waiting ⟨l.tickets.length, .start e, deadline, start⟩ true := by
    rw [Roll.entry, h.closed, hc, hnumber]
    rfl
  have hfates := roll.fates_register e deadline start
  rw [hentry] at hfates
  have hsound := h.sound.register e deadline start
  rw [register_of_open hc] at hsound ⊢
  refine ⟨hsound, (Bool.or_false _).trans h.closed, ?_, fun id t ht => ?_, fun id f hf hlen => ?_,
    fun _ => ?_, ?_, ?_, ?_⟩
  · rw [hfates, List.filterMap_append, ← h.pending]
    rfl
  · rw [hfates]
    -- the ticket was there before, or it is the new one
    rcases Nat.lt_or_ge id l.tickets.length with hlt | hge
    · rw [ticket?, List.getElem?_append_left hlt] at ht
      rw [List.getElem?_append_left (by omega)]
      exact h.ticket id t ht
    · rw [ticket?, List.getElem?_append_right hge] at ht
      obtain ⟨hzero, ht⟩ := List.getElem?_eq_some_iff.mp ht
      rw [List.length_singleton] at hzero
      obtain rfl : id = l.tickets.length := by omega
      refine ⟨.waiting ⟨l.tickets.length, .start e, deadline, start⟩ true, ?_,
        .waiting rfl (ht.symm.trans (by simp [Ticket.pending]))⟩
      rw [← hnumber, List.getElem?_concat_length]
  · have hlt := (List.getElem?_eq_some_iff.mp hf).1
    rw [hfates, List.length_append] at hlt
    rw [List.length_append] at hlen
    simp only [List.length_singleton] at hlt hlen
    omega
  · rw [hfates, List.length_append, List.length_append, hnumber]
    rfl
  · rw [hfates, List.countP_append, ← h.observed]
    rfl
  · rw [hfates, List.countP_append, ← h.expired]
    rfl
  · rw [hfates, List.countP_append, ← h.rejected]
    rfl

/-! ### Every run -/

lemma dispatch (h : Books l roll) (now : ℕ) (line : String) (lineEnd : Position) :
    Books (l.dispatch now line lineEnd).1 (roll.apply (.dispatch now line lineEnd)) := by
  have hfates : (roll.apply (.dispatch now line lineEnd)).fates =
      roll.fates.map fun f => (f.lapse now).read line lineEnd :=
    roll.fates_apply_of_same (fun _ _ => rfl) rfl
  have hexpire : Books (l.countLine.expire now).1 ⟨roll.closed, roll.fates.map (Fate.lapse now)⟩ :=
    h.countLine.expire now rfl rfl
  rw [dispatch_eq]
  refine hexpire.present line lineEnd ?_ (Bool.or_false _)
  rw [hfates, List.map_map]
  rfl

lemma apply (h : Books l roll) (op : Op) : Books (l.apply op) (roll.apply op) := by
  cases op with
  | register e deadline start =>
    cases hc : l.closed with
    | true => exact h.register_closed hc e deadline start
    | false => exact h.register_open hc e deadline start
  | drop k => exact h.drop k
  | collect k => exact h.collect k
  | dispatch now line lineEnd => exact h.dispatch now line lineEnd
  | sweep now =>
    exact h.expire now (roll.fates_apply_of_same (fun _ _ => rfl) rfl) (Bool.or_false _)
  | rejectAll cause =>
    exact h.rejectAll cause (roll.fates_apply_of_same (fun _ _ => rfl) rfl) (Bool.or_true _)

lemma run (h : Books l roll) (ops : List Op) : Books (l.run ops) (roll.run ops) := by
  induction ops generalizing l roll with
  | nil => exact h
  | cons op ops ih => exact ih (h.apply op)

lemma opening (closed : Bool) : Books (opening closed) (.begin closed) where
  sound := ⟨List.Pairwise.nil, by simp [Ledger.opening, fresh], by simp [Ledger.opening, fresh],
    fun _ => rfl⟩
  closed := rfl
  pending := rfl
  ticket id t ht := by simp [ticket?, Ledger.opening, fresh] at ht
  refused id f hf := by simp [Roll.begin] at hf
  numbered _ := rfl
  observed := rfl
  expired := rfl
  rejected := rfl

end Books

end Ledger

end LogWatch
