import Mathlib
import LogWatch.Request.Ticket

/-!
A ticket is a cell that is written once.

The caller and the sending end act in steps that interleave in any way: an outcome is sent and then
the channel is closed; a wait for a time looks, finds nothing and then looks at the timer. Whoever
looks on from outside cannot tell the ticket, with its channel and what the caller has kept, from a
cell with one value: both can do the same deeds in the same order, with the same answers.
-/

namespace LogWatch

/-! ### Deeds -/

/-- What the sending end is at: resolving is to send and then to close. -/
inductive Sending where
  | idle
  | closing
  | gone
deriving DecidableEq

/-- What the caller is at. -/
inductive Asking where
  | idle
  /-- It waits as long as it takes. -/
  | waiting
  /-- It waits for a time, and is about to look at the channel. -/
  | within (timeout : Duration)
  /-- It has found nothing and is about to look at the timer. -/
  | glanced (timeout : Duration)
deriving DecidableEq

/-- What one of the two does, with the answer that it gets. -/
inductive Deed where
  | send (o : Outcome)
  | close
  /-- The sending end goes away. -/
  | leave
  | isAbandoned (answer : Bool)
  /-- The caller drops the ticket. -/
  | drop
  | isDone (answer : Bool)
  | tryGet (answer : Option Outcome)
  | requestId (answer : Option ℕ)
  /-- The caller begins to wait as long as it takes. -/
  | get
  | got (answer : Outcome)
  /-- A wait that does not block is given up. -/
  | giveUp
  | getWithin (timeout : Duration)
  | gotWithin (timeout : Duration) (answer : Outcome)
  /-- A wait for a time finds nothing. -/
  | glance (timeout : Duration)
  /-- The timer has not run out. -/
  | stay (timeout : Duration)
  /-- The timer has run out. -/
  | timeOut (timeout : Duration) (answer : ListenError)
deriving DecidableEq

/-- The outcome that a deed writes into an empty cell. -/
def Deed.write? : Deed → Option Outcome
  | send o => some o
  | leave => some (.rejected .stopped)
  | _ => none

/-! ### The ticket between its ends -/

/-- Sends an outcome: there is no effect if the channel is closed or full, or nobody holds the
ticket. -/
def Ticket.send (o : Outcome) (t : Ticket) : Ticket :=
  if t.closed || !t.held || t.sent.isSome then t else { t with sent := some o }

structure Ends where
  ticket : Ticket
  sending : Sending
  asking : Asking
deriving DecidableEq

namespace Ends

/-- Whether the caller can use the ticket. -/
def isFree (s : Ends) : Bool := s.ticket.held && s.asking == .idle

/-- The ends after a deed, if it can be done. -/
def take? (s : Ends) : Deed → Option Ends
  | .send o =>
    if s.sending = .idle then some { s with ticket := s.ticket.send o, sending := .closing }
    else none
  | .close =>
    if s.sending = .closing then some { s with ticket := s.ticket.abandon, sending := .idle }
    else none
  | .leave =>
    if s.sending = .idle then some { s with ticket := s.ticket.abandon, sending := .gone }
    else none
  | .isAbandoned b => if s.sending ≠ .gone ∧ s.ticket.isAbandoned = b then some s else none
  | .drop => if s.isFree then some { s with ticket := s.ticket.drop } else none
  | .isDone b =>
    if s.isFree ∧ s.ticket.isDone.2 = b then some { s with ticket := s.ticket.isDone.1 } else none
  | .tryGet o =>
    if s.isFree ∧ s.ticket.tryGet.2 = o then some { s with ticket := s.ticket.tryGet.1 } else none
  | .requestId n => if s.isFree ∧ s.ticket.request = n then some s else none
  | .get => if s.isFree then some { s with asking := .waiting } else none
  | .got o =>
    if s.asking = .waiting ∧ s.ticket.tryGet.2 = some o then
      some { s with ticket := s.ticket.tryGet.1, asking := .idle }
    else none
  | .giveUp => if s.asking = .waiting then some { s with asking := .idle } else none
  | .getWithin timeout => if s.isFree then some { s with asking := .within timeout } else none
  | .gotWithin timeout o =>
    if s.asking = .within timeout ∧ (s.ticket.getWithin timeout).2.toOption = some o then
      some { s with ticket := (s.ticket.getWithin timeout).1, asking := .idle }
    else none
  | .glance timeout =>
    if s.asking = .within timeout ∧ (s.ticket.getWithin timeout).2.toOption = none then
      some { s with ticket := (s.ticket.getWithin timeout).1, asking := .glanced timeout }
    else none
  | .stay timeout =>
    if s.asking = .glanced timeout then some { s with asking := .within timeout } else none
  | .timeOut timeout e =>
    if s.asking = .glanced timeout ∧ e = .waitTimedOut timeout then
      some { s with asking := .idle }
    else none

/-- The ends after some deeds, if they can be done in this order. -/
def run? (s : Ends) (deeds : List Deed) : Option Ends := deeds.foldlM take? s

end Ends

/-! ### The cell -/

/-- One value, with a sender and a caller who take turns at it. -/
structure Cell where
  id : Option ℕ
  value : Option Outcome
  held : Bool
  sending : Sending
  asking : Asking
deriving DecidableEq

namespace Cell

def isFree (c : Cell) : Bool := c.held && c.asking == .idle

/-- Writes an outcome if there is none yet and somebody holds the cell. -/
def write (o : Outcome) (c : Cell) : Cell :=
  if c.held then { c with value := c.value.or (some o) } else c

/-- The cell after a deed, if it can be done. A look at the cell changes nothing. -/
def take? (c : Cell) : Deed → Option Cell
  | .send o => if c.sending = .idle then some { c.write o with sending := .closing } else none
  | .close => if c.sending = .closing then some { c with sending := .idle } else none
  | .leave =>
    if c.sending = .idle then some { c.write (.rejected .stopped) with sending := .gone } else none
  | .isAbandoned b => if c.sending ≠ .gone ∧ (!c.held) = b then some c else none
  | .drop => if c.isFree then some { c with held := false } else none
  | .isDone b => if c.isFree ∧ c.value.isSome = b then some c else none
  | .tryGet o => if c.isFree ∧ c.value = o then some c else none
  | .requestId n => if c.isFree ∧ c.id = n then some c else none
  | .get => if c.isFree then some { c with asking := .waiting } else none
  | .got o =>
    if c.asking = .waiting ∧ c.value = some o then some { c with asking := .idle } else none
  | .giveUp => if c.asking = .waiting then some { c with asking := .idle } else none
  | .getWithin timeout => if c.isFree then some { c with asking := .within timeout } else none
  | .gotWithin timeout o =>
    if c.asking = .within timeout ∧ c.value = some o then some { c with asking := .idle } else none
  | .glance timeout =>
    if c.asking = .within timeout ∧ c.value = none then
      some { c with asking := .glanced timeout }
    else none
  | .stay timeout =>
    if c.asking = .glanced timeout then some { c with asking := .within timeout } else none
  | .timeOut timeout e =>
    if c.asking = .glanced timeout ∧ e = .waitTimedOut timeout then
      some { c with asking := .idle }
    else none

def run? (c : Cell) (deeds : List Deed) : Option Cell := deeds.foldlM take? c

end Cell

/-! ### What the ticket has to do with the cell -/

namespace Ticket

lemma isDone_eq (t : Ticket) : t.isDone = (t.collect, t.value?.isSome) := rfl

lemma tryGet_eq (t : Ticket) : t.tryGet = (t.collect, t.value?) := rfl

lemma getWithin_fst (t : Ticket) (timeout : Duration) : (t.getWithin timeout).1 = t.collect := by
  rw [getWithin, tryGet_eq]
  cases t.value? <;> rfl

lemma toOption_getWithin (t : Ticket) (timeout : Duration) :
    (t.getWithin timeout).2.toOption = t.value? := by
  rw [getWithin, tryGet_eq]
  cases t.value? <;> rfl

end Ticket

namespace Ends

/-- The ends are those of the cell, the channel is clean between two outcomes, and whoever holds
the ticket would find the value. -/
structure Shows (s : Ends) (c : Cell) : Prop where
  id : s.ticket.request = c.id
  held : s.ticket.held = c.held
  sending : s.sending = c.sending
  asking : s.asking = c.asking
  value : c.held = true → s.ticket.value? = c.value
  /-- As long as nothing has been sent, there is nothing. -/
  unsent : c.held = true → c.sending = .idle → s.ticket.closed = false →
    s.ticket.sent = none ∧ s.ticket.kept = none
  /-- An outcome is in the cell before the channel is closed over it. -/
  closing : c.held = true → c.sending = .closing → c.value.isSome = true
  /-- Who waits holds the ticket. -/
  busy : c.asking ≠ .idle → c.held = true

variable {s : Ends} {c : Cell}

lemma Shows.isFree (h : Shows s c) : s.isFree = c.isFree := by
  rw [Ends.isFree, Cell.isFree, h.held, h.asking]

lemma held_of_isFree (h : c.isFree = true) : c.held = true := (Bool.and_eq_true _ _ ▸ h).1

lemma Shows.collect (h : Shows s c) {asking : Asking} (hbusy : asking ≠ .idle → c.held = true) :
    Shows ⟨s.ticket.collect, s.sending, asking⟩ { c with asking } where
  id := h.id
  held := h.held
  sending := h.sending
  asking := rfl
  value hheld := (Ticket.value?_collect s.ticket).trans (h.value hheld)
  unsent hheld hidle hclosed := by
    have hopen : s.ticket.closed = false := hclosed
    obtain ⟨hsent, hkept⟩ := h.unsent hheld hidle hopen
    exact ⟨rfl, by simp [Ticket.collect, Ticket.value?, hsent, hkept, hopen]⟩
  closing := h.closing
  busy := hbusy

lemma Shows.ask (h : Shows s c) {asking : Asking} (hbusy : asking ≠ .idle → c.held = true) :
    Shows { s with asking } { c with asking } :=
  ⟨h.id, h.held, h.sending, rfl, h.value, h.unsent, h.closing, hbusy⟩

lemma value?_abandon {t : Ticket} {o : Outcome} (h : t.value? = some o) :
    t.abandon.value? = some o := by
  obtain ⟨request, sent, closed, kept, held⟩ := t
  cases kept <;> cases sent <;> cases closed <;> simp_all [Ticket.abandon, Ticket.value?]

lemma value?_of_closed {t : Ticket} (h : t.closed = true) : t.value?.isSome = true := by
  obtain ⟨request, sent, closed, kept, held⟩ := t
  cases kept <;> cases sent <;> simp_all [Ticket.value?]

lemma write_of_dropped {o : Outcome} (h : c.held = false) : c.write o = c := by
  rw [Cell.write, h]
  rfl

lemma Shows.closed_or_new (h : Shows s c) (hidle : c.sending = .idle) (hheld : c.held = true) :
    s.ticket.closed = true ∧ c.value.isSome = true ∨
      s.ticket = ⟨c.id, none, false, none, true⟩ ∧ c.value = none := by
  have hvalue := h.value hheld
  cases hclosed : s.ticket.closed with
  | true => exact .inl ⟨rfl, hvalue ▸ value?_of_closed hclosed⟩
  | false =>
    obtain ⟨hsent, hkept⟩ := h.unsent hheld hidle hclosed
    have hid := h.id
    have hticket := h.held.trans hheld
    obtain ⟨⟨request, sent, closed, kept, held⟩, sending, asking⟩ := s
    simp only at hid hticket hclosed hsent hkept
    subst hid hticket hclosed hsent hkept
    exact .inr ⟨rfl, hvalue.symm⟩

lemma Shows.writes (h : Shows s c) {t : Ticket} {o : Outcome} {sending : Sending}
    (hsending : sending ≠ .idle) (hid : t.request = s.ticket.request)
    (hheld : t.held = s.ticket.held) (hvalue : c.held = true → t.value? = c.value.or (some o)) :
    Shows { s with ticket := t, sending } { c.write o with sending } := by
  cases hc : c.held with
  | false =>
    rw [write_of_dropped hc]
    refine ⟨hid.trans h.id, hheld.trans h.held, rfl, h.asking, fun ht => ?_,
      (fun _ hidle => absurd hidle hsending), fun ht => ?_, h.busy⟩ <;> cases hc.symm.trans ht
  | true =>
    rw [Cell.write, if_pos hc]
    exact ⟨hid.trans h.id, hheld.trans h.held, rfl, h.asking, fun _ => hvalue hc,
      (fun _ hidle => absurd hidle hsending), (fun _ _ => by simp), h.busy⟩

lemma Shows.send (h : Shows s c) (hidle : c.sending = .idle) (o : Outcome) :
    Shows { s with ticket := s.ticket.send o, sending := .closing }
      { c.write o with sending := .closing } := by
  refine h.writes (by simp) ?_ ?_ fun hheld => ?_
  · unfold Ticket.send
    split <;> rfl
  · unfold Ticket.send
    split <;> rfl
  · rcases h.closed_or_new hidle hheld with ⟨hclosed, hsome⟩ | ⟨hticket, hnone⟩
    · have hsame : s.ticket.send o = s.ticket := by simp [Ticket.send, hclosed]
      rw [hsame, h.value hheld, Option.or_of_isSome hsome]
    · rw [hticket, hnone]
      rfl

lemma Shows.close (h : Shows s c) (hclosing : c.sending = .closing) :
    Shows { s with ticket := s.ticket.abandon, sending := .idle } { c with sending := .idle } where
  id := h.id
  held := h.held
  sending := rfl
  asking := h.asking
  value hheld := by
    obtain ⟨o, ho⟩ := Option.isSome_iff_exists.mp (h.closing hheld hclosing)
    have hvalue := h.value hheld
    rw [ho] at hvalue
    exact (value?_abandon hvalue).trans ho.symm
  unsent _ _ hclosed := by cases hclosed
  closing _ hidle := by cases hidle
  busy := h.busy

lemma Shows.leave (h : Shows s c) (hidle : c.sending = .idle) :
    Shows { s with ticket := s.ticket.abandon, sending := .gone }
      { c.write (.rejected .stopped) with sending := .gone } := by
  refine h.writes (by simp) rfl rfl fun hheld => ?_
  rcases h.closed_or_new hidle hheld with ⟨hclosed, hsome⟩ | ⟨hticket, hnone⟩
  · have hsame : s.ticket.abandon = s.ticket := by rw [Ticket.abandon, ← hclosed]
    rw [hsame, h.value hheld, Option.or_of_isSome hsome]
  · rw [hticket, hnone]
    rfl

lemma rel_ite {p q : Prop} [Decidable p] [Decidable q] (hpq : p ↔ q) (h : q → Shows s c) :
    Option.Rel Shows (if p then some s else none) (if q then some c else none) := by
  by_cases hq : q
  · rw [if_pos hq, if_pos (hpq.mpr hq)]
    exact .some (h hq)
  · rw [if_neg hq, if_neg (mt hpq.mp hq)]
    exact .none

/-- **Ticket and cell can do the same**, and still show the same afterwards. -/
lemma Shows.take? (h : Shows s c) (d : Deed) : Option.Rel Shows (s.take? d) (c.take? d) := by
  have hfree : s.isFree = true ↔ c.isFree = true := by rw [h.isFree]
  have hvalue : c.isFree = true → s.ticket.value? = c.value :=
    fun hfree => h.value (held_of_isFree hfree)
  have hwaits : ∀ {a}, a ≠ .idle → c.asking = a → s.ticket.value? = c.value :=
    fun ha hasking => h.value (h.busy (hasking ▸ ha))
  have hlook : Shows ⟨s.ticket.collect, s.sending, s.asking⟩ c := by
    rw [h.asking]
    exact h.collect h.busy
  -- deed by deed: both do it on the same condition, and show the same afterwards
  cases d with
  | send o => exact rel_ite (by rw [h.sending]) fun hidle => h.send hidle o
  | close => exact rel_ite (by rw [h.sending]) h.close
  | leave => exact rel_ite (by rw [h.sending]) h.leave
  | isAbandoned b => exact rel_ite (by rw [h.sending, Ticket.isAbandoned, h.held]) fun _ => h
  | drop =>
    refine rel_ite hfree fun hidle => ⟨h.id, rfl, h.sending, h.asking,
      (fun hheld => by cases hheld), (fun hheld => by cases hheld), (fun hheld => by cases hheld),
      fun hbusy => ?_⟩
    exact absurd (beq_iff_eq.mp (Bool.and_eq_true _ _ ▸ hidle).2) hbusy
  | isDone b =>
    refine rel_ite ?_ fun _ => hlook
    rw [hfree, Ticket.isDone_eq]
    exact and_congr_right fun hidle => by rw [hvalue hidle]
  | tryGet o =>
    refine rel_ite ?_ fun _ => hlook
    rw [hfree, Ticket.tryGet_eq]
    exact and_congr_right fun hidle => by rw [hvalue hidle]
  | requestId n => exact rel_ite (by rw [h.isFree, h.id]) fun _ => h
  | get => exact rel_ite hfree fun hidle => h.ask fun _ => held_of_isFree hidle
  | got o =>
    refine rel_ite ?_ fun _ => h.collect fun hbusy => absurd rfl hbusy
    rw [h.asking, Ticket.tryGet_eq]
    exact and_congr_right fun hasking => by rw [hwaits (by simp) hasking]
  | giveUp => exact rel_ite (by rw [h.asking]) fun _ => h.ask fun hbusy => absurd rfl hbusy
  | getWithin timeout => exact rel_ite hfree fun hidle => h.ask fun _ => held_of_isFree hidle
  | gotWithin timeout o =>
    have hthen : Shows ⟨s.ticket.collect, s.sending, .idle⟩ { c with asking := .idle } :=
      h.collect fun hbusy => absurd rfl hbusy
    refine rel_ite ?_ fun _ => Ticket.getWithin_fst s.ticket timeout ▸ hthen
    rw [h.asking, Ticket.toOption_getWithin]
    exact and_congr_right fun hasking => by rw [hwaits (by simp) hasking]
  | glance timeout =>
    refine rel_ite ?_ fun hnone => ?_
    · rw [h.asking, Ticket.toOption_getWithin]
      exact and_congr_right fun hasking => by rw [hwaits (by simp) hasking]
    · rw [Ticket.getWithin_fst]
      exact h.collect fun _ => h.busy (by simp [hnone.1])
  | stay timeout =>
    exact rel_ite (by rw [h.asking]) fun hasking => h.ask fun _ => h.busy (by simp [hasking])
  | timeOut timeout e =>
    exact rel_ite (by rw [h.asking]) fun _ => h.ask fun hbusy => absurd rfl hbusy

lemma Shows.run? (h : Shows s c) (deeds : List Deed) :
    Option.Rel Shows (s.run? deeds) (c.run? deeds) := by
  induction deeds generalizing s c with
  | nil => exact .some h
  | cons d deeds ih =>
    rw [Ends.run?, Cell.run?, List.foldlM_cons, List.foldlM_cons]
    have hstep := h.take? d
    generalize s.take? d = next, c.take? d = next' at hstep
    cases hstep with
    | some hnext => exact ih hnext
    | none => exact .none

lemma Shows.resolve (h : Shows s c) (hidle : s.sending = .idle) (o : Outcome) :
    s.run? [.send o, .close] = some { s with ticket := s.ticket.resolve o } := by
  have hresolve : (s.ticket.send o).abandon = s.ticket.resolve o := by
    cases hheld : s.ticket.held with
    | false => simp [Ticket.send, Ticket.resolve, Ticket.abandon, hheld]
    | true =>
      cases hclosed : s.ticket.closed with
      | true => simp [Ticket.send, Ticket.resolve, Ticket.abandon, hclosed]
      | false =>
        have hsent := (h.unsent (h.held ▸ hheld) (h.sending ▸ hidle) hclosed).1
        simp [Ticket.send, Ticket.resolve, Ticket.abandon, hheld, hclosed, hsent]
  simp [Ends.run?, Ends.take?, hidle, hresolve]

end Ends

/-! ### The value of the cell -/

namespace Cell

variable {c c' : Cell}

lemma write_eq (c : Cell) (o : Outcome) :
    (c.write o).id = c.id ∧ (c.write o).held = c.held ∧
      (c.write o).value = if c.held then c.value.or (some o) else c.value := by
  cases hheld : c.held <;> simp [write, hheld]

lemma take?_eq_some {d : Deed} (h : c.take? d = some c') :
    c'.id = c.id ∧ (c'.held = true ↔ c.held = true ∧ d ≠ .drop) ∧
      c'.value = if c.held then c.value.or d.write? else c.value := by
  cases d with
  | send o =>
    simp only [take?] at h
    split at h
    · obtain ⟨hid, hheld, hvalue⟩ := c.write_eq o
      cases h
      exact ⟨hid, by simp [hheld], hvalue⟩
    · cases h
  | leave =>
    simp only [take?] at h
    split at h
    · obtain ⟨hid, hheld, hvalue⟩ := c.write_eq (.rejected .stopped)
      cases h
      exact ⟨hid, by simp [hheld], hvalue⟩
    · cases h
  | drop =>
    simp only [take?] at h
    split at h <;> cases h
    exact ⟨rfl, by simp, by simp [Deed.write?]⟩
  | close | isAbandoned | isDone | tryGet | requestId | get | got | giveUp | getWithin | gotWithin
  | glance | stay | timeOut =>
    simp only [take?] at h
    split at h <;> cases h
    exact ⟨rfl, by simp, by simp [Deed.write?]⟩

/-- What is written into a cell that is held: the first outcome before it is dropped. -/
def written : List Deed → Option Outcome
  | [] => none
  | d :: deeds => if d = .drop then none else d.write?.or (written deeds)

lemma run?_eq_some {deeds : List Deed} (h : c.run? deeds = some c') :
    c'.id = c.id ∧ (c'.held = true ↔ c.held = true ∧ .drop ∉ deeds) ∧
      c'.value = if c.held then c.value.or (written deeds) else c.value := by
  induction deeds generalizing c with
  | nil =>
    cases h
    simp [written]
  | cons d deeds ih =>
    rw [run?, List.foldlM_cons] at h
    obtain ⟨c₁, hstep, hrest⟩ := Option.bind_eq_some_iff.mp h
    obtain ⟨hid, hheld, hvalue⟩ := take?_eq_some hstep
    obtain ⟨hid', hheld', hvalue'⟩ := ih hrest
    refine ⟨hid'.trans hid, ?_, ?_⟩
    · rw [hheld', hheld, List.mem_cons, not_or, and_assoc, ne_comm]
    · rw [hvalue', hvalue, written]
      -- once the future is dropped nothing is written
      by_cases hdrop : d = .drop
      · have hfree : c₁.held = false := by simpa [hdrop] using hheld
        rw [hfree, hdrop]
        cases c.held <;> simp [Deed.write?]
      · have hsame : c₁.held = c.held := 
          Bool.eq_iff_iff.mpr (hheld.trans (and_iff_left hdrop))
        rw [hsame, if_neg hdrop]
        cases c.held <;> simp [Option.or_assoc]

lemma written_append {deeds : List Deed} {o : Outcome} (h : written deeds = some o)
    (more : List Deed) : written (deeds ++ more) = some o := by
  induction deeds with
  | nil => cases h
  | cons d deeds ih =>
    rw [written] at h
    rw [List.cons_append, written]
    by_cases hdrop : d = .drop
    · rw [if_pos hdrop] at h
      cases h
    · rw [if_neg hdrop] at h ⊢
      cases hwrite : d.write? with
      | some v => rwa [hwrite] at h
      | none =>
        rw [hwrite, Option.none_or] at h
        rw [Option.none_or, ih h]

end Cell

/-! ### Both kinds of ticket -/

/-- How a ticket begins: with a sending end, or settled. -/
inductive Start where
  | pending (id : ℕ)
  | ready (o : Outcome)
deriving DecidableEq

namespace Start

def ends : Start → Ends
  | pending id => ⟨.pending id, .idle, .idle⟩
  | ready o => ⟨.ready o, .gone, .idle⟩

def cell : Start → Cell
  | pending id => ⟨some id, none, true, .idle, .idle⟩
  | ready o => ⟨none, some o, true, .gone, .idle⟩

lemma shows (start : Start) : start.ends.Shows start.cell := by
  cases start with
  | pending id => exact ⟨rfl, rfl, rfl, rfl, fun _ => rfl, fun _ _ _ => ⟨rfl, rfl⟩,
      (fun _ hclosing => by cases hclosing), fun _ => rfl⟩
  | ready o => exact ⟨rfl, rfl, rfl, rfl, fun _ => rfl, (fun _ hidle => by cases hidle),
      (fun _ hclosing => by cases hclosing), fun _ => rfl⟩

/-- The value after some deeds: that of a settled ticket, or the first outcome sent before the
ticket was dropped, or that of a sending end that went away. -/
def value? (start : Start) (deeds : List Deed) : Option Outcome :=
  start.cell.value.or (Cell.written deeds)

lemma value?_append (start : Start) {deeds : List Deed} {o : Outcome}
    (h : start.value? deeds = some o) (more : List Deed) :
    start.value? (deeds ++ more) = some o := by
  rw [value?] at h ⊢
  cases hcell : start.cell.value with
  | some v => rwa [hcell] at h
  | none =>
    rw [hcell, Option.none_or] at h
    rw [Option.none_or, Cell.written_append h]

end Start

/-- The ends after some deeds are those of a cell that is written once. -/
structure WriteOnce (start : Start) (deeds : List Deed) (s : Ends) : Prop where
  requestId : s.ticket.request = start.cell.id
  isAbandoned : s.ticket.isAbandoned = true ↔ .drop ∈ deeds
  isDone : .drop ∉ deeds → s.ticket.isDone.2 = (start.value? deeds).isSome
  tryGet : .drop ∉ deeds → s.ticket.tryGet.2 = start.value? deeds
  getWithin : .drop ∉ deeds → ∀ timeout, (s.ticket.getWithin timeout).2 =
    match start.value? deeds with
    | some o => .ok o
    | none => .error (.waitTimedOut timeout)
  /-- What is there stays, whatever is done later. -/
  final : ∀ o more, start.value? deeds = some o → start.value? (deeds ++ more) = some o
  /-- To send and to close with nothing between is to resolve. -/
  resolve : s.sending = .idle → ∀ o,
    s.run? [.send o, .close] = some { s with ticket := s.ticket.resolve o }
  /-- Nothing is sent to a ticket that was dropped. -/
  dropped : .drop ∈ deeds → ∀ o, s.ticket.send o = s.ticket

/-- **A ticket is a cell that is written once**: its ends can do exactly the deeds that can be done
with the cell, with the same answers, and after them they show the value of the cell. -/
theorem refines_write_once_cell (start : Start) (deeds : List Deed) :
    (start.ends.run? deeds).isSome = (start.cell.run? deeds).isSome ∧
      ∀ s, start.ends.run? deeds = some s → WriteOnce start deeds s := by
  have hrun := start.shows.run? deeds
  refine ⟨?_, fun s hs => ?_⟩
  · generalize start.ends.run? deeds = x, start.cell.run? deeds = y at hrun
    cases hrun <;> rfl
  rw [hs] at hrun
  obtain ⟨c, hc, hshows⟩ : ∃ c, start.cell.run? deeds = some c ∧ s.Shows c := by
    generalize start.cell.run? deeds = y at hrun
    cases hrun with
    | some hshows => exact ⟨_, rfl, hshows⟩
  obtain ⟨hid, hheld, hvalue⟩ := Cell.run?_eq_some hc
  have hstart : start.cell.held = true := by cases start <;> rfl
  simp only [hstart, true_and, if_true] at hheld hvalue
  have hfound : .drop ∉ deeds → s.ticket.value? = start.value? deeds :=
    fun hkept => (hshows.value (hheld.mpr hkept)).trans hvalue
  exact
    { requestId := hshows.id.trans hid
      isAbandoned := by
        rw [Ticket.isAbandoned, hshows.held, Bool.not_eq_true', ← Bool.not_eq_true, hheld, not_not]
      isDone := fun hkept => by rw [Ticket.isDone_eq, hfound hkept]
      tryGet := fun hkept => by rw [Ticket.tryGet_eq, hfound hkept]
      getWithin := fun hkept timeout => by
        rw [Ticket.getWithin, Ticket.tryGet_eq, hfound hkept]
        cases start.value? deeds <;> rfl
      final := fun o more ho => start.value?_append ho more
      resolve := hshows.resolve
      dropped := fun hdropped o => by
        have hfree : s.ticket.held = false := by
          rw [hshows.held, ← Bool.not_eq_true, hheld]
          exact not_not.mpr hdropped
        simp [Ticket.send, hfree] }

/-- While a caller waits for a time, the sending end sends twice and goes away. The caller has
looked before, and its time is up; it finds the first outcome later, even without any time. -/
theorem refines_write_once_cell_late :
    WriteOnce (.pending 7)
      [.getWithin ⟨5⟩, .glance ⟨5⟩, .send .expired, .timeOut ⟨5⟩ (.waitTimedOut ⟨5⟩), .close,
        .send (.observed ["late"]), .close, .leave, .getWithin ⟨0⟩, .gotWithin ⟨0⟩ .expired]
      ⟨⟨some 7, none, true, some .expired, true⟩, .gone, .idle⟩ :=
  (refines_write_once_cell (.pending 7) _).2 _ (by decide +kernel)

end LogWatch
