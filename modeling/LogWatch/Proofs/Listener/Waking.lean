import Mathlib
import LogWatch.Listener.Follower
import LogWatch.Listener.Pause
import LogWatch.Proofs.Request.Ledger

/-!
No wake-up of the follower is lost.

The follower looks at the ledger, plans when to wake and parks; callers enter requests and hand it
a token, and whoever stops it sets the flag and hands it a token, at any point between. What a
caller enters after the follower has planned, the follower does not know of, but then the caller
still owes the token, or the token is there. So a follower that is blocked, while nobody owes it a
token, knows of every deadline and of every stop.

For a listener by itself a pause is one step with one sweep. That is what it comes to, however often
the follower wakes, as long as nobody else touches a request meanwhile: each sweep makes up for the
ones before it.
-/

namespace LogWatch

namespace Pause

/-! ### When the follower is to wake -/

lemma exists_min?_le {xs : List ℕ} {x : ℕ} (h : x ∈ xs) : ∃ m, xs.min? = some m ∧ m ≤ x := by
  obtain ⟨m, hm⟩ := Option.isSome_iff_exists.mp (List.isSome_min?_of_mem h)
  exact ⟨m, hm, (List.min?_eq_some_iff.mp hm).2 x h⟩

lemma exists_wake_le {p : Pause} {r : Request} {d : ℕ} (hr : r ∈ p.ledger.pending)
    (hd : r.deadline = some d) : ∃ w, p.wake = some w ∧ w ≤ d := by
  have hmem : d ∈ p.ledger.pending.filterMap (·.deadline) := List.mem_filterMap.mpr ⟨r, hr, hd⟩
  obtain ⟨n, hn, hnd⟩ := exists_min?_le hmem
  have hplan : n ∈ p.ends.toList ++ p.ledger.nextDeadline.toList := by
    refine List.mem_append_right _ ?_
    rw [Ledger.nextDeadline, hn]
    exact List.mem_singleton_self n
  obtain ⟨w, hw, hwn⟩ := exists_min?_le hplan
  exact ⟨w, hw, hwn.trans hnd⟩

lemma parked_of_isBlocked {p : Pause} (h : p.isBlocked = true) :
    ∃ wake, p.rest = .parked wake ∧ p.token = false := by
  unfold isBlocked at h
  split at h
  · rename_i wake hrest
    exact ⟨wake, hrest, by simpa using h⟩
  · cases h

lemma advance_of_woken {p : Pause} {wake : Option ℕ} {clock : ℕ} (hrest : p.rest = .parked wake)
    (h : (p.token || wake.any (· ≤ clock)) = true) :
    p.advance clock = { p with token := false, rest := .start } := by
  simp only [advance, hrest, h, if_true]

lemma advance_of_asleep {p : Pause} {wake : Option ℕ} {clock : ℕ} (hrest : p.rest = .parked wake)
    (h : (p.token || wake.any (· ≤ clock)) = false) : p.advance clock = p := by
  simp only [advance, hrest, h, Bool.false_eq_true, if_false]

lemma not_overdue_of_woken {p : Pause} (hrest : p.rest = .start) (now clock : ℕ) :
    ∀ r ∈ ((p.advance now).advance clock).ledger.pending, r.overdue now = false := by
  intro r hr
  have hswept : ((p.advance now).advance clock).ledger = (p.ledger.expire now).1 := by
    simp [advance, hrest]
  rw [hswept, Ledger.expire_pending, List.mem_filter] at hr
  simpa using hr.2

end Pause

/-! ### The follower among others -/

/-- Somebody who enters requests with one deadline, one after the other, and then hands over a
token if they have a deadline. -/
structure Caller where
  left : List Event
  deadline : Option ℕ
  /-- Whether a request has been entered already. -/
  entered : Bool
deriving DecidableEq

/-- Whether the caller is between a request it has entered and the token it will hand over. -/
def Caller.owes (c : Caller) : Bool := c.entered && c.deadline.isSome

/-- `stoppers` have asked for a stop and not handed over their token yet. -/
structure Scene where
  pause : Pause
  callers : List Caller
  stoppers : ℕ
deriving DecidableEq

inductive Act where
  /-- The follower goes on in its pause. -/
  | follow (clock : ℕ)
  /-- The follower wakes for no reason. -/
  | stir
  /-- The follower, out of a pause, dispatches a line. -/
  | dispatch (now : ℕ) (line : String) (lineEnd : Position)
  /-- The follower, out of a pause, ends the stream. -/
  | close (cause : Cause)
  /-- The follower begins another pause. -/
  | rest (now : ℕ) (length : Duration)
  /-- Somebody comes to enter requests. -/
  | call (now : ℕ) (events : List Event) (timeout : Duration)
  /-- A caller enters its next request or, when it has entered all, hands over the token and
  goes. -/
  | proceed (i : ℕ) (start : Option Position)
  | drop (id : ℕ)
  | collect (id : ℕ)
  | requestStop
  /-- Somebody who has asked for a stop hands over the token. -/
  | unparkStop
deriving DecidableEq

namespace Scene

/-- The follower is about to begin its work on this ledger, alone. -/
def begin (l : Ledger) : Scene := ⟨⟨l, none, false, false, .over⟩, [], 0⟩

def setLedger (s : Scene) (ledger : Ledger) : Scene := { s with pause := { s.pause with ledger } }

def proceed (s : Scene) (i : ℕ) (start : Option Position) : Scene :=
  match s.callers[i]? with
  | some ⟨e :: left, deadline, _⟩ =>
    { s with
      pause := (s.pause.enter e deadline start).1
      callers := s.callers.set i ⟨left, deadline, true⟩ }
  | some ⟨[], deadline, _⟩ =>
    { s with
      pause := if deadline.isSome then s.pause.unpark else s.pause
      callers := s.callers.eraseIdx i }
  | none => s

def apply (s : Scene) : Act → Scene
  | .follow clock => { s with pause := s.pause.advance clock }
  | .stir =>
    if s.pause.rest matches .parked _ then { s with pause := { s.pause with rest := .start } }
    else s
  | .dispatch now line lineEnd =>
    if s.pause.rest = .over then s.setLedger (s.pause.ledger.dispatch now line lineEnd).1 else s
  | .close cause =>
    if s.pause.rest = .over then s.setLedger (s.pause.ledger.rejectAll cause).1 else s
  | .rest now length =>
    if s.pause.rest = .over then { s with pause := s.pause.begin now length } else s
  | .call now events timeout =>
    { s with callers := s.callers ++ [⟨events, timeout.after now, false⟩] }
  | .proceed i start => s.proceed i start
  | .drop id => s.setLedger (s.pause.ledger.drop id)
  | .collect id => s.setLedger (s.pause.ledger.collect id)
  | .requestStop => { s with pause := s.pause.requestStop, stoppers := s.stoppers + 1 }
  | .unparkStop =>
    if s.stoppers = 0 then s
    else { s with pause := s.pause.unpark, stoppers := s.stoppers - 1 }

def run (s : Scene) (acts : List Act) : Scene := acts.foldl apply s

@[simp] lemma run_nil (s : Scene) : s.run [] = s := rfl
@[simp] lemma run_cons (s : Scene) (a : Act) (acts : List Act) :
    s.run (a :: acts) = (s.apply a).run acts := rfl

/-- Nobody owes the follower a token. -/
def isQuiet (s : Scene) : Bool := s.stoppers == 0 && s.callers.all fun c => !c.owes

/-! ### What the follower cannot miss -/

/-- A token is there, or somebody who entered requests with a deadline will hand one over. -/
def callComing (s : Scene) : Prop := s.pause.token = true ∨ ∃ c ∈ s.callers, c.owes = true

/-- A token is there, or somebody who asked for a stop will hand one over. -/
def stopComing (s : Scene) : Prop := s.pause.token = true ∨ 0 < s.stoppers

/-- Of a stop the follower knows, or it will be told. -/
def MindsStop (s : Scene) : Prop := s.pause.shutdown = true → s.stopComing

/-- Of every deadline the follower knows, having planned to wake so, or it will be told. -/
def MindsDeadlines (s : Scene) (wake : Option ℕ) : Prop :=
  ∀ r ∈ s.pause.ledger.pending, ∀ d, r.deadline = some d →
    (∃ w, wake = some w ∧ w ≤ d) ∨ s.callComing

/-- What holds between the moves, by the part of the pause: before the follower looks, it has
nothing to know of. -/
def Minds (s : Scene) : Prop :=
  match s.pause.rest with
  | .planning => s.MindsStop
  | .parking wake | .parked wake => s.MindsStop ∧ s.MindsDeadlines wake
  | .start | .sweeping _ | .checking _ | .over => True

variable {s t : Scene}

lemma not_stopComing (hquiet : s.isQuiet = true) (htoken : s.pause.token = false) :
    ¬ s.stopComing := by
  rintro (hset | hpos)
  · cases htoken.symm.trans hset
  · have hzero := beq_iff_eq.mp (Bool.and_eq_true _ _ ▸ hquiet).1
    omega

lemma not_callComing (hquiet : s.isQuiet = true) (htoken : s.pause.token = false) :
    ¬ s.callComing := by
  rintro (hset | ⟨c, hc, howes⟩)
  · cases htoken.symm.trans hset
  · have hfree := List.all_eq_true.mp (Bool.and_eq_true _ _ ▸ hquiet).2 c hc
    simp [howes] at hfree

lemma Minds.mono (h : s.Minds) (hrest : t.pause.rest = s.pause.rest)
    (hstop : s.MindsStop → t.MindsStop)
    (hdeadlines : ∀ wake, s.MindsDeadlines wake → t.MindsDeadlines wake) : t.Minds := by
  unfold Minds at h ⊢
  rw [hrest]
  cases hs : s.pause.rest with
  | planning => rw [hs] at h; exact hstop h
  | parking wake | parked wake => rw [hs] at h; exact ⟨hstop h.1, hdeadlines wake h.2⟩
  | start | sweeping | checking | «over» => trivial

lemma minds_of_over (h : s.pause.rest = .over) : s.Minds := by
  unfold Minds
  rw [h]
  trivial

lemma minds_of_start (h : s.pause.rest = .start) : s.Minds := by
  unfold Minds
  rw [h]
  trivial

/-! ### Each move keeps it -/

lemma Minds.follow (h : s.Minds) (clock : ℕ) : (s.apply (.follow clock)).Minds := by
  unfold Minds at *
  cases hrest : s.pause.rest with
  | start | sweeping now | «over» => simp [apply, Pause.advance, hrest]
  | checking now =>
    cases hover : s.pause.shutdown || s.pause.ends.any (· ≤ now) with
    | true => simp only [apply, Pause.advance, hrest, hover, if_true]
    | false =>
      simp only [apply, Pause.advance, hrest, hover, Bool.false_eq_true, if_false]
      intro hshutdown
      have hset : s.pause.shutdown = true := hshutdown
      cases (Bool.or_eq_false_iff.mp hover).1.symm.trans hset
  | planning =>
    rw [hrest] at h
    simp only [apply, Pause.advance, hrest]
    refine ⟨h, fun r hr d hd => .inl ?_⟩
    exact Pause.exists_wake_le hr hd
  | parking wake =>
    rw [hrest] at h
    simp only [apply, Pause.advance, hrest]
    exact h
  | parked wake =>
    cases hwoken : s.pause.token || wake.any (· ≤ clock) with
    | true =>
      simp only [apply]
      rw [Pause.advance_of_woken hrest hwoken]
      trivial
    | false =>
      simp only [apply]
      rw [Pause.advance_of_asleep hrest hwoken]
      exact h

lemma mem_pending_register {l : Ledger} {e : Event} {deadline : Option ℕ}
    {start : Option Position} {r : Request}
    (h : r ∈ (l.register e deadline start).1.pending) : r ∈ l.pending ∨ r.deadline = deadline := by
  cases hc : l.closed with
  | true =>
    rw [Ledger.register_of_closed hc] at h
    exact .inl h
  | false =>
    rw [Ledger.register_of_open hc] at h
    rcases List.mem_append.mp h with h | h
    · exact .inl h
    · rw [List.mem_singleton.mp h]
      exact .inr rfl

lemma exists_owes_set {callers : List Caller} {i : ℕ} {c c' : Caller} (hi : callers[i]? = some c)
    (hstill : c.owes = true → c'.owes = true) (h : ∃ x ∈ callers, x.owes = true) :
    ∃ x ∈ callers.set i c', x.owes = true := by
  obtain ⟨x, hx, howes⟩ := h
  obtain ⟨j, hj⟩ := List.mem_iff_getElem?.mp hx
  by_cases hij : i = j
  · subst hij
    obtain rfl := Option.some.inj (hi.symm.trans hj)
    have hlt := (List.getElem?_eq_some_iff.mp hi).1
    exact ⟨c', List.mem_iff_getElem?.mpr ⟨i, List.getElem?_set_self hlt⟩, hstill howes⟩
  · exact ⟨x, List.mem_iff_getElem?.mpr ⟨j, (List.getElem?_set_ne hij).trans hj⟩, howes⟩

lemma exists_owes_eraseIdx {callers : List Caller} {i : ℕ} {c : Caller}
    (hi : callers[i]? = some c) (hfree : c.owes = false) (h : ∃ x ∈ callers, x.owes = true) :
    ∃ x ∈ callers.eraseIdx i, x.owes = true := by
  obtain ⟨x, hx, howes⟩ := h
  obtain ⟨j, hj⟩ := List.mem_iff_getElem?.mp hx
  have hij : j ≠ i := by
    rintro rfl
    obtain rfl := Option.some.inj (hi.symm.trans hj)
    cases hfree.symm.trans howes
  exact ⟨x, List.mem_eraseIdx_iff_getElem?.mpr ⟨j, hij, hj⟩, howes⟩

/-- A caller that enters a request with a deadline owes a token from then on, and hands it over
before it goes. -/
lemma Minds.proceed (h : s.Minds) (i : ℕ) (start : Option Position) :
    (s.proceed i start).Minds := by
  unfold Scene.proceed
  split
  · rename_i e left deadline entered hi
    have hlt := (List.getElem?_eq_some_iff.mp hi).1
    refine h.mono rfl id fun wake hminds r hr d hd => ?_
    rcases mem_pending_register hr with hr | hdeadline
    · rcases hminds r hr d hd with hw | htoken | howed
      · exact .inl hw
      · exact .inr (.inl htoken)
      · refine .inr (.inr (exists_owes_set hi (fun howes => ?_) howed))
        exact (Bool.and_eq_true _ _ ▸ howes).2
    · have hnew : (⟨left, deadline, true⟩ : Caller).owes = true := by
        simp [Caller.owes, ← hdeadline, hd]
      exact .inr (.inr ⟨_, List.mem_iff_getElem?.mpr ⟨i, List.getElem?_set_self hlt⟩, hnew⟩)
  · rename_i deadline entered hi
    cases deadline with
    | some limit =>
      exact h.mono rfl (fun _ _ => .inl rfl) fun wake _ r hr d hd => .inr (.inl rfl)
    | none =>
      have hfree : (⟨[], none, entered⟩ : Caller).owes = false := by simp [Caller.owes]
      refine h.mono rfl id fun wake hminds r hr d hd => ?_
      rcases hminds r hr d hd with hw | htoken | howed
      · exact .inl hw
      · exact .inr (.inl htoken)
      · exact .inr (.inr (exists_owes_eraseIdx hi hfree howed))
  · exact h

/-- **The follower misses nothing** after any moves of all. -/
lemma Minds.apply (h : s.Minds) (a : Act) : (s.apply a).Minds := by
  cases a with
  | follow clock => exact h.follow clock
  | stir =>
    simp only [Scene.apply]
    split
    · exact minds_of_start rfl
    · exact h
  | dispatch now line lineEnd =>
    simp only [Scene.apply]
    split
    · rename_i hover
      exact minds_of_over hover
    · exact h
  | close cause =>
    simp only [Scene.apply]
    split
    · rename_i hover
      exact minds_of_over hover
    · exact h
  | rest now length =>
    simp only [Scene.apply]
    split
    · exact minds_of_start rfl
    · exact h
  | call now events timeout =>
    refine h.mono rfl id fun wake hminds r hr d hd => ?_
    rcases hminds r hr d hd with hw | htoken | ⟨c, hc, howes⟩
    · exact .inl hw
    · exact .inr (.inl htoken)
    · exact .inr (.inr ⟨c, List.mem_append_left _ hc, howes⟩)
  | proceed i start => exact h.proceed i start
  | drop k => exact h.mono rfl id fun wake hminds => hminds
  | collect k => exact h.mono rfl id fun wake hminds => hminds
  | requestStop =>
    exact h.mono rfl (fun _ _ => .inr (Nat.succ_pos _)) fun wake hminds => hminds
  | unparkStop =>
    simp only [Scene.apply]
    split
    · exact h
    · exact h.mono rfl (fun _ _ => .inl rfl) fun wake _ r hr d hd => .inr (.inl rfl)

lemma Minds.run (h : s.Minds) (acts : List Act) : (s.run acts).Minds := by
  induction acts generalizing s with
  | nil => exact h
  | cons a acts ih => exact ih (h.apply a)

/-! ### A follower that sleeps -/

/-- **No wake-up is lost.** Whenever the follower is blocked and nobody owes it a token, no stop has
been asked for, and it wakes no later than any pending request is due. Then it looks at the clock
and sweeps, so that no request stays pending past its deadline because the follower sleeps. -/
theorem no_wake_up_lost (l : Ledger) (acts : List Act)
    (hblocked : ((begin l).run acts).pause.isBlocked = true)
    (hquiet : ((begin l).run acts).isQuiet = true) :
    ((begin l).run acts).pause.shutdown = false ∧
    ∀ r ∈ ((begin l).run acts).pause.ledger.pending, ∀ d, r.deadline = some d →
      (∃ w, ((begin l).run acts).pause.rest = .parked (some w) ∧ w ≤ d) ∧
      ∀ clock, d ≤ clock → (((begin l).run acts).pause.advance clock).rest = .start ∧
        ∀ now, d ≤ now → ∀ later,
          r ∉ (((((begin l).run acts).pause.advance clock).advance now).advance
            later).ledger.pending := by
  have hminds : ((begin l).run acts).Minds := (minds_of_over rfl : (begin l).Minds).run acts
  generalize (begin l).run acts = s at hblocked hquiet hminds ⊢
  obtain ⟨wake, hrest, htoken⟩ := Pause.parked_of_isBlocked hblocked
  rw [Minds, hrest] at hminds
  obtain ⟨hstop, hdeadlines⟩ := hminds
  refine ⟨?_, fun r hr d hd => ?_⟩
  · by_contra hshutdown
    have hcoming := hstop (Bool.not_eq_false _ ▸ hshutdown)
    exact not_stopComing hquiet htoken hcoming
  · rcases hdeadlines r hr d hd with ⟨w, rfl, hwd⟩ | hcoming
    · refine ⟨⟨w, hrest, hwd⟩, fun clock hclock => ?_⟩
      have hwoken : (s.pause.token || (some w).any (· ≤ clock)) = true := by
        simp [hwd.trans hclock]
      have hadvance := Pause.advance_of_woken hrest hwoken
      refine ⟨by rw [hadvance], fun now hnow later hmem => ?_⟩
      have hstart : (s.pause.advance clock).rest = .start := by rw [hadvance]
      have hnone := Pause.not_overdue_of_woken hstart now later r hmem
      simp [Request.overdue, hd, hnow] at hnone
    · exact absurd hcoming (not_callComing hquiet htoken)

/-- A request is entered after the follower has planned and before it parks. Its caller's token
makes the follower plan again, while a caller without a deadline comes and goes. -/
theorem no_wake_up_lost_between_callers :
    let s := (begin .fresh).run
      [.rest 0 ⟨100⟩, .call 0 [.pattern "a"] ⟨5⟩, .call 0 [.pattern "b"] .longest, .follow 1,
        .follow 1, .follow 1, .follow 1, .proceed 0 none, .follow 1, .proceed 1 none,
        .proceed 0 none, .follow 2, .follow 2, .follow 2, .follow 2, .follow 2, .follow 2,
        .proceed 0 none]
    s.pause.isBlocked = true ∧ s.isQuiet = true ∧ s.pause.shutdown = false ∧
      ∃ r ∈ s.pause.ledger.pending, r.deadline = some 5 ∧
        ∃ w, s.pause.rest = .parked (some w) ∧ w ≤ 5 := by
  intro s
  have hblocked : s.pause.isBlocked = true := by decide +kernel
  have hquiet : s.isQuiet = true := by decide +kernel
  have hpending : ⟨0, .start (.pattern "a"), some 5, none⟩ ∈ s.pause.ledger.pending := by
    decide +kernel
  obtain ⟨hshutdown, hdue⟩ := no_wake_up_lost .fresh _ hblocked hquiet
  exact ⟨hblocked, hquiet, hshutdown, _, hpending, rfl, (hdue _ hpending 5 rfl).1⟩

end Scene

/-! ### A pause as a step of the listener -/

namespace Act

/-- What the clock shows where the follower looks at it. -/
def looks : Act → List ℕ
  | .follow clock => [clock]
  | _ => []

/-- Whether the move changes no request but by the sweeps of a pause. -/
def sparesRequests : Act → Bool
  | .follow _ | .stir | .call _ _ _ | .requestStop | .unparkStop => true
  | .dispatch _ _ _ | .close _ | .rest _ _ | .proceed _ _ | .drop _ | .collect _ => false

end Act

namespace Pause

/-- Where a pause stands that began on the ledger `l` and is to end at `ends`, if nothing but its
own sweeps has changed a request; `seen` is what the clock has shown. -/
def Sweeps (l : Ledger) (ends : Option ℕ) (seen : List ℕ) (p : Pause) : Prop :=
  p.ends = ends ∧
  match p.rest with
  | .start => ∀ now, (∀ c ∈ seen, c ≤ now) → (p.ledger.expire now).1 = (l.expire now).1
  | .sweeping now => now ∈ seen ∧ (p.ledger.expire now).1 = (l.expire now).1
  | .checking now => now ∈ seen ∧ p.ledger = (l.expire now).1
  | .planning | .parking _ | .parked _ => ∃ now ∈ seen, p.ledger = (l.expire now).1
  | .over => ∃ now ∈ seen, (p.shutdown = true ∨ ends.any (· ≤ now) = true) ∧
      p.ledger = (l.expire now).1

namespace Sweeps

variable {l : Ledger} {ends : Option ℕ} {seen : List ℕ} {p q : Pause}

lemma begin (l : Ledger) (now : ℕ) (length : Duration) (h : p.ledger = l) :
    Sweeps l (length.after now) [] (p.begin now length) :=
  ⟨rfl, fun clock _ => by rw [Pause.begin, h]⟩

lemma congr (h : Sweeps l ends seen p) (hledger : q.ledger = p.ledger) (hends : q.ends = p.ends)
    (hrest : q.rest = p.rest) (hstop : p.shutdown = true → q.shutdown = true) :
    Sweeps l ends seen q := by
  obtain ⟨rfl, hstands⟩ := h
  refine ⟨hends, ?_⟩
  rw [hrest, hledger]
  cases hp : p.rest with
  | start | sweeping | checking | planning | parking | parked => rw [hp] at hstands; exact hstands
  | «over» =>
    rw [hp] at hstands
    obtain ⟨now, hseen, hwhy, hswept⟩ := hstands
    exact ⟨now, hseen, hwhy.imp_left hstop, hswept⟩

/-- What the follower has swept when it wakes, its next sweep makes up for. -/
lemma wake (hl : Ledger.Sound l) {wake : Option ℕ} (h : Sweeps l ends seen p)
    (hrest : p.rest = .parked wake) (hledger : q.ledger = p.ledger) (hends : q.ends = p.ends)
    (hstart : q.rest = .start) : Sweeps l ends seen q := by
  obtain ⟨rfl, hstands⟩ := h
  rw [hrest] at hstands
  obtain ⟨now, hseen, hswept⟩ := hstands
  refine ⟨hends, ?_⟩
  rw [hstart]
  intro later hlater
  rw [hledger, hswept]
  exact hl.expire_expire (hlater now hseen)

lemma look (h : Sweeps l ends seen p) (clock : ℕ) : Sweeps l ends (seen ++ [clock]) p := by
  have hsub := List.subset_append_left seen [clock]
  obtain ⟨hends, hstands⟩ := h
  refine ⟨hends, ?_⟩
  cases hp : p.rest with
  | start =>
    rw [hp] at hstands
    exact fun now hnow => hstands now fun c hc => hnow c (hsub hc)
  | sweeping now | checking now =>
    rw [hp] at hstands
    exact ⟨hsub hstands.1, hstands.2⟩
  | planning | parking | parked | «over» =>
    rw [hp] at hstands
    obtain ⟨now, hseen, hswept⟩ := hstands
    exact ⟨now, hsub hseen, hswept⟩

lemma advance (hl : Ledger.Sound l) (h : Sweeps l ends seen p) {clock : ℕ}
    (hclock : ∀ c ∈ seen, c ≤ clock) : Sweeps l ends (seen ++ [clock]) (p.advance clock) := by
  have hnow : clock ∈ seen ++ [clock] := List.mem_append_right _ (List.mem_singleton_self clock)
  have hlook := h.look clock
  have hends := hlook.1
  have hstands := hlook.2
  cases hrest : p.rest with
  | start =>
    have hsweep := h.2
    rw [hrest] at hsweep
    rw [Pause.advance, hrest]
    exact ⟨hends, hnow, hsweep clock hclock⟩
  | sweeping | planning | parking =>
    rw [hrest] at hstands
    rw [Pause.advance, hrest]
    exact ⟨hends, hstands⟩
  | checking now =>
    rw [hrest] at hstands
    simp only [Pause.advance, hrest]
    cases hover : p.shutdown || p.ends.any (· ≤ now) with
    | true =>
      rw [hends] at hover
      exact ⟨hends, now, hstands.1, Bool.or_eq_true_iff.mp hover, hstands.2⟩
    | false => exact ⟨hends, now, hstands⟩
  | parked wake =>
    cases hwoken : p.token || wake.any (· ≤ clock) with
    | true =>
      rw [advance_of_woken hrest hwoken]
      exact hlook.wake hl hrest rfl rfl rfl
    | false =>
      rw [advance_of_asleep hrest hwoken]
      exact hlook
  | «over» =>
    rw [Pause.advance, hrest]
    exact hlook

end Sweeps

end Pause

namespace Scene

variable {s : Scene} {l : Ledger} {ends : Option ℕ} {seen : List ℕ}

lemma sweeps_apply (hl : Ledger.Sound l) (h : s.pause.Sweeps l ends seen) {a : Act}
    (hspares : a.sparesRequests = true) (hclock : ∀ c ∈ seen, ∀ now ∈ a.looks, c ≤ now) :
    (s.apply a).pause.Sweeps l ends (seen ++ a.looks) := by
  cases a with
  | follow clock => exact h.advance hl fun c hc => hclock c hc clock (List.mem_singleton_self clock)
  | stir =>
    simp only [Act.looks, List.append_nil, apply]
    split
    · rename_i wake hrest
      exact h.wake hl hrest rfl rfl rfl
    · exact h
  | call now events timeout =>
    simp only [Act.looks, List.append_nil]
    exact h
  | requestStop =>
    simp only [Act.looks, List.append_nil]
    exact h.congr rfl rfl rfl fun _ => rfl
  | unparkStop =>
    simp only [Act.looks, List.append_nil, apply]
    split
    · exact h
    · exact h.congr rfl rfl rfl id
  | dispatch | close | rest | proceed | drop | collect => cases hspares

lemma sweeps_run (hl : Ledger.Sound l) (h : s.pause.Sweeps l ends seen) {acts : List Act}
    (hspare : ∀ a ∈ acts, a.sparesRequests = true)
    (hclock : (seen ++ acts.flatMap Act.looks).Pairwise (· ≤ ·)) :
    (s.run acts).pause.Sweeps l ends (seen ++ acts.flatMap Act.looks) := by
  induction acts generalizing s seen with
  | nil => simpa using h
  | cons a acts ih =>
    rw [List.flatMap_cons, ← List.append_assoc] at hclock ⊢
    have hsofar := (List.pairwise_append.mp (List.pairwise_append.mp hclock).1).2.2
    have hstep := sweeps_apply hl h (hspare a List.mem_cons_self) hsofar
    exact ih hstep (fun b hb => hspare b (List.mem_cons_of_mem a hb)) hclock

end Scene

namespace Listener

/-- Whether the follower's next step is a whole pause. -/
def rests (l : Listener) : Bool :=
  l.follower.any fun f => f.phase matches .resting | .waiting (_ + 1) _

lemma ledger_advance_of_rests {l : Listener} (h : l.rests = true) (d : Disk) (now : ℕ) :
    (l.advance d now).ledger = (l.ledger.expire now).1 := by
  obtain ⟨f, hf, hphase⟩ := (Option.any_eq_true _ _).mp h
  simp only [advance, hf]
  split <;> simp_all [sweep, setFollower]

end Listener

namespace Scene

/-- **A pause is one step of the listener.** However often the follower wakes, a pause in which
nobody else touches a request leaves the ledger as `Listener.advance` leaves it at one of the times
the follower has looked at, when a stop had been asked for or the pause was at its end. -/
theorem exists_ledger_eq_advance {l : Listener} (hrests : l.rests = true)
    (hsound : Ledger.Sound l.ledger) {s : Scene} (hledger : s.pause.ledger = l.ledger)
    (hover : s.pause.rest = .over) (start : ℕ) (length : Duration) {acts : List Act}
    (hspare : ∀ a ∈ acts, a.sparesRequests = true)
    (hclock : (acts.flatMap Act.looks).Pairwise (· ≤ ·))
    (hdone : (s.run (.rest start length :: acts)).pause.rest = .over) (d : Disk) :
    ∃ now ∈ acts.flatMap Act.looks,
      ((s.run (.rest start length :: acts)).pause.shutdown = true ∨
        (length.after start).any (· ≤ now) = true) ∧
      (s.run (.rest start length :: acts)).pause.ledger = (l.advance d now).ledger := by
  have hbegun : (s.apply (.rest start length)).pause.Sweeps l.ledger (length.after start) [] := by
    simp only [apply, hover, if_true]
    exact Pause.Sweeps.begin l.ledger start length hledger
  have hswept := (sweeps_run hsound hbegun hspare hclock).2
  rw [run_cons] at hdone ⊢
  rw [hdone] at hswept
  obtain ⟨now, hnow, hwhy, hledger⟩ := hswept
  exact ⟨now, hnow, hwhy, by rw [hledger, Listener.ledger_advance_of_rests hrests d now]⟩

/-- **Each such step is a pause**, and a short one. -/
theorem exists_pause_eq_advance {l : Listener} (hrests : l.rests = true) {s : Scene}
    (hledger : s.pause.ledger = l.ledger) (hover : s.pause.rest = .over) {start now : ℕ}
    {length : Duration}
    (hend : s.pause.shutdown = true ∨ (length.after start).any (· ≤ now) = true) (d : Disk) :
    (s.run [.rest start length, .follow now, .follow now, .follow now]).pause =
      { s.pause with ledger := (l.advance d now).ledger, ends := length.after start } := by
  have hstop : (s.pause.shutdown || (length.after start).any (· ≤ now)) = true :=
    Bool.or_eq_true_iff.mpr hend
  simp only [run_cons, run_nil, apply, hover, if_true, Pause.begin, Pause.advance, hstop, hledger,
    Listener.ledger_advance_of_rests hrests d now]

end Scene

end LogWatch
