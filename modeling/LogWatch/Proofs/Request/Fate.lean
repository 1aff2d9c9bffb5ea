import Mathlib
import LogWatch.Proofs.Request.Lone

/-!
What becomes of the requests that a ledger is asked for, each by itself.

A request waits, has an outcome, or is forgotten because its caller dropped the ticket and a line
or a sweep came before the closing. Here no request depends on another: the fates of all requests
are a list that grows at its end, in which every operation is met by every fate on its own.
-/

namespace LogWatch

namespace Outcome

def isObserved (o : Outcome) : Bool := o matches observed _
def isExpired (o : Outcome) : Bool := o matches expired
def isRejected (o : Outcome) : Bool := o matches rejected _

end Outcome

namespace Ledger

/-- A new ledger, which is open or refuses every request. -/
def opening (closed : Bool) : Ledger := { fresh with closed }

/-- Whether a request is asked for. -/
def Op.isRegister (op : Op) : Bool := op matches register _ _ _

def Op.isDispatch (op : Op) : Bool := op matches dispatch _ _ _

/-- Whether an operation looks after requests that nobody waits for: a line or a sweep. -/
def Op.looks (op : Op) : Bool := op matches dispatch _ _ _ | sweep _

end Ledger

open Ledger (Op)

/-- What has become of a request so far. -/
inductive Fate where
  /-- It is pending, and its caller holds the ticket or has dropped it. -/
  | waiting (request : Request) (held : Bool)
  | ended (o : Outcome)
  /-- It was struck out, since nobody waited for it. -/
  | forgotten
deriving DecidableEq

namespace Fate

/-- The caller drops the ticket. -/
def drop : Fate → Fate
  | waiting r _ => waiting r false
  | f => f

/-- A look at the clock: what nobody waits for is forgotten, and what is due expires. -/
def lapse (now : ℕ) : Fate → Fate
  | waiting _ false => forgotten
  | waiting r true => if r.overdue now then ended .expired else waiting r true
  | f => f

/-- A line is shown to the request. -/
def read (line : String) (lineEnd : Position) : Fate → Fate
  | waiting r held =>
    match (r.offer line lineEnd).2 with
    | some labels => ended (.observed labels)
    | none => waiting (r.offer line lineEnd).1 held
  | f => f

/-- The ledger is closed; the request is rejected whether anybody waits for it or not. -/
def close (cause : Cause) : Fate → Fate
  | waiting _ _ => ended (.rejected cause)
  | f => f

/-- What an operation makes of the fate of the request numbered `id`. -/
def meet (id : ℕ) : Op → Fate → Fate
  | .drop other, f => if other = id then f.drop else f
  | .dispatch now line lineEnd, f => (f.lapse now).read line lineEnd
  | .sweep now, f => f.lapse now
  | .rejectAll cause, f => f.close cause
  | .register _ _ _, f | .collect _, f => f

/-- What is left of the request after these operations. -/
def live (id : ℕ) (f : Fate) (ops : List Op) : Fate := ops.foldl (fun f op => f.meet id op) f

def request? : Fate → Option Request
  | waiting r _ => some r
  | _ => none

def outcome? : Fate → Option Outcome
  | ended o => some o
  | _ => none

/-- Whether the request ended in such a way. -/
def endedAs (p : Outcome → Bool) (f : Fate) : Bool := f.outcome?.any p

def isWaiting (f : Fate) : Bool := f matches waiting _ _
def isForgotten (f : Fate) : Bool := f matches forgotten

/-- The fate of a request that a closed ledger was asked for. -/
def refused : Fate := ended (.rejected .notListening)

@[simp] lemma request?_drop (f : Fate) : f.drop.request? = f.request? := by cases f <;> rfl
@[simp] lemma outcome?_drop (f : Fate) : f.drop.outcome? = f.outcome? := by cases f <;> rfl

lemma isSome_request? (f : Fate) : f.request?.isSome = f.isWaiting := by cases f <;> rfl

lemma request?_eq_some {f : Fate} {r : Request} (h : f.request? = some r) :
    ∃ held, f = waiting r held := by
  cases f with
  | waiting q held => exact ⟨held, by rw [Option.some.inj h]⟩
  | ended | forgotten => simp [request?] at h

lemma length_eq (fates : List Fate) : fates.length =
    fates.countP (endedAs Outcome.isObserved) + fates.countP (endedAs Outcome.isExpired) +
      fates.countP (endedAs Outcome.isRejected) + fates.countP isWaiting +
      fates.countP isForgotten := by
  induction fates with
  | nil => rfl
  | cons f fates ih =>
    simp only [List.length_cons, List.countP_cons]
    rcases f with ⟨r, held⟩ | (labels | _ | cause) | _ <;>
      simp [endedAs, outcome?, isWaiting, isForgotten, Outcome.isObserved, Outcome.isExpired,
        Outcome.isRejected] <;> omega

/-! ### The life of one request -/

/-- What goes on for a request that waits: it ends, it is forgotten when nobody waits for it, or it
waits on under its number. Of any other fate nothing comes. -/
structure Onward (g : Fate → Fate) : Prop where
  ended : ∀ o, g (.ended o) = .ended o
  forgotten : g .forgotten = .forgotten
  dropped : ∀ r held, g (.waiting r held) = .forgotten → held = false
  kept : ∀ r held q held', g (.waiting r held) = .waiting q held' → q.id = r.id ∧ held' = held

lemma Onward.of_gone {g : Fate → Fate} (hg : Onward g) {f : Fate} (hf : f.request? = none) :
    g f = f := by
  cases f with
  | waiting r held => cases hf
  | ended o => exact hg.ended o
  | forgotten => exact hg.forgotten

lemma onward_lapse (now : ℕ) : Onward (lapse now) where
  ended _ := rfl
  forgotten := rfl
  dropped r held hg := by
    cases held with
    | false => rfl
    | true =>
      simp only [lapse] at hg
      split at hg <;> cases hg
  kept r held q held' hg := by
    cases held with
    | false => cases hg
    | true =>
      simp only [lapse] at hg
      split at hg
      · cases hg
      · cases hg
        exact ⟨rfl, rfl⟩

lemma onward_read (line : String) (lineEnd : Position) : Onward (read line lineEnd) where
  ended _ := rfl
  forgotten := rfl
  dropped r held hg := by
    simp only [read] at hg
    split at hg <;> cases hg
  kept r held q held' hg := by
    simp only [read] at hg
    split at hg
    · cases hg
    · cases hg
      exact ⟨r.id_offer line lineEnd, rfl⟩

lemma onward_close (cause : Cause) : Onward (close cause) where
  ended _ := rfl
  forgotten := rfl
  dropped _ _ hg := by cases hg
  kept _ _ _ _ hg := by cases hg

lemma Onward.comp {g g' : Fate → Fate} (hg : Onward g) (hg' : Onward g') :
    Onward fun f => g' (g f) where
  ended o := by rw [hg.ended, hg'.ended]
  forgotten := by rw [hg.forgotten, hg'.forgotten]
  dropped r held h := by
    cases hgf : g (waiting r held) with
    | waiting q held' =>
      rw [hgf] at h
      exact ((hg.kept _ _ _ _ hgf).2.symm).trans (hg'.dropped _ _ h)
    | ended o => rw [hgf, hg'.ended] at h; cases h
    | forgotten => exact hg.dropped _ _ hgf
  kept r held q held' h := by
    cases hgf : g (waiting r held) with
    | waiting q' held'' =>
      rw [hgf] at h
      obtain ⟨hid, hheld⟩ := hg.kept _ _ _ _ hgf
      obtain ⟨hid', hheld'⟩ := hg'.kept _ _ _ _ h
      exact ⟨hid'.trans hid, hheld'.trans hheld⟩
    | ended o => rw [hgf, hg'.ended] at h; cases h
    | forgotten => rw [hgf, hg'.forgotten] at h; cases h

lemma held_of_lapse {now : ℕ} {f : Fate} {r : Request} {held : Bool}
    (h : f.lapse now = waiting r held) : held = true := by
  rcases f with ⟨q, _ | _⟩ | o | _
  · cases h
  · exact ((onward_lapse now).kept _ _ _ _ h).2
  · cases h
  · cases h

lemma meet_eq_forgotten {id : ℕ} {op : Op} {f : Fate} (h : f.meet id op = forgotten) :
    f = forgotten ∨ op.looks = true ∧ ∃ r, f = waiting r false := by
  -- only a pass over the pending requests forgets one, and only one without a caller
  rcases f with ⟨r, held⟩ | o | _
  · right
    cases op with
    | register | collect => cases h
    | drop other =>
      simp only [meet, drop] at h
      split at h <;> cases h
    | dispatch now line lineEnd =>
      have hshown := (onward_lapse now).comp (onward_read line lineEnd)
      exact ⟨rfl, r, by rw [hshown.dropped r held h]⟩
    | sweep now => exact ⟨rfl, r, by rw [(onward_lapse now).dropped r held h]⟩
    | rejectAll cause => cases h
  · cases op with
    | drop other =>
      simp only [meet, drop] at h
      split at h <;> cases h
    | register | collect | dispatch | sweep | rejectAll => cases h
  · exact .inl rfl

/-- A request waits without a caller because the caller has just dropped the ticket, or has done so
before and neither a line, a sweep nor the closing came. -/
lemma meet_eq_dropped {id : ℕ} {op : Op} {f : Fate} {r : Request}
    (h : f.meet id op = waiting r false) :
    (op = .drop id ∧ ∃ q held, f = waiting q held) ∨
      op.happening? = none ∧ f = waiting r false := by
  cases op with
  | register | collect => exact .inr ⟨rfl, h⟩
  | drop other =>
    simp only [meet] at h
    split at h
    · rename_i hid
      subst hid
      rcases f with ⟨q, held⟩ | o | _
      · exact .inl ⟨rfl, q, held, rfl⟩
      · cases h
      · cases h
    · exact .inr ⟨rfl, h⟩
  | dispatch now line lineEnd =>
    rw [meet] at h
    cases hl : f.lapse now with
    | waiting q held =>
      rw [hl] at h
      have hread := ((onward_read line lineEnd).kept _ _ _ _ h).2
      cases hread.trans (held_of_lapse hl)
    | ended o | forgotten => simp [hl, read] at h
  | sweep now => cases held_of_lapse h
  | rejectAll cause => rcases f with ⟨q, held⟩ | o | _ <;> cases h

/-- What has been dropped while it waited can only be forgotten or rejected. -/
def Unclaimed : Fate → Prop
  | waiting _ held => held = false
  | ended o => o.isRejected = true
  | forgotten => True

lemma Unclaimed.meet {f : Fate} (h : f.Unclaimed) (id : ℕ) (op : Op) :
    (f.meet id op).Unclaimed := by
  rcases f with ⟨r, held⟩ | o | _
  · have hheld : held = false := h
    subst hheld
    cases op with
    | register | collect => exact h
    | drop other => simp only [Fate.meet]; split <;> rfl
    | dispatch now line lineEnd => trivial
    | sweep now => trivial
    | rejectAll cause => rfl
  · cases op with
    | register | collect | dispatch | sweep | rejectAll => exact h
    | drop other => simp only [Fate.meet]; split <;> exact h
  · cases op with
    | register | collect | dispatch | sweep | rejectAll => trivial
    | drop other => simp only [Fate.meet]; split <;> trivial

lemma Unclaimed.live {f : Fate} (h : f.Unclaimed) (id : ℕ) (ops : List Op) :
    (f.live id ops).Unclaimed := by
  induction ops generalizing f with
  | nil => exact h
  | cons op ops ih => exact ih (h.meet id op)

lemma Unclaimed.not_endedAs {f : Fate} (h : f.Unclaimed) {p : Outcome → Bool}
    (hp : ∀ o, p o = true → o.isRejected = false) : f.endedAs p = false := by
  rcases f with ⟨r, held⟩ | o | _
  · rfl
  · cases hpo : p o with
    | true => cases (hp o hpo).symm.trans h
    | false => exact hpo
  · rfl

lemma live_of_gone {f : Fate} (hf : f.request? = none) (id : ℕ) (ops : List Op) :
    live id f ops = f := by
  induction ops with
  | nil => rfl
  | cons op ops ih =>
    have hmeet : meet id op f = f := by
      rcases f with ⟨r, held⟩ | o | _
      · cases hf
      all_goals
        cases op with
        | register | collect | dispatch | sweep | rejectAll => rfl
        | drop other => simp only [meet]; split <;> rfl
    rw [live, List.foldl_cons, hmeet]
    exact ih

lemma live_dropped {id : ℕ} {ops : List Op} (h : ∀ op ∈ ops, op.happening? = none) (r : Request) :
    live id (waiting r false) ops = waiting r false := by
  induction ops with
  | nil => rfl
  | cons op ops ih =>
    have hmeet : meet id op (waiting r false) = waiting r false := by
      have hop := h op List.mem_cons_self
      cases op with
      | register | collect => rfl
      | drop other => simp only [meet]; split <;> rfl
      | dispatch | sweep | rejectAll => cases hop
    rw [live, List.foldl_cons, hmeet]
    exact ih fun x hx => h x (List.mem_cons_of_mem _ hx)

lemma meet_of_looks {id : ℕ} {op : Op} (h : op.looks = true) (r : Request) :
    meet id op (waiting r false) = forgotten := by
  cases op with
  | dispatch | sweep => rfl
  | register | drop | collect | rejectAll => cases h

end Fate

/-- The fates of all requests that were asked for, in order. -/
structure Roll where
  closed : Bool
  fates : List Fate

namespace Roll

def begin (closed : Bool) : Roll := ⟨closed, []⟩

/-- The fate with which a request is entered. -/
def entry (roll : Roll) (e : Event) (deadline : Option ℕ) (start : Option Position) : Fate :=
  if roll.closed then .refused else .waiting ⟨roll.fates.length, .start e, deadline, start⟩ true

def entering (roll : Roll) : Op → List Fate
  | .register e deadline start => [roll.entry e deadline start]
  | _ => []

/-- Every request meets the operation by itself; a request that is asked for comes last. -/
def apply (roll : Roll) (op : Op) : Roll where
  closed := roll.closed || op matches .rejectAll _
  fates := roll.fates.mapIdx (fun id => Fate.meet id op) ++ roll.entering op

def run (roll : Roll) (ops : List Op) : Roll := ops.foldl apply roll

@[simp] lemma run_nil (roll : Roll) : roll.run [] = roll := rfl
@[simp] lemma run_cons (roll : Roll) (op : Op) (ops : List Op) :
    roll.run (op :: ops) = (roll.apply op).run ops := rfl
lemma run_append (roll : Roll) (ops more : List Op) :
    roll.run (ops ++ more) = (roll.run ops).run more := by
  simp [run, List.foldl_append]

lemma length_apply (roll : Roll) (op : Op) :
    (roll.apply op).fates.length = roll.fates.length + if op.isRegister then 1 else 0 := by
  cases op <;> simp [apply, entering, Op.isRegister]

lemma length_run (roll : Roll) (ops : List Op) :
    (roll.run ops).fates.length = roll.fates.length + ops.countP Op.isRegister := by
  induction ops generalizing roll with
  | nil => rfl
  | cons op ops ih =>
    rw [run_cons, ih, length_apply, List.countP_cons]
    omega

variable {roll : Roll} {k : ℕ} {f : Fate}

lemma getElem?_apply (h : roll.fates[k]? = some f) (op : Op) :
    (roll.apply op).fates[k]? = some (f.meet k op) := by
  have hlt := (List.getElem?_eq_some_iff.mp h).1
  simp only [apply]
  rw [List.getElem?_append_left (by simpa using hlt), List.getElem?_mapIdx, h]
  rfl

lemma getElem?_run (h : roll.fates[k]? = some f) (ops : List Op) :
    (roll.run ops).fates[k]? = some (f.live k ops) := by
  induction ops generalizing roll f with
  | nil => exact h
  | cons op ops ih => exact ih (getElem?_apply h op)

lemma getElem?_apply_cases {op : Op} (h : (roll.apply op).fates[k]? = some f) :
    (∃ f₀, roll.fates[k]? = some f₀ ∧ f₀.meet k op = f) ∨
      op.isRegister = true ∧ (f = .refused ∨ ∃ r, f = .waiting r true) := by
  rcases Nat.lt_or_ge k roll.fates.length with hlt | hge
  · have hold := List.getElem?_eq_getElem hlt
    exact .inl ⟨_, hold, Option.some.inj ((getElem?_apply hold op).symm.trans h)⟩
  · right
    simp only [apply] at h
    rw [List.getElem?_append_right (by simpa using hge)] at h
    cases op with
    | register e deadline start =>
      refine ⟨rfl, ?_⟩
      have hmem := List.mem_of_getElem? h
      rw [List.mem_singleton.mp hmem, entry]
      split
      · exact .inl rfl
      · exact .inr ⟨_, rfl⟩
    | drop | collect | dispatch | sweep | rejectAll => simp [entering] at h

/-! ### How a request comes to be forgotten -/

/-- The request waits. -/
def Waits (roll : Roll) (k : ℕ) : Prop := ∃ r held, roll.fates[k]? = some (.waiting r held)

/-- The caller dropped the ticket while the request waited, and neither a line, a sweep nor the
closing has come since. -/
def Dropped (closed : Bool) (ops : List Op) (k : ℕ) : Prop :=
  ∃ before mid, ops = before ++ .drop k :: mid ∧ ((begin closed).run before).Waits k ∧
    ∀ op ∈ mid, op.happening? = none

lemma dropped_of_waiting {closed : Bool} {ops : List Op} {r : Request}
    (h : ((begin closed).run ops).fates[k]? = some (.waiting r false)) :
    Dropped closed ops k := by
  induction ops using List.reverseRecOn with
  | nil => simp [begin] at h
  | append_singleton ops op ih =>
    rw [run_append, run_cons, run_nil] at h
    -- it waited without a caller before, or has lost its caller just now
    rcases getElem?_apply_cases h with ⟨f₀, hf₀, hmeet⟩ | ⟨-, hrefused | ⟨q, hq⟩⟩
    · rcases Fate.meet_eq_dropped hmeet with ⟨rfl, q, held, rfl⟩ | ⟨hquiet, rfl⟩
      · exact ⟨ops, [], rfl, ⟨q, held, hf₀⟩, by simp⟩
      · obtain ⟨before, mid, rfl, hwaits, hmid⟩ := ih hf₀
        refine ⟨before, mid ++ [op], by simp, hwaits, fun x hx => ?_⟩
        rcases List.mem_append.mp hx with hx | hx
        · exact hmid x hx
        · rwa [List.mem_singleton.mp hx]
    · cases hrefused
    · cases hq

lemma getElem?_of_dropped {closed : Bool} {ops : List Op} (h : Dropped closed ops k) :
    ∃ r, ((begin closed).run ops).fates[k]? = some (.waiting r false) := by
  obtain ⟨before, mid, rfl, ⟨r, held, hf⟩, hmid⟩ := h
  refine ⟨r, ?_⟩
  rw [run_append, getElem?_run hf, Fate.live, List.foldl_cons, ← Fate.live]
  have hdrop : Fate.meet k (.drop k) (.waiting r held) = .waiting r false := if_pos rfl
  rw [hdrop, Fate.live_dropped hmid]

/-- **A request is forgotten exactly when its ticket was dropped while it waited and a line or a
sweep came next.** -/
theorem forgotten_iff {closed : Bool} {ops : List Op} :
    ((begin closed).run ops).fates[k]? = some .forgotten ↔
      ∃ before op after, ops = before ++ op :: after ∧ Dropped closed before k ∧
        op.looks = true := by
  constructor
  · intro h
    induction ops using List.reverseRecOn with
    | nil => simp [begin] at h
    | append_singleton ops op ih =>
      rw [run_append, run_cons, run_nil] at h
      rcases getElem?_apply_cases h with ⟨f₀, hf₀, hmeet⟩ | ⟨-, hrefused | ⟨q, hq⟩⟩
      · rcases Fate.meet_eq_forgotten hmeet with rfl | ⟨hlooks, r, rfl⟩
        · obtain ⟨before, x, after, rfl, hdropped, hlooks⟩ := ih hf₀
          exact ⟨before, x, after ++ [op], by simp, hdropped, hlooks⟩
        · exact ⟨ops, op, [], rfl, dropped_of_waiting hf₀, hlooks⟩
      · cases hrefused
      · cases hq
  · rintro ⟨before, op, after, rfl, hdropped, hlooks⟩
    obtain ⟨r, hr⟩ := getElem?_of_dropped hdropped
    rw [run_append, getElem?_run hr, Fate.live, List.foldl_cons, ← Fate.live,
      Fate.meet_of_looks hlooks, Fate.live_of_gone rfl]

lemma not_endedAs_of_dropped {closed : Bool} {before after : List Op}
    (hwaits : ((begin closed).run before).Waits k) {p : Outcome → Bool}
    (hp : ∀ o, p o = true → o.isRejected = false)
    (hf : ((begin closed).run (before ++ .drop k :: after)).fates[k]? = some f) :
    f.endedAs p = false := by
  obtain ⟨r, held, hr⟩ := hwaits
  rw [run_append, getElem?_run hr] at hf
  rw [← Option.some.inj hf, Fate.live, List.foldl_cons, ← Fate.live]
  have hdrop : Fate.meet k (.drop k) (.waiting r held) = .waiting r false := if_pos rfl
  rw [hdrop]
  have hunclaimed : (Fate.waiting r false).Unclaimed := rfl
  exact (hunclaimed.live k after).not_endedAs hp

end Roll

end LogWatch
