import Mathlib
import LogWatch.Proofs.Harness.Call
import LogWatch.Proofs.Listener.Ending
import LogWatch.Proofs.Node.Turns

/-!
A harness at work: one caller after another, and between the steps of a call the followers of all
listeners, those who hold a listener, and the machine.

Each listener lives in a world of its own, a view of the site. Whatever happens at the site is a run
of moves in that world, so all that holds of a listener after every run holds of it here; and a
follower that has come to its end never starts again.
-/

namespace LogWatch

/-- Whether a move is one of the follower, of the node that answers it or of those who hold the
listener. The disk is everybody's, and the stop is the harness's business. -/
def Move.isOwn : Move → Bool
  | files _ | requestStop | finishStop => false
  | follow _ | sweep _ | answer _ | listen _ _ _ | drop _ | collect _ => true

namespace World

variable {w : World} {m : Move}

lemma disk_apply (hown : m.isOwn = true) : (w.apply m).disk = w.disk := by
  cases m with
  | files | requestStop | finishStop => cases hown
  | answer | listen | drop | collect => rfl
  | sweep now =>
    rw [apply]
    split <;> rfl
  | follow now =>
    simp only [apply, follow]
    split <;> rfl

lemma isOver_apply (hover : w.isOver = true) (m : Move) : (w.apply m).isOver = true := by
  have hdone : ∀ f, w.listener.follower = some f → f.phase = .done := by
    intro f hf
    simpa [isOver, Listener.isFollowing, hf] using hover
  -- all that could go on is the follower, and its phase is the last
  cases m with
  | files | listen | drop | collect | requestStop => exact hover
  | sweep now =>
    rw [apply]
    split <;> exact hover
  | finishStop =>
    rw [apply]
    split <;> exact hover
  | answer r =>
    have hsame : w.listener.answer w.disk r = w.listener := by
      unfold Listener.answer
      cases hf : w.listener.follower with
      | none => rfl
      | some f => cases r <;> simp only [hdone f hf]
    rw [apply, hsame]
    exact hover
  | follow now =>
    simp only [apply, follow]
    split
    · exact hover
    · rename_i hread
      obtain ⟨f, hf, hreading, -⟩ := Listener.readLine?_eq_some hread
      rw [hdone f hf] at hreading
      cases hreading
    · have hsame : w.listener.advance w.disk now = w.listener := by
        unfold Listener.advance
        cases hf : w.listener.follower with
        | none => rfl
        | some f => simp only [hdone f hf]
      rw [hsame]
      exact hover

lemma isOver_run (hover : w.isOver = true) (moves : List Move) : (w.run moves).isOver = true := by
  induction moves generalizing w with
  | nil => exact hover
  | cons m moves ih => exact ih (isOver_apply hover m)

end World

structure Site where
  harness : Harness
  host : Host
  /-- In the order in which they called; only the last one can be under way. -/
  callers : List Harness.Caller
  /-- The logs of all runs of the node so far. -/
  logs : List String
  /-- How many runs there had been when each listener came. -/
  era : ℕ → ℕ
  /-- The line that the follower of each listener has read and not dispatched yet. -/
  hand : ℕ → Option (String × Position)

namespace Site

open Harness (Order Reply Stage)

inductive Move where
  /-- Whoever calls while another one is under way is not heard. -/
  | calls (o : Order)
  /-- The caller who is under way goes on to where others can have their turn. -/
  | go
  /-- Somebody asks whether the node is alive. -/
  | asks
  | system (e : Host.Event)
  /-- A move in the world of one listener. -/
  | seat (i : ℕ) (m : LogWatch.Move)
deriving DecidableEq

/-- A harness with a node that was never started. -/
def begin (listening : Settings) (node : NodeSettings) (h : Host) : Site :=
  ⟨⟨listening, .ofSettings node, [.detached], 0⟩, h, [], [], fun _ => 0, fun _ => none⟩

lemma eq_begin_of_ofSettings {s : HarnessSettings} {x : Harness} (h : Host)
    (hmade : Harness.ofSettings s = .ok x) : x = (begin s.listener s.node h).harness := by
  unfold Harness.ofSettings at hmade
  split at hmade
  · cases hmade
  · exact (Except.ok.inj hmade).symm

/-- How far the caller has come who is under way, or was the last to be. -/
def stage? (x : Site) : Option Stage := x.callers.getLast?.map (·.stage)

/-- Whether nobody is under way. -/
def isFree (x : Site) : Bool := x.stage?.all (·.reply?.isSome)

/-- The world of a listener. -/
def view (x : Site) (i : ℕ) : World :=
  ⟨x.host.disk, x.harness.listeners.getD i .detached, x.hand i⟩

/-- A step of the last caller. A listener that comes with it belongs to the run of that time. -/
def after (x : Site) (past : List Harness.Caller) (w : Harness.Caller)
    (r : (Harness × Host) × Stage) : Site where
  harness := r.1.1
  host := r.1.2
  callers := past ++ [⟨w.order, r.2⟩]
  logs := x.logs ++ r.2.log?.toList
  era i := if i < x.harness.listeners.length then x.era i else x.logs.length
  hand := x.hand

def apply (x : Site) : Move → Site
  | .calls o => if x.isFree then { x with callers := x.callers ++ [⟨o, .ready⟩] } else x
  | .go =>
    match x.callers.getLast? with
    | none => x
    | some w => x.after x.callers.dropLast w (x.harness.step x.host w)
  | .asks =>
    let ((node, host), _) := x.harness.node.isAlive x.host
    { x with harness.node := node, host }
  | .system e => { x with host := x.host.happen e }
  | .seat i m =>
    if m.isOwn then
      let w := (x.view i).apply m
      { x with
        harness.listeners := x.harness.listeners.set i w.listener
        hand := Function.update x.hand i w.hand }
    else x

def run (x : Site) (moves : List Move) : Site := moves.foldl apply x

@[simp] lemma run_nil (x : Site) : x.run [] = x := rfl
@[simp] lemma run_cons (x : Site) (m : Move) (moves : List Move) :
    x.run (m :: moves) = (x.apply m).run moves := rfl
lemma run_append (x : Site) (moves more : List Move) :
    x.run (moves ++ more) = (x.run moves).run more := by
  simp [run, List.foldl_append]
lemma run_snoc (x : Site) (moves : List Move) (m : Move) :
    x.run (moves ++ [m]) = (x.run moves).apply m := by
  rw [run_append, run_cons, run_nil]

variable {x y : Site} {i : ℕ} {m : Move} {past : List Harness.Caller} {w : Harness.Caller}
  {r : (Harness × Host) × Stage}

lemma isOver_view (x : Site) (i : ℕ) : (x.view i).isOver = !x.harness.follows i := rfl

lemma stage?_of_snoc (hcallers : x.callers = past ++ [w]) : x.stage? = some w.stage := by
  simp [stage?, hcallers]

lemma apply_go (hcallers : x.callers = past ++ [w]) :
    x.apply .go = x.after past w (x.harness.step x.host w) := by
  simp only [apply, hcallers, List.getLast?_append, List.getLast?_singleton, Option.some_or,
    List.dropLast_concat]

lemma go_cases (x : Site) : (x.callers = [] ∧ x.apply .go = x) ∨
    ∃ past w r, x.callers = past ++ [w] ∧ Harness.Step x.harness x.host w r.1.1 r.1.2 r.2 ∧
      x.apply .go = x.after past w r := by
  rcases List.eq_nil_or_concat x.callers with hnone | ⟨past, w, hcallers⟩
  · exact .inl ⟨hnone, by simp [apply, hnone]⟩
  · rw [List.concat_eq_append] at hcallers
    exact .inr ⟨past, w, _, hcallers, x.harness.step_spec x.host w, apply_go hcallers⟩

/-! ### What happens beside the caller -/

/-- What all others leave as it is while a caller is under way. -/
structure Aside (x y : Site) : Prop where
  callers : y.callers = x.callers
  logs : y.logs = x.logs
  era : y.era = x.era
  slot : y.harness.slot = x.harness.slot
  count : y.harness.listeners.length = x.harness.listeners.length
  listening : y.harness.listening = x.harness.listening
  pid : y.harness.node.pid? = x.harness.node.pid?
  log : y.harness.node.logPath? = x.harness.node.logPath?
  views : ∀ i < x.harness.listeners.length, ∃ moves, y.view i = (x.view i).run moves

lemma Aside.refl (x : Site) : Aside x x :=
  ⟨rfl, rfl, rfl, rfl, rfl, rfl, rfl, rfl, fun _ _ => ⟨[], rfl⟩⟩

lemma aside_of_node (x : Site) {n : Node} (h : Host) (hpid : n.pid? = x.harness.node.pid?)
    (hlog : n.logPath? = x.harness.node.logPath?) :
    Aside x { x with harness.node := n, host := h } :=
  ⟨rfl, rfl, rfl, rfl, rfl, rfl, hpid, hlog, fun _ _ => ⟨[.files h.disk], rfl⟩⟩

lemma view_seat (hi : i < x.harness.listeners.length) {j : ℕ} {m : LogWatch.Move}
    (hown : m.isOwn = true) :
    (x.apply (.seat j m)).view i = if j = i then (x.view i).apply m else x.view i := by
  simp only [apply, hown, if_true]
  split
  · rename_i hji
    subst hji
    have hdisk : ((x.view j).apply m).disk = x.host.disk := World.disk_apply hown
    generalize (x.view j).apply m = v at hdisk
    obtain ⟨d, l, hand⟩ := v
    subst hdisk
    simp [view, List.getElem?_set_self hi]
  · rename_i hji
    simp [view, List.getElem?_set_ne hji, Function.update_of_ne (Ne.symm hji)]

lemma aside_apply (x : Site) (hgo : m ≠ .go) (hcalls : x.isFree = true → ∀ o, m ≠ .calls o) :
    Aside x (x.apply m) := by
  cases m with
  | go => exact absurd rfl hgo
  | calls o =>
    rw [apply, if_neg fun hfree => hcalls hfree o rfl]
    exact .refl x
  | system e => exact aside_of_node x _ rfl rfl
  | asks =>
    -- a look at the node sees nothing new, or it is the one that sees the child's end
    rcases x.harness.node.isAlive_cases x.host with ⟨c, -, -, -, halive⟩ | ⟨n, h, hdown, hdead⟩
    · simp only [apply, halive]
      exact .refl x
    · simp only [apply, hdead]
      obtain ⟨hpid, hlog⟩ := Node.pid?_of_down hdown
      exact aside_of_node x h hpid hlog
  | seat j m =>
    cases hown : m.isOwn with
    | false =>
      simp only [apply, hown]
      exact .refl x
    | true =>
      have hviews : ∀ i < x.harness.listeners.length, ∃ moves,
          (x.apply (.seat j m)).view i = (x.view i).run moves := by
        intro i hi
        rw [view_seat hi hown]
        split
        · exact ⟨[m], rfl⟩
        · exact ⟨[], rfl⟩
      simp only [apply, hown, if_true] at hviews ⊢
      exact ⟨rfl, rfl, rfl, rfl, List.length_set, rfl, rfl, rfl, hviews⟩

/-- What a step of the caller makes of the world of a listener that was there before. -/
lemma view_after (hstep : Harness.Step x.harness x.host w r.1.1 r.1.2 r.2)
    (hi : i < x.harness.listeners.length) :
    ∃ moves, (x.after past w r).view i = (x.view i).run moves := by
  have htreated := hstep.treated.2 i hi
  change ∃ moves, (⟨r.1.2.disk, r.1.1.listeners.getD i .detached, x.hand i⟩ : World) = _
  generalize r.1.1.listeners.getD i .detached = l at htreated ⊢
  cases htreated with
  | left => exact ⟨[.files r.1.2.disk], rfl⟩
  | told => exact ⟨[.files r.1.2.disk, .requestStop], rfl⟩
  | closed hover =>
    refine ⟨[.files r.1.2.disk, .finishStop], ?_⟩
    rw [World.run_cons, World.run_cons, World.run_nil]
    simp only [World.apply, view, hover, Bool.false_eq_true, if_false]

/-! ### Where a listener comes from -/

/-- A listener that was never attached to anything. -/
def Detached (x : Site) (i : ℕ) : Prop :=
  ∃ d moves, x.view i = (World.begin d .detached).run moves

/-- A listener that was attached to the log of the run that was the latest when it came. -/
def Attached (x : Site) (i : ℕ) (path : String) : Prop :=
  (x.logs.take (x.era i)).getLast? = some path ∧
  ∃ d l moves, Listener.attach d x.harness.listening true (some path) = .ok l ∧
    x.view i = (World.begin d l).run moves

/-- The harness only lets go of listeners, so none is forgotten, and its past stays as it was. -/
structure Onward (x y : Site) : Prop where
  count : x.harness.listeners.length ≤ y.harness.listeners.length
  logs : x.logs <+: y.logs
  era : ∀ i < x.harness.listeners.length, y.era i = x.era i
  listening : y.harness.listening = x.harness.listening
  views : ∀ i < x.harness.listeners.length, ∃ moves, y.view i = (x.view i).run moves

lemma Aside.onward (h : Aside x y) : Onward x y :=
  ⟨h.count.ge, h.logs ▸ List.prefix_refl _, fun i _ => by rw [h.era], h.listening, h.views⟩

lemma onward_after (hstep : Harness.Step x.harness x.host w r.1.1 r.1.2 r.2) :
    Onward x (x.after past w r) :=
  ⟨hstep.treated.1, List.prefix_append _ _, fun _ hi => if_pos hi, hstep.listening,
    fun _ hi => view_after hstep hi⟩

lemma onward_apply (x : Site) (m : Move) : Onward x (x.apply m) := by
  cases m with
  | go =>
    rcases x.go_cases with ⟨-, hsame⟩ | ⟨past, w, r, -, hstep, hafter⟩
    · rw [hsame]
      exact (Aside.refl x).onward
    · rw [hafter]
      exact onward_after hstep
  | calls o =>
    rw [apply]
    split
    · exact ⟨le_rfl, List.prefix_refl _, fun _ _ => rfl, rfl, fun _ _ => ⟨[], rfl⟩⟩
    · exact (Aside.refl x).onward
  | asks | system | seat => exact (aside_apply x (by simp) (by simp)).onward

lemma Detached.onward (hi : i < x.harness.listeners.length) (h : x.Detached i)
    (hon : Onward x y) : y.Detached i := by
  obtain ⟨d, moves, hview⟩ := h
  obtain ⟨more, hmore⟩ := hon.views i hi
  exact ⟨d, moves ++ more, by rw [hmore, hview, World.run_append]⟩

lemma Attached.onward {path : String} (hi : i < x.harness.listeners.length)
    (hera : x.era i ≤ x.logs.length) (h : x.Attached i path) (hon : Onward x y) :
    y.Attached i path := by
  obtain ⟨hpath, d, l, moves, hattach, hview⟩ := h
  obtain ⟨more, hmore⟩ := hon.views i hi
  refine ⟨?_, d, l, moves ++ more, hon.listening ▸ hattach, by rw [hmore, hview, World.run_append]⟩
  obtain ⟨later, hlater⟩ := hon.logs
  rw [hon.era i hi, ← hlater, List.take_append_of_le_length hera]
  exact hpath

lemma Detached.unserved (h : x.Detached i) : (x.view i).Unserved := by
  obtain ⟨d, moves, hview⟩ := h
  rw [hview]
  exact (World.unserved_detached d).run moves

lemma Attached.exists_follows {path : String} (h : x.Attached i path) :
    ∃ f, World.Follows (x.view i) f ∧ (f.phase = .done ↔ x.harness.follows i = false) := by
  obtain ⟨-, d, l, moves, hattach, hview⟩ := h
  obtain ⟨f, hf⟩ := World.follows_begin hattach
  obtain ⟨g, hg⟩ := hf.run moves
  rw [← hview] at hg
  exact ⟨g, hg, by rw [← hg.isOver_iff, isOver_view, Bool.not_eq_true']⟩

lemma Attached.ended {path : String} (h : x.Attached i path) (hover : x.harness.follows i = false) :
    (x.view i).state.isTerminal = true ∧ (x.view i).ledger.closed = true ∧
      (x.view i).ledger.pending = [] := by
  obtain ⟨g, hg, hphase⟩ := h.exists_follows
  have hdone := hphase.mpr hover
  obtain ⟨-, hclosed, hempty⟩ := hg.stands.of_done hdone
  exact ⟨hg.isTerminal_iff.mpr (by rw [hdone]; rfl), hclosed, hempty⟩

lemma follows_onward (hon : Onward x y) (hi : i < x.harness.listeners.length)
    (hfollows : y.harness.follows i = true) : x.harness.follows i = true := by
  by_contra hover
  obtain ⟨moves, hview⟩ := hon.views i hi
  have hstill : (y.view i).isOver = true := by
    rw [hview]
    exact World.isOver_run (by simpa [isOver_view] using hover) moves
  simp [isOver_view, hfollows] at hstill

/-! ### A harness that is restarted -/

/-- A harness with a node that sleeps, on a machine on which nothing runs yet. -/
def sleeping : Site := begin .standard Company.sleeper ⟨.empty, 0, [], 100, none⟩

/-- It is started and listens. -/
def attending : List Move := .calls .start :: List.replicate 6 .go

/-- It is told to restart while the node runs; the old listener is told to stop, and does. -/
def restarting : List Move :=
  [.system .tick, .calls .restart, .go, .go, .seat 1 (.follow 0), .seat 1 (.follow 0), .go, .go,
    .go, .system (.passes 5000000), .go, .go, .go, .go, .go]

end Site

end LogWatch
