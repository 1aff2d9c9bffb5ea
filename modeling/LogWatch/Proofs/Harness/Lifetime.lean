import Mathlib
import LogWatch.Proofs.Harness.Seats
import LogWatch.Proofs.Node.Company

/-!
How long a listener lives, compared with the run that it was attached to.

As long as a run ends only because the harness ends it, nobody listens to a node that is not alive,
and nobody who was there before a run began hears any of it: the old listener is stopped before the
run is, and the next run begins after both. But nobody watches for a run that ends by itself. Then
the listener goes on until the harness is told to do something next; if that is a start, there is a
new log by the time the old listener is stopped, and the old one may have gone over to it.
-/

namespace LogWatch

namespace World.Ended

variable {w : World}

lemma dispatched (h : w.Ended) (moves : List Move) : w.dispatched moves = [] := by
  induction moves generalizing w with
  | nil => rfl
  | cons m moves ih =>
    -- only a follower dispatches, and this one is past its last phase
    have hnone : (w.opsOf m).filterMap Ledger.Op.line? = [] := by
      cases m with
      | files | answer | requestStop | listen | drop | collect => rfl
      | sweep now =>
        rw [opsOf]
        split <;> rfl
      | finishStop =>
        rw [opsOf]
        split <;> rfl
      | follow now =>
        have hread : w.listener.readLine? w.disk = none := by
          cases hread : w.listener.readLine? w.disk with
          | none => rfl
          | some x =>
            obtain ⟨g, hg, hreading, -⟩ := Listener.readLine?_eq_some hread
            have hdead := h.dead g hg
            simp [hreading, Phase.isLive] at hdead
        simp only [opsOf, followOps, h.hand, hread]
        unfold Listener.advanceOps
        split
        · rfl
        · split <;> rfl
    have hrest := ih (h.apply m)
    rw [World.dispatched] at hrest ⊢
    rw [ops, List.filterMap_append, hnone, hrest]
    rfl

end World.Ended

namespace Harness.Stage

/-- Whether the caller is at work on the node, with all listeners gone. -/
def isQuiet : Stage → Bool
  | calling c => c.order ≠ .start
  | started _ | attaching _ _ | cleaning _ _ => true
  | ready | placing _ | retiring _ _ _ | done _ => false

end Harness.Stage

namespace Site

open Harness (Order Reply Stage)

variable {x y : Site} {i : ℕ} {m : Move} {past : List Harness.Caller} {w : Harness.Caller}
  {x' : Harness} {h' : Host} {stage : Stage}

/-- Whether the process of the node runs. -/
def isAlive (x : Site) : Bool := (x.harness.node.isAlive x.host).2

/-- Whether no event of the machine ends the run of the node. -/
def isUndisturbed (x : Site) : List Move → Bool
  | [] => true
  | .system e :: moves =>
    (!x.isAlive || (x.apply (.system e)).isAlive) && (x.apply (.system e)).isUndisturbed moves
  | m :: moves => (x.apply m).isUndisturbed moves

/-- Whoever still follows a log does so for a run that goes on. -/
structure Paired (x : Site) : Prop where
  quiet : ∀ s ∈ x.stage?, s.isQuiet = true → ∀ i, x.harness.follows i = false
  pairs : ∀ i, x.harness.follows i = true → x.isAlive = true ∧ x.era i = x.logs.length
  seen : ∀ path, x.stage? = some (.attaching path true) → x.isAlive = true
  vacant : ∀ j asked, x.stage? = some (.retiring j asked none) →
    x.harness.follows x.harness.slot = false

lemma paired_begin (listening : Settings) (node : NodeSettings) (h : Host) :
    (begin listening node h).Paired := by
  have hidle : ∀ i, (begin listening node h).harness.follows i = false := by
    intro i
    cases i <;> rfl
  exact ⟨by simp [begin, stage?], by simp [hidle], by simp [begin, stage?], by simp [begin, stage?]⟩

lemma idle_onward (hon : Onward x y)
    (hcount : y.harness.listeners.length = x.harness.listeners.length)
    (hidle : ∀ i, x.harness.follows i = false) (i : ℕ) : y.harness.follows i = false := by
  cases hfollows : y.harness.follows i with
  | false => rfl
  | true =>
    have hstill := follows_onward hon (hcount ▸ lt_of_follows hfollows) hfollows
    exact absurd (hstill.symm.trans (hidle i)) (by simp)

lemma Paired.aside (hp : x.Paired) (ha : Aside x y) (halive : x.isAlive = true → y.isAlive = true) :
    y.Paired := by
  have hstage : y.stage? = x.stage? := by rw [stage?, stage?, ha.callers]
  have hfollows : ∀ i, y.harness.follows i = true → x.harness.follows i = true := fun i hi =>
    follows_onward ha.onward (ha.count ▸ lt_of_follows hi) hi
  refine ⟨fun s hs hquiet => ?_, fun i hi => ?_, fun path hs => ?_, fun j asked hs => ?_⟩
  · exact idle_onward ha.onward ha.count (hp.quiet s (hstage ▸ hs) hquiet)
  · rw [ha.era, ha.logs]
    exact (hp.pairs i (hfollows i hi)).imp_left halive
  · exact halive (hp.seen path (hstage ▸ hs))
  · have hvacant := hp.vacant j asked (hstage ▸ hs)
    rw [ha.slot]
    by_contra hstill
    simp [hfollows _ (by simpa using hstill)] at hvacant

lemma paired_of_quiet (hover : ∀ i, y.harness.follows i = false)
    (hseen : ∀ path, y.stage? = some (.attaching path true) → y.isAlive = true) : y.Paired :=
  ⟨fun _ _ _ => hover, fun i hi => by simp [hover] at hi, hseen, fun _ _ _ => hover _⟩

lemma Paired.passing (hp : x.Paired) (hon : Onward x y) (hlogs : y.logs = x.logs)
    (halive : y.isAlive = x.isAlive) {s : Stage} (hstage : y.stage? = some s)
    (hbusy : s.isQuiet = false) (hlater : ∀ i, y.harness.follows i = true →
      i < x.harness.listeners.length)
    (hvacant : ∀ j asked, s = .retiring j asked none → y.harness.follows y.harness.slot = false) :
    y.Paired := by
  refine ⟨fun t ht hquiet => ?_, fun i hi => ?_, fun path hs => ?_, fun j asked hs => ?_⟩
  · rw [hstage] at ht
    obtain rfl := Option.some.inj ht
    simp [hbusy] at hquiet
  · have hlt := hlater i hi
    rw [halive, hon.era i hlt, hlogs]
    exact hp.pairs i (follows_onward hon hlt hi)
  · rw [hstage] at hs
    obtain rfl := Option.some.inj hs
    cases hbusy
  · rw [hstage] at hs
    exact hvacant j asked (Option.some.inj hs)

lemma proceed_ne_attaching (o : Order) (c : Node.Caller) (path : String) (alive : Bool) :
    o.proceed c ≠ .attaching path alive := by
  unfold Order.proceed Order.settle
  split
  · simp
  · split
    · simp
    · split <;> simp
    · simp
    · simp

lemma Paired.calls (hp : x.Paired) (hs : x.Seated) (hcallers : x.callers = past ++ [w])
    {c : Node.Caller} {n : Node} {t : Node.Stage} (hcalling : w.stage = .calling c)
    (hnode : Node.Step x.harness.node x.host c n h' t) :
    (x.after past w (({ x.harness with node := n }, h'),
      w.order.proceed { c with stage := t })).Paired := by
  have hon : Onward x (x.after past w (({ x.harness with node := n }, h'),
      w.order.proceed { c with stage := t })) := onward_after (.calls hcalling hnode)
  have hbefore := stage?_of_snoc hcallers
  have hquiet : (∀ i, x.harness.follows i = false) → (x.after past w
      (({ x.harness with node := n }, h'), w.order.proceed { c with stage := t })).Paired := by
    refine fun hover => paired_of_quiet hover fun path hattaching => ?_
    rw [stage?_of_snoc rfl] at hattaching
    exact absurd (Option.some.inj hattaching) (proceed_ne_attaching _ _ _ _)
  -- where somebody may follow a log the call is a start, and the child that runs refuses it
  cases hquietly : (Stage.calling c).isQuiet with
  | true => exact hquiet (hp.quiet _ (hbefore.trans (congrArg some hcalling)) hquietly)
  | false =>
    have ho : c.order = .start := by simpa [Stage.isQuiet] using hquietly
    have hready : c.stage = .ready := by
      have hfirst := (hs.waits c (hbefore.trans (congrArg some hcalling))).2
      simpa [ho] using hfirst
    cases halive : x.isAlive with
    | false =>
      refine hquiet fun i => ?_
      by_contra hfollows
      have hruns := (hp.pairs i (by simpa using hfollows)).1
      simp [halive] at hruns
    | true =>
      obtain ⟨rfl, rfl, e, rfl⟩ := hnode.refuses_of_alive ho hready halive
      exact hp.passing hon (List.append_nil _) rfl (stage?_of_snoc rfl) rfl
        (fun i => lt_of_follows (x := x)) (by simp [Order.proceed, Order.settle, Node.Stage.reply?])

/-- **A step of a caller lets nobody follow a log longer than the run goes on.** -/
lemma Paired.after (hp : x.Paired) (hs : x.Seated) (hcallers : x.callers = past ++ [w])
    (hstep : Harness.Step x.harness x.host w x' h' stage) :
    (x.after past w ((x', h'), stage)).Paired := by
  have hon : Onward x (x.after past w ((x', h'), stage)) := onward_after hstep
  have hbefore := stage?_of_snoc hcallers
  have hafter : (x.after past w ((x', h'), stage)).stage? = some stage :=
    stage?_of_snoc (w := ⟨w.order, stage⟩) rfl
  -- nobody begins to follow who was idle before
  have hover : ∀ i < x.harness.listeners.length, x.harness.follows i = false →
      x'.follows i = false := by
    intro i hi hidle
    cases hfollows : x'.follows i with
    | false => rfl
    | true => exact absurd ((follows_onward hon hi hfollows).symm.trans hidle) (by simp)
  cases hstep with
  | heads hold =>
    exact hp.passing hon (List.append_nil _) rfl hafter rfl (fun i => lt_of_follows) (by simp)
  | places hold =>
    exact hp.passing hon (List.append_nil _) rfl hafter rfl
      (fun i => lt_of_follows (x := x)) (by simp)
  | rests hold =>
    exact hp.passing hon (List.append_nil _) rfl hafter rfl (fun i => lt_of_follows) (by simp)
  | waits hold =>
    refine hp.passing hon (List.append_nil _) rfl hafter rfl (fun i => lt_of_follows) ?_
    intro j asked hnext
    exact hp.vacant j asked (hbefore.trans (congrArg some (hold.trans hnext)))
  | tells hold =>
    refine hp.passing hon (List.append_nil _) rfl hafter rfl (fun i hi => ?_) ?_
    · exact lt_of_lt_of_eq (lt_of_follows hi) (List.length_modify ..)
    · intro j asked hnext
      obtain ⟨rfl, -, rfl⟩ := Stage.retiring.inj hnext
      exact hover _ hs.slot (hp.vacant _ false (hbefore.trans (congrArg some hold)))
  | vacates hold horder =>
    -- the one that takes the slot is detached
    have hnew : (x.harness.place .detached).1.follows x.harness.listeners.length = false := by
      simp [Harness.follows, Harness.place, Harness.enroll, Listener.detached,
        Listener.isFollowing]
    refine hp.passing hon (List.append_nil _) rfl hafter rfl (fun i hi => ?_) ?_
    · have hlt := lt_of_follows hi
      have hne : i ≠ x.harness.listeners.length := by
        rintro rfl
        exact absurd (hi.symm.trans hnew) (by simp)
      simp only [Site.after, Harness.place, Harness.enroll, List.length_append,
        List.length_singleton] at hlt
      omega
    · exact fun _ _ _ => hnew
  | calls hold hnode => exact hp.calls hs hcallers hold hnode
  | looks hold =>
    have hquiet := hp.quiet _ (hbefore.trans (congrArg some hold)) rfl
    refine paired_of_quiet hquiet fun path hattaching => ?_
    rw [hafter] at hattaching
    have halive := (Stage.attaching.inj (Option.some.inj hattaching)).2
    have hsame := Node.isAlive_of_alive halive
    simp only [isAlive, Site.after, hsame]
  | misses hold =>
    refine paired_of_quiet (hp.quiet _ (hbefore.trans (congrArg some hold)) rfl) ?_
    simp [hafter]
  | cleans hold =>
    refine paired_of_quiet (hp.quiet _ (hbefore.trans (congrArg some hold)) rfl) ?_
    intro path hattaching
    rw [hafter] at hattaching
    unfold Harness.cleaned at hattaching
    split at hattaching <;> cases hattaching
  | attaches hold hengage =>
    -- Nobody else follows a log by now, and the newcomer came after the node was seen alive.
    have hquiet := hp.quiet _ (hbefore.trans (congrArg some hold)) rfl
    refine ⟨fun s hs' hbusy => ?_, fun i hi => ?_, by simp [hafter], by simp [hafter]⟩
    · rw [hafter] at hs'
      obtain rfl := Option.some.inj hs'
      cases hbusy
    · have hge : ¬ i < x.harness.listeners.length := by
        intro hlt
        have hidle := hover i hlt (hquiet i)
        exact absurd (hi.symm.trans hidle) (by simp)
      obtain rfl := Harness.alive_of_engage hengage
      refine ⟨hp.seen _ (hbefore.trans (congrArg some hold)), ?_⟩
      exact (if_neg hge).trans (congrArg List.length (List.append_nil _)).symm
  | closes hold hidle | passes hold hidle =>
    rename_i j next?
    cases next? with
    | some k =>
      refine hp.passing hon (List.append_nil _) rfl hafter rfl (fun i hi => ?_)
        (by simp [Order.afterwards])
      exact lt_of_lt_of_eq (lt_of_follows hi) (by simp [Site.after])
    | none =>
      -- The slot is vacant and the one that left it is no more; there was no third one.
      have hquiet : ∀ i, x.harness.follows i = false := by
        intro i
        by_contra hfollows
        rcases hs.one i (by simpa using hfollows) with rfl | ⟨s, hs', hspares⟩
        · exact hfollows (hp.vacant j _ (hbefore.trans (congrArg some hold)))
        · rw [hbefore, hold] at hs'
          obtain rfl := Option.some.inj hs'
          obtain rfl := of_decide_eq_true hspares
          exact hfollows hidle
      refine paired_of_quiet (idle_onward hon (by simp [Site.after]) hquiet) ?_
      intro path hattaching
      rw [hafter] at hattaching
      cases hattaching

lemma Paired.apply (hp : x.Paired) (hs : x.Seated) (m : Move)
    (hlasts : ∀ e, m = .system e → x.isAlive = true → (x.apply m).isAlive = true) :
    (x.apply m).Paired := by
  cases m with
  | go =>
    rcases x.go_cases with ⟨-, hsame⟩ | ⟨past, w, r, hcallers, hstep, hafter⟩
    · rwa [hsame]
    · rw [hafter]
      exact hp.after hs hcallers hstep
  | calls o =>
    rw [Site.apply]
    split
    · rename_i hfree
      refine ⟨fun s hs' hquiet => ?_, hp.pairs, fun path hs' => ?_, fun j asked hs' => ?_⟩
      · rw [stage?_of_snoc rfl] at hs'
        obtain rfl := Option.some.inj hs'
        cases hquiet
      · rw [stage?_of_snoc rfl] at hs'
        cases hs'
      · rw [stage?_of_snoc rfl] at hs'
        cases hs'
    · exact hp
  | asks =>
    refine hp.aside (aside_apply x (by simp) (by simp)) fun halive => ?_
    simp only [isAlive, Site.apply, Node.isAlive_of_alive halive]
  | system e => exact hp.aside (aside_apply x (by simp) (by simp)) (hlasts e rfl)
  | seat j m =>
    refine hp.aside (aside_apply x (by simp) (by simp)) fun halive => ?_
    rw [Site.apply]
    split <;> exact halive

lemma Paired.run (hp : x.Paired) (hs : x.Seated) {moves : List Move}
    (hlasts : x.isUndisturbed moves = true) : (x.run moves).Paired := by
  induction moves generalizing x with
  | nil => exact hp
  | cons m moves ih =>
    have hboth : (∀ e, m = .system e → x.isAlive = true → (x.apply m).isAlive = true) ∧
        (x.apply m).isUndisturbed moves = true := by
      cases m with
      | calls | go | asks | seat => exact ⟨by simp, hlasts⟩
      | system e =>
        simp only [isUndisturbed, Bool.and_eq_true, Bool.or_eq_true, Bool.not_eq_true'] at hlasts
        refine ⟨fun _ _ halive => hlasts.1.resolve_left ?_, hlasts.2⟩
        simp [halive]
    exact ih (hp.apply hs m hboth.1) (hs.apply m) hboth.2

lemma Seated.ended (hs : x.Seated) (hi : i < x.harness.listeners.length)
    (hover : x.harness.follows i = false) : (x.view i).Ended := by
  rcases hs.known i hi with hdetached | ⟨path, hattached⟩
  · exact hdetached.unserved.ended
  · obtain ⟨g, hg, hphase⟩ := hattached.exists_follows
    refine hg.ended ?_
    rw [hphase.mpr hover]
    rfl

lemma Seated.follows_of_isListening (hs : x.Seated)
    (hlistening : x.harness.listener.isListening = true) :
    x.harness.follows x.harness.slot = true := by
  rcases hs.known _ hs.slot with hdetached | ⟨path, hattached⟩
  · have hstate : x.harness.listener.stream.state = .unattached := hdetached.unserved.state
    simp [Listener.isListening, hstate, StreamState.isAttached] at hlistening
  · obtain ⟨g, hg, hphase⟩ := hattached.exists_follows
    have hlive : g.phase.isLive = true := hg.isLive_of_isListening hlistening
    by_contra hidle
    rw [hphase.mpr (by simpa using hidle)] at hlive
    cases hlive

/-- That a listener lives as long as the run that it was attached to. -/
structure Lifetime (x : Site) : Prop where
  /-- Nobody listens to a node whose process does not run. -/
  down : x.isAlive = false → x.harness.listener.isListening = false
  /-- Once there is a later run, whoever listened to an earlier one hears nothing more. -/
  silent : ∀ i < x.harness.listeners.length, x.era i < x.logs.length →
    ∀ moves, (x.view i).dispatched moves = []

/-- **A listener lives as long as its run,** at every moment of every sequence of calls, if no run
ends by itself. -/
theorem listener_lives_with_its_run (listening : Settings) (node : NodeSettings) (h : Host)
    (moves : List Move) (hlasts : (begin listening node h).isUndisturbed moves = true) :
    ((begin listening node h).run moves).Lifetime := by
  have hs := (seated_begin listening node h).run moves
  have hp := (paired_begin listening node h).run (seated_begin listening node h) hlasts
  refine ⟨fun hdown => ?_, fun i hi hera => ?_⟩
  · by_contra hlistening
    have halive := (hp.pairs _ (hs.follows_of_isListening (by simpa using hlistening))).1
    simp [hdown] at halive
  · refine (hs.ended hi ?_).dispatched
    by_contra hfollows
    have hsame := (hp.pairs i (by simpa using hfollows)).2
    omega

/-- A run that the harness ends: the listener of the first run hears nothing of the second. -/
theorem listener_lives_with_its_run_restarted :
    sleeping.isUndisturbed (attending ++ restarting) = true ∧
    (sleeping.run (attending ++ restarting)).isAlive = true ∧
    (sleeping.run (attending ++ restarting)).harness.listener.isListening = true ∧
    ∀ moves, ((sleeping.run (attending ++ restarting)).view 1).dispatched moves = [] := by
  have hlasts : sleeping.isUndisturbed (attending ++ restarting) = true := by decide +kernel
  have hlife : (sleeping.run (attending ++ restarting)).Lifetime :=
    listener_lives_with_its_run _ _ _ _ hlasts
  exact ⟨hlasts, by decide +kernel, by decide +kernel,
    hlife.silent 1 (by decide +kernel) (by decide +kernel)⟩

/-! ### A run that ends by itself -/

/-- The process of the node ends, and nobody has told it to. -/
def abandoned : List Move := attending ++ [.system (.goes 100 (.ended (.exited 9)) false)]

/-- The node is started again, and logs to another file; the old listener is still in the slot. -/
def succeeded : List Move := abandoned ++ [.system (.passes 5000000), .calls .start, .go, .go]

def laterLog : String := "log/node-19700101-000000.005.log"

/-- The node has written a line to its new log. -/
def laterDisk : Disk :=
  ⟨#[.folder 1 [("log", 2)], .folder 1 [], .folder 0 [("node-19700101-000000.000.log", 3),
    ("node-19700101-000000.005.log", 4)], .file [], .file "b\n".toUTF8.toList]⟩

/-- The old follower is at the end of its file, is told where the log is now, and goes on there. -/
def overtaken : List Move := succeeded ++
  [.seat 1 (.follow 0), .seat 1 (.answer (.path (some laterLog))), .seat 1 (.follow 0),
    .seat 1 (.answer (.path (some laterLog))), .system (.files laterDisk), .seat 1 (.follow 0)]

/-- **A listener outlives its run** when the process ends by itself: it goes on listening to a node
that is not alive, and hears the log of the next run before it is stopped. -/
theorem listener_outlives_its_run :
    (sleeping.run abandoned).isAlive = false ∧
    (sleeping.run abandoned).harness.listener.isListening = true ∧
    (sleeping.run succeeded).harness.node.logPath? = some laterLog ∧
    (sleeping.run overtaken).logs = ["log/node-19700101-000000.000.log", laterLog] ∧
    (sleeping.run overtaken).harness.slot = 1 ∧
    (sleeping.run overtaken).era 1 = 1 ∧
    ((sleeping.run overtaken).view 1).dispatched [.follow 0] = [("b", ⟨1, 2⟩)] := by
  decide +kernel

end Site

end LogWatch
