import Mathlib
import LogWatch.Proofs.Disk.Removal
import LogWatch.Proofs.Node.Processes

/-!
An order to a node, as its caller carries it out.

A start is done at once. A stop, a kill and a reset take the child out of the node and then wait
for its end, a wait looks at the child again and again; between two steps others have their turn.
What a step can do is said once, in `Step`.
-/

namespace LogWatch

/-- Whether a failure says nothing about whether the node runs. -/
def NodeError.isMishap : NodeError → Bool
  | notRunning | alreadyRunning _ => false
  | spawnFailed _ | signalFailed _ _ | io _ => true

namespace Node

inductive Order where
  | start
  | stop
  | kill
  | wait
  | reset
deriving DecidableEq, Repr

inductive Reply where
  | started (path : String)
  | ended (s : ExitStatus)
  | wiped
  | failed (e : NodeError)
deriving DecidableEq, Repr

def Reply.of {α : Type} (f : α → Reply) : Except NodeError α → Reply
  | .ok a => f a
  | .error e => .failed e

/-- How far a caller has come. -/
inductive Stage where
  | ready
  /-- Waits, until a time, for the end of a process that was asked to end. -/
  | outlasting (c : Child) (time : ℕ)
  /-- Waits for the end of a process that was killed. -/
  | burying (c : Child)
  /-- Has failed since a signal was refused, and has let go of the process as it was. -/
  | lost (c : Child) (e : NodeError)
  | done (r : Reply)
deriving DecidableEq, Repr

namespace Stage

/-- The child that the caller took out of the node. -/
def hand? : Stage → Option Child
  | outlasting c _ | burying c | lost c _ => some c
  | ready | done _ => none

def reply? : Stage → Option Reply
  | lost _ e => some (.failed e)
  | done r => some r
  | ready | outlasting _ _ | burying _ => none

end Stage

structure Caller where
  order : Order
  stage : Stage
deriving DecidableEq, Repr

/-- Removes what is left of the run. -/
def sweep (n : Node) (h : Host) : (Node × Host) × Stage :=
  ((n.clear h).1, .done (.of (fun _ => .wiped) (n.clear h).2))

/-- What is left to do once the end of the process was seen. -/
def conclude (n : Node) (h : Host) (s : ExitStatus) : Order → (Node × Host) × Stage
  | .reset => n.sweep h
  | _ => ((n, h), .done (.ended s))

/-- The first step of an order, and every step of a wait. -/
def enter (n : Node) (h : Host) : Order → (Node × Host) × Stage
  | .start => ((n.start h).1, .done (.of .started (n.start h).2))
  | .wait =>
    match n.poll h with
    | (r, .ok none) => (r, .ready)
    | (r, .ok (some s)) => (r, .done (.ended s))
    | (r, .error e) => (r, .done (.failed e))
  | .kill =>
    match n.child?, n.condemn h with
    | _, (r, .ok c) => (r, .burying c)
    | some c, (r, .error e) => (r, .lost c e)
    | none, (r, .error e) => (r, .done (.failed e))
  | order =>
    match n.child?, n.dismiss h with
    | _, ((n, h), .ok c) => ((n, h), .outlasting c (h.clock + n.shutdownTicks * Host.tickTime))
    | some c, (r, .error e) => (r, .lost c e)
    | none, ((n, h), .error e) => if order = .reset then n.sweep h else ((n, h), .done (.failed e))

/-- One step of a caller. -/
def step (n : Node) (h : Host) (w : Caller) : (Node × Host) × Stage :=
  match w.stage with
  | .ready => n.enter h w.order
  | .outlasting c time =>
    match c.look h with
    | (⟨_, some s⟩, h) => n.conclude h s w.order
    | (c, h) =>
      if h.clock < time then ((n, h), .outlasting c time)
      else match c.kill h with
        | .ok h => ((n, h), .burying c)
        | .error e => ((n, c.drop h), .lost c (.io e))
  | .burying c =>
    match c.look h with
    | (⟨_, some s⟩, h) => n.conclude h s w.order
    | (c, h) => ((n, h), .burying c)
  | .lost c e => ((n, h), .lost c e)
  | .done r => ((n, h), .done r)

variable {n n' : Node} {h h' : Host} {c : Child} {s : ExitStatus} {o : Order}

/-! ### What a step can do -/

/-- A child that was seen to have ended, by this look or before. -/
inductive Seen (c : Child) (h : Host) (s : ExitStatus) : Host → Prop
  | before (seen : c.ended? = some s) : Seen c h s h
  | now (unseen : c.ended? = none) (ended : h.ended? c.pid = some s) : Seen c h s (h.reap c.pid)

/-- There is no child that runs: the node holds none, or is seen to hold one that has ended. -/
inductive Down (n : Node) (h : Host) : Node → Host → Prop
  | absent (absent : n.child? = none) : Down n h n h
  | ended {c : Child} {s : ExitStatus} {h' : Host} (held : n.child? = some c)
      (seen : Seen c h s h') : Down n h { n with child? := some ⟨c.pid, some s⟩ } h'

/-- What is left of the run is removed, or it cannot be. -/
inductive Swept (n : Node) (h : Host) : Node → Host → Reply → Prop
  | fails (disk : Disk) (e : DiskError) : Swept n h n { h with disk } (.failed (.io e))
  | wipes (disk : Disk) (logs : disk.isThere n.settings.logDir = false)
      (data : ∀ dir ∈ n.settings.dataDir, disk.isThere dir = false) :
      Swept n h { n with logPath? := none } { h with disk } .wiped

/-- What becomes of an order whose process has ended. -/
inductive Concluded (o : Order) (n : Node) (h : Host) (s : ExitStatus) :
    Node → Host → Reply → Prop
  | ends (other : o ≠ .reset) : Concluded o n h s n h (.ended s)
  | sweeps {n' : Node} {h' : Host} {r : Reply} (order : o = .reset) (swept : Swept n h n' h' r) :
      Concluded o n h s n' h' r

/-- What one step of a caller makes of the node, the machine and the caller's stage. -/
inductive Step (n : Node) (h : Host) (w : Caller) : Node → Host → Stage → Prop
  | refuses {c : Child} (order : w.order = .start) (ready : w.stage = .ready)
      (held : n.child? = some c) (unseen : c.ended? = none) (runs : h.ended? c.pid = none) :
      Step n h w n h (.done (.failed (.alreadyRunning c.pid)))
  | fails {n' : Node} {h' : Host} {e : NodeError} (order : w.order = .start)
      (ready : w.stage = .ready) (down : Down n h n' h') (disk : Disk)
      (mishap : e.isMishap = true) :
      Step n h w n' { h' with disk } (.done (.failed e))
  | starts {n' : Node} {h' h'' : Host} {m : Script.Machine} {path : String}
      (order : w.order = .start) (ready : w.stage = .ready) (down : Down n h n' h')
      (new : h''.processes = h'.processes ++ [⟨h'.freePid, .running m, true, false⟩]) :
      Step n h w { n' with child? := some ⟨h'.freePid, none⟩, logPath? := some path } h''
        (.done (.started path))
  | nobody (order : w.order = .stop ∨ w.order = .kill ∨ w.order = .wait) (ready : w.stage = .ready)
      (absent : n.child? = none) : Step n h w n h (.done (.failed .notRunning))
  | watches {c : Child} (order : w.order = .wait) (ready : w.stage = .ready)
      (held : n.child? = some c) (unseen : c.ended? = none) (runs : h.ended? c.pid = none) :
      Step n h w n h .ready
  | sees {c : Child} {s : ExitStatus} {h' : Host} (order : w.order = .wait)
      (ready : w.stage = .ready) (held : n.child? = some c) (seen : Seen c h s h') :
      Step n h w { n with child? := none } h' (.done (.ended s))
  | sweeps {n' : Node} {h' : Host} {r : Reply} (order : w.order = .reset)
      (ready : w.stage = .ready) (absent : n.child? = none) (swept : Swept n h n' h' r) :
      Step n h w n' h' (.done r)
  | takes {c : Child} {h' : Host} {stage : Stage}
      (order : w.order = .stop ∨ w.order = .kill ∨ w.order = .reset) (ready : w.stage = .ready)
      (held : n.child? = some c) (hand : stage.hand? = some c)
      (onward : h.pids.Nodup → h.Onward h')
      (mishap : ∀ r, stage.reply? = some r → ∃ e, r = .failed e ∧ e.isMishap = true) :
      Step n h w { n with child? := none } h' stage
  | holds {c : Child} {h' : Host} {stage : Stage} (hand : w.stage.hand? = some c)
      (hand' : stage.hand? = some c) (onward : h.pids.Nodup → h.Onward h')
      (mishap : ∀ r, stage.reply? = some r →
        w.stage.reply? = some r ∨ ∃ e, r = .failed e ∧ e.isMishap = true) :
      Step n h w n h' stage
  | concludes {c : Child} {s : ExitStatus} {n' : Node} {h' h'' : Host} {r : Reply}
      (hand : w.stage.hand? = some c) (waits : w.stage.reply? = none) (seen : Seen c h s h')
      (concluded : Concluded w.order n h' s n' h'' r) : Step n h w n' h'' (.done r)
  | rests {r : Reply} (done : w.stage = .done r) : Step n h w n h (.done r)

/-! ### A step does one of these -/

lemma seen_of_look {pid : ℕ} (hlook : c.look h = (⟨pid, some s⟩, h')) :
    pid = c.pid ∧ Seen c h s h' := by
  rcases c.look_cases h with ⟨hsame, -⟩ | ⟨s', hunseen, hended, hnow⟩
  · obtain ⟨rfl, rfl⟩ := Prod.mk.inj (hsame.symm.trans hlook)
    exact ⟨rfl, .before rfl⟩
  · obtain ⟨hchild, rfl⟩ := Prod.mk.inj (hnow.symm.trans hlook)
    obtain ⟨rfl, hs⟩ := Child.mk.inj hchild
    obtain rfl := Option.some.inj hs
    exact ⟨rfl, .now hunseen hended⟩

lemma runs_of_look {c' : Child} (hlook : c.look h = (c', h')) (hunseen : c'.ended? = none) :
    c' = c ∧ h' = h ∧ c.ended? = none ∧ h.ended? c.pid = none := by
  rcases c.look_cases h with ⟨hsame, hruns⟩ | ⟨s, -, -, hnow⟩
  · obtain ⟨rfl, rfl⟩ := Prod.mk.inj (hsame.symm.trans hlook)
    exact ⟨rfl, rfl, hunseen, hruns hunseen⟩
  · obtain ⟨rfl, -⟩ := Prod.mk.inj (hnow.symm.trans hlook)
    simp at hunseen

lemma isAlive_cases (n : Node) (h : Host) :
    (∃ c, n.child? = some c ∧ c.ended? = none ∧ h.ended? c.pid = none ∧
      n.isAlive h = ((n, h), true)) ∨
    ∃ n' h', Down n h n' h' ∧ n.isAlive h = ((n', h'), false) := by
  unfold isAlive
  cases hheld : n.child? with
  | none => exact .inr ⟨n, h, .absent hheld, rfl⟩
  | some c =>
    dsimp only
    rcases hlook : c.look h with ⟨⟨pid, seen⟩, h'⟩
    cases seen with
    | some s =>
      obtain ⟨rfl, hseen⟩ := seen_of_look hlook
      exact .inr ⟨_, _, .ended hheld hseen, rfl⟩
    | none =>
      -- a look that sees no end has changed nothing
      obtain ⟨rfl, rfl, hunseen, hruns⟩ := runs_of_look hlook rfl
      refine .inl ⟨_, rfl, hunseen, hruns, ?_⟩
      rw [← hheld]
      rfl

lemma makeLog_cases (n : Node) (h : Host) :
    (∃ disk path file, n.makeLog h = ({ h with disk }, .ok (path, file))) ∨
    ∃ disk e, n.makeLog h = ({ h with disk }, .error (.io e)) := by
  unfold makeLog
  split
  · exact .inr ⟨_, _, rfl⟩
  · dsimp only
    split
    · exact .inr ⟨_, _, rfl⟩
    · exact .inl ⟨_, _, _, rfl⟩

lemma start_cases (n : Node) (h : Host) :
    (∃ c, n.child? = some c ∧ c.ended? = none ∧ h.ended? c.pid = none ∧
      n.start h = ((n, h), .error (.alreadyRunning c.pid))) ∨
    (∃ n' h' disk e, Down n h n' h' ∧ e.isMishap = true ∧
      n.start h = ((n', { h' with disk }), .error e)) ∨
    ∃ n' h' h'' m path, Down n h n' h' ∧
      h''.processes = h'.processes ++ [⟨h'.freePid, .running m, true, false⟩] ∧
      n.start h = (({ n' with child? := some ⟨h'.freePid, none⟩, logPath? := some path }, h''),
        .ok path) := by
  unfold start
  -- a child that runs refuses the start; otherwise the log is made before the program is loaded
  rcases isAlive_cases n h with ⟨c, hheld, hunseen, hruns, halive⟩ | ⟨n', h', hdown, hdead⟩
  · simp only [halive, hheld]
    exact .inl ⟨c, rfl, hunseen, hruns, rfl⟩
  · simp only [hdead]
    rcases makeLog_cases n' h' with ⟨disk, path, file, hlog⟩ | ⟨disk, e, hlog⟩
    · simp only [hlog]
      cases hspawn : Host.spawn { h' with disk } n'.settings.command file with
      | error e => exact .inr (.inl ⟨n', h', disk, _, hdown, rfl, rfl⟩)
      | ok x =>
        obtain ⟨h'', pid⟩ := x
        obtain ⟨hpid, -, m, hnew⟩ := Host.spawn_eq hspawn
        obtain rfl : pid = h'.freePid := hpid
        exact .inr (.inr ⟨n', h', h'', m, path, hdown, hnew, rfl⟩)
    · simp only [hlog]
      exact .inr (.inl ⟨n', h', disk, _, hdown, rfl, rfl⟩)

lemma start_step (n : Node) (h : Host) :
    Step n h ⟨.start, .ready⟩ (n.enter h .start).1.1 (n.enter h .start).1.2
      (n.enter h .start).2 := by
  rcases n.start_cases h with ⟨c, hheld, hunseen, hruns, hstart⟩ |
    ⟨n', h', disk, e, hdown, hmishap, hstart⟩ | ⟨n', h', h'', m, path, hdown, hnew, hstart⟩
  · simp only [enter, hstart]
    exact .refuses rfl rfl hheld hunseen hruns
  · simp only [enter, hstart]
    exact .fails rfl rfl hdown disk hmishap
  · simp only [enter, hstart]
    exact .starts rfl rfl hdown hnew

lemma wait_step (n : Node) (h : Host) :
    Step n h ⟨.wait, .ready⟩ (n.enter h .wait).1.1 (n.enter h .wait).1.2
      (n.enter h .wait).2 := by
  simp only [enter, poll]
  cases hheld : n.child? with
  | none => exact .nobody (by simp) rfl hheld
  | some c =>
    dsimp only
    rcases hlook : c.look h with ⟨⟨pid, seen⟩, h'⟩
    cases seen with
    | some s => exact .sees rfl rfl hheld (seen_of_look hlook).2
    | none =>
      obtain ⟨rfl, rfl, hunseen, hruns⟩ := runs_of_look hlook rfl
      have hsame : ({ n with child? := some ⟨pid, none⟩ } : Node) = n := by
        rw [← hheld]
      dsimp only
      rw [hsame]
      exact .watches rfl rfl hheld hunseen hruns

lemma wipe_ok {d d' : Disk} {dir : String} (hwipe : wipe d dir = (d', .ok ())) :
    d'.isThere dir = false ∧ d.Loses d' := by
  unfold wipe at hwipe
  split at hwipe
  · rename_i d'' hmissing
    obtain ⟨rfl, hgone⟩ := Disk.removeDir_notFound hmissing
    obtain ⟨rfl, -⟩ := Prod.mk.inj hwipe
    exact ⟨hgone, .refl _⟩
  · exact Disk.removeDir_ok hwipe

lemma sweep_eq (n : Node) (h : Host) :
    ∃ n' h' r, Swept n h n' h' r ∧ n.sweep h = ((n', h'), .done r) := by
  rcases hdata : n.settings.dataDir.elim (h.disk, .ok ()) (wipe h.disk) with ⟨disk, _ | ⟨⟨⟩⟩⟩
  · simp only [sweep, clear, hdata]
    exact ⟨_, _, _, .fails disk _, rfl⟩
  · rcases hlogs : wipe disk n.settings.logDir with ⟨disk', _ | ⟨⟨⟩⟩⟩
    · simp only [sweep, clear, hdata, hlogs]
      exact ⟨_, _, _, .fails disk' _, rfl⟩
    · simp only [sweep, clear, hdata, hlogs]
      obtain ⟨hgone, hloses⟩ := wipe_ok hlogs
      refine ⟨_, _, _, .wipes disk' hgone fun dir hdir => ?_, rfl⟩
      rw [Option.mem_def.mp hdir] at hdata
      exact hloses.isThere (wipe_ok hdata).1

lemma conclude_eq (n : Node) (h : Host) (s : ExitStatus) (o : Order) :
    ∃ n' h' r, Concluded o n h s n' h' r ∧ n.conclude h s o = ((n', h'), .done r) := by
  cases o with
  | reset =>
    obtain ⟨n', h', r, hswept, heq⟩ := n.sweep_eq h
    exact ⟨n', h', r, .sweeps rfl hswept, heq⟩
  | start | stop | kill | wait => exact ⟨n, h, _, .ends (by simp), rfl⟩

lemma onward_kill (hkill : c.kill h = .ok h') (hd : h.pids.Nodup) : h.Onward h' := by
  unfold Child.kill at hkill
  split at hkill
  · obtain rfl := Except.ok.inj hkill
    exact Host.onward_of_eq hd rfl
  · split at hkill
    · rename_i hsignal
      obtain rfl := Except.ok.inj hkill
      exact Host.onward_signal hd hsignal
    · simp at hkill

lemma onward_terminate (hterm : c.terminate h = .ok h') (hd : h.pids.Nodup) : h.Onward h' := by
  unfold Child.terminate at hterm
  split at hterm
  · rename_i hsignal
    obtain rfl := Except.ok.inj hterm
    exact Host.onward_signal hd hsignal
  · obtain rfl := Except.ok.inj hterm
    exact Host.onward_of_eq hd rfl
  · simp at hterm

lemma onward_drop (c : Child) (hd : h.pids.Nodup) : h.Onward (c.drop h) := by
  unfold Child.drop
  split
  · rename_i hkill
    exact onward_kill hkill hd
  · exact Host.onward_of_eq hd rfl

lemma kill_step (n : Node) (h : Host) :
    Step n h ⟨.kill, .ready⟩ (n.enter h .kill).1.1 (n.enter h .kill).1.2
      (n.enter h .kill).2 := by
  simp only [enter, condemn, release]
  cases hheld : n.child? with
  | none => exact .nobody (by simp) rfl hheld
  | some c =>
    dsimp only
    cases hkill : c.kill h with
    | error e =>
      exact .takes (by simp) rfl hheld rfl (onward_drop c)
        (by simp [Stage.reply?, NodeError.isMishap])
    | ok h' => exact .takes (by simp) rfl hheld rfl (onward_kill hkill) (by simp [Stage.reply?])

lemma dismiss_step (n : Node) (h : Host) (ho : o = .stop ∨ o = .reset) :
    Step n h ⟨o, .ready⟩ (n.enter h o).1.1 (n.enter h o).1.2 (n.enter h o).2 := by
  -- both begin with the same steps, and differ where no child is held
  have henter : n.enter h o = match n.child?, n.dismiss h with
      | _, ((n, h), .ok c) => ((n, h), .outlasting c (h.clock + n.shutdownTicks * Host.tickTime))
      | some c, (r, .error e) => (r, .lost c e)
      | none, ((n, h), .error e) =>
        if o = .reset then n.sweep h else ((n, h), .done (.failed e)) := by
    rcases ho with rfl | rfl <;> rfl
  rw [henter]
  simp only [dismiss, release]
  cases hheld : n.child? with
  | none =>
    dsimp only
    rcases ho with rfl | rfl
    · exact .nobody (by simp) rfl hheld
    · obtain ⟨n', h', r, hswept, heq⟩ := n.sweep_eq h
      simp only [if_true, heq]
      exact .sweeps rfl rfl hheld hswept
  | some c =>
    have horder : o = .stop ∨ o = .kill ∨ o = .reset := by
      rcases ho with rfl | rfl <;> simp
    dsimp only
    cases hterm : c.terminate h with
    | error e =>
      refine .takes horder rfl hheld rfl (onward_drop c) fun r hr => ⟨e, ?_, ?_⟩
      · exact (Option.some.inj hr).symm
      · unfold Child.terminate at hterm
        split at hterm
        · simp at hterm
        · simp at hterm
        · obtain rfl := Except.error.inj hterm
          rfl
    | ok h' => exact .takes horder rfl hheld rfl (onward_terminate hterm) (by simp [Stage.reply?])

/-- **Whatever a caller does next is one of these steps.** -/
theorem step_spec (n : Node) (h : Host) (w : Caller) :
    Step n h w (n.step h w).1.1 (n.step h w).1.2 (n.step h w).2 := by
  obtain ⟨o, stage⟩ := w
  cases stage with
  | ready =>
    cases o with
    | start => exact n.start_step h
    | wait => exact n.wait_step h
    | kill => exact n.kill_step h
    | stop => exact n.dismiss_step h (.inl rfl)
    | reset => exact n.dismiss_step h (.inr rfl)
  | done r => exact .rests rfl
  | lost c e => exact .holds rfl rfl (fun hd => Host.onward_of_eq hd rfl) fun r hr => .inl hr
  | burying c =>
    simp only [step]
    rcases hlook : c.look h with ⟨⟨pid, seen⟩, h'⟩
    cases seen with
    | some s =>
      obtain ⟨n', h'', r, hconcluded, heq⟩ := n.conclude_eq h' s o
      simp only [heq]
      exact .concludes rfl rfl (seen_of_look hlook).2 hconcluded
    | none =>
      obtain ⟨rfl, rfl, -⟩ := runs_of_look hlook rfl
      exact .holds rfl rfl (fun hd => Host.onward_of_eq hd rfl) (by simp [Stage.reply?])
  | outlasting c time =>
    simp only [step]
    rcases hlook : c.look h with ⟨⟨pid, seen⟩, h'⟩
    cases seen with
    | some s =>
      obtain ⟨n', h'', r, hconcluded, heq⟩ := n.conclude_eq h' s o
      simp only [heq]
      exact .concludes rfl rfl (seen_of_look hlook).2 hconcluded
    | none =>
      obtain ⟨rfl, rfl, -⟩ := runs_of_look hlook rfl
      dsimp only
      -- before the time is up the caller waits on; then the child is killed, or let go of
      split
      · exact .holds rfl rfl (fun hd => Host.onward_of_eq hd rfl) (by simp [Stage.reply?])
      · split
        · rename_i hkill
          exact .holds rfl rfl (onward_kill hkill) (by simp [Stage.reply?])
        · exact .holds rfl rfl (onward_drop _) (by simp [Stage.reply?, NodeError.isMishap])

/-! ### What a step leaves as it is -/

lemma pid?_of_down (hdown : Down n h n' h') : n'.pid? = n.pid? ∧ n'.logPath? = n.logPath? := by
  cases hdown with
  | absent => exact ⟨rfl, rfl⟩
  | ended hheld => exact ⟨by simp [pid?, hheld], rfl⟩

lemma isAlive_log (n : Node) (h : Host) : (n.isAlive h).1.1.logPath? = n.logPath? := by
  rcases n.isAlive_cases h with ⟨c, -, -, -, halive⟩ | ⟨n', h', hdown, hdead⟩
  · rw [halive]
  · rw [hdead]
    exact (pid?_of_down hdown).2

lemma isAlive_of_down (hdown : Down n h n' h') : (n.isAlive h).2 = false := by
  cases hdown with
  | absent habsent => simp only [isAlive, habsent]
  | ended hheld hseen =>
    rename_i c s
    obtain ⟨pid, seen⟩ := c
    cases hseen with
    | before hbefore =>
      obtain rfl : seen = some s := hbefore
      simp only [isAlive, hheld, Child.look]
      rfl
    | now hunseen hended =>
      obtain rfl : seen = none := hunseen
      simp only [isAlive, hheld, Child.look, hended]
      rfl

lemma isAlive_of_alive (halive : (n.isAlive h).2 = true) : n.isAlive h = ((n, h), true) := by
  rcases n.isAlive_cases h with ⟨c, -, -, -, heq⟩ | ⟨n', h', -, hdead⟩
  · exact heq
  · simp [hdead] at halive

namespace Step

variable {w : Caller} {stage : Stage} {r : Reply}

lemma settings (hstep : Step n h w n' h' stage) : n'.settings = n.settings := by
  cases hstep with
  | refuses | nobody | watches | sees | takes | holds | rests => rfl
  | fails _ _ hdown | starts _ _ hdown => cases hdown <;> rfl
  | sweeps _ _ _ hswept => cases hswept <;> rfl
  | concludes _ _ _ hconcluded =>
    cases hconcluded with
    | ends => rfl
    | sweeps _ hswept => cases hswept <;> rfl

lemma of_start (ho : w.order = .start) (hready : w.stage = .ready)
    (hstep : Step n h w n' h' stage) :
    (n' = n ∧ h' = h ∧ ∃ e, stage = .done (.failed e)) ∨
    ∃ n₁ h₁, Down n h n₁ h₁ ∧
      ((n' = n₁ ∧ ∃ e, stage = .done (.failed e)) ∨
        ∃ path, n'.logPath? = some path ∧ stage = .done (.started path)) := by
  cases hstep with
  | refuses => exact .inl ⟨rfl, rfl, _, rfl⟩
  | fails _ _ hdown => exact .inr ⟨_, _, hdown, .inl ⟨rfl, _, rfl⟩⟩
  | starts _ _ hdown => exact .inr ⟨_, _, hdown, .inr ⟨_, rfl, rfl⟩⟩
  | nobody horder => simp [ho] at horder
  | watches horder => simp [ho] at horder
  | sees horder => simp [ho] at horder
  | sweeps horder => simp [ho] at horder
  | takes horder => simp [ho] at horder
  | holds hhand => simp [hready, Stage.hand?] at hhand
  | concludes hhand => simp [hready, Stage.hand?] at hhand
  | rests hdone => simp [hready] at hdone

lemma reply_of_start (ho : w.order = .start) (hready : w.stage = .ready)
    (hstep : Step n h w n' h' stage) :
    (∃ e, stage = .done (.failed e) ∧ n'.pid? = n.pid? ∧ n'.logPath? = n.logPath?) ∨
    ∃ path, stage = .done (.started path) ∧ n'.logPath? = some path := by
  rcases hstep.of_start ho hready with ⟨rfl, -, e, he⟩ |
    ⟨n₁, h₁, hdown, ⟨rfl, e, he⟩ | ⟨path, hlog, hstarted⟩⟩
  · exact .inl ⟨e, he, rfl, rfl⟩
  · exact .inl ⟨e, he, pid?_of_down hdown⟩
  · exact .inr ⟨path, hstarted, hlog⟩

lemma refuses_of_alive (ho : w.order = .start) (hready : w.stage = .ready)
    (halive : (n.isAlive h).2 = true) (hstep : Step n h w n' h' stage) :
    n' = n ∧ h' = h ∧ ∃ e, stage = .done (.failed e) := by
  refine (hstep.of_start ho hready).resolve_right ?_
  rintro ⟨n₁, h₁, hdown, -⟩
  simp [isAlive_of_down hdown] at halive

lemma pid?_eq_none (ho : w.order = .stop ∨ w.order = .kill ∨ w.order = .reset)
    (hnone : w.stage ≠ .ready → n.pid? = none) (hstep : Step n h w n' h' stage) :
    n'.pid? = none := by
  -- whoever has a child in the hand has taken its first step
  have hof : ∀ {c : Child}, w.stage.hand? = some c → n.pid? = none := by
    intro c hhand
    refine hnone fun hready => ?_
    rw [hready] at hhand
    cases hhand
  cases hstep with
  | refuses horder | fails horder | starts horder => simp [horder] at ho
  | watches horder | sees horder => simp [horder] at ho
  | nobody _ _ habsent => simp [pid?, habsent]
  | sweeps _ _ habsent hswept => cases hswept <;> simp [pid?, habsent]
  | takes => rfl
  | holds hhand => exact hof hhand
  | concludes hhand _ _ hconcluded =>
    cases hconcluded with
    | ends => exact hof hhand
    | sweeps _ hswept => cases hswept <;> exact hof hhand
  | rests hdone => exact hnone (by simp [hdone])

lemma logPath?_of_stop (ho : w.order = .stop) (hstep : Step n h w n' h' stage) :
    n'.logPath? = n.logPath? := by
  cases hstep with
  | refuses | nobody | watches | sees | takes | holds | rests => rfl
  | fails horder | starts horder => simp [ho] at horder
  | sweeps horder => simp [ho] at horder
  | concludes _ _ _ hconcluded =>
    cases hconcluded with
    | ends => rfl
    | sweeps horder => simp [ho] at horder

lemma reply_of_stop (ho : w.order = .stop ∨ w.order = .reset) (hwaits : w.stage.reply? = none)
    (hreply : stage.reply? = some r) (hstep : Step n h w n' h' stage) :
    (∃ e, r = .failed e) ∨ (w.order = .stop ∧ ∃ s, r = .ended s) ∨
      (w.order = .reset ∧ r = .wiped) := by
  cases hstep with
  | refuses horder | fails horder | starts horder => simp [horder] at ho
  | watches horder | sees horder => simp [horder] at ho
  | nobody => exact .inl ⟨_, (Option.some.inj hreply).symm⟩
  | sweeps horder _ _ hswept =>
    obtain rfl := Option.some.inj hreply
    cases hswept with
    | fails => exact .inl ⟨_, rfl⟩
    | wipes => exact .inr (.inr ⟨horder, rfl⟩)
  | takes _ _ _ _ _ hmishap =>
    obtain ⟨e, he, -⟩ := hmishap r hreply
    exact .inl ⟨e, he⟩
  | holds _ _ _ hmishap =>
    rcases hmishap r hreply with hold | ⟨e, he, -⟩
    · simp [hwaits] at hold
    · exact .inl ⟨e, he⟩
  | concludes _ _ _ hconcluded =>
    obtain rfl := Option.some.inj hreply
    cases hconcluded with
    | ends hother => exact .inr (.inl ⟨ho.resolve_right hother, _, rfl⟩)
    | sweeps horder hswept =>
      cases hswept with
      | fails => exact .inl ⟨_, rfl⟩
      | wipes => exact .inr (.inr ⟨horder, rfl⟩)
  | rests hdone => simp [hdone, Stage.reply?] at hwaits

end Step

end Node

end LogWatch
