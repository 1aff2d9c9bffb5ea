import Mathlib
import LogWatch.Proofs.Node.Company

/-!
A caller whom nobody interferes with.

What `Node.start`, `stop`, `kill`, `wait` and `reset` do in one go is what the steps of a lone
caller come to, with nothing but ticks of the machine in between. So whatever holds of all runs of
a company holds of them.
-/

namespace LogWatch

open Node (Order Reply Stage)

namespace Host

variable {h h' : Host} {pid n : ℕ}

lemma clock_turn (h : Host) (p : Process) : (h.turn p).clock = h.clock := by
  unfold turn
  split
  · split <;> rfl
  · rfl

lemma clock_signal (hsignal : h.signal pid n = .ok h') : h'.clock = h.clock := by
  unfold signal at hsignal
  split at hsignal
  · cases hsignal
  · cases hsignal
  · split at hsignal <;> obtain rfl := Except.ok.inj hsignal <;> rfl
  · obtain rfl := Except.ok.inj hsignal
    rfl

lemma clock_oblige (h : Host) (pid : ℕ) : (h.oblige pid).clock = h.clock := by
  unfold oblige
  split
  · split
    · rfl
    · unfold setGoing
      split <;> rfl
    · dsimp only
      split
      · rename_i hsignal
        exact (clock_signal hsignal).trans rfl
      · rfl
  · rfl

lemma clock_heed (h : Host) : h.heed.clock = h.clock := by
  unfold heed
  split
  · rfl
  · dsimp only
    split <;> rfl

lemma clock_attend (h : Host) : h.attend.clock = h.clock := by
  have hfold : ∀ (pids : List ℕ) (k : Host), (pids.foldl oblige k).clock = k.clock := by
    intro pids
    induction pids with
    | nil => exact fun _ => rfl
    | cons pid pids ih => exact fun k => (ih (k.oblige pid)).trans (clock_oblige k pid)
  exact (hfold _ h.heed).trans (clock_heed h)

lemma clock_tick (h : Host) : h.tick.clock = h.clock + tickTime := by
  have hfold : ∀ (ps : List Process) (k : Host), (ps.foldl turn k).clock = k.clock := by
    intro ps
    induction ps with
    | nil => exact fun _ => rfl
    | cons p ps ih => exact fun k => (ih (k.turn p)).trans (clock_turn k p)
  exact (clock_attend _).trans (hfold h.processes _)

lemma ended?_setLife {p : Process} (hfind : h.process? pid = some p) (s : ExitStatus) :
    (h.setLife pid (.ended s)).ended? pid = some s := by
  have hset : (h.setLife pid (.ended s)).process? pid = some { p with life := .ended s } := by
    have hsame : (fun q : Process => decide (q.pid = pid)) ∘
        (fun q => if q.pid = pid then { q with life := .ended s } else q) =
        fun q => decide (q.pid = pid) := by
      funext q
      simp only [Function.comp_apply]
      split <;> rfl
    rw [process?] at hfind
    rw [process?, setLife, List.find?_map, hsame, hfind, Option.map_some,
      if_pos (by simpa using List.find?_some hfind)]
  rw [ended?, hset]

lemma ended?_signal_kill (hsignal : h.signal pid Script.Machine.kill = .ok h') :
    ∃ s, h'.ended? pid = some s := by
  unfold signal at hsignal
  split at hsignal
  · simp at hsignal
  · simp at hsignal
  · rename_i number m ours hfind
    simp only [Script.Machine.signal, if_true, Except.ok.injEq] at hsignal
    subst hsignal
    refine ⟨.killed Script.Machine.kill, ?_⟩
    exact ended?_setLife hfind _
  · rename_i number s ours hfind
    obtain rfl := Except.ok.inj hsignal
    exact ⟨s, by rw [ended?, hfind]⟩

end Host
namespace Child

variable {c : Child} {h h' : Host}

lemma look_kill (hkill : c.kill h = .ok h') :
    ∃ s h'', c.look h' = (⟨c.pid, some s⟩, h'') ∧ c.bury h' = (h'', s) := by
  obtain ⟨s, h'', hlook⟩ : ∃ s h'', c.look h' = (⟨c.pid, some s⟩, h'') := by
    obtain ⟨pid, seen⟩ := c
    cases seen with
    | some s => exact ⟨s, h', rfl⟩
    | none =>
      unfold kill at hkill
      dsimp only at hkill
      split at hkill
      · rename_i h₁ hsignal
        obtain rfl := Except.ok.inj hkill
        obtain ⟨s, hended⟩ := Host.ended?_signal_kill hsignal
        exact ⟨s, h₁.reap pid, by simp only [look, hended]⟩
      · simp at hkill
  exact ⟨s, h'', hlook, by rw [bury, hlook]⟩

end Child

namespace Node

/-- What an order comes to in one go: a wait that lasts longer than so many ticks has no reply. -/
def carryOut (n : Node) (ticks : ℕ) (h : Host) : Order → (Node × Host) × Option Reply
  | .start => ((n.start h).1, some (.of .started (n.start h).2))
  | .stop => ((n.stop h).1, some (.of .ended (n.stop h).2))
  | .kill => ((n.kill h).1, some (.of .ended (n.kill h).2))
  | .reset => ((n.reset h).1, some (.of (fun _ => .wiped) (n.reset h).2))
  | .wait =>
    match n.wait ticks h with
    | (x, .ok none) => (x, none)
    | (x, .ok (some s)) => (x, some (.ended s))
    | (x, .error e) => (x, some (.failed e))

variable {n : Node} {h h' : Host} {c : Child}

lemma stop_of_absent (hheld : n.child? = none) : n.stop h = ((n, h), .error .notRunning) := by
  simp only [stop, dismiss, release, hheld]

lemma stop_of_refused {e : NodeError} (hheld : n.child? = some c)
    (hterm : c.terminate h = .error e) :
    n.stop h = (({ n with child? := none }, c.drop h), .error e) := by
  simp only [stop, dismiss, release, hheld, hterm]

lemma stop_of_asked (hheld : n.child? = some c) (hterm : c.terminate h = .ok h') :
    n.stop h = (({ n with child? := none }, (outlast { n with child? := none } c h').1),
      (outlast { n with child? := none } c h').2) := by
  simp only [stop, dismiss, release, hheld, hterm]

lemma notRunning_ne_of_terminate {e : NodeError} (hterm : c.terminate h = .error e) :
    e ≠ .notRunning := by
  unfold Child.terminate at hterm
  split at hterm
  · cases hterm
  · cases hterm
  · rw [← Except.error.inj hterm]
    simp

lemma notRunning_ne_of_outlast {e : NodeError} (hend : n.outlast c h = (h', .error e)) :
    e ≠ .notRunning := by
  unfold outlast at hend
  split at hend
  · cases hend
  · split at hend
    · rw [← Except.error.inj (Prod.mk.inj hend).2]
      simp
    · cases hend

lemma reset_of_error {x : Node × Host} {e : NodeError} (hstop : n.stop h = (x, .error e))
    (hother : e ≠ .notRunning) : n.reset h = (x, .error e) := by
  rw [reset, hstop]
  cases e with
  | notRunning => exact absurd rfl hother
  | spawnFailed | signalFailed | alreadyRunning | io => rfl

lemma reset_of_stopped {n' : Node} {s : ExitStatus} (hstop : n.stop h = ((n', h'), .ok s)) :
    n.reset h = n'.clear h' := by
  simp only [reset, hstop]

end Node

namespace Company

/-- A node with one caller. -/
def alone (o : Order) (x : (Node × Host) × Stage) : Company := ⟨x.1.1, x.1.2, [⟨o, x.2⟩]⟩

variable {n : Node} {h : Host} {o : Order} {c : Child}

lemma go_alone (n : Node) (h : Host) (o : Order) (stage : Stage) :
    (alone o ((n, h), stage)).apply (.go 0) = alone o (n.step h ⟨o, stage⟩) := rfl

lemma tick_alone (n : Node) (h : Host) (o : Order) (stage : Stage) :
    (alone o ((n, h), stage)).apply (.system .tick) = alone o ((n, h.tick), stage) := rfl

lemma run_burying {h' : Host} (n : Node) (o : Order) (hkill : c.kill h = .ok h') :
    (alone o ((n, h'), .burying c)).apply (.go 0) =
      alone o (n.conclude (c.bury h').1 (c.bury h').2 o) := by
  obtain ⟨s, h'', hlook, hbury⟩ := Child.look_kill hkill
  rw [go_alone, hbury, Node.step]
  simp only [hlook]

/-- What becomes of a child that was asked to end, for all that the caller does and sees. -/
def outlasted (n : Node) (c : Child) (ticks : ℕ) (h : Host) (o : Order) : (Node × Host) × Stage :=
  match c.await ticks h with
  | (⟨_, some s⟩, h) => n.conclude h s o
  | (c, h) =>
    match c.kill h with
    | .error e => ((n, c.drop h), .lost c (.io e))
    | .ok h => n.conclude (c.bury h).1 (c.bury h).2 o

lemma exists_run_outlasting (n : Node) (o : Order) (ticks : ℕ) (h : Host) (c : Child) :
    ∃ moves, (alone o ((n, h), .outlasting c (h.clock + ticks * Host.tickTime))).run moves =
      alone o (outlasted n c ticks h o) := by
  -- Each tick brings the clock nearer to the time in the caller's stage, which stays the same.
  induction ticks generalizing h c with
  | zero =>
    rcases hlook : c.look h with ⟨⟨pid, _ | s⟩, h'⟩
    · obtain ⟨rfl, rfl, -⟩ := Node.runs_of_look hlook rfl
      cases hkill : Child.kill ⟨pid, none⟩ h' with
      | error e =>
        refine ⟨[.go 0], ?_⟩
        simp [go_alone, Node.step, outlasted, Child.await, hlook, hkill]
      | ok h'' =>
        refine ⟨[.go 0, .go 0], ?_⟩
        have hfirst : n.step h' ⟨o, .outlasting ⟨pid, none⟩ (h'.clock + 0 * Host.tickTime)⟩ =
            ((n, h''), .burying ⟨pid, none⟩) := by
          simp [Node.step, hlook, hkill]
        rw [run_cons, go_alone, hfirst, run_cons, run_burying n o hkill]
        simp [outlasted, Child.await, hlook, hkill]
    · refine ⟨[.go 0], ?_⟩
      simp [go_alone, Node.step, outlasted, Child.await, hlook]
  | succ ticks ih =>
    rcases hlook : c.look h with ⟨⟨pid, _ | s⟩, h'⟩
    · obtain ⟨rfl, rfl, -⟩ := Node.runs_of_look hlook rfl
      obtain ⟨moves, hmoves⟩ := ih h'.tick ⟨pid, none⟩
      refine ⟨.go 0 :: .system .tick :: moves, ?_⟩
      have htime : h'.tick.clock + ticks * Host.tickTime =
          h'.clock + (ticks + 1) * Host.tickTime := by
        rw [Host.clock_tick]
        ring
      have hfirst :
          n.step h' ⟨o, .outlasting ⟨pid, none⟩ (h'.clock + (ticks + 1) * Host.tickTime)⟩ =
          ((n, h'), .outlasting ⟨pid, none⟩ (h'.clock + (ticks + 1) * Host.tickTime)) := by
        simp [Node.step, hlook, Host.tickTime]
      have hsame : outlasted n ⟨pid, none⟩ (ticks + 1) h' o =
          outlasted n ⟨pid, none⟩ ticks h'.tick o := by
        simp [outlasted, Child.await, hlook]
      rw [run_cons, go_alone, hfirst, run_cons, tick_alone, ← htime, hmoves, hsame]
    · refine ⟨[.go 0], ?_⟩
      simp [go_alone, Node.step, outlasted, Child.await, hlook]

/-- A lone caller comes to this end. -/
def ComesTo (n : Node) (h : Host) (o : Order) (x : (Node × Host) × Option Reply) : Prop :=
  ∃ moves stage, (alone o ((n, h), .ready)).run moves = alone o (x.1, stage) ∧ stage.reply? = x.2

lemma comesTo_start (n : Node) (ticks : ℕ) (h : Host) :
    ComesTo n h .start (n.carryOut ticks h .start) :=
  ⟨[.go 0], _, rfl, rfl⟩

lemma comesTo_wait (n : Node) (ticks : ℕ) (h : Host) :
    ComesTo n h .wait (n.carryOut ticks h .wait) := by
  induction ticks generalizing n h with
  | zero =>
    refine ⟨[.go 0], (n.enter h .wait).2, ?_, ?_⟩
    · rw [run_cons, go_alone, run_nil]
      rcases hpoll : n.poll h with ⟨x, e | _ | s⟩ <;>
        simp only [Node.step, Node.enter, Node.carryOut, Node.wait, hpoll]
    · rcases hpoll : n.poll h with ⟨x, e | _ | s⟩ <;>
        simp only [Node.enter, Node.carryOut, Node.wait, hpoll] <;> rfl
  | succ ticks ih =>
    rcases hpoll : n.poll h with ⟨⟨n', h'⟩, e | _ | s⟩
    · refine ⟨[.go 0], .done (.failed e), ?_, ?_⟩ <;>
        simp [go_alone, Node.step, Node.enter, Node.carryOut, Node.wait, hpoll, Stage.reply?]
    -- the child runs on, and the caller looks again after a tick
    · obtain ⟨moves, stage, hrun, hreply⟩ := ih n' h'.tick
      have hsame : n.carryOut (ticks + 1) h .wait = n'.carryOut ticks h'.tick .wait := by
        simp only [Node.carryOut, Node.wait, hpoll]
      have hfirst : n.step h ⟨.wait, .ready⟩ = ((n', h'), .ready) := by
        simp only [Node.step, Node.enter, hpoll]
      refine ⟨.go 0 :: .system .tick :: moves, stage, ?_, hsame ▸ hreply⟩
      rw [run_cons, go_alone, hfirst, run_cons, tick_alone, hrun, hsame]
    · refine ⟨[.go 0], .done (.ended s), ?_, ?_⟩ <;>
        simp [go_alone, Node.step, Node.enter, Node.carryOut, Node.wait, hpoll, Stage.reply?]

lemma comesTo_kill (n : Node) (ticks : ℕ) (h : Host) :
    ComesTo n h .kill (n.carryOut ticks h .kill) := by
  cases hheld : n.child? with
  | none =>
    refine ⟨[.go 0], .done (.failed .notRunning), ?_, ?_⟩ <;>
      simp [go_alone, Node.step, Node.enter, Node.carryOut, Node.kill, Node.condemn, Node.release,
        hheld, Stage.reply?, Reply.of]
  | some c =>
    cases hkill : c.kill h with
    | error e =>
      refine ⟨[.go 0], .lost c (.io e), ?_, ?_⟩ <;>
        simp [go_alone, Node.step, Node.enter, Node.carryOut, Node.kill, Node.condemn,
          Node.release, hheld, hkill, Stage.reply?, Reply.of]
    | ok h' =>
      have hfirst : n.step h ⟨.kill, .ready⟩ = (({ n with child? := none }, h'), .burying c) := by
        simp only [Node.step, Node.enter, Node.condemn, Node.release, hheld, hkill]
      -- the next look sees the end of a child that was killed
      refine ⟨[.go 0, .go 0], .done (.ended (c.bury h').2), ?_, ?_⟩
      · rw [run_cons, go_alone, hfirst, run_cons, run_burying _ _ hkill, run_nil]
        simp [Node.conclude, Node.carryOut, Node.kill, Node.condemn, Node.release, hheld, hkill]
      · simp [Node.carryOut, Node.kill, Node.condemn, Node.release, hheld, hkill, Stage.reply?,
          Reply.of]

lemma exists_outlasted_eq (n : Node) (c : Child) (h : Host) (o : Order) :
    ∃ c', outlasted n c n.shutdownTicks h o =
      match n.outlast c h with
      | (h', .ok s) => n.conclude h' s o
      | (h', .error e) => ((n, h'), .lost c' e) := by
  unfold outlasted Node.outlast
  rcases c.await n.shutdownTicks h with ⟨⟨pid, _ | s⟩, h'⟩
  · cases hkill : Child.kill ⟨pid, none⟩ h' with
    | error e => exact ⟨⟨pid, none⟩, by simp only [hkill]⟩
    | ok h'' => exact ⟨c, by simp only [hkill]⟩
  · exact ⟨c, rfl⟩

lemma exists_run_dismissed {n : Node} {h h' : Host} {c : Child} (hheld : n.child? = some c)
    (hterm : c.terminate h = .ok h') (ho : o = .stop ∨ o = .reset) :
    ∃ moves c', (alone o ((n, h), .ready)).run moves =
      alone o (match Node.outlast { n with child? := none } c h' with
        | (h', .ok s) => Node.conclude { n with child? := none } h' s o
        | (h', .error e) => (({ n with child? := none }, h'), .lost c' e)) := by
  obtain ⟨moves, hmoves⟩ :=
    exists_run_outlasting { n with child? := none } o n.shutdownTicks h' c
  obtain ⟨c', hend⟩ := exists_outlasted_eq { n with child? := none } c h' o
  have hfirst : n.step h ⟨o, .ready⟩ = (({ n with child? := none }, h'),
      .outlasting c (h'.clock + n.shutdownTicks * Host.tickTime)) := by
    rcases ho with rfl | rfl <;>
      simp only [Node.step, Node.enter, Node.dismiss, Node.release, hheld, hterm] <;> rfl
  refine ⟨.go 0 :: moves, c', ?_⟩
  rw [run_cons, go_alone, hfirst, hmoves, ← hend]
  rfl

lemma comesTo_stop (n : Node) (ticks : ℕ) (h : Host) :
    ComesTo n h .stop (n.carryOut ticks h .stop) := by
  rw [Node.carryOut]
  cases hheld : n.child? with
  | none =>
    rw [Node.stop_of_absent hheld]
    refine ⟨[.go 0], .done (.failed .notRunning), ?_, rfl⟩
    rw [run_cons, go_alone, run_nil]
    simp only [Node.step, Node.enter, Node.dismiss, Node.release, hheld]
    rfl
  | some c =>
    cases hterm : c.terminate h with
    | error e =>
      rw [Node.stop_of_refused hheld hterm]
      refine ⟨[.go 0], .lost c e, ?_, rfl⟩
      rw [run_cons, go_alone, run_nil]
      simp only [Node.step, Node.enter, Node.dismiss, Node.release, hheld, hterm]
    | ok h' =>
      rw [Node.stop_of_asked hheld hterm]
      obtain ⟨moves, c', hmoves⟩ := exists_run_dismissed hheld hterm (.inl rfl)
      rcases hend : Node.outlast { n with child? := none } c h' with ⟨h'', e | s⟩
      · exact ⟨moves, .lost c' e, by rw [hmoves, hend], rfl⟩
      · exact ⟨moves, .done (.ended s), by rw [hmoves, hend]; rfl, rfl⟩

lemma comesTo_reset (n : Node) (ticks : ℕ) (h : Host) :
    ComesTo n h .reset (n.carryOut ticks h .reset) := by
  rw [Node.carryOut]
  cases hheld : n.child? with
  | none =>
    have hreset : n.reset h = n.clear h := by
      simp only [Node.reset, Node.stop_of_absent hheld]
    rw [hreset]
    refine ⟨[.go 0], (n.sweep h).2, ?_, rfl⟩
    rw [run_cons, go_alone, run_nil]
    simp only [Node.step, Node.enter, Node.dismiss, Node.release, hheld, if_true]
    rfl
  | some c =>
    cases hterm : c.terminate h with
    | error e =>
      rw [Node.reset_of_error (Node.stop_of_refused hheld hterm)
        (Node.notRunning_ne_of_terminate hterm)]
      refine ⟨[.go 0], .lost c e, ?_, rfl⟩
      rw [run_cons, go_alone, run_nil]
      simp only [Node.step, Node.enter, Node.dismiss, Node.release, hheld, hterm]
    | ok h' =>
      obtain ⟨moves, c', hmoves⟩ := exists_run_dismissed hheld hterm (.inr rfl)
      have hstop := Node.stop_of_asked hheld hterm
      rcases hend : Node.outlast { n with child? := none } c h' with ⟨h'', e | s⟩
      · rw [hend] at hmoves hstop
        rw [Node.reset_of_error hstop (Node.notRunning_ne_of_outlast hend)]
        exact ⟨moves, .lost c' e, hmoves, rfl⟩
      · rw [hend] at hmoves hstop
        rw [Node.reset_of_stopped hstop]
        exact ⟨moves, _, hmoves, rfl⟩

/-- **What the node does in one go is a run of a lone caller,** with ticks of the machine while it
waits. -/
theorem comesTo_carryOut (n : Node) (ticks : ℕ) (h : Host) (o : Order) :
    ComesTo n h o (n.carryOut ticks h o) := by
  cases o with
  | start => exact comesTo_start n ticks h
  | stop => exact comesTo_stop n ticks h
  | kill => exact comesTo_kill n ticks h
  | wait => exact comesTo_wait n ticks h
  | reset => exact comesTo_reset n ticks h

end Company

end LogWatch
