import Mathlib
import LogWatch.Proofs.Node.Freshness

/-!
Whom a stop asks to end.

A stop knows the process by its number only. Until the child with that number is reaped nobody else
has it. But to ask whether the node is alive, or to start it, is to look at the child, and a look
that finds it ended reaps it and leaves it with the node. What a stop asks after that is whichever
process has been given the number since.
-/

namespace LogWatch

open Node (Order Stage)

/-- What becomes of a process that is asked to end: nothing if it is guarded or has ended. -/
def Process.asked (p : Process) : Process :=
  match p.life, p.guarded with
  | .running m, false =>
    match m.signal Script.Machine.term with
    | .ok m => { p with life := .running m }
    | .error s => { p with life := .ended s }
  | _, _ => p

/-! ### What is done to whoever has a number -/

namespace Host

variable {h h' h'' : Host} {p : Process} {pid n : ℕ}

/-- The processes, with the one asked to end that has the number. -/
def asking (h : Host) (pid : ℕ) : List Process :=
  h.processes.map fun p => if p.pid = pid then p.asked else p

lemma asking_eq_self (hsame : ∀ p ∈ h.processes, p.pid = pid → p.asked = p) :
    h.asking pid = h.processes := by
  refine (List.map_congr_left fun p hp => ?_).trans (List.map_id _)
  split
  · rename_i hpid
    exact hsame p hp hpid
  · rfl

lemma signal_error {f : SignalFault} (hsignal : h.signal pid n = .error f) (other : ℕ) :
    h.signal pid other = .error f := by
  unfold signal at hsignal ⊢
  split at hsignal
  · exact hsignal
  · exact hsignal
  · split at hsignal <;> cases hsignal
  · cases hsignal

lemma asking_of_error {f : SignalFault} (hd : h.pids.Nodup) (hsignal : h.signal pid n = .error f) :
    h.asking pid = h.processes := by
  refine asking_eq_self fun p hp hpid => ?_
  subst hpid
  obtain ⟨number, life, ours, guarded⟩ := p
  unfold signal at hsignal
  rw [process?_of_mem hd hp] at hsignal
  cases guarded with
  | true => cases life <;> rfl
  | false =>
    cases life with
    | ended s => rfl
    | running m =>
      dsimp only at hsignal
      split at hsignal <;> cases hsignal

lemma processes_of_signal (hd : h.pids.Nodup)
    (hsignal : h.signal pid Script.Machine.term = .ok h') : h'.processes = h.asking pid := by
  unfold signal at hsignal
  split at hsignal
  · cases hsignal
  · cases hsignal
  · rename_i number m ours hfind
    obtain ⟨hmem, rfl⟩ := mem_of_process? hfind
    -- whichever life the signal gives the process, it is that of one that was asked
    have hset : ∀ life, (⟨number, .running m, ours, false⟩ : Process).asked
          = ⟨number, life, ours, false⟩ →
        (h.setLife number life).processes = h.asking number := by
      intro life hasked
      refine List.map_congr_left fun q hq => ?_
      split
      · rename_i hpid
        rw [eq_of_pid hd hq hmem hpid, hasked]
      · rfl
    split at hsignal <;> rename_i heq <;> obtain rfl := Except.ok.inj hsignal
    · exact hset _ (by simp only [Process.asked, heq])
    · exact hset _ (by simp only [Process.asked, heq])
  · rename_i number s ours hfind
    obtain ⟨hmem, rfl⟩ := mem_of_process? hfind
    obtain rfl := Except.ok.inj hsignal
    refine (asking_eq_self fun q hq hpid => ?_).symm
    rw [eq_of_pid hd hq hmem hpid]
    rfl

/-- Whoever is no child of ours is left as it is. -/
def Spares (h h' : Host) : Prop := ∀ p ∈ h.processes, p.ours = false → p ∈ h'.processes

lemma spares_of_eq (hsame : h'.processes = h.processes) : Spares h h' :=
  fun _ hp _ => hsame ▸ hp

lemma Spares.trans (first : Spares h h') (second : Spares h' h'') : Spares h h'' :=
  fun p hp hours => second p (first p hp hours) hours

lemma Owns.pid_ne (howns : h.Owns pid) (hd : h.pids.Nodup) (hp : p ∈ h.processes)
    (hours : p.ours = false) : p.pid ≠ pid := by
  rintro rfl
  obtain ⟨q, hq, hpid, hqours⟩ := howns
  rw [eq_of_pid hd hq hp hpid, hours] at hqours
  cases hqours

lemma spares_setLife (hd : h.pids.Nodup) (howns : h.Owns pid) (life : Life) :
    Spares h (h.setLife pid life) :=
  fun p hp hours => List.mem_map.mpr ⟨p, hp, if_neg (howns.pid_ne hd hp hours)⟩

lemma spares_reap (hd : h.pids.Nodup) (howns : h.Owns pid) : Spares h (h.reap pid) :=
  fun p hp hours => List.mem_filter.mpr ⟨hp, by simpa using howns.pid_ne hd hp hours⟩

lemma spares_signal (hd : h.pids.Nodup) (howns : h.Owns pid) (hsignal : h.signal pid n = .ok h') :
    Spares h h' := by
  unfold signal at hsignal
  split at hsignal
  · cases hsignal
  · cases hsignal
  · split at hsignal <;>
      · obtain rfl := Except.ok.inj hsignal
        exact spares_setLife hd howns _
  · obtain rfl := Except.ok.inj hsignal
    exact spares_of_eq rfl

end Host

namespace Child

variable {c : Child} {h h' : Host}

/-- Whoever holds the child may take its number for its own until it has seen the end. -/
def IsOurs (c : Child) (h : Host) : Prop := c.ended? = none → h.Owns c.pid

lemma spares_look (hd : h.pids.Nodup) (hc : c.IsOurs h) : h.Spares (c.look h).2 := by
  rcases c.look_cases h with ⟨hsame, -⟩ | ⟨s, hunseen, -, hlook⟩
  · rw [hsame]
    exact Host.spares_of_eq rfl
  · rw [hlook]
    exact Host.spares_reap hd (hc hunseen)

lemma spares_kill (hd : h.pids.Nodup) (hc : c.IsOurs h) (hkill : c.kill h = .ok h') :
    h.Spares h' := by
  unfold kill at hkill
  split at hkill
  · obtain rfl := Except.ok.inj hkill
    exact Host.spares_of_eq rfl
  · rename_i hunseen
    split at hkill
    · rename_i hsignal
      obtain rfl := Except.ok.inj hkill
      exact Host.spares_signal hd (hc hunseen) hsignal
    · cases hkill

lemma spares_drop (hd : h.pids.Nodup) (hc : c.IsOurs h) : h.Spares (c.drop h) := by
  unfold drop
  split
  · rename_i hkill
    exact spares_kill hd hc hkill
  · exact Host.spares_of_eq rfl

end Child

namespace Node

variable {n n' : Node} {h h' : Host} {c : Child} {o : Order}

lemma spares_down (hd : h.pids.Nodup) (hc : ∀ c, n.child? = some c → c.IsOurs h)
    (hdown : Down n h n' h') : h.Spares h' := by
  cases hdown with
  | absent => exact Host.spares_of_eq rfl
  | ended hheld hseen =>
    cases hseen with
    | before => exact Host.spares_of_eq rfl
    | now hunseen => exact Host.spares_reap hd (hc _ hheld hunseen)

lemma spares_isAlive (hd : h.pids.Nodup) (hc : ∀ c, n.child? = some c → c.IsOurs h) :
    h.Spares (n.isAlive h).1.2 := by
  rcases n.isAlive_cases h with ⟨c, -, -, -, halive⟩ | ⟨n', h', hdown, hdead⟩
  · rw [halive]
    exact Host.spares_of_eq rfl
  · rw [hdead]
    exact spares_down hd hc hdown

lemma spares_start (hd : h.pids.Nodup) (hc : ∀ c, n.child? = some c → c.IsOurs h) :
    h.Spares (n.start h).1.2 := by
  rcases n.start_cases h with ⟨c, -, -, -, hstart⟩ | ⟨n', h', disk, e, hdown, -, hstart⟩ |
    ⟨n', h', h'', m, path, hdown, hnew, hstart⟩ <;> rw [hstart]
  · exact Host.spares_of_eq rfl
  · exact (spares_down hd hc hdown).trans (Host.spares_of_eq rfl)
  · refine (spares_down hd hc hdown).trans fun p hp _ => ?_
    exact hnew ▸ List.mem_append_left _ hp

lemma processes_conclude (n : Node) (h : Host) (s : ExitStatus) (o : Order) :
    (n.conclude h s o).1.2.processes = h.processes := by
  obtain ⟨n', h', r, hconcluded, heq⟩ := n.conclude_eq h s o
  rw [heq]
  cases hconcluded with
  | ends => rfl
  | sweeps _ hswept => cases hswept <;> rfl

lemma spares_poll (hd : h.pids.Nodup) (hc : ∀ c, n.child? = some c → c.IsOurs h) :
    h.Spares (n.poll h).1.2 := by
  unfold poll
  split
  · exact Host.spares_of_eq rfl
  · rename_i c hheld
    have hlook := Child.spares_look hd (hc c hheld)
    split <;> rename_i heq <;> rw [heq] at hlook <;> exact hlook

lemma spares_condemn (hd : h.pids.Nodup) (hc : ∀ c, n.child? = some c → c.IsOurs h) :
    h.Spares (n.condemn h).1.2 := by
  simp only [condemn, release]
  cases hheld : n.child? with
  | none => exact Host.spares_of_eq rfl
  | some c =>
    dsimp only
    split
    · exact Child.spares_drop hd (hc c hheld)
    · rename_i hkill
      exact Child.spares_kill hd (hc c hheld) hkill

lemma spares_enter (hd : h.pids.Nodup) (hc : ∀ c, n.child? = some c → c.IsOurs h)
    (ho : o = .stop ∨ o = .reset → n.child? = none) : h.Spares (n.enter h o).1.2 := by
  -- a kill goes through the handle, and a stop finds no child here to signal
  cases o with
  | start => exact spares_start hd hc
  | wait =>
    have hpoll := spares_poll hd hc
    simp only [enter]
    split <;> rename_i heq <;> rw [heq] at hpoll <;> exact hpoll
  | kill =>
    have hcondemn := spares_condemn hd hc
    simp only [enter]
    split <;> rename_i heq <;> rw [heq] at hcondemn <;> exact hcondemn
  | stop =>
    have hnone := ho (by simp)
    simp only [enter, dismiss, release, hnone]
    exact Host.spares_of_eq rfl
  | reset =>
    have hnone := ho (by simp)
    obtain ⟨n', h', r, hswept, hsweep⟩ := n.sweep_eq h
    simp only [enter, dismiss, release, hnone, if_true, hsweep]
    cases hswept <;> exact Host.spares_of_eq rfl

/-- A step of a caller reaches nobody but children of ours, unless it stops a child. -/
lemma spares_step {w : Caller} (hd : h.pids.Nodup) (hc : ∀ c, n.child? = some c → c.IsOurs h)
    (hhand : ∀ c, w.stage.hand? = some c → c.IsOurs h)
    (ho : w.order = .stop ∨ w.order = .reset → w.stage = .ready → n.child? = none) :
    h.Spares (n.step h w).1.2 := by
  obtain ⟨order, stage⟩ := w
  cases stage with
  | ready => exact spares_enter hd hc fun horder => ho horder rfl
  | lost | done => exact Host.spares_of_eq rfl
  | burying c =>
    have hlook := Child.spares_look hd (hhand c rfl)
    simp only [step]
    split <;> rename_i heq <;> rw [heq] at hlook
    · exact hlook.trans (Host.spares_of_eq (processes_conclude _ _ _ _))
    · exact hlook
  | outlasting c time =>
    have hlook := Child.spares_look hd (hhand c rfl)
    simp only [step]
    rcases heq : c.look h with ⟨⟨pid, seen⟩, h'⟩
    rw [heq] at hlook
    cases seen with
    | some s => exact hlook.trans (Host.spares_of_eq (processes_conclude _ _ _ _))
    | none =>
      obtain ⟨rfl, rfl, -⟩ := runs_of_look heq rfl
      dsimp only
      split
      · exact hlook
      · split
        · rename_i hkill
          exact Child.spares_kill hd (hhand _ rfl) hkill
        · exact Child.spares_drop hd (hhand _ rfl)

lemma processes_dismiss (hd : h.pids.Nodup) (hheld : n.child? = some c) :
    (n.dismiss h).1.2.processes = h.asking c.pid := by
  simp only [dismiss, release, hheld, Child.terminate]
  cases hsignal : h.signal c.pid Script.Machine.term with
  | ok h' => exact Host.processes_of_signal hd hsignal
  | error f =>
    rw [Host.asking_of_error hd hsignal]
    cases f with
    | nobody => rfl
    | refused =>
      -- The child is let go of, which would kill it; but that signal is refused as well.
      have hkill := Host.signal_error hsignal Script.Machine.kill
      simp only [Child.drop, Child.kill, hkill]
      cases c.ended? <;> rfl

lemma processes_enter (hd : h.pids.Nodup) (hheld : n.child? = some c)
    (ho : o = .stop ∨ o = .reset) : (n.enter h o).1.2.processes = h.asking c.pid := by
  have hdismiss := processes_dismiss hd hheld
  rcases hdone : n.dismiss h with ⟨⟨n', h'⟩, e | c'⟩ <;> rw [hdone] at hdismiss
  · have henter : n.enter h o = ((n', h'), .lost c e) := by
      rcases ho with rfl | rfl <;> simp only [enter, hheld, hdone]
    rwa [henter]
  · have henter : (n.enter h o).1 = (n', h') := by
      rcases ho with rfl | rfl <;> simp only [enter, hheld, hdone]
    rwa [henter]

end Node

namespace Company

variable {v : Company} {m : Move} {c : Child} {pid : ℕ} {moves early late : List Move}

/-- The child whose number a move asks to end. -/
def asked? (v : Company) : Move → Option Child
  | .go i =>
    match v.callers[i]? with
    | some ⟨.stop, .ready⟩ | some ⟨.reset, .ready⟩ => v.node.child?
    | _ => none
  | .calls _ | .asks | .system _ => none

lemma asked?_eq_some (h : v.asked? m = some c) :
    ∃ i o, m = .go i ∧ v.callers[i]? = some ⟨o, .ready⟩ ∧ (o = .stop ∨ o = .reset) ∧
      v.node.child? = some c := by
  cases m with
  | calls | asks | system => cases h
  | go i =>
    simp only [asked?] at h
    split at h
    · exact ⟨i, .stop, rfl, ‹_›, .inl rfl, h⟩
    · exact ⟨i, .reset, rfl, ‹_›, .inr rfl, h⟩
    · cases h

lemma processes_of_asked (hv : v.Holds) (h : v.asked? m = some c) :
    (v.apply m).host.processes = v.host.asking c.pid := by
  obtain ⟨i, o, rfl, hcaller, ho, hheld⟩ := asked?_eq_some h
  rw [apply_go hcaller]
  exact Node.processes_enter hv.distinct hheld ho

/-! ### What has become of the child that is held -/

/-- A look that leaves the child with the node, whatever it finds. -/
def Looks (v : Company) : Move → Prop
  | .asks => True
  | .go i => v.callers[i]? = some ⟨.start, .ready⟩
  | .calls _ | .system _ => False

/-- What a move can have made of the child that the node holds after it. -/
inductive Becomes (v : Company) (m : Move) (c : Child) : Prop
  | stays (held : v.node.child? = some c)
  | starts {path : String} (started : v.started? m = some path) (unseen : c.ended? = none)
  | seen {s : ExitStatus} (held : v.node.child? = some ⟨c.pid, none⟩) (looks : v.Looks m)
      (ended : c.ended? = some s) (free : c.pid ∉ (v.apply m).host.pids)

lemma becomes_of_down {n' : Node} {h' : Host} (hdown : Node.Down v.node v.host n' h')
    (hlooks : v.Looks m) (hheld : n'.child? = some c)
    (hpids : (v.apply m).host.pids = h'.pids) : Becomes v m c := by
  cases hdown with
  | absent => exact .stays hheld
  | @ended old s h' hold hseen =>
    obtain rfl := Option.some.inj hheld
    obtain ⟨pid, seen⟩ := old
    cases hseen with
    | before hbefore =>
      obtain rfl : seen = some s := hbefore
      exact .stays hold
    | now hunseen =>
      obtain rfl : seen = none := hunseen
      exact .seen hold hlooks rfl (hpids ▸ v.host.notMem_pids_reap pid)

lemma becomes_of_start {i : ℕ} (hcaller : v.callers[i]? = some ⟨.start, .ready⟩)
    (hheld : (v.apply (.go i)).node.child? = some c) : Becomes v (.go i) c := by
  have hnode : (v.apply (.go i)).node = (v.node.start v.host).1.1 := by
    rw [apply_go hcaller]
    rfl
  have hhost : (v.apply (.go i)).host = (v.node.start v.host).1.2 := by
    rw [apply_go hcaller]
    rfl
  rw [hnode] at hheld
  rcases v.node.start_cases v.host with ⟨c', -, -, -, hstart⟩ |
    ⟨n', h', disk, e, hdown, -, hstart⟩ | ⟨n', h', h'', machine, path, -, -, hstart⟩ <;>
    rw [hstart] at hheld
  · exact .stays hheld
  · refine becomes_of_down hdown hcaller hheld ?_
    rw [hhost, hstart]
    rfl
  · have hstarted : v.started? (.go i) = some path := by
      simp only [started?, hcaller, hstart, Except.toOption]
    obtain rfl := Option.some.inj hheld
    exact .starts hstarted rfl

lemma child_of_step {n n' : Node} {h h' : Host} {w : Node.Caller} {stage : Stage}
    (hstep : Node.Step n h w n' h' stage) (hother : ¬ (w.order = .start ∧ w.stage = .ready))
    (hheld : n'.child? = some c) : n.child? = some c := by
  cases hstep with
  | refuses | nobody | watches | holds | rests => exact hheld
  | fails order ready | starts order ready => exact absurd ⟨order, ready⟩ hother
  | sees | takes => cases hheld
  | sweeps _ _ _ hswept => cases hswept <;> exact hheld
  | concludes _ _ _ hconcluded =>
    cases hconcluded with
    | ends => exact hheld
    | sweeps _ hswept => cases hswept <;> exact hheld

lemma becomes (hheld : (v.apply m).node.child? = some c) : Becomes v m c := by
  cases m with
  | calls o => exact .stays hheld
  | system e => exact .stays hheld
  | asks =>
    rcases Node.isAlive_cases v.node v.host with ⟨c', -, -, -, halive⟩ | ⟨n', h', hdown, hdead⟩
    · simp only [apply, halive] at hheld
      exact .stays hheld
    · simp only [apply, hdead] at hheld
      exact becomes_of_down hdown trivial hheld (by simp only [apply, hdead])
  | go i =>
    cases hcaller : v.callers[i]? with
    | none =>
      rw [apply_go_of_none hcaller] at hheld
      exact .stays hheld
    | some w =>
      -- only the first step of a start brings another child
      by_cases hstart : w.order = .start ∧ w.stage = .ready
      · obtain ⟨o, stage⟩ := w
        obtain ⟨rfl, rfl⟩ := hstart
        exact becomes_of_start hcaller hheld
      · rw [apply_go hcaller] at hheld
        exact .stays (child_of_step (v.node.step_spec v.host w) hstart hheld)

/-! ### A whole run -/

/-- Something is so at every moment of a run. -/
def Throughout (v : Company) (moves : List Move) (P : Company → Prop) : Prop :=
  ∀ early, early <+: moves → P (v.run early)

section Throughout

variable {P : Company → Prop}

lemma throughout_nil : v.Throughout [] P ↔ P v := by
  simp [Throughout]

lemma throughout_snoc :
    v.Throughout (moves ++ [m]) P ↔ v.Throughout moves P ∧ P (v.run (moves ++ [m])) := by
  simp only [Throughout, List.prefix_concat_iff, or_imp, forall_and, forall_eq]
  exact and_comm

end Throughout

lemma run_snoc (v : Company) (moves : List Move) (m : Move) :
    v.run (moves ++ [m]) = (v.run moves).apply m := by
  rw [run_append]
  rfl

lemma run_after (v : Company) (past : List Move) (start : Move) (since : List Move) :
    (v.run (past ++ [start])).run since = v.run (past ++ start :: since) := by
  rw [← run_append, List.append_assoc]
  rfl

lemma Holds.isOurs (hv : v.Holds) (hmem : c ∈ v.node.child?.toList ++ v.hands) :
    c.IsOurs v.host :=
  fun hunseen => Kept.owns hv c.pid (mem_unseen.mpr ⟨c, hmem, hunseen, rfl⟩)

lemma Holds.owns (hv : v.Holds) (hheld : v.node.child? = some ⟨pid, none⟩) : v.host.Owns pid :=
  hv.isOurs (List.mem_append_left _ (Option.mem_toList.mpr hheld)) rfl

/-- What has become of a child in a run that began when it was new. -/
inductive Fared (v : Company) : List Move → Child → Prop
  /-- It has been ours all the time. -/
  | unreaped {moves : List Move} {pid : ℕ}
      (ours : v.Throughout moves fun u => u.node.child? = some ⟨pid, none⟩ ∧ u.host.Owns pid) :
      Fared v moves ⟨pid, none⟩
  /-- It was ours until a look found it ended. That left the number to nobody, and the child with
  the node. -/
  | reaped {early late : List Move} {look : Move} {pid : ℕ} {s : ExitStatus}
      (ours : v.Throughout early fun u => u.node.child? = some ⟨pid, none⟩ ∧ u.host.Owns pid)
      (looks : (v.run early).Looks look) (free : pid ∉ (v.run (early ++ [look])).host.pids)
      (held : (v.run (early ++ [look])).Throughout late fun u =>
        u.node.child? = some ⟨pid, some s⟩) :
      Fared v (early ++ look :: late) ⟨pid, some s⟩

lemma Fared.snoc (hv : v.Holds) (hfared : v.Fared moves c)
    (hheld : (v.run (moves ++ [m])).node.child? = some c) : v.Fared (moves ++ [m]) c := by
  cases hfared with
  | unreaped ours =>
    exact .unreaped (throughout_snoc.mpr ⟨ours, hheld, (hv.run _).owns hheld⟩)
  | reaped ours looks free held =>
    rw [List.append_assoc, List.cons_append] at hheld ⊢
    refine .reaped ours looks free (throughout_snoc.mpr ⟨held, ?_⟩)
    rwa [run_after]

lemma Fared.look {s : ExitStatus} (hfared : v.Fared moves ⟨pid, none⟩)
    (hlooks : (v.run moves).Looks m) (hfree : pid ∉ (v.run (moves ++ [m])).host.pids)
    (hheld : (v.run (moves ++ [m])).node.child? = some ⟨pid, some s⟩) :
    v.Fared (moves ++ [m]) ⟨pid, some s⟩ := by
  cases hfared with
  | unreaped ours => exact .reaped ours hlooks hfree (throughout_nil.mpr hheld)

/-- What has become of a child since the start that made it. -/
def Traced (v : Company) (moves : List Move) (c : Child) : Prop :=
  ∃ past start since, moves = past ++ start :: since ∧ ((v.run past).started? start).isSome = true ∧
    (v.run (past ++ [start])).Fared since c

lemma traced (hv : v.Holds) (hnone : v.node.child? = none) (moves : List Move)
    (hheld : (v.run moves).node.child? = some c) : v.Traced moves c := by
  induction moves using List.reverseRecOn generalizing c with
  | nil => simp [hnone] at hheld
  | append_singleton moves m ih =>
    have hafter := hheld
    rw [run_snoc] at hafter
    have hassoc : ∀ past start since,
        (past ++ start :: since) ++ [m] = past ++ start :: (since ++ [m]) := by simp
    -- with the last move the child stays as it is, has been started, or is seen to have ended
    cases becomes hafter with
    | stays held =>
      obtain ⟨past, start, since, rfl, hstarted, hfared⟩ := ih held
      refine ⟨past, start, since ++ [m], hassoc _ _ _, hstarted, hfared.snoc (hv.run _) ?_⟩
      rwa [run_after, ← hassoc]
    | starts started unseen =>
      obtain ⟨pid, seen⟩ := c
      obtain rfl : seen = none := unseen
      refine ⟨moves, m, [], rfl, by rw [started]; rfl, .unreaped (throughout_nil.mpr ?_)⟩
      exact ⟨hheld, (hv.run _).owns hheld⟩
    | seen held looks ended free =>
      obtain ⟨pid, seen⟩ := c
      obtain rfl : seen = some _ := ended
      obtain ⟨past, start, since, rfl, hstarted, hfared⟩ := ih held
      refine ⟨past, start, since ++ [m], hassoc _ _ _, hstarted, hfared.look ?_ ?_ ?_⟩
      · rwa [run_after]
      · rwa [run_after, ← hassoc, run_snoc]
      · rwa [run_after, ← hassoc]

/-- Whom a move reaches that asks for the number of a child. -/
structure Reaches (v : Company) (m : Move) (c : Child) : Prop where
  /-- The one that has the number is asked to end, and nobody else. -/
  processes : (v.apply m).host.processes = v.host.asking c.pid
  /-- If it runs, it is ours as long as the end of the child was not seen, and never after that. -/
  ours : ∀ p ∈ v.host.processes, p.pid = c.pid → p.life.isRunning = true →
    (p.ours = true ↔ c.ended? = none)

lemma reaches (hv : v.Holds) (h : v.asked? m = some c) : v.Reaches m c := by
  obtain ⟨-, -, -, -, -, hheld⟩ := asked?_eq_some h
  refine ⟨processes_of_asked hv h, fun p hp hpid hruns => ⟨fun hours => ?_, fun hunseen => ?_⟩⟩
  · have hchild : c.pid ∈ v.host.children := Host.mem_children.mpr ⟨p, hp, hpid, hours, hruns⟩
    rw [Holds, hheld] at hv
    exact (hv.mem_children_iff.mp hchild).1
  · obtain ⟨pid, seen⟩ := c
    obtain rfl : seen = none := hunseen
    obtain ⟨q, hq, hpid', hours⟩ := hv.owns hheld
    rwa [Host.eq_of_pid hv.distinct hp hq (hpid.trans hpid'.symm)]

/-! ### Who is struck that is not ours -/

/-- Whether a move is made by somebody who uses the node. -/
def Move.isOurs : Move → Bool
  | .calls _ | .go _ | .asks => true
  | .system _ => false

/-- A process that is no child of ours is not left as it is. -/
def Strikes (v : Company) (m : Move) (p : Process) : Prop :=
  p ∈ v.host.processes ∧ p.ours = false ∧ p ∉ (v.apply m).host.processes

lemma spares_apply (hv : v.Holds) (hm : m.isOurs = true) (hnone : v.asked? m = none) :
    v.host.Spares (v.apply m).host := by
  have hchild : ∀ c, v.node.child? = some c → c.IsOurs v.host :=
    fun c hheld => hv.isOurs (List.mem_append_left _ (Option.mem_toList.mpr hheld))
  cases m with
  | system => cases hm
  | calls => exact Host.spares_of_eq rfl
  | asks => exact Node.spares_isAlive hv.distinct hchild
  | go i =>
    cases hcaller : v.callers[i]? with
    | none =>
      rw [apply_go_of_none hcaller]
      exact Host.spares_of_eq rfl
    | some w =>
      rw [apply_go hcaller]
      -- a child that the node or a caller holds is one of ours
      refine Node.spares_step hv.distinct hchild (fun c hhand => hv.isOurs ?_) ?_
      · refine List.mem_append_right _ (List.mem_filterMap.mpr ⟨w, ?_, hhand⟩)
        exact List.mem_of_getElem? hcaller
      · obtain ⟨o, stage⟩ := w
        rintro (rfl | rfl) rfl <;> simpa only [asked?, hcaller] using hnone

lemma asked_of_strikes {p : Process} (hv : v.Holds) (hm : m.isOurs = true) (h : v.Strikes m p) :
    ∃ c, v.asked? m = some c ∧ c.ended? ≠ none ∧ c.pid = p.pid := by
  obtain ⟨hp, hours, hstruck⟩ := h
  cases hasked : v.asked? m with
  | none => exact absurd (spares_apply hv hm hasked p hp hours) hstruck
  | some c =>
    have hpid : c.pid = p.pid := by
      by_contra hne
      refine hstruck ?_
      rw [processes_of_asked hv hasked]
      exact List.mem_map.mpr ⟨p, hp, if_neg (Ne.symm hne)⟩
    refine ⟨c, rfl, fun hunseen => ?_, hpid⟩
    obtain ⟨-, -, -, -, -, hheld⟩ := asked?_eq_some hasked
    have howns := hv.isOurs (List.mem_append_left _ (Option.mem_toList.mpr hheld)) hunseen
    exact howns.pid_ne hv.distinct hp hours hpid.symm

/-- **A stop asks whoever has the number of the child to end.** That is the child itself as long as
nobody has looked at it since it ended. Once a look has reaped it, no process of ours is asked, but
any other that has been given the number; in no other way does a move reach a process that is not
ours. -/
theorem asks_holder_of_number (s : NodeSettings) (d : Disk) (clock nextPid : ℕ) (moves : List Move)
    {m : Move} (hm : m.isOurs = true) :
    (∀ c, ((begin s d clock nextPid).run moves).asked? m = some c →
      (begin s d clock nextPid).Traced moves c ∧
        ((begin s d clock nextPid).run moves).Reaches m c) ∧
    ∀ p, ((begin s d clock nextPid).run moves).Strikes m p →
      ∃ c, ((begin s d clock nextPid).run moves).asked? m = some c ∧ c.ended? ≠ none ∧
        c.pid = p.pid := by
  have hbegin := holds_begin s d clock nextPid
  have hv := hbegin.run moves
  refine ⟨fun c h => ⟨?_, reaches hv h⟩, fun p h => asked_of_strikes hv hm h⟩
  obtain ⟨-, -, -, -, -, hheld⟩ := asked?_eq_some h
  exact traced hbegin rfl moves hheld

/-! ### Somebody else with the number -/

/-- The child ends, somebody asks whether the node is alive, and somebody else's process is given
the number before a stop. -/
def overtaken : List Move :=
  [.calls .start, .go 0, .system (.goes 100 (.ended (.exited 3)) false), .asks,
    .system (.arrives 100 (.running (.blank 100 0)) false), .calls .stop]

/-- A process that was given the number of a child. -/
def stranger : Process := ⟨100, .running (.blank 100 0), false, false⟩

/-- **A stop may end a process that was never ours:** the child with the number was reaped before,
and whoever has the number now is asked to end. -/
theorem stranger_asked_to_end :
    ((begin sleeper .empty 0 100).run overtaken).asked? (.go 1) =
        some ⟨100, some (.exited 3)⟩ ∧
      ((begin sleeper .empty 0 100).run overtaken).host.processes = [stranger] ∧
      (((begin sleeper .empty 0 100).run overtaken).apply (.go 1)).host.processes =
        [{ stranger with life := .ended (.killed Script.Machine.term) }] := by
  decide +kernel

/-- The child is reaped when somebody asks whether the node is alive, and the stop that comes later
asks the stranger. -/
theorem asks_holder_of_number_overtaken :
    ((begin sleeper .empty 0 100).run overtaken).asked? (.go 1) =
        some ⟨100, some (.exited 3)⟩ ∧
      (begin sleeper .empty 0 100).Traced overtaken ⟨100, some (.exited 3)⟩ ∧
      ((begin sleeper .empty 0 100).run overtaken).Strikes (.go 1) stranger ∧
      ∃ c, ((begin sleeper .empty 0 100).run overtaken).asked? (.go 1) = some c ∧
        c.ended? ≠ none ∧ c.pid = stranger.pid := by
  have hasks : ((begin sleeper .empty 0 100).run overtaken).asked? (.go 1) =
      some ⟨100, some (.exited 3)⟩ := by decide +kernel
  have hstrikes : ((begin sleeper .empty 0 100).run overtaken).Strikes (.go 1) stranger := by
    unfold Strikes
    decide +kernel
  have htheorem := asks_holder_of_number sleeper .empty 0 100 overtaken (m := .go 1) rfl
  exact ⟨hasks, (htheorem.1 _ hasks).1, hstrikes, htheorem.2 stranger hstrikes⟩

end Company

end LogWatch
