import Mathlib
import LogWatch.Proofs.Disk.Creation
import LogWatch.Proofs.Node.Alone
import LogWatch.Proofs.Node.LogName

/-!
Which log a start writes to.

The name of a log is all that keeps it apart from others, and what tells names apart is the
millisecond in which a start looks at the clock. Callers do not move the clock and time does not go
back, so two starts come to the same log exactly if they are made in the same millisecond. A log is
opened, not made: what the path leads to before is in it when the run begins.
-/

namespace LogWatch

open Node (Order Reply Stage)

namespace Path

lemma join_injective (dir : String) : Function.Injective (join dir) := by
  intro a b h
  simp only [join] at h
  split at h
  · exact h
  · split at h <;> exact (String.append_right_inj _).mp h

end Path

/-! ### The clock -/

namespace Host

variable {h h' : Host}

lemma clock_le_happen (h : Host) (e : Event) : h.clock ≤ (h.happen e).clock := by
  cases e with
  | tick => exact (Nat.le_add_right _ _).trans_eq (clock_tick h).symm
  | passes nanos => exact Nat.le_add_right _ _
  | files | limits | turnTo | goes | leaves => exact le_rfl
  | arrives =>
    rw [happen]
    split <;> exact le_rfl

lemma channels_load (h : Host) (c : Command) (program : String) (log : ℕ) :
    (h.load c program log).channels = ⟨[], .file log, .file log⟩ := by
  simp only [load]
  repeat' split
  all_goals rfl

lemma load_of_spawn {c : Command} {log pid : ℕ} (hspawn : h.spawn c log = .ok (h', pid)) :
    h'.clock = h.clock ∧ ∃ m, ⟨pid, .running m, true, false⟩ ∈ h'.processes ∧
      m.channels = ⟨[], .file log, .file log⟩ := by
  unfold spawn at hspawn
  cases hrefuses : h.refuses? c with
  | some e =>
    rw [hrefuses] at hspawn
    cases hspawn
  | none =>
    rw [hrefuses] at hspawn
    cases hprogram : h.program? c with
    | error e =>
      rw [hprogram] at hspawn
      cases hspawn
    | ok program =>
      rw [hprogram] at hspawn
      obtain ⟨rfl, rfl⟩ := Prod.mk.inj (Except.ok.inj hspawn)
      exact ⟨rfl, _, by simp, channels_load h c program log⟩

end Host

namespace Child

variable {c : Child} {h h' : Host}

lemma clock_look (c : Child) (h : Host) : (c.look h).2.clock = h.clock := by
  unfold look
  split <;> rfl

lemma clock_terminate (hterm : c.terminate h = .ok h') : h'.clock = h.clock := by
  unfold terminate at hterm
  split at hterm
  · rename_i hsignal
    obtain rfl := Except.ok.inj hterm
    exact Host.clock_signal hsignal
  · obtain rfl := Except.ok.inj hterm
    rfl
  · cases hterm

lemma clock_kill (hkill : c.kill h = .ok h') : h'.clock = h.clock := by
  unfold kill at hkill
  split at hkill
  · obtain rfl := Except.ok.inj hkill
    rfl
  · split at hkill
    · rename_i hsignal
      obtain rfl := Except.ok.inj hkill
      exact Host.clock_signal hsignal
    · cases hkill

lemma clock_drop (c : Child) (h : Host) : (c.drop h).clock = h.clock := by
  unfold drop
  split
  · rename_i hkill
    exact clock_kill hkill
  · rfl

end Child

namespace Node

variable {n n' : Node} {h h' : Host} {c : Child}

lemma clock_isAlive (n : Node) (h : Host) : (n.isAlive h).1.2.clock = h.clock := by
  unfold isAlive
  split
  · rfl
  · exact Child.clock_look _ h

lemma clock_makeLog (n : Node) (h : Host) : (n.makeLog h).1.clock = h.clock := by
  rcases n.makeLog_cases h with ⟨disk, path, file, hlog⟩ | ⟨disk, e, hlog⟩ <;> rw [hlog]

/-- What a start has done that gave the path of a log: its child writes to the file that is there,
with what the path led to once the folder for logs was made. -/
structure Starts (s : NodeSettings) (h : Host) (path : String) (n' : Node) (h' : Host) : Prop where
  named : path = Path.join s.logDir (LogName.ofMillis (h.clock / Host.tickTime))
  shown : n'.logPath? = some path
  writes : ∃ pid m log, n'.pid? = some pid ∧ ⟨pid, .running m, true, false⟩ ∈ h'.processes ∧
    m.channels = ⟨[], .file log, .file log⟩ ∧ h'.disk.find path = .ok log ∧
    h'.disk.bytes log = (h.disk.makeDir s.logDir).1.content path

lemma same_of_down (hdown : Down n h n' h') :
    n'.settings = n.settings ∧ h'.clock = h.clock ∧ h'.disk = h.disk := by
  cases hdown with
  | absent => exact ⟨rfl, rfl, rfl⟩
  | ended _ hseen => cases hseen <;> exact ⟨rfl, rfl, rfl⟩

lemma makeLog_ok {path : String} {file : ℕ} (hlog : n.makeLog h = (h', .ok (path, file))) :
    h'.clock = h.clock ∧ path = n.newLogPath h ∧ h'.disk.find path = .ok file ∧
      h'.disk.bytes file = (h.disk.makeDir n.settings.logDir).1.content path := by
  unfold makeLog at hlog
  rcases hdir : h.disk.makeDir n.settings.logDir with ⟨disk, e | ⟨⟨⟩⟩⟩
  · simp [hdir] at hlog
  · simp only [hdir] at hlog
    split at hlog
    · simp at hlog
    · rename_i hopen
      obtain ⟨rfl, hok⟩ := Prod.mk.inj hlog
      obtain ⟨rfl, rfl⟩ := Prod.mk.inj (Except.ok.inj hok)
      exact ⟨rfl, rfl, Disk.openFile_ok hopen⟩

/-- No start moves the clock; and what a start has done that succeeded. -/
lemma start_spec (n : Node) (h : Host) : (n.start h).1.2.clock = h.clock ∧
    ∀ path, (n.start h).2 = .ok path →
      Starts n.settings h path (n.start h).1.1 (n.start h).1.2 := by
  unfold start
  rcases isAlive_cases n h with ⟨c, hheld, -, -, halive⟩ | ⟨n₁, h₁, hdown, hdead⟩
  · simp [halive, hheld]
  · obtain ⟨hsettings, hclock, hdisk⟩ := same_of_down hdown
    -- the log is made first, and the program is loaded on it
    rcases hlog : n₁.makeLog h₁ with ⟨h₂, e | ⟨path, file⟩⟩
    · have hsame := clock_makeLog n₁ h₁
      rw [hlog] at hsame
      simp only [hdead, hlog]
      exact ⟨hsame.trans hclock, by simp⟩
    · obtain ⟨hsame, hpath, hfind, hbytes⟩ := makeLog_ok hlog
      cases hspawn : h₂.spawn n₁.settings.command file with
      | error e =>
        simp only [hdead, hlog, hspawn]
        exact ⟨hsame.trans hclock, by simp⟩
      | ok x =>
        obtain ⟨h₃, pid⟩ := x
        obtain ⟨hstill, m, hmem, hchannels⟩ := Host.load_of_spawn hspawn
        have hkept := (Host.spawn_eq hspawn).2.1
        simp only [hdead, hlog, hspawn]
        refine ⟨hstill.trans (hsame.trans hclock), fun path' hok => ?_⟩
        obtain rfl := Except.ok.inj hok
        refine ⟨?_, rfl, pid, m, file, rfl, hmem, hchannels, hkept ▸ hfind, ?_⟩
        · rw [hpath, newLogPath, hsettings, hclock]
        · rw [hkept, hbytes, hsettings, hdisk]

lemma clock_clear (n : Node) (h : Host) : (n.clear h).1.2.clock = h.clock := by
  unfold clear
  repeat' split
  all_goals rfl

lemma clock_conclude (n : Node) (h : Host) (s : ExitStatus) (o : Order) :
    (n.conclude h s o).1.2.clock = h.clock := by
  cases o with
  | reset => exact clock_clear n h
  | start | stop | kill | wait => rfl

lemma clock_poll (n : Node) (h : Host) : (n.poll h).1.2.clock = h.clock := by
  unfold poll
  split
  · rfl
  · rename_i c _
    have hlook := c.clock_look h
    split <;> rename_i heq <;> rw [heq] at hlook <;> exact hlook

lemma clock_dismiss (n : Node) (h : Host) : (n.dismiss h).1.2.clock = h.clock := by
  unfold dismiss
  split
  · rfl
  · split
    · exact Child.clock_drop _ h
    · rename_i hterm
      exact Child.clock_terminate hterm

lemma clock_condemn (n : Node) (h : Host) : (n.condemn h).1.2.clock = h.clock := by
  unfold condemn
  split
  · rfl
  · split
    · exact Child.clock_drop _ h
    · rename_i hkill
      exact Child.clock_kill hkill

lemma clock_enter (n : Node) (h : Host) (o : Order) : (n.enter h o).1.2.clock = h.clock := by
  have hdismiss := n.clock_dismiss h
  cases o with
  | start => exact (n.start_spec h).1
  | wait =>
    have hpoll := n.clock_poll h
    simp only [enter]
    split <;> rename_i heq <;> rw [heq] at hpoll <;> exact hpoll
  | kill =>
    have hcondemn := n.clock_condemn h
    simp only [enter]
    split <;> rename_i heq <;> rw [heq] at hcondemn <;> exact hcondemn
  | stop =>
    simp only [enter]
    split <;> rename_i heq <;> rw [heq] at hdismiss <;> exact hdismiss
  | reset =>
    simp only [enter]
    split <;> rename_i heq <;> rw [heq] at hdismiss
    · exact hdismiss
    · exact hdismiss
    · exact (clock_clear _ _).trans hdismiss

lemma clock_step (n : Node) (h : Host) (w : Caller) : (n.step h w).1.2.clock = h.clock := by
  unfold step
  split
  · exact n.clock_enter h _
  · rename_i c time _
    have hlook := c.clock_look h
    split
    · rename_i heq
      rw [heq] at hlook
      exact (clock_conclude _ _ _ _).trans hlook
    · rename_i heq
      rw [heq] at hlook
      split
      · exact hlook
      · split
        · rename_i hkill
          exact (Child.clock_kill hkill).trans hlook
        · exact (Child.clock_drop _ _).trans hlook
  · rename_i c _
    have hlook := c.clock_look h
    split
    · rename_i heq
      rw [heq] at hlook
      exact (clock_conclude _ _ _ _).trans hlook
    · rename_i heq
      rw [heq] at hlook
      exact hlook
  · rfl
  · rfl

lemma settings_isAlive (n : Node) (h : Host) : (n.isAlive h).1.1.settings = n.settings := by
  unfold isAlive
  split <;> rfl

end Node

/-! ### All starts of a run -/

/-- A start that succeeded: the path that it gave, and all there was before and after it. -/
structure Launch where
  before : Company
  path : String
  after : Company

namespace Company

variable {v : Company} {m : Move} {s : NodeSettings}

/-- The path that a move gives if it is a start that succeeds. -/
def started? (v : Company) : Move → Option String
  | .go i =>
    match v.callers[i]? with
    | some ⟨.start, .ready⟩ => (v.node.start v.host).2.toOption
    | _ => none
  | _ => none

/-- The starts of a run that succeed, one after the other. -/
def launches (v : Company) : List Move → List Launch
  | [] => []
  | m :: moves =>
    (v.started? m).toList.map (⟨v, ·, v.apply m⟩) ++ (v.apply m).launches moves

lemma started?_eq_some {path : String} (h : v.started? m = some path) :
    (v.node.start v.host).2 = .ok path ∧
      (v.apply m).node = (v.node.start v.host).1.1 ∧
      (v.apply m).host = (v.node.start v.host).1.2 := by
  cases m with
  | go i =>
    simp only [started?] at h
    split at h
    · rename_i hcaller
      refine ⟨?_, ?_, ?_⟩
      · cases hstart : (v.node.start v.host).2 with
        | error e => simp [hstart, Except.toOption] at h
        | ok path' => simpa [hstart, Except.toOption] using h
      · rw [apply_go hcaller]
        rfl
      · rw [apply_go hcaller]
        rfl
    · simp at h
  | calls | asks | system => simp [started?] at h

lemma clock_le_apply (v : Company) (m : Move) : v.host.clock ≤ (v.apply m).host.clock := by
  cases m with
  | calls o => exact le_rfl
  | go i =>
    cases hcaller : v.callers[i]? with
    | none => rw [apply_go_of_none hcaller]
    | some w =>
      rw [apply_go hcaller]
      exact (Node.clock_step v.node v.host w).ge
  | asks => exact (Node.clock_isAlive v.node v.host).ge
  | system e => exact v.host.clock_le_happen e

lemma settings_apply (v : Company) (m : Move) : (v.apply m).node.settings = v.node.settings := by
  cases m with
  | calls o => rfl
  | go i =>
    cases hcaller : v.callers[i]? with
    | none => rw [apply_go_of_none hcaller]
    | some w =>
      rw [apply_go hcaller]
      exact (v.node.step_spec v.host w).settings
  | asks => exact Node.settings_isAlive v.node v.host
  | system e => rfl

lemma launches_spec (hs : v.node.settings = s) (moves : List Move) :
    (∀ l ∈ v.launches moves, v.host.clock ≤ l.before.host.clock ∧
      Node.Starts s l.before.host l.path l.after.node l.after.host) ∧
    (v.launches moves).Pairwise fun a b => a.before.host.clock ≤ b.before.host.clock := by
  induction moves generalizing v with
  | nil => simp [launches]
  | cons m moves ih =>
    -- whatever comes later starts no earlier, since no move turns the clock back
    obtain ⟨hlater, hordered⟩ := ih ((settings_apply v m).trans hs)
    have htick := clock_le_apply v m
    cases hstarted : v.started? m with
    | none =>
      simp only [launches, hstarted, Option.toList_none, List.map_nil, List.nil_append]
      exact ⟨fun l hl => ⟨htick.trans (hlater l hl).1, (hlater l hl).2⟩, hordered⟩
    | some path =>
      obtain ⟨hok, hnode, hhost⟩ := started?_eq_some hstarted
      have hstarts := (v.node.start_spec v.host).2 path hok
      rw [hs, ← hnode, ← hhost] at hstarts
      simp only [launches, hstarted, Option.toList_some, List.map_cons, List.map_nil,
        List.singleton_append, List.pairwise_cons]
      refine ⟨List.forall_mem_cons.mpr ⟨⟨le_rfl, hstarts⟩, fun l hl => ?_⟩, fun l hl => ?_, hordered⟩
      · exact ⟨htick.trans (hlater l hl).1, (hlater l hl).2⟩
      · exact htick.trans (hlater l hl).1

/-- **Two starts come to the same log exactly if they are made in the same millisecond,** and the
log of each holds from the beginning whatever its path led to. This is so whoever starts, stops,
kills, resets or waits in between, and whatever becomes of the processes and the files. -/
theorem log_of_millisecond (s : NodeSettings) (d : Disk) (clock nextPid : ℕ) (moves : List Move) :
    (∀ l ∈ (begin s d clock nextPid).launches moves,
      Node.Starts s l.before.host l.path l.after.node l.after.host) ∧
    ((begin s d clock nextPid).launches moves).Pairwise fun a b =>
      a.before.host.clock ≤ b.before.host.clock ∧
      (a.path = b.path ↔
        a.before.host.clock / Host.tickTime = b.before.host.clock / Host.tickTime) := by
  obtain ⟨hspec, hordered⟩ := launches_spec (v := begin s d clock nextPid) rfl moves
  refine ⟨fun l hl => (hspec l hl).2, hordered.imp_of_mem fun {a b} ha hb hle => ⟨hle, ?_⟩⟩
  rw [(hspec a ha).2.named, (hspec b hb).2.named]
  refine ⟨fun hpath => ?_, fun htime => by rw [htime]⟩
  exact LogName.ofMillis_injective (Path.join_injective s.logDir hpath)

/-! ### The log of another run -/

/-- A run logs a line and is killed, and the node is started again before the clock has moved on. -/
def restartedAtOnce : List Move :=
  let first : List Move := [.calls .start, .go 0]
  let logs := (((begin sleeper .empty 0 100).run first).host.disk.append
    "log/node-19700101-000000.000.log" "x\n".toUTF8.toList).toOption.getD .empty
  first ++ [.system (.files logs), .calls .kill, .go 1, .go 1, .calls .start, .go 2]

/-- **A start may come to the log of the run before,** with what that run has logged in it. -/
theorem log_shared_by_two_runs :
    ((begin sleeper .empty 0 100).launches restartedAtOnce).map
        (fun l => (l.path, l.after.host.disk.content l.path)) =
      [("log/node-19700101-000000.000.log", []),
        ("log/node-19700101-000000.000.log", "x\n".toUTF8.toList)] := by
  decide +kernel

end Company

end LogWatch
