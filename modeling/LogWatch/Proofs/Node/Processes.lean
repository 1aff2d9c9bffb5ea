import Mathlib
import LogWatch.Node

/-!
The table of processes, and what happens to it without us.

Numbers in the table are distinct, so whoever holds the number of a child that was not reaped has
hold of that child and of no other process. Whatever happens by itself, a child of ours stays in
the table until we reap it, and none that has ended runs again.
-/

namespace LogWatch

/-- What may become of a process as long as it keeps its number. -/
structure Process.Ages (p p' : Process) : Prop where
  pid : p'.pid = p.pid
  ours : p'.ours = p.ours
  life : p'.life.isRunning = true → p.life.isRunning = true

namespace Process.Ages

lemma refl (p : Process) : p.Ages p := ⟨rfl, rfl, id⟩

end Process.Ages

namespace Host

variable {h h' h'' : Host} {p : Process} {pid n : ℕ} {s : ExitStatus}

def pids (h : Host) : List ℕ := h.processes.map (·.pid)

/-- Whether there is a child of ours with the number, that runs or was not reaped. -/
def Owns (h : Host) (pid : ℕ) : Prop := ∃ p ∈ h.processes, p.pid = pid ∧ p.ours = true

lemma mem_children :
    pid ∈ h.children ↔
      ∃ p ∈ h.processes, p.pid = pid ∧ p.ours = true ∧ p.life.isRunning = true := by
  simp only [children, List.mem_map, List.mem_filter, Bool.and_eq_true]
  constructor
  · rintro ⟨p, ⟨hp, hours, hrunning⟩, hpid⟩
    exact ⟨p, hp, hpid, hours, hrunning⟩
  · rintro ⟨p, hp, hpid, hours, hrunning⟩
    exact ⟨p, ⟨hp, hours, hrunning⟩, hpid⟩

lemma nodup_children (hd : h.pids.Nodup) : h.children.Nodup :=
  hd.sublist (List.Sublist.map _ List.filter_sublist)

/-! ### Looking a process up -/

lemma process?_eq_none : h.process? pid = none ↔ pid ∉ h.pids := by
  simp [process?, pids]

lemma mem_of_process? (hp : h.process? pid = some p) : p ∈ h.processes ∧ p.pid = pid :=
  ⟨List.mem_of_find?_eq_some hp, by simpa using List.find?_some hp⟩

lemma eq_of_pid (hd : h.pids.Nodup) {p q : Process} (hp : p ∈ h.processes) (hq : q ∈ h.processes)
    (hpid : p.pid = q.pid) : p = q :=
  List.inj_on_of_nodup_map hd hp hq hpid

lemma process?_of_mem (hd : h.pids.Nodup) (hp : p ∈ h.processes) : h.process? p.pid = some p := by
  cases hfind : h.process? p.pid with
  | none => exact absurd (List.mem_map_of_mem hp) (process?_eq_none.mp hfind)
  | some q =>
    obtain ⟨hq, hpid⟩ := mem_of_process? hfind
    rw [eq_of_pid hd hq hp hpid]

lemma ended?_eq_some (hended : h.ended? pid = some s) :
    ∃ p ∈ h.processes, p.pid = pid ∧ p.life = .ended s := by
  unfold ended? at hended
  split at hended
  · rename_i number life ours guarded hfind
    obtain ⟨hmem, hpid⟩ := mem_of_process? hfind
    exact ⟨_, hmem, hpid, by rw [Option.some.inj hended]⟩
  · simp at hended

lemma ended?_of_life (hd : h.pids.Nodup) (hp : p ∈ h.processes) (hlife : p.life = .ended s) :
    h.ended? p.pid = some s := by
  unfold ended?
  rw [process?_of_mem hd hp]
  obtain ⟨number, life, ours, guarded⟩ := p
  obtain rfl : life = .ended s := hlife
  rfl

lemma mem_children_iff (hd : h.pids.Nodup) (howns : h.Owns pid) :
    pid ∈ h.children ↔ h.ended? pid = none := by
  obtain ⟨p, hp, rfl, hours⟩ := howns
  rw [mem_children]
  constructor
  · rintro ⟨q, hq, hpid, -, hrunning⟩
    obtain rfl := eq_of_pid hd hq hp hpid
    cases hended : h.ended? q.pid with
    | none => rfl
    | some s =>
      obtain ⟨q', hq', hpid', hlife⟩ := ended?_eq_some hended
      obtain rfl := eq_of_pid hd hq' hp hpid'
      rw [hlife] at hrunning
      cases hrunning
  · intro hnone
    refine ⟨p, hp, rfl, hours, ?_⟩
    cases hlife : p.life with
    | running m => rfl
    | ended s => simp [ended?_of_life hd hp hlife] at hnone

/-! ### What keeps the table -/

/-- What may become of the table: nobody of ours leaves it, and nobody comes to life. -/
structure Onward (h h' : Host) : Prop where
  distinct : h'.pids.Nodup
  owns : ∀ pid, h.Owns pid → h'.Owns pid
  children : h'.children ⊆ h.children

lemma Onward.trans (first : Onward h h') (second : Onward h' h'') : Onward h h'' :=
  ⟨second.distinct, fun pid howns => second.owns pid (first.owns pid howns),
    fun _ hmem => first.children (second.children hmem)⟩

lemma onward_of_eq (hd : h.pids.Nodup) (hsame : h'.processes = h.processes) : Onward h h' := by
  refine ⟨by rwa [pids, hsame], fun pid howns => ?_, fun pid hmem => ?_⟩
  · rwa [Owns, hsame]
  · rwa [Host.children, hsame] at hmem

lemma onward_of_map (hd : h.pids.Nodup) {f : Process → Process}
    (hages : ∀ p ∈ h.processes, p.Ages (f p)) (hmap : h'.processes = h.processes.map f) :
    Onward h h' := by
  refine ⟨?_, ?_, ?_⟩
  · have hpids : h'.pids = h.pids := by
      rw [pids, hmap, List.map_map]
      exact List.map_congr_left fun p hp => (hages p hp).pid
    rwa [hpids]
  · rintro pid ⟨p, hp, hpid, hours⟩
    exact ⟨f p, hmap ▸ List.mem_map_of_mem hp, (hages p hp).pid.trans hpid,
      (hages p hp).ours.trans hours⟩
  · intro pid hmem
    obtain ⟨q, hq, hpid, hours, hrunning⟩ := mem_children.mp hmem
    rw [hmap] at hq
    obtain ⟨p, hp, rfl⟩ := List.mem_map.mp hq
    exact mem_children.mpr ⟨p, hp, (hages p hp).pid.symm.trans hpid,
      (hages p hp).ours.symm.trans hours, (hages p hp).life hrunning⟩

lemma ages_setLife (hd : h.pids.Nodup) (hp : p ∈ h.processes) (hrunning : p.life.isRunning = true)
    (life : Life) : ∀ q ∈ h.processes, q.Ages (if q.pid = p.pid then { q with life } else q) := by
  intro q hq
  split
  · rename_i hpid
    obtain rfl := eq_of_pid hd hq hp hpid
    exact ⟨rfl, rfl, fun _ => hrunning⟩
  · exact .refl q

lemma onward_setLife (hd : h.pids.Nodup) (hp : p ∈ h.processes) (hrunning : p.life.isRunning = true)
    (life : Life) : Onward h (h.setLife p.pid life) :=
  onward_of_map hd (ages_setLife hd hp hrunning life) rfl

lemma pids_setLife (h : Host) (pid : ℕ) (life : Life) : (h.setLife pid life).pids = h.pids := by
  rw [pids, setLife, List.map_map]
  refine List.map_congr_left fun p _ => ?_
  simp only [Function.comp_apply]
  split <;> rfl

lemma onward_of_filter (hd : h.pids.Nodup) {keep : Process → Bool}
    (hours : ∀ p ∈ h.processes, p.ours = true → keep p = true)
    (hfilter : h'.processes = h.processes.filter keep) : Onward h h' := by
  refine ⟨?_, ?_, ?_⟩
  · rw [pids, hfilter]
    exact hd.sublist (List.Sublist.map _ List.filter_sublist)
  · rintro pid ⟨p, hp, hpid, hpours⟩
    exact ⟨p, hfilter ▸ List.mem_filter.mpr ⟨hp, hours p hp hpours⟩, hpid, hpours⟩
  · rw [children, hfilter]
    exact (List.Sublist.map _ (List.Sublist.filter _ List.filter_sublist)).subset

lemma onward_signal (hd : h.pids.Nodup) (hsignal : h.signal pid n = .ok h') : Onward h h' := by
  unfold signal at hsignal
  split at hsignal
  · simp at hsignal
  · simp at hsignal
  · rename_i number m ours hfind
    obtain ⟨hmem, rfl⟩ := mem_of_process? hfind
    split at hsignal <;>
      · obtain rfl := Except.ok.inj hsignal
        exact onward_setLife hd hmem rfl _
  · obtain rfl := Except.ok.inj hsignal
    exact onward_of_eq hd rfl

/-! ### Reaping -/

lemma pids_reap_sublist (h : Host) (pid : ℕ) : (h.reap pid).pids.Sublist h.pids :=
  List.Sublist.map _ List.filter_sublist

lemma children_reap (h : Host) (pid : ℕ) : (h.reap pid).children ⊆ h.children :=
  (List.Sublist.map _ (List.Sublist.filter _ List.filter_sublist)).subset

lemma notMem_pids_reap (h : Host) (pid : ℕ) : pid ∉ (h.reap pid).pids := by
  simp [pids, reap]

lemma notMem_children_reap (h : Host) (pid : ℕ) : pid ∉ (h.reap pid).children := by
  simp [children, reap]

lemma Owns.reap (howns : h.Owns pid) {other : ℕ} (hne : pid ≠ other) : (h.reap other).Owns pid := by
  obtain ⟨p, hp, rfl, hours⟩ := howns
  exact ⟨p, List.mem_filter.mpr ⟨hp, by simpa using hne⟩, rfl, hours⟩

/-! ### A new process -/

lemma le_foldl_max (xs : List ℕ) (start : ℕ) :
    start ≤ xs.foldl max start ∧ ∀ x ∈ xs, x ≤ xs.foldl max start := by
  induction xs generalizing start with
  | nil => simp
  | cons y xs ih =>
    obtain ⟨hstart, hall⟩ := ih (max start y)
    refine ⟨le_trans (le_max_left _ _) hstart, fun x hx => ?_⟩
    rcases List.mem_cons.mp hx with rfl | hx
    · exact le_trans (le_max_right _ _) hstart
    · exact hall x hx

lemma freePid_notMem (h : Host) : h.freePid ∉ h.pids := by
  unfold freePid
  split
  · rename_i hnone
    exact process?_eq_none.mp hnone
  · intro hmem
    have hle := (le_foldl_max h.pids 0).2 _ hmem
    change (h.pids.foldl max 0) + 1 ≤ _ at hle
    omega

lemma spawn_eq {c : Command} {log : ℕ} (hspawn : h.spawn c log = .ok (h', pid)) :
    pid = h.freePid ∧ h'.disk = h.disk ∧
      ∃ m, h'.processes = h.processes ++ [⟨h.freePid, .running m, true, false⟩] := by
  unfold spawn at hspawn
  cases hrefuses : h.refuses? c with
  | some e =>
    rw [hrefuses] at hspawn
    cases hspawn
  | none =>
    rw [hrefuses] at hspawn
    cases hprogram : h.program? c with
    | error e =>
      rw [hprogram] at hspawn
      cases hspawn
    | ok program =>
      rw [hprogram] at hspawn
      obtain ⟨rfl, rfl⟩ := Prod.mk.inj (Except.ok.inj hspawn)
      exact ⟨rfl, rfl, _, rfl⟩

section Started

variable (hnew : h'.processes = h.processes ++ [p])
include hnew

lemma nodup_pids_snoc (hd : h.pids.Nodup) (hfree : p.pid ∉ h.pids) : h'.pids.Nodup := by
  have hpids : h'.pids = h.pids ++ [p.pid] := by simp [pids, hnew]
  rw [hpids, List.nodup_append]
  refine ⟨hd, List.nodup_singleton _, fun x hx y hy => ?_⟩
  rw [List.mem_singleton.mp hy]
  rintro rfl
  exact hfree hx

lemma Owns.snoc (howns : h.Owns pid) : h'.Owns pid := by
  obtain ⟨q, hq, hrest⟩ := howns
  exact ⟨q, hnew ▸ List.mem_append_left _ hq, hrest⟩

lemma owns_snoc (hours : p.ours = true) : h'.Owns p.pid :=
  ⟨p, hnew ▸ List.mem_append_right _ (List.mem_singleton_self p), rfl, hours⟩

lemma children_snoc (hours : p.ours = true) (hrunning : p.life.isRunning = true) :
    h'.children = h.children ++ [p.pid] := by
  simp [children, hnew, hours, hrunning]

lemma onward_snoc (hd : h.pids.Nodup) (hfree : p.pid ∉ h.pids) (hours : p.ours = false) :
    Onward h h' :=
  ⟨nodup_pids_snoc hnew hd hfree, fun _ howns => howns.snoc hnew, by simp [children, hnew, hours]⟩

end Started

/-! ### What happens by itself -/

inductive Event where
  /-- Time passes, and every process does what is due. -/
  | tick
  /-- Time passes, and no process gets its turn. -/
  | passes (nanos : ℕ)
  | files (next : Disk)
  /-- The system starts nothing any more, or starts things again. -/
  | limits (e? : Option DiskError)
  | turnTo (pid : ℕ)
  /-- A process that runs goes on, or ends; the guard against our signals may come and go. -/
  | goes (pid : ℕ) (life : Life) (guarded : Bool)
  /-- Somebody else starts a process under a free number. -/
  | arrives (pid : ℕ) (life : Life) (guarded : Bool)
  /-- Somebody else reaps a process of theirs. -/
  | leaves (pid : ℕ)
deriving DecidableEq, Repr

def happen (h : Host) : Event → Host
  | .tick => h.tick
  | .passes nanos => { h with clock := h.clock + nanos }
  | .files next => { h with disk := next }
  | .limits e? => { h with limit? := e? }
  | .turnTo pid => { h with nextPid := pid }
  | .goes pid life guarded =>
    { h with processes := h.processes.map fun p =>
        if p.pid = pid ∧ p.life.isRunning then { p with life, guarded } else p }
  | .arrives pid life guarded =>
    if pid ∈ h.pids then h
    else { h with processes := h.processes ++ [⟨pid, life, false, guarded⟩] }
  | .leaves pid => { h with processes := h.processes.filter fun p => p.ours || p.pid ≠ pid }

lemma exists_map_turns (hd : h.pids.Nodup) (ps : List Process) (hps : ∀ p ∈ ps, p ∈ h.processes)
    (k : Host) (hk : ∃ f, (∀ p ∈ h.processes, p.Ages (f p)) ∧ k.processes = h.processes.map f) :
    ∃ f, (∀ p ∈ h.processes, p.Ages (f p)) ∧
      (ps.foldl Host.turn k).processes = h.processes.map f := by
  -- Over those whose turn is still to come; `f` is what has become of each process so far. A turn is
  -- taken by the process as it was before the tick, and sets its life by its number.
  induction ps generalizing k with
  | nil => exact hk
  | cons p ps ih =>
    refine ih (fun q hq => hps q (List.mem_cons_of_mem _ hq)) (k.turn p) ?_
    obtain ⟨f, hages, hmap⟩ := hk
    have hp := hps p List.mem_cons_self
    have hset : ∀ life (disk : Disk), p.life.isRunning = true →
        ∃ g, (∀ q ∈ h.processes, q.Ages (g q)) ∧
          ({ k with disk }.setLife p.pid life).processes = h.processes.map g := by
      intro life disk hrunning
      refine ⟨fun q => if (f q).pid = p.pid then { f q with life } else f q, fun q hq => ?_, ?_⟩
      · dsimp only
        split
        · rename_i hpid
          obtain rfl := eq_of_pid hd hq hp ((hages q hq).pid.symm.trans hpid)
          exact ⟨(hages q hq).pid, (hages q hq).ours, fun _ => hrunning⟩
        · exact hages q hq
      · simp only [setLife, hmap, List.map_map]
        rfl
    unfold turn
    cases hlife : p.life with
    | ended s => exact ⟨f, hages, hmap⟩
    | running m =>
      dsimp only
      split
      · exact hset _ _ (by rw [hlife]; rfl)
      · exact hset _ _ (by rw [hlife]; rfl)

lemma onward_turns (hd : h.pids.Nodup) :
    Onward h (h.processes.foldl turn { h with clock := h.clock + tickTime }) := by
  obtain ⟨f, hages, hmap⟩ := exists_map_turns hd h.processes (fun _ hp => hp)
    { h with clock := h.clock + tickTime } ⟨id, fun p _ => .refl p, by simp⟩
  exact onward_of_map hd hages hmap

/-! ### What the system does for scripts -/

lemma onward_heed (hd : h.pids.Nodup) : Onward h h.heed := by
  refine onward_of_eq hd ?_
  unfold heed
  split
  · rfl
  · dsimp only
    split <;> rfl

lemma onward_setGoing (hd : h.pids.Nodup) (hp : p ∈ h.processes)
    (hrunning : p.life.isRunning = true) (m : Script.Machine) (c : Script.Cmd) :
    Onward h (h.setGoing p.pid m c) := by
  unfold setGoing
  split
  · exact onward_of_map hd (ages_setLife hd hp hrunning _) rfl
  · have hset := onward_setLife hd hp hrunning (.running (m.besides h.freePid))
    refine hset.trans (onward_snoc rfl hset.distinct ?_ rfl)
    rw [pids_setLife]
    exact h.freePid_notMem

lemma onward_oblige (hd : h.pids.Nodup) (pid : ℕ) : Onward h (h.oblige pid) := by
  unfold oblige
  split
  · rename_i number m ours guarded hfind
    obtain ⟨hmem, rfl⟩ := mem_of_process? hfind
    split
    · exact onward_of_eq hd rfl
    · exact onward_setGoing hd hmem rfl m _
    · rename_i target n _
      -- the process learns that its signal was sent before the signal does anything
      have htold := fun status : ℕ =>
        onward_setLife hd hmem rfl (.running { m with wish? := none, status })
      dsimp only
      split
      · rename_i hsignal
        exact (htold 0).trans (onward_signal (htold 0).distinct hsignal)
      · exact (htold 1).trans (onward_of_eq (htold 1).distinct rfl)
  · exact onward_of_eq hd rfl

lemma onward_collect (hd : h.pids.Nodup) : Onward h h.collect := by
  have hkept : Onward h { h with processes := h.processes.filter fun p =>
      p.ours || p.life.isRunning } :=
    onward_of_filter hd (fun p _ hours => by simp [hours]) rfl
  refine hkept.trans (onward_of_map hkept.distinct (fun p _ => ?_) rfl)
  split
  · rename_i hlife
    exact ⟨rfl, rfl, fun _ => by rw [hlife]; rfl⟩
  · exact .refl p

lemma onward_attend (hd : h.pids.Nodup) : Onward h h.attend := by
  have hfold : ∀ (pids : List ℕ) (k : Host), Onward h k → Onward h (pids.foldl oblige k) := by
    intro pids
    induction pids with
    | nil => exact fun _ hk => hk
    | cons pid pids ih => exact fun k hk => ih _ (hk.trans (onward_oblige hk.distinct pid))
  have hobliged := hfold h.heed.pids h.heed (onward_heed hd)
  exact hobliged.trans (onward_collect hobliged.distinct)

lemma onward_tick (hd : h.pids.Nodup) : Onward h h.tick :=
  (onward_turns hd).trans (onward_attend (onward_turns hd).distinct)

/-- **What happens by itself never takes a child of ours away and brings none to life.** -/
theorem onward_happen (hd : h.pids.Nodup) (e : Event) : Onward h (h.happen e) := by
  cases e with
  | tick => exact onward_tick hd
  | passes nanos => exact onward_of_eq hd rfl
  | files next => exact onward_of_eq hd rfl
  | limits e? => exact onward_of_eq hd rfl
  | turnTo pid => exact onward_of_eq hd rfl
  | goes pid life guarded =>
    refine onward_of_map hd (fun p hp => ?_) rfl
    split
    · rename_i hruns
      exact ⟨rfl, rfl, fun _ => hruns.2⟩
    · exact .refl p
  | arrives pid life guarded =>
    simp only [happen]
    split
    · exact onward_of_eq hd rfl
    · rename_i hfree
      exact onward_snoc rfl hd hfree rfl
  | leaves pid => exact onward_of_filter hd (fun p _ hours => by simp [hours]) rfl

end Host

/-! ### Looking at a child -/

namespace Child

variable {c : Child} {h : Host}

/-- A look changes nothing, or it is the one that sees the end of the process and reaps it. -/
lemma look_cases (c : Child) (h : Host) :
    (c.look h = (c, h) ∧ (c.ended? = none → h.ended? c.pid = none)) ∨
      ∃ s, c.ended? = none ∧ h.ended? c.pid = some s ∧
        c.look h = (⟨c.pid, some s⟩, h.reap c.pid) := by
  unfold look
  cases hseen : c.ended? with
  | some s => exact .inl ⟨rfl, fun h => by cases h⟩
  | none =>
    cases hended : h.ended? c.pid with
    | none => exact .inl ⟨rfl, fun _ => rfl⟩
    | some s => exact .inr ⟨s, rfl, rfl, rfl⟩

end Child

end LogWatch
