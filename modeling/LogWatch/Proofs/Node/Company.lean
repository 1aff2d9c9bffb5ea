import Mathlib
import LogWatch.Proofs.Node.Call

/-!
Many callers of one node, each of whom may wait for as long as it likes between two of its steps.

A child that runs is always in somebody's hands: the node holds it, or one of the callers has taken
it out and waits for its end, or has given up on it because a signal was refused. So there are
never more children than hands. The node itself refuses to start a second one beside the one that
it holds, but it knows nothing of those that callers took out.
-/

namespace LogWatch

open Node (Order Reply Stage)

structure Company where
  node : Node
  host : Host
  /-- In the order in which they called, those included that have their answer. -/
  callers : List Node.Caller
deriving DecidableEq

namespace Company

inductive Move where
  | calls (o : Order)
  /-- The caller with this number goes on to where it waits next. -/
  | go (i : ℕ)
  /-- Somebody asks whether the node is alive. -/
  | asks
  | system (e : Host.Event)
deriving DecidableEq

/-- A node that was never started, on a machine on which no process runs yet. -/
def begin (s : NodeSettings) (d : Disk) (clock nextPid : ℕ) : Company :=
  ⟨.ofSettings s, ⟨d, clock, [], nextPid, none⟩, []⟩

def apply (v : Company) : Move → Company
  | .calls o => { v with callers := v.callers ++ [⟨o, .ready⟩] }
  | .go i =>
    match v.callers[i]? with
    | none => v
    | some w =>
      let ((node, host), stage) := v.node.step v.host w
      ⟨node, host, v.callers.set i { w with stage }⟩
  | .asks =>
    let ((node, host), _) := v.node.isAlive v.host
    { v with node, host }
  | .system e => { v with host := v.host.happen e }

def run (v : Company) (moves : List Move) : Company := moves.foldl apply v

@[simp] lemma run_nil (v : Company) : v.run [] = v := rfl
@[simp] lemma run_cons (v : Company) (m : Move) (moves : List Move) :
    v.run (m :: moves) = (v.apply m).run moves := rfl
lemma run_append (v : Company) (moves more : List Move) :
    v.run (moves ++ more) = (v.run moves).run more := by
  simp [run, List.foldl_append]

lemma apply_go {v : Company} {i : ℕ} {w : Node.Caller} (hw : v.callers[i]? = some w) :
    v.apply (.go i) = ⟨(v.node.step v.host w).1.1, (v.node.step v.host w).1.2,
      v.callers.set i ⟨w.order, (v.node.step v.host w).2⟩⟩ := by
  simp only [apply, hw]

lemma apply_go_of_none {v : Company} {i : ℕ} (hi : v.callers[i]? = none) :
    v.apply (.go i) = v := by
  simp only [apply, hi]

def handsOf (callers : List Node.Caller) : List Child := callers.filterMap (·.stage.hand?)

lemma handsOf_cons (w : Node.Caller) (callers : List Node.Caller) :
    handsOf (w :: callers) = w.stage.hand?.toList ++ handsOf callers := by
  cases hhand : w.stage.hand? <;> simp [handsOf, hhand]

/-- The children that callers took out of the node. -/
def hands (v : Company) : List Child := handsOf v.callers

end Company

/-! ### Who holds which child -/

/-- The numbers of the children that were not seen to have ended. -/
def unseen (cs : List Child) : List ℕ := (cs.filter (·.ended?.isNone)).map (·.pid)

lemma unseen_cons (c : Child) (cs : List Child) :
    unseen (c :: cs) = if c.ended? = none then c.pid :: unseen cs else unseen cs := by
  cases hseen : c.ended? <;> simp [unseen, hseen]

lemma mem_unseen {pid : ℕ} {cs : List Child} :
    pid ∈ unseen cs ↔ ∃ c ∈ cs, c.ended? = none ∧ c.pid = pid := by
  simp [unseen, and_assoc]

/-- The children that run are those of the node and of its callers, each held once. -/
structure Kept (held? : Option Child) (hands : List Child) (h : Host) : Prop where
  distinct : h.pids.Nodup
  /-- Also a child that was reaped has its number to itself, as long as the node holds it. -/
  apart : (held?.toList.map (·.pid) ++ unseen hands).Nodup
  owns : ∀ pid ∈ unseen (held?.toList ++ hands), h.Owns pid
  known : h.children ⊆ unseen (held?.toList ++ hands)

namespace Kept

variable {held? : Option Child} {hands rest : List Child} {h h' : Host} {c : Child} {pid : ℕ}
  {s : ExitStatus} {n n' : Node}

lemma onward (k : Kept held? hands h) (ho : h.Onward h') : Kept held? hands h' :=
  ⟨ho.distinct, k.apart, fun pid hpid => ho.owns pid (k.owns pid hpid),
    fun _ hmem => k.known (ho.children hmem)⟩

lemma disk (k : Kept held? hands h) (d : Disk) : Kept held? hands { h with disk := d } :=
  k.onward (Host.onward_of_eq k.distinct rfl)

lemma perm (k : Kept held? hands h) (hp : hands.Perm rest) : Kept held? rest h := by
  have hunseen : ∀ cs : List Child, (unseen (cs ++ hands)).Perm (unseen (cs ++ rest)) :=
    fun cs => ((hp.append_left cs).filter _).map _
  refine ⟨k.distinct, ?_, fun pid hpid => k.owns pid ((hunseen _).mem_iff.mpr hpid),
    fun pid hpid => (hunseen _).mem_iff.mp (k.known hpid)⟩
  exact ((hunseen []).append_left _).nodup_iff.mp k.apart

lemma take (k : Kept (some c) hands h) : Kept none (c :: hands) h := by
  refine ⟨k.distinct, ?_, k.owns, k.known⟩
  have hapart := k.apart
  simp only [Option.toList_some, List.map_cons, List.map_nil, List.singleton_append,
    Option.toList_none, List.nil_append] at hapart ⊢
  rw [unseen_cons]
  split
  · exact hapart
  · exact (List.nodup_cons.mp hapart).2

lemma forget (k : Kept (some c) hands h) (hseen : c.ended? ≠ none) : Kept none hands h := by
  have hsame : unseen ((some c).toList ++ hands) = unseen hands := by
    rw [Option.toList_some, List.singleton_append, unseen_cons, if_neg hseen]
  refine ⟨k.distinct, (List.nodup_append.mp k.apart).2.1, ?_, ?_⟩
  · exact fun pid hpid => k.owns pid (hsame ▸ hpid)
  · exact fun pid hpid => hsame ▸ k.known hpid

lemma spawn (k : Kept none hands h) {m : Script.Machine}
    (hnew : h'.processes = h.processes ++ [⟨h.freePid, .running m, true, false⟩]) :
    Kept (some ⟨h.freePid, none⟩) hands h' := by
  have hfree := Host.freePid_notMem h
  have hunseen : unseen ((some (⟨h.freePid, none⟩ : Child)).toList ++ hands) =
      h.freePid :: unseen hands := by
    rw [Option.toList_some, List.singleton_append, unseen_cons, if_pos rfl]
  refine ⟨Host.nodup_pids_snoc hnew k.distinct hfree, ?_, fun pid hpid => ?_, fun pid hpid => ?_⟩
  · refine List.nodup_cons.mpr ⟨fun hmem => ?_, k.apart⟩
    obtain ⟨p, hp, hpid, -⟩ := k.owns h.freePid hmem
    exact hfree (hpid ▸ List.mem_map_of_mem hp)
  · rw [hunseen] at hpid
    rcases List.mem_cons.mp hpid with rfl | hpid
    · exact Host.owns_snoc hnew rfl
    · exact (k.owns pid hpid).snoc hnew
  · rw [hunseen]
    rw [Host.children_snoc hnew rfl rfl] at hpid
    rcases List.mem_append.mp hpid with hpid | hpid
    · exact List.mem_cons_of_mem _ (k.known hpid)
    · rw [List.mem_singleton.mp hpid]
      exact List.mem_cons_self

lemma seen (k : Kept (some c) hands h) (hseen : Node.Seen c h s h') :
    Kept (some ⟨c.pid, some s⟩) hands h' := by
  have hsame : unseen ((some (⟨c.pid, some s⟩ : Child)).toList ++ hands) = unseen hands := by
    rw [Option.toList_some, List.singleton_append, unseen_cons, if_neg (by simp)]
  obtain ⟨pid, seen⟩ := c
  -- A look that sees the end reaps the child, so its number must leave the unseen ones with it, and
  -- nobody else's number may: that is what `apart` is for.
  cases hseen with
  | before hbefore =>
    obtain rfl : seen = some s := hbefore
    exact k
  | now hunseen =>
    obtain rfl : seen = none := hunseen
    have hwhole : unseen ((some (⟨pid, none⟩ : Child)).toList ++ hands) = pid :: unseen hands := by
      rw [Option.toList_some, List.singleton_append, unseen_cons, if_pos rfl]
    have hnot : pid ∉ unseen hands := (List.nodup_cons.mp k.apart).1
    refine ⟨k.distinct.sublist (h.pids_reap_sublist pid), k.apart, fun other hother => ?_,
      fun other hother => ?_⟩
    · rw [hsame] at hother
      refine (k.owns other (hwhole ▸ List.mem_cons_of_mem _ hother)).reap ?_
      rintro rfl
      exact hnot hother
    · have hmem := k.known (h.children_reap pid hother)
      rw [hwhole] at hmem
      rw [hsame]
      rcases List.mem_cons.mp hmem with rfl | hmem
      · exact absurd hother (h.notMem_children_reap other)
      · exact hmem

lemma bury (k : Kept held? (c :: rest) h) (hseen : Node.Seen c h s h') : Kept held? rest h' := by
  obtain ⟨pid, seen⟩ := c
  cases hseen with
  | before hbefore =>
    obtain rfl : seen = some s := hbefore
    have hsame : ∀ cs : List Child, unseen (cs ++ ⟨pid, some s⟩ :: rest) = unseen (cs ++ rest) := by
      simp [unseen]
    refine ⟨k.distinct, ?_, fun other hother => k.owns other (hsame _ ▸ hother),
      fun other hother => hsame _ ▸ k.known hother⟩
    have hapart := k.apart
    rwa [unseen_cons, if_neg (by simp)] at hapart
  | now hunseen =>
    obtain rfl : seen = none := hunseen
    have hwhole : ∀ other, other ∈ unseen (held?.toList ++ ⟨pid, none⟩ :: rest) ↔
        other = pid ∨ other ∈ unseen (held?.toList ++ rest) := by
      intro other
      simp only [mem_unseen, List.mem_append, List.mem_cons]
      constructor
      · rintro ⟨c, hc | rfl | hc, hunseen, rfl⟩
        · exact .inr ⟨c, .inl hc, hunseen, rfl⟩
        · exact .inl rfl
        · exact .inr ⟨c, .inr hc, hunseen, rfl⟩
      · rintro (rfl | ⟨c, hc | hc, hunseen, rfl⟩)
        · exact ⟨_, .inr (.inl rfl), rfl, rfl⟩
        · exact ⟨c, .inl hc, hunseen, rfl⟩
        · exact ⟨c, .inr (.inr hc), hunseen, rfl⟩
    -- the number that leaves the unseen ones stood there once, in this hand
    have hapart := k.apart
    rw [unseen_cons, if_pos rfl] at hapart
    have hnot : pid ∉ unseen (held?.toList ++ rest) := by
      intro hmem
      obtain ⟨c, hc, hunseen, hpid⟩ := mem_unseen.mp hmem
      obtain ⟨-, htail, hdisjoint⟩ := List.nodup_append.mp hapart
      rcases List.mem_append.mp hc with hc | hc
      · exact hdisjoint c.pid (List.mem_map_of_mem hc) pid List.mem_cons_self hpid
      · exact (List.nodup_cons.mp htail).1 (mem_unseen.mpr ⟨c, hc, hunseen, hpid⟩)
    refine ⟨k.distinct.sublist (h.pids_reap_sublist pid),
      hapart.sublist (List.Sublist.append_left (List.sublist_cons_self _ _) _),
      fun other hother => ?_, fun other hother => ?_⟩
    · refine (k.owns other ((hwhole other).mpr (.inr hother))).reap ?_
      rintro rfl
      exact hnot hother
    · rcases (hwhole other).mp (k.known (h.children_reap pid hother)) with rfl | hmem
      · exact absurd hother (h.notMem_children_reap other)
      · exact hmem

lemma down (k : Kept n.child? hands h) (hdown : Node.Down n h n' h') :
    Kept n'.child? hands h' ∧ Kept none hands h' := by
  cases hdown with
  | absent habsent => exact ⟨k, habsent ▸ k⟩
  | ended hheld hseen =>
    have k' := (hheld ▸ k).seen hseen
    exact ⟨k', k'.forget (by simp)⟩

lemma swept (k : Kept n.child? hands h) {r : Reply} (hswept : Node.Swept n h n' h' r) :
    Kept n'.child? hands h' := by
  cases hswept with
  | fails disk e => exact k.disk disk
  | wipes disk => exact k.disk disk

/-- **A step of a caller leaves every child in one pair of hands.** -/
theorem step {w : Node.Caller} {stage : Stage} (k : Kept n.child? (w.stage.hand?.toList ++ rest) h)
    (hstep : Node.Step n h w n' h' stage) : Kept n'.child? (stage.hand?.toList ++ rest) h' := by
  cases hstep with
  | refuses order ready | nobody order ready | watches order ready =>
    rwa [ready] at k
  | fails order ready hdown disk =>
    rw [ready] at k
    exact (k.down hdown).1.disk disk
  | starts order ready hdown hnew =>
    rw [ready] at k
    exact (k.down hdown).2.spawn hnew
  | sees order ready hheld hseen =>
    rw [ready, hheld] at k
    exact (k.seen hseen).forget (by simp)
  | sweeps order ready habsent hswept =>
    rw [ready] at k
    exact k.swept hswept
  | takes order ready hheld hhand honward =>
    rw [ready, hheld] at k
    rw [hhand]
    exact k.take.onward (honward k.distinct)
  | holds hhand hhand' honward =>
    rw [hhand] at k
    rw [hhand']
    exact k.onward (honward k.distinct)
  | concludes hhand hwaits hseen hconcluded =>
    rw [hhand] at k
    cases hconcluded with
    | ends => exact k.bury hseen
    | sweeps order hswept => exact (k.bury hseen).swept hswept
  | rests hdone => rwa [hdone] at k

lemma length_children_le (k : Kept held? hands h) :
    h.children.length ≤ held?.toList.length + hands.length := by
  calc
    h.children.length ≤ (unseen (held?.toList ++ hands)).length :=
      (Host.nodup_children k.distinct).length_le_of_subset k.known
    _ ≤ (held?.toList ++ hands).length := by
      rw [unseen, List.length_map]
      exact List.length_filter_le _ _
    _ = held?.toList.length + hands.length := List.length_append

/-- The child that the node holds runs unless it was seen to have ended or now would be. -/
lemma mem_children_iff (k : Kept (some c) hands h) :
    c.pid ∈ h.children ↔ c.ended? = none ∧ h.ended? c.pid = none := by
  constructor
  · intro hmem
    have hunseen : c.ended? = none := by
      obtain ⟨c', hc', hunseen, hpid⟩ := mem_unseen.mp (k.known hmem)
      rcases List.mem_cons.mp hc' with rfl | hc'
      · exact hunseen
      · exact absurd (mem_unseen.mpr ⟨c', hc', hunseen, hpid⟩) (List.nodup_cons.mp k.apart).1
    refine ⟨hunseen, (Host.mem_children_iff k.distinct ?_).mp hmem⟩
    exact k.owns c.pid (mem_unseen.mpr ⟨c, List.mem_cons_self, hunseen, rfl⟩)
  · rintro ⟨hunseen, hruns⟩
    refine (Host.mem_children_iff k.distinct ?_).mpr hruns
    exact k.owns c.pid (mem_unseen.mpr ⟨c, List.mem_cons_self, hunseen, rfl⟩)

lemma notMem_children_of_down (k : Kept n.child? hands h) (hdown : Node.Down n h n' h')
    (hpid : n.pid? = some pid) : pid ∉ h.children := by
  cases hdown with
  | absent habsent => simp [Node.pid?, habsent] at hpid
  | ended hheld hseen =>
    obtain rfl : _ = pid := by simpa [Node.pid?, hheld] using hpid
    intro hmem
    obtain ⟨hunseen, hruns⟩ := (hheld ▸ k).mem_children_iff.mp hmem
    cases hseen with
    | before hbefore => simp [hbefore] at hunseen
    | now _ hended => simp [hended] at hruns

/-- **A node is alive exactly as long as the child that it holds runs.** -/
theorem isAlive_iff (k : Kept n.child? hands h) :
    (n.isAlive h).2 = true ↔ ∃ pid, n.pid? = some pid ∧ pid ∈ h.children := by
  rcases Node.isAlive_cases n h with ⟨c, hheld, hunseen, hruns, halive⟩ | ⟨n', h', hdown, hdead⟩
  · rw [halive]
    refine ⟨fun _ => ⟨c.pid, by simp [Node.pid?, hheld], ?_⟩, fun _ => rfl⟩
    exact (hheld ▸ k).mem_children_iff.mpr ⟨hunseen, hruns⟩
  · rw [hdead]
    refine ⟨by simp, ?_⟩
    rintro ⟨pid, hpid, hmem⟩
    exact absurd hmem (k.notMem_children_of_down hdown hpid)

lemma start_refuses_iff (k : Kept n.child? hands h) (pid : ℕ) :
    (n.start h).2 = .error (.alreadyRunning pid) ↔ n.pid? = some pid ∧ pid ∈ h.children := by
  rcases n.start_cases h with ⟨c, hheld, hunseen, hruns, hstart⟩ |
    ⟨n', h', disk, e, hdown, hmishap, hstart⟩ | ⟨n', h', h'', m, path, hdown, -, hstart⟩
  · have hmem := (hheld ▸ k).mem_children_iff.mpr ⟨hunseen, hruns⟩
    rw [hstart, Node.pid?, hheld]
    simp only [Except.error.injEq, NodeError.alreadyRunning.injEq, Option.map_some,
      Option.some.injEq]
    exact ⟨fun hpid => ⟨hpid, hpid ▸ hmem⟩, And.left⟩
  · rw [hstart]
    refine ⟨fun he => ?_, fun hpid => absurd hpid.2 (k.notMem_children_of_down hdown hpid.1)⟩
    rw [Except.error.inj he] at hmishap
    cases hmishap
  · rw [hstart]
    exact ⟨by simp, fun hpid => absurd hpid.2 (k.notMem_children_of_down hdown hpid.1)⟩

end Kept

namespace Company

variable {v : Company}

def Holds (v : Company) : Prop := Kept v.node.child? v.hands v.host

lemma holds_begin (s : NodeSettings) (d : Disk) (clock nextPid : ℕ) :
    (begin s d clock nextPid).Holds :=
  ⟨.nil, .nil, by simp [unseen, begin, Node.ofSettings, hands, handsOf],
    by simp [begin, Host.children]⟩

lemma Holds.go (hv : v.Holds) (i : ℕ) : (v.apply (.go i)).Holds := by
  cases hw : v.callers[i]? with
  | none => rwa [apply_go_of_none hw]
  | some w =>
    -- The caller comes to the front, takes the step there, and goes back to its place.
    obtain ⟨hi, hget⟩ := List.getElem?_eq_some_iff.mp hw
    have hbefore : v.hands.Perm (w.stage.hand?.toList ++ handsOf (v.callers.eraseIdx i)) := by
      rw [← handsOf_cons, ← hget]
      exact (List.getElem_cons_eraseIdx_perm hi).symm.filterMap _
    have hafter := (Kept.perm hv hbefore).step (v.node.step_spec v.host w)
    rw [apply_go hw]
    refine hafter.perm ?_
    rw [← handsOf_cons ⟨w.order, (v.node.step v.host w).2⟩]
    exact (List.set_perm_cons_eraseIdx hi _).symm.filterMap _

lemma Holds.apply (hv : v.Holds) (m : Move) : (v.apply m).Holds := by
  cases m with
  | go i => exact hv.go i
  | calls o =>
    have hhands : (v.apply (.calls o)).hands = v.hands := by
      simp [Company.apply, hands, handsOf, Stage.hand?]
    rw [Holds, hhands]
    exact hv
  | system e => exact Kept.onward hv (Host.onward_happen hv.distinct e)
  | asks =>
    rcases Node.isAlive_cases v.node v.host with ⟨c, -, -, -, halive⟩ | ⟨n, h, hdown, hdead⟩
    · simp only [Company.apply, halive]
      exact hv
    · simp only [Company.apply, hdead]
      exact (Kept.down hv hdown).1

lemma Holds.run (hv : v.Holds) (moves : List Move) : (v.run moves).Holds := by
  induction moves generalizing v with
  | nil => exact hv
  | cons m moves ih => exact ih (hv.apply m)

/-- How many children there can be, and when a start is refused. -/
structure Bounded (v : Company) : Prop where
  /-- Each child is held by the node or by one caller. -/
  children : v.host.children.length ≤ v.node.child?.toList.length + v.hands.length
  apart : v.host.children.Nodup
  refuses : ∀ pid, (v.node.start v.host).2 = .error (.alreadyRunning pid) ↔
    v.node.pid? = some pid ∧ pid ∈ v.host.children
  /-- Unless a caller holds a child, there is at most one, and a start is refused while it runs. -/
  alone : v.hands = [] → v.host.children.length ≤ 1 ∧
    ∀ pid, (v.node.start v.host).2 = .error (.alreadyRunning pid) ↔ pid ∈ v.host.children

/-- **There are never more children than hands that hold them,** one of them the node's; a start is
refused exactly while the child runs that the node holds. This is so at every moment, whoever waits
for whatever in between. -/
theorem children_in_hands (s : NodeSettings) (d : Disk) (clock nextPid : ℕ) (moves : List Move) :
    ((begin s d clock nextPid).run moves).Bounded := by
  have hv := (holds_begin s d clock nextPid).run moves
  set v := (begin s d clock nextPid).run moves
  refine ⟨Kept.length_children_le hv, Host.nodup_children hv.distinct, Kept.start_refuses_iff hv,
    fun hnone => ⟨?_, fun pid => ?_⟩⟩
  · have hle := Kept.length_children_le hv
    have hone : v.node.child?.toList.length ≤ 1 := by cases v.node.child? <;> simp
    rw [hnone, List.length_nil] at hle
    omega
  · rw [Kept.start_refuses_iff hv]
    refine ⟨And.right, fun hmem => ⟨?_, hmem⟩⟩
    obtain ⟨c, hc, -, rfl⟩ := mem_unseen.mp (hv.known hmem)
    rw [hnone, List.append_nil, Option.mem_toList] at hc
    rw [Node.pid?, hc]
    rfl

/-! ### Two at a time -/

/-- A node that sleeps. -/
def sleeper : NodeSettings := ⟨⟨"sleep", ["9"], .empty, none⟩, "log", none, 10000⟩

/-- A program that does not mind being asked to end. -/
def stubborn : Script.Machine := { Script.Machine.blank 100 0 with traps := [(15, "")] }

/-- One caller starts the node, another one stops it and waits, and a third one starts it again. -/
def overlapping : List Move :=
  [.calls .start, .go 0, .system (.goes 100 (.running stubborn) false), .calls .stop, .go 1,
    .system (.passes 5000000), .calls .start, .go 2]

/-- **Two children run at once** when a start comes while a stop waits for the end of the child
that it has taken out of the node: the start is not refused. -/
theorem two_children_at_once :
    ((begin sleeper .empty 0 100).run overlapping).host.children = [100, 101] ∧
    ((begin sleeper .empty 0 100).run overlapping).node.pid? = some 101 ∧
    ((begin sleeper .empty 0 100).run overlapping).hands = [⟨100, none⟩] ∧
    ((begin sleeper .empty 0 100).run overlapping).callers.map (·.stage.reply?) =
      [some (.started "log/node-19700101-000000.000.log"), none,
        some (.started "log/node-19700101-000000.005.log")] := by
  decide +kernel

end Company

end LogWatch
