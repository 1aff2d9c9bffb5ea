import Mathlib
import LogWatch.Proofs.Harness.Site
import LogWatch.Proofs.Node.Alone

/-!
A call that nobody interferes with.

What `Harness.start`, `stop`, `restart` and `reset` do in one go is what the steps of a lone caller
come to, when the only others who move are the follower of a listener on its way in or out, and the
machine while the node is waited for. A tick of the harness is a tick of the machine and a turn of
each follower. So whatever holds of all runs of a site holds of these.
-/

namespace LogWatch

namespace Harness

/-- What an order comes to in one go. -/
def carryOut (x : Harness) (h : Host) : Order → (Harness × Host) × Reply
  | .start => ((x.start h).1, answer .listening (x.start h).2)
  | .stop => ((x.stop h).1, answer .ended (x.stop h).2)
  | .restart => ((x.restart h).1, answer .listening (x.restart h).2)
  | .reset => ((x.reset h).1, answer (fun _ => .wiped) (x.reset h).2)
where
  answer {α : Type} (f : α → Reply) : Except HarnessError α → Reply
    | .ok a => f a
    | .error e => .failed e

end Harness

namespace Company

lemma length_callers_apply (v : Company) (m : Move) :
    v.callers.length ≤ (v.apply m).callers.length := by
  cases m with
  | calls o => simp [apply]
  | go i =>
    cases hw : v.callers[i]? with
    | none => rw [apply_go_of_none hw]
    | some w => simp [apply_go hw]
  | asks | system e => exact le_rfl

lemma length_callers_run (v : Company) (moves : List Move) :
    v.callers.length ≤ (v.run moves).callers.length := by
  induction moves generalizing v with
  | nil => exact le_rfl
  | cons m moves ih => exact (length_callers_apply v m).trans (ih (v.apply m))

end Company

namespace World

lemma exists_run_eq_untilAsks (d : Disk) (now : ℕ) (l : Listener) :
    ∃ n, (begin d l).run (List.replicate n (.follow now)) = begin d (l.untilAsks d now) :=
  exists_run_eq_advanceBy d now (l.stepsAhead d) l

lemma exists_run_eq_resume (d : Disk) (now : ℕ) (r : Report) (l : Listener) :
    ∃ n, (begin d l).run (.answer r :: List.replicate n (.follow now)) =
      begin d (l.resume d now r) :=
  exists_run_eq_untilAsks d now (l.answer d r)

end World

namespace Site

open Harness (Order Reply Stage)

variable {o : Order} {past : List Harness.Caller} {x : Harness} {h : Host} {s : Stage}
  {a b c : (Harness × Host) × Stage}

/-- A site with one caller at this stage, at which no follower holds a line. -/
structure Stands (y : Site) (past : List Harness.Caller) (o : Order)
    (a : (Harness × Host) × Stage) : Prop where
  harness : y.harness = a.1.1
  host : y.host = a.1.2
  callers : y.callers = past ++ [⟨o, a.2⟩]
  hand : ∀ i, y.hand i = none

/-- From one standing of the caller a run leads to the other. -/
def Leads (past : List Harness.Caller) (o : Order) (a b : (Harness × Host) × Stage) : Prop :=
  ∀ y : Site, y.Stands past o a → ∃ moves, (y.run moves).Stands past o b

lemma Leads.refl (a : (Harness × Host) × Stage) : Leads past o a a := fun _ hy => ⟨[], hy⟩

lemma Leads.trans (first : Leads past o a b) (second : Leads past o b c) : Leads past o a c := by
  intro y hy
  obtain ⟨moves, hmoves⟩ := first y hy
  obtain ⟨more, hmore⟩ := second _ hmoves
  exact ⟨moves ++ more, by rwa [run_append]⟩

/-! ### The moves of the others -/

lemma leads_step (x : Harness) (h : Host) (s : Stage) :
    Leads past o ((x, h), s) (x.step h ⟨o, s⟩) := by
  intro y hy
  refine ⟨[.go], ?_⟩
  rw [run_cons, run_nil, apply_go hy.callers, hy.harness, hy.host]
  exact ⟨rfl, rfl, rfl, hy.hand⟩

lemma leads_system (x : Harness) (h : Host) (s : Stage) (e : Host.Event) :
    Leads past o ((x, h), s) ((x, h.happen e), s) := fun _ hy =>
  ⟨[.system e], hy.harness, congrArg (Host.happen · e) hy.host, hy.callers, hy.hand⟩

lemma leads_asks (x : Harness) (h : Host) (s : Stage) :
    Leads past o ((x, h), s)
      (({ x with node := (x.node.isAlive h).1.1 }, (x.node.isAlive h).1.2), s) := by
  intro y hy
  obtain ⟨rfl, rfl⟩ : y.harness = x ∧ y.host = h := ⟨hy.harness, hy.host⟩
  exact ⟨[.asks], rfl, rfl, hy.callers, hy.hand⟩

lemma run_seat (y : Site) {i : ℕ} (hi : i < y.harness.listeners.length)
    (moves : List LogWatch.Move) (hown : ∀ m ∈ moves, m.isOwn = true) :
    y.run (moves.map (.seat i)) =
      { y with
        harness.listeners := y.harness.listeners.set i ((y.view i).run moves).listener
        hand := Function.update y.hand i ((y.view i).run moves).hand } := by
  induction moves generalizing y with
  | nil =>
    simp [view, List.getElem?_eq_getElem hi]
  | cons m moves ih =>
    obtain ⟨hm, hmoves⟩ := List.forall_mem_cons.mp hown
    have hview := view_seat hi hm (j := i)
    rw [if_pos rfl] at hview
    rw [List.map_cons, run_cons, ih _ (by simp [apply, hm, hi]) hmoves, hview, World.run_cons]
    simp [apply, hm]

lemma run_seat_modify (y : Site) (hidle : ∀ i, y.hand i = none) {i : ℕ}
    (hi : i < y.harness.listeners.length) (f : Listener → Listener) (moves : List LogWatch.Move)
    (hown : ∀ m ∈ moves, m.isOwn = true)
    (hrun : (World.begin y.host.disk (y.harness.listeners.getD i .detached)).run moves =
      World.begin y.host.disk (f (y.harness.listeners.getD i .detached))) :
    y.run (moves.map (.seat i)) =
      { y with harness.listeners := y.harness.listeners.modify i f } := by
  have hset : y.harness.listeners.modify i f =
      y.harness.listeners.set i (f (y.harness.listeners.getD i .detached)) := by
    rw [List.modify_eq_set_get f hi]
    simp [List.getElem?_eq_getElem hi]
  have hview : y.view i = World.begin y.host.disk (y.harness.listeners.getD i .detached) := by
    rw [view, hidle i]
    rfl
  have hhand : Function.update y.hand i none = y.hand :=
    Function.update_eq_self_iff.mpr (hidle i).symm
  rw [run_seat y hi moves hown, hview, hrun, hset]
  simp only [World.begin, hhand]

lemma leads_seat {i : ℕ} (f : Listener → Listener) (moves : List LogWatch.Move)
    (hown : ∀ m ∈ moves, m.isOwn = true)
    (hrun : (World.begin h.disk (x.listeners.getD i .detached)).run moves =
      World.begin h.disk (f (x.listeners.getD i .detached))) (hi : i < x.listeners.length) :
    Leads past o ((x, h), s) (({ x with listeners := x.listeners.modify i f }, h), s) := by
  intro y hy
  obtain ⟨rfl, rfl⟩ : y.harness = x ∧ y.host = h := ⟨hy.harness, hy.host⟩
  refine ⟨moves.map (.seat i), ?_⟩
  rw [run_seat_modify y hy.hand hi f moves hown hrun]
  exact ⟨rfl, rfl, hy.callers, hy.hand⟩

lemma leads_untilAsks {i : ℕ} (hi : i < x.listeners.length) :
    Leads past o ((x, h), s)
      (({ x with listeners := x.listeners.modify i (·.untilAsks h.disk h.clock) }, h), s) := by
  obtain ⟨n, hn⟩ :=
    World.exists_run_eq_untilAsks h.disk h.clock (x.listeners.getD i .detached)
  exact leads_seat _ _ (by simp [LogWatch.Move.isOwn]) hn hi

lemma leads_resume {i : ℕ} (hi : i < x.listeners.length) (r : Report) :
    Leads past o ((x, h), s)
      (({ x with listeners := x.listeners.modify i (·.resume h.disk h.clock r) }, h), s) := by
  obtain ⟨n, hn⟩ :=
    World.exists_run_eq_resume h.disk h.clock r (x.listeners.getD i .detached)
  exact leads_seat _ _ (by simp [LogWatch.Move.isOwn]) hn hi

/-! ### Stopping the listener that leaves the slot -/

lemma leads_retiring {j : ℕ} (hj : j < x.listeners.length) (next? : Option ℕ) :
    Leads past o ((x, h), .retiring j false next?) ((x.silence h j, h), o.afterwards next?) := by
  cases hfollows : x.follows j with
  | false =>
    have hsame : x.silence h j = x := by
      have hidle : (x.listeners[j]).isFollowing = false := by
        simpa [Harness.follows, List.getElem?_eq_getElem hj] using hfollows
      simp only [Harness.silence, List.modify_eq_set_get _ hj, List.get_eq_getElem, Listener.stop,
        hidle, Bool.false_eq_true, if_false, List.set_getElem_self]
    have hstep : Leads past o _ _ := leads_step x h (.retiring j false next?)
    simpa only [Harness.step, hfollows, hsame] using hstep
  | true =>
    have hbusy : (x.listeners[j]).isFollowing = true := by
      simpa [Harness.follows, List.getElem?_eq_getElem hj] using hfollows
    set stopped : Listener → Listener := fun l =>
      (l.requestStop.untilAsks h.disk h.clock).resume h.disk h.clock (.path x.node.logPath?)
      with hstopped
    have hidle : (stopped (x.listeners[j])).isFollowing = false := by
      have hover := Listener.isFollowing_stop h.disk h.clock (.path x.node.logPath?) x.listeners[j]
      rwa [Listener.stop, if_pos hbusy] at hover
    -- it is told to stop, goes on until it asks, and has its answer
    have htold : Leads past o ((x, h), .retiring j false next?)
        (({ x with listeners := x.listeners.modify j stopped }, h), .retiring j true next?) := by
      have hstep : Leads past o _ _ := leads_step x h (.retiring j false next?)
      simp only [Harness.step, hfollows] at hstep
      refine hstep.trans ((leads_untilAsks (by simpa using hj)).trans ?_)
      have hlast : Leads past o _ _ := leads_resume (h := h) (s := .retiring j true next?)
        (x := { x with
          listeners := (x.listeners.modify j (·.requestStop)).modify j
            (·.untilAsks h.disk h.clock) })
        (i := j) (by simpa using hj) (.path x.node.logPath?)
      simp only [List.modify_modify_eq] at hlast ⊢
      exact hlast
    -- then it is over, and whoever has waited for it closes it
    have hclose : Leads past o _ _ := leads_step
      { x with listeners := x.listeners.modify j stopped } h (.retiring j true next?)
    have hover : Harness.follows { x with listeners := x.listeners.modify j stopped } j =
        false := by
      rw [Harness.follows, Harness.getD_modify hj, if_pos rfl]
      simpa [List.getElem?_eq_getElem hj] using hidle
    simp only [Harness.step, hover, List.modify_modify_eq] at hclose
    refine htold.trans ?_
    have hsilence : x.silence h j =
        { x with listeners := x.listeners.modify j ((·.closeStopped) ∘ stopped) } := by
      simp only [Harness.silence, List.modify_eq_set_get _ hj, List.get_eq_getElem, Listener.stop,
        hbusy, if_true, Function.comp, hstopped]
    rw [hsilence]
    exact hclose

/-! ### What the node is told to do -/

/-- A run of a lone caller of the node is one of the caller of the harness who waits for it. -/
lemma leads_node {order : Node.Order} {f : Node.Stage → Stage}
    (hf : ∀ n h stage, stage.reply? = none →
      Harness.step { x with node := n } h ⟨o, f stage⟩ =
        (({ x with node := (n.step h ⟨order, stage⟩).1.1 }, (n.step h ⟨order, stage⟩).1.2),
          f (n.step h ⟨order, stage⟩).2)) (moves : List Company.Move) :
    ∀ {n n' : Node} {h h' : Host} {stage stage' : Node.Stage},
      (Company.alone order ((n, h), stage)).run moves = Company.alone order ((n', h'), stage') →
      Leads past o (({ x with node := n }, h), f stage)
        (({ x with node := n' }, h'), f stage') := by
  -- Move by move. Nobody else can have called, since callers are never forgotten; and a move of a
  -- caller who has an answer, or of one who is not there, is none.
  induction moves with
  | nil =>
    intro n n' h h' stage stage' hrun
    have hsame := hrun
    simp only [Company.run_nil, Company.alone, Company.mk.injEq, List.cons.injEq, and_true,
      Node.Caller.mk.injEq, true_and] at hsame
    obtain ⟨rfl, rfl, rfl⟩ := hsame
    exact .refl _
  | cons m moves ih =>
    intro n n' h h' stage stage' hrun
    rw [Company.run_cons] at hrun
    cases m with
    | calls other =>
      have hlonger := Company.length_callers_run
        ((Company.alone order ((n, h), stage)).apply (.calls other)) moves
      rw [hrun] at hlonger
      simp [Company.alone, Company.apply] at hlonger
    | system e => exact (leads_system _ h _ e).trans (ih hrun)
    | asks => exact (leads_asks _ h _).trans (ih hrun)
    | go k =>
      cases k with
      | succ k =>
        have hsame : (Company.alone order ((n, h), stage)).apply (.go (k + 1)) =
            Company.alone order ((n, h), stage) := Company.apply_go_of_none rfl
        rw [hsame] at hrun
        exact ih hrun
      | zero =>
        cases hreply : stage.reply? with
        | none =>
          rw [Company.go_alone] at hrun
          have hstep : Leads past o _ _ := leads_step { x with node := n } h (f stage)
          rw [hf n h stage hreply] at hstep
          exact hstep.trans (ih hrun)
        | some r =>
          have hsame : (Company.alone order ((n, h), stage)).apply (.go 0) =
              Company.alone order ((n, h), stage) :=
            Company.apply_go_of_reply rfl (by simp [hreply])
          rw [hsame] at hrun
          exact ih hrun

lemma leads_calling (x : Harness) (h : Host) {order : Node.Order} {n : Node} {h' : Host}
    {r : Node.Reply} (hnode : Company.ComesTo x.node h order ((n, h'), some r)) :
    Leads past o ((x, h), .calling ⟨order, .ready⟩) (({ x with node := n }, h'), o.settle r) := by
  obtain ⟨moves, stage, hrun, hreply⟩ := hnode
  have hleads : Leads past o _ _ := leads_node (x := x) (f := fun t => o.proceed ⟨order, t⟩)
    (fun n h t ht => by simp only [Order.proceed, ht, Harness.step]) moves hrun
  simp only [Order.proceed, hreply] at hleads
  exact hleads

lemma leads_cleaning (x : Harness) (h : Host) (e : ListenError) :
    Leads past o ((x, h), .cleaning .ready e)
      (({ x with node := (x.node.kill h).1.1 }, (x.node.kill h).1.2),
        .done (.failed (.listener e))) := by
  obtain ⟨moves, stage, hrun, hreply⟩ := Company.comesTo_carryOut x.node 0 h .kill
  have hleads : Leads past o _ _ := leads_node (x := x) (f := Harness.cleaned e)
    (fun n h t ht => by simp only [Harness.cleaned, ht, Harness.step]) moves hrun
  simp only [Harness.cleaned, hreply] at hleads
  exact hleads

/-! ### The calls -/

lemma leads_started (x : Harness) (h : Host) (hslot : x.slot < x.listeners.length) (path : String) :
    Leads past o ((x, h), .started path)
      ((x.attach h).1, .done (Harness.carryOut.answer .listening (x.attach h).2)) := by
  have hlook : Leads past o _ _ := leads_step x h (.started path)
  refine hlook.trans ?_
  simp only [Harness.step]
  rcases hask : x.node.isAlive h with ⟨⟨n, h'⟩, alive⟩
  simp only [Harness.attach, hask]
  -- without a listener to enroll the node is cleaned up again
  cases hengage : Harness.engage { x with node := n } h' alive with
  | error e =>
    have hmiss : Leads past o _ _ := leads_step { x with node := n } h' (.attaching path alive)
    simp only [Harness.step, hengage] at hmiss
    exact hmiss.trans (leads_cleaning _ _ e)
  | ok l =>
    have hattach : Leads past o _ _ :=
      leads_step { x with node := n } h' (.attaching path alive)
    simp only [Harness.step, hengage] at hattach
    refine hattach.trans ?_
    have hnew : (x.listeners ++ [l]).modify x.listeners.length (·.untilAsks h'.disk h'.clock) =
        x.listeners ++ [l.untilAsks h'.disk h'.clock] := by
      rw [List.modify_eq_set_get _ (by simp)]
      simp
    have huntil : Leads past o _ _ := leads_untilAsks (h := h')
      (s := .placing x.listeners.length) (x := (Harness.enroll { x with node := n } l).1)
      (i := x.listeners.length) (by simp [Harness.enroll])
    simp only [Harness.enroll, hnew] at huntil ⊢
    refine huntil.trans ?_
    have hplace : Leads past o _ _ := leads_step
      (Harness.enroll { x with node := n } (l.untilAsks h'.disk h'.clock)).1 h'
      (.placing x.listeners.length)
    simp only [Harness.step, Harness.enroll] at hplace
    refine hplace.trans ?_
    exact leads_retiring (by simp; omega) _

lemma leads_start (x : Harness) (h : Host) (hslot : x.slot < x.listeners.length) :
    Leads past o ((x, h), .calling ⟨.start, .ready⟩)
      ((x.start h).1, .done (Harness.carryOut.answer .listening (x.start h).2)) := by
  have hcall : Leads past o _ _ := leads_calling x h
    (Company.comesTo_start x.node 0 h)
  rw [Harness.start]
  rcases hstart : x.node.start h with ⟨⟨n, h'⟩, e | path⟩
  · simp only [hstart, Node.Reply.of, Order.settle] at hcall
    exact hcall
  · simp only [hstart, Node.Reply.of, Order.settle] at hcall
    exact hcall.trans (leads_started { x with node := n } h' hslot path)

lemma leads_detach (x : Harness) (h : Host) (hslot : x.slot < x.listeners.length)
    (ho : ¬ (o = .start ∨ (o = .restart ∧ x.node.pid? = none))) :
    Leads past o ((x, h), .ready) ((x.detach h, h), .calling ⟨o.onNode, .ready⟩) := by
  have hstep : Leads past o _ _ := leads_step x h .ready
  simp only [Harness.step, if_neg ho] at hstep
  refine hstep.trans ?_
  exact leads_retiring (by simp [Harness.place, Harness.enroll]; omega) none

lemma slot_lt_detach (x : Harness) (h : Host) :
    (x.detach h).slot < (x.detach h).listeners.length := by
  simp [Harness.detach, Harness.silence, Harness.place, Harness.enroll]

lemma leads_stop (x : Harness) (h : Host) (hslot : x.slot < x.listeners.length) :
    Leads past .stop ((x, h), .ready)
      ((x.stop h).1, .done (Harness.carryOut.answer .ended (x.stop h).2)) := by
  refine (leads_detach x h hslot (by simp)).trans ?_
  have hcall : Leads past .stop _ _ := leads_calling (x.detach h) h
    (Company.comesTo_stop (x.detach h).node 0 h)
  rw [Harness.stop]
  rcases hstop : (x.detach h).node.stop h with ⟨⟨n, h'⟩, e | s⟩ <;>
    simp only [hstop, Node.Reply.of, Order.settle, reduceCtorEq, if_false] at hcall
  all_goals exact hcall

lemma leads_reset (x : Harness) (h : Host) (hslot : x.slot < x.listeners.length) :
    Leads past .reset ((x, h), .ready)
      ((x.reset h).1, .done (Harness.carryOut.answer (fun _ => .wiped) (x.reset h).2)) := by
  refine (leads_detach x h hslot (by simp)).trans ?_
  have hcall : Leads past .reset _ _ := leads_calling (x.detach h) h
    (Company.comesTo_reset (x.detach h).node 0 h)
  rw [Harness.reset]
  rcases hreset : (x.detach h).node.reset h with ⟨⟨n, h'⟩, e | u⟩ <;>
    simp only [hreset, Node.Reply.of, Order.settle] at hcall
  all_goals exact hcall

lemma leads_restart (x : Harness) (h : Host) (hslot : x.slot < x.listeners.length) :
    Leads past .restart ((x, h), .ready)
      ((x.restart h).1, .done (Harness.carryOut.answer .listening (x.restart h).2)) := by
  rw [Harness.restart]
  cases hpid : x.node.pid? with
  -- no child runs, so there is nothing to stop first
  | none =>
    have hstep : Leads past .restart _ _ := leads_step x h .ready
    simp only [Harness.step, hpid, and_self, or_true, if_true] at hstep
    exact hstep.trans (leads_start x h hslot)
  | some pid =>
    refine (leads_detach x h hslot (by simp [hpid])).trans ?_
    have hcall : Leads past .restart _ _ := leads_calling (x.detach h) h
      (Company.comesTo_stop (x.detach h).node 0 h)
    rw [Harness.stop]
    rcases hstop : (x.detach h).node.stop h with ⟨⟨n, h'⟩, e | s⟩
    · simp only [hstop, Node.Reply.of, Order.settle] at hcall
      exact hcall
    · simp only [hstop, Node.Reply.of, Order.settle, if_true] at hcall
      exact hcall.trans (leads_start { x.detach h with node := n } h' (slot_lt_detach x h))

lemma leads_carryOut (x : Harness) (h : Host) (o : Order) (hslot : x.slot < x.listeners.length) :
    Leads past o ((x, h), .ready) ((x.carryOut h o).1, .done (x.carryOut h o).2) := by
  cases o with
  | start =>
    have hstep : Leads past .start _ _ := leads_step x h .ready
    simp only [Harness.step, true_or, if_true] at hstep
    exact hstep.trans (leads_start x h hslot)
  | stop => exact leads_stop x h hslot
  | restart => exact leads_restart x h hslot
  | reset => exact leads_reset x h hslot

/-- **What the harness does in one go is a run of the site,** with nobody but the followers and
the machine in between. -/
theorem exists_run_eq_carryOut (v : Site) (o : Order) (hfree : v.isFree = true)
    (hidle : ∀ i, v.hand i = none) (hslot : v.harness.slot < v.harness.listeners.length) :
    ∃ moves, (v.run (.calls o :: moves)).Stands v.callers o
      ((v.harness.carryOut v.host o).1, .done (v.harness.carryOut v.host o).2) := by
  have hready : (v.apply (.calls o)).Stands v.callers o ((v.harness, v.host), .ready) := by
    rw [apply, if_pos hfree]
    exact ⟨rfl, rfl, rfl, hidle⟩
  exact leads_carryOut v.harness v.host o hslot _ hready

/-! ### A tick -/

/-- The followers have their answers one after the other; so many of them have had theirs. -/
lemma exists_run_resuming (v : Site) (hidle : ∀ i, v.hand i = none) (r : Report) :
    ∀ k ≤ v.harness.listeners.length, ∃ moves, v.run moves =
      { v with harness.listeners :=
          (v.harness.listeners.take k).map (·.resume v.host.disk v.host.clock r) ++
            v.harness.listeners.drop k } := by
  intro k
  induction k with
  | zero => exact fun _ => ⟨[], by simp⟩
  | succ k ih =>
    intro hk
    obtain ⟨moves, hmoves⟩ := ih (Nat.le_of_succ_le hk)
    -- the first `k` have had their answers, and the next one stands at place `k`
    set before := v.harness.listeners.take k
    set l := v.harness.listeners[k]
    have hlength : before.length = k := List.length_take_of_le (Nat.le_of_succ_le hk)
    have hdrop : v.harness.listeners.drop k = l :: v.harness.listeners.drop (k + 1) :=
      List.drop_eq_getElem_cons hk
    have htake : v.harness.listeners.take (k + 1) = before ++ [l] :=
      List.take_succ_eq_append_getElem hk
    have hmodify : ∀ f : Listener → Listener,
        (before.map f ++ l :: v.harness.listeners.drop (k + 1)).modify k f =
          before.map f ++ f l :: v.harness.listeners.drop (k + 1) := by
      intro f
      rw [List.modify_eq_set_get f (by simp [hlength])]
      simp [hlength]
    obtain ⟨n, hn⟩ := World.exists_run_eq_resume v.host.disk v.host.clock r l
    rw [hdrop] at hmoves
    have hrun := run_seat_modify (v.run moves) (i := k) (by rwa [hmoves])
      (by rw [hmoves]; simp [hlength]) (·.resume v.host.disk v.host.clock r)
      (.answer r :: List.replicate n (.follow v.host.clock)) (by simp [LogWatch.Move.isOwn])
      (by rw [hmoves]; simpa [hlength] using hn)
    refine ⟨moves ++ _, (run_append _ _ _).trans (hrun.trans ?_)⟩
    rw [hmoves, htake]
    simp [hmodify]

/-- **A tick is a run of the site,** in which every follower gets one answer. -/
theorem exists_run_eq_tick (v : Site) (hidle : ∀ i, v.hand i = none) :
    ∃ moves, v.run moves =
      { v with harness := (v.harness.tick v.host).1, host := (v.harness.tick v.host).2 } := by
  obtain ⟨moves, hmoves⟩ := exists_run_resuming (v.apply (.system .tick)) hidle
    (.path v.harness.node.logPath?) _ le_rfl
  refine ⟨.system .tick :: moves, hmoves.trans ?_⟩
  rw [List.take_length, List.drop_length, List.append_nil]
  rfl

end Site

end LogWatch
