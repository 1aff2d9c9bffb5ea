import Mathlib
import LogWatch.Proofs.Harness.Seats

/-!
The slot of a harness from a call to its answer.

A start changes the slot last of all, when the new listener is attached; if it fails before that,
the slot is as it was, and so is the node if the node would not start, or there is no child if
nobody could listen to it. A stop and a reset change the slot first, so it has a detached listener
whatever comes of them. `Course` says for each stage of a call how far things have come since it
began.
-/

namespace LogWatch

namespace Site

open Harness (Order Reply Stage)

variable {v x y : Site} {i : ℕ} {o : Order} {m : Move} {s : Stage} {e : ListenError}
  {x' : Harness} {h' : Host} {stage : Stage}

/-- Nobody has changed anything of the harness since a call began. -/
structure Untouched (v x : Site) : Prop where
  slot : x.harness.slot = v.harness.slot
  count : x.harness.listeners.length = v.harness.listeners.length
  pid : x.harness.node.pid? = v.harness.node.pid?
  log : x.harness.node.logPath? = v.harness.node.logPath?
  logs : x.logs = v.logs

/-- The slot has a listener that came with the call and was never attached to anything. -/
structure Vacated (v x : Site) : Prop where
  new : v.harness.listeners.length ≤ x.harness.slot
  unserved : (x.view x.harness.slot).Unserved

/-- How a start finds things: as they were, or, in a restart, with the run stopped. -/
inductive Ground (v : Site) (o : Order) (x : Site) : Prop
  | same (untouched : Untouched v x)
  | stopped (order : o = .restart) (vacated : Vacated v x) (child : x.harness.node.pid? = none)
      (log : x.harness.node.logPath? = v.harness.node.logPath?) (logs : x.logs = v.logs)

/-- The slot is as it was, but for the stop that a restart begins with. -/
inductive SlotKept (v : Site) (o : Order) (x : Site) : Prop
  | same (slot : x.harness.slot = v.harness.slot)
      (count : x.harness.listeners.length = v.harness.listeners.length)
  | stopped (order : o = .restart) (vacated : Vacated v x)

/-- At some moment of the call a listener could not be attached, for this reason. -/
def Refused (v : Site) (o : Order) (x : Site) (e : ListenError) : Prop :=
  ∃ before later path alive, x = ((v.apply (.calls o)).run before).run later ∧
    ((v.apply (.calls o)).run before).stage? = some (.attaching path alive) ∧
    ((v.apply (.calls o)).run before).harness.engage ((v.apply (.calls o)).run before).host alive =
      .error e

/-- A listener that came with the call was attached to the log of the run that the call started. -/
structure Installed (v : Site) (x : Site) (i : ℕ) : Prop where
  new : v.harness.listeners.length ≤ i
  count : i < x.harness.listeners.length
  log : ∃ path, x.logs = v.logs ++ [path] ∧ x.harness.node.logPath? = some path ∧ x.Attached i path

/-- **What the answer of a call tells**, and how the harness stands then. -/
inductive Outcome (v : Site) (o : Order) (x : Site) : Reply → Prop
  /-- The slot has the new listener, which was attached to the log of the new run. -/
  | listens {i : ℕ} (order : o = .start ∨ o = .restart) (installed : Installed v x i)
      (slot : x.harness.slot = i) : Outcome v o x (.listening i)
  /-- The node did not start. -/
  | fails {e : NodeError} (order : o = .start ∨ o = .restart) (ground : Ground v o x) :
      Outcome v o x (.failed (.node e))
  /-- Nobody could listen to the node. -/
  | misses {e : ListenError} (order : o = .start ∨ o = .restart) (slot : SlotKept v o x)
      (child : x.harness.node.pid? = none) (refused : Refused v o x e) :
      Outcome v o x (.failed (.listener e))
  /-- The node did not stop as it should, or could not be wiped. -/
  | balks {e : NodeError} (order : o ≠ .start) (vacated : Vacated v x)
      (child : x.harness.node.pid? = none) : Outcome v o x (.failed (.node e))
  | ends {s : ExitStatus} (order : o = .stop) (vacated : Vacated v x)
      (child : x.harness.node.pid? = none) : Outcome v o x (.ended s)
  | wipes (order : o = .reset) (vacated : Vacated v x) (child : x.harness.node.pid? = none) :
      Outcome v o x .wiped

/-- How far things have come since the call began. -/
inductive Course (v : Site) (o : Order) (x : Site) : Stage → Prop
  | ready (untouched : Untouched v x) : Course v o x .ready
  | starting (order : o = .start ∨ o = .restart) (ground : Ground v o x) :
      Course v o x (.calling ⟨.start, .ready⟩)
  | started {path : String} (order : o = .start ∨ o = .restart) (slot : SlotKept v o x)
      (logs : x.logs = v.logs ++ [path]) : Course v o x (.started path)
  | attaching {path : String} {alive : Bool} (order : o = .start ∨ o = .restart)
      (slot : SlotKept v o x) (logs : x.logs = v.logs ++ [path]) :
      Course v o x (.attaching path alive)
  | cleaning {s : Node.Stage} {e : ListenError} (order : o = .start ∨ o = .restart)
      (slot : SlotKept v o x) (child : s ≠ .ready → x.harness.node.pid? = none)
      (refused : Refused v o x e) : Course v o x (.cleaning s e)
  | placing {i : ℕ} (order : o = .start ∨ o = .restart) (installed : Installed v x i) :
      Course v o x (.placing i)
  | replacing {i j : ℕ} {asked : Bool} (order : o = .start ∨ o = .restart)
      (installed : Installed v x i) (slot : x.harness.slot = i) :
      Course v o x (.retiring j asked (some i))
  | vacating {j : ℕ} {asked : Bool} (order : o ≠ .start) (vacated : Vacated v x)
      (log : x.harness.node.logPath? = v.harness.node.logPath?) (logs : x.logs = v.logs) :
      Course v o x (.retiring j asked none)
  | calling {c : Node.Caller} (order : o ≠ .start) (same : c.order = o.onNode)
      (vacated : Vacated v x) (child : c.stage ≠ .ready → x.harness.node.pid? = none)
      (log : o = .restart → x.harness.node.logPath? = v.harness.node.logPath?)
      (logs : x.logs = v.logs) : Course v o x (.calling c)
  | done {r : Reply} (outcome : Outcome v o x r) : Course v o x (.done r)

/-! ### What time leaves as it is -/

lemma Vacated.onward (hv : Vacated v x) (hs : x.Seated) (hon : Onward x y)
    (hslot : y.harness.slot = x.harness.slot) : Vacated v y := by
  obtain ⟨moves, hview⟩ := hon.views _ hs.slot
  refine ⟨hslot ▸ hv.new, ?_⟩
  rw [hslot, hview]
  exact hv.unserved.run moves

lemma SlotKept.onward (hk : SlotKept v o x) (hs : x.Seated) (hon : Onward x y)
    (hslot : y.harness.slot = x.harness.slot)
    (hcount : y.harness.listeners.length = x.harness.listeners.length) : SlotKept v o y := by
  cases hk with
  | same slot count => exact .same (hslot.trans slot) (hcount.trans count)
  | stopped order vacated => exact .stopped order (vacated.onward hs hon hslot)

/-- Only listeners have gone on. -/
structure Still (x y : Site) : Prop where
  onward : Onward x y
  slot : y.harness.slot = x.harness.slot
  count : y.harness.listeners.length = x.harness.listeners.length
  pid : y.harness.node.pid? = x.harness.node.pid?
  log : y.harness.node.logPath? = x.harness.node.logPath?
  logs : y.logs = x.logs

lemma Aside.still (ha : Aside x y) : Still x y :=
  ⟨ha.onward, ha.slot, ha.count, ha.pid, ha.log, ha.logs⟩

lemma Untouched.still (h : Untouched v x) (ht : Still x y) : Untouched v y :=
  ⟨ht.slot.trans h.slot, ht.count.trans h.count, ht.pid.trans h.pid, ht.log.trans h.log,
    ht.logs.trans h.logs⟩

lemma Ground.still (hg : Ground v o x) (hs : x.Seated) (ht : Still x y) : Ground v o y := by
  cases hg with
  | same h => exact .same (h.still ht)
  | stopped order vacated child log logs =>
    exact .stopped order (vacated.onward hs ht.onward ht.slot) (ht.pid.trans child)
      (ht.log.trans log) (ht.logs.trans logs)

lemma Ground.slotKept (hg : Ground v o x) : SlotKept v o x := by
  cases hg with
  | same h => exact .same h.slot h.count
  | stopped order vacated => exact .stopped order vacated

lemma Ground.logs (hg : Ground v o x) : x.logs = v.logs := by
  cases hg with
  | same h => exact h.logs
  | stopped _ _ _ _ logs => exact logs

lemma Installed.onward (hi : Installed v x i) (hs : x.Seated) (hon : Onward x y)
    (hlog : y.harness.node.logPath? = x.harness.node.logPath?) (hlogs : y.logs = x.logs) :
    Installed v y i := by
  obtain ⟨path, hpast, hpath, hattached⟩ := hi.log
  exact ⟨hi.new, lt_of_lt_of_le hi.count hon.count, path, hlogs.trans hpast, hlog.trans hpath,
    hattached.onward hi.count (hs.era i hi.count) hon⟩

lemma Refused.apply (hr : Refused v o x e) (m : Move) : Refused v o (x.apply m) e := by
  obtain ⟨before, later, path, alive, rfl, hstage, hengage⟩ := hr
  exact ⟨before, later ++ [m], path, alive, (run_snoc _ _ _).symm, hstage, hengage⟩

lemma Course.still (hc : Course v o x s) (hs : x.Seated) (ht : Still x y)
    (hrefused : ∀ e, Refused v o x e → Refused v o y e) : Course v o y s := by
  have hkept : SlotKept v o x → SlotKept v o y := fun h => h.onward hs ht.onward ht.slot ht.count
  have hinstalled : ∀ {i}, Installed v x i → Installed v y i :=
    fun h => h.onward hs ht.onward ht.log ht.logs
  have hvacated : Vacated v x → Vacated v y := fun h => h.onward hs ht.onward ht.slot
  -- how far a call has come depends on the slot, the child and the logs alone
  cases hc with
  | ready h => exact .ready (h.still ht)
  | starting order ground => exact .starting order (ground.still hs ht)
  | started order slot logs => exact .started order (hkept slot) (ht.logs.trans logs)
  | attaching order slot logs => exact .attaching order (hkept slot) (ht.logs.trans logs)
  | cleaning order slot child refused =>
    exact .cleaning order (hkept slot) (fun h => ht.pid.trans (child h)) (hrefused _ refused)
  | placing order installed => exact .placing order (hinstalled installed)
  | replacing order installed slot =>
    exact .replacing order (hinstalled installed) (ht.slot.trans slot)
  | vacating order vacated log logs =>
    exact .vacating order (hvacated vacated) (ht.log.trans log) (ht.logs.trans logs)
  | calling order same vacated child log logs =>
    exact .calling order same (hvacated vacated) (fun h => ht.pid.trans (child h))
      (fun h => ht.log.trans (log h)) (ht.logs.trans logs)
  | done outcome =>
    refine .done ?_
    cases outcome with
    | listens order installed slot =>
      exact .listens order (hinstalled installed) (ht.slot.trans slot)
    | fails order ground => exact .fails order (ground.still hs ht)
    | misses order slot child refused =>
      exact .misses order (hkept slot) (ht.pid.trans child) (hrefused _ refused)
    | balks order vacated child => exact .balks order (hvacated vacated) (ht.pid.trans child)
    | ends order vacated child => exact .ends order (hvacated vacated) (ht.pid.trans child)
    | wipes order vacated child => exact .wipes order (hvacated vacated) (ht.pid.trans child)

/-! ### What a step of the caller comes to -/

/-- A call that is under way, and how far it has come. -/
structure Since (v : Site) (o : Order) (s : Stage) (x : Site) : Prop where
  callers : x.callers = v.callers ++ [⟨o, s⟩]
  came : ∃ moves, x = (v.apply (.calls o)).run moves
  seated : x.Seated
  grown : v.harness.listeners.length ≤ x.harness.listeners.length
  course : Course v o x s

section Step

variable {n : Node} {c : Node.Caller} {t t' : Node.Stage} {z : Site}

/-- A step of the caller that only concerns the node. -/
structure NodeStep (x : Site) (n : Node) (z : Site) : Prop where
  onward : Onward x z
  slot : z.harness.slot = x.harness.slot
  count : z.harness.listeners.length = x.harness.listeners.length
  pid : z.harness.node.pid? = n.pid?
  log : z.harness.node.logPath? = n.logPath?

lemma course_starting (hs : x.Seated) (ho : o = .start ∨ o = .restart) (hg : Ground v o x)
    (hnode : Node.Step x.harness.node x.host ⟨.start, .ready⟩ n h' t) (hz : NodeStep x n z)
    (hlogs : z.logs = x.logs ++ (o.proceed ⟨.start, t⟩).log?.toList) :
    Course v o z (o.proceed ⟨.start, t⟩) := by
  rcases hnode.reply_of_start rfl rfl with ⟨e, rfl, hpid, hlog⟩ | ⟨path, rfl, hlog⟩
  · exact .done (.fails ho (hg.still hs ⟨hz.onward, hz.slot, hz.count, hz.pid.trans hpid,
      hz.log.trans hlog, hlogs.trans (List.append_nil _)⟩))
  · refine .started ho (hg.slotKept.onward hs hz.onward hz.slot hz.count) ?_
    rw [hlogs, hg.logs]
    rfl

lemma course_calling (hs : x.Seated) (ho : o ≠ .start) (hsame : c.order = o.onNode)
    (hv : Vacated v x) (hwaits : c.stage.reply? = none)
    (hchild : c.stage ≠ .ready → x.harness.node.pid? = none)
    (hlog : o = .restart → x.harness.node.logPath? = v.harness.node.logPath?)
    (hpast : x.logs = v.logs)
    (hnode : Node.Step x.harness.node x.host c n h' t) (hz : NodeStep x n z)
    (hlogs : z.logs = x.logs ++ (o.proceed ⟨c.order, t⟩).log?.toList) :
    Course v o z (o.proceed ⟨c.order, t⟩) := by
  have hstop : c.order = .stop ∨ c.order = .reset := by
    rw [hsame]
    cases o <;> simp [Order.onNode]
  have hnone : z.harness.node.pid? = none :=
    hz.pid.trans (hnode.pid?_eq_none (by tauto) hchild)
  have hvacated : Vacated v z := hv.onward hs hz.onward hz.slot
  have hkept : o = .restart → z.harness.node.logPath? = v.harness.node.logPath? := by
    rintro rfl
    exact hz.log.trans ((hnode.logPath?_of_stop hsame).trans (hlog rfl))
  -- without an answer the call stays with the node; a stop within a restart leads on to the start
  cases hreply : t.reply? with
  | none =>
    simp only [Order.proceed, hreply] at hlogs ⊢
    exact .calling ho hsame hvacated (fun _ => hnone) hkept
      (hlogs.trans ((List.append_nil _).trans hpast))
  | some r =>
    simp only [Order.proceed, hreply] at hlogs ⊢
    rcases hnode.reply_of_stop hstop hwaits hreply with ⟨e, rfl⟩ | ⟨hfirst, s, rfl⟩ | ⟨hlast, rfl⟩
    · exact .done (.balks ho hvacated hnone)
    · cases o with
      | start => exact absurd rfl ho
      | reset => simp [hsame, Order.onNode] at hfirst
      | stop => exact .done (.ends rfl hvacated hnone)
      | restart =>
        exact .starting (.inr rfl) (.stopped rfl hvacated hnone (hkept rfl)
          (hlogs.trans ((List.append_nil _).trans hpast)))
    · cases o with
      | start | stop | restart => simp [hsame, Order.onNode] at hlast
      | reset => exact .done (.wipes rfl hvacated hnone)

/-- **A step of the caller takes the call on its course.** -/
lemma Since.step (hsince : Since v o s x)
    (hstep : Harness.Step x.harness x.host ⟨o, s⟩ x' h' stage)
    (hz : x.apply .go = x.after v.callers ⟨o, s⟩ ((x', h'), stage)) :
    Course v o (x.after v.callers ⟨o, s⟩ ((x', h'), stage)) stage := by
  obtain ⟨hcallers, ⟨moves, hcame⟩, hs, hgrown, hcourse⟩ := hsince
  have hon : Onward x (x.after v.callers ⟨o, s⟩ ((x', h'), stage)) := onward_after hstep
  have hwaits := fun {c} h => hs.waits c ((stage?_of_snoc hcallers).trans (congrArg some h))
  -- a step for each stage, and the course tells what is known at that stage
  cases hstep with
  | heads hready horder =>
    obtain rfl : s = .ready := hready
    cases hcourse with
    | ready h =>
      exact .starting (horder.imp_right And.left) (.same ⟨h.slot, h.count, h.pid, h.log,
        (List.append_nil _).trans h.logs⟩)
  | vacates hready horder =>
    obtain rfl : s = .ready := hready
    cases hcourse with
    | ready h =>
      obtain ⟨-, hdetached | ⟨path, alive, hattaching, -⟩⟩ :=
        hs.newcomer hcallers (.vacates rfl horder) (by simp [Harness.place, Harness.enroll]) le_rfl
      · exact .vacating horder ⟨hgrown, hdetached.unserved⟩ h.log
          ((List.append_nil _).trans h.logs)
      · cases hattaching
  | calls hcalling hnode =>
    obtain rfl : s = .calling _ := hcalling
    have hbeside : NodeStep x _ (x.after v.callers ⟨o, _⟩ ((_, h'), _)) :=
      ⟨hon, rfl, rfl, rfl, rfl⟩
    cases hcourse with
    | starting order ground => exact course_starting hs order ground hnode hbeside rfl
    | calling order same vacated child log logs =>
      exact course_calling hs order same vacated (hwaits rfl).1 child log logs hnode hbeside rfl
  | looks hstarted =>
    obtain rfl : s = .started _ := hstarted
    cases hcourse with
    | started order slot logs =>
      exact .attaching order (slot.onward hs hon rfl rfl) ((List.append_nil _).trans logs)
  | misses hattaching hfault =>
    obtain rfl : s = .attaching _ _ := hattaching
    cases hcourse with
    | attaching order slot logs =>
      refine .cleaning order (slot.onward hs hon rfl rfl) (fun h => absurd rfl h) ?_
      refine ⟨moves, [.go], _, _, ?_, by rw [← hcame, stage?_of_snoc hcallers], hcame ▸ hfault⟩
      rw [← hcame, run_cons, run_nil, hz]
  | attaches hattaching hattached =>
    obtain rfl : s = .attaching _ _ := hattaching
    cases hcourse with
    | attaching order slot logs =>
      have hnode := (hs.heard _ (stage?_of_snoc hcallers) _ rfl).1
      exact .placing order ⟨hgrown, by simp [after, Harness.enroll], _,
        (List.append_nil _).trans logs, hnode, hs.attached_after hcallers rfl hattached _ _⟩
  | cleans hcleaning hnode =>
    rename_i t' e _
    obtain rfl : s = .cleaning _ _ := hcleaning
    cases hcourse with
    | cleaning order slot child refused =>
      have hnone := hnode.pid?_eq_none (.inr (.inl rfl)) child
      have hkept := slot.onward hs hon rfl rfl
      have hrefused := hz ▸ refused.apply .go
      cases hreply : t'.reply? with
      | none =>
        simp only [Harness.cleaned, hreply] at hkept hrefused ⊢
        exact .cleaning order hkept (fun _ => hnone) hrefused
      | some r =>
        simp only [Harness.cleaned, hreply] at hkept hrefused ⊢
        exact .done (.misses order hkept hnone hrefused)
  | places hplacing =>
    obtain rfl : s = .placing _ := hplacing
    cases hcourse with
    | placing order installed =>
      exact .replacing order (installed.onward hs hon rfl (List.append_nil _)) rfl
  | waits hretiring | rests hretiring =>
    obtain rfl := hretiring
    exact hcourse.still hs ⟨hon, rfl, rfl, rfl, rfl, List.append_nil _⟩
      fun e h => hz ▸ h.apply .go
  | tells hretiring =>
    obtain rfl : s = .retiring _ _ _ := hretiring
    cases hcourse with
    | replacing order installed slot =>
      exact .replacing order (installed.onward hs hon rfl (List.append_nil _)) slot
    | vacating order vacated log logs =>
      exact .vacating order (vacated.onward hs hon rfl) log ((List.append_nil _).trans logs)
  | closes hretiring | passes hretiring =>
    obtain rfl : s = .retiring _ _ _ := hretiring
    cases hcourse with
    | replacing order installed slot =>
      exact .done (.listens order (installed.onward hs hon rfl (List.append_nil _)) slot)
    | vacating order vacated log logs =>
      exact .calling order rfl (vacated.onward hs hon rfl) (fun h => absurd rfl h) (fun _ => log)
        ((List.append_nil _).trans logs)

end Step

/-! ### From a call to its answer -/

lemma length_callers_apply (x : Site) (m : Move) :
    x.callers.length ≤ (x.apply m).callers.length := by
  cases m with
  | go =>
    rcases x.go_cases with ⟨-, hsame⟩ | ⟨past, w, r, hcallers, -, hafter⟩
    · rw [hsame]
    · rw [hafter, hcallers]
      simp [after]
  | calls o =>
    rw [apply]
    split
    · simp
    · exact le_rfl
  | asks | system | seat =>
    refine (congrArg List.length (Aside.callers ?_)).ge
    exact aside_apply x (by simp) (by simp)

lemma since_calls (hv : v.Seated) (hfree : v.isFree = true) (o : Order) :
    Since v o .ready (v.apply (.calls o)) := by
  have hcalls : v.apply (.calls o) = { v with callers := v.callers ++ [⟨o, .ready⟩] } :=
    if_pos hfree
  refine ⟨by rw [hcalls], ⟨[], rfl⟩, hv.apply _, ?_, .ready ?_⟩
  · rw [hcalls]
  · rw [hcalls]
    exact ⟨rfl, rfl, rfl, rfl, rfl⟩

lemma Since.apply (hsince : Since v o s x) (m : Move) :
    (∃ s', Since v o s' (x.apply m)) ∨
      v.callers.length + 1 < (x.apply m).callers.length := by
  -- Only a step of the caller takes the call further; a new call ends the account of this one.
  obtain ⟨moves, hcame⟩ := hsince.came
  have hseated := hsince.seated.apply m
  have hnext : ∃ moves, x.apply m = (v.apply (.calls o)).run moves :=
    ⟨moves ++ [m], by rw [run_snoc, ← hcame]⟩
  have hgrown := hsince.grown.trans (onward_apply x m).count
  by_cases hgo : m = .go
  · subst hgo
    have hafter := apply_go hsince.callers
    have hcourse := hsince.step (x.harness.step_spec x.host ⟨o, s⟩) hafter
    rw [hafter] at hseated hnext hgrown ⊢
    exact .inl ⟨_, rfl, hnext, hseated, hgrown, hcourse⟩
  · by_cases hcalls : x.isFree = true ∧ ∃ other, m = .calls other
    · obtain ⟨hfree, other, rfl⟩ := hcalls
      refine .inr ?_
      rw [Site.apply, if_pos hfree]
      simp [hsince.callers]
    · have ha : Aside x (x.apply m) :=
        aside_apply x hgo fun hfree other hother => hcalls ⟨hfree, other, hother⟩
      exact .inl ⟨s, ha.callers.trans hsince.callers, hnext, hseated, hgrown,
        hsince.course.still hsince.seated ha.still fun e h => h.apply m⟩

lemma Since.run (hsince : Since v o s x) (moves : List Move) :
    (∃ s', Since v o s' (x.run moves)) ∨ v.callers.length + 1 < (x.run moves).callers.length := by
  induction moves using List.reverseRecOn with
  | nil => exact .inl ⟨s, hsince⟩
  | append_singleton moves m ih =>
    rw [run_snoc]
    rcases ih with ⟨s', hs'⟩ | hlonger
    · exact hs'.apply m
    · exact .inr (hlonger.trans_le (length_callers_apply _ m))

/-- The listener was the answer to a start or a restart. -/
def HasReturned (x : Site) (i : ℕ) : Prop := ∃ w ∈ x.callers, w.stage = .done (.listening i)

/-- That a harness has one listener at work at most, and that nothing it begins is left half
done. -/
structure Tidy (x : Site) : Prop where
  /-- While a call is under way another listener may be on its way to the slot or out of it. -/
  one : ∀ i, x.harness.follows i = true →
    i = x.harness.slot ∨ ∃ s ∈ x.stage?, s.spares i = true
  /-- Between two calls the slot's listener is alone. -/
  alone : x.isFree = true → ∀ i, x.harness.follows i = true → i = x.harness.slot
  /-- Whoever had its place in the slot has ended by then, with nobody waiting. -/
  retired : x.isFree = true → ∀ i, x.HasReturned i → i ≠ x.harness.slot →
    (x.view i).state.isTerminal = true ∧ (x.view i).ledger.closed = true ∧
      (x.view i).ledger.pending = []
  answers : x.isFree = true → ∀ o moves r,
    ((x.apply (.calls o)).run moves).callers = x.callers ++ [⟨o, .done r⟩] →
    Outcome x o ((x.apply (.calls o)).run moves) r

/-- **A harness has one listener at a time, and cleans up after itself.** This is so at every moment
of every sequence of calls, whatever comes of them and whatever becomes of the node in between. -/
theorem one_listener_at_a_time (listening : Settings) (node : NodeSettings) (h : Host)
    (moves : List Move) : ((begin listening node h).run moves).Tidy := by
  have hs := (seated_begin listening node h).run moves
  refine ⟨hs.one, fun hfree i => hs.alone hfree, fun hfree i hreturned hother => ?_,
    fun hfree o later r hcallers => ?_⟩
  · obtain ⟨w, hw, hstage⟩ := hreturned
    obtain ⟨-, path, hattached⟩ := hs.new w hw i (by rw [hstage]; rfl)
    refine hattached.ended ?_
    by_contra hfollows
    exact hother (hs.alone hfree (by simpa using hfollows))
  -- no other call has come, so this one is what the last caller has been through
  · rcases (since_calls hs hfree o).run later with ⟨s, hsince⟩ | hlonger
    · have hsame := hsince.callers.symm.trans hcallers
      obtain rfl : s = .done r := by simpa using hsame
      cases hsince.course with
      | done outcome => exact outcome
    · rw [hcallers] at hlonger
      simp at hlonger

/-- A restart has its answer: the first listener has ended, and the slot has the new one. -/
theorem one_listener_at_a_time_restarted :
    ((sleeping.run (attending ++ restarting)).view 1).state.isTerminal = true ∧
    ((sleeping.run (attending ++ restarting)).view 1).ledger.pending = [] ∧
    (sleeping.run (attending ++ restarting)).harness.slot = 3 ∧
    Outcome (sleeping.run attending) .restart
      (((sleeping.run attending).apply (.calls .restart)).run (restarting.drop 2))
      (.listening 3) := by
  have hbefore : (sleeping.run attending).Tidy := one_listener_at_a_time _ _ _ attending
  have hafter : (sleeping.run (attending ++ restarting)).Tidy :=
    one_listener_at_a_time _ _ _ (attending ++ restarting)
  obtain ⟨hterminal, -, hempty⟩ := hafter.retired (by decide +kernel) 1
    ⟨⟨.start, .done (.listening 1)⟩, by decide +kernel, rfl⟩ (by decide +kernel)
  exact ⟨hterminal, hempty, by decide +kernel,
    hbefore.answers (by decide +kernel) .restart _ (.listening 3) (by decide +kernel)⟩

end Site

end LogWatch
