import Mathlib
import LogWatch.Proofs.Harness.Site

/-!
Which listeners of a harness still follow a log, and where each of them comes from.

Every listener was detached from the beginning or attached to the log of the run that was the latest
then. Between two calls only the listener in the slot can have a follower at work; while a call is
under way, so can the one that is about to come to the slot, and the one that has left it. This is
kept by every step of a caller and by whatever happens in between.
-/

namespace LogWatch

namespace Site

open Harness (Order Reply Stage)

variable {x y : Site} {i : ℕ} {m : Move} {past : List Harness.Caller} {w : Harness.Caller}
  {x' : Harness} {h' : Host} {stage : Stage}

/-- Where the listeners come from, and which of them still follow a log. -/
structure Seated (x : Site) : Prop where
  slot : x.harness.slot < x.harness.listeners.length
  known : ∀ i < x.harness.listeners.length, x.Detached i ∨ ∃ path, x.Attached i path
  era : ∀ i < x.harness.listeners.length, x.era i ≤ x.logs.length
  rest : ∀ i, x.harness.listeners.length ≤ i → x.hand i = none
  new : ∀ w ∈ x.callers, ∀ i, w.stage.new? = some i →
    i < x.harness.listeners.length ∧ ∃ path, x.Attached i path
  /-- Whom the node is busy with has no answer yet; who starts it, has just come to that. -/
  waits : ∀ c, x.stage? = some (.calling c) → c.stage.reply? = none ∧
    (c.order = .start ∧ c.stage = .ready ∨ c.order = .stop ∨ c.order = .reset)
  heard : ∀ s ∈ x.stage?, ∀ path, s.heard? = some path →
    x.harness.node.logPath? = some path ∧ x.logs.getLast? = some path
  one : ∀ i, x.harness.follows i = true → i = x.harness.slot ∨ ∃ s ∈ x.stage?, s.spares i = true

lemma seated_begin (listening : Settings) (node : NodeSettings) (h : Host) :
    (begin listening node h).Seated := by
  refine ⟨Nat.zero_lt_one, fun i hi => .inl ⟨h.disk, [], ?_⟩, fun _ _ => le_rfl, fun _ _ => rfl,
    by simp [begin], by simp [begin, stage?], by simp [begin, stage?], fun i hfollows => ?_⟩
  · obtain rfl : i = 0 := by simpa [begin] using hi
    rfl
  · have hidle : (begin listening node h).harness.follows i = false := by
      cases i <;> rfl
    simp [hidle] at hfollows

lemma lt_of_follows (hfollows : x.harness.follows i = true) : i < x.harness.listeners.length := by
  by_contra hge
  rw [Harness.follows, List.getD_eq_default _ _ (by omega)] at hfollows
  cases hfollows

lemma Seated.aside (hs : x.Seated) (ha : Aside x y)
    (hrest : ∀ i, x.harness.listeners.length ≤ i → y.hand i = none) : y.Seated := by
  have hstage : y.stage? = x.stage? := by rw [stage?, stage?, ha.callers]
  refine ⟨by rw [ha.slot, ha.count]; exact hs.slot, fun i hi => ?_, fun i hi => ?_, fun i hi => ?_,
    fun w hw i hnew => ?_, hstage ▸ hs.waits, ?_, fun i hfollows => ?_⟩
  · rw [ha.count] at hi
    rcases hs.known i hi with hdetached | ⟨path, hattached⟩
    · exact .inl (hdetached.onward hi ha.onward)
    · exact .inr ⟨path, hattached.onward hi (hs.era i hi) ha.onward⟩
  · rw [ha.count] at hi
    rw [ha.era, ha.logs]
    exact hs.era i hi
  · rw [ha.count] at hi
    exact hrest i hi
  · rw [ha.callers] at hw
    obtain ⟨hi, path, hattached⟩ := hs.new w hw i hnew
    exact ⟨ha.count ▸ hi, path, hattached.onward hi (hs.era i hi) ha.onward⟩
  · rw [hstage, ha.log, ha.logs]
    exact hs.heard
  · have hi : i < x.harness.listeners.length := ha.count ▸ lt_of_follows hfollows
    rw [hstage, ha.slot]
    exact hs.one i (follows_onward ha.onward hi hfollows)

lemma Seated.attached_after (hs : x.Seated) (hcallers : x.callers = past ++ [w]) {path : String}
    {alive : Bool} {l : Listener} (hattaching : w.stage = .attaching path alive)
    (hengage : x.harness.engage x.host alive = .ok l) (h' : Host) (stage : Stage) :
    (x.after past w (((x.harness.enroll l).1, h'), stage)).Attached
      x.harness.listeners.length path := by
  obtain ⟨hnode, hlast⟩ := hs.heard _ (stage?_of_snoc hcallers) path (by rw [hattaching]; rfl)
  have hattach := Harness.attach_of_engage hengage
  rw [Harness.alive_of_engage hengage, hnode] at hattach
  refine ⟨?_, x.host.disk, l, [.files h'.disk], hattach, ?_⟩
  -- the last log of its era is the one that the node reports now
  · have hera : (x.after past w (((x.harness.enroll l).1, h'), stage)).era
        x.harness.listeners.length = x.logs.length := if_neg (lt_irrefl _)
    rw [hera]
    change ((x.logs ++ _).take x.logs.length).getLast? = _
    rw [List.take_left]
    exact hlast
  · have hlistener :
        (x.harness.listeners ++ [l]).getD x.harness.listeners.length .detached = l := by
      simp
    change (⟨h'.disk, (x.harness.listeners ++ [l]).getD _ .detached, x.hand _⟩ : World) = _
    rw [hlistener, hs.rest _ le_rfl]
    rfl

lemma Seated.newcomer (hs : x.Seated) (hcallers : x.callers = past ++ [w])
    (hstep : Harness.Step x.harness x.host w x' h' stage)
    (hi : i < x'.listeners.length) (hge : x.harness.listeners.length ≤ i) :
    i = x.harness.listeners.length ∧ ((x.after past w ((x', h'), stage)).Detached i ∨
      ∃ path alive, w.stage = .attaching path alive ∧
        (x.after past w ((x', h'), stage)).Attached i path) := by
  -- a step brings one listener at most, at the next place
  rcases hstep.enrolls with hcount | rfl | ⟨path, alive, l, hattaching, hengage, rfl⟩
  · omega
  · obtain rfl : i = x.harness.listeners.length := by
      simp only [Harness.place, Harness.enroll, List.length_append, List.length_singleton] at hi
      omega
    refine ⟨rfl, .inl ⟨h'.disk, [], ?_⟩⟩
    have hlistener : (x.harness.listeners ++ [Listener.detached]).getD x.harness.listeners.length
        .detached = .detached := by
      simp
    change (⟨h'.disk, (x.harness.listeners ++ [_]).getD _ .detached, x.hand _⟩ : World) = _
    rw [hlistener, hs.rest _ le_rfl]
    rfl
  · obtain rfl : i = x.harness.listeners.length := by
      simp only [Harness.enroll, List.length_append, List.length_singleton] at hi
      omega
    exact ⟨rfl, .inr ⟨path, alive, hattaching, hs.attached_after hcallers hattaching hengage h' _⟩⟩

lemma follows_of_detached (h : x.Detached i) : x.harness.follows i = false := by
  have hover := h.unserved.isOver
  rwa [isOver_view, Bool.not_eq_true'] at hover

lemma Seated.heard_after (hs : x.Seated) (hcallers : x.callers = past ++ [w])
    (hstep : Harness.Step x.harness x.host w x' h' stage) {path : String}
    (hheard : stage.heard? = some path) :
    x'.node.logPath? = some path ∧ (x.logs ++ stage.log?.toList).getLast? = some path := by
  have hstage := stage?_of_snoc hcallers
  -- only a look at a run that was started, or the start itself, leaves a log that was heard of
  cases hstep with
  | heads | vacates | misses | attaches | places | waits | tells => cases hheard
  | closes | passes =>
    rename_i next? _ _
    cases next? <;> cases hheard
  | rests => cases hheard
  | cleans =>
    unfold Harness.cleaned at hheard
    split at hheard <;> cases hheard
  | looks hstarted =>
    obtain rfl := Option.some.inj hheard
    obtain ⟨hnode, hlast⟩ := hs.heard _ hstage _ (by rw [hstarted]; rfl)
    refine ⟨(x.harness.node.isAlive_log x.host).trans hnode, ?_⟩
    simpa [Stage.log?] using hlast
  | calls hcalling hnode =>
    obtain ⟨hwaits, horder⟩ := hs.waits _ (by rw [hstage, hcalling])
    rcases horder with ⟨ho, hready⟩ | ho
    · rcases hnode.reply_of_start ho hready with ⟨e, rfl, -, -⟩ | ⟨started, rfl, hlog⟩
      · cases hheard
      · obtain rfl : started = path := Option.some.inj hheard
        exact ⟨hlog, by simp [Order.proceed, Order.settle, Node.Stage.reply?, Stage.log?]⟩
    -- the answer to a stop or a reset names no log
    · unfold Order.proceed at hheard
      split at hheard
      · cases hheard
      · rename_i reply hreply
        rcases hnode.reply_of_stop ho hwaits hreply with ⟨e, rfl⟩ | ⟨-, s, rfl⟩ | ⟨-, rfl⟩
        · cases hheard
        · unfold Order.settle at hheard
          dsimp only at hheard
          split at hheard <;> cases hheard
        · cases hheard

/-- Whom the node is busy with has no answer yet. -/
lemma Seated.waits_after (hs : x.Seated) (hcallers : x.callers = past ++ [w])
    (hstep : Harness.Step x.harness x.host w x' h' stage) {c : Node.Caller}
    (hafter : .calling c = stage) : c.stage.reply? = none ∧
      (c.order = .start ∧ c.stage = .ready ∨ c.order = .stop ∨ c.order = .reset) := by
  have hstage := stage?_of_snoc hcallers
  have hfirst : ∀ o : Order, (o.onNode = .stop ∨ o.onNode = .reset) := by
    intro o
    cases o <;> simp [Order.onNode]
  cases hstep with
  | heads =>
    obtain rfl := Stage.calling.inj hafter
    exact ⟨rfl, .inl ⟨rfl, rfl⟩⟩
  | vacates | looks | misses | attaches | places | waits | tells | rests => cases hafter
  | closes | passes =>
    rename_i next? _ _
    cases next? with
    | some i => cases hafter
    | none =>
      obtain rfl := Stage.calling.inj hafter
      exact ⟨rfl, .inr (hfirst w.order)⟩
  | cleans =>
    unfold Harness.cleaned at hafter
    split at hafter <;> cases hafter
  | calls hcalling hnode =>
    obtain ⟨hwaits, horder⟩ := hs.waits _ (by rw [hstage, hcalling])
    -- whoever has no answer stays with the node; only a stop within a restart leads back to it
    unfold Order.proceed at hafter
    split at hafter
    · rename_i hreply
      obtain rfl := Stage.calling.inj hafter
      rcases horder with ⟨ho, hready⟩ | ho
      · rcases hnode.reply_of_start ho hready with ⟨e, rfl, -, -⟩ | ⟨started, rfl, -⟩ <;> cases hreply
      · exact ⟨hreply, .inr ho⟩
    · rename_i reply hreply
      unfold Order.settle at hafter
      split at hafter
      · cases hafter
      · split at hafter
        · obtain rfl := Stage.calling.inj hafter
          exact ⟨rfl, .inl ⟨rfl, rfl⟩⟩
        · cases hafter
      · cases hafter
      · cases hafter

/-- Who still follows a log after a step: whoever did so before, and the listener that comes. -/
lemma Seated.one_after (hs : x.Seated) (hcallers : x.callers = past ++ [w])
    (hstep : Harness.Step x.harness x.host w x' h' stage)
    (hfollows : x'.follows i = true) : i = x'.slot ∨ stage.spares i = true := by
  have hstage := stage?_of_snoc hcallers
  have hon : Onward x (x.after past w ((x', h'), stage)) := onward_after hstep
  -- Nobody starts to follow again, so it was at work before the step or it came with it.
  have hold : i < x.harness.listeners.length → x.harness.follows i = true ∧
      (i = x.harness.slot ∨ w.stage.spares i = true) := by
    intro hi
    have hbefore := follows_onward hon hi hfollows
    refine ⟨hbefore, (hs.one i hbefore).imp_right ?_⟩
    rintro ⟨s, hs', hspares⟩
    rw [hstage] at hs'
    rwa [Option.some.inj hs']
  have hi : i < x'.listeners.length :=
    lt_of_follows (x := x.after past w ((x', h'), stage)) hfollows
  have hnew : x.harness.listeners.length ≤ i → i = x.harness.listeners.length ∧
      ∃ path alive, w.stage = .attaching path alive := by
    intro hge
    obtain ⟨heq, hdetached | ⟨path, alive, hattaching, -⟩⟩ := hs.newcomer hcallers hstep hi hge
    · have hidle := follows_of_detached hdetached
      exact absurd (hfollows.symm.trans hidle) (by simp)
    · exact ⟨heq, path, alive, hattaching⟩
  rcases Nat.lt_or_ge i x.harness.listeners.length with hlt | hge
  · obtain ⟨hbefore, hcase⟩ := hold hlt
    cases hstep with
    | heads hold | calls hold | looks hold | misses hold | attaches hold | cleans hold
    | rests hold =>
      rw [hold] at hcase
      exact .inl (hcase.resolve_right (by simp [Stage.spares]))
    -- whoever has to leave the slot is spared until it is retired
    | vacates hold =>
      rw [hold] at hcase
      exact .inr (by simp [Stage.spares, hcase.resolve_right (by simp [Stage.spares])])
    | places hold =>
      rw [hold] at hcase
      rcases hcase with rfl | hspares
      · exact .inr (by simp [Stage.spares])
      · exact .inl (by simpa [Stage.spares] using Eq.symm (of_decide_eq_true hspares))
    | waits hold | tells hold =>
      rw [hold] at hcase
      exact hcase
    | closes hold hover | passes hold hover =>
      rw [hold] at hcase
      refine .inl (hcase.resolve_right fun hspares => ?_)
      obtain rfl := of_decide_eq_true hspares
      simp [hbefore] at hover
  -- the newcomer is the one that is attached in this step
  · obtain ⟨rfl, path, alive, hattaching⟩ := hnew hge
    cases hstep with
    | attaches => exact .inr (by simp [Stage.spares])
    | misses => exact absurd hi (lt_irrefl _)
    | heads hold | vacates hold | calls hold | looks hold | cleans hold | places hold
    | waits hold | tells hold | closes hold | passes hold | rests hold =>
      rw [hattaching] at hold
      cases hold

lemma Seated.slot_after (hs : x.Seated) (hcallers : x.callers = past ++ [w])
    (hstep : Harness.Step x.harness x.host w x' h' stage) : x'.slot < x'.listeners.length := by
  have hcount := hstep.treated.1
  cases hstep with
  | heads | calls | looks | misses | cleans | waits | passes | rests => exact hs.slot
  | tells | closes => exact lt_of_lt_of_le hs.slot hcount
  | attaches => exact lt_of_lt_of_le hs.slot hcount
  | vacates => simp [Harness.place, Harness.enroll]
  | places hplacing =>
    exact (hs.new w (by rw [hcallers]; simp) _ (by rw [hplacing]; rfl)).1

lemma Seated.after (hs : x.Seated) (hcallers : x.callers = past ++ [w])
    (hstep : Harness.Step x.harness x.host w x' h' stage) :
    (x.after past w ((x', h'), stage)).Seated := by
  have hon : Onward x (x.after past w ((x', h'), stage)) := onward_after hstep
  have hlast : (x.after past w ((x', h'), stage)).stage? = some stage :=
    stage?_of_snoc (w := ⟨w.order, stage⟩) rfl
  have hnewcomer : ∀ i < x'.listeners.length, x.harness.listeners.length ≤ i →
      (x.after past w ((x', h'), stage)).Detached i ∨
        ∃ path, (x.after past w ((x', h'), stage)).Attached i path := by
    intro i hi hge
    obtain ⟨-, hdetached | ⟨path, alive, -, hattached⟩⟩ := hs.newcomer hcallers hstep hi hge
    · exact .inl hdetached
    · exact .inr ⟨path, hattached⟩
  -- part by part, and in each for who was there before and for the newcomer
  refine ⟨hs.slot_after hcallers hstep, fun i hi => ?_, fun i hi => ?_, fun i hi => ?_,
    fun v hv i hnew => ?_, fun c hc => ?_, fun s hs' path hheard => ?_, fun i hfollows => ?_⟩
  · rcases Nat.lt_or_ge i x.harness.listeners.length with hlt | hge
    · rcases hs.known i hlt with hdetached | ⟨path, hattached⟩
      · exact .inl (hdetached.onward hlt hon)
      · exact .inr ⟨path, hattached.onward hlt (hs.era i hlt) hon⟩
    · exact hnewcomer i hi hge
  · have hlogs : x.logs.length ≤ (x.after past w ((x', h'), stage)).logs.length :=
      hon.logs.length_le
    change (if i < x.harness.listeners.length then x.era i else x.logs.length) ≤ _
    split
    · rename_i hlt
      exact (hs.era i hlt).trans hlogs
    · exact hlogs
  · exact hs.rest i (hon.count.trans hi)
  · rcases List.mem_append.mp hv with hpast | hv
    · obtain ⟨hi, path, hattached⟩ := hs.new v (by rw [hcallers]; simp [hpast]) i hnew
      exact ⟨lt_of_lt_of_le hi hon.count, path, hattached.onward hi (hs.era i hi) hon⟩
    · rw [List.mem_singleton.mp hv] at hnew
      rcases hstep.new? hnew with hbefore | ⟨rfl, path, alive, l, hattaching, hengage, rfl⟩
      · obtain ⟨hi, path, hattached⟩ := hs.new w (by rw [hcallers]; simp) i hbefore
        exact ⟨lt_of_lt_of_le hi hon.count, path, hattached.onward hi (hs.era i hi) hon⟩
      · exact ⟨by simp [after, Harness.enroll],
          path, hs.attached_after hcallers hattaching hengage h' stage⟩
  · rw [hlast] at hc
    exact hs.waits_after hcallers hstep (Option.some.inj hc).symm
  · rw [hlast] at hs'
    obtain rfl := Option.some.inj hs'
    exact hs.heard_after hcallers hstep hheard
  · exact (hs.one_after hcallers hstep hfollows).imp_right fun hspares => ⟨stage, hlast, hspares⟩

lemma Seated.alone (hs : x.Seated) (hfree : x.isFree = true)
    (hfollows : x.harness.follows i = true) :
    i = x.harness.slot := by
  refine (hs.one i hfollows).resolve_right ?_
  rintro ⟨t, ht, hspares⟩
  rw [isFree, Option.mem_def.mp ht, Option.all_some] at hfree
  cases t <;> simp [Stage.reply?, Stage.spares] at hfree hspares

lemma Seated.calls (hs : x.Seated) (hfree : x.isFree = true) (o : Order) :
    Seated { x with callers := x.callers ++ [⟨o, .ready⟩] } := by
  have hlast : Site.stage? { x with callers := x.callers ++ [⟨o, .ready⟩] } = some .ready :=
    stage?_of_snoc (w := ⟨o, .ready⟩) rfl
  refine ⟨hs.slot, hs.known, hs.era, hs.rest, fun v hv i hnew => ?_, fun c hc => ?_,
    fun s hs' path hheard => ?_, fun i hfollows => .inl ?_⟩
  · rcases List.mem_append.mp hv with hpast | hv
    · exact hs.new v hpast i hnew
    · rw [List.mem_singleton.mp hv] at hnew
      cases hnew
  · rw [hlast] at hc
    cases hc
  · rw [hlast] at hs'
    obtain rfl := Option.some.inj hs'
    cases hheard
  · exact hs.alone hfree hfollows

lemma Seated.apply (hs : x.Seated) (m : Move) : (x.apply m).Seated := by
  cases m with
  | go =>
    rcases x.go_cases with ⟨-, hsame⟩ | ⟨past, w, r, hcallers, hstep, hafter⟩
    · rwa [hsame]
    · rw [hafter]
      exact hs.after hcallers hstep
  | calls o =>
    rw [Site.apply]
    split
    · rename_i hfree
      exact hs.calls hfree o
    · exact hs
  | asks => exact hs.aside (aside_apply x (by simp) (by simp)) hs.rest
  | system e => exact hs.aside (aside_apply x (by simp) (by simp)) hs.rest
  | seat j m =>
    refine hs.aside (aside_apply x (by simp) (by simp)) fun i hi => ?_
    rw [Site.apply]
    split
    · rcases eq_or_ne i j with rfl | hne
      -- nobody sits at this place, and a detached listener never holds a line
      · have hview : x.view i = World.begin x.host.disk .detached := by
          rw [view, hs.rest i hi, List.getD_eq_default _ _ hi]
          rfl
        have hended := ((World.unserved_detached x.host.disk).apply m).ended
        simp only [Function.update_self, hview]
        exact hended.hand
      · simp only [Function.update_of_ne hne]
        exact hs.rest i hi
    · exact hs.rest i hi

/-- **Every listener was attached to the log of the run of its time or to none, and follows a log
only while it is in the slot, on its way there or on its way out.** -/
theorem Seated.run (hs : x.Seated) (moves : List Move) : (x.run moves).Seated := by
  induction moves generalizing x with
  | nil => exact hs
  | cons m moves ih => exact ih (hs.apply m)

end Site

end LogWatch
