import Mathlib
import LogWatch.Harness
import LogWatch.Proofs.Node.Call

/-!
An order to a harness, as its caller carries it out.

A start is a step of the node, a look whether it lives, an attempt to attach, the change of the slot
and the stop of whichever listener was there. A stop and a reset change the slot first and come to
the node when the old listener is no more. Between two steps all followers go on, also that of a
listener which is on its way out, and processes may end.
-/

namespace LogWatch

namespace Harness

inductive Order where
  | start
  | stop
  | restart
  | reset
deriving DecidableEq, Repr

inductive Reply where
  /-- There is a new listener, with this number. -/
  | listening (i : ℕ)
  | ended (s : ExitStatus)
  | wiped
  | failed (e : HarnessError)
deriving DecidableEq, Repr

/-- How far a caller has come. -/
inductive Stage where
  | ready
  /-- Has something done by the node. -/
  | calling (w : Node.Caller)
  /-- Has started the node, which logs to this file. -/
  | started (path : String)
  /-- Has looked whether the node lives, and is about to attach a listener. -/
  | attaching (path : String) (alive : Bool)
  /-- Kills the node since no listener could be attached. -/
  | cleaning (stage : Node.Stage) (e : ListenError)
  /-- Has attached a listener, and is about to put it into the slot. -/
  | placing (i : ℕ)
  /-- Stops the listener that was in the slot; `asked` says whether its follower was told. The slot
  has the new listener `next?`, or a detached one. -/
  | retiring (j : ℕ) (asked : Bool) (next? : Option ℕ)
  | done (r : Reply)
deriving DecidableEq, Repr

namespace Stage

def reply? : Stage → Option Reply
  | done r => some r
  | _ => none

/-- The log of the run that was just started. -/
def log? : Stage → Option String
  | started path => some path
  | _ => none

/-- The log of the run that is about to be listened to. -/
def heard? : Stage → Option String
  | started path | attaching path _ => some path
  | _ => none

/-- The listener that is new. -/
def new? : Stage → Option ℕ
  | placing i => some i
  | retiring _ _ next? => next?
  | done (.listening i) => some i
  | _ => none

/-- Whether a listener is about to come to the slot, or was there and is being stopped. -/
def spares : Stage → ℕ → Bool
  | placing i, j | retiring i _ _, j => i = j
  | _, _ => false

end Stage

structure Caller where
  order : Order
  stage : Stage
deriving DecidableEq, Repr

namespace Order

/-- What the node is told once nobody listens to it any more. -/
def onNode : Order → Node.Order
  | reset => .reset
  | start | stop | restart => .stop

/-- What comes after the answer of the node. -/
def settle (o : Order) : Node.Reply → Stage
  | .started path => .started path
  | .ended s => if o = .restart then .calling ⟨.start, .ready⟩ else .done (.ended s)
  | .wiped => .done .wiped
  | .failed e => .done (.failed (.node e))

/-- What comes after a step of the node. -/
def proceed (o : Order) (w : Node.Caller) : Stage :=
  match w.stage.reply? with
  | none => .calling w
  | some r => o.settle r

end Order

/-- What comes after a step of the kill. -/
def cleaned (e : ListenError) (stage : Node.Stage) : Stage :=
  match stage.reply? with
  | none => .cleaning stage e
  | some _ => .done (.failed (.listener e))

/-- What comes after the old listener is no more. -/
def Order.afterwards (o : Order) (next? : Option ℕ) : Stage :=
  match next? with
  | some i => .done (.listening i)
  | none => .calling ⟨o.onNode, .ready⟩

/-- Whether the follower of a listener has not come to its end. -/
def follows (x : Harness) (i : ℕ) : Bool := (x.listeners.getD i .detached).isFollowing

/-- One step of a caller. -/
def step (x : Harness) (h : Host) (w : Caller) : (Harness × Host) × Stage :=
  match w.stage with
  | .ready =>
    if w.order = .start ∨ (w.order = .restart ∧ x.node.pid? = none) then
      ((x, h), .calling ⟨.start, .ready⟩)
    else (((x.place .detached).1, h), .retiring x.slot false none)
  | .calling c =>
    let ((node, h), stage) := x.node.step h c
    (({ x with node }, h), w.order.proceed { c with stage })
  | .started path =>
    let ((node, h), alive) := x.node.isAlive h
    (({ x with node }, h), .attaching path alive)
  | .attaching _ alive =>
    match x.engage h alive with
    | .error e => ((x, h), .cleaning .ready e)
    | .ok l => (((x.enroll l).1, h), .placing x.listeners.length)
  | .cleaning stage e =>
    let ((node, h), stage) := x.node.step h ⟨.kill, stage⟩
    (({ x with node }, h), cleaned e stage)
  | .placing i => (({ x with slot := i }, h), .retiring x.slot false (some i))
  | .retiring j asked next? =>
    match x.follows j, asked with
    | true, true => ((x, h), .retiring j true next?)
    | true, false =>
      (({ x with listeners := x.listeners.modify j (·.requestStop) }, h), .retiring j true next?)
    | false, true =>
      (({ x with listeners := x.listeners.modify j (·.closeStopped) }, h),
        w.order.afterwards next?)
    | false, false => ((x, h), w.order.afterwards next?)
  | .done r => ((x, h), .done r)

variable {x x' : Harness} {h h' : Host} {w : Caller} {stage : Stage}

/-! ### What a step can do -/

/-- What one step of a caller makes of the harness, the machine and the caller's stage. -/
inductive Step (x : Harness) (h : Host) (w : Caller) : Harness → Host → Stage → Prop
  | heads (ready : w.stage = .ready)
      (order : w.order = .start ∨ (w.order = .restart ∧ x.node.pid? = none)) :
      Step x h w x h (.calling ⟨.start, .ready⟩)
  | vacates (ready : w.stage = .ready) (order : w.order ≠ .start) :
      Step x h w (x.place .detached).1 h (.retiring x.slot false none)
  | calls {c : Node.Caller} {n : Node} {h' : Host} {s : Node.Stage} (calling : w.stage = .calling c)
      (step : Node.Step x.node h c n h' s) :
      Step x h w { x with node := n } h' (w.order.proceed { c with stage := s })
  | looks {path : String} (started : w.stage = .started path) :
      Step x h w { x with node := (x.node.isAlive h).1.1 } (x.node.isAlive h).1.2
        (.attaching path (x.node.isAlive h).2)
  | misses {path : String} {alive : Bool} {e : ListenError}
      (attaching : w.stage = .attaching path alive) (fault : x.engage h alive = .error e) :
      Step x h w x h (.cleaning .ready e)
  | attaches {path : String} {alive : Bool} {l : Listener}
      (attaching : w.stage = .attaching path alive) (attached : x.engage h alive = .ok l) :
      Step x h w (x.enroll l).1 h (.placing x.listeners.length)
  | cleans {s s' : Node.Stage} {e : ListenError} {n : Node} {h' : Host}
      (cleaning : w.stage = .cleaning s e) (step : Node.Step x.node h ⟨.kill, s⟩ n h' s') :
      Step x h w { x with node := n } h' (cleaned e s')
  | places {i : ℕ} (placing : w.stage = .placing i) :
      Step x h w { x with slot := i } h (.retiring x.slot false (some i))
  | waits {j : ℕ} {next? : Option ℕ} (retiring : w.stage = .retiring j true next?) :
      Step x h w x h (.retiring j true next?)
  | tells {j : ℕ} {next? : Option ℕ} (retiring : w.stage = .retiring j false next?) :
      Step x h w { x with listeners := x.listeners.modify j (·.requestStop) } h
        (.retiring j true next?)
  | closes {j : ℕ} {next? : Option ℕ} (retiring : w.stage = .retiring j true next?)
      (over' : x.follows j = false) :
      Step x h w { x with listeners := x.listeners.modify j (·.closeStopped) } h
        (w.order.afterwards next?)
  | passes {j : ℕ} {next? : Option ℕ} (retiring : w.stage = .retiring j false next?)
      (over' : x.follows j = false) : Step x h w x h (w.order.afterwards next?)
  | rests {r : Reply} (done : w.stage = .done r) : Step x h w x h (.done r)

/-- **Every step of a caller is one of these.** -/
theorem step_spec (x : Harness) (h : Host) (w : Caller) :
    Step x h w (x.step h w).1.1 (x.step h w).1.2 (x.step h w).2 := by
  cases hstage : w.stage with
  | ready =>
    simp only [step, hstage]
    split
    · rename_i horder
      exact .heads hstage horder
    · rename_i horder
      exact .vacates hstage fun hstart => horder (.inl hstart)
  | calling c =>
    simp only [step, hstage]
    exact .calls hstage (x.node.step_spec h c)
  | started path =>
    simp only [step, hstage]
    exact .looks hstage
  | attaching path alive =>
    cases hengage : x.engage h alive with
    | error e =>
      simp only [step, hstage, hengage]
      exact .misses hstage hengage
    | ok l =>
      simp only [step, hstage, hengage]
      exact .attaches hstage hengage
  | cleaning s e =>
    simp only [step, hstage]
    exact .cleans hstage (x.node.step_spec h ⟨.kill, s⟩)
  | placing i =>
    simp only [step, hstage]
    exact .places hstage
  | retiring j asked next? =>
    cases hfollows : x.follows j <;> cases asked <;> simp only [step, hstage, hfollows]
    · exact .passes hstage hfollows
    · exact .closes hstage hfollows
    · exact .tells hstage
    · exact .waits hstage
  | done r =>
    simp only [step, hstage]
    exact .rests hstage

/-! ### What becomes of the listeners -/

/-- What a step makes of a listener that was there before: it may be told to stop, and closed when
its follower is no more. -/
inductive Treated (l : Listener) : Listener → Prop
  | left : Treated l l
  | told : Treated l l.requestStop
  | closed (over' : l.isFollowing = false) : Treated l l.closeStopped

lemma getD_modify {j i : ℕ} {ls : List Listener} {f : Listener → Listener} (hi : i < ls.length) :
    (ls.modify j f).getD i .detached =
      if j = i then f (ls.getD i .detached) else ls.getD i .detached := by
  rw [List.getD_eq_getElem?_getD, List.getD_eq_getElem?_getD, List.getElem?_modify]
  split <;> simp [List.getElem?_eq_getElem hi]

lemma getD_snoc {i : ℕ} {ls : List Listener} (l : Listener) (hi : i < ls.length) :
    (ls ++ [l]).getD i .detached = ls.getD i .detached := by
  rw [List.getD_eq_getElem?_getD, List.getD_eq_getElem?_getD, List.getElem?_append_left hi]

/-- No listener is lost, and each is left alone, told to stop or closed. -/
lemma Step.treated (hstep : Step x h w x' h' stage) :
    x.listeners.length ≤ x'.listeners.length ∧
    ∀ i < x.listeners.length,
      Treated (x.listeners.getD i .detached) (x'.listeners.getD i .detached) := by
  -- a listener may come at the end of the list, and one may be told or closed
  cases hstep with
  | heads | calls | looks | misses | cleans | places | waits | passes | rests =>
    exact ⟨le_rfl, fun i _ => .left⟩
  | vacates | attaches =>
    refine ⟨by simp [place, enroll], fun i hi => ?_⟩
    change Treated _ ((x.listeners ++ [_]).getD i .detached)
    rw [getD_snoc _ hi]
    exact .left
  | tells =>
    refine ⟨by simp, fun i hi => ?_⟩
    rw [getD_modify hi]
    split
    · exact .told
    · exact .left
  | closes _ hover =>
    refine ⟨by simp, fun i hi => ?_⟩
    rw [getD_modify hi]
    split
    · rename_i hij
      exact .closed (hij ▸ hover)
    · exact .left

lemma Step.enrolls (hstep : Step x h w x' h' stage) :
    x'.listeners.length = x.listeners.length ∨ x' = (x.place .detached).1 ∨
    ∃ path alive l, w.stage = .attaching path alive ∧ x.engage h alive = .ok l ∧
      x' = (x.enroll l).1 := by
  cases hstep with
  | heads | calls | looks | misses | cleans | places | waits | passes | rests => exact .inl rfl
  | tells | closes => exact .inl (List.length_modify ..)
  | vacates => exact .inr (.inl rfl)
  | attaches hattaching hattached =>
    exact .inr (.inr ⟨_, _, _, hattaching, hattached, rfl⟩)

lemma new?_proceed (o : Order) (c : Node.Caller) : (o.proceed c).new? = none := by
  unfold Order.proceed Order.settle
  split
  · rfl
  · split
    · rfl
    · split <;> rfl
    · rfl
    · rfl

lemma new?_cleaned (e : ListenError) (s : Node.Stage) : (cleaned e s).new? = none := by
  unfold cleaned
  split <;> rfl

lemma new?_afterwards (o : Order) (next? : Option ℕ) : (o.afterwards next?).new? = next? := by
  cases next? <;> rfl

lemma Step.new? {i : ℕ} (hstep : Step x h w x' h' stage) (hnew : stage.new? = some i) :
    w.stage.new? = some i ∨ i = x.listeners.length ∧ ∃ path alive l,
      w.stage = .attaching path alive ∧ x.engage h alive = .ok l ∧ x' = (x.enroll l).1 := by
  cases hstep with
  | heads | vacates | looks | misses => cases hnew
  | calls => simp [new?_proceed] at hnew
  | cleans => simp [new?_cleaned] at hnew
  | attaches hattaching hattached =>
    exact .inr ⟨(Option.some.inj hnew).symm, _, _, _, hattaching, hattached, rfl⟩
  | places hstage => exact .inl (by rw [hstage]; exact hnew)
  | waits hstage | tells hstage => exact .inl (by rw [hstage]; exact hnew)
  | closes hstage | passes hstage =>
    rw [new?_afterwards] at hnew
    exact .inl (by rw [hstage]; exact hnew)
  | rests hstage => exact .inl (by rw [hstage]; exact hnew)

lemma Step.listening (hstep : Step x h w x' h' stage) : x'.listening = x.listening := by
  cases hstep <;> rfl

/-! ### Attaching -/

lemma attach_of_engage {alive : Bool} {l : Listener} (hengage : x.engage h alive = .ok l) :
    Listener.attach h.disk x.listening alive x.node.logPath? = .ok l := by
  unfold engage at hengage
  split at hengage
  · cases hengage
  · cases hengage
  · rename_i hattach _
    rw [hattach, Except.ok.inj hengage]

lemma alive_of_engage {alive : Bool} {l : Listener} (hengage : x.engage h alive = .ok l) :
    alive = true := by
  have hattach := attach_of_engage hengage
  unfold Listener.attach at hattach
  split at hattach
  · cases hattach
  · cases hattach
  · rfl
  · rfl

end Harness

end LogWatch
