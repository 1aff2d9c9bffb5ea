import Mathlib
import LogWatch.Proofs.Node.Company

/-!
One caller of a node at a time.

What the node says of itself can then be read off what its callers have done and been told: it
holds a child from the start that made it until somebody stops, kills or resets the node or has
waited for the child's end, and its log is that of the last start that no reset has wiped. This is
kept by every step of the one caller who is under way, and by whatever happens by itself.
-/

namespace LogWatch

open Node (Order Reply Stage)

section Latest

variable {α : Type} {p q : α → Prop} {x : α} {xs : List α}

/-- Something is so, and all that came later left it at that. -/
def Latest (p q : α → Prop) (xs : List α) : Prop :=
  ∃ before x after, xs = before ++ x :: after ∧ p x ∧ ∀ y ∈ after, q y

lemma not_latest_nil : ¬ Latest p q [] := by
  rintro ⟨before, x, after, h, -⟩
  simp at h

lemma latest_snoc : Latest p q (xs ++ [x]) ↔ p x ∨ (q x ∧ Latest p q xs) := by
  constructor
  · rintro ⟨before, y, after, heq, hy, hafter⟩
    rcases List.eq_nil_or_concat after with rfl | ⟨after, z, rfl⟩
    · obtain ⟨-, rfl⟩ := List.append_singleton_inj.mp heq
      exact .inl hy
    · rw [List.concat_eq_append] at hafter heq
      rw [← List.cons_append, ← List.append_assoc] at heq
      obtain ⟨hxs, rfl⟩ := List.append_singleton_inj.mp heq
      exact .inr ⟨hafter x (by simp), before, y, after, hxs, hy,
        fun z hz => hafter z (List.mem_append_left _ hz)⟩
  · rintro (hx | ⟨hx, before, y, after, rfl, hy, hafter⟩)
    · exact ⟨xs, x, [], rfl, hx, by simp⟩
    · refine ⟨before, y, after ++ [x], by simp, hy, fun z hz => ?_⟩
      rcases List.mem_append.mp hz with hz | hz
      · exact hafter z hz
      · rwa [List.mem_singleton.mp hz]

end Latest

namespace Node.Caller

/-- The log of the run that the caller has started. -/
def started? (w : Caller) : Option String :=
  match w.stage with
  | .done (.started path) => some path
  | _ => none

/-- Whether the caller has made the node let go of its child, if it held one. -/
def letsGo (w : Caller) : Bool :=
  match w.order, w.stage with
  | .start, _ => false
  | .wait, .done (.ended _) => true
  | .wait, _ => false
  | .stop, stage | .kill, stage | .reset, stage => stage ≠ .ready

def hasWiped (w : Caller) : Bool := w.stage matches .done .wiped

end Node.Caller

namespace Company

/-- Whether nobody is under way. -/
def isFree (v : Company) : Bool := v.callers.all (·.stage.reply?.isSome)

/-- Whoever calls while another one is under way is not heard. -/
def applyInTurn (v : Company) : Move → Company
  | .calls o => if v.isFree then v.apply (.calls o) else v
  | m => v.apply m

def runInTurn (v : Company) (moves : List Move) : Company := moves.foldl applyInTurn v

/-! ### The books -/

/-- A child is held since the last start that made one, unless somebody let go of it. -/
def HeldBy (callers : List Node.Caller) (pid? : Option ℕ) : Prop :=
  pid?.isSome = true ↔ Latest (·.started?.isSome = true) (·.letsGo = false) callers

/-- The log is that of the last start, unless it was wiped. -/
def LoggedBy (callers : List Node.Caller) (log? : Option String) : Prop :=
  ∀ path, log? = some path ↔
    Latest (·.started? = some path) (fun w => w.started? = none ∧ w.hasWiped = false) callers

section Snoc

variable {callers : List Node.Caller} {w : Node.Caller} {pid? : Option ℕ} {log? : Option String}

lemma heldBy_snoc (hw : w.started? = none) (hkeeps : w.letsGo = false) :
    HeldBy (callers ++ [w]) pid? ↔ HeldBy callers pid? := by
  simp [HeldBy, latest_snoc, hw, hkeeps]

lemma heldBy_snoc_of_started {path : String} (hw : w.started? = some path) (pid : ℕ) :
    HeldBy (callers ++ [w]) (some pid) := by
  simp [HeldBy, latest_snoc, hw]

lemma heldBy_snoc_of_letsGo (hw : w.started? = none) (hgoes : w.letsGo = true) :
    HeldBy (callers ++ [w]) pid? ↔ pid? = none := by
  simp [HeldBy, latest_snoc, hw, hgoes]

lemma loggedBy_snoc (hw : w.started? = none) (hkept : w.hasWiped = false) :
    LoggedBy (callers ++ [w]) log? ↔ LoggedBy callers log? := by
  simp [LoggedBy, latest_snoc, hw, hkept]

lemma loggedBy_snoc_of_started {path : String} (hw : w.started? = some path) :
    LoggedBy (callers ++ [w]) (some path) := by
  simp [LoggedBy, latest_snoc, hw]

lemma loggedBy_snoc_of_wiped (hw : w.started? = none) (hwiped : w.hasWiped = true) :
    LoggedBy (callers ++ [w]) none := by
  simp [LoggedBy, latest_snoc, hw, hwiped]

end Snoc

/-- What the node holds and where its log is, read off what its callers have done. -/
structure Booked (callers : List Node.Caller) (n : Node) : Prop where
  held : HeldBy callers n.pid?
  log : LoggedBy callers n.logPath?

/-- Only who stops, kills or resets takes a child out of the node. -/
def Proper (w : Node.Caller) : Prop :=
  w.stage.hand?.isSome = true → w.order = .stop ∨ w.order = .kill ∨ w.order = .reset

section Step

variable {callers : List Node.Caller} {w : Node.Caller} {n n' : Node} {h h' : Host} {stage : Stage}

lemma booked_snoc_ready (o : Order) : Booked (callers ++ [⟨o, .ready⟩]) n ↔ Booked callers n := by
  have hgoes : (⟨o, .ready⟩ : Node.Caller).letsGo = false := by cases o <;> rfl
  constructor
  · rintro ⟨hheld, hlog⟩
    exact ⟨(heldBy_snoc rfl hgoes).mp hheld, (loggedBy_snoc rfl rfl).mp hlog⟩
  · rintro ⟨hheld, hlog⟩
    exact ⟨(heldBy_snoc rfl hgoes).mpr hheld, (loggedBy_snoc rfl rfl).mpr hlog⟩

lemma letsGo_of_order (ho : w.order = .stop ∨ w.order = .kill ∨ w.order = .reset)
    (hstage : w.stage ≠ .ready) : w.letsGo = true := by
  obtain ⟨o, stage⟩ := w
  rcases ho with rfl | rfl | rfl <;> simpa [Node.Caller.letsGo] using hstage

lemma booked_of_hand (hproper : Proper w) {c : Child} (hhand : w.stage.hand? = some c) :
    Booked (callers ++ [w]) n ↔ n.pid? = none ∧ LoggedBy callers n.logPath? := by
  have hgoes : w.letsGo = true := by
    refine letsGo_of_order (hproper (by rw [hhand]; rfl)) fun hready => ?_
    rw [hready] at hhand
    cases hhand
  have hstarted : w.started? = none ∧ w.hasWiped = false := by
    obtain ⟨o, stage⟩ := w
    cases stage with
    | ready | done r => cases hhand
    | outlasting | burying | lost => exact ⟨rfl, rfl⟩
  constructor
  · rintro ⟨hheld, hlog⟩
    exact ⟨(heldBy_snoc_of_letsGo hstarted.1 hgoes).mp hheld,
      (loggedBy_snoc hstarted.1 hstarted.2).mp hlog⟩
  · rintro ⟨hnone, hlog⟩
    exact ⟨(heldBy_snoc_of_letsGo hstarted.1 hgoes).mpr hnone,
      (loggedBy_snoc hstarted.1 hstarted.2).mpr hlog⟩

lemma booked_of_failed {e : NodeError} (o : Order) (hlog : LoggedBy callers n.logPath?)
    (hheld : if o = .start ∨ o = .wait then HeldBy callers n.pid? else n.pid? = none) :
    Booked (callers ++ [⟨o, .done (.failed e)⟩]) n := by
  refine ⟨?_, (loggedBy_snoc rfl rfl).mpr hlog⟩
  cases o with
  | start | wait => exact (heldBy_snoc rfl rfl).mpr (by simpa using hheld)
  | stop | kill | reset => exact (heldBy_snoc_of_letsGo rfl rfl).mpr (by simpa using hheld)

lemma booked_of_ended {s : ExitStatus} {o : Order} (ho : o ≠ .start)
    (hlog : LoggedBy callers n.logPath?) (hnone : n.pid? = none) :
    Booked (callers ++ [⟨o, .done (.ended s)⟩]) n := by
  refine ⟨(heldBy_snoc_of_letsGo rfl ?_).mpr hnone,
    (loggedBy_snoc rfl rfl).mpr hlog⟩
  cases o <;> first | exact absurd rfl ho | rfl

lemma booked_of_swept {r : Reply} (hlog : LoggedBy callers n.logPath?) (hnone : n.pid? = none)
    (hswept : Node.Swept n h n' h' r) : Booked (callers ++ [⟨.reset, .done r⟩]) n' := by
  cases hswept with
  | fails disk e => exact booked_of_failed .reset hlog (by simpa using hnone)
  | wipes disk =>
    exact ⟨(heldBy_snoc_of_letsGo rfl rfl).mpr hnone, loggedBy_snoc_of_wiped rfl rfl⟩

lemma Proper.step (hproper : Proper w) (hstep : Node.Step n h w n' h' stage) :
    Proper ⟨w.order, stage⟩ := by
  intro hhand
  cases hstep with
  | refuses | fails | starts | nobody | watches | sees | sweeps | concludes | rests => cases hhand
  | takes order => exact order
  | holds hhand => exact hproper (by rw [hhand]; rfl)

/-- **A step of the one caller who is under way keeps the books.** -/
theorem Booked.step (hbooked : Booked (callers ++ [w]) n) (hwaits : w.stage.reply? = none)
    (hproper : Proper w) (hstep : Node.Step n h w n' h' stage) :
    Booked (callers ++ [⟨w.order, stage⟩]) n' := by
  have hproper' := hproper.step hstep
  obtain ⟨o, old⟩ := w
  -- Whoever has taken no step yet is not in the books, so they can be read without it.
  have hready : old = .ready → Booked callers n := by
    rintro rfl
    exact (booked_snoc_ready o).mp hbooked
  cases hstep with
  | refuses order ready =>
    obtain rfl : o = .start := order
    obtain ⟨hheld, hlog⟩ := hready ready
    exact booked_of_failed .start hlog (by simpa using hheld)
  | fails order ready hdown =>
    obtain rfl : o = .start := order
    obtain ⟨hheld, hlog⟩ := hready ready
    obtain ⟨hpid, hpath⟩ := Node.pid?_of_down hdown
    rw [← hpid] at hheld
    rw [← hpath] at hlog
    exact booked_of_failed .start hlog (by simpa using hheld)
  | starts order ready hdown =>
    exact ⟨heldBy_snoc_of_started rfl _, loggedBy_snoc_of_started rfl⟩
  | nobody order ready habsent =>
    obtain ⟨hheld, hlog⟩ := hready ready
    have hnone : n.pid? = none := by simp [Node.pid?, habsent]
    refine booked_of_failed o hlog ?_
    split
    · exact hheld
    · exact hnone
  | watches order ready => exact (booked_snoc_ready o).mpr (hready ready)
  | sees order ready =>
    obtain rfl : o = .wait := order
    exact booked_of_ended (by simp) (hready ready).log rfl
  | sweeps order ready habsent hswept =>
    obtain rfl : o = .reset := order
    exact booked_of_swept (hready ready).log (by simp [Node.pid?, habsent]) hswept
  | takes order ready hheld hhand =>
    exact (booked_of_hand hproper' hhand).mpr ⟨rfl, (hready ready).log⟩
  | holds hhand hhand' =>
    exact (booked_of_hand hproper' hhand').mpr ((booked_of_hand hproper hhand).mp hbooked)
  | concludes hhand _ hseen hconcluded =>
    obtain ⟨hnone, hlog⟩ := (booked_of_hand hproper hhand).mp hbooked
    cases hconcluded with
    | ends hother =>
      refine booked_of_ended ?_ hlog hnone
      rintro rfl
      simpa using hproper (by rw [hhand]; rfl)
    | sweeps order hswept =>
      obtain rfl : o = .reset := order
      exact booked_of_swept hlog hnone hswept
  | rests hdone =>
    rw [hdone] at hwaits
    cases hwaits

end Step

/-! ### One at a time -/

variable {v v' v₁ v₂ : Company} {o : Order} {w : Node.Caller} {i : ℕ}

lemma apply_go_of_reply (hw : v.callers[i]? = some w) (hreply : w.stage.reply?.isSome = true) :
    v.apply (.go i) = v := by
  obtain ⟨hi, hget⟩ := List.getElem?_eq_some_iff.mp hw
  have hstep : v.node.step v.host w = ((v.node, v.host), w.stage) := by
    obtain ⟨o, stage⟩ := w
    cases stage with
    | ready | outlasting | burying => cases hreply
    | lost | done => rfl
  rw [apply_go hw, hstep, ← hget, List.set_getElem_self]

/-- What is so at every moment of a run in turn. -/
structure Ordered (v : Company) : Prop where
  holds : v.Holds
  booked : Booked v.callers v.node
  proper : ∀ w ∈ v.callers, Proper w
  turns : ∀ w ∈ v.callers.dropLast, w.stage.reply?.isSome = true

lemma ordered_begin (s : NodeSettings) (d : Disk) (clock nextPid : ℕ) :
    (begin s d clock nextPid).Ordered := by
  refine ⟨holds_begin s d clock nextPid, ⟨?_, fun path => ?_⟩, by simp [begin], by simp [begin]⟩
  · simp [HeldBy, begin, Node.ofSettings, Node.pid?, not_latest_nil]
  · simp [begin, Node.ofSettings, not_latest_nil]

lemma eq_snoc_of_waits {callers : List Node.Caller}
    (hturns : ∀ w ∈ callers.dropLast, w.stage.reply?.isSome = true) (hw : callers[i]? = some w)
    (hwaits : w.stage.reply? = none) : callers = callers.dropLast ++ [w] ∧
      i = callers.dropLast.length := by
  rcases List.eq_nil_or_concat callers with rfl | ⟨past, z, rfl⟩
  · simp at hw
  · rw [List.concat_eq_append] at hturns hw ⊢
    rw [List.dropLast_concat] at hturns ⊢
    have hi : i < (past ++ [z]).length := (List.getElem?_eq_some_iff.mp hw).1
    simp only [List.length_append, List.length_singleton] at hi
    rcases Nat.lt_or_ge i past.length with hlt | hge
    · rw [List.getElem?_append_left hlt] at hw
      have hreply := hturns w (List.mem_of_getElem? hw)
      simp [hwaits] at hreply
    · obtain rfl : i = past.length := by omega
      simp at hw
      exact ⟨by rw [hw], rfl⟩

lemma Ordered.go (hv : v.Ordered) (i : ℕ) : (v.apply (.go i)).Ordered := by
  cases hw : v.callers[i]? with
  | none => rwa [apply_go_of_none hw]
  | some w =>
    cases hwaits : w.stage.reply? with
    | some r => rwa [apply_go_of_reply hw (by rw [hwaits]; rfl)]
    | none =>
      -- callers come one after the other, so only the last still waits
      obtain ⟨hcallers, hi⟩ := eq_snoc_of_waits hv.turns hw hwaits
      have hbooked := hv.booked
      rw [hcallers] at hbooked
      have hproper := hv.proper w (List.mem_of_getElem? hw)
      have hstep := v.node.step_spec v.host w
      have hafter : (v.apply (.go i)).callers =
          v.callers.dropLast ++ [⟨w.order, (v.node.step v.host w).2⟩] := by
        rw [apply_go hw]
        change v.callers.set i _ = _
        conv_lhs => rw [hcallers, hi]
        simp
      refine ⟨hv.holds.go i, ?_, ?_, ?_⟩
      · rw [hafter, apply_go hw]
        exact hbooked.step hwaits hproper hstep
      · rw [hafter]
        intro w' hw'
        rcases List.mem_append.mp hw' with hpast | hlast
        · exact hv.proper w' (List.mem_of_mem_dropLast hpast)
        · rw [List.mem_singleton.mp hlast]
          exact hproper.step hstep
      · rw [hafter, List.dropLast_concat]
        exact hv.turns

lemma Ordered.applyInTurn (hv : v.Ordered) (m : Move) : (v.applyInTurn m).Ordered := by
  cases m with
  | go i => exact hv.go i
  | system e => exact ⟨hv.holds.apply (.system e), hv.booked, hv.proper, hv.turns⟩
  | asks =>
    have hholds := hv.holds.apply .asks
    rcases Node.isAlive_cases v.node v.host with ⟨c, -, -, -, halive⟩ | ⟨n, h, hdown, hdead⟩
    · simp only [Company.applyInTurn, apply, halive]
      exact hv
    · simp only [Company.applyInTurn, apply, hdead] at hholds ⊢
      obtain ⟨hpid, hpath⟩ := Node.pid?_of_down hdown
      exact ⟨hholds, ⟨hpid ▸ hv.booked.held, hpath ▸ hv.booked.log⟩, hv.proper, hv.turns⟩
  | calls o =>
    simp only [Company.applyInTurn]
    split
    · rename_i hfree
      refine ⟨hv.holds.apply (.calls o), (booked_snoc_ready o).mpr hv.booked, fun w hw => ?_, ?_⟩
      · rcases List.mem_append.mp hw with hpast | hlast
        · exact hv.proper w hpast
        · rw [List.mem_singleton.mp hlast]
          intro hhand
          cases hhand
      · simp only [apply, List.dropLast_concat]
        exact fun w hw => List.all_eq_true.mp hfree w hw
    · exact hv

lemma Ordered.runInTurn (hv : v.Ordered) (moves : List Move) : (v.runInTurn moves).Ordered := by
  induction moves generalizing v with
  | nil => exact hv
  | cons m moves ih => exact ih (hv.applyInTurn m)

/-! ### From a call to its answer -/

/-- A caller who came when nobody was under way, and still waits. -/
structure Waiting (v : Company) (o : Order) (v₁ : Company) : Prop where
  free : v.isFree = true
  run : ∃ moves, (∀ m ∈ moves, ∀ other, m ≠ .calls other) ∧ v₁ = (v.apply (.calls o)).run moves
  waits : ∃ stage, v₁.callers[v.callers.length]? = some ⟨o, stage⟩ ∧ stage.reply? = none

/-- The caller who waited goes on and has this answer then. -/
structure Answered (v : Company) (o : Order) (v₁ v₂ : Company) (r : Reply) : Prop where
  waiting : Waiting v o v₁
  goes : v₂ = v₁.apply (.go v.callers.length)
  answer : ∃ stage, v₂.callers[v.callers.length]? = some ⟨o, stage⟩ ∧ stage.reply? = some r

/-- How the node stands while a caller is under way, compared with when it came. -/
structure Since (v : Company) (o : Order) (stage : Stage) (v₁ : Company) : Prop where
  callers : v₁.callers = v.callers ++ [⟨o, stage⟩]
  holds : v₁.Holds
  proper : Proper ⟨o, stage⟩
  settings : v₁.node.settings = v.node.settings
  ready : stage = .ready → v₁.node.pid? = v.node.pid?
  took : stage.hand?.isSome = true → v.node.pid? ≠ none
  log : stage.reply? = none → v₁.node.logPath? = v.node.logPath?

lemma since_calls (hholds : v.Holds) (o : Order) : Since v o .ready (v.apply (.calls o)) :=
  ⟨rfl, hholds.apply (.calls o), by simp [Proper, Stage.hand?], rfl, fun _ => rfl,
    by simp [Stage.hand?], fun _ => rfl⟩

lemma Since.step {stage stage' : Stage} {n : Node} {h : Host} (hs : Since v o stage v₁)
    (hwaits : stage.reply? = none) (hstep : Node.Step v₁.node v₁.host ⟨o, stage⟩ n h stage')
    (hholds : (⟨n, h, v.callers ++ [⟨o, stage'⟩]⟩ : Company).Holds) :
    Since v o stage' ⟨n, h, v.callers ++ [⟨o, stage'⟩]⟩ := by
  refine ⟨rfl, hholds, hs.proper.step hstep, hstep.settings.trans hs.settings, ?_, ?_, ?_⟩
  · intro hready
    cases hstep with
    | watches _ hbefore => exact hs.ready hbefore
    | takes _ _ _ hhand | holds _ hhand =>
      rw [hready] at hhand
      cases hhand
    | refuses | fails | starts | nobody | sees | sweeps | concludes | rests => cases hready
  · intro hhand
    cases hstep with
    | takes _ hbefore hheld =>
      rw [← hs.ready hbefore]
      simp [Node.pid?, hheld]
    | holds hbefore => exact hs.took (by rw [hbefore]; rfl)
    | refuses | fails | starts | nobody | watches | sees | sweeps | concludes | rests => cases hhand
  · intro hreply
    cases hstep with
    | watches | takes | holds => exact hs.log hwaits
    | refuses | fails | starts | nobody | sees | sweeps | concludes | rests => cases hreply

lemma Since.go {stage : Stage} (hs : Since v o stage v₁) (hfree : v.isFree = true) (i : ℕ) :
    ∃ stage', Since v o stage' (v₁.apply (.go i)) := by
  cases hw : v₁.callers[i]? with
  | none => exact ⟨stage, by rwa [apply_go_of_none hw]⟩
  | some w =>
    cases hwaits : w.stage.reply? with
    | some r => exact ⟨stage, by rwa [apply_go_of_reply hw (by rw [hwaits]; rfl)]⟩
    | none =>
      have hpast : v₁.callers.dropLast = v.callers := by rw [hs.callers, List.dropLast_concat]
      obtain ⟨hcallers, hi⟩ := eq_snoc_of_waits
        (by rw [hpast]; exact fun w hw => List.all_eq_true.mp hfree w hw) hw hwaits
      obtain rfl : w = ⟨o, stage⟩ := by
        rw [hs.callers, List.dropLast_concat] at hcallers
        exact (List.append_singleton_inj.mp hcallers).2.symm
      have hafter := apply_go hw
      rw [hs.callers, hi, hpast, List.set_append_right _ _ le_rfl, Nat.sub_self] at hafter
      have hholds := hs.holds.go i
      rw [hi, hpast, hafter] at hholds
      rw [hi, hpast, hafter]
      exact ⟨_, hs.step hwaits (v₁.node.step_spec v₁.host ⟨o, stage⟩) hholds⟩

lemma Since.run {stage : Stage} (hs : Since v o stage v₁) (hfree : v.isFree = true)
    {moves : List Move} (hquiet : ∀ m ∈ moves, ∀ other, m ≠ .calls other) :
    ∃ stage', Since v o stage' (v₁.run moves) := by
  induction moves generalizing v₁ stage with
  | nil => exact ⟨stage, hs⟩
  | cons m moves ih =>
    obtain ⟨hm, hmoves⟩ := List.forall_mem_cons.mp hquiet
    suffices hnext : ∃ stage', Since v o stage' (v₁.apply m) by
      obtain ⟨stage', hs'⟩ := hnext
      exact ih hs' hmoves
    cases m with
    | calls other => exact absurd rfl (hm other)
    | go i => exact hs.go hfree i
    | system e =>
      exact ⟨stage, hs.callers, hs.holds.apply (.system e), hs.proper, hs.settings, hs.ready,
        hs.took, hs.log⟩
    | asks =>
      have hholds := hs.holds.apply .asks
      rcases Node.isAlive_cases v₁.node v₁.host with ⟨c, -, -, -, halive⟩ | ⟨n, h, hdown, hdead⟩
      · simp only [apply, halive]
        exact ⟨stage, hs⟩
      · simp only [apply, hdead] at hholds ⊢
        obtain ⟨hpid, hpath⟩ := Node.pid?_of_down hdown
        have hsettings : n.settings = v₁.node.settings := by cases hdown <;> rfl
        exact ⟨stage, hs.callers, hholds, hs.proper, hsettings.trans hs.settings,
          fun hready => hpid.trans (hs.ready hready), hs.took,
          fun hwaits => hpath.trans (hs.log hwaits)⟩

lemma Waiting.since (hwaiting : Waiting v o v₁) (hholds : v.Holds) :
    ∃ stage, Since v o stage v₁ ∧ stage.reply? = none := by
  obtain ⟨moves, hquiet, rfl⟩ := hwaiting.run
  obtain ⟨stage, hs⟩ := (since_calls hholds o).run hwaiting.free hquiet
  obtain ⟨stage', hlast, hwaits⟩ := hwaiting.waits
  refine ⟨stage, hs, ?_⟩
  rw [hs.callers, List.getElem?_concat_length] at hlast
  rw [← hwaits, ← (Node.Caller.mk.inj (Option.some.inj hlast)).2]

/-- What the answer of a caller tells. -/
structure Faithful (v : Company) (o : Order) (v₁ v₂ : Company) (r : Reply) : Prop where
  /-- A stop, a kill and a wait find no child exactly if there was none when they came. -/
  absent : o = .stop ∨ o = .kill ∨ o = .wait →
    (r = .failed .notRunning ↔ v.node.pid? = none)
  /-- A start that fails changes neither the child nor the log. -/
  failed : o = .start → ∀ e, r = .failed e →
    v₂.node.pid? = v.node.pid? ∧ v₂.node.logPath? = v.node.logPath?
  /-- It is refused exactly while the child runs that the node holds. -/
  refused : o = .start → ∀ pid, r = .failed (.alreadyRunning pid) ↔
    v₁.node.pid? = some pid ∧ pid ∈ v₁.host.children
  /-- A reset that fails leaves the log. -/
  kept : o = .reset → ∀ e, r = .failed e → v₂.node.logPath? = v.node.logPath?
  /-- After a reset neither the logs nor the data are there. -/
  wiped : o = .reset → r = .wiped →
    v₂.host.disk.isThere v.node.settings.logDir = false ∧
      ∀ dir ∈ v.node.settings.dataDir, v₂.host.disk.isThere dir = false

section Answer

variable {n n' : Node} {h h' : Host} {stage stage' : Stage} {r : Reply}

lemma ne_notRunning_of_mishap (hmishap : ∃ e, r = .failed e ∧ e.isMishap = true) :
    r ≠ .failed .notRunning := by
  obtain ⟨e, rfl, he⟩ := hmishap
  intro h
  rw [Reply.failed.inj h] at he
  cases he

lemma ne_ready_of_hand {c : Child} (hhand : stage.hand? = some c) : stage ≠ .ready := by
  rintro rfl
  cases hhand

/-- A step with an answer says that there is no child only if the node holds none. -/
lemma notRunning_iff_of_step (ho : o = .stop ∨ o = .kill ∨ o = .wait)
    (hwaits : stage.reply? = none) (hreply : stage'.reply? = some r)
    (hstep : Node.Step n h ⟨o, stage⟩ n' h' stage') :
    r = .failed .notRunning ↔ stage = .ready ∧ n.child? = none := by
  cases hstep with
  | refuses order | fails order | starts order =>
    obtain rfl : o = .start := order
    simp at ho
  | sweeps order =>
    obtain rfl : o = .reset := order
    simp at ho
  | nobody _ ready absent =>
    obtain rfl := Option.some.inj hreply
    exact ⟨fun _ => ⟨ready, absent⟩, fun _ => rfl⟩
  | watches => cases hreply
  | sees _ _ held =>
    obtain rfl := Option.some.inj hreply
    simp [held]
  | takes _ _ held _ _ mishap =>
    -- whoever holds a child fails for other reasons
    refine ⟨fun heq => absurd heq (ne_notRunning_of_mishap (mishap r hreply)), fun hnone => ?_⟩
    simp [held] at hnone
  | holds hand _ _ mishap =>
    refine ⟨fun heq => absurd heq ?_, fun hready => absurd hready.1 (ne_ready_of_hand hand)⟩
    rcases mishap r hreply with hold | hnew
    · rw [hwaits] at hold
      cases hold
    · exact ne_notRunning_of_mishap hnew
  | concludes hand _ _ concluded =>
    refine ⟨fun heq => ?_, fun hready => absurd hready.1 (ne_ready_of_hand hand)⟩
    obtain rfl := Option.some.inj hreply
    cases concluded with
    | ends => cases heq
    | sweeps order =>
      obtain rfl : o = .reset := order
      simp at ho
  | rests done =>
    obtain rfl : stage = .done _ := done
    cases hwaits

/-- A reset that fails leaves the log, and after one that does not there is nothing left. -/
lemma reset_of_step (hwaits : stage.reply? = none) (hreply : stage'.reply? = some r)
    (hstep : Node.Step n h ⟨.reset, stage⟩ n' h' stage') :
    (∀ e, r = .failed e → n'.logPath? = n.logPath?) ∧
    (r = .wiped → h'.disk.isThere n.settings.logDir = false ∧
      ∀ dir ∈ n.settings.dataDir, h'.disk.isThere dir = false) := by
  have hswept : ∀ {h : Host} {r : Reply}, Node.Swept n h n' h' r →
      (∀ e, r = .failed e → n'.logPath? = n.logPath?) ∧
      (r = .wiped → h'.disk.isThere n.settings.logDir = false ∧
        ∀ dir ∈ n.settings.dataDir, h'.disk.isThere dir = false) := by
    intro h r hswept
    cases hswept with
    | fails => exact ⟨fun _ _ => rfl, by simp⟩
    | wipes disk logs data => exact ⟨by simp, fun _ => ⟨logs, data⟩⟩
  cases hstep with
  | refuses order | fails order | starts order | sees order | watches order => cases order
  | nobody order => simp at order
  | sweeps _ _ _ swept =>
    obtain rfl := Option.some.inj hreply
    exact hswept swept
  | takes _ _ _ _ _ mishap =>
    obtain ⟨e, rfl, -⟩ := mishap r hreply
    exact ⟨fun _ _ => rfl, by simp⟩
  | holds _ _ _ mishap =>
    rcases mishap r hreply with hold | ⟨e, rfl, -⟩
    · rw [hwaits] at hold
      cases hold
    · exact ⟨fun _ _ => rfl, by simp⟩
  | concludes _ _ _ concluded =>
    obtain rfl := Option.some.inj hreply
    cases concluded with
    | ends other => exact absurd rfl other
    | sweeps _ swept => exact hswept swept
  | rests done =>
    obtain rfl : stage = .done _ := done
    cases hwaits

lemma start_failed {e : NodeError} (hstart : (n.start h).2 = .error e) :
    (n.start h).1.1.pid? = n.pid? ∧ (n.start h).1.1.logPath? = n.logPath? := by
  rcases n.start_cases h with ⟨c, -, -, -, heq⟩ | ⟨n', h', disk, e', hdown, -, heq⟩ |
    ⟨n', h', h'', m, path, -, -, heq⟩
  · rw [heq]
    exact ⟨rfl, rfl⟩
  · rw [heq]
    exact Node.pid?_of_down hdown
  · rw [heq] at hstart
    cases hstart

lemma Reply.failed_eq_of {α : Type} {f : α → Reply} {x : Except NodeError α} {e : NodeError}
    (hf : ∀ a, f a ≠ .failed e) : Reply.of f x = .failed e ↔ x = .error e := by
  cases x with
  | ok a => simpa [Reply.of] using hf a
  | error e' => simp [Reply.of]

end Answer

lemma reply?_of_hand {stage : Stage} (hwaits : stage.reply? = none) (hhand : stage.hand? = none) :
    stage = .ready := by
  cases stage with
  | ready => rfl
  | outlasting | burying | lost => cases hhand
  | done => cases hwaits

lemma faithful {r : Reply} (hholds : v.Holds) (hanswered : Answered v o v₁ v₂ r) :
    Faithful v o v₁ v₂ r := by
  obtain ⟨stage, hs, hwaits⟩ := hanswered.waiting.since hholds
  have hw : v₁.callers[v.callers.length]? = some ⟨o, stage⟩ := by
    rw [hs.callers, List.getElem?_concat_length]
  have hafter := apply_go hw
  rw [← hanswered.goes] at hafter
  obtain ⟨stage', hlast, hreply⟩ := hanswered.answer
  have hstep := v₁.node.step_spec v₁.host ⟨o, stage⟩
  obtain rfl : (v₁.node.step v₁.host ⟨o, stage⟩).2 = stage' := by
    rw [hafter, hs.callers] at hlast
    simpa using hlast
  have hnode : v₂.node = (v₁.node.step v₁.host ⟨o, stage⟩).1.1 := by rw [hafter]
  have hhost : v₂.host = (v₁.node.step v₁.host ⟨o, stage⟩).1.2 := by rw [hafter]
  have hready : stage.hand? = none → stage = .ready := reply?_of_hand hwaits
  have hstart : o = .start → stage = .ready ∧ r = .of .started (v₁.node.start v₁.host).2 := by
    rintro rfl
    have hhand : stage.hand? = none := by
      cases hhand : stage.hand? with
      | none => rfl
      | some c => simpa using hs.proper (by rw [hhand]; rfl)
    obtain rfl := hready hhand
    exact ⟨rfl, (Option.some.inj hreply).symm⟩
  refine ⟨fun ho => ?_, fun ho e he => ?_, fun ho pid => ?_, fun ho e he => ?_, fun ho hr => ?_⟩
  · rw [notRunning_iff_of_step ho hwaits hreply hstep]
    constructor
    · rintro ⟨hready, hnone⟩
      rw [← hs.ready hready, Node.pid?, hnone]
      rfl
    · intro hnone
      -- no child was there when the call came, so the caller has taken none
      have hstage : stage = .ready := by
        refine hready ?_
        by_contra hhand
        exact hs.took (Option.isSome_iff_ne_none.mpr hhand) hnone
      rw [← hs.ready hstage] at hnone
      exact ⟨hstage, by simpa [Node.pid?] using hnone⟩
  · obtain ⟨hstage, hr⟩ := hstart ho
    subst ho hstage
    rw [hr, Reply.failed_eq_of (by simp)] at he
    obtain ⟨hpid, hpath⟩ := start_failed he
    rw [hnode, ← hs.ready rfl, ← hs.log hwaits]
    exact ⟨hpid, hpath⟩
  · obtain ⟨hstage, hr⟩ := hstart ho
    rw [hr, Reply.failed_eq_of (by simp)]
    exact Kept.start_refuses_iff hs.holds pid
  · subst ho
    rw [hnode, ← hs.log hwaits]
    exact (reset_of_step hwaits hreply hstep).1 e he
  · subst ho
    rw [hhost, ← hs.settings]
    exact (reset_of_step hwaits hreply hstep).2 hr

lemma prompt (hholds : v.Holds) (ho : o = .stop ∨ o = .kill ∨ o = .wait)
    (hnone : v.node.pid? = none) (hwaiting : Waiting v o v₁) :
    (v₁.apply (.go v.callers.length)).callers[v.callers.length]? =
      some ⟨o, .done (.failed .notRunning)⟩ := by
  obtain ⟨stage, hs, hwaits⟩ := hwaiting.since hholds
  have hstage : stage = .ready := by
    refine reply?_of_hand hwaits ?_
    by_contra hhand
    exact hs.took (Option.isSome_iff_ne_none.mpr hhand) hnone
  subst hstage
  have hw : v₁.callers[v.callers.length]? = some ⟨o, .ready⟩ := by
    rw [hs.callers, List.getElem?_concat_length]
  have habsent : v₁.node.child? = none := by
    rw [← hs.ready rfl] at hnone
    simpa [Node.pid?] using hnone
  have hstep : (v₁.node.step v₁.host ⟨o, .ready⟩).2 = .done (.failed .notRunning) := by
    rcases ho with rfl | rfl | rfl
    · simp [Node.step, Node.enter, Node.dismiss, Node.release, habsent]
    · simp [Node.step, Node.enter, Node.condemn, Node.release, habsent]
    · simp [Node.step, Node.enter, Node.poll, habsent]
  rw [apply_go hw, hstep, hs.callers]
  simp

/-- That what a node says of itself is so, and what its callers are told. -/
structure Exact (v : Company) : Prop where
  /-- There is a child since the last start that made one, unless somebody stopped, killed or
  reset the node since, or has waited for the end of the child. -/
  pid : v.node.pid?.isSome = true ↔
    Latest (·.started?.isSome = true) (·.letsGo = false) v.callers
  /-- The node is alive exactly as long as that child runs. -/
  alive : (v.node.isAlive v.host).2 = true ↔
    ∃ pid, v.node.pid? = some pid ∧ pid ∈ v.host.children
  /-- The log is that of the last start, unless a reset has wiped it since. -/
  log : ∀ path, v.node.logPath? = some path ↔
    Latest (·.started? = some path) (fun w => w.started? = none ∧ w.hasWiped = false) v.callers
  answers : ∀ o v₁ v₂ r, Answered v o v₁ v₂ r → Faithful v o v₁ v₂ r
  prompt : ∀ o v₁, o = .stop ∨ o = .kill ∨ o = .wait → v.node.pid? = none → Waiting v o v₁ →
    (v₁.apply (.go v.callers.length)).callers[v.callers.length]? =
      some ⟨o, .done (.failed .notRunning)⟩

/-- **The books of a node are exact** at every moment, as long as its callers come one at a time,
whatever becomes of their orders and of the processes in between. -/
theorem books_exact (s : NodeSettings) (d : Disk) (clock nextPid : ℕ) (moves : List Move) :
    ((begin s d clock nextPid).runInTurn moves).Exact := by
  have hv := (ordered_begin s d clock nextPid).runInTurn moves
  exact ⟨hv.booked.held, Kept.isAlive_iff hv.holds, hv.booked.log,
    fun o v₁ v₂ r => faithful hv.holds, fun o v₁ ho hnone => prompt hv.holds ho hnone⟩

/-- A child ends by itself, and somebody waits for it. -/
def outwaited : List Move :=
  [.calls .start, .go 0, .system (.goes 100 (.ended (.exited 9)) false), .calls .wait, .go 1]

/-- A child that has ended by itself is held until somebody has waited for it; a stop finds none
then, while the log is still that of the run. -/
theorem books_exact_outwaited :
    ((begin sleeper .empty 0 100).runInTurn (outwaited.take 3)).node.pid? = some 100 ∧
    ((begin sleeper .empty 0 100).runInTurn (outwaited.take 3)).host.children = [] ∧
    ((begin sleeper .empty 0 100).runInTurn outwaited).node.pid? = none ∧
    ((begin sleeper .empty 0 100).runInTurn outwaited).node.logPath? =
      some "log/node-19700101-000000.000.log" ∧
    ((((begin sleeper .empty 0 100).runInTurn outwaited).apply (.calls .stop)).apply
      (.go 2)).callers[2]? = some ⟨.stop, .done (.failed .notRunning)⟩ := by
  have hafter := books_exact sleeper .empty 0 100 outwaited
  have hnone : ((begin sleeper .empty 0 100).runInTurn outwaited).node.pid? = none := by
    decide +kernel
  refine ⟨by decide +kernel, by decide +kernel, hnone, by decide +kernel, ?_⟩
  exact hafter.prompt .stop _ (.inl rfl) hnone
    ⟨by decide +kernel, ⟨[], by simp, rfl⟩, .ready, by decide +kernel, rfl⟩

end Company

end LogWatch
