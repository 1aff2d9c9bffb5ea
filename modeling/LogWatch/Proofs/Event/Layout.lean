import Mathlib
import LogWatch.Proofs.Event.Circuit

/-!
The circuit of an event as a tree that lies in an array.

Every gate but the last is read by one other gate, which stands behind it, so every place is the
root of a subtree, and the last place that of the whole event. One pass leaves at each place the
value of its subtree, whichever leaves are lit and whatever stood there before, and it looks at no
place that is not there.
-/

namespace LogWatch

namespace Gate

/-- The pattern that a leaf waits for. -/
def pattern? : Gate → Option String
  | leaf p _ => some p
  | and _ _ | or _ _ => none

/-- A leaf made lit or dark; an operator stays as it is. -/
def relit (lit : Bool) : Gate → Gate
  | leaf p _ => leaf p lit
  | and l r => and l r
  | or l r => or l r

/-- The value of a gate, unless it reads a place that is not there. -/
def value? (values : Array Bool) : Gate → Option Bool
  | leaf _ lit => some lit
  | and l r => Option.map₂ (· && ·) values[l]? values[r]?
  | or l r => Option.map₂ (· || ·) values[l]? values[r]?

@[simp] lemma reads_relit (lit : Bool) (g : Gate) : (g.relit lit).reads = g.reads := by
  cases g <;> rfl

@[simp] lemma pattern?_relit (lit : Bool) (g : Gate) : (g.relit lit).pattern? = g.pattern? := by
  cases g <;> rfl

lemma value?_eq {g : Gate} {values : Array Bool} (h : ∀ j ∈ g.reads, j < values.size) :
    g.value? values = some (g.value values) := by
  have hread : ∀ j ∈ g.reads, values[j]? = some (values.getD j false) := by
    intro j hj
    rw [Array.getD_eq_getD_getElem?, Array.getElem?_eq_getElem (h j hj), Option.getD_some]
  cases g with
  | leaf p b => rfl
  | and l r | or l r =>
    rw [value?, hread l (by simp [reads]), hread r (by simp [reads])]
    rfl

end Gate

/-! ### A pass that could fail -/

/-- The pass over a row of gates given by their places, which fails where a gate reads a place that
is not there or has none itself. -/
def pass? {n : ℕ} (gate : Fin n → Gate) (values : Array Bool) : Option (Array Bool) :=
  Fin.foldlM n (fun values i =>
    if i.val < values.size then ((gate i).value? values).map (values.setIfInBounds i) else none)
    values

/-- One pass over the gates, if every place that it looks at is there. -/
def settle? (gates : Array Gate) (values : Array Bool) : Option (Array Bool) :=
  pass? (fun (⟨i, _⟩ : Fin gates.size) => gates[i]) values

lemma pass?_succ {n : ℕ} (gate : Fin (n + 1) → Gate) (values : Array Bool) :
    pass? gate values = (pass? (fun i => gate i.castSucc) values).bind fun before =>
      if n < before.size then
        ((gate (Fin.last n)).value? before).map (before.setIfInBounds n)
      else none := by
  simp only [pass?, Fin.foldlM_succ_last]
  rfl

lemma pass?_eq {n : ℕ} (gate : Fin n → Gate) (values : Array Bool) (hsize : n ≤ values.size)
    (hord : ∀ i, ∀ j ∈ (gate i).reads, j < i.val) :
    pass? gate values = some (pass gate values) := by
  induction n with
  | zero => simp [pass?, pass]
  | succ n ih =>
    have ih := ih (fun i => gate i.castSucc) (by omega) (fun i => hord i.castSucc)
    set before := pass (fun i => gate i.castSucc) values with hbefore
    have hlong : n < before.size := by
      rw [hbefore, size_pass]
      omega
    have hvalue : (gate (Fin.last n)).value? before = some ((gate (Fin.last n)).value before) :=
      Gate.value?_eq fun j hj => (hord (Fin.last n) j hj).trans hlong
    rw [pass?_succ, ih, Option.bind_some, if_pos hlong, hvalue, Option.map_some, pass_succ]

lemma settle?_eq {gates : Array Gate} {values : Array Bool} (hsize : values.size = gates.size)
    (hbelow : ∀ i : Fin gates.size, ∀ j ∈ gates[i].reads, j < i.val) :
    settle? gates values = some (settle gates values) :=
  pass?_eq _ values hsize.ge hbelow

/-! ### Events spelled by gates -/

/-- The gates below a place spell an event, and the leaves that are lit give it this value. -/
inductive Spells (gates : Array Gate) : ℕ → Event → Bool → Prop
  | leaf {i : ℕ} {p : String} {lit : Bool} (here : gates[i]? = some (.leaf p lit)) :
      Spells gates i (.pattern p) lit
  | and {i l r : ℕ} {a b : Event} {x y : Bool} (here : gates[i]? = some (.and l r))
      (left : Spells gates l a x) (right : Spells gates r b y) : Spells gates i (.and a b) (x && y)
  | or {i l r : ℕ} {a b : Event} {x y : Bool} (here : gates[i]? = some (.or l r))
      (left : Spells gates l a x) (right : Spells gates r b y) : Spells gates i (.or a b) (x || y)

/-- Every gate reads only gates before it. -/
def Below (gates : Array Gate) : Prop :=
  ∀ (i : ℕ) (g : Gate), gates[i]? = some g → ∀ j ∈ g.reads, j < i

lemma below_iff {gates : Array Gate} : Below gates ↔ Ordered 0 gates.toList := by
  constructor
  · rintro h ⟨g, i⟩ hx
    exact h i g (by simpa using List.mk_mem_zipIdx_iff_getElem?.mp hx)
  · intro h i g hg
    exact h (g, i) (List.mk_mem_zipIdx_iff_getElem?.mpr (by simpa using hg))

section Spelled

variable {gates : Array Gate} {values : Array Bool} {i : ℕ} {e : Event} {b : Bool}

lemma Spells.lt_size (h : Spells gates i e b) : i < gates.size := by
  cases h with
  | leaf here | and here | or here => exact (Array.getElem?_eq_some_iff.mp here).1

/-- Every place is the root of a subtree: whatever its gate reads stands before it. -/
lemma exists_spells (hbelow : Below gates) (hi : i < gates.size) : ∃ e b, Spells gates i e b := by
  induction i using Nat.strong_induction_on with
  | _ i ih =>
    have here := Array.getElem?_eq_getElem hi
    -- operands stand before their gate, hence the induction on the place
    have hoperands : ∀ j ∈ gates[i].reads, ∃ e b, Spells gates j e b := fun j hj =>
      have hlt := hbelow i _ here j hj
      ih j hlt (hlt.trans hi)
    cases hg : gates[i] with
    | leaf p lit => exact ⟨_, _, .leaf (hg ▸ here)⟩
    | and l r =>
      rw [hg] at here hoperands
      obtain ⟨a, x, hleft⟩ := hoperands l (by simp [Gate.reads])
      obtain ⟨b, y, hright⟩ := hoperands r (by simp [Gate.reads])
      exact ⟨_, _, .and here hleft hright⟩
    | or l r =>
      rw [hg] at here hoperands
      obtain ⟨a, x, hleft⟩ := hoperands l (by simp [Gate.reads])
      obtain ⟨b, y, hright⟩ := hoperands r (by simp [Gate.reads])
      exact ⟨_, _, .or here hleft hright⟩

lemma Spells.getD_eq (hsolves : Solves values 0 gates.toList) (h : Spells gates i e b) :
    values.getD i false = b := by
  have hgate : ∀ {i g}, gates[i]? = some g → values.getD i false = g.value values := by
    intro i g hg
    exact hsolves (g, i) (List.mk_mem_zipIdx_iff_getElem?.mpr (by simpa using hg))
  induction h with
  | leaf here => exact hgate here
  | and here _ _ ihl ihr => rw [hgate here, Gate.value, ihl, ihr]
  | or here _ _ ihl ihr => rw [hgate here, Gate.value, ihl, ihr]

/-- The gates of a row stand in the circuit from place `n` on, lit in whatever way. -/
def Carries (gates : Array Gate) (n : ℕ) (row : List Gate) : Prop :=
  ∀ x ∈ row.zipIdx n, ∃ lit, gates[x.2]? = some (x.1.relit lit)

lemma carries_append {n : ℕ} {as bs : List Gate} :
    Carries gates n (as ++ bs) ↔ Carries gates n as ∧ Carries gates (n + as.length) bs := by
  simp only [Carries, List.zipIdx_append, List.forall_mem_append]

lemma carries_singleton {n : ℕ} {g : Gate} :
    Carries gates n [g] ↔ ∃ lit, gates[n]? = some (g.relit lit) := by
  simp [Carries]

lemma exists_spells_of_carries {v : String → Bool} {n : ℕ}
    (h : Carries gates n (e.gatesFrom v n)) : ∃ b, Spells gates (n + e.span - 1) e b := by
  induction e generalizing n with
  | pattern p =>
    obtain ⟨lit, here⟩ := carries_singleton.mp h
    exact ⟨lit, .leaf here⟩
  | and l r ihl ihr =>
    simp only [Event.gatesFrom, carries_append, Event.length_gatesFrom, List.length_append,
      carries_singleton] at h
    obtain ⟨⟨hl, hr⟩, lit, here⟩ := h
    obtain ⟨x, hleft⟩ := ihl hl
    obtain ⟨y, hright⟩ := ihr hr
    exact ⟨_, .and here hleft hright⟩
  | or l r ihl ihr =>
    simp only [Event.gatesFrom, carries_append, Event.length_gatesFrom, List.length_append,
      carries_singleton] at h
    obtain ⟨⟨hl, hr⟩, lit, here⟩ := h
    obtain ⟨x, hleft⟩ := ihl hl
    obtain ⟨y, hright⟩ := ihr hr
    exact ⟨_, .or here hleft hright⟩

end Spelled

/-! ### Leaves lit at will -/

/-- A circuit with the leaf at each place lit or dark as `lit` says. -/
def relight (lit : ℕ → Bool) (gates : Array Gate) : Array Gate :=
  gates.mapIdx fun i g => g.relit (lit i)

section Relit

variable (lit : ℕ → Bool) (gates : Array Gate)

@[simp] lemma size_relight : (relight lit gates).size = gates.size := by
  simp [relight]

lemma getElem?_relight (i : ℕ) : (relight lit gates)[i]? = gates[i]?.map (Gate.relit (lit i)) := by
  simp [relight]

lemma carries_relight : Carries (relight lit gates) 0 gates.toList := by
  rintro ⟨g, i⟩ hx
  have hg : gates[i]? = some g := by simpa using List.mk_mem_zipIdx_iff_getElem?.mp hx
  exact ⟨lit i, by rw [getElem?_relight, hg, Option.map_some]⟩

lemma below_relight (h : Below gates) : Below (relight lit gates) := by
  intro i g hg
  rw [getElem?_relight, Option.map_eq_some_iff] at hg
  obtain ⟨g, hg, rfl⟩ := hg
  rw [Gate.reads_relit]
  exact h i g hg

lemma map_relight {α : Type} {f : Gate → α} (hf : ∀ b g, f (g.relit b) = f g) :
    (relight lit gates).toList.map f = gates.toList.map f :=
  List.ext_getElem (by simp) fun i _ _ => by simp [relight, hf]

lemma flatMap_reads_relight :
    (relight lit gates).toList.flatMap Gate.reads = gates.toList.flatMap Gate.reads := by
  rw [List.flatMap_def, map_relight lit gates Gate.reads_relit, ← List.flatMap_def]

lemma filterMap_pattern?_relight :
    (relight lit gates).toList.filterMap Gate.pattern? = gates.toList.filterMap Gate.pattern? := by
  have hid : ∀ row : List Gate,
      row.filterMap Gate.pattern? = (row.map Gate.pattern?).filterMap id := by
    simp [List.filterMap_map]
  rw [hid, map_relight lit gates Gate.pattern?_relit, ← hid]

end Relit

namespace Event

/-! ### The circuit of an event -/

lemma filterMap_pattern? (v : String → Bool) (n : ℕ) (e : Event) :
    (e.gatesFrom v n).filterMap Gate.pattern? = e.patterns := by
  induction e generalizing n with
  | pattern p => rfl
  | and l r ihl ihr | or l r ihl ihr => simp [gatesFrom, patterns, ihl, ihr, Gate.pattern?]

/-- The places below an operator: those of its left operand, its root, those of its right operand,
and the root of that. -/
lemma range'_perm (n k m : ℕ) :
    (List.range' n k ++ List.range' (n + (k + 1)) m ++ [n + k, n + (k + 1) + m]).Perm
      (List.range' n (k + 1 + (m + 1))) := by
  rw [← List.range'_append_1, List.range'_1_concat, List.range'_1_concat]
  simp only [List.append_assoc]
  refine List.Perm.append_left _ ?_
  rw [← List.singleton_append (l := [n + (k + 1) + m]), ← List.append_assoc, ← List.append_assoc]
  exact List.perm_append_comm.append_right _

lemma flatMap_reads_perm (v : String → Bool) (n : ℕ) (e : Event) :
    ((e.gatesFrom v n).flatMap Gate.reads).Perm (List.range' n (e.span - 1)) := by
  induction e generalizing n with
  | pattern p => simp [gatesFrom, Gate.reads, span]
  | and l r ihl ihr | or l r ihl ihr =>
    obtain ⟨k, hk⟩ := Nat.exists_eq_succ_of_ne_zero l.span_pos.ne'
    obtain ⟨m, hm⟩ := Nat.exists_eq_succ_of_ne_zero r.span_pos.ne'
    have hbelow := ((ihl n).append (ihr (n + l.span))).append_right
      [n + l.span - 1, n + l.span + r.span - 1]
    simp only [gatesFrom, List.flatMap_append, List.flatMap_singleton, Gate.reads, span]
    rw [hk, hm] at hbelow ⊢
    exact hbelow.trans (range'_perm n k m)

/-- That an array of gates is the tree of an event, each operand before its operator. -/
structure Flat (e : Event) (gates : Array Gate) : Prop where
  size : gates.size = 2 * e.leafCount - 1
  /-- The last gate is the root of the whole event. -/
  root : ∃ b, Spells gates (gates.size - 1) e b
  below : Below gates
  /-- Every place but that of the root is read once. -/
  once : (gates.toList.flatMap Gate.reads).Perm (List.range (gates.size - 1))
  leaves : gates.toList.filterMap Gate.pattern? = e.patterns

lemma size_circuit (e : Event) : e.circuit.size = e.span := by
  rw [← Array.length_toList, toList_circuit, length_gatesFrom]

lemma flat_relight (e : Event) (lit : ℕ → Bool) : Flat e (relight lit e.circuit) where
  size := by
    have hspan := e.span_eq
    rw [size_relight, size_circuit]
    omega
  root := by
    have hcarries := carries_relight lit e.circuit
    rw [toList_circuit] at hcarries
    have hroot := exists_spells_of_carries hcarries
    rwa [Nat.zero_add, ← size_circuit, ← size_relight lit] at hroot
  below := by
    refine below_relight lit e.circuit (below_iff.mpr ?_)
    rw [toList_circuit]
    exact ordered_gatesFrom _ 0 e
  once := by
    rw [flatMap_reads_relight, size_relight, toList_circuit, size_circuit, List.range_eq_range']
    exact flatMap_reads_perm _ 0 e
  leaves := by
    rw [filterMap_pattern?_relight, toList_circuit]
    exact filterMap_pattern? _ 0 e

lemma relit_of_mem_gatesFrom {n : ℕ} {e : Event} {g : Gate}
    (hg : g ∈ e.gatesFrom (fun _ => false) n) : g.relit false = g := by
  induction e generalizing n with
  | pattern p =>
    rw [List.mem_singleton.mp hg]
    rfl
  | and l r ihl ihr | or l r ihl ihr =>
    simp only [gatesFrom, List.mem_append, List.mem_singleton] at hg
    rcases hg with (hl | hr) | rfl
    · exact ihl hl
    · exact ihr hr
    · rfl

lemma relight_circuit (e : Event) : relight (fun _ => false) e.circuit = e.circuit := by
  refine Array.ext (by simp) fun i _ hi => ?_
  have hmem : e.circuit[i] ∈ e.gatesFrom (fun _ => false) 0 := by
    rw [← toList_circuit]
    simp
  simp [relight, relit_of_mem_gatesFrom hmem]

/-- That a pass looks at no place that is not there, and leaves at each place the value of the
subtree that has its root there. -/
structure Settles (gates : Array Gate) (values : Array Bool) : Prop where
  inRange : settle? gates values = some (settle gates values)
  spelled : ∀ i < gates.size, ∃ a b, Spells gates i a b
  valued : ∀ i a b, Spells gates i a b → (settle gates values)[i]? = some b

lemma settles_of_below {gates : Array Gate} {values : Array Bool} (hbelow : Below gates)
    (hsize : values.size = gates.size) : Settles gates values where
  inRange := settle?_eq hsize fun i => hbelow i _ (by simp)
  spelled _ hi := exists_spells hbelow hi
  valued i a b h := by
    have hi : i < (settle gates values).size := by
      rw [size_settle, hsize]
      exact h.lt_size
    have hvalue := h.getD_eq (solves_settle hsize (below_iff.mp hbelow))
    rw [Array.getD_eq_getD_getElem?, Array.getElem?_eq_getElem hi] at hvalue
    rw [Array.getElem?_eq_getElem hi]
    exact congrArg some hvalue

/-- **An event is laid out as its tree, and one pass values every subtree,** whichever of the leaves
are lit and whatever values were there before. -/
theorem circuit_flat_and_settles (e : Event) :
    Flat e e.circuit ∧ ∀ (lit : ℕ → Bool) (values : Vector Bool e.circuit.size),
      Flat e (relight lit e.circuit) ∧ Settles (relight lit e.circuit) values.toArray := by
  refine ⟨?_, fun lit values => ?_⟩
  · have hdark := e.flat_relight fun _ => false
    rwa [relight_circuit] at hdark
  · have hflat := e.flat_relight lit
    exact ⟨hflat, settles_of_below hflat.below (by simp)⟩

/-- An operator stands after both of its operands. -/
example : (or (and (pattern "tx") (pattern "seal")) (pattern "peer")).circuit =
    #[.leaf "tx" false, .leaf "seal" false, .and 0 1, .leaf "peer" false, .or 2 3] := by
  decide

end Event

end LogWatch
