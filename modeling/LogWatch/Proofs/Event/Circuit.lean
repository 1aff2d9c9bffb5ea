import Mathlib
import LogWatch.Event.Circuit

/-!
What one pass over the circuit of an event computes.

A pass goes from left to right and every gate reads only gates before it, so the values it
leaves solve the equations of all gates at once, whatever stood in the array before. For the
gates of an event these equations have one solution, the meaning of its parts; the last gate
is the event itself. The layout is taken with any valuation lighting its leaves, since that is
how the circuit of a request stands after some lines.
-/

namespace LogWatch

namespace Gate

lemma value_congr {g : Gate} {a b : Array Bool}
    (h : ∀ j ∈ g.reads, a.getD j false = b.getD j false) : g.value a = g.value b := by
  cases g <;> simp_all [value, reads]

variable (line : List Char) (p : String) (b : Bool) (i j : ℕ)

@[simp] lemma lights?_leaf : (leaf p b).lights? line =
    if !b && Text.occurs p.toList line then some p else none := by
  cases b <;> simp [lights?]

@[simp] lemma lights?_and : (and i j).lights? line = none := rfl
@[simp] lemma lights?_or : (or i j).lights? line = none := rfl

@[simp] lemma light_leaf : (leaf p b).light line = leaf p (b || Text.occurs p.toList line) := by
  cases b <;> cases ho : Text.occurs p.toList line <;> simp [light, ho]

@[simp] lemma light_and : (and i j).light line = and i j := rfl
@[simp] lemma light_or : (or i j).light line = or i j := rfl

end Gate

/-- Every gate reads only gates before it, the first one standing at place `n`. -/
def Ordered (n : ℕ) (gates : List Gate) : Prop :=
  ∀ x ∈ gates.zipIdx n, ∀ j ∈ x.1.reads, j < x.2

/-- The value at the place of every gate is what the gate makes of the values it reads. -/
def Solves (values : Array Bool) (n : ℕ) (gates : List Gate) : Prop :=
  ∀ x ∈ gates.zipIdx n, values.getD x.2 false = x.1.value values

lemma ordered_append {n : ℕ} {as bs : List Gate} :
    Ordered n (as ++ bs) ↔ Ordered n as ∧ Ordered (n + as.length) bs := by
  simp only [Ordered, List.zipIdx_append, List.forall_mem_append]

lemma solves_append {values : Array Bool} {n : ℕ} {as bs : List Gate} :
    Solves values n (as ++ bs) ↔ Solves values n as ∧ Solves values (n + as.length) bs := by
  simp only [Solves, List.zipIdx_append, List.forall_mem_append]

lemma solves_singleton {values : Array Bool} {n : ℕ} {g : Gate} :
    Solves values n [g] ↔ values.getD n false = g.value values := by
  simp [Solves]

/-! ### One pass -/

/-- The pass over a row of gates given by their places. -/
def pass {n : ℕ} (gate : Fin n → Gate) (values : Array Bool) : Array Bool :=
  Fin.foldl n (fun values i => values.setIfInBounds i ((gate i).value values)) values

lemma pass_succ {n : ℕ} (gate : Fin (n + 1) → Gate) (values : Array Bool) :
    pass gate values = (pass (fun i => gate i.castSucc) values).setIfInBounds n
      ((gate (Fin.last n)).value (pass (fun i => gate i.castSucc) values)) := by
  simp only [pass, Fin.foldl_succ_last, Fin.val_castSucc, Fin.val_last]

@[simp] lemma size_pass {n : ℕ} (gate : Fin n → Gate) (values : Array Bool) :
    (pass gate values).size = values.size := by
  induction n with
  | zero => rfl
  | succ n ih => rw [pass_succ, Array.size_setIfInBounds, ih]

lemma getD_setIfInBounds_ne {values : Array Bool} {i j : ℕ} {b : Bool} (h : i ≠ j) :
    (values.setIfInBounds i b).getD j false = values.getD j false := by
  simp [Array.getD_eq_getD_getElem?, Array.getElem?_setIfInBounds_ne h]

lemma getD_setIfInBounds_self {values : Array Bool} {i : ℕ} {b : Bool} (h : i < values.size) :
    (values.setIfInBounds i b).getD i false = b := by
  simp [Array.getD_eq_getD_getElem?, Array.getElem?_setIfInBounds_self_of_lt h]

/-- Storing the last value disturbs no equation: no gate reads a place that is not before it. -/
lemma getD_pass {n : ℕ} (gate : Fin n → Gate) (values : Array Bool) (hsize : n ≤ values.size)
    (hord : ∀ i, ∀ j ∈ (gate i).reads, j < i.val) (i : Fin n) :
    (pass gate values).getD i false = (gate i).value (pass gate values) := by
  induction n with
  | zero => exact i.elim0
  | succ n ih =>
    have ih := ih (fun i => gate i.castSucc) (by omega) (fun i => hord i.castSucc)
    rw [pass_succ]
    set before := pass (fun i => gate i.castSucc) values with hbefore
    -- no gate reads what is stored last, since each reads only what stands before it
    have hkeep : ∀ k : Fin (n + 1), (gate k).value before =
        (gate k).value (before.setIfInBounds n ((gate (Fin.last n)).value before)) := by
      intro k
      refine Gate.value_congr fun j hj => (getD_setIfInBounds_ne ?_).symm
      have := hord k j hj
      omega
    rw [← hkeep]
    rcases Fin.eq_castSucc_or_eq_last i with ⟨k, rfl⟩ | rfl
    · rw [getD_setIfInBounds_ne (by simp; omega)]
      exact ih k
    · exact getD_setIfInBounds_self (by simp [hbefore]; omega)

lemma settle_eq_pass (gates : Array Gate) (values : Array Bool) :
    settle gates values = pass (fun i => gates[i]) values := rfl

@[simp] lemma size_settle (gates : Array Gate) (values : Array Bool) :
    (settle gates values).size = values.size := by
  rw [settle_eq_pass, size_pass]

/-- **One pass solves the equations of all gates.** -/
theorem solves_settle {gates : Array Gate} {values : Array Bool} (hsize : values.size = gates.size)
    (hord : Ordered 0 gates.toList) : Solves (settle gates values) 0 gates.toList := by
  intro x hx
  obtain ⟨g, i⟩ := x
  obtain ⟨-, hi, hg⟩ := List.mem_zipIdx hx
  simp only [Nat.zero_add, Array.length_toList] at hi
  simp only [Nat.sub_zero, Array.getElem_toList] at hg
  rw [hg, settle_eq_pass]
  refine getD_pass (fun i => gates[i]) values (by omega) ?_ ⟨i, hi⟩
  intro k j hj
  refine hord (gates[k], k.val) ?_ j hj
  exact List.mk_mem_zipIdx_iff_getElem?.mpr (by simp)

/-! ### The gates of an event -/

namespace Event

/-- How many gates an event has. -/
def span : Event → ℕ
  | pattern _ => 1
  | and l r => l.span + r.span + 1
  | or l r => l.span + r.span + 1

/-- The gates of an event from place `n` on, its leaves lit as `v` says. -/
def gatesFrom (v : String → Bool) : ℕ → Event → List Gate
  | _, pattern p => [.leaf p (v p)]
  | n, and l r =>
    l.gatesFrom v n ++ r.gatesFrom v (n + l.span)
      ++ [.and (n + l.span - 1) (n + l.span + r.span - 1)]
  | n, or l r =>
    l.gatesFrom v n ++ r.gatesFrom v (n + l.span)
      ++ [.or (n + l.span - 1) (n + l.span + r.span - 1)]

lemma span_pos (e : Event) : 0 < e.span := by
  cases e <;> simp [span]

lemma span_eq (e : Event) : e.span + 1 = 2 * e.leafCount := by
  induction e <;> simp only [span, leafCount] <;> omega

@[simp] lemma length_gatesFrom (v : String → Bool) (n : ℕ) (e : Event) :
    (e.gatesFrom v n).length = e.span := by
  induction e generalizing n <;> simp [gatesFrom, span, Nat.add_assoc, *]

lemma toList_layOut (e : Event) (gates : Array Gate) :
    (e.layOut gates).toList = gates.toList ++ e.gatesFrom (fun _ => false) gates.size := by
  have size_of {a b : Array Gate} {gs : List Gate} (h : a.toList = b.toList ++ gs) :
      a.size = b.size + gs.length := by
    simpa using congrArg List.length h
  induction e generalizing gates with
  | pattern p => simp [layOut, gatesFrom]
  | and l r ihl ihr | or l r ihl ihr =>
    have hl := size_of (ihl gates)
    have hr := size_of (ihr (l.layOut gates))
    simp only [length_gatesFrom] at hl hr
    simp [layOut, gatesFrom, ihl, ihr, hl, hr]

lemma toList_circuit (e : Event) : e.circuit.toList = e.gatesFrom (fun _ => false) 0 := by
  simp [circuit, toList_layOut]

lemma ordered_gatesFrom (v : String → Bool) (n : ℕ) (e : Event) : Ordered n (e.gatesFrom v n) := by
  induction e generalizing n with
  | pattern p => simp [Ordered, gatesFrom, Gate.reads]
  | and l r ihl ihr | or l r ihl ihr =>
    have hl := l.span_pos
    have hr := r.span_pos
    simp only [gatesFrom, ordered_append, length_gatesFrom, List.length_append]
    refine ⟨⟨ihl n, ihr _⟩, ?_⟩
    simp only [Ordered, List.zipIdx_singleton, forall_eq, Gate.reads,
      List.mem_cons, List.not_mem_nil, or_false]
    omega

lemma getD_of_solves {values : Array Bool} {v : String → Bool} {n : ℕ} {e : Event}
    (h : Solves values n (e.gatesFrom v n)) : values.getD (n + e.span - 1) false = e.holds v := by
  induction e generalizing n with
  | pattern p => exact solves_singleton.mp h
  | and l r ihl ihr | or l r ihl ihr =>
    simp only [gatesFrom, solves_append, length_gatesFrom, List.length_append,
      solves_singleton] at h
    obtain ⟨⟨hl, hr⟩, htop⟩ := h
    have hlast : n + (l.span + r.span + 1) - 1 = n + (l.span + r.span) := by omega
    rw [span, hlast, htop, Gate.value, ihl hl, ihr hr, holds]

/-- **A pass over the gates of an event ends in its meaning.** -/
theorem back_settle {v : String → Bool} {e : Event} {gates : Array Gate} {values : Array Bool}
    (hgates : gates.toList = e.gatesFrom v 0) (hsize : values.size = gates.size) :
    (settle gates values).back?.getD false = e.holds v := by
  have hspan : gates.size = e.span := by
    simpa using congrArg List.length hgates
  have hord : Ordered 0 gates.toList := hgates ▸ ordered_gatesFrom v 0 e
  have hsolve := solves_settle hsize hord
  rw [hgates] at hsolve
  have hlast := getD_of_solves hsolve
  rw [← hlast, Array.back?_eq_getElem?, Array.getD_eq_getD_getElem?, size_settle, hsize, hspan]
  simp

/-! ### Lighting leaves -/

lemma map_light (line : List Char) (v : String → Bool) (n : ℕ) (e : Event) :
    (e.gatesFrom v n).map (·.light line) =
      e.gatesFrom (fun p => v p || Text.occurs p.toList line) n := by
  induction e generalizing n with
  | pattern p => simp [gatesFrom]
  | and l r ihl ihr | or l r ihl ihr => simp [gatesFrom, ihl, ihr]

lemma filterMap_lights? (line : List Char) (v : String → Bool) (n : ℕ) (e : Event) :
    (e.gatesFrom v n).filterMap (·.lights? line) =
      e.patterns.filter fun p => !v p && Text.occurs p.toList line := by
  induction e generalizing n with
  | pattern p => cases h : !v p && Text.occurs p.toList line <;> simp [gatesFrom, patterns, h]
  | and l r ihl ihr | or l r ihl ihr => simp [gatesFrom, patterns, ihl, ihr]

lemma gatesFrom_congr {v w : String → Bool} {e : Event} (h : ∀ p ∈ e.patterns, v p = w p) (n : ℕ) :
    e.gatesFrom v n = e.gatesFrom w n := by
  induction e generalizing n with
  | pattern p => simp [gatesFrom, h p (by simp [patterns])]
  | and l r ihl ihr | or l r ihl ihr =>
    simp only [patterns, List.forall_mem_append] at h
    simp only [gatesFrom, ihl h.1, ihr h.2]

end Event

end LogWatch
