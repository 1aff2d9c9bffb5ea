/-!
Places in a log that goes through one file after the other. Every place in a later file comes
after every place in an earlier one; within a file the place is a byte offset.
-/

namespace LogWatch

structure Position where
  generation : Nat
  offset : Nat
deriving DecidableEq, Repr

namespace Position

def zero : Position := ⟨0, 0⟩

instance : LE Position where
  le a b := a.generation < b.generation ∨ a.generation = b.generation ∧ a.offset ≤ b.offset

instance : LT Position where
  lt a b := a.generation < b.generation ∨ a.generation = b.generation ∧ a.offset < b.offset

theorem le_def {a b : Position} :
    a ≤ b ↔ a.generation < b.generation ∨ a.generation = b.generation ∧ a.offset ≤ b.offset :=
  Iff.rfl

theorem lt_def {a b : Position} :
    a < b ↔ a.generation < b.generation ∨ a.generation = b.generation ∧ a.offset < b.offset :=
  Iff.rfl

instance (a b : Position) : Decidable (a ≤ b) := decidable_of_iff _ le_def.symm
instance (a b : Position) : Decidable (a < b) := decidable_of_iff _ lt_def.symm

end Position

end LogWatch
