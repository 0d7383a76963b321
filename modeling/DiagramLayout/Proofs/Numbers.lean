import DiagramLayout.Proofs.Exact

/-!
# Coordinates that order their numbers

Not every coordinate has to be a number, but those that are numbers can be expected to be in a
linear order, and a difference of coordinates to be positive exactly if they are in strict order.
`Scalar.OrdersNumbers` says so. Exact numbers are all numbers; for doubles it is a property of their
subtraction, which never rounds a difference to zero.

This much is enough for all that only compares coordinates and copies them, such as cutting
rectangles apart. The larger of two coordinates is at least each of them that is a number, and it is
below whatever the one is below and the other does not reach (`Scalar.max_lt`); what is not a number
reaches nothing. The same holds of the smaller one with the order turned round.
-/

namespace DiagramLayout

namespace Scalar

/-- The numbers are in a linear order, and a difference is positive exactly if the order is strict. -/
class OrdersNumbers (α : Type) [Scalar α] : Prop where
  /-- Zero is a number, and nothing is left when it is taken from itself. -/
  zero : isNaN (0 : α) = false ∧ (0 : α) - 0 = 0
  /-- Only numbers are in order. -/
  numbers_of_le {a b : α} : a ≤ b → isNaN a = false ∧ isNaN b = false
  /-- The order is transitive. -/
  le_trans {a b c : α} : a ≤ b → b ≤ c → a ≤ c
  /-- Any two numbers are in order. -/
  le_total {a b : α} : isNaN a = false → isNaN b = false → a ≤ b ∨ b ≤ a
  /-- The strict order is the order that cannot be turned round. -/
  lt_iff {a b : α} : a < b ↔ a ≤ b ∧ ¬ b ≤ a
  /-- A difference is positive exactly if what is subtracted is less. -/
  sub_pos_iff {a b : α} : 0 < b - a ↔ a < b

instance : OrdersNumbers ℚ where
  zero := ⟨isNaN_exact 0, sub_zero 0⟩
  numbers_of_le := by
    intro a b _
    exact ⟨isNaN_exact a, isNaN_exact b⟩
  le_trans := le_trans
  le_total := fun _ _ => le_total _ _
  lt_iff := lt_iff_le_not_ge
  sub_pos_iff := sub_pos

section Numbers

open OrdersNumbers (numbers_of_le le_total lt_iff)

variable {α : Type} [Scalar α] {a b c : α}

/-- A number is at most itself. -/
lemma le_self (ha : isNaN a = false) : a ≤ a := by
  simpa [isNaN] using ha

variable [OrdersNumbers α]

/-- Numbers that are not in order are in strict order the other way round. -/
protected lemma lt_of_not_le (ha : isNaN a = false) (hb : isNaN b = false) (h : ¬ a ≤ b) : b < a :=
  lt_iff.mpr ⟨(le_total ha hb).resolve_left h, h⟩

/-- What is less than a number is at most that number. -/
protected lemma le_of_lt (h : a < b) : a ≤ b := (lt_iff.mp h).1

/-! ### The larger and the smaller of two coordinates -/

omit [OrdersNumbers α] in
/-- The larger of a number and another coordinate is the other one only if that is greater. -/
lemma max_of_number (ha : isNaN a = false) (b : α) :
    a < b ∧ Scalar.max a b = b ∨ ¬ a < b ∧ Scalar.max a b = a := by
  unfold Scalar.max
  simp only [ha, Bool.or_false, decide_eq_true_eq]
  split_ifs with hab
  · exact Or.inl ⟨hab, rfl⟩
  · exact Or.inr ⟨hab, rfl⟩

omit [OrdersNumbers α] in
/-- The smaller of a number and another coordinate is the other one only if that is less. -/
lemma min_of_number (ha : isNaN a = false) (b : α) :
    b < a ∧ Scalar.min a b = b ∨ ¬ b < a ∧ Scalar.min a b = a := by
  unfold Scalar.min
  simp only [ha, Bool.or_false, decide_eq_true_eq]
  split_ifs with hba
  · exact Or.inl ⟨hba, rfl⟩
  · exact Or.inr ⟨hba, rfl⟩

/-- A number is at most the larger of it and another coordinate. -/
protected lemma le_max_left (ha : isNaN a = false) (b : α) : a ≤ Scalar.max a b := by
  rcases max_of_number ha b with ⟨hab, heq⟩ | ⟨-, heq⟩
  · rw [heq]
    exact Scalar.le_of_lt hab
  · rw [heq]
    exact le_self ha

/-- A number is at most the larger of another coordinate and it. -/
protected lemma le_max_right (a : α) (hb : isNaN b = false) : b ≤ Scalar.max a b := by
  cases ha : isNaN a with
  | true =>
    have heq : Scalar.max a b = b := by simp [Scalar.max, ha]
    rw [heq]
    exact le_self hb
  | false =>
    rcases max_of_number ha b with ⟨-, heq⟩ | ⟨hab, heq⟩
    · rw [heq]
      exact le_self hb
    · rw [heq]
      by_contra hba
      exact hab (Scalar.lt_of_not_le hb ha hba)

/-- The smaller of a number and another coordinate is at most the number. -/
protected lemma min_le_left (ha : isNaN a = false) (b : α) : Scalar.min a b ≤ a := by
  rcases min_of_number ha b with ⟨hba, heq⟩ | ⟨-, heq⟩
  · rw [heq]
    exact Scalar.le_of_lt hba
  · rw [heq]
    exact le_self ha

/-- The smaller of another coordinate and a number is at most the number. -/
protected lemma min_le_right (a : α) (hb : isNaN b = false) : Scalar.min a b ≤ b := by
  cases ha : isNaN a with
  | true =>
    have heq : Scalar.min a b = b := by simp [Scalar.min, ha]
    rw [heq]
    exact le_self hb
  | false =>
    rcases min_of_number ha b with ⟨-, heq⟩ | ⟨hba, heq⟩
    · rw [heq]
      exact le_self hb
    · rw [heq]
      by_contra hab
      exact hba (Scalar.lt_of_not_le ha hb hab)

/-- The larger of two coordinates is below what the first is below and the second does not reach. -/
protected lemma max_lt (hac : a < c) (hcb : ¬ c ≤ b) : Scalar.max a b < c := by
  obtain ⟨ha, hc⟩ := numbers_of_le (Scalar.le_of_lt hac)
  rcases max_of_number ha b with ⟨hab, heq⟩ | ⟨-, heq⟩
  · rw [heq]
    exact Scalar.lt_of_not_le hc (numbers_of_le (Scalar.le_of_lt hab)).2 hcb
  · rwa [heq]

/-- The larger of two coordinates is at most what the first is at most and the second does not
reach. -/
protected lemma max_le (hac : a ≤ c) (hcb : ¬ c ≤ b) : Scalar.max a b ≤ c := by
  obtain ⟨ha, hc⟩ := numbers_of_le hac
  rcases max_of_number ha b with ⟨hab, heq⟩ | ⟨-, heq⟩
  · rw [heq]
    exact Scalar.le_of_lt (Scalar.lt_of_not_le hc (numbers_of_le (Scalar.le_of_lt hab)).2 hcb)
  · rwa [heq]

/-- The smaller of two coordinates is above what the first is above and the second is not within. -/
protected lemma lt_min (hab : a < b) (hca : ¬ c ≤ a) : a < Scalar.min b c := by
  obtain ⟨ha, hb⟩ := numbers_of_le (Scalar.le_of_lt hab)
  rcases min_of_number hb c with ⟨hcb, heq⟩ | ⟨-, heq⟩
  · rw [heq]
    exact Scalar.lt_of_not_le (numbers_of_le (Scalar.le_of_lt hcb)).1 ha hca
  · rwa [heq]

/-- The smaller of two coordinates is at least what the first is at least and the second is not
within. -/
protected lemma le_min (hab : a ≤ b) (hca : ¬ c ≤ a) : a ≤ Scalar.min b c := by
  obtain ⟨ha, hb⟩ := numbers_of_le hab
  rcases min_of_number hb c with ⟨hcb, heq⟩ | ⟨-, heq⟩
  · rw [heq]
    exact Scalar.le_of_lt (Scalar.lt_of_not_le (numbers_of_le (Scalar.le_of_lt hcb)).1 ha hca)
  · rwa [heq]

end Numbers

end Scalar

end DiagramLayout
