import Mathlib
import DiagramLayout.Ranking
import DiagramLayout.Scalar.Binary64

/-!
# The order of doubles

Doubles are not linearly ordered: what is not a number is not comparable, and there are two zeros.
Their comparison looks at signs first, then at exponents and then at mantissas, and so it is the
order of a key with three integer parts (`Binary64.le_iff`). The two zeros have one key.

A ranking takes what is not a number for infinity. With the key of infinity it has a place in the
order as well, and the ranks of any two weights compare as their keys do
(`Binary64.atMost_ofWeight`): the order of ranks is total and transitive, whatever the weights are.

What follows is about the logical content of the comparison and the subtraction of doubles, which
unpack them into signs, exponents and mantissas.
-/

namespace DiagramLayout

namespace Binary64

open Float.Model

/-! ## Keys -/

/-- The place of an unpacked double among the others. Infinity has the last place, and so has what
is not a number. -/
def keyOf : UnpackedFloat → ℤ ×ₗ ℤ ×ₗ ℤ
  | .infinity .negative => toLex (-2, toLex (0, 0))
  | .finite .negative mantissa exponent _ => toLex (-1, toLex (-exponent, -(mantissa : ℤ)))
  | .zero _ => toLex (0, toLex (0, 0))
  | .finite .positive mantissa exponent _ => toLex (1, toLex (exponent, (mantissa : ℤ)))
  | .infinity .positive => toLex (2, toLex (0, 0))
  | .notANumber => toLex (2, toLex (0, 0))

/-- Exponents are compared before mantissas. -/
lemma isLE_then_compare (e e' : ℤ) (m m' : ℕ) :
    ((compare e e').then (compare m m')).isLE = true ↔ e < e' ∨ e = e' ∧ m ≤ m' := by
  rw [Ordering.isLE_then_iff_or, compare_lt_iff_lt, compare_eq_iff_eq, Nat.isLE_compare]

/-- Of negative numbers those with the larger exponents and mantissas come first. -/
lemma isGE_then_compare (e e' : ℤ) (m m' : ℕ) :
    ((compare e e').then (compare m m')).isGE = true ↔ e' < e ∨ e = e' ∧ m' ≤ m := by
  rw [← Ordering.isLE_swap, Ordering.swap_then, Int.compare_swap, Nat.compare_swap,
    isLE_then_compare, eq_comm]

/-- The negative sign comes first. -/
lemma isLE_compare_sign (s s' : UnpackedFloat.Sign) :
    (compare s s').isLE = true ↔ s = .negative ∨ s' = .positive := by
  cases s <;> cases s' <;> simp [compare]

/-- The comparison of unpacked numbers is that of their keys. -/
lemma unpacked_le_iff (a b : UnpackedFloat) :
    a.le b = true ↔ a.isNaN = false ∧ b.isNaN = false ∧ keyOf a ≤ keyOf b := by
  -- the first parts of the keys decide, except between finite numbers of the same sign
  rcases a with (_ | _) | _ | _ | ⟨_ | _, m, e, hm⟩ <;>
    rcases b with (_ | _) | _ | _ | ⟨_ | _, m', e', hm'⟩ <;>
    simp [UnpackedFloat.le, UnpackedFloat.compare, UnpackedFloat.isNaN, keyOf,
      Prod.Lex.toLex_le_toLex, isLE_then_compare, isGE_then_compare, isLE_compare_sign]

/-- The key of a double. -/
def key (x : Float) : ℤ ×ₗ ℤ ×ₗ ℤ := keyOf x.toModel.unpack

/-- The key of infinity and of what is not a number. -/
def lastKey : ℤ ×ₗ ℤ ×ₗ ℤ := toLex (2, toLex (0, 0))

/-- Numbers are ordered by their keys, and nothing else is ordered. -/
theorem le_iff (x y : Float) : x ≤ y ↔ x.isNaN = false ∧ y.isNaN = false ∧ key x ≤ key y := by
  have hunpacked : x ≤ y ↔ x.toModel.unpack.le y.toModel.unpack = true := decide_eq_true_iff
  rw [hunpacked, unpacked_le_iff]
  rfl

/-- Only the two signs themselves are in strict order. -/
lemma compare_sign_eq_lt (s s' : UnpackedFloat.Sign) :
    compare s s' = .lt ↔ s = .negative ∧ s' = .positive := by
  cases s <;> cases s' <;> simp [compare]

/-- The strict comparison of unpacked numbers is that of their keys. -/
lemma unpacked_lt_iff (a b : UnpackedFloat) :
    a.lt b = true ↔ a.isNaN = false ∧ b.isNaN = false ∧ keyOf a < keyOf b := by
  rcases a with (_ | _) | _ | _ | ⟨_ | _, m, e, hm⟩ <;>
    rcases b with (_ | _) | _ | _ | ⟨_ | _, m', e', hm'⟩ <;>
    simp [UnpackedFloat.lt, UnpackedFloat.compare, UnpackedFloat.isNaN, keyOf,
      Prod.Lex.toLex_lt_toLex, Ordering.then_eq_lt, Ordering.then_eq_gt, compare_lt_iff_lt,
      compare_gt_iff_gt, compare_sign_eq_lt]

/-- Numbers are in the strict order of their keys, and nothing else is ordered. -/
theorem lt_iff (x y : Float) : x < y ↔ x.isNaN = false ∧ y.isNaN = false ∧ key x < key y := by
  have hunpacked : x < y ↔ x.toModel.unpack.lt y.toModel.unpack = true := decide_eq_true_iff
  rw [hunpacked, unpacked_lt_iff]
  rfl

/-- No key comes after the last one. -/
lemma key_le_lastKey (x : Float) : key x ≤ lastKey := by
  unfold key lastKey
  rcases x.toModel.unpack with (_ | _) | _ | _ | ⟨_ | _, m, e, hm⟩ <;>
    simp [keyOf, Prod.Lex.toLex_le_toLex]

/-- What is not a number has the last key. -/
lemma key_of_isNaN {x : Float} (h : x.isNaN = true) : key x = lastKey := by
  have hunpacked : x.toModel.unpack.isNaN = true := h
  unfold key
  cases hx : x.toModel.unpack with
  | notANumber => rfl
  | infinity sign | zero sign | finite sign mantissa exponent _ =>
    rw [hx] at hunpacked
    cases hunpacked

/-! ## Weights below infinity -/

/-- A finite double that is taken from itself leaves the positive zero, and nothing else leaves a
number. -/
lemma unpacked_sub_self (format : Format) (a : UnpackedFloat) :
    UnpackedFloat.sub format a a = if a.isFinite then .zero .positive else .notANumber := by
  cases a with
  | infinity sign => cases sign <;> rfl
  | notANumber => rfl
  | zero sign => cases sign <;> rfl
  | finite sign mantissa exponent _ =>
    simp [UnpackedFloat.sub, UnpackedFloat.normalize, UnpackedFloat.isFinite]

/-- The test for finite coordinates finds the finite doubles. -/
lemma isFinite_eq (x : Float) : Scalar.isFinite x = x.isFinite := by
  have hunpacked : Scalar.isFinite x =
      Scalar.isZero (Float.ofModel (pack
        (UnpackedFloat.sub .binary64 x.toModel.unpack x.toModel.unpack))) := rfl
  have hfinite : x.isFinite = x.toModel.unpack.isFinite := rfl
  have hzero : Scalar.isZero (Float.ofModel (pack (.zero .positive))) = true := by decide
  have hnone : Scalar.isZero (Float.ofModel (pack .notANumber)) = false := by decide
  rw [hunpacked, hfinite, unpacked_sub_self]
  cases x.toModel.unpack.isFinite
  · exact hnone
  · exact hzero

/-- A double is below infinity exactly if its key is not the last one. -/
theorem isBelowInfinity_iff (x : Float) : Scalar.isBelowInfinity x = true ↔ key x < lastKey := by
  have hnegative : x < 0 ↔ x.toModel.unpack.lt (.zero .positive) = true := decide_eq_true_iff
  have hfinite : x.isFinite = x.toModel.unpack.isFinite := rfl
  rw [Scalar.isBelowInfinity, isFinite_eq, Bool.or_eq_true, decide_eq_true_iff, hnegative, hfinite]
  unfold key lastKey
  rcases x.toModel.unpack with (_ | _) | _ | _ | ⟨_ | _, m, e, hm⟩ <;>
    simp [UnpackedFloat.isFinite, UnpackedFloat.lt, UnpackedFloat.compare, keyOf,
      Prod.Lex.toLex_lt_toLex]

/-! ## Ranks -/

/-- The ranks of two weights compare as their keys do. -/
theorem atMost_ofWeight (a b : Float) :
    (Rank.ofWeight a).atMost (Rank.ofWeight b) = decide (key a ≤ key b) := by
  have hnumber {x : Float} (hx : key x < lastKey) : x.isNaN = false := by
    refine Bool.eq_false_iff.mpr fun hnan => ?_
    rw [key_of_isNaN hnan] at hx
    exact lt_irrefl _ hx
  unfold Rank.ofWeight
  simp only [isBelowInfinity_iff]
  by_cases hb : key b < lastKey
  · by_cases ha : key a < lastKey
    · rw [if_pos ha, if_pos hb, Rank.atMost]
      have hle := le_iff a b
      simp only [hnumber ha, hnumber hb, true_and] at hle
      exact decide_eq_decide.mpr hle
    · have hafter : ¬ key a ≤ key b := fun hle => ha (hle.trans_lt hb)
      rw [if_neg ha, if_pos hb, Rank.atMost, decide_eq_false hafter]
  · have hlast : key a ≤ key b := (key_le_lastKey a).trans (not_lt.mp hb)
    rw [if_neg hb, decide_eq_true hlast]
    split_ifs <;> rfl

/-- A weight as it counts: what is not a number is taken for infinity. -/
def counted (weight : Float) : Float :=
  if weight.isNaN then Float.ofBits 0x7ff0000000000000 else weight

/-- Counted weights are numbers, and they are in the order of the keys. -/
theorem counted_le_iff (a b : Float) : counted a ≤ counted b ↔ key a ≤ key b := by
  have hcounted (x : Float) : (counted x).isNaN = false ∧ key (counted x) = key x := by
    unfold counted
    split_ifs with hnan
    · rw [key_of_isNaN hnan]
      exact ⟨rfl, rfl⟩
    · exact ⟨Bool.eq_false_iff.mpr hnan, rfl⟩
  rw [le_iff, (hcounted a).1, (hcounted a).2, (hcounted b).1, (hcounted b).2]
  simp only [true_and]

end Binary64

end DiagramLayout
