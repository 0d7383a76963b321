import DiagramLayout.Proofs.Doubles
import DiagramLayout.Proofs.Numbers

/-!
# The sign of a difference of doubles

A difference of doubles is rounded, but it is not rounded to zero: every finite double is a whole
multiple of the smallest positive one, and so is the exact difference of two of them. So a
difference is positive exactly if the subtrahend is below the minuend, and doubles order their
numbers.

Unpacked doubles are *canonical*: the mantissa has 53 binary digits, or fewer if the exponent is the
least one. That is why comparing exponents before mantissas compares numbers
(`Binary64.units_lt_units`). Rounding keeps a positive mantissa positive, and packing keeps what is
positive positive.
-/

namespace DiagramLayout

namespace Binary64

open Float.Model UnpackedFloat

/-! ## Rounding -/

/-- A finite number has at most 53 digits and at least the least exponent. -/
def Bounded : UnpackedFloat → Prop
  | .finite _ mantissa exponent _ => mantissa < 2 ^ 53 ∧ -1074 ≤ exponent
  | _ => True

/-- Shifting to the right divides the mantissa. -/
lemma mantissa_shiftRight (em : ExtendedMantissa) (k : ℕ) :
    (em >>> k).mantissa = em.mantissa / 2 ^ k := by
  induction k with
  | zero => exact (Nat.div_one _).symm
  | succ k ih =>
    have hstep : (em >>> (k + 1)).mantissa = (em >>> k).mantissa / 2 := rfl
    rw [hstep, ih, Nat.div_div_eq_div_mul, Nat.pow_succ]

/-- An extended mantissa starts with the mantissa that it extends. -/
lemma mantissa_ofMantissaAndAccuracy (mantissa : ℕ) (accuracy : Accuracy) :
    (ExtendedMantissa.ofMantissaAndAccuracy mantissa accuracy).mantissa = mantissa := by
  rcases accuracy with _ | (_ | _ | _) <;> rfl

/-- Rounding a mantissa makes it no smaller. -/
lemma le_roundedMantissa (em : ExtendedMantissa) : em.mantissa ≤ em.roundedMantissa := by
  unfold ExtendedMantissa.roundedMantissa
  rcases em.accuracy with _ | (_ | _ | _)
  · exact le_rfl
  · exact le_rfl
  · exact Nat.le_add_right _ _
  · exact Nat.le_add_right _ _

/-- The exponent that leaves 53 digits, or the least exponent. -/
lemma targetExponent_binary64 (total : ℤ) :
    Format.binary64.targetExponent total = max (total - 53) (-1074) := rfl

/-- What is left of a positive mantissa at its target exponent is positive and has at most 53
digits. -/
lemma shifted_bounds {mantissa : ℕ} {exponent : ℤ} (hpos : 0 < mantissa) (hexp : -1074 ≤ exponent) :
    0 < mantissa / 2 ^ (Format.binary64.targetExponent (totalExponent mantissa exponent) -
        exponent).toNat ∧
      mantissa / 2 ^ (Format.binary64.targetExponent (totalExponent mantissa exponent) -
        exponent).toNat < 2 ^ 53 := by
  have hlow : 2 ^ mantissa.log2 ≤ mantissa := Nat.log2_self_le hpos.ne'
  have hhigh : mantissa < 2 ^ (mantissa.log2 + 1) := Nat.lt_log2_self
  have hshift : (Format.binary64.targetExponent (totalExponent mantissa exponent) -
      exponent).toNat = mantissa.log2 - 52 := by
    rw [targetExponent_binary64, totalExponent]
    omega
  rw [hshift]
  constructor
  · apply Nat.div_pos _ (Nat.two_pow_pos _)
    exact (Nat.pow_le_pow_right two_pos (Nat.sub_le _ _)).trans hlow
  · rw [Nat.div_lt_iff_lt_mul (Nat.two_pow_pos _), ← pow_add]
    exact hhigh.trans_le (Nat.pow_le_pow_right two_pos (by omega))

/-- A positive mantissa is rounded to a positive one of at most 53 digits. -/
lemma exists_roundWithAccuracy {mantissa : ℕ} {exponent : ℤ} (sign : Sign) (accuracy : Accuracy)
    (hpos : 0 < mantissa) (hexp : -1074 ≤ exponent) :
    ∃ m e hm, roundWithAccuracy .binary64 sign mantissa exponent accuracy = .finite sign m e hm ∧
      m < 2 ^ 53 ∧ -1074 ≤ e := by
  unfold roundWithAccuracy shiftToTargetExponent shiftToExponent
  simp only
  generalize hE : exponent + _ = E
  have hElow : -1074 ≤ E := by omega
  generalize hR : ExtendedMantissa.roundedMantissa _ = R
  have hRpos : 0 < R := by
    rw [← hR]
    refine lt_of_lt_of_le ?_ (le_roundedMantissa _)
    rw [mantissa_shiftRight, mantissa_ofMantissaAndAccuracy]
    exact (shifted_bounds hpos hexp).1
  -- rounding up may have added a digit, so there is a second shift
  simp only [mantissa_shiftRight, mantissa_ofMantissaAndAccuracy]
  obtain ⟨hfinal, hdigits⟩ := shifted_bounds hRpos hElow
  rw [dif_neg hfinal.ne']
  exact ⟨_, _, hfinal, rfl, hdigits, by omega⟩

/-- A positive mantissa is rounded to a positive one of at most 53 digits; a short one is extended by
zeros before. -/
lemma exists_round {mantissa : ℕ} {exponent : ℤ} (sign : Sign) (hpos : 0 < mantissa)
    (hexp : -1074 ≤ exponent) :
    ∃ m e hm, UnpackedFloat.round .binary64 sign mantissa exponent = .finite sign m e hm ∧
      m < 2 ^ 53 ∧ -1074 ≤ e := by
  unfold UnpackedFloat.round decreaseExponent
  apply exists_roundWithAccuracy
  · rw [Nat.shiftLeft_eq]
    exact Nat.mul_pos hpos (Nat.two_pow_pos _)
  · rw [targetExponent_binary64]
    omega

/-! ## Packing -/

/-- The unpacked double is greater than zero. -/
def isPositive : UnpackedFloat → Bool
  | .finite .positive _ _ _ => true
  | .infinity .positive => true
  | _ => false

/-- What is positive is what zero is less than. -/
lemma zero_lt_eq (u : UnpackedFloat) : (UnpackedFloat.zero .positive).lt u = isPositive u := by
  rcases u with (_ | _) | _ | _ | ⟨_ | _, m, e, hm⟩ <;> rfl

/-- A finite number is positive by its sign. -/
lemma isPositive_finite (s : Sign) (m : ℕ) (e : ℤ) (hm : 0 < m) :
    isPositive (.finite s m e hm) = true ↔ s = .positive := by
  cases s <;> simp [isPositive]

/-- Unless the exponent is the greatest one, or it is the least one and there is no mantissa, bits are
those of a number that is positive by its sign. -/
lemma isPositive_unpack_packComponents {format : Format} (s : Sign)
    {e : BitVec format.exponentBits} {m : BitVec format.mantissaBitsWithoutImplicit}
    (he : e ≠ -BitVec.ofNat format.exponentBits 1)
    (hzero : e ≠ BitVec.ofNat _ 0 ∨ m ≠ BitVec.ofNat _ 0) :
    isPositive (UnpackedFloat.unpack format (packComponents format s e m)) = true ↔ s = .positive := by
  unfold UnpackedFloat.unpack
  simp only [unpackExponent_packComponents, unpackMantissa_packComponents,
    unpackSign_packComponents, Sign.ofBitVec_toBitVec]
  rw [if_neg he]
  split_ifs with hleast hnothing
  · exact absurd hzero (not_or.mpr ⟨not_not.mpr hleast, not_not.mpr hnothing⟩)
  · exact isPositive_finite ..
  · exact isPositive_finite ..

/-- A finite number with at most 53 digits is packed into bits of the same sign. -/
lemma isPositive_unpack_pack_finite (s : Sign) {m : ℕ} {e : ℤ} (hm : 0 < m)
    (hdigits : m < 2 ^ 53) (hexp : -1074 ≤ e) :
    isPositive (pack (.finite s m e hm)).unpack = true ↔ s = .positive := by
  have hbits : (pack (.finite s m e hm)).unpack =
      UnpackedFloat.unpack .binary64 (UnpackedFloat.pack .binary64 (.finite s m e hm)) := rfl
  have hbias : Format.binary64.exponentBias = 1023 := by decide
  have hmantissa : Format.binary64.mantissaBits = 53 := rfl
  rw [hbits]
  unfold UnpackedFloat.pack
  simp only [hbias, hmantissa]
  split_ifs with hoverflow hnormal
  · have hinfinity : UnpackedFloat.unpack .binary64 (packedInfinity .binary64 s) = .infinity s := by
      cases s <;> rfl
    rw [hinfinity]
    cases s <;> simp [isPositive]
  · -- the exponent is written with 11 bits, and it is neither zero nor all ones
    have hfield : (BitVec.ofNat 11 (e + 1023 + 52).toNat).toNat = (e + 1023 + 52).toNat := by
      rw [BitVec.toNat_ofNat]
      exact Nat.mod_eq_of_lt (by omega)
    apply isPositive_unpack_packComponents
    · intro hones
      have hvalue : (e + 1023 + 52).toNat = 2047 :=
        hfield.symm.trans (congrArg BitVec.toNat hones)
      omega
    · left
      intro hleast
      have hvalue : (e + 1023 + 52).toNat = 0 :=
        hfield.symm.trans (congrArg BitVec.toNat hleast)
      omega
  · -- without the leading digit the mantissa is written as it is
    have hsmall : m < 2 ^ 52 := by
      have hlog : m.log2 < 53 := (Nat.log2_lt hm.ne').mpr hdigits
      exact (Nat.log2_lt hm.ne').mp (by omega)
    apply isPositive_unpack_packComponents
    · decide
    · right
      intro hnothing
      have hvalue := congrArg BitVec.toNat hnothing
      rw [BitVec.toNat_ofNat, Nat.mod_eq_of_lt hsmall] at hvalue
      exact hm.ne' hvalue

/-- What has at most 53 digits is positive exactly if it is after packing. -/
lemma Bounded.isPositive_unpack_pack {u : UnpackedFloat} (h : Bounded u) :
    isPositive (pack u).unpack = isPositive u := by
  cases u with
  | notANumber => rfl
  | infinity s => cases s <;> rfl
  | zero s => cases s <;> rfl
  | finite s m e hm =>
    rw [Bool.eq_iff_iff, isPositive_unpack_pack_finite s hm h.1 h.2, isPositive_finite]

/-! ## Whole multiples of the smallest positive number -/

/-- A finite number is in the form in which it is unpacked: with 53 digits, or with fewer and the
least exponent. -/
def Canonical : UnpackedFloat → Prop
  | .finite _ m e _ => m < 2 ^ 53 ∧ -1074 ≤ e ∧ (2 ^ 52 ≤ m ∨ e = -1074)
  | _ => True

/-- What is canonical has at most 53 digits. -/
lemma Canonical.bounded {u : UnpackedFloat} (h : Canonical u) : Bounded u := by
  cases u with
  | finite s m e hm => exact ⟨h.1, h.2.1⟩
  | notANumber | infinity | zero => trivial

/-- What is unpacked from bits is canonical. -/
lemma canonical_unpack (bits : BitVec Format.binary64.numBits) :
    Canonical (UnpackedFloat.unpack .binary64 bits) := by
  have hbias : Format.binary64.exponentBias = 1023 := by decide
  have hwidth : Format.binary64.mantissaBitsWithoutImplicit = 52 := rfl
  unfold UnpackedFloat.unpack
  simp only [hbias]
  split_ifs with hones hinfinite hleast hzero
  · trivial
  · trivial
  · trivial
  · have hdigits : (unpackMantissa bits).toNat < 2 ^ 52 := (unpackMantissa bits).isLt
    have hfield : (unpackExponent bits).toNat = 0 := congrArg BitVec.toNat hleast
    exact ⟨by omega, by omega, Or.inr (by omega)⟩
  · have hdigits : (1#1 ++ unpackMantissa bits).toNat < 2 ^ 53 := (1#1 ++ unpackMantissa bits).isLt
    have hleading : 2 ^ 52 ≤ (1#1 ++ unpackMantissa bits).toNat := by
      rw [BitVec.toNat_append]
      exact Nat.left_le_or
    have hfield : (unpackExponent bits).toNat ≠ 0 := fun h => hleast (BitVec.eq_of_toNat_eq h)
    exact ⟨hdigits, by omega, Or.inl hleading⟩

/-- Doubles are unpacked into canonical parts. -/
lemma canonical (x : Float) : Canonical x.toModel.unpack :=
  canonical_unpack x.toModel.toBits.toBitVec

/-- How many times the smallest positive double a finite number is. -/
def units : UnpackedFloat → ℤ
  | .finite s m e _ => s.apply (m * 2 ^ (e + 1074).toNat)
  | _ => 0

/-- Of positive canonical numbers the one with the greater exponent is greater. -/
lemma magnitude_lt_of_exponent_lt {m m' : ℕ} {e e' : ℤ} (hdigits : m < 2 ^ 53) (hexp : -1074 ≤ e)
    (hcanonical : 2 ^ 52 ≤ m' ∨ e' = -1074) (h : e < e') :
    (m : ℤ) * 2 ^ (e + 1074).toNat < m' * 2 ^ (e' + 1074).toNat := by
  have hleading : 2 ^ 52 ≤ m' := hcanonical.resolve_right (by omega)
  calc (m : ℤ) * 2 ^ (e + 1074).toNat
      < 2 ^ 53 * 2 ^ (e + 1074).toNat := by gcongr; exact_mod_cast hdigits
    _ = 2 ^ 52 * 2 ^ ((e + 1074).toNat + 1) := by ring
    _ ≤ m' * 2 ^ (e' + 1074).toNat := by
      gcongr
      · exact_mod_cast hleading
      · norm_num
      · omega

/-- Positive canonical numbers compare by their exponents first and then by their mantissas. -/
lemma magnitude_lt_iff {m m' : ℕ} {e e' : ℤ} {s s' : Sign} {hm : 0 < m} {hm' : 0 < m'}
    (h : Canonical (.finite s m e hm)) (h' : Canonical (.finite s' m' e' hm')) :
    (m : ℤ) * 2 ^ (e + 1074).toNat < m' * 2 ^ (e' + 1074).toNat ↔ e < e' ∨ e = e' ∧ m < m' := by
  obtain ⟨hdigits, hexp, hcanonical⟩ := h
  obtain ⟨hdigits', hexp', hcanonical'⟩ := h'
  rcases lt_trichotomy e e' with hlt | rfl | hgt
  · exact iff_of_true (magnitude_lt_of_exponent_lt hdigits hexp hcanonical' hlt) (Or.inl hlt)
  · have hscale : (0 : ℤ) < 2 ^ (e + 1074).toNat := by positivity
    rw [mul_lt_mul_iff_left₀ hscale]
    simp
  · have hgreater := magnitude_lt_of_exponent_lt hdigits' hexp' hcanonical hgt
    refine iff_of_false hgreater.not_gt ?_
    rintro (hlt | ⟨rfl, -⟩)
    · exact hlt.not_gt hgt
    · exact lt_irrefl _ hgt

/-- Finite canonical numbers compare as the multiples of the smallest positive double that they are. -/
theorem units_lt_units {u v : UnpackedFloat} (hu : Canonical u) (hv : Canonical v)
    (hfu : u.isFinite = true) (hfv : v.isFinite = true) : units u < units v ↔ keyOf u < keyOf v := by
  have hpos {m : ℕ} (e : ℤ) (hm : 0 < m) : (0 : ℤ) < m * 2 ^ (e + 1074).toNat := by positivity
  cases u with
  | infinity | notANumber => cases hfu
  | zero s =>
    cases v with
    | infinity | notANumber => cases hfv
    | zero s' => simp [units, keyOf]
    | finite s' m' e' hm' =>
      cases s' <;> simp [units, keyOf, Sign.apply, Prod.Lex.toLex_lt_toLex, hm']
  | finite s m e hm =>
    cases v with
    | infinity | notANumber => cases hfv
    | zero s' => cases s <;> simp [units, keyOf, Sign.apply, Prod.Lex.toLex_lt_toLex, hm]
    | finite s' m' e' hm' =>
      rcases s with _ | _ <;> rcases s' with _ | _
      · simpa [units, keyOf, Sign.apply, Prod.Lex.toLex_lt_toLex, eq_comm] using
          magnitude_lt_iff hv hu
      · have hlt := (neg_lt_zero.mpr (hpos e hm)).trans (hpos e' hm')
        simpa [units, keyOf, Sign.apply, Prod.Lex.toLex_lt_toLex] using hlt
      · have hle := ((neg_lt_zero.mpr (hpos e' hm')).trans (hpos e hm)).le
        simpa [units, keyOf, Sign.apply, Prod.Lex.toLex_lt_toLex] using hle
      · simpa [units, keyOf, Sign.apply, Prod.Lex.toLex_lt_toLex] using magnitude_lt_iff hu hv

/-! ## Subtraction -/

/-- A multiple of a power of two is rounded to at most 53 digits, and it is still positive exactly if
the factor is. -/
lemma normalize_spec (mantissa : ℤ) {exponent : ℤ} (hexp : -1074 ≤ exponent) :
    Bounded (UnpackedFloat.normalize .binary64 mantissa exponent .positive) ∧
      (isPositive (UnpackedFloat.normalize .binary64 mantissa exponent .positive) = true ↔
        0 < mantissa) := by
  unfold UnpackedFloat.normalize
  rcases lt_trichotomy mantissa 0 with hneg | rfl | hpos
  · have hmagnitude : 0 < (-mantissa).toNat := by omega
    obtain ⟨m, e, hm, hround, hbounded⟩ := exists_round .negative hmagnitude hexp
    have hcompare : compare mantissa 0 = .lt := compare_lt_iff_lt.mpr hneg
    simp only [hcompare, hround, isPositive_finite]
    exact ⟨hbounded, iff_of_false nofun hneg.not_gt⟩
  · exact ⟨trivial, iff_of_false Bool.false_ne_true (lt_irrefl 0)⟩
  · have hmagnitude : 0 < mantissa.toNat := by omega
    obtain ⟨m, e, hm, hround, hbounded⟩ := exists_round .positive hmagnitude hexp
    have hcompare : compare mantissa 0 = .gt := compare_gt_iff_gt.mpr hpos
    simp only [hcompare, hround, isPositive_finite]
    exact ⟨hbounded, iff_of_true trivial hpos⟩

/-- A mantissa that is extended down to a smaller exponent still makes up the same multiple. -/
lemma apply_shiftLeft_mul (s : Sign) (m : ℕ) {e low : ℤ} (hlow : low ≤ e) (hexp : -1074 ≤ low) :
    s.apply ((m <<< (e - low).toNat : ℕ) : ℤ) * 2 ^ (low + 1074).toNat =
      s.apply (m * 2 ^ (e + 1074).toNat) := by
  have hsplit : (e + 1074).toNat = (e - low).toNat + (low + 1074).toNat := by omega
  rw [Nat.shiftLeft_eq, hsplit, pow_add]
  push_cast
  cases s
  · simp only [Sign.apply]
    ring
  · simp only [Sign.apply]
    ring

/-- A difference of finite numbers is positive exactly if the exact difference is. -/
lemma sub_finite_spec {s s' : Sign} {m m' : ℕ} {e e' : ℤ} {hm : 0 < m} {hm' : 0 < m'}
    (h : Canonical (.finite s m e hm)) (h' : Canonical (.finite s' m' e' hm')) :
    Bounded (UnpackedFloat.sub .binary64 (.finite s m e hm) (.finite s' m' e' hm')) ∧
      (isPositive (UnpackedFloat.sub .binary64 (.finite s m e hm) (.finite s' m' e' hm')) = true ↔
        units (.finite s' m' e' hm') < units (.finite s m e hm)) := by
  have hlow : -1074 ≤ min e e' := le_min h.2.1 h'.2.1
  have hscale : (0 : ℤ) < 2 ^ (min e e' + 1074).toNat := by positivity
  obtain ⟨hbounded, hpositive⟩ := normalize_spec
    (s.apply ((m <<< (e - min e e').toNat : ℕ) : ℤ) -
      s'.apply ((m' <<< (e' - min e e').toNat : ℕ) : ℤ)) hlow
  refine ⟨hbounded, hpositive.trans ?_⟩
  rw [← mul_pos_iff_of_pos_right hscale, sub_mul, sub_pos,
    apply_shiftLeft_mul s m (min_le_left e e') hlow,
    apply_shiftLeft_mul s' m' (min_le_right e e') hlow]
  rfl

/-- A difference is positive exactly if what is subtracted is less. -/
lemma sub_spec {u v : UnpackedFloat} (hu : Canonical u) (hv : Canonical v) :
    Bounded (UnpackedFloat.sub .binary64 v u) ∧
      isPositive (UnpackedFloat.sub .binary64 v u) = u.lt v := by
  cases u with
  | finite s m e hm =>
    cases v with
    | finite s' m' e' hm' =>
      obtain ⟨hbounded, hpositive⟩ := sub_finite_spec hv hu
      refine ⟨hbounded, Bool.eq_iff_iff.mpr ?_⟩
      rw [hpositive, units_lt_units hu hv rfl rfl, unpacked_lt_iff]
      simp [UnpackedFloat.isNaN]
    | zero s' => exact ⟨hu.bounded, by cases s <;> rfl⟩
    | infinity s' => exact ⟨trivial, by cases s' <;> rfl⟩
    | notANumber => exact ⟨trivial, rfl⟩
  | zero s =>
    cases v with
    | finite s' m' e' hm' => exact ⟨hv.bounded, by cases s' <;> rfl⟩
    | zero s' => cases s <;> cases s' <;> exact ⟨trivial, rfl⟩
    | infinity s' => exact ⟨trivial, by cases s' <;> rfl⟩
    | notANumber => exact ⟨trivial, rfl⟩
  | infinity s =>
    cases v with
    | finite s' m' e' hm' => exact ⟨trivial, by cases s <;> rfl⟩
    | zero s' => exact ⟨trivial, by cases s <;> rfl⟩
    | infinity s' => cases s <;> cases s' <;> exact ⟨trivial, rfl⟩
    | notANumber => exact ⟨trivial, rfl⟩
  | notANumber => cases v <;> exact ⟨trivial, rfl⟩

/-- Only what is not a number is not at most itself. -/
lemma isNaN_eq (x : Float) : Scalar.isNaN x = x.isNaN := by
  have hself : x ≤ x ↔ x.isNaN = false := by simp only [le_iff, le_refl, and_true, and_self]
  simp [Scalar.isNaN, hself]

/-- Doubles order their numbers. -/
instance : Scalar.OrdersNumbers Float where
  zero := ⟨by decide, rfl⟩
  numbers_of_le := by
    intro a b hab
    rw [isNaN_eq, isNaN_eq]
    obtain ⟨ha, hb, -⟩ := (le_iff a b).mp hab
    exact ⟨ha, hb⟩
  le_trans := by
    intro a b c hab hbc
    obtain ⟨ha, -, hle⟩ := (le_iff a b).mp hab
    obtain ⟨-, hc, hle'⟩ := (le_iff b c).mp hbc
    exact (le_iff a c).mpr ⟨ha, hc, hle.trans hle'⟩
  le_total := by
    intro a b ha hb
    rw [isNaN_eq] at ha hb
    rw [le_iff, le_iff]
    exact (le_total (key a) (key b)).imp (⟨ha, hb, ·⟩) (⟨hb, ha, ·⟩)
  lt_iff := by
    intro a b
    rw [lt_iff, le_iff, le_iff]
    constructor
    · rintro ⟨ha, hb, hlt⟩
      exact ⟨⟨ha, hb, hlt.le⟩, fun h => hlt.not_ge h.2.2⟩
    · rintro ⟨⟨ha, hb, -⟩, hnot⟩
      exact ⟨ha, hb, not_le.mp fun hge => hnot ⟨hb, ha, hge⟩⟩
  sub_pos_iff := by
    intro a b
    have hpositive : 0 < b - a ↔ (UnpackedFloat.zero .positive).lt
        (pack (UnpackedFloat.sub .binary64 b.toModel.unpack a.toModel.unpack)).unpack = true :=
      decide_eq_true_iff
    have hless : a < b ↔ a.toModel.unpack.lt b.toModel.unpack = true := decide_eq_true_iff
    obtain ⟨hbounded, hsub⟩ := sub_spec (canonical a) (canonical b)
    rw [hpositive, hless, zero_lt_eq, hbounded.isPositive_unpack_pack]
    exact Bool.eq_iff_iff.mp hsub

end Binary64

end DiagramLayout
