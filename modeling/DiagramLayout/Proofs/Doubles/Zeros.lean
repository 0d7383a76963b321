import DiagramLayout.Proofs.Doubles

/-!
# The sign of a zero

There are two zeros, and they compare equal. Doubles are *alike* if they are the same or compare
equal, which is to say, if they are the same up to the sign of a zero (`Binary64.alike_iff`). The
comparisons do not tell alike doubles apart, and numbers that are below or equal to one another are
alike (`Binary64.alike_of_le_of_le`).

Sums, differences and products of alike doubles are alike, and so are their quotients by one
divisor. A divisor that is alike would not do: one divided by a zero is an infinity of its sign. But
the difference of two numbers in strict order does not depend on the signs of zeros at all
(`Binary64.Alike.sub_eq`), and it is by such differences that an interpolation divides.
-/

namespace DiagramLayout

namespace Binary64

open Float.Model

/-- The doubles are the same, or they compare equal. -/
def Alike (x y : Float) : Prop := x = y ∨ (x == y) = true

/-- Doubles are alike if they are the same up to the sign of a zero. -/
theorem alike_iff {x y : Float} : Alike x y ↔ x = y ∨ x = 0 ∧ y = -0 ∨ x = -0 ∧ y = 0 := by
  unfold Alike
  rw [Float.beq_iff_ne_nan_and_eq]
  constructor
  · rintro (rfl | ⟨-, -, rfl | hzeros⟩)
    · exact Or.inl rfl
    · exact Or.inl rfl
    · exact Or.inr hzeros
  · rintro (rfl | ⟨rfl, rfl⟩ | ⟨rfl, rfl⟩)
    · exact Or.inl rfl
    · exact Or.inr ⟨by decide, by decide, Or.inr (Or.inl ⟨rfl, rfl⟩)⟩
    · exact Or.inr ⟨by decide, by decide, Or.inr (Or.inr ⟨rfl, rfl⟩)⟩

@[refl] lemma Alike.refl (x : Float) : Alike x x := Or.inl rfl

@[symm] lemma Alike.symm {x y : Float} (h : Alike x y) : Alike y x := by
  rw [alike_iff] at h ⊢
  grind

lemma Alike.trans {x y z : Float} (h : Alike x y) (h' : Alike y z) : Alike x z := by
  rw [alike_iff] at h h' ⊢
  grind

/-! ## Unpacked zeros -/

/-- The unpacked doubles are the same, or both of them are zeros. -/
def SameUpToZero (u v : UnpackedFloat) : Prop := u = v ∨ ∃ s s', u = .zero s ∧ v = .zero s'

/-- A double is packed from what it unpacks to. -/
lemma ofModel_pack_unpack (x : Float) : Float.ofModel (pack x.toModel.unpack) = x := by
  rw [← Float.toBits_inj]
  obtain ⟨⟨bits, valid⟩⟩ := x
  exact congrArg UInt64.ofBitVec (UnpackedFloat.pack_unpack_of_valid valid)

/-- What is the same up to the sign of a zero is packed into alike doubles. -/
lemma SameUpToZero.alike_pack {u v : UnpackedFloat} (h : SameUpToZero u v) :
    Alike (Float.ofModel (pack u)) (Float.ofModel (pack v)) := by
  rcases h with rfl | ⟨s, s', rfl, rfl⟩
  · rfl
  · rw [alike_iff]
    cases s <;> cases s' <;> decide

/-- Numbers with the same key are the same up to the sign of a zero. -/
lemma sameUpToZero_of_keyOf_eq {u v : UnpackedFloat} (hu : u.isNaN = false) (hv : v.isNaN = false)
    (h : keyOf u = keyOf v) : SameUpToZero u v := by
  rcases u with (_ | _) | _ | s | ⟨_ | _, m, e, hm⟩ <;>
    rcases v with (_ | _) | _ | s' | ⟨_ | _, m', e', hm'⟩ <;>
    simp_all [SameUpToZero, keyOf, UnpackedFloat.isNaN]

/-- Numbers that are below or equal to one another are alike. -/
theorem alike_of_le_of_le {x y : Float} (hxy : x ≤ y) (hyx : y ≤ x) : Alike x y := by
  obtain ⟨hx, hy, hle⟩ := (le_iff x y).mp hxy
  obtain ⟨-, -, hge⟩ := (le_iff y x).mp hyx
  have hsame := (sameUpToZero_of_keyOf_eq hx hy (le_antisymm hle hge)).alike_pack
  rwa [ofModel_pack_unpack, ofModel_pack_unpack] at hsame

/-! ## Comparisons -/

section Comparisons

variable {x x' y y' : Float}

/-- Alike doubles have one key, and they are numbers together. -/
lemma Alike.key_eq (h : Alike x x') : key x = key x' ∧ x.isNaN = x'.isNaN := by
  rcases alike_iff.mp h with rfl | ⟨rfl, rfl⟩ | ⟨rfl, rfl⟩
  · exact ⟨rfl, rfl⟩
  · exact ⟨rfl, rfl⟩
  · exact ⟨rfl, rfl⟩

/-- Alike doubles compare alike. -/
lemma Alike.le_iff (hx : Alike x x') (hy : Alike y y') : x ≤ y ↔ x' ≤ y' := by
  rw [Binary64.le_iff, Binary64.le_iff, hx.key_eq.1, hx.key_eq.2, hy.key_eq.1, hy.key_eq.2]

/-- Alike doubles have one absolute value. -/
lemma Alike.abs_eq (h : Alike x x') : Float.abs x = Float.abs x' := by
  rcases alike_iff.mp h with rfl | ⟨rfl, rfl⟩ | ⟨rfl, rfl⟩
  · rfl
  · rfl
  · rfl

/-- Alike doubles have one nearest order key. -/
lemma Alike.nearestKey_eq (h : Alike x x') : nearestKey x = nearestKey x' := by
  rcases alike_iff.mp h with rfl | ⟨rfl, rfl⟩ | ⟨rfl, rfl⟩
  · rfl
  · decide
  · decide

end Comparisons

/-! ## Operations -/

/-- The sign of a zero has no effect on the result of an operation, but on the sign of a zero. -/
def KeepsAlike (op : UnpackedFloat → UnpackedFloat) : Prop :=
  ∀ s s', SameUpToZero (op (.zero s)) (op (.zero s'))

/-- The sign of a zero has no effect in either operand, but on the sign of a zero. -/
structure KeepsBothAlike (op : UnpackedFloat → UnpackedFloat → UnpackedFloat) : Prop where
  left (u : UnpackedFloat) : KeepsAlike (op · u)
  right (u : UnpackedFloat) : KeepsAlike (op u ·)

/-- Adding, subtracting and multiplying keep numbers alike, and so does dividing by a number. -/
lemma keepsAlike_arithmetic (format : Format) :
    KeepsBothAlike (UnpackedFloat.add format) ∧ KeepsBothAlike (UnpackedFloat.sub format) ∧
      KeepsBothAlike (UnpackedFloat.mul format) ∧
      ∀ u, KeepsAlike (UnpackedFloat.div format · u) := by
  refine ⟨⟨?_, ?_⟩, ⟨?_, ?_⟩, ⟨?_, ?_⟩, ?_⟩ <;> intro u s s' <;>
    rcases u with _ | _ | (_ | _) | ⟨_, _, _, _⟩ <;> cases s <;> cases s' <;>
    -- either the sign does not matter or both results are zeros
    first | exact Or.inl rfl | exact Or.inr ⟨_, _, rfl, rfl⟩

section Arithmetic

variable {x x' y y' : Float}

/-- Alike operands have alike results. -/
lemma KeepsAlike.alike {op : UnpackedFloat → UnpackedFloat} (hop : KeepsAlike op)
    (h : Alike x x') : Alike (Float.ofModel (pack (op x.toModel.unpack)))
      (Float.ofModel (pack (op x'.toModel.unpack))) := by
  rcases alike_iff.mp h with rfl | ⟨rfl, rfl⟩ | ⟨rfl, rfl⟩
  · rfl
  · exact (hop .positive .negative).alike_pack
  · exact (hop .negative .positive).alike_pack

/-- Two pairs of alike operands have alike results. -/
lemma KeepsBothAlike.alike {op : UnpackedFloat → UnpackedFloat → UnpackedFloat}
    (hop : KeepsBothAlike op) (hx : Alike x x') (hy : Alike y y') :
    Alike (Float.ofModel (pack (op x.toModel.unpack y.toModel.unpack)))
      (Float.ofModel (pack (op x'.toModel.unpack y'.toModel.unpack))) :=
  ((hop.left y.toModel.unpack).alike hx).trans ((hop.right x'.toModel.unpack).alike hy)

/-- Sums of alike doubles are alike. -/
lemma Alike.add (hx : Alike x x') (hy : Alike y y') : Alike (x + y) (x' + y') :=
  (keepsAlike_arithmetic .binary64).1.alike hx hy

/-- Differences of alike doubles are alike. -/
lemma Alike.sub (hx : Alike x x') (hy : Alike y y') : Alike (x - y) (x' - y') :=
  (keepsAlike_arithmetic .binary64).2.1.alike hx hy

/-- Products of alike doubles are alike. -/
lemma Alike.mul (hx : Alike x x') (hy : Alike y y') : Alike (x * y) (x' * y') :=
  (keepsAlike_arithmetic .binary64).2.2.1.alike hx hy

/-- Quotients of alike doubles by one divisor are alike. -/
lemma Alike.div (hx : Alike x x') (y : Float) : Alike (x / y) (x' / y) :=
  ((keepsAlike_arithmetic .binary64).2.2.2 y.toModel.unpack).alike hx

/-- The sign of a zero has no effect on its difference from what is not a zero. -/
lemma sub_zero_eq (h : ¬ Alike x 0) : x - 0 = x - -0 ∧ 0 - x = -0 - x := by
  have hunpacked (s : UnpackedFloat.Sign) : x.toModel.unpack ≠ .zero s := by
    intro hs
    have hzero : SameUpToZero x.toModel.unpack (.zero .positive) := Or.inr ⟨s, .positive, hs, rfl⟩
    apply h
    rw [← ofModel_pack_unpack x]
    exact hzero.alike_pack
  have hright : UnpackedFloat.sub .binary64 x.toModel.unpack (.zero .positive) =
      UnpackedFloat.sub .binary64 x.toModel.unpack (.zero .negative) := by
    cases hx : x.toModel.unpack with
    | zero s => exact absurd hx (hunpacked s)
    | notANumber | infinity s | finite s mantissa exponent _ => rfl
  have hleft : UnpackedFloat.sub .binary64 (.zero .positive) x.toModel.unpack =
      UnpackedFloat.sub .binary64 (.zero .negative) x.toModel.unpack := by
    cases hx : x.toModel.unpack with
    | zero s => exact absurd hx (hunpacked s)
    | notANumber | infinity s | finite s mantissa exponent _ => rfl
  exact ⟨congrArg (fun u => Float.ofModel (pack u)) hright,
    congrArg (fun u => Float.ofModel (pack u)) hleft⟩

/-- The differences of alike numbers in strict order are the same. -/
lemma Alike.sub_eq (hx : Alike x x') (hy : Alike y y') (h : ¬ x ≤ y) : x - y = x' - y' := by
  -- of numbers in strict order one at most is a zero
  have hzeros (hx0 : Alike x 0) (hy0 : Alike y 0) : False :=
    h ((hx0.le_iff hy0).mpr (by decide))
  have hminuend : x - y = x' - y := by
    rcases alike_iff.mp hx with rfl | ⟨rfl, rfl⟩ | ⟨rfl, rfl⟩
    · rfl
    · exact (sub_zero_eq (hzeros (.refl 0))).2
    · exact (sub_zero_eq (hzeros (alike_iff.mpr (by decide)))).2.symm
  have hsubtrahend : x' - y = x' - y' := by
    rcases alike_iff.mp hy with rfl | ⟨rfl, rfl⟩ | ⟨rfl, rfl⟩
    · rfl
    · exact (sub_zero_eq fun hx0 => hzeros (hx.trans hx0) (.refl 0)).1
    · exact (sub_zero_eq fun hx0 => hzeros (hx.trans hx0) (alike_iff.mpr (by decide))).1.symm
  rw [hminuend, hsubtrahend]

end Arithmetic

end Binary64

end DiagramLayout
