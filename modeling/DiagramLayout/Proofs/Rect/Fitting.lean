import DiagramLayout.Proofs.Doubles.Differences
import DiagramLayout.Proofs.Rect

/-!
# Making rectangles fit

A rectangle is made to fit in two ways.

`Rect.offsetInto` moves it into another one, on each axis by itself. An interval that is no longer
than the other takes the shortest way inside; a longer one is aligned at the lower end. Either way it
has arrived: a second offset moves nothing (`Rect.offsetInto_bringsInto`).

`Rect.stripsOutside` cuts it around an obstacle. What is cut off keeps apart from the obstacle and lies
in the rectangle, and nothing is lost: each point of the rectangle that is not in the obstacle is
kept in a strip (`Rect.stripsOutside_keeps`). This holds for doubles, infinite ones included. But an
edge that is not a number does not cut anything off, and a strip that keeps it lies in no rectangle
(`Rect.stripsOutside_NaN`).
-/

namespace DiagramLayout

namespace Rect

/-! ## Moving into another rectangle -/

/-- What a shift does that brings the interval from `low` to `high` into another one. -/
structure BringsInto (low high outerLow outerHigh shift : ℚ) : Prop where
  /-- An interval that is no longer than the other ends up inside. -/
  inside : high - low ≤ outerHigh - outerLow →
    outerLow ≤ low + shift ∧ high + shift ≤ outerHigh
  /-- No other shift that ends up inside is shorter. -/
  shortest : high - low ≤ outerHigh - outerLow →
    ∀ other, outerLow ≤ low + other → high + other ≤ outerHigh → |shift| ≤ |other|
  /-- The interval stays exactly if it is inside already. -/
  stays_iff : high - low ≤ outerHigh - outerLow →
    (shift = 0 ↔ outerLow ≤ low ∧ high ≤ outerHigh)
  /-- A longer interval is aligned at the lower end. -/
  aligned : outerHigh - outerLow < high - low → low + shift = outerLow

section Axis

variable {low high outerLow outerHigh : ℚ}

/-- Aligning at the lower end is right for an interval that begins too low or leaves no choice. -/
lemma bringsInto_lower (h : outerHigh - outerLow ≤ high - low ∨ low < outerLow) :
    BringsInto low high outerLow outerHigh (outerLow - low) where
  inside := by
    intro hfits
    constructor <;> linarith
  shortest := by
    intro hfits other hlow hhigh
    rcases h with hlength | hleft
    · -- an interval of the same length has one place inside
      have hother : other = outerLow - low := by linarith
      rw [hother]
    · rw [abs_of_pos (sub_pos.mpr hleft)]
      exact (sub_le_iff_le_add'.mpr hlow).trans (le_abs_self other)
  stays_iff := by
    intro hfits
    constructor
    · intro hzero
      constructor <;> linarith
    · rintro ⟨hlow, hhigh⟩
      rcases h with hlength | hleft
      · linarith
      · exact absurd hleft (not_lt.mpr hlow)
  aligned := by
    intro _
    exact add_sub_cancel low outerLow

/-- Pushing back from the upper end is right for an interval with room that ends too high. -/
lemma bringsInto_upper (hroom : high - low < outerHigh - outerLow) (hright : outerHigh < high) :
    BringsInto low high outerLow outerHigh (outerHigh - high) where
  inside := by
    intro _
    constructor <;> linarith
  shortest := by
    intro _ other _ hhigh
    rw [abs_of_neg (sub_neg.mpr hright)]
    exact (neg_le_neg (le_sub_iff_add_le'.mpr hhigh)).trans (neg_le_abs other)
  stays_iff := by
    intro _
    refine iff_of_false (sub_neg.mpr hright).ne ?_
    rintro ⟨-, hhigh⟩
    exact not_lt.mpr hhigh hright
  aligned := by
    intro hlonger
    exact absurd hlonger (not_lt.mpr hroom.le)

/-- An interval that is inside may stay. -/
lemma bringsInto_zero (hlow : outerLow ≤ low) (hhigh : high ≤ outerHigh) :
    BringsInto low high outerLow outerHigh 0 where
  inside := by
    intro _
    rw [add_zero, add_zero]
    exact ⟨hlow, hhigh⟩
  shortest := by
    intro _ other _ _
    rw [abs_zero]
    exact abs_nonneg other
  stays_iff := by
    intro _
    exact iff_of_true rfl ⟨hlow, hhigh⟩
  aligned := by
    intro hlonger
    exact absurd hlonger (not_lt.mpr (sub_le_sub hhigh hlow))

variable (low high outerLow outerHigh)

/-- The shift along an axis brings the interval into the other. -/
lemma bringsInto_offsetIntoAxis :
    BringsInto low high outerLow outerHigh (offsetIntoAxis low high outerLow outerHigh) := by
  unfold offsetIntoAxis
  simp only [Bool.or_eq_true, decide_eq_true_eq]
  split_ifs with hlower hright
  · exact bringsInto_lower hlower
  · rw [not_or, not_le, not_lt] at hlower
    exact bringsInto_upper hlower.1 hright
  · rw [not_or, not_le, not_lt] at hlower
    exact bringsInto_zero hlower.2 (not_lt.mp hright)

variable {low high outerLow outerHigh}

/-- An interval that has been brought into another stays there. -/
lemma BringsInto.offsetIntoAxis_eq_zero {shift : ℚ}
    (h : BringsInto low high outerLow outerHigh shift) :
    offsetIntoAxis (low + shift) (high + shift) outerLow outerHigh = 0 := by
  have hagain := bringsInto_offsetIntoAxis (low + shift) (high + shift) outerLow outerHigh
  have hlength : high + shift - (low + shift) = high - low := add_sub_add_right_eq_sub _ _ _
  rcases le_or_gt (high - low) (outerHigh - outerLow) with hfits | hlonger
  · exact (hagain.stays_iff (hlength.le.trans hfits)).mpr (h.inside hfits)
  · have haligned := hagain.aligned (hlonger.trans_eq hlength.symm)
    linarith [h.aligned hlonger]

end Axis

/-- On each axis the offset into another rectangle is the shortest way inside, or it aligns what is
too long, and after it nothing is left to move. Whether edges are reversed does not matter. -/
theorem offsetInto_bringsInto (r outer : Rect ℚ) :
    BringsInto r.minX r.maxX outer.minX outer.maxX (r.offsetInto outer).x ∧
      BringsInto r.minY r.maxY outer.minY outer.maxY (r.offsetInto outer).y ∧
      (r.translate (r.offsetInto outer)).offsetInto outer = .origin := by
  have hx := bringsInto_offsetIntoAxis r.minX r.maxX outer.minX outer.maxX
  have hy := bringsInto_offsetIntoAxis r.minY r.maxY outer.minY outer.maxY
  exact ⟨hx, hy, congrArg₂ Point.mk hx.offsetIntoAxis_eq_zero hy.offsetIntoAxis_eq_zero⟩

/-- A rectangle that sticks out to the right and is too high goes left, onto the upper edge. -/
theorem offsetInto_bringsInto_highBox :
    let r : Rect ℚ := ⟨12, 0, 22, 40⟩
    let outer : Rect ℚ := ⟨0, 5, 20, 15⟩
    r.offsetInto outer = ⟨-2, 5⟩ ∧
      (r.maxX - r.minX ≤ outer.maxX - outer.minX ∧
        outer.minX ≤ r.minX + (r.offsetInto outer).x ∧
        r.maxX + (r.offsetInto outer).x ≤ outer.maxX) ∧
      (outer.maxY - outer.minY < r.maxY - r.minY ∧
        r.minY + (r.offsetInto outer).y = outer.minY) := by
  intro r outer
  obtain ⟨hx, hy, -⟩ := offsetInto_bringsInto r outer
  have hfits : r.maxX - r.minX ≤ outer.maxX - outer.minX := by decide +kernel
  have hlonger : outer.maxY - outer.minY < r.maxY - r.minY := by decide +kernel
  exact ⟨by decide +kernel, ⟨hfits, hx.inside hfits⟩, hlonger, hy.aligned hlonger⟩

/-! ## Strips beside an obstacle -/

/-- The strips beside an obstacle whose edges are numbers share nothing with it, and those of a
rectangle whose edges are numbers lie in the rectangle. A rectangle with extent loses no point to the
strips that is not in the obstacle. -/
theorem stripsOutside_keeps (r obstacle : Rect Float) :
    (obstacle.HasNumbers →
        ∀ strip ∈ r.stripsOutside obstacle, strip.overlapArea obstacle = 0) ∧
      (r.HasNumbers →
        ∀ strip ∈ r.stripsOutside obstacle, strip ≠ empty → r.contains strip = true) ∧
      (0 < r.width → 0 < r.height →
        ∀ p, r.containsPoint p = true → obstacle.containsPoint p = false →
          ∃ strip ∈ r.stripsOutside obstacle,
            strip.isEmpty = false ∧ strip.containsPoint p = true) := by
  refine ⟨?_, ?_, ?_⟩
  · intro hobstacle strip hstrip
    exact strip_apart hobstacle hstrip
  · intro hr strip hstrip hne
    obtain ⟨-, hin⟩ := (strip_within hr hstrip).resolve_left hne
    exact hin
  · intro hwidth hheight p hp hfree
    exact exists_strip hwidth hheight hp hfree

/-- An obstacle with reversed edges contains no point, so not even its center is lost. -/
theorem stripsOutside_keeps_reversedObstacle :
    let r : Rect Float := ⟨0, 0, 100, 100⟩
    let obstacle : Rect Float := ⟨60, 40, 40, 60⟩
    r.HasNumbers ∧ obstacle.HasNumbers ∧
      (∀ strip ∈ r.stripsOutside obstacle, strip.overlapArea obstacle = 0) ∧
      (∀ strip ∈ r.stripsOutside obstacle, strip ≠ empty → r.contains strip = true) ∧
      0 < r.width ∧ 0 < r.height ∧
      r.containsPoint ⟨50, 50⟩ = true ∧ obstacle.containsPoint ⟨50, 50⟩ = false ∧
      ∃ strip ∈ r.stripsOutside obstacle,
        strip.isEmpty = false ∧ strip.containsPoint ⟨50, 50⟩ = true := by
  intro r obstacle
  have hr : r.HasNumbers := ⟨by decide, by decide, by decide, by decide⟩
  have hobstacle : obstacle.HasNumbers := ⟨by decide, by decide, by decide, by decide⟩
  have hwidth : 0 < r.width := by decide +kernel
  have hheight : 0 < r.height := by decide +kernel
  have hp : r.containsPoint ⟨50, 50⟩ = true := by decide +kernel
  have hfree : obstacle.containsPoint ⟨50, 50⟩ = false := by decide +kernel
  obtain ⟨hapart, hwithin, hkept⟩ := stripsOutside_keeps r obstacle
  exact ⟨hr, hobstacle, hapart hobstacle, hwithin hr, hwidth, hheight, hp, hfree,
    hkept hwidth hheight ⟨50, 50⟩ hp hfree⟩

/-- An obstacle whose left and right edges are not numbers cuts nothing off at either side, and these
strips share with it what they have at its height. Of a rectangle with such edges no strip is empty,
and none lies in it. -/
theorem stripsOutside_NaN :
    let r : Rect Float := ⟨0, 0, 100, 100⟩
    let sideless : Rect Float := ofCorner Float.nan 40 20 20
    (r.stripsOutside sideless).map (·.overlapArea sideless) = [2000, 2000, 0, 0] ∧
      ∀ strip ∈ sideless.stripsOutside ⟨40, 45, 60, 50⟩,
        strip ≠ empty ∧ sideless.contains strip = false := by
  decide +kernel

end Rect

end DiagramLayout
