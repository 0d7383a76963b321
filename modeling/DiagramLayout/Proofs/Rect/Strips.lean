import DiagramLayout.Geometry.Rect
import DiagramLayout.Proofs.Numbers

/-!
# Strips beside an obstacle

A rectangle is cut into strips beside an obstacle by comparing and copying edges alone, so what can
be said about the strips holds for all coordinates that order their numbers. The edges may be
reversed, and they may be infinite.

A strip ends at the facing edge of the obstacle, so the two share nothing (`Rect.strip_apart`), and it
is empty or a part of the rectangle (`Rect.strip_within`). For the one the edges of the obstacle have
to be numbers, for the other those of the rectangle. Nothing is needed for the third: a point of the
rectangle that the obstacle does not contain is beyond one of its edges, or that edge is not a number
and cuts nothing off, and so the strip on that side has the point (`Rect.exists_strip`).
-/

namespace DiagramLayout

namespace Rect

variable {α : Type} [Scalar α]

/-- All edges are numbers. -/
structure HasNumbers (r : Rect α) : Prop where
  minX : Scalar.isNaN r.minX = false
  minY : Scalar.isNaN r.minY = false
  maxX : Scalar.isNaN r.maxX = false
  maxY : Scalar.isNaN r.maxY = false

/-- A rectangle contains another if it does so edge by edge. -/
lemma contains_iff {r inner : Rect α} :
    r.contains inner = true ↔
      r.minX ≤ inner.minX ∧ r.minY ≤ inner.minY ∧ inner.maxX ≤ r.maxX ∧ inner.maxY ≤ r.maxY := by
  simp only [contains, Bool.and_eq_true, decide_eq_true_eq, and_assoc]

/-- A rectangle contains a point if it does so along each axis. -/
lemma containsPoint_iff {r : Rect α} {p : Point α} :
    r.containsPoint p = true ↔ r.minX ≤ p.x ∧ p.x ≤ r.maxX ∧ r.minY ≤ p.y ∧ p.y ≤ r.maxY := by
  simp only [containsPoint, Bool.and_eq_true, decide_eq_true_eq, and_assoc]

/-- Putting the empty rectangle in its place leaves a rectangle that is empty, or as it was. -/
lemma orEmpty_cases (s : Rect α) :
    s.orEmpty = empty ∨ s.isEmpty = false ∧ s.orEmpty = s := by
  cases hs : s.isEmpty with
  | true => exact Or.inl (if_pos hs)
  | false => exact Or.inr ⟨rfl, if_neg (Bool.eq_false_iff.mp hs)⟩

variable [Scalar.OrdersNumbers α] {r obstacle : Rect α}

open Scalar.OrdersNumbers (le_trans numbers_of_le sub_pos_iff lt_iff)

/-! ## What is beside shares nothing -/

/-- The empty rectangle has no area. -/
lemma area_empty : (empty : Rect α).area = 0 := by
  obtain ⟨hzero, hdifference⟩ := Scalar.OrdersNumbers.zero (α := α)
  have hflat : (empty : Rect α).isEmpty = true := by
    simp [isEmpty, width, empty, hdifference, Scalar.le_self hzero]
  rw [area, if_pos hflat]

/-- Rectangles share nothing if along an axis one of them ends before the other begins. -/
lemma overlapArea_eq_zero_of_apart {a b : Rect α}
    (h : Scalar.min a.maxX b.maxX ≤ Scalar.max a.minX b.minX ∨
      Scalar.min a.maxY b.maxY ≤ Scalar.max a.minY b.minY) : a.overlapArea b = 0 := by
  have hempty : a.overlap b = empty := by
    unfold overlap
    simp only [Bool.or_eq_true, decide_eq_true_eq]
    exact if_pos h
  rw [overlapArea, hempty, area_empty]

/-- The empty rectangle at the origin shares nothing. -/
@[simp] lemma overlapArea_empty (b : Rect α) : (empty : Rect α).overlapArea b = 0 := by
  obtain ⟨hzero, -⟩ := Scalar.OrdersNumbers.zero (α := α)
  apply overlapArea_eq_zero_of_apart
  left
  exact le_trans (Scalar.min_le_left hzero b.maxX) (Scalar.le_max_left hzero b.minX)

/-- Rectangles that are beside one another along an axis share nothing. -/
lemma overlapArea_eq_zero_of_beside {a b : Rect α}
    (h : a.maxX ≤ b.minX ∨ b.maxX ≤ a.minX ∨ a.maxY ≤ b.minY ∨ b.maxY ≤ a.minY) :
    a.overlapArea b = 0 := by
  have hbeside {low high low' high' : α} (hends : high ≤ low' ∨ high' ≤ low) :
      Scalar.min high high' ≤ Scalar.max low low' := by
    rcases hends with hle | hle
    · obtain ⟨hhigh, hlow⟩ := numbers_of_le hle
      exact le_trans (Scalar.min_le_left hhigh high') (le_trans hle (Scalar.le_max_right low hlow))
    · obtain ⟨hhigh, hlow⟩ := numbers_of_le hle
      exact le_trans (Scalar.min_le_right high hhigh) (le_trans hle (Scalar.le_max_left hlow low'))
  rw [← or_assoc] at h
  exact overlapArea_eq_zero_of_apart (h.imp hbeside hbeside)

/-! ## Strips -/

/-- A strip shares nothing with an obstacle whose edges are numbers. -/
theorem strip_apart (ho : obstacle.HasNumbers) {strip : Rect α}
    (h : strip ∈ r.stripsOutside obstacle) : strip.overlapArea obstacle = 0 := by
  have hchoice (s : Rect α) (hs : s.maxX ≤ obstacle.minX ∨ obstacle.maxX ≤ s.minX ∨
      s.maxY ≤ obstacle.minY ∨ obstacle.maxY ≤ s.minY) : s.orEmpty.overlapArea obstacle = 0 := by
    rcases s.orEmpty_cases with heq | ⟨-, heq⟩
    · rw [heq]
      exact overlapArea_empty obstacle
    · rw [heq]
      exact overlapArea_eq_zero_of_beside hs
  simp only [stripsOutside, List.mem_cons, List.not_mem_nil, or_false] at h
  rcases h with rfl | rfl | rfl | rfl
  · exact hchoice _ (Or.inl (Scalar.min_le_right r.maxX ho.minX))
  · exact hchoice _ (Or.inr (Or.inl (Scalar.le_max_right r.minX ho.maxX)))
  · exact hchoice _ (Or.inr (Or.inr (Or.inl (Scalar.min_le_right r.maxY ho.minY))))
  · exact hchoice _ (Or.inr (Or.inr (Or.inr (Scalar.le_max_right r.minY ho.maxY))))

/-- A strip of a rectangle whose edges are numbers is empty, or it has extent and lies in the
rectangle. -/
theorem strip_within (hr : r.HasNumbers) {strip : Rect α} (h : strip ∈ r.stripsOutside obstacle) :
    strip = empty ∨ strip.isEmpty = false ∧ r.contains strip = true := by
  have hchoice (s : Rect α) (hs : r.contains s = true) :
      s.orEmpty = empty ∨ s.orEmpty.isEmpty = false ∧ r.contains s.orEmpty = true := by
    rcases s.orEmpty_cases with heq | ⟨hextent, heq⟩
    · exact Or.inl heq
    · rw [heq]
      exact Or.inr ⟨hextent, hs⟩
  have hleft := Scalar.le_self hr.minX
  have htop := Scalar.le_self hr.minY
  have hright := Scalar.le_self hr.maxX
  have hbottom := Scalar.le_self hr.maxY
  simp only [stripsOutside, List.mem_cons, List.not_mem_nil, or_false] at h
  rcases h with rfl | rfl | rfl | rfl
  · exact hchoice _ (contains_iff.mpr ⟨hleft, htop, Scalar.min_le_left hr.maxX _, hbottom⟩)
  · exact hchoice _ (contains_iff.mpr ⟨Scalar.le_max_left hr.minX _, htop, hright, hbottom⟩)
  · exact hchoice _ (contains_iff.mpr ⟨hleft, htop, hright, Scalar.min_le_left hr.maxY _⟩)
  · exact hchoice _ (contains_iff.mpr ⟨hleft, Scalar.le_max_left hr.minY _, hright, hbottom⟩)

/-- A rectangle with edges in strict order is not empty. -/
lemma isEmpty_eq_false {s : Rect α} (hx : s.minX < s.maxX) (hy : s.minY < s.maxY) :
    s.isEmpty = false := by
  have hwidth : ¬ s.width ≤ 0 := (lt_iff.mp (sub_pos_iff.mpr hx)).2
  have hheight : ¬ s.height ≤ 0 := (lt_iff.mp (sub_pos_iff.mpr hy)).2
  simp [isEmpty, hwidth, hheight]

/-- A point of a rectangle with extent that an obstacle does not contain is in a strip with extent. -/
theorem exists_strip (hwidth : 0 < r.width) (hheight : 0 < r.height) {p : Point α}
    (hp : r.containsPoint p = true) (hfree : obstacle.containsPoint p = false) :
    ∃ strip ∈ r.stripsOutside obstacle, strip.isEmpty = false ∧ strip.containsPoint p = true := by
  obtain ⟨hleft, hright, htop, hbottom⟩ := containsPoint_iff.mp hp
  have hminX : r.minX < r.maxX := sub_pos_iff.mp hwidth
  have hminY : r.minY < r.maxY := sub_pos_iff.mp hheight
  have hkeeps (strip : Rect α) (hx : strip.minX < strip.maxX) (hy : strip.minY < strip.maxY)
      (hin : strip.containsPoint p = true) (hmem : strip.orEmpty ∈ r.stripsOutside obstacle) :
      ∃ strip ∈ r.stripsOutside obstacle,
        strip.isEmpty = false ∧ strip.containsPoint p = true := by
    have hextent := isEmpty_eq_false hx hy
    rw [orEmpty, if_neg (Bool.eq_false_iff.mp hextent)] at hmem
    exact ⟨strip, hmem, hextent, hin⟩
  rw [Bool.eq_false_iff, Ne, containsPoint_iff] at hfree
  simp only [not_and_or] at hfree
  -- the edge of the obstacle that leaves the point out leaves it in the strip on that side
  rcases hfree with h | h | h | h
  · apply hkeeps { r with maxX := Scalar.min r.maxX obstacle.minX }
    · exact Scalar.lt_min hminX fun hle => h (le_trans hle hleft)
    · exact hminY
    · exact containsPoint_iff.mpr ⟨hleft, Scalar.le_min hright h, htop, hbottom⟩
    · simp [stripsOutside]
  · apply hkeeps { r with minX := Scalar.max r.minX obstacle.maxX }
    · exact Scalar.max_lt hminX fun hle => h (le_trans hright hle)
    · exact hminY
    · exact containsPoint_iff.mpr ⟨Scalar.max_le hleft h, hright, htop, hbottom⟩
    · simp [stripsOutside]
  · apply hkeeps { r with maxY := Scalar.min r.maxY obstacle.minY }
    · exact hminX
    · exact Scalar.lt_min hminY fun hle => h (le_trans hle htop)
    · exact containsPoint_iff.mpr ⟨hleft, hright, htop, Scalar.le_min hbottom h⟩
    · simp [stripsOutside]
  · apply hkeeps { r with minY := Scalar.max r.minY obstacle.maxY }
    · exact hminX
    · exact Scalar.max_lt hminY fun hle => h (le_trans hbottom hle)
    · exact containsPoint_iff.mpr ⟨hleft, hright, Scalar.max_le htop h, hbottom⟩
    · simp [stripsOutside]

end Rect

end DiagramLayout
