import DiagramLayout.Proofs.Conflicts
import DiagramLayout.Proofs.Routing.Segments

/-!
# What drawn lines cover

The area that a drawn connector covers of a rectangle measures how far the rectangle reaches into it
(`Debt.Measures.coverage`), and the area in which two connectors cover each other is what one of
them covers of the drawn segments of the other (`Connector.crossing_eq_sum_coverage`). So both areas
are made of numbers that measure, and a measure grows with the segment that is measured and with the
width at which it is drawn (`Debt.Measures.thick_le`).
-/

namespace DiagramLayout

namespace Debt.Measures

variable {debt : Rect ℚ → ℚ} {region : Point ℚ → Prop} {w w' : ℚ}

/-- What a drawn segment owes is no more than what a segment that holds it owes when it is drawn at
least as wide. -/
lemma thick_le (hdebt : Measures debt region) {t s : Segment ℚ} (h : t.Holds s) (hw : 0 ≤ w)
    (hle : w ≤ w') : debt (s.thick w) ≤ debt (t.thick w') := by
  rcases h.thick hw hle with hnone | hwithin
  · rw [hnone, hdebt.empty]
    exact hdebt.nonneg _
  · exact hdebt.mono hwithin

/-- A straight line within a segment of a connector owes no more than the segments of it. -/
lemma sum_thick_le (hdebt : Measures debt region) {c' c : Connector ℚ} (h : c'.StraightWithin c)
    (hw : 0 ≤ w) :
    Scalar.sum (c'.segments.map fun s => debt (s.thick w)) ≤
      Scalar.sum (c.segments.map fun s => debt (s.thick w)) := by
  obtain ⟨hstart, hstop, t, ht, hholds⟩ := h
  have hfirst : debt (Segment.thick ⟨c'.source, c'.mainStart⟩ w) = 0 := by
    rw [Segment.thick_of_eq hstart, hdebt.empty]
  have hlast : debt (Segment.thick ⟨c'.mainEnd, c'.target⟩ w) = 0 := by
    rw [Segment.thick_of_eq hstop, hdebt.empty]
  have hterms : ∀ x ∈ c.segments.map fun s => debt (s.thick w), 0 ≤ x :=
    List.forall_mem_map.mpr fun s _ => hdebt.nonneg _
  calc Scalar.sum (c'.segments.map fun s => debt (s.thick w))
      = debt (Segment.thick ⟨c'.mainStart, c'.mainEnd⟩ w) := by
        simp [Connector.segments, hfirst, hlast]
    _ ≤ debt (t.thick w) := hdebt.thick_le hholds hw le_rfl
    _ ≤ Scalar.sum (c.segments.map fun s => debt (s.thick w)) := by
        rw [Scalar.sum_exact]
        exact List.single_le_sum hterms _ (List.mem_map_of_mem ht)

end Debt.Measures

namespace Connector

variable (c other : Connector ℚ)

/-- Two connectors cover of each other what one covers of the drawn segments of the other. -/
lemma crossing_eq_sum_coverage (w : ℚ) :
    c.crossing other w = Scalar.sum (c.segments.map fun s => other.coverage (s.thick w) w) := by
  simp only [crossing, coverage, List.map_map, Function.comp_def, Rect.overlapArea_comm]

/-- Connectors cover each other mutually. -/
lemma crossing_comm (w : ℚ) : c.crossing other w = other.crossing c w := by
  have hswap := Multiset.sum_map_sum_map (c.segments : Multiset (Segment ℚ))
    (other.segments : Multiset (Segment ℚ)) (f := fun s t => (s.thick w).overlapArea (t.thick w))
  simp only [Multiset.map_coe, Multiset.sum_coe] at hswap
  rw [crossing_eq_sum_coverage other c]
  simpa only [crossing, coverage, List.map_map, Function.comp_def, Scalar.sum_exact] using hswap

/-- The area in which two connectors cover each other is not negative. -/
lemma crossing_nonneg (w : ℚ) : 0 ≤ c.crossing other w := by
  rw [crossing_eq_sum_coverage, Scalar.sum_exact]
  have hcovers := Debt.Measures.coverage other w
  exact List.sum_nonneg (List.forall_mem_map.mpr fun s _ => hcovers.nonneg _)

variable {w w' : ℚ} (hw : 0 ≤ w) (hle : w ≤ w')
include hw hle

/-- A connector covers no less of a rectangle when it is drawn wider. -/
lemma coverage_le_of_wider (r : Rect ℚ) : c.coverage r w ≤ c.coverage r w' := by
  rw [coverage, coverage, Scalar.sum_exact, Scalar.sum_exact]
  refine List.sum_le_sum fun s _ => ?_
  exact (Debt.Measures.overlapArea r).thick_le s.holds_self hw hle

/-- Connectors cover no less of each other when they are drawn wider. -/
lemma crossing_le_of_wider : c.crossing other w ≤ c.crossing other w' := by
  rw [crossing_eq_sum_coverage, crossing_eq_sum_coverage, Scalar.sum_exact, Scalar.sum_exact]
  refine List.sum_le_sum fun s _ => ?_
  calc other.coverage (s.thick w) w
      ≤ other.coverage (s.thick w') w :=
        (Debt.Measures.coverage other w).thick_le s.holds_self hw hle
    _ ≤ other.coverage (s.thick w') w' := other.coverage_le_of_wider hw hle _

end Connector

end DiagramLayout
