import DiagramLayout.Debt
import DiagramLayout.Proofs.Rect.Algebra

/-!
# Debts measure conflicts

What a box is scored against is a region of the plane in which the box should have no area: what
is outside the draw area, the inside of an envelope, what is inside an envelope and outside its
space. A debt *measures* the conflict with a region (`Debt.Measures`) if it is never negative, grows
with the box and is zero exactly for the boxes that have no area in the region.

The area of a box measures the whole plane and its area outside another one measures what is
outside. From these two all debts of boxes are made: a box may be cut to a rectangle, debts may be
weighted and added up, and a debt may be waived altogether. Each of these makes a measure from
measures, so `Debt.measures_conflicts` needs no geometry of its own.

## Main definitions

* `Rect.Reaches`: some area of a rectangle lies in a region.
* `Debt.Measures`: a debt measures how far boxes reach into a region.
-/

namespace DiagramLayout

namespace Rect

/-- Some area of the rectangle lies in the region: there is a solid part of it with nothing but
points of the region inside. -/
def Reaches (r : Rect ℚ) (region : Point ℚ → Prop) : Prop :=
  ∃ part : Rect ℚ, part.Solid ∧ r.contains part = true ∧ ∀ p, part.HasInside p → region p

/-- The points that are neither in the rectangle nor on its edges. -/
def HasOutside (r : Rect ℚ) (p : Point ℚ) : Prop := ¬ r.containsPoint p = true

variable {r : Rect ℚ} {region region' : Point ℚ → Prop}

/-- A rectangle that reaches into a region has a point of the region inside. -/
lemma Reaches.exists_hasInside (h : r.Reaches region) : ∃ p, r.HasInside p ∧ region p := by
  obtain ⟨part, hsolid, hin, hregion⟩ := h
  obtain ⟨p, hp⟩ := solid_iff_exists_hasInside.mp hsolid
  exact ⟨p, hp.of_contains hin, hregion p hp⟩

/-- A rectangle that reaches into a region reaches into every larger one. -/
lemma Reaches.mono (h : r.Reaches region) (hregion : ∀ p, region p → region' p) :
    r.Reaches region' := by
  obtain ⟨part, hsolid, hin, hpart⟩ := h
  exact ⟨part, hsolid, hin, fun p hp => hregion p (hpart p hp)⟩

/-- Beyond an edge of another rectangle, a solid rectangle that is not contained in it has a strip
of its own. -/
lemma Solid.reaches_outside (hr : r.Solid) {outer : Rect ℚ} (h : ¬ outer.contains r = true) :
    r.Reaches outer.HasOutside := by
  rw [contains_iff] at h
  simp only [not_and_or, not_le] at h
  have houtside {p : Point ℚ} (hp : p.x < outer.minX ∨ outer.maxX < p.x ∨ p.y < outer.minY ∨
      outer.maxY < p.y) : outer.HasOutside p := by
    intro hin
    obtain ⟨hleft, hright, htop, hbottom⟩ := containsPoint_iff.mp hin
    rcases hp with hp | hp | hp | hp <;> linarith
  rcases h with h | h | h | h
  · refine ⟨{ r with maxX := min r.maxX outer.minX }, ⟨lt_min hr.x h, hr.y⟩,
      contains_iff.mpr ⟨le_rfl, le_rfl, min_le_left _ _, le_rfl⟩, fun p hp => ?_⟩
    exact houtside (Or.inl (hp.right.trans_le (min_le_right _ _)))
  · refine ⟨{ r with maxY := min r.maxY outer.minY }, ⟨hr.x, lt_min hr.y h⟩,
      contains_iff.mpr ⟨le_rfl, le_rfl, le_rfl, min_le_left _ _⟩, fun p hp => ?_⟩
    exact houtside (Or.inr (Or.inr (Or.inl (hp.bottom.trans_le (min_le_right _ _)))))
  · refine ⟨{ r with minX := max r.minX outer.maxX }, ⟨max_lt hr.x h, hr.y⟩,
      contains_iff.mpr ⟨le_max_left _ _, le_rfl, le_rfl, le_rfl⟩, fun p hp => ?_⟩
    exact houtside (Or.inr (Or.inl ((le_max_right _ _).trans_lt hp.left)))
  · refine ⟨{ r with minY := max r.minY outer.maxY }, ⟨hr.x, max_lt hr.y h⟩,
      contains_iff.mpr ⟨le_rfl, le_max_left _ _, le_rfl, le_rfl⟩, fun p hp => ?_⟩
    exact houtside (Or.inr (Or.inr (Or.inr ((le_max_right _ _).trans_lt hp.top))))

/-- A rectangle has area outside another exactly if it is solid and not contained in it. -/
lemma areaOutside_pos_iff {outer : Rect ℚ} :
    0 < r.areaOutside outer ↔ r.Reaches outer.HasOutside := by
  constructor
  · intro hpos
    have hsolid : r.Solid := by
      refine area_pos_iff.mp (hpos.trans_le ?_)
      rw [areaOutside, Scalar.max_exact]
      exact max_le (sub_le_self _ (overlapArea_nonneg r outer)) (area_nonneg r)
    refine hsolid.reaches_outside fun hin => ?_
    rw [areaOutside_eq_zero hin] at hpos
    exact lt_irrefl 0 hpos
  · rintro ⟨part, hsolid, hin, hpart⟩
    refine lt_of_lt_of_le ?_ (areaOutside_le_of_contains hin outer)
    have hapart : part.overlapArea outer = 0 := by
      refine le_antisymm (not_lt.mp fun hshared => ?_) (overlapArea_nonneg part outer)
      obtain ⟨p, hp⟩ := solid_iff_exists_hasInside.mp (area_pos_iff.mp hshared)
      obtain ⟨hp, hp'⟩ := hasInside_overlap.mp hp
      exact hpart p hp (containsPoint_iff.mpr
        ⟨hp'.left.le, hp'.right.le, hp'.top.le, hp'.bottom.le⟩)
    rw [areaOutside, Scalar.max_exact, hapart, sub_zero]
    exact lt_max_of_lt_left (area_pos_iff.mpr hsolid)

end Rect

/-- The points that a route covers when it is drawn with the given width. -/
def Connector.Covers (c : Connector ℚ) (lineWidth : ℚ) (p : Point ℚ) : Prop :=
  ∃ s ∈ c.segments, (s.thick lineWidth).HasInside p

namespace Debt

/-! ## Measures -/

/-- A debt of boxes measures the conflict with a region of the plane. -/
structure Measures (debt : Rect ℚ → ℚ) (region : Point ℚ → Prop) : Prop where
  /-- No debt is negative. -/
  nonneg : ∀ probe, 0 ≤ debt probe
  /-- A larger box has no less debt. -/
  mono : ∀ {probe larger : Rect ℚ}, larger.contains probe = true → debt probe ≤ debt larger
  /-- Only a box without conflict has no debt. -/
  eq_zero_iff : ∀ probe, debt probe = 0 ↔ ¬ probe.Reaches region
  /-- No point of the region is alone: a box around it has area in the region. -/
  reaches : ∀ {probe : Rect ℚ} {p}, probe.HasInside p → region p → probe.Reaches region

namespace Measures

variable {debt debt' : Rect ℚ → ℚ} {region region' : Point ℚ → Prop}

/-- Area measures how far boxes reach into the plane. -/
lemma area : Measures Rect.area fun _ => True where
  nonneg := Rect.area_nonneg
  mono := Rect.area_le_of_contains
  eq_zero_iff probe := by
    rw [← (Rect.area_nonneg probe).not_lt_iff_eq', not_iff_not]
    constructor
    · intro hpos
      exact ⟨probe, Rect.area_pos_iff.mp hpos, Rect.contains_self probe, fun _ _ => trivial⟩
    · rintro ⟨part, hsolid, hin, -⟩
      exact (Rect.area_pos_iff.mpr hsolid).trans_le (Rect.area_le_of_contains hin)
  reaches hp _ :=
    ⟨_, Rect.solid_iff_exists_hasInside.mpr ⟨_, hp⟩, Rect.contains_self _, fun _ _ => trivial⟩

/-- The area outside a rectangle measures how far boxes reach out of it. -/
lemma areaOutside (outer : Rect ℚ) : Measures (·.areaOutside outer) outer.HasOutside where
  nonneg probe := Rect.areaOutside_nonneg probe outer
  mono h := Rect.areaOutside_le_of_contains h outer
  eq_zero_iff probe := by
    rw [← (Rect.areaOutside_nonneg probe outer).not_lt_iff_eq', Rect.areaOutside_pos_iff]
  reaches hp houtside := by
    refine (Rect.solid_iff_exists_hasInside.mpr ⟨_, hp⟩).reaches_outside fun hin => houtside ?_
    have hp' := hp.of_contains hin
    exact Rect.containsPoint_iff.mpr ⟨hp'.left.le, hp'.right.le, hp'.top.le, hp'.bottom.le⟩

/-- No debt at all measures nothing. -/
lemma none : Measures (fun _ => 0) fun _ => False where
  nonneg _ := le_rfl
  mono _ := le_rfl
  eq_zero_iff probe := by
    refine iff_of_true rfl fun h => ?_
    obtain ⟨p, -, hp⟩ := h.exists_hasInside
    exact hp
  reaches _ hp := hp.elim

/-- A debt that is not zero is of a box in conflict, and it is positive. -/
lemma pos_iff (h : Measures debt region) (probe : Rect ℚ) :
    0 < debt probe ↔ probe.Reaches region := by
  rw [← not_iff_not, (h.nonneg probe).not_lt_iff_eq', h.eq_zero_iff]

/-- The empty rectangle has no debt. -/
lemma empty (h : Measures debt region) : debt .empty = 0 := by
  rw [h.eq_zero_iff]
  intro hreaches
  obtain ⟨p, hp, -⟩ := hreaches.exists_hasInside
  exact Rect.not_hasInside_empty p hp

/-- A debt that is counted for what a rectangle leaves of a box measures the part of the region in
the rectangle. -/
lemma within (h : Measures debt region) (cut : Rect ℚ) :
    Measures (fun probe => debt (probe.overlap cut)) fun p => cut.HasInside p ∧ region p := by
  have hreaches {probe : Rect ℚ} {p} (hp : probe.HasInside p) (hcut : cut.HasInside p)
      (hregion : region p) : (probe.overlap cut).Reaches region :=
    h.reaches (Rect.hasInside_overlap.mpr ⟨hp, hcut⟩) hregion
  have hiff (probe : Rect ℚ) : (probe.overlap cut).Reaches region ↔
      probe.Reaches fun p => cut.HasInside p ∧ region p := by
    constructor
    · rintro ⟨part, hsolid, hin, hpart⟩
      have hshared : (probe.overlap cut).Solid := by
        obtain ⟨p, hp⟩ := Rect.solid_iff_exists_hasInside.mp hsolid
        exact Rect.solid_iff_exists_hasInside.mpr ⟨p, hp.of_contains hin⟩
      refine ⟨part, hsolid, Rect.contains_trans (Rect.contains_overlap hshared).1 hin, ?_⟩
      intro p hp
      exact ⟨(Rect.hasInside_overlap.mp (hp.of_contains hin)).2, hpart p hp⟩
    · intro hprobe
      obtain ⟨p, hp, hcut, hregion⟩ := hprobe.exists_hasInside
      exact hreaches hp hcut hregion
  refine ⟨fun probe => h.nonneg _, fun {probe larger} hin => ?_, fun probe => ?_, ?_⟩
  · by_cases hdebt : debt (probe.overlap cut) = 0
    · rw [hdebt]
      exact h.nonneg _
    · -- what is left of the smaller box is solid, so it lies in what is left of the larger one
      have hleft := (h.pos_iff _).mp ((h.nonneg _).lt_of_ne' hdebt)
      obtain ⟨p, hp, -⟩ := hleft.exists_hasInside
      have hsolid := Rect.solid_iff_exists_hasInside.mpr ⟨p, hp⟩
      obtain ⟨hprobe, hcut⟩ := Rect.contains_overlap hsolid
      exact h.mono (hsolid.contains_overlap (Rect.contains_trans hin hprobe) hcut)
  · rw [h.eq_zero_iff, hiff]
  · rintro probe p hp ⟨hcut, hregion⟩
    exact (hiff probe).mp (hreaches hp hcut hregion)

/-- A debt with a positive weight measures the same region. -/
lemma weighted (h : Measures debt region) {weight : ℚ} (hweight : 0 < weight) :
    Measures (fun probe => weight * debt probe) region where
  nonneg probe := mul_nonneg hweight.le (h.nonneg probe)
  mono hin := mul_le_mul_of_nonneg_left (h.mono hin) hweight.le
  eq_zero_iff probe := by rw [mul_eq_zero_iff_left hweight.ne', h.eq_zero_iff]
  reaches := h.reaches

/-- A debt that is counted under a condition measures the region under the same condition. -/
lemma onlyIf (h : Measures debt region) (condition : Prop) [Decidable condition] :
    Measures (fun probe => if condition then debt probe else 0)
      fun p => condition ∧ region p := by
  by_cases hcondition : condition
  · simpa [hcondition] using h
  · simpa [hcondition] using none

/-- Debts that are added up measure the union of their regions. -/
lemma add (h : Measures debt region) (h' : Measures debt' region') :
    Measures (fun probe => debt probe + debt' probe) fun p => region p ∨ region' p := by
  have hleft {probe : Rect ℚ} (hprobe : probe.Reaches region) :
      probe.Reaches fun p => region p ∨ region' p := hprobe.mono fun p => Or.inl
  have hright {probe : Rect ℚ} (hprobe : probe.Reaches region') :
      probe.Reaches fun p => region p ∨ region' p := hprobe.mono fun p => Or.inr
  refine ⟨fun probe => add_nonneg (h.nonneg probe) (h'.nonneg probe),
    fun hin => add_le_add (h.mono hin) (h'.mono hin), fun probe => ?_, ?_⟩
  · rw [add_eq_zero_iff_of_nonneg (h.nonneg probe) (h'.nonneg probe), h.eq_zero_iff,
      h'.eq_zero_iff, ← not_or, not_iff_not]
    constructor
    · rintro (hprobe | hprobe)
      · exact hleft hprobe
      · exact hright hprobe
    · intro hprobe
      obtain ⟨p, hp, hregion | hregion⟩ := hprobe.exists_hasInside
      · exact Or.inl (h.reaches hp hregion)
      · exact Or.inr (h'.reaches hp hregion)
  · rintro probe p hp (hregion | hregion)
    · exact hleft (h.reaches hp hregion)
    · exact hright (h'.reaches hp hregion)

/-- Debts that are added up over a list measure the union of their regions. -/
lemma sum {β : Type} {debt : β → Rect ℚ → ℚ} {region : β → Point ℚ → Prop}
    (h : ∀ b, Measures (debt b) (region b)) (xs : List β) :
    Measures (fun probe => Scalar.sum (xs.map fun b => debt b probe))
      fun p => ∃ b ∈ xs, region b p := by
  simp only [Scalar.sum_exact]
  induction xs with
  | nil =>
    simp only [List.map_nil, List.sum_nil, List.not_mem_nil, false_and, exists_false]
    exact none
  | cons x xs ih =>
    simp only [List.map_cons, List.sum_cons, List.exists_mem_cons_iff]
    exact (h x).add ih

/-- Shared area measures how far boxes reach into a rectangle. -/
lemma overlapArea (other : Rect ℚ) : Measures (·.overlapArea other) other.HasInside := by
  have hcut := area.within other
  simp only [and_true] at hcut
  exact hcut

/-- The area that a drawn route covers measures how far boxes reach into it. -/
lemma coverage (c : Connector ℚ) (lineWidth : ℚ) :
    Measures (fun probe => c.coverage probe lineWidth) (c.Covers lineWidth) := by
  have hsegment (s : Segment ℚ) : Measures (fun probe => (s.thick lineWidth).overlapArea probe)
      (s.thick lineWidth).HasInside := by
    simp only [Rect.overlapArea_comm (s.thick lineWidth)]
    exact overlapArea (s.thick lineWidth)
  exact sum hsegment c.segments

end Measures

/-! ## The debts of boxes -/

/-- What a box covers of an envelope, less what it covers of the space in it, is what is left
outside the space. -/
lemma ofLabelOnClassifier_eq (probe : Rect ℚ) (c : ClassifierBoxes ℚ) :
    ofLabelOnClassifier probe c = (probe.overlap c.envelope).areaOutside c.space := by
  unfold ofLabelOnClassifier Rect.areaOutside
  dsimp only
  rw [Rect.overlapArea, Rect.overlapArea, ← Rect.overlap_assoc]
  rfl

variable (sheet : Sheet ℚ) (nesting : Nesting) (placed : List ℕ) (index otherIndex : ℕ)
  (other : Rect ℚ) (c : ClassifierBoxes ℚ) (f : PlacedFeature ℚ) (r : RoutedRelationship ℚ)
  (lineWidth : ℚ)

/-- The debt of a box outside the draw area measures what is outside. -/
lemma measures_ofBox : Measures (ofBox sheet) sheet.drawArea.HasOutside := by
  have hweight : (0 : ℚ) < outsideWeight := by simp [outsideWeight]
  exact (Measures.areaOutside sheet.drawArea).weighted hweight

/-- While classifiers are placed, the debt of two envelopes measures the inside of the other one
unless the classifiers are nested. -/
lemma measures_ofClassifiersWhile :
    Measures (ofClassifiersWhile nesting placed index · otherIndex other)
      fun p => ¬ nesting.related index otherIndex = true ∧ other.HasInside p := by
  have hweight : (0 : ℚ) < if placed.contains otherIndex then placedWeight else unplacedWeight := by
    split_ifs <;> simp [placedWeight, unplacedWeight]
  have hweighted := ((Measures.overlapArea other).weighted hweight).onlyIf
    (¬ nesting.related index otherIndex = true)
  simp only [ite_not] at hweighted
  exact hweighted

/-- Whatever a box is scored against, its debt measures the conflict. That is the area of the box
outside the draw area; for a classifier the area in the envelope of another one that is not nested
with it; for a feature the area in the envelope of a classifier, in the symbol of another feature or
in a line that is drawn; for a label the area in an envelope and outside its space, in a symbol or
label of a feature, or in a line that is drawn or its label. -/
theorem measures_conflicts :
    Measures (ofBox sheet) sheet.drawArea.HasOutside ∧
    Measures (ofClassifiers · other) other.HasInside ∧
    Measures (ofClassifiersWhile nesting placed index · otherIndex other)
      (fun p => ¬ nesting.related index otherIndex = true ∧ other.HasInside p) ∧
    Measures (ofFeatureOnClassifier · c) c.envelope.HasInside ∧
    Measures (ofFeatures · f) f.symbol.HasInside ∧
    Measures (ofFeatureOnConnector · r lineWidth)
      (fun p => r.isDrawn = true ∧ r.route.Covers lineWidth p) ∧
    Measures (ofLabelOnClassifier · c)
      (fun p => c.envelope.HasInside p ∧ c.space.HasOutside p) ∧
    Measures (ofLabelOnFeature · f) (fun p => f.symbol.HasInside p ∨ f.label.HasInside p) ∧
    Measures (ofLabelOnConnector · r lineWidth)
      (fun p => r.isDrawn = true ∧ (r.route.Covers lineWidth p ∨ r.label.HasInside p)) := by
  have hline := Measures.coverage r.route lineWidth
  refine ⟨measures_ofBox sheet, Measures.overlapArea other,
    measures_ofClassifiersWhile nesting placed index otherIndex other,
    Measures.overlapArea c.envelope, Measures.overlapArea f.symbol, hline.onlyIf _, ?_,
    (Measures.overlapArea f.symbol).add (Measures.overlapArea f.label),
    (hline.add (Measures.overlapArea r.label)).onlyIf _⟩
  simp only [ofLabelOnClassifier_eq]
  exact (Measures.areaOutside c.space).within c.envelope

end Debt

end DiagramLayout
