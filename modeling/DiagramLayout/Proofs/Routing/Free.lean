import DiagramLayout.Proofs.Frame
import DiagramLayout.Proofs.Ranking
import DiagramLayout.Proofs.Routing.Candidates
import DiagramLayout.Proofs.Routing.Covering

/-!
# Free routes keep out of the symbols that they join

The classifiers at the ends of a relationship are not counted as obstacles, and some of the
connectors that are tried run through them. None of these is ever taken: each has a shortcut among
the connectors that are tried, and whatever obstacles and earlier routes there are, a shortcut costs
less (`Drawing.routeCost_lt`). So every drawn relationship between two symbols that are apart gets a
route from boundary to boundary that avoids both (`Drawing.routeFreely_joins`).
-/

namespace DiagramLayout

/-- The connector joins two symbols from boundary to boundary, along the axes and without running
through either of them. -/
structure Connector.Joins (c : Connector ℚ) (a b : Rect ℚ) : Prop where
  source : a.OnBoundary c.source
  target : b.OnBoundary c.target
  parallel : ∀ s ∈ c.segments, s.IsAxisParallel
  avoids : ∀ s ∈ c.segments, s.Avoids a ∧ s.Avoids b

/-! ## Debts of shortcuts -/

namespace Connector

variable {c' c : Connector ℚ} {w : ℚ}

/-- A straight line within a segment covers no more of a rectangle. -/
lemma StraightWithin.coverage_le (h : c'.StraightWithin c) (hw : 0 ≤ w) (r : Rect ℚ) :
    c'.coverage r w ≤ c.coverage r w :=
  (Debt.Measures.overlapArea r).sum_thick_le h hw

/-- A straight line within a segment has no more area outside a rectangle. -/
lemma StraightWithin.areaOutside_le (h : c'.StraightWithin c) (hw : 0 ≤ w) (outer : Rect ℚ) :
    c'.areaOutside outer w ≤ c.areaOutside outer w :=
  (Debt.Measures.areaOutside outer).sum_thick_le h hw

/-- A straight line within a segment covers no more of another connector. -/
lemma StraightWithin.crossing_le (h : c'.StraightWithin c) (hw : 0 ≤ w) (other : Connector ℚ) :
    c'.crossing other w ≤ c.crossing other w := by
  rw [crossing_eq_sum_coverage, crossing_eq_sum_coverage]
  exact (Debt.Measures.coverage other w).sum_thick_le h hw

end Connector

namespace Drawing

variable {config : Config ℚ}

/-- A straight line within a segment owes no more than the connector it was taken from. -/
lemma routeDebt_le (hwidth : 0 < config.lineWidth) (d : Drawing ℚ) (r : RoutedRelationship ℚ)
    (routed : List ℕ) {c' c : Connector ℚ} (h : c'.StraightWithin c) :
    d.routeDebt config r routed c' ≤ d.routeDebt config r routed c := by
  have hw := hwidth.le
  unfold routeDebt
  simp only [Scalar.sum_exact]
  refine add_le_add (add_le_add (add_le_add ?_ ?_) ?_) ?_
  · refine mul_le_mul_of_nonneg_left (h.areaOutside_le hw _) ?_
    simp [Debt.outsideWeight]
  · exact List.sum_le_sum fun placed _ => h.coverage_le hw _
  · exact List.sum_le_sum fun f _ => h.coverage_le hw _
  · refine List.sum_le_sum fun other _ => ?_
    unfold Debt.ofConnectors
    split_ifs
    · exact h.crossing_le hw _
    · exact le_rfl

/-- A shortcut costs less, whatever there is on the sheet. -/
theorem routeCost_lt (hwidth : 0 < config.lineWidth) (d : Drawing ℚ) (r : RoutedRelationship ℚ)
    (routed : List ℕ) {c' c : Connector ℚ} (h : c'.Shortcut c) :
    d.routeCost config r routed c' < d.routeCost config r routed c :=
  add_lt_add_of_lt_of_le h.shorter (d.routeDebt_le hwidth r routed h.straight)

/-! ## One route -/

/-- A relationship that joins two classifiers and no features of them. -/
structure JoinsClassifiers (r : RoutedRelationship ℚ) : Prop where
  ends : r.source ≠ r.target
  sourceFeature : r.sourceFeature = none
  targetFeature : r.targetFeature = none

/-- The connectors that are tried for a relationship of two classifiers. -/
lemma routeCandidates_eq (d : Drawing ℚ) {r : RoutedRelationship ℚ} (h : JoinsClassifiers r) :
    d.routeCandidates config r =
      connectorsBetween (atSymbol (d.boxes r.source).symbol)
        (atSymbol (d.boxes r.target).symbol) := by
  have hloop : r.isLoop = false := by simp [RoutedRelationship.isLoop, h.ends]
  unfold routeCandidates routeEnds routeEnd
  simp only [h.sourceFeature, h.targetFeature, hloop, Bool.false_eq_true, if_false]
  rfl

/-- The route of a relationship joins the symbols of its ends, if these are apart. -/
theorem chosenRoute_joins (hwidth : 0 < config.lineWidth) (d : Drawing ℚ)
    {r : RoutedRelationship ℚ} (hr : JoinsClassifiers r) (routed : List ℕ)
    (hsource : (d.boxes r.source).symbol.Solid) (htarget : (d.boxes r.target).symbol.Solid)
    (hapart : (d.boxes r.source).symbol.Apart (d.boxes r.target).symbol) :
    (d.chosenRoute config r routed).Joins (d.boxes r.source).symbol (d.boxes r.target).symbol := by
  have hsome : d.routeCandidates config r ≠ [] := by
    rw [routeCandidates_eq d hr]
    simp [connectorsBetween]
  obtain ⟨c, hmem, hchosen, hleast⟩ :=
    Scalar.exists_cheapestBy (d.routeCost config r routed) hsome
  have hroute : d.chosenRoute config r routed = c := by rw [chosenRoute, hchosen, Option.getD_some]
  rw [hroute]
  rw [routeCandidates_eq d hr] at hmem hleast
  obtain ⟨hstart, hstop, hparallel⟩ := attached_of_mem hsource htarget hmem
  rcases passes_or_shortcut hsource htarget hapart hmem with ⟨hpast, hpast'⟩ | ⟨c', hc', hshort⟩
  · exact ⟨hstart, hstop, hparallel, fun s hs => ⟨(hpast s hs).avoids, (hpast' s hs).avoids⟩⟩
  · exact absurd (hleast c' hc') (not_le.mpr (d.routeCost_lt hwidth r routed hshort))

/-! ## The run -/

/-- The relationship at a position has a route that joins two symbols. -/
def RoutedBetween (g : Drawing ℚ) (i : ℕ) (r : RoutedRelationship ℚ) (a b : Rect ℚ) : Prop :=
  ∃ r', g.relationships[i]? = some r' ∧ r'.unrouted = r.unrouted ∧ r'.route.Joins a b

section Run

variable {d : Drawing ℚ} {i : ℕ} {r : RoutedRelationship ℚ}

/-- The turn of a relationship gives it a route that joins its symbols. -/
lemma routedBetween_step (hwidth : 0 < config.lineWidth) (hr : d.relationships[i]? = some r)
    (hjoins : JoinsClassifiers r) (hsource : (d.boxes r.source).symbol.Solid)
    (htarget : (d.boxes r.target).symbol.Solid)
    (hapart : (d.boxes r.source).symbol.Apart (d.boxes r.target).symbol) {s : FreeRouting ℚ}
    (hs : Relates RoutedRelationship.unrouted d s.drawing) :
    RoutedBetween (s.step config i).drawing i r (d.boxes r.source).symbol
      (d.boxes r.target).symbol := by
  obtain ⟨r₁, hr₁, hsame⟩ := getElem?_of_map_eq hs.map_relationships hr
  have hboxes : s.drawing.boxes = d.boxes := by
    funext j
    rw [boxes, boxes, hs.classifiers_eq]
  have hsourceEq : r₁.source = r.source := congrArg (·.source) hsame
  have htargetEq : r₁.target = r.target := congrArg (·.target) hsame
  have hjoins₁ : JoinsClassifiers r₁ :=
    ⟨by rw [hsourceEq, htargetEq]; exact hjoins.ends,
      (congrArg (·.sourceFeature) hsame).trans hjoins.sourceFeature,
      (congrArg (·.targetFeature) hsame).trans hjoins.targetFeature⟩
  have hroute := chosenRoute_joins hwidth s.drawing hjoins₁ s.routed
    (by rw [hboxes, hsourceEq]; exact hsource) (by rw [hboxes, htargetEq]; exact htarget)
    (by rw [hboxes, hsourceEq, htargetEq]; exact hapart)
  rw [hboxes, hsourceEq, htargetEq] at hroute
  refine ⟨{ r₁ with route := s.drawing.chosenRoute config r₁ s.routed }, ?_, hsame, hroute⟩
  rw [FreeRouting.step, hr₁]
  simp [modifyRelationship, hr₁]

/-- The turn of another relationship leaves a route as it is. -/
lemma RoutedBetween.step {a b : Rect ℚ} {s : FreeRouting ℚ} {j : ℕ} (hij : j ≠ i)
    (h : RoutedBetween s.drawing i r a b) :
    RoutedBetween (s.step config j).drawing i r a b := by
  unfold FreeRouting.step
  split
  · exact h
  · obtain ⟨r', hr', hrest⟩ := h
    refine ⟨r', ?_, hrest⟩
    simp only [modifyRelationship, List.getElem?_modify, if_neg hij, hr', Option.map_eq_map,
      Option.map_some]

/-- With room for all relationships, every drawn one has its turn. -/
lemma mem_routeRanking (hlimit : d.relationships.length ≤ config.limits.relationships)
    (hr : d.relationships[i]? = some r) (hdrawn : r.isDrawn = true) :
    i ∈ (d.routeRanking config).order := by
  unfold routeRanking
  refine (Ranking.perm_order_ofWeights ?_).mem_iff.mpr ?_
  · refine (List.length_filterMap_le _ _).trans ?_
    rwa [List.length_zipIdx]
  · refine List.mem_map.mpr ⟨(i, d.endDistance r), List.mem_filterMap.mpr ⟨(r, i), ?_, ?_⟩, rfl⟩
    · exact List.mem_zipIdx_iff_getElem?.mpr hr
    · simp [hdrawn]

/-- On a free grid with room for all relationships, every drawn relationship that joins two
classifiers whose symbols are solid and have no common point inside gets a route from boundary to
boundary, along the axes and through neither symbol. -/
theorem routeFreely_joins (hkind : d.sheet.grid.kind = .xy) (hwidth : 0 < config.lineWidth)
    (hlimit : d.relationships.length ≤ config.limits.relationships)
    (hr : d.relationships[i]? = some r) (hdrawn : r.isDrawn = true) (hjoins : JoinsClassifiers r)
    (hsource : (d.boxes r.source).symbol.isEmpty = false)
    (htarget : (d.boxes r.target).symbol.isEmpty = false)
    (hinside : ∀ p, ¬ ((d.boxes r.source).symbol.HasInside p ∧
      (d.boxes r.target).symbol.HasInside p)) :
    ∃ r', (d.routeFreely config).relationships[i]? = some r' ∧ r'.unrouted = r.unrouted ∧
      r'.route.Joins ((d.routeFreely config).boxes r.source).symbol
        ((d.routeFreely config).boxes r.target).symbol := by
  have hboxes : (d.routeFreely config).boxes = d.boxes := by
    funext j
    rw [boxes, boxes, (relates_routeFreely config d).classifiers_eq]
  have hsolid := Rect.solid_iff.mpr hsource
  have hsolid' := Rect.solid_iff.mpr htarget
  rw [hboxes, routeFreely, if_pos hkind]
  exact foldl_turn (fun s : FreeRouting ℚ => Relates RoutedRelationship.unrouted d s.drawing)
    (fun s : FreeRouting ℚ => RoutedBetween s.drawing i r _ _)
    (fun s j hs => hs.trans (relates_freeRouting_step config s j))
    (fun s hs => routedBetween_step hwidth hr hjoins hsolid hsolid'
      (Rect.apart_of_no_common hsolid hsolid' hinside) hs)
    (fun s j hj _ hrouted => hrouted.step hj) _ (Relates.refl d)
    (Or.inl (mem_routeRanking hlimit hr hdrawn))

end Run

/-- The only relationship of `facing`. -/
def facingRelationship : RoutedRelationship ℚ where
  element := ⟨⟨7⟩, .dependency, "", ⟨1⟩, ⟨2⟩, none, none, 0⟩
  source := 0
  target := 1
  sourceFeature := none
  targetFeature := none
  route := .collapsed
  visibility := .shown
  label := .empty

/-- Two symbols side by side at different heights and a third one between them. -/
def facing : Drawing ℚ where
  diagram := ⟨⟨1⟩, .package, ""⟩
  sheet := .ofBounds (.ofCorner 0 0 400 200) .standard .xy
  nesting := .flat 3
  classifiers :=
    [⟨⟨⟨1⟩, .package, "", 0, 0, false⟩, ⟨⟨20, 20, 120, 100⟩, ⟨24, 24, 116, 96⟩, .empty, .empty⟩⟩,
      ⟨⟨⟨2⟩, .package, "", 1, 0, false⟩,
        ⟨⟨220, 60, 320, 140⟩, ⟨224, 64, 316, 136⟩, .empty, .empty⟩⟩,
      ⟨⟨⟨3⟩, .package, "", 2, 0, false⟩, ⟨⟨150, 70, 180, 90⟩, ⟨154, 74, 176, 86⟩, .empty, .empty⟩⟩]
  features := []
  relationships := [facingRelationship]

/-- The relationship between the two symbols gets a route that keeps out of both. -/
theorem routeFreely_joins_facing :
    facing.sheet.grid.kind = .xy ∧ 0 < (Config.standard : Config ℚ).lineWidth ∧
      facing.relationships.length ≤ (Config.standard : Config ℚ).limits.relationships ∧
      facing.relationships[0]? = some facingRelationship ∧ facingRelationship.isDrawn = true ∧
      JoinsClassifiers facingRelationship ∧
      (facing.boxes 0).symbol.isEmpty = false ∧ (facing.boxes 1).symbol.isEmpty = false ∧
      (∀ p, ¬ ((facing.boxes 0).symbol.HasInside p ∧ (facing.boxes 1).symbol.HasInside p)) ∧
      ∃ r', (facing.routeFreely .standard).relationships[0]? = some r' ∧
        r'.unrouted = facingRelationship.unrouted ∧
        r'.route.Joins ((facing.routeFreely .standard).boxes 0).symbol
          ((facing.routeFreely .standard).boxes 1).symbol := by
  have hwidth : 0 < (Config.standard : Config ℚ).lineWidth := by decide +kernel
  have hlimit : facing.relationships.length ≤
      (Config.standard : Config ℚ).limits.relationships := by decide
  have hjoins : JoinsClassifiers facingRelationship := ⟨by decide, rfl, rfl⟩
  have hsource : (facing.boxes 0).symbol.isEmpty = false := by decide +kernel
  have htarget : (facing.boxes 1).symbol.isEmpty = false := by decide +kernel
  have hbeside : ¬ (facing.boxes 1).symbol.minX < (facing.boxes 0).symbol.maxX := by decide +kernel
  have hinside (p : Point ℚ) :
      ¬ ((facing.boxes 0).symbol.HasInside p ∧ (facing.boxes 1).symbol.HasInside p) :=
    fun h => hbeside (h.2.left.trans h.1.right)
  exact ⟨rfl, hwidth, hlimit, rfl, by decide, hjoins, hsource, htarget, hinside,
    routeFreely_joins rfl hwidth hlimit rfl (by decide) hjoins hsource htarget hinside⟩

end Drawing

end DiagramLayout
