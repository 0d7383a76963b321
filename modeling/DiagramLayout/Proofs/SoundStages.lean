import DiagramLayout.Proofs.Guards
import DiagramLayout.Proofs.Stages

/-!
# Boxes are sound at every stage

A classifier gets sound boxes with its first ones, and from then on every stage of a layout has
sound boxes only (`Stages.sound`): neither a symbol nor a space is reversed, and the space keeps the
border from the symbol, in all three shapes and however little room there is.
-/

namespace DiagramLayout

/-- At every stage of a layout all boxes are sound. -/
theorem Stages.sound {config : Config ℚ} (hconfig : config.Usable) {start : Drawing ℚ}
    (t : Stages (.ofConfig config) config start) : ∀ e ∈ t.toList, e.Sound config.border := by
  have hestimated : t.estimated.Sound config.border := by
    rw [t.estimated_eq]
    exact Drawing.sound_estimateBounds hconfig _
  have hspread : t.spread.Sound config.border := by
    rw [t.spread_eq]
    exact hestimated.moveApart
  have hgrown : t.grown.Sound config.border := by
    rw [t.grown_eq]
    exact hspread.embraceChildren hconfig
  have hhidden : t.hidden.Sound config.border := by
    rw [t.hidden_eq]
    exact hgrown.hideNested
  have hgathered : t.gathered.Sound config.border := by
    rw [t.gathered_eq]
    exact hhidden.gatherGroups hconfig
  have hsettled : t.settled.Sound config.border := by
    rw [t.settled_eq]
    exact hgathered.hideNested
  -- the steps that follow place features, routes and names and leave the classifiers alone
  have hfurnished : t.furnished.Sound config.border := by
    rw [t.furnished_eq]
    exact hsettled.congr (Drawing.refeatures_layoutFeatures _ config _).classifiers_eq
  have hrouted : t.routed.Sound config.border := by
    rw [t.routed_eq]
    exact hfurnished.congr (Drawing.kept_routeAll config _).1
  have hlabeled : t.labeled.Sound config.border := by
    rw [t.labeled_eq]
    exact hrouted.congr (Drawing.refeatures_layoutFeatureLabels _ config _).classifiers_eq
  have hnamed : t.named.Sound config.border := by
    rw [t.named_eq]
    exact hlabeled.congr (Drawing.relates_layoutRelationshipLabels _ config _).classifiers_eq
  simp only [toList, List.forall_mem_cons]
  exact ⟨hestimated, hspread, hgrown, hhidden, hgathered, hsettled, hfurnished, hrouted, hlabeled,
    hnamed, by simp⟩

/-- A set that passes the checks has a layout, and at each of its stages, from the first boxes to
the last name, every classifier has sound boxes. -/
theorem ElementSet.layout_staysSound {config : Config ℚ} {bounds : Rect ℚ} {s : ElementSet}
    {start : Drawing ℚ} (hprepare : s.prepare config bounds = .ok start) :
    ∃ t : Stages (.ofConfig config) config start,
      s.layout (.ofConfig config) config bounds = .ok ⟨t.named, true⟩ ∧
        ∀ e ∈ t.toList, ∀ c ∈ e.classifiers, c.boxes.Sound config.border := by
  refine ⟨start.stages _ config, ?_, fun e he c hc => ?_⟩
  · rw [layout_eq_ok hprepare, ← Stages.value_complete_eq, ← start.defined_complete]
  · obtain ⟨i, hi⟩ := List.mem_iff_getElem?.mp hc
    rw [← Drawing.boxes_of_getElem? hi]
    exact Stages.sound (prepare_eq_ok hprepare).1 _ e he i

/-- A shop that contains what can be done there, and a clerk who does it. -/
def shop : ElementSet where
  diagram := ⟨⟨1⟩, .useCase, "Shop"⟩
  limits := .standard
  classifiers :=
    [⟨⟨1⟩, .systemBoundary, "Shop", 0, 0, false⟩, ⟨⟨2⟩, .useCase, "Pay", 0, 0, false⟩,
      ⟨⟨3⟩, .actor, "Clerk", 0, 0, false⟩]
  features := [⟨⟨1⟩, ⟨2⟩, .property, "amount", "", 0⟩]
  relationships :=
    [⟨⟨101⟩, .containment, "", ⟨1⟩, ⟨2⟩, none, none, 0⟩,
      ⟨⟨102⟩, .association, "takes", ⟨3⟩, ⟨2⟩, none, none, 0⟩]

/-- A sheet on which there is hardly room for one of the three. -/
def stampBounds : Rect ℚ := .ofCorner 0 0 60 40

/-- The drawing of the shop before anything is computed. -/
def shopStart : Drawing ℚ where
  diagram := shop.diagram
  sheet := .ofBounds stampBounds .standard .xy
  nesting := .ofElements shop 4
  classifiers := shop.classifiers.map (⟨·, .unplaced⟩)
  features := shop.features.map (⟨·, 1, .empty, .empty, .center⟩)
  relationships :=
    [⟨⟨⟨101⟩, .containment, "", ⟨1⟩, ⟨2⟩, none, none, 0⟩, 0, 1, none, none, .collapsed, .shown,
        .empty⟩,
      ⟨⟨⟨102⟩, .association, "takes", ⟨3⟩, ⟨2⟩, none, none, 0⟩, 2, 1, none, none, .collapsed,
        .shown, .empty⟩]

/-- A container, what it contains and an actor have sound boxes at every stage, also where there is
no room for them. -/
theorem layout_staysSound_shop :
    shop.prepare .standard stampBounds = .ok shopStart ∧
      ∃ t : Stages (.ofConfig .standard) .standard shopStart,
        shop.layout (.ofConfig .standard) .standard stampBounds = .ok ⟨t.named, true⟩ ∧
          ∀ e ∈ t.toList, ∀ c ∈ e.classifiers, c.boxes.Sound (Config.standard : Config ℚ).border :=
  have hprepare : shop.prepare .standard stampBounds = .ok shopStart := by decide +kernel
  ⟨hprepare, ElementSet.layout_staysSound hprepare⟩

end DiagramLayout
