import DiagramLayout.Proofs.Frame

/-!
# Records keep their elements

The steps of a layout compute boxes, routes and visibilities. Which element a record stands for, the
owner of a feature and the ends of a relationship are settled when the references are resolved, and
no step touches them (`Drawing.keepsRecords_complete`).

The statements hold over any coordinates.
-/

namespace DiagramLayout

variable {α : Type}

/-- What a relationship is and what it joins, all by position. -/
def RoutedRelationship.references (r : RoutedRelationship α) :
    Relationship × (ℕ × ℕ) × Option ℕ × Option ℕ :=
  (r.element, (r.source, r.target), r.sourceFeature, r.targetFeature)

namespace Drawing

/-- The second drawing has records of the same elements at the same positions, whatever has been
computed for them. -/
structure KeepsRecords (d d' : Drawing α) : Prop where
  diagram : d'.diagram = d.diagram
  nesting : d'.nesting = d.nesting
  classifiers : d'.classifiers.map (·.element) = d.classifiers.map (·.element)
  features : d'.features.map PlacedFeature.origin = d.features.map PlacedFeature.origin
  relationships : d'.relationships.map RoutedRelationship.references =
    d.relationships.map RoutedRelationship.references

namespace KeepsRecords

/-- Every drawing keeps its own records. -/
lemma refl (d : Drawing α) : d.KeepsRecords d := ⟨rfl, rfl, rfl, rfl, rfl⟩

/-- Records may be kept by one step after the other. -/
lemma trans {d d' d'' : Drawing α} (h : d.KeepsRecords d') (h' : d'.KeepsRecords d'') :
    d.KeepsRecords d'' where
  diagram := h'.diagram.trans h.diagram
  nesting := h'.nesting.trans h.nesting
  classifiers := h'.classifiers.trans h.classifiers
  features := h'.features.trans h.features
  relationships := h'.relationships.trans h.relationships

/-- No classifier is added or removed. -/
lemma length_classifiers {d d' : Drawing α} (h : d.KeepsRecords d') :
    d'.classifiers.length = d.classifiers.length := by
  simpa using congrArg List.length h.classifiers

/-- No feature is added or removed. -/
lemma length_features {d d' : Drawing α} (h : d.KeepsRecords d') :
    d'.features.length = d.features.length := by
  simpa using congrArg List.length h.features

/-- No relationship is added or removed. -/
lemma length_relationships {d d' : Drawing α} (h : d.KeepsRecords d') :
    d'.relationships.length = d.relationships.length := by
  simpa using congrArg List.length h.relationships

end KeepsRecords

/-- Other boxes leave the records as they are. -/
lemma Reboxes.keepsRecords {d d' : Drawing α} (h : d.Reboxes d') : d.KeepsRecords d' where
  diagram := h.diagram_eq
  nesting := h.nesting_eq
  classifiers := by
    obtain ⟨cs, rfl, hcs⟩ := h
    exact hcs
  features := by rw [h.features_eq]
  relationships := by rw [h.relationships_eq]

/-- Other features for the same elements leave the records as they are. -/
lemma Refeatures.keepsRecords {d d' : Drawing α} (h : Refeatures PlacedFeature.origin d d') :
    d.KeepsRecords d' := by
  obtain ⟨fs, rfl, hfs⟩ := h
  exact ⟨rfl, rfl, rfl, hfs, rfl⟩

/-- Relationships whose references are kept leave the records as they are. -/
lemma Relates.keepsRecords {d d' : Drawing α} (h : Relates RoutedRelationship.references d d') :
    d.KeepsRecords d' := by
  obtain ⟨rs, rfl, hrs⟩ := h
  exact ⟨rfl, rfl, rfl, rfl, hrs⟩

/-! ## Step by step -/

/-- Showing all relationships at first leaves the records as they are. -/
lemma keepsRecords_initVisibility (d : Drawing α) : d.KeepsRecords d.initVisibility :=
  ((relates_initVisibility d).weaken (by intros; rfl)).keepsRecords

/-- Showing the messages leaves the records as they are. -/
lemma keepsRecords_showMessages (d : Drawing α) : d.KeepsRecords d.showMessages :=
  ⟨rfl, rfl, rfl, rfl, by simp [showMessages, RoutedRelationship.references, Function.comp_def]⟩

variable [Scalar α]

/-- Other places for the names leave the records as they are. -/
lemma Renames.keepsRecords {d d' : Drawing α} (h : d.Renames d') : d.KeepsRecords d' := by
  have hrelationships : d'.relationships.map RoutedRelationship.references =
      d.relationships.map RoutedRelationship.references := h.map_relationships (by intros; rfl)
  obtain ⟨fs, rs, rfl, hfs, -⟩ := h
  have horigin := congrArg (List.map PlacedFeature.origin) hfs
  rw [List.map_map, List.map_map] at horigin
  exact ⟨rfl, rfl, rfl, horigin, hrelationships⟩

/-- The first boxes leave the records as they are. -/
lemma keepsRecords_estimateBounds (m : Composer α) (config : Config α) (d : Drawing α) :
    d.KeepsRecords (d.estimateBounds m config) := by
  refine ⟨rfl, rfl, List.ext_getElem? fun i => ?_, rfl, rfl⟩
  simp [estimateBounds, registerKeys, modifyGrid, Function.comp_def]

/-- Leaving out lines leaves the records as they are. -/
lemma keepsRecords_hideNested (d : Drawing α) : d.KeepsRecords d.hideNested :=
  ((relates_hideNested d).weaken (by intros; rfl)).keepsRecords

/-- Placing the classifiers leaves the records as they are. -/
lemma keepsRecords_layoutClassifiers (m : Composer α) (config : Config α) (d : Drawing α) :
    d.KeepsRecords (d.layoutClassifiers m config).value := by
  unfold layoutClassifiers
  simp only [Guarded.value_bind, Guarded.value_pure]
  have hspread := (keepsRecords_estimateBounds m config d).trans
    (reboxes_moveApart config _).keepsRecords
  have hgrown := (hspread.trans (reboxes_embraceChildren m config _).keepsRecords).trans
    (keepsRecords_hideNested _)
  exact (hgrown.trans (reboxes_gatherGroups m config _).keepsRecords).trans
    (keepsRecords_hideNested _)

/-- A message keeps its references when it gets its route. -/
lemma references_routeMessage (config : Config α) (d : Drawing α) (axis : Axis)
    (r : RoutedRelationship α) :
    (d.routeMessage config axis r).value.references = r.references := by
  unfold routeMessage
  split <;> rfl

/-- Routing in a scenario leaves the records as they are. -/
lemma keepsRecords_routeInTime (config : Config α) (d : Drawing α) :
    d.KeepsRecords (d.routeInTime config).value := by
  unfold routeInTime
  split
  · exact KeepsRecords.refl d
  · rename_i axis _
    refine (keepsRecords_showMessages d).trans ⟨rfl, rfl, rfl, rfl, ?_⟩
    simp only [Guarded.value_bind, Guarded.value_pure, Guarded.value_mapM, List.map_map]
    exact List.map_congr_left fun r _ => references_routeMessage config _ axis r

/-- Routing leaves the records as they are. -/
lemma keepsRecords_routeAll (config : Config α) (d : Drawing α) :
    d.KeepsRecords (d.routeAll config).value := by
  unfold routeAll
  split_ifs
  · exact keepsRecords_routeInTime config d
  · exact ((relates_routeFreely config d).weaken (by intros; rfl)).keepsRecords

/-- Everything that a layout computes leaves the records as they are. -/
theorem keepsRecords_complete (m : Composer α) (config : Config α) (d : Drawing α) :
    d.KeepsRecords (d.complete m config).value := by
  unfold complete
  simp only [Guarded.value_bind, Guarded.value_pure]
  have hplaced := (keepsRecords_initVisibility d).trans (keepsRecords_layoutClassifiers m config _)
  have hfurnished := hplaced.trans (refeatures_layoutFeatures m config _).keepsRecords
  exact (hfurnished.trans (keepsRecords_routeAll config _)).trans
    (renames_layoutLabels m config _).keepsRecords

end Drawing

end DiagramLayout
