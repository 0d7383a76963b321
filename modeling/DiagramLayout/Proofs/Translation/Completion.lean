import DiagramLayout.Proofs.Nesting
import DiagramLayout.Proofs.Refusal
import DiagramLayout.Proofs.Translation.Routing

/-!
# The layout does not depend on where the sheet is

Names float beside what has moved, and every debt of a place is an area, so a name is put at the
same of its places. This was the last step: on a translated sheet the whole layout is translated
(`Drawing.Blank.translatedBy_complete`). The checks in front do not look at the bounds at all, so a
set is refused on a translated sheet for the reason for which it is refused on the sheet
(`ElementSet.layout_translate`).
-/

namespace DiagramLayout

/-! ## Debts of names -/

namespace Debt

variable (place : Rect ℚ) (v : Point ℚ)

/-- A moved name covers as much of a classifier that is moved. -/
lemma ofLabelOnClassifier_translate (b : ClassifierBoxes ℚ) :
    ofLabelOnClassifier (place.translate v) (b.translate v) = ofLabelOnClassifier place b := by
  have hspace : (b.translate v).space = b.space.translate v := rfl
  unfold ofLabelOnClassifier
  rw [ClassifierBoxes.envelope_translate, hspace, Rect.overlap_translate,
    Rect.overlapArea_translate, Rect.overlapArea_translateArea_right]

/-- A moved name covers as much of a feature that is moved. -/
lemma ofLabelOnFeature_translate (f : PlacedFeature ℚ) :
    ofLabelOnFeature (place.translate v) (f.translate v) = ofLabelOnFeature place f := by
  unfold ofLabelOnFeature PlacedFeature.translate
  rw [Rect.overlapArea_translate, Rect.overlapArea_translateArea_right]

/-- A moved name covers as much of a relationship that is moved. -/
lemma ofLabelOnConnector_translate {lineWidth : ℚ} (hwidth : 0 < lineWidth)
    (r : RoutedRelationship ℚ) :
    ofLabelOnConnector (place.translate v) (r.translate v) lineWidth =
      ofLabelOnConnector place r lineWidth := by
  have hdrawn : (r.translate v).isDrawn = r.isDrawn := rfl
  unfold ofLabelOnConnector
  rw [hdrawn]
  split_ifs with h
  · rw [RoutedRelationship.translate, if_pos h, Connector.coverage_translate _ v hwidth,
      Rect.overlapArea_translateArea_right]
  · rfl

end Debt

/-! ## Places for names -/

/-- The places around an anchor move with it. -/
lemma placesAround_translate (anchor : Rect ℚ) (size : Size ℚ) (gap : ℚ) (v : Point ℚ) :
    placesAround (anchor.translate v) size gap =
      (placesAround anchor size gap).map (·.translate v) := by
  have hpoint (x y : ℚ) : (⟨x + v.x, y + v.y⟩ : Point ℚ) = ⟨x, y⟩ + v := rfl
  simp only [placesAround, Rect.center_translate, Rect.translate_minX, Rect.translate_minY,
    Rect.translate_maxX, Rect.translate_maxY, Point.add_x, Point.add_y, add_sub_right_comm,
    add_right_comm _ v.x, add_right_comm _ v.y, hpoint, List.map_cons, List.map_nil,
    Rect.centered_add]

/-- Places for a name of some extent have an area. -/
lemma solid_of_mem_placesAround {anchor : Rect ℚ} {size : Size ℚ} {gap : ℚ}
    (hwidth : 0 < size.width) (hheight : 0 < size.height) {place : Rect ℚ}
    (hplace : place ∈ placesAround anchor size gap) : place.isEmpty = false := by
  obtain ⟨center, -, rfl⟩ := List.mem_map.mp hplace
  rw [Rect.isEmpty_eq_false_iff, Rect.width_centered, Rect.height_centered]
  exact ⟨hwidth, hheight⟩

/-- A text that is not left out has an extent. -/
lemma Composer.Usable.textSize_pos {m : Composer ℚ} (hm : m.Usable) {text : String}
    (h : (m.textSize text).isZero = false) :
    0 < (m.textSize text).width ∧ 0 < (m.textSize text).height := by
  unfold textSize at h ⊢
  split_ifs with hempty
  · rw [if_pos hempty] at h
    cases h
  · have hlength : 0 < text.length := by
      rw [String.isEmpty_iff] at hempty
      exact Nat.pos_of_ne_zero (mt String.length_eq_zero_iff.mp hempty)
    exact ⟨mul_pos (Nat.cast_pos.mpr hlength) hm.charWidth, hm.lineHeight⟩

namespace Drawing

namespace TranslatedBy

variable {v : Point ℚ} {d d' : Drawing ℚ} {config : Config ℚ}

/-- A moved name owes as much. -/
lemma labelDebt (h : d.TranslatedBy v d') {lineWidth : ℚ} (hwidth : 0 < lineWidth)
    (place : Rect ℚ) :
    d'.labelDebt lineWidth (place.translate v) = d.labelDebt lineWidth place := by
  unfold Drawing.labelDebt Debt.ofBox
  rw [h.drawArea, Rect.areaOutside_translate, h.map_classifiers (by intro c; rfl), h.features,
    h.relationships, List.map_map, List.map_map]
  simp only [PlacedClassifier.translate, Debt.ofLabelOnClassifier_translate, Function.comp_def,
    Debt.ofLabelOnFeature_translate, Debt.ofLabelOnConnector_translate _ v hwidth]

/-- The same of the moved places is selected. -/
lemma selectPlace (h : d.TranslatedBy v d') {lineWidth : ℚ} (hwidth : 0 < lineWidth)
    (places : List (Rect ℚ)) :
    d'.selectPlace lineWidth (places.map (·.translate v)) = d.selectPlace lineWidth places := by
  have hcost (p : Rect ℚ × ℕ) :
      d'.placeCost lineWidth (Prod.map (·.translate v) id p) = d.placeCost lineWidth p := by
    rw [placeCost, Prod.map_fst, h.labelDebt hwidth, placeCost, Prod.map_snd, id_eq]
  unfold Drawing.selectPlace
  rw [List.zipIdx_map, Scalar.cheapestBy_map hcost]
  cases Scalar.cheapestBy (d.placeCost lineWidth) places.zipIdx <;> rfl

/-- A name of some extent is put at the moved place. -/
lemma labelBeside (h : d.TranslatedBy v d') (hwidth : 0 < config.lineWidth) (anchor : Rect ℚ)
    {size : Size ℚ} (hsize : 0 < size.width ∧ 0 < size.height) :
    d'.labelBeside config (anchor.translate v) size =
      (d.labelBeside config anchor size).translateArea v := by
  have hplaces : (placesAround anchor size config.border).map (·.translate v) =
      (placesAround anchor size config.border).map (·.translateArea v) := by
    refine List.map_congr_left fun place hplace => ?_
    rw [Rect.translateArea_of_not_isEmpty (solid_of_mem_placesAround hsize.1 hsize.2 hplace)]
  unfold Drawing.labelBeside
  dsimp only
  rw [placesAround_translate, h.selectPlace hwidth, hplaces, ← Rect.translateArea_empty v,
    List.getD_map, Rect.translateArea_empty]

/-! ## Naming -/

/-- A feature may be changed in both drawings. -/
lemma modifyFeature (h : d.TranslatedBy v d') {change change' : PlacedFeature ℚ → PlacedFeature ℚ}
    (hchange : ∀ f, (change f).translate v = change' (f.translate v)) (i : ℕ) :
    (d.modifyFeature i change).TranslatedBy v (d'.modifyFeature i change') where
  diagram := h.diagram
  sheet := h.sheet
  nesting := h.nesting
  classifiers := h.classifiers
  features := by
    rw [Drawing.modifyFeature, h.features, Drawing.modifyFeature, map_modify_of_commutes hchange]
  relationships := h.relationships

/-- A relationship may be changed in both drawings. -/
lemma modifyRelationship (h : d.TranslatedBy v d')
    {change change' : RoutedRelationship ℚ → RoutedRelationship ℚ}
    (hchange : ∀ r, (change r).translate v = change' (r.translate v)) (i : ℕ) :
    (d.modifyRelationship i change).TranslatedBy v (d'.modifyRelationship i change') where
  diagram := h.diagram
  sheet := h.sheet
  nesting := h.nesting
  classifiers := h.classifiers
  features := h.features
  relationships := by
    rw [Drawing.modifyRelationship, h.relationships, Drawing.modifyRelationship,
      map_modify_of_commutes hchange]

/-- The name of a feature moves with everything else. -/
lemma placeFeatureLabel (hconfig : config.Usable) (h : d.TranslatedBy v d') (i : ℕ) :
    (d.placeFeatureLabel (.ofConfig config) config i).TranslatedBy v
      (d'.placeFeatureLabel (.ofConfig config) config i) := by
  have hi : d'.features[i]? = (d.features[i]?).map (PlacedFeature.translate v) := by
    rw [h.features, List.getElem?_map]
  have hput {e e' : Drawing ℚ} (he : e.TranslatedBy v e') {label label' : Rect ℚ}
      (hlabel : label' = label.translateArea v) :
      (e.modifyFeature i fun f => { f with label }).TranslatedBy v
        (e'.modifyFeature i fun f => { f with label := label' }) := by
    refine he.modifyFeature (fun f => ?_) i
    rw [hlabel]
    rfl
  unfold Drawing.placeFeatureLabel
  cases hf : d.features[i]? with
  | none =>
    rw [hf, Option.map_none] at hi
    rw [hi]
    exact h
  | some f =>
    rw [hf, Option.map_some] at hi
    rw [hi]
    have hcleared := hput h (Rect.translateArea_empty v).symm
    dsimp only [PlacedFeature.translate]
    split_ifs with hentry hsize
    · exact h
    · exact hcleared
    · refine hput hcleared (hcleared.labelBeside hconfig.lineWidth f.symbol ?_)
      exact hconfig.composer.textSize_pos (Bool.eq_false_iff.mpr hsize)

/-- The name of a relationship moves with everything else. -/
lemma placeRelationshipLabel (hconfig : config.Usable) (h : d.TranslatedBy v d') (i : ℕ) :
    (d.placeRelationshipLabel (.ofConfig config) config i).TranslatedBy v
      (d'.placeRelationshipLabel (.ofConfig config) config i) := by
  have hi : d'.relationships[i]? =
      (d.relationships[i]?).map (RoutedRelationship.translate v) := by
    rw [h.relationships, List.getElem?_map]
  have hput {e e' : Drawing ℚ} (he : e.TranslatedBy v e') {label label' : Rect ℚ}
      (hlabel : label' = label.translateArea v) :
      (e.modifyRelationship i fun r => { r with label }).TranslatedBy v
        (e'.modifyRelationship i fun r => { r with label := label' }) := by
    refine he.modifyRelationship (fun r => ?_) i
    rw [hlabel]
    rfl
  unfold Drawing.placeRelationshipLabel
  cases hr : d.relationships[i]? with
  | none =>
    rw [hr, Option.map_none] at hi
    rw [hi]
    exact h
  | some r =>
    rw [hr, Option.map_some] at hi
    rw [hi]
    have hcleared := hput h (Rect.translateArea_empty v).symm
    have hdrawn : (r.translate v).isDrawn = r.isDrawn := rfl
    have helement : (r.translate v).element = r.element := rfl
    dsimp only
    rw [hdrawn, helement]
    split_ifs with hsize
    · exact hcleared
    · obtain ⟨hshown, hsome⟩ : r.isDrawn = true ∧
          ((Composer.ofConfig config).relationshipLabelSize r.element).isZero = false := by
        simpa using hsize
      have hanchor : relationshipAnchor config (r.translate v) =
          (relationshipAnchor config r).translate v := by
        rw [relationshipAnchor, RoutedRelationship.translate, if_pos hshown,
          Connector.middle_translate, Rect.centered_add, relationshipAnchor]
      rw [hanchor]
      exact hput hcleared (hcleared.labelBeside hconfig.lineWidth _
        (hconfig.composer.textSize_pos hsome))

/-- All names move with everything else. -/
theorem layoutLabels (hconfig : config.Usable) (h : d.TranslatedBy v d') :
    ((d.layoutFeatureLabels (.ofConfig config) config).layoutRelationshipLabels (.ofConfig config)
        config).TranslatedBy v
      ((d'.layoutFeatureLabels (.ofConfig config) config).layoutRelationshipLabels
        (.ofConfig config) config) := by
  have hfeatures : (d.layoutFeatureLabels (.ofConfig config) config).TranslatedBy v
      (d'.layoutFeatureLabels (.ofConfig config) config) := by
    have hlength : d'.features.length = d.features.length := by
      rw [h.features, List.length_map]
    unfold layoutFeatureLabels
    rw [hlength]
    exact List.foldl_rel (r := fun e e' : Drawing ℚ => e.TranslatedBy v e') h
      fun i _ e e' he => he.placeFeatureLabel hconfig i
  generalize d.layoutFeatureLabels (.ofConfig config) config = e at hfeatures ⊢
  generalize d'.layoutFeatureLabels (.ofConfig config) config = e' at hfeatures ⊢
  have hlength : e'.relationships.length = e.relationships.length := by
    rw [hfeatures.relationships, List.length_map]
  unfold layoutRelationshipLabels
  rw [hlength]
  exact List.foldl_rel (r := fun e e' : Drawing ℚ => e.TranslatedBy v e') hfeatures
    fun i _ e e' he => he.placeRelationshipLabel hconfig i

end TranslatedBy

/-! ## All steps -/

/-- A drawing in which nothing has been computed yet, on a sheet for its kind of diagram. -/
structure Blank (config : Config ℚ) (d : Drawing ℚ) : Prop where
  inRange : d.InRange
  features : d.Unnamed
  relationships : ∀ r ∈ d.relationships, r.label = .empty
  kind : d.sheet.grid.kind = d.diagram.kind.gridKind
  limit : d.relationships.length ≤ config.limits.relationships

variable {config : Config ℚ}

/-- Until relationships are routed all records stand for what they stood for. -/
lemma keepsRecords_furnished (m : Composer ℚ) (config : Config ℚ) (d : Drawing ℚ) :
    d.KeepsRecords (d.furnished m config) :=
  ((keepsRecords_initVisibility d).trans (keepsRecords_layoutClassifiers m config _)).trans
    (refeatures_layoutFeatures m config _).keepsRecords

/-- Until relationships are routed nothing but their visibilities changes, and the grid measures the
same. -/
lemma kept_furnished (m : Composer ℚ) (config : Config ℚ) (d : Drawing ℚ) :
    (d.furnished m config).relationships.map RoutedRelationship.unseen =
        d.relationships.map RoutedRelationship.unseen ∧
      (d.furnished m config).sheet.grid.kind = d.sheet.grid.kind := by
  have hinit := relates_initVisibility d
  have hplaced := redraws_layoutClassifiers m config d.initVisibility
  have hfeatures := refeatures_layoutFeatures m config
    (d.initVisibility.layoutClassifiers m config).value
  rw [furnished, hfeatures.relationships_eq, hfeatures.sheet_eq, hplaced.sheet_eq,
    kind_registerKeys, hinit.sheet_eq]
  refine ⟨?_, rfl⟩
  obtain ⟨cs, rs, heq, -, hrs⟩ := hplaced
  rw [heq]
  exact hrs.trans hinit.map_relationships

/-- Until relationships are routed, the features move and relationships are the same. -/
theorem Blank.furnished (hconfig : config.Usable) (v : Point ℚ) {d : Drawing ℚ}
    (h : d.Blank config) :
    (d.furnished (.ofConfig config) config).Furnished v
        ((d.translateSheet v).furnished (.ofConfig config) config) ∧
      ((d.translateSheet v).furnished (.ofConfig config) config).relationships =
        (d.furnished (.ofConfig config) config).relationships := by
  have hstart : (d.translateSheet v).initVisibility = d.initVisibility.translateSheet v := by
    unfold initVisibility
    rw [apply_ite (translateSheet v)]
    rfl
  have hin := h.inRange.of_keepsRecords (keepsRecords_initVisibility d)
  have hplacedIn := hin.of_keepsRecords
    (keepsRecords_layoutClassifiers (.ofConfig config) config d.initVisibility)
  obtain ⟨hplaced, hsame⟩ := movedBy_layoutClassifiers hconfig v hin
  -- placing the classifiers does not touch the features
  have hfeatures (e : Drawing ℚ) :
      (e.layoutClassifiers (.ofConfig config) config).value.features = e.features :=
    (redraws_layoutClassifiers _ config e).features_eq
  have hunnamed : (d.initVisibility.layoutClassifiers (.ofConfig config) config).value.Unnamed := by
    rw [Unnamed, hfeatures, (relates_initVisibility d).features_eq]
    exact h.features
  obtain ⟨hmoved, htranslated, -⟩ := hplaced.layoutFeatures (.ofConfig config) config
    (by rw [hfeatures, hfeatures]; rfl) hunnamed hplacedIn
  rw [Drawing.furnished, Drawing.furnished, hstart]
  refine ⟨⟨hmoved, htranslated⟩, ?_⟩
  rw [(refeatures_layoutFeatures _ config _).relationships_eq,
    (refeatures_layoutFeatures _ config _).relationships_eq]
  exact hsame

/-- On a translated sheet everything is translated. -/
theorem Blank.translatedBy_complete (hconfig : config.Usable) (v : Point ℚ) {d : Drawing ℚ}
    (h : d.Blank config) :
    (d.complete (.ofConfig config) config).value.TranslatedBy v
      ((d.translateSheet v).complete (.ofConfig config) config).value := by
  obtain ⟨hfurnished, hsame⟩ := h.furnished hconfig v
  obtain ⟨hunseen, hkind⟩ := kept_furnished (.ofConfig config) config d
  have hkeeps := keepsRecords_furnished (.ofConfig config) config d
  have hunnamed : ∀ r ∈ (d.furnished (.ofConfig config) config).relationships,
      r.label = .empty := by
    intro r hr
    have hmem := List.mem_map_of_mem (f := RoutedRelationship.unseen) hr
    rw [hunseen] at hmem
    obtain ⟨r₀, hr₀, heq⟩ := List.mem_map.mp hmem
    rw [← h.relationships r₀ hr₀]
    exact (congrArg (·.label) heq).symm
  have hlimit : (d.furnished (.ofConfig config) config).relationships.length ≤
      config.limits.relationships := by
    have hlength := congrArg List.length hkeeps.relationships
    rw [List.length_map, List.length_map] at hlength
    exact hlength.trans_le h.limit
  rw [h.kind, ← hkeeps.diagram] at hkind
  rw [value_complete, value_complete]
  refine TranslatedBy.layoutLabels hconfig ?_
  unfold routeAll
  rw [hfurnished.diagram]
  split_ifs with htime
  · obtain ⟨axis, haxis⟩ : ∃ axis,
        (d.furnished (.ofConfig config) config).sheet.grid.kind.timeAxis = some axis := by
      rw [DiagramKind.hasTimeAxis_eq] at htime
      rw [hkind]
      exact Option.isSome_iff_exists.mp htime
    exact hfurnished.routeInTime hsame hunnamed haxis
  · have hfree : (d.furnished (.ofConfig config) config).sheet.grid.kind = .xy := by
      rw [DiagramKind.hasTimeAxis_eq, ← hkind] at htime
      cases hgrid : (d.furnished (.ofConfig config) config).sheet.grid.kind with
      | xy => rfl
      | timeY | timeX =>
        rw [hgrid] at htime
        exact absurd rfl htime
    rw [Guarded.value_pure, Guarded.value_pure]
    exact hfurnished.routeFreely (h.inRange.of_keepsRecords hkeeps) hconfig.lineWidth hsame hunnamed
      hfree hlimit

end Drawing

/-! ## Sets -/

/-- A table of enclosures has the size of the list it is made for. -/
lemma Nesting.size_ofElements (s : ElementSet) (passes : ℕ) :
    (Nesting.ofElements s passes).size = s.classifiers.length :=
  (charts_ofEdges s.classifiers.length (edgesOf s) passes).size_eq

namespace ElementSet

variable {config : Config ℚ} {bounds : Rect ℚ} {s : ElementSet}

/-- The checks do not look at the bounds. -/
lemma prepare_translate (config : Config ℚ) (bounds : Rect ℚ) (s : ElementSet) (v : Point ℚ) :
    s.prepare config (bounds.translate v) =
      Drawing.translateSheet v <$> s.prepare config bounds := by
  unfold prepare Drawing.ofElements
  simp only [map_bind, map_pure, Sheet.ofBounds_translate]
  rfl

/-- What passes the checks is blank. -/
lemma blank_of_prepare {d : Drawing ℚ} (h : s.prepare config bounds = .ok d) : d.Blank config := by
  have hstart := ofElements_of_prepare h
  obtain ⟨hnesting, hunnamed, hfresh⟩ := Drawing.fresh_of_ofElements hstart
  have hlabels : ∀ r ∈ d.relationships, r.label = .empty := fun r hr => (hfresh r hr).1
  have hrecords := recordedIn_of_prepare h
  obtain ⟨hdiagram, hsheet⟩ := Drawing.ofElements_eq_ok hstart
  have hclassifiers := hrecords.length_classifiers
  have hfeatures : d.features.length = s.features.length := by
    simpa using congrArg List.length hrecords.features
  have hrelationships : d.relationships.length = s.relationships.length := by
    simpa using congrArg List.length hrecords.relationships
  have hend {id : Option RowId} {feature : Option ℕ}
      (hrel : Option.Rel (IsFirst Feature.id s.features) id feature) :
      ∀ f ∈ feature, f < d.features.length := by
    rintro f rfl
    cases hrel with
    | some hfirst => exact hfeatures ▸ hfirst.1
  refine ⟨?_, hunnamed, hlabels, ?_, ?_⟩
  · constructor
    · rw [hnesting, Nesting.size_ofElements, hclassifiers]
    · exact fun f hf => hclassifiers ▸ (hrecords.owners f hf).1
    · exact fun r hr => hclassifiers ▸ (hrecords.sources r hr).1
    · exact fun r hr => hclassifiers ▸ (hrecords.targets r hr).1
    · exact fun r hr => hend (hrecords.sourceFeatures r hr)
    · exact fun r hr => hend (hrecords.targetFeatures r hr)
  · rw [hsheet, hdiagram]
    rfl
  · rw [hrelationships]
    exact (keepsTo_of_prepare h).relationships

/-- The layout does not depend on where the bounds of the diagram are: with other bounds of the same
extent a set is refused for the same reason, or everything in its layout is moved with them. -/
theorem layout_translate (config : Config ℚ) (bounds : Rect ℚ) (v : Point ℚ) (s : ElementSet) :
    SameOutcome (fun before after => before.defined = true ∧ after.defined = true ∧
        before.value.TranslatedBy v after.value)
      (s.layout (.ofConfig config) config bounds)
      (s.layout (.ofConfig config) config (bounds.translate v)) := by
  rw [layout, layout, prepare_translate]
  cases hprepare : s.prepare config bounds with
  | error e => exact .error e
  | ok d =>
    have hconfig : config.Usable := (prepare_eq_ok hprepare).1
    exact .ok ⟨d.defined_complete _, (d.translateSheet v).defined_complete _,
      (blank_of_prepare hprepare).translatedBy_complete hconfig v⟩

end ElementSet

end DiagramLayout
