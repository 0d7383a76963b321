import DiagramLayout.Proofs.Relabeling.Classifiers

/-!
# Completing a relabeled drawing

Features, connectors on a free grid and names are placed without regard to what a relabeling
changes. Messages read one more sort of keys: they commute with relabeling if the times that belong
to them are the same (`Drawing.SameTimes`). So the whole layout commutes with relabeling under the
conditions of its first and of its fourth step (`Drawing.complete_relabel`).
-/

namespace DiagramLayout

variable {α : Type} [Scalar α] (m : Composer α) (config : Config α) (ρ : Relabeling)

/-! ## Debts -/

namespace Debt

variable (probe : Connector α) (place : Rect α) (f : PlacedFeature α) (r : RoutedRelationship α)
  (lineWidth : α)

@[simp] lemma ofConnectorOnFeature_relabel :
    ofConnectorOnFeature probe (f.relabel ρ) lineWidth =
      ofConnectorOnFeature probe f lineWidth := rfl

@[simp] lemma ofConnectors_relabel :
    ofConnectors probe (r.relabel ρ) lineWidth = ofConnectors probe r lineWidth := rfl

@[simp] lemma ofLabelOnFeature_relabel :
    ofLabelOnFeature place (f.relabel ρ) = ofLabelOnFeature place f := rfl

@[simp] lemma ofLabelOnConnector_relabel :
    ofLabelOnConnector place (r.relabel ρ) lineWidth = ofLabelOnConnector place r lineWidth := rfl

@[simp] lemma ofConnector_relabel (x y : Scale α) (d : Drawing α) :
    ofConnector (d.relabel ρ x y).sheet probe lineWidth = ofConnector d.sheet probe lineWidth := rfl

@[simp] lemma ofBox_relabel (x y : Scale α) (d : Drawing α) :
    ofBox (d.relabel ρ x y).sheet place = ofBox d.sheet place := rfl

end Debt

/-! ## Features -/

lemma iconBox_relabel (owner : ClassifierKind) (f : Feature) (symbol : Rect α) :
    iconBox config owner (ρ.feature f) symbol = iconBox config owner f symbol := by
  simp [iconBox]

lemma placeBeside_relabel (diagram : DiagramKind) (drawArea : Rect α)
    (owner : PlacedClassifier α) (f : PlacedFeature α) :
    placeBeside config diagram drawArea (owner.relabel ρ) (f.relabel ρ) =
      PlacedFeature.relabel ρ <$> placeBeside config diagram drawArea owner f := by
  unfold placeBeside
  simp only [PlacedFeature.relabel_element, PlacedClassifier.relabel_element,
    PlacedClassifier.relabel_boxes, Relabeling.feature_kind, Relabeling.classifier_kind,
    Relabeling.feature_listKey, iconBox_relabel]
  split_ifs
  · rfl
  · rfl
  · rw [map_bind]
    rfl

lemma stackEntries_relabel (border : α) (space : Rect α) (offset : α)
    (entries : List (ℕ × Feature)) :
    stackEntries m border space offset (entries.map fun e => (e.1, ρ.feature e.2)) =
      stackEntries m border space offset entries := by
  induction entries generalizing offset with
  | nil => rfl
  | cons e entries ih => simp [stackEntries, ih]

namespace Drawing

variable (x y : Scale α) (d : Drawing α)

lemma layoutBeside_relabel (i : ℕ) : (d.relabel ρ x y).layoutBeside config i =
    relabel ρ x y <$> d.layoutBeside config i := by
  unfold layoutBeside
  rw [relabel_classifiers, List.getElem?_map]
  cases d.classifiers[i]? with
  | none => rfl
  | some owner =>
    have hfeature (f : PlacedFeature α) :
        (if (f.relabel ρ).owner == i then
          placeBeside config (d.relabel ρ x y).diagram.kind (d.relabel ρ x y).sheet.drawArea
            (owner.relabel ρ) (f.relabel ρ)
        else return f.relabel ρ) =
        PlacedFeature.relabel ρ <$> (if f.owner == i then
          placeBeside config d.diagram.kind d.sheet.drawArea owner f else return f) := by
      rw [relabel_diagram_kind, relabel_drawArea, PlacedFeature.relabel_owner]
      split_ifs
      · exact placeBeside_relabel config ρ _ _ owner f
      · rfl
    simp only [Option.map_some]
    rw [relabel_features, mapM_map_of_commutes fun f _ => hfeature f, map_bind, bind_map_left]
    rfl

lemma layoutCompartments_relabel (i : ℕ) : (d.relabel ρ x y).layoutCompartments m config i =
    (d.layoutCompartments m config i).relabel ρ x y := by
  unfold layoutCompartments
  rw [boxes_relabel, entries_relabel, stackEntries_relabel]
  refine List.foldl_hom (relabel ρ x y) fun d line => ?_
  rw [relabel_modifyFeature]
  intro f
  rfl

theorem layoutFeatures_relabel : (d.relabel ρ x y).layoutFeatures m config =
    relabel ρ x y <$> d.layoutFeatures m config := by
  unfold layoutFeatures
  rw [relabel_classifiers, List.length_map]
  refine foldlM_of_commutes (fun d i => ?_) _ _
  unfold layoutFeaturesOf
  rw [layoutBeside_relabel, map_bind, bind_map_left]
  refine bind_congr fun d => ?_
  rw [layoutCompartments_relabel, map_pure]

/-! ## Connectors on a free grid -/

omit [Scalar α] in
lemma showAll_relabel : (d.relabel ρ x y).showAll = d.showAll.relabel ρ x y := by
  have hshown : ((d.relabel ρ x y).relationships.map fun r =>
      { r with visibility := .ofDrawn ((d.relabel ρ x y).isGrayedOut r.source ||
        (d.relabel ρ x y).isGrayedOut r.target) }) =
      (d.relationships.map fun r => { r with
        visibility := .ofDrawn (d.isGrayedOut r.source || d.isGrayedOut r.target) }).map
          (RoutedRelationship.relabel ρ) := by
    simp only [relabel_relationships, List.map_map, isGrayedOut_relabel]
    rfl
  unfold showAll
  rw [hshown]
  rfl

omit [Scalar α] in
lemma initVisibility_relabel :
    (d.relabel ρ x y).initVisibility = d.initVisibility.relabel ρ x y := by
  unfold initVisibility
  rw [relabel_diagram_kind, showAll_relabel, apply_ite (relabel ρ x y)]

@[simp] lemma routeEnds_relabel (r : RoutedRelationship α) :
    (d.relabel ρ x y).routeEnds (r.relabel ρ) = d.routeEnds r := by
  simp [routeEnds, routeEnd]

@[simp] lemma routeCandidates_relabel (r : RoutedRelationship α) :
    (d.relabel ρ x y).routeCandidates config (r.relabel ρ) = d.routeCandidates config r := by
  simp [routeCandidates]

omit [Scalar α] in
@[simp] lemma isExempt_relabel (r : RoutedRelationship α) (i : ℕ) :
    (d.relabel ρ x y).isExempt (r.relabel ρ) i = d.isExempt r i := by
  simp [isExempt]

lemma routeDebt_relabel (r : RoutedRelationship α) (routed : List ℕ) (candidate : Connector α) :
    (d.relabel ρ x y).routeDebt config (r.relabel ρ) routed candidate =
      d.routeDebt config r routed candidate := by
  have hclassifiers : (((d.relabel ρ x y).classifiers.zipIdx.filter fun p =>
      !(d.relabel ρ x y).isExempt (r.relabel ρ) p.2).map fun p =>
        Debt.ofConnectorOnClassifier candidate p.1.boxes config.lineWidth) =
      (d.classifiers.zipIdx.filter fun p => !d.isExempt r p.2).map fun p =>
        Debt.ofConnectorOnClassifier candidate p.1.boxes config.lineWidth := by
    simp [List.zipIdx_map, List.filter_map, Function.comp_def]
  have hfeatures : (((d.relabel ρ x y).features.filter fun f =>
      f.owner != (r.relabel ρ).source && f.owner != (r.relabel ρ).target).map fun f =>
        Debt.ofConnectorOnFeature candidate f config.lineWidth) =
      (d.features.filter fun f => f.owner != r.source && f.owner != r.target).map fun f =>
        Debt.ofConnectorOnFeature candidate f config.lineWidth := by
    simp [List.filter_map, Function.comp_def]
  have hconnectors : ((routed.filterMap ((d.relabel ρ x y).relationships[·]?)).map fun other =>
      Debt.ofConnectors candidate other config.lineWidth) =
      (routed.filterMap (d.relationships[·]?)).map fun other =>
        Debt.ofConnectors candidate other config.lineWidth := by
    simp [List.map_filterMap, Function.comp_def]
  unfold routeDebt
  dsimp only
  rw [hclassifiers, hfeatures, hconnectors, Debt.ofConnector_relabel]

lemma chosenRoute_relabel (r : RoutedRelationship α) (routed : List ℕ) :
    (d.relabel ρ x y).chosenRoute config (r.relabel ρ) routed = d.chosenRoute config r routed := by
  have hcost : (d.relabel ρ x y).routeCost config (r.relabel ρ) routed =
      d.routeCost config r routed := by
    funext candidate
    rw [routeCost, routeCost, routeDebt_relabel]
  rw [chosenRoute, chosenRoute, hcost, routeCandidates_relabel]

@[simp] lemma routeRanking_relabel :
    (d.relabel ρ x y).routeRanking config = d.routeRanking config := by
  simp [routeRanking, List.zipIdx_map, List.filterMap_map, endDistance]

end Drawing

/-- The state of the free routing with the drawing relabeled. -/
def FreeRouting.relabel (x y : Scale α) (s : FreeRouting α) : FreeRouting α :=
  { s with drawing := s.drawing.relabel ρ x y }

lemma FreeRouting.step_relabel (x y : Scale α) (s : FreeRouting α) (i : ℕ) :
    (s.relabel ρ x y).step config i = (s.step config i).relabel ρ x y := by
  have hr : (s.relabel ρ x y).drawing.relationships[i]? =
      s.drawing.relationships[i]?.map (RoutedRelationship.relabel ρ) := List.getElem?_map
  unfold step
  rw [hr]
  cases s.drawing.relationships[i]? with
  | none => rfl
  | some r =>
    simp only [relabel, Option.map_some, Drawing.chosenRoute_relabel]
    rw [Drawing.relabel_modifyRelationship]
    intro r
    rfl

namespace Drawing

variable (x y : Scale α) (d : Drawing α)

theorem routeFreely_relabel : (d.relabel ρ x y).routeFreely config =
    (d.routeFreely config).relabel ρ x y := by
  have hstart : (⟨d.relabel ρ x y, []⟩ : FreeRouting α) = FreeRouting.relabel ρ x y ⟨d, []⟩ := rfl
  unfold routeFreely
  rw [relabel_grid_kind, routeRanking_relabel, hstart, apply_ite (relabel ρ x y),
    List.foldl_hom (FreeRouting.relabel ρ x y) (FreeRouting.step_relabel config ρ x y)]
  rfl

/-! ## Messages -/

omit [Scalar α] in
lemma showMessages_relabel : (d.relabel ρ x y).showMessages = d.showMessages.relabel ρ x y := by
  have hlifeline (f : Option ℕ) : (d.relabel ρ x y).isLifeline f = d.isLifeline f := by
    simp [isLifeline, Option.any_map]
  have hshown : ((d.relabel ρ x y).relationships.map fun r =>
      { r with visibility :=
          if (d.relabel ρ x y).isLifeline r.sourceFeature &&
              (d.relabel ρ x y).isLifeline r.targetFeature then
            .ofDrawn ((d.relabel ρ x y).isGrayedOut r.source ||
              (d.relabel ρ x y).isGrayedOut r.target)
          else .implied }) =
      (d.relationships.map fun r =>
        { r with visibility :=
            if d.isLifeline r.sourceFeature && d.isLifeline r.targetFeature then
              .ofDrawn (d.isGrayedOut r.source || d.isGrayedOut r.target)
            else .implied }).map (RoutedRelationship.relabel ρ) := by
    simp only [relabel_relationships, List.map_map, isGrayedOut_relabel, hlifeline]
    rfl
  unfold showMessages
  rw [hshown]
  rfl

/-- The scale along an axis when the messages of a drawing have been registered. -/
def messageScale (axis : Axis) (d : Drawing α) : Scale α :=
  (d.showMessages.prepareTime config axis).sheet.grid.scale axis

/-- Every message that is drawn has the same time on the sheet and on the sheet with other
scales. -/
def SameTimes (x y : Scale α) (d : Drawing α) : Prop :=
  ∀ axis, d.sheet.grid.kind.timeAxis = some axis →
    ∀ r ∈ d.showMessages.relationships, r.isDrawn = true →
      ((d.relabel ρ x y).messageScale config axis).location
          (ρ.relationship r.element).listKey =
        (d.messageScale config axis).location r.element.listKey

lemma prepareTime_relabel (axis : Axis) : ∃ x' y', (d.relabel ρ x y).prepareTime config axis =
    (d.prepareTime config axis).relabel ρ x' y' := by
  cases axis <;> exact ⟨_, _, rfl⟩

lemma routeMessage_relabel {axis : Axis} {r : RoutedRelationship α}
    (h : r.isDrawn = true →
      ((d.relabel ρ x y).sheet.grid.scale axis).location (ρ.relationship r.element).listKey =
        (d.sheet.grid.scale axis).location r.element.listKey) :
    (d.relabel ρ x y).routeMessage config axis (r.relabel ρ) =
      RoutedRelationship.relabel ρ <$> d.routeMessage config axis r := by
  unfold routeMessage
  simp only [RoutedRelationship.relabel_isDrawn, RoutedRelationship.relabel_sourceFeature,
    RoutedRelationship.relabel_targetFeature]
  split
  · rename_i source target hdrawn hsource htarget
    have hroute : (d.relabel ρ x y).messageRoute config axis (r.relabel ρ) source target =
        d.messageRoute config axis r source target := by
      unfold messageRoute
      simp only [RoutedRelationship.relabel_element, h hdrawn, Relabeling.relationship_kind,
        featureSymbol_relabel]
    rw [hroute, map_bind]
    rfl
  · rfl

/-- Messages depend on the keys only through the times that belong to them. -/
theorem routeInTime_relabel (h : d.SameTimes config ρ x y) : ∃ x' y',
    (d.relabel ρ x y).routeInTime config = relabel ρ x' y' <$> d.routeInTime config := by
  unfold routeInTime
  rw [relabel_grid_kind]
  cases haxis : d.sheet.grid.kind.timeAxis with
  | none => exact ⟨x, y, rfl⟩
  | some axis =>
    dsimp only
    obtain ⟨x', y', hprepared⟩ := prepareTime_relabel config ρ x y d.showMessages axis
    refine ⟨x', y', ?_⟩
    have hmessages : ∀ r ∈ (d.showMessages.prepareTime config axis).relationships,
        ((d.showMessages.prepareTime config axis).relabel ρ x' y').routeMessage config axis
            (r.relabel ρ) =
          RoutedRelationship.relabel ρ <$>
            (d.showMessages.prepareTime config axis).routeMessage config axis r := by
      intro r hr
      refine routeMessage_relabel config ρ x' y' _ fun hdrawn => ?_
      rw [← hprepared, ← showMessages_relabel]
      exact h axis haxis r hr hdrawn
    rw [showMessages_relabel, hprepared, relabel_relationships, mapM_map_of_commutes hmessages,
      map_bind, bind_map_left]
    rfl

/-! ## Names -/

lemma labelDebt_relabel (lineWidth : α) (place : Rect α) :
    (d.relabel ρ x y).labelDebt lineWidth place = d.labelDebt lineWidth place := by
  simp [labelDebt, Function.comp_def]

lemma labelBeside_relabel (anchor : Rect α) (size : Size α) :
    (d.relabel ρ x y).labelBeside config anchor size = d.labelBeside config anchor size := by
  have hcost : (d.relabel ρ x y).placeCost config.lineWidth = d.placeCost config.lineWidth := by
    funext place
    rw [placeCost, placeCost, labelDebt_relabel]
  simp only [labelBeside, selectPlace, hcost]

lemma placeFeatureLabel_relabel (i : ℕ) : (d.relabel ρ x y).placeFeatureLabel m config i =
    (d.placeFeatureLabel m config i).relabel ρ x y := by
  unfold placeFeatureLabel
  rw [relabel_features, List.getElem?_map]
  cases d.features[i]? with
  | none => rfl
  | some f =>
    have hmove (e : Drawing α) (box : Rect α) :
        (e.modifyFeature i fun f => { f with label := box }).relabel ρ x y =
          (e.relabel ρ x y).modifyFeature i fun f => { f with label := box } :=
      relabel_modifyFeature ρ x y e (by intro f; rfl) i
    simp only [Option.map_some, PlacedFeature.relabel_element, Relabeling.feature_kind,
      Composer.featureLabelSize_relabel, PlacedFeature.relabel_symbol, ← hmove,
      labelBeside_relabel]
    split_ifs <;> rfl

lemma placeRelationshipLabel_relabel (i : ℕ) :
    (d.relabel ρ x y).placeRelationshipLabel m config i =
      (d.placeRelationshipLabel m config i).relabel ρ x y := by
  unfold placeRelationshipLabel
  rw [relabel_relationships, List.getElem?_map]
  cases d.relationships[i]? with
  | none => rfl
  | some r =>
    have hmove (e : Drawing α) (box : Rect α) :
        (e.modifyRelationship i fun r => { r with label := box }).relabel ρ x y =
          (e.relabel ρ x y).modifyRelationship i fun r => { r with label := box } :=
      relabel_modifyRelationship ρ x y e (by intro r; rfl) i
    have hanchor : relationshipAnchor config (r.relabel ρ) = relationshipAnchor config r := rfl
    simp only [Option.map_some, RoutedRelationship.relabel_element,
      RoutedRelationship.relabel_isDrawn, Composer.relationshipLabelSize_relabel, hanchor, ← hmove,
      labelBeside_relabel]
    split_ifs <;> rfl

theorem layoutLabels_relabel :
    ((d.relabel ρ x y).layoutFeatureLabels m config).layoutRelationshipLabels m config =
      ((d.layoutFeatureLabels m config).layoutRelationshipLabels m config).relabel ρ x y := by
  have hfeatures : (d.relabel ρ x y).layoutFeatureLabels m config =
      (d.layoutFeatureLabels m config).relabel ρ x y := by
    unfold layoutFeatureLabels
    rw [relabel_features, List.length_map]
    exact List.foldl_hom (relabel ρ x y) (placeFeatureLabel_relabel m config ρ x y)
  rw [hfeatures]
  unfold layoutRelationshipLabels
  rw [relabel_relationships, List.length_map]
  exact List.foldl_hom (relabel ρ x y) (placeRelationshipLabel_relabel m config ρ x y)

/-! ## All steps -/

lemma routeAll_relabel (h : d.diagram.kind.hasTimeAxis = true → d.SameTimes config ρ x y) :
    ∃ x' y', (d.relabel ρ x y).routeAll config = relabel ρ x' y' <$> d.routeAll config := by
  unfold routeAll
  rw [relabel_diagram_kind]
  split_ifs with hkind
  · exact routeInTime_relabel config ρ x y d (h hkind)
  · exact ⟨x, y, by rw [routeFreely_relabel, map_pure]⟩

/-- The drawing before its relationships are routed. -/
def beforeRouting : Guarded (Drawing α) := do
  let d ← d.initVisibility.layoutClassifiers m config
  d.layoutFeatures m config

lemma complete_eq : d.complete m config = d.beforeRouting m config >>= fun d =>
    d.routeAll config >>= fun d =>
      return (d.layoutFeatureLabels m config).layoutRelationshipLabels m config := by
  rw [beforeRouting, bind_assoc]
  rfl

/-- A layout depends on the keys only through the places that belong to the keys of classifiers and
the times that belong to the keys of messages. -/
theorem complete_relabel {x' y' : Scale α}
    (hplaces : (d.initVisibility.relabel ρ x y).estimateBounds m config =
      (d.initVisibility.estimateBounds m config).relabel ρ x' y')
    (htimes : (d.beforeRouting m config).value.diagram.kind.hasTimeAxis = true →
      (d.beforeRouting m config).value.SameTimes config ρ x' y') :
    ∃ x'' y'', (d.relabel ρ x y).complete m config = relabel ρ x'' y'' <$> d.complete m config := by
  have hbefore : (d.relabel ρ x y).beforeRouting m config =
      relabel ρ x' y' <$> d.beforeRouting m config := by
    unfold beforeRouting
    rw [initVisibility_relabel, layoutClassifiers_relabel m config ρ x y _ hplaces, bind_map_left,
      map_bind]
    exact bind_congr fun e => layoutFeatures_relabel m config ρ x' y' e
  obtain ⟨x'', y'', hrouted⟩ := routeAll_relabel config ρ x' y' _ htimes
  refine ⟨x'', y'', ?_⟩
  rw [complete_eq, complete_eq, hbefore, bind_map_left, map_bind]
  refine Guarded.bind_congr_value ?_
  rw [hrouted, bind_map_left, map_bind]
  refine bind_congr fun e => ?_
  rw [layoutLabels_relabel, map_pure]

end Drawing

end DiagramLayout
