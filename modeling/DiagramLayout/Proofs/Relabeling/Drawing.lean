import DiagramLayout.Proofs.Frame

/-!
# Relabeling a drawing

A relabeling gives elements other identifiers and other keys and leaves what the layout reads of
them: kinds, names, texts, what is grayed out, and the order of compartments. `Drawing.relabel`
applies one to a drawing and puts other scales on its grid.

What is read of a drawing apart from keys is the same of the relabeled drawing, and the elementary
changes of a drawing commute with relabeling. The equations of this module are simplification rules,
so the equation of a step of the layout is found by unfolding the step.
-/

namespace DiagramLayout

/-! ## Relabelings -/

/-- Other elements in the place of those of a drawing. -/
structure Relabeling where
  diagram : Diagram → Diagram
  classifier : Classifier → Classifier
  feature : Feature → Feature
  relationship : Relationship → Relationship
  diagram_kind : ∀ d, (diagram d).kind = d.kind
  classifier_kind : ∀ c, (classifier c).kind = c.kind
  classifier_name : ∀ c, (classifier c).name = c.name
  classifier_grayOut : ∀ c, (classifier c).grayOut = c.grayOut
  feature_kind : ∀ f, (feature f).kind = f.kind
  feature_key : ∀ f, (feature f).key = f.key
  feature_value : ∀ f, (feature f).value = f.value
  feature_listKey : ∀ f, (feature f).listKey = f.listKey
  feature_order : ∀ f g, entryAtMost (feature f) (feature g) = entryAtMost f g
  relationship_kind : ∀ r, (relationship r).kind = r.kind
  relationship_name : ∀ r, (relationship r).name = r.name

attribute [simp] Relabeling.diagram_kind Relabeling.classifier_kind Relabeling.classifier_name
  Relabeling.classifier_grayOut Relabeling.feature_kind Relabeling.feature_key
  Relabeling.feature_value Relabeling.feature_listKey Relabeling.feature_order
  Relabeling.relationship_kind Relabeling.relationship_name

variable {α : Type}

/-! ## Records -/

/-- A classifier with another element and its boxes. -/
def PlacedClassifier.relabel (ρ : Relabeling) (c : PlacedClassifier α) : PlacedClassifier α :=
  { c with element := ρ.classifier c.element }

/-- A feature with another element, its owner and its boxes. -/
def PlacedFeature.relabel (ρ : Relabeling) (f : PlacedFeature α) : PlacedFeature α :=
  { f with element := ρ.feature f.element }

/-- A relationship with another element, its ends and its route. -/
def RoutedRelationship.relabel (ρ : Relabeling) (r : RoutedRelationship α) :
    RoutedRelationship α :=
  { r with element := ρ.relationship r.element }

section Records

variable (ρ : Relabeling)

@[simp] lemma PlacedClassifier.relabel_element (c : PlacedClassifier α) :
    (c.relabel ρ).element = ρ.classifier c.element := rfl

@[simp] lemma PlacedClassifier.relabel_boxes (c : PlacedClassifier α) :
    (c.relabel ρ).boxes = c.boxes := rfl

@[simp] lemma PlacedFeature.relabel_element (f : PlacedFeature α) :
    (f.relabel ρ).element = ρ.feature f.element := rfl

@[simp] lemma PlacedFeature.relabel_owner (f : PlacedFeature α) :
    (f.relabel ρ).owner = f.owner := rfl

@[simp] lemma PlacedFeature.relabel_symbol (f : PlacedFeature α) :
    (f.relabel ρ).symbol = f.symbol := rfl

@[simp] lemma PlacedFeature.relabel_label (f : PlacedFeature α) :
    (f.relabel ρ).label = f.label := rfl

@[simp] lemma RoutedRelationship.relabel_element (r : RoutedRelationship α) :
    (r.relabel ρ).element = ρ.relationship r.element := rfl

@[simp] lemma RoutedRelationship.relabel_source (r : RoutedRelationship α) :
    (r.relabel ρ).source = r.source := rfl

@[simp] lemma RoutedRelationship.relabel_target (r : RoutedRelationship α) :
    (r.relabel ρ).target = r.target := rfl

@[simp] lemma RoutedRelationship.relabel_sourceFeature (r : RoutedRelationship α) :
    (r.relabel ρ).sourceFeature = r.sourceFeature := rfl

@[simp] lemma RoutedRelationship.relabel_targetFeature (r : RoutedRelationship α) :
    (r.relabel ρ).targetFeature = r.targetFeature := rfl

@[simp] lemma RoutedRelationship.relabel_route (r : RoutedRelationship α) :
    (r.relabel ρ).route = r.route := rfl

@[simp] lemma RoutedRelationship.relabel_label (r : RoutedRelationship α) :
    (r.relabel ρ).label = r.label := rfl

@[simp] lemma RoutedRelationship.relabel_visibility (r : RoutedRelationship α) :
    (r.relabel ρ).visibility = r.visibility := rfl

@[simp] lemma RoutedRelationship.relabel_isDrawn (r : RoutedRelationship α) :
    (r.relabel ρ).isDrawn = r.isDrawn := rfl

@[simp] lemma RoutedRelationship.relabel_isLoop (r : RoutedRelationship α) :
    (r.relabel ρ).isLoop = r.isLoop := rfl

end Records

/-! ## Composing -/

section Composing

variable [Scalar α] (ρ : Relabeling) (m : Composer α)

@[simp] lemma Composer.aroundEnvelope_relabel (c : Classifier) (envelope : Rect α) (nests : Bool) :
    m.aroundEnvelope (ρ.classifier c) envelope nests = m.aroundEnvelope c envelope nests := by
  simp [aroundEnvelope]

@[simp] lemma Composer.aroundSpace_relabel (c : Classifier) (space : Rect α) (nests : Bool) :
    m.aroundSpace (ρ.classifier c) space nests = m.aroundSpace c space nests := by
  simp [aroundSpace]

@[simp] lemma Composer.entrySize_relabel (f : Feature) :
    m.entrySize (ρ.feature f) = m.entrySize f := by
  simp [entrySize, Feature.displayText]

@[simp] lemma Composer.featureLabelSize_relabel (f : Feature) :
    m.featureLabelSize (ρ.feature f) = m.featureLabelSize f := by
  simp [featureLabelSize]

@[simp] lemma Composer.relationshipLabelSize_relabel (r : Relationship) :
    m.relationshipLabelSize (ρ.relationship r) = m.relationshipLabelSize r := by
  simp [relationshipLabelSize]

end Composing

/-! ## Drawings -/

namespace Drawing

/-- A drawing with other elements and other scales. -/
def relabel (ρ : Relabeling) (x y : Scale α) (d : Drawing α) : Drawing α where
  diagram := ρ.diagram d.diagram
  sheet := { d.sheet with grid := ⟨d.sheet.grid.kind, x, y⟩ }
  nesting := d.nesting
  classifiers := d.classifiers.map (PlacedClassifier.relabel ρ)
  features := d.features.map (PlacedFeature.relabel ρ)
  relationships := d.relationships.map (RoutedRelationship.relabel ρ)

section Readers

variable (ρ : Relabeling) (x y : Scale α) (d : Drawing α)

@[simp] lemma relabel_diagram_kind : (d.relabel ρ x y).diagram.kind = d.diagram.kind :=
  ρ.diagram_kind d.diagram

@[simp] lemma relabel_bounds : (d.relabel ρ x y).sheet.bounds = d.sheet.bounds := rfl

@[simp] lemma relabel_drawArea : (d.relabel ρ x y).sheet.drawArea = d.sheet.drawArea := rfl

@[simp] lemma relabel_grid_kind : (d.relabel ρ x y).sheet.grid.kind = d.sheet.grid.kind := rfl

@[simp] lemma relabel_nesting : (d.relabel ρ x y).nesting = d.nesting := rfl

@[simp] lemma relabel_classifiers :
    (d.relabel ρ x y).classifiers = d.classifiers.map (PlacedClassifier.relabel ρ) := rfl

@[simp] lemma relabel_features :
    (d.relabel ρ x y).features = d.features.map (PlacedFeature.relabel ρ) := rfl

@[simp] lemma relabel_relationships :
    (d.relabel ρ x y).relationships = d.relationships.map (RoutedRelationship.relabel ρ) := rfl

@[simp] lemma isGrayedOut_relabel (i : ℕ) :
    (d.relabel ρ x y).isGrayedOut i = d.isGrayedOut i := by
  simp [isGrayedOut, Option.any_map]

/-- The entries of a classifier are relabeled and stay in their order. -/
@[simp] lemma entries_relabel (i : ℕ) :
    (d.relabel ρ x y).entries i = (d.entries i).map fun e => (e.1, ρ.feature e.2) := by
  unfold entries
  dsimp only
  rw [List.map_mergeSort]
  · congr 1
    rw [relabel_features, List.zipIdx_map, List.filterMap_map, List.map_filterMap]
    refine List.filterMap_congr fun p _ => ?_
    simp [apply_ite]
  · intro a _ b _
    simp

variable [Scalar α]

@[simp] lemma boxes_relabel (i : ℕ) : (d.relabel ρ x y).boxes i = d.boxes i := by
  unfold boxes
  rw [relabel_classifiers, List.getElem?_map]
  cases d.classifiers[i]? <;> rfl

@[simp] lemma envelopes_relabel : (d.relabel ρ x y).envelopes = d.envelopes := by
  simp [envelopes, Function.comp_def]

@[simp] lemma featureSymbol_relabel (i : ℕ) :
    (d.relabel ρ x y).featureSymbol i = d.featureSymbol i := by
  unfold featureSymbol
  rw [relabel_features, List.getElem?_map]
  cases d.features[i]? <;> rfl

end Readers

section Writers

variable (ρ : Relabeling) (x y : Scale α) (d : Drawing α)

lemma relabel_setBoxes (i : ℕ) (b : ClassifierBoxes α) :
    (d.setBoxes i b).relabel ρ x y = (d.relabel ρ x y).setBoxes i b := by
  unfold relabel setBoxes
  dsimp only
  rw [map_modify_of_commutes]
  intro c
  rfl

lemma relabel_modifyFeature {change : PlacedFeature α → PlacedFeature α}
    (h : ∀ f, (change f).relabel ρ = change (f.relabel ρ)) (i : ℕ) :
    (d.modifyFeature i change).relabel ρ x y = (d.relabel ρ x y).modifyFeature i change := by
  unfold relabel modifyFeature
  dsimp only
  rw [map_modify_of_commutes h]

lemma relabel_modifyRelationship {change : RoutedRelationship α → RoutedRelationship α}
    (h : ∀ r, (change r).relabel ρ = change (r.relabel ρ)) (i : ℕ) :
    (d.modifyRelationship i change).relabel ρ x y =
      (d.relabel ρ x y).modifyRelationship i change := by
  unfold relabel modifyRelationship
  dsimp only
  rw [map_modify_of_commutes h]

lemma relabel_translateClassifier [Scalar α] (i : ℕ) (v : Point α) :
    (d.translateClassifier i v).relabel ρ x y = (d.relabel ρ x y).translateClassifier i v := by
  rw [translateClassifier, translateClassifier, relabel_setBoxes, boxes_relabel]

end Writers

end Drawing

end DiagramLayout
