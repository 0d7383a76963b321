import DiagramLayout.Proofs.Relabeling.Drawing

/-!
# Placing relabeled classifiers

The steps that place classifiers commute with relabeling. Only the first one reads keys: it commutes
if every classifier belongs at the same place on both grids (`Drawing.SamePlaces`). The others are
equations without a condition.
-/

namespace DiagramLayout

namespace Drawing

variable {α : Type} [Scalar α] (m : Composer α) (config : Config α) (ρ : Relabeling)

/-! ## Estimating -/

@[simp] lemma entriesSize_relabel (x y : Scale α) (d : Drawing α) (i : ℕ) :
    (d.relabel ρ x y).entriesSize m config i = d.entriesSize m config i := by
  unfold entriesSize
  rw [entries_relabel, List.map_map]
  simp only [Function.comp_def, Composer.entrySize_relabel]

@[simp] lemma composeFor_relabel (c : Classifier) (needed : Size α) (nests : Bool) :
    composeFor m config (ρ.classifier c) needed nests = composeFor m config c needed nests := by
  simp [composeFor]

/-- Every classifier belongs at the same place on the sheet and on the sheet with other scales. -/
def SamePlaces (x y : Scale α) (d : Drawing α) : Prop :=
  ∀ c ∈ d.classifiers, ∀ symbol,
    gridTarget config (d.relabel ρ x y).sheet (ρ.classifier c.element) symbol =
      gridTarget config d.sheet c.element symbol

lemma estimatedBoxes_relabel {x y : Scale α} {d : Drawing α} (h : d.SamePlaces config ρ x y)
    (i : ℕ) {c : PlacedClassifier α} (hc : c ∈ d.classifiers) :
    (d.relabel ρ x y).estimatedBoxes m config i (ρ.classifier c.element) =
      d.estimatedBoxes m config i c.element := by
  unfold estimatedBoxes placeOnGrid
  rw [entriesSize_relabel, composeFor_relabel, relabel_nesting, h c hc]

/-- The first boxes depend on the keys only through the places that belong to them. -/
theorem estimateBounds_relabel {x y x' y' : Scale α} {d : Drawing α}
    (hkeys : (d.relabel ρ x y).registerKeys = d.registerKeys.relabel ρ x' y')
    (hplaces : d.registerKeys.SamePlaces config ρ x' y') :
    (d.relabel ρ x y).estimateBounds m config = (d.estimateBounds m config).relabel ρ x' y' := by
  have hclassifiers : ((d.registerKeys.relabel ρ x' y').classifiers.mapIdx fun i c =>
      { c with boxes := (d.registerKeys.relabel ρ x' y').estimatedBoxes m config i c.element }) =
      (d.registerKeys.classifiers.mapIdx fun i c =>
        { c with boxes := d.registerKeys.estimatedBoxes m config i c.element }).map
          (PlacedClassifier.relabel ρ) := by
    refine List.ext_getElem? fun i => ?_
    simp only [relabel_classifiers, List.getElem?_mapIdx, List.getElem?_map, Option.map_map]
    cases hc : d.registerKeys.classifiers[i]? with
    | none => rfl
    | some c =>
      have hboxes := estimatedBoxes_relabel m config ρ hplaces i (List.mem_of_getElem? hc)
      simp only [Option.map_some, Function.comp_apply, PlacedClassifier.relabel_element, hboxes]
      rfl
  unfold estimateBounds
  rw [hkeys]
  dsimp only
  rw [hclassifiers]
  rfl

end Drawing

/-! ## Spreading -/

namespace Spreading

variable {α : Type} [Scalar α]

/-- The state of the second step with the drawing relabeled. -/
def relabel (ρ : Relabeling) (x y : Scale α) (s : Spreading α) : Spreading α :=
  { s with drawing := s.drawing.relabel ρ x y }

variable (config : Config α) (ρ : Relabeling) (x y : Scale α)

lemma turn_relabel (s : Spreading α) (i : ℕ) :
    (s.relabel ρ x y).turn config i = s.turn config i := by
  simp [turn, relabel]

lemma step_relabel (s : Spreading α) (i : ℕ) :
    (s.relabel ρ x y).step config i = relabel ρ x y <$> s.step config i := by
  unfold step
  rw [turn_relabel, map_bind]
  refine bind_congr fun offset => ?_
  rw [map_pure, relabel, relabel]
  dsimp only
  rw [apply_ite (Drawing.relabel ρ x y), Drawing.relabel_translateClassifier]
  rfl

end Spreading

namespace Drawing

variable {α : Type} [Scalar α] (m : Composer α) (config : Config α) (ρ : Relabeling)
  (x y : Scale α) (d : Drawing α)

@[simp] lemma simpleness_relabel (i : ℕ) : (d.relabel ρ x y).simpleness i = d.simpleness i := by
  simp [simpleness]

@[simp] lemma turnRanking_relabel :
    (d.relabel ρ x y).turnRanking config = d.turnRanking config := by
  simp [turnRanking]

theorem moveApart_relabel : (d.relabel ρ x y).moveApart config =
    (fun r => (r.1.relabel ρ x y, r.2)) <$> d.moveApart config := by
  unfold moveApart
  dsimp only
  rw [turnRanking_relabel, map_bind]
  have hstart : (⟨d.relabel ρ x y, [], (d.relabel ρ x y).classifiers.map fun _ => .origin⟩ :
      Spreading α) = Spreading.relabel ρ x y ⟨d, [], d.classifiers.map fun _ => .origin⟩ := by
    simp [Spreading.relabel, Function.comp_def]
  rw [hstart, foldlM_of_commutes (Spreading.step_relabel config ρ x y), bind_map_left]
  rfl

/-! ## Embracing -/

omit [Scalar α] in
@[simp] lemma containments_relabel : (d.relabel ρ x y).containments = d.containments := by
  simp [containments, List.zipIdx_map, List.filterMap_map]

omit [Scalar α] in
@[simp] lemma usableContainments_relabel :
    (d.relabel ρ x y).usableContainments = d.usableContainments := by
  simp [usableContainments]

@[simp] lemma containmentRanking_relabel :
    (d.relabel ρ x y).containmentRanking config = d.containmentRanking config := by
  simp [containmentRanking]

@[simp] lemma grownBoxes_relabel (parent : PlacedClassifier α) (isFurther : Bool) (child : ℕ) :
    (d.relabel ρ x y).grownBoxes m config (parent.relabel ρ) isFurther child =
      d.grownBoxes m config parent isFurther child := by
  simp [grownBoxes]

@[simp] lemma admitsGrowth_relabel (i : ℕ) (before after : ClassifierBoxes α) :
    (d.relabel ρ x y).admitsGrowth i before after = d.admitsGrowth i before after := by
  simp [admitsGrowth, addsOverlap]

end Drawing

namespace Embracing

variable {α : Type} [Scalar α] (m : Composer α) (config : Config α) (ρ : Relabeling)
  (x y : Scale α)

/-- The state of the third step with the drawing relabeled. -/
def relabel (s : Embracing α) : Embracing α := { s with drawing := s.drawing.relabel ρ x y }

lemma step_relabel (s : Embracing α) (c : Containment) :
    (s.relabel ρ x y).step m config c = (s.step m config c).relabel ρ x y := by
  unfold step
  have hparent : (s.relabel ρ x y).drawing.classifiers[c.parent]? =
      s.drawing.classifiers[c.parent]?.map (PlacedClassifier.relabel ρ) := List.getElem?_map
  rw [hparent]
  cases s.drawing.classifiers[c.parent]? with
  | none => rfl
  | some parent =>
    simp only [relabel, Option.map_some, Drawing.grownBoxes_relabel,
      Drawing.admitsGrowth_relabel, PlacedClassifier.relabel_boxes]
    split_ifs
    · rw [Drawing.relabel_setBoxes]
    · rfl

end Embracing

namespace Drawing

variable {α : Type} [Scalar α] (m : Composer α) (config : Config α) (ρ : Relabeling)
  (x y : Scale α) (d : Drawing α)

theorem embraceChildren_relabel : (d.relabel ρ x y).embraceChildren m config =
    (d.embraceChildren m config).relabel ρ x y := by
  unfold embraceChildren
  dsimp only
  rw [usableContainments_relabel, containmentRanking_relabel]
  have hstart : (⟨d.relabel ρ x y, []⟩ : Embracing α) = Embracing.relabel ρ x y ⟨d, []⟩ := rfl
  rw [hstart, List.foldl_hom (Embracing.relabel ρ x y) (Embracing.step_relabel m config ρ x y)]
  rfl

@[simp] lemma showsNesting_relabel : (d.relabel ρ x y).showsNesting = d.showsNesting := by
  funext c
  simp [showsNesting]

theorem hideNested_relabel : (d.relabel ρ x y).hideNested = d.hideNested.relabel ρ x y := by
  unfold hideNested
  rw [usableContainments_relabel, showsNesting_relabel]
  refine List.foldl_hom (relabel ρ x y) fun d c => ?_
  rw [relabel_modifyRelationship]
  intro r
  rfl

/-! ## Gathering -/

@[simp] lemma freeFor_relabel (i : ℕ) (box : Rect α) :
    (d.relabel ρ x y).freeFor i box = d.freeFor i box := by
  simp [freeFor]

@[simp] lemma fittedBoxes_relabel (c : Classifier) (union : Rect α) :
    fittedBoxes m config (ρ.classifier c) union = fittedBoxes m config c union := by
  simp [fittedBoxes]

@[simp] lemma containerRanking_relabel :
    (d.relabel ρ x y).containerRanking config = d.containerRanking config := by
  unfold containerRanking
  rw [relabel_nesting, relabel_classifiers, List.length_map]

lemma gatherStep_relabel (i : ℕ) : (d.relabel ρ x y).gatherStep m config i =
    relabel ρ x y <$> d.gatherStep m config i := by
  unfold gatherStep
  have hcontainer : (d.relabel ρ x y).classifiers[i]? =
      d.classifiers[i]?.map (PlacedClassifier.relabel ρ) := List.getElem?_map
  simp only [relabel_nesting, boxes_relabel, hcontainer]
  split_ifs
  · rfl
  · cases d.classifiers[i]? with
    | none => rfl
    | some container =>
      cases joinAll ((d.nesting.descendants i).map fun other => (d.boxes other).envelope) with
      | none => rfl
      | some union =>
        simp only [Option.map_some, PlacedClassifier.relabel_element, fittedBoxes_relabel,
          freeFor_relabel]
        split_ifs
        · rfl
        · rw [map_bind]
          refine bind_congr fun offset => ?_
          rw [map_pure, ← relabel_setBoxes]
          congr 1
          exact List.foldl_hom (relabel ρ x y) fun d other =>
            (relabel_translateClassifier ρ x y d other offset).symm

theorem gatherGroups_relabel : (d.relabel ρ x y).gatherGroups m config =
    relabel ρ x y <$> d.gatherGroups m config := by
  unfold gatherGroups
  rw [containerRanking_relabel]
  exact foldlM_of_commutes (gatherStep_relabel m config ρ x y) _ _

/-! ## All steps -/

/-- After the first step the keys make no difference to where classifiers are placed. -/
theorem layoutClassifiers_relabel {x' y' : Scale α}
    (h : (d.relabel ρ x y).estimateBounds m config =
      (d.estimateBounds m config).relabel ρ x' y') :
    (d.relabel ρ x y).layoutClassifiers m config =
      relabel ρ x' y' <$> d.layoutClassifiers m config := by
  unfold layoutClassifiers
  rw [h, moveApart_relabel, bind_map_left, map_bind]
  refine bind_congr fun r => ?_
  dsimp only
  rw [embraceChildren_relabel, hideNested_relabel, gatherGroups_relabel, bind_map_left, map_bind]
  refine bind_congr fun d => ?_
  rw [hideNested_relabel, map_pure]

end Drawing

end DiagramLayout
