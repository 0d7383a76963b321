import DiagramLayout.Proofs.Entries
import DiagramLayout.Proofs.Frame

/-!
# Where lifelines are

A lifeline gets its bar when its classifier has its turn, and neither the turns of other classifiers
nor the compartments touch it (`Drawing.lifeline_layoutFeatures`). In a scenario the bar starts at
the far edge of the classifier and reaches at least as far as the draw area does without its border
(`lifelineBar_along`).
-/

namespace DiagramLayout

/-- The box that a lifeline of a classifier has. -/
def lifelineBox (config : Config ℚ) (d : Drawing ℚ) (owner : PlacedClassifier ℚ) : Rect ℚ :=
  lifelineBar config d.diagram.kind d.sheet.drawArea owner.element.kind owner.boxes.symbol

/-- A lifeline beside its classifier has its bar and is otherwise as it was. -/
lemma value_placeBeside_lifeline (config : Config ℚ) (diagram : DiagramKind) (drawArea : Rect ℚ)
    (owner : PlacedClassifier ℚ) {f : PlacedFeature ℚ} (hf : f.element.kind = .lifeline) :
    (placeBeside config diagram drawArea owner f).value =
      { f with
        symbol := lifelineBar config diagram drawArea owner.element.kind owner.boxes.symbol
        direction := .center } := by
  have hentry : FeatureKind.isCompartmentEntry .lifeline = false := rfl
  unfold placeBeside
  simp [hf, hentry]

/-- A feature keeps its element when it is placed beside its classifier. -/
lemma element_placeBeside (config : Config ℚ) (diagram : DiagramKind) (drawArea : Rect ℚ)
    (owner : PlacedClassifier ℚ) (f : PlacedFeature ℚ) :
    (placeBeside config diagram drawArea owner f).value.element = f.element := by
  unfold placeBeside
  dsimp only
  split_ifs <;> rfl

/-- A feature that has been placed beside its classifier stays there if it is placed once more. -/
lemma value_placeBeside_again (config : Config ℚ) (diagram : DiagramKind) (drawArea : Rect ℚ)
    (owner : PlacedClassifier ℚ) (f : PlacedFeature ℚ) :
    (placeBeside config diagram drawArea owner
      (placeBeside config diagram drawArea owner f).value).value =
        (placeBeside config diagram drawArea owner f).value := by
  have hlifeline : FeatureKind.isCompartmentEntry .lifeline = false := rfl
  by_cases hentry : f.element.kind.isCompartmentEntry = true
  · simp [placeBeside, hentry]
  · by_cases hkind : f.element.kind = .lifeline
    · simp [placeBeside, hkind, hlifeline]
    · simp [placeBeside, hentry, hkind]

/-- The stacked lines are those of the entries. -/
lemma map_fst_stackEntries {α : Type} [Scalar α] (m : Composer α) (border : α) (space : Rect α)
    (offset : α) (entries : List (ℕ × Feature)) :
    (stackEntries m border space offset entries).map Prod.fst = entries.map Prod.fst := by
  induction entries generalizing offset with
  | nil => rfl
  | cons entry rest ih =>
    rw [stackEntries, List.map_cons, List.map_cons, ih]

namespace Drawing

/-- The entries of a classifier are entries of compartments. -/
lemma isCompartmentEntry_of_mem_entries {d : Drawing ℚ} {classifier i : ℕ} {f : PlacedFeature ℚ}
    (hf : d.features[i]? = some f) (hi : i ∈ (d.entries classifier).map Prod.fst) :
    f.element.kind.isCompartmentEntry = true := by
  obtain ⟨⟨_, e⟩, hentry, rfl⟩ := List.mem_map.mp hi
  obtain ⟨g, hg, -, hkind, -⟩ := mem_entries.mp hentry
  obtain rfl : g = f := Option.some.inj (hg.symm.trans hf)
  exact hkind

/-- Features that are not among those changed stay as they are. -/
lemma getElem?_foldl_modifyFeature {α β : Type} [Scalar α]
    (change : β → PlacedFeature α → PlacedFeature α) (lines : List (ℕ × β)) (d : Drawing α) {i : ℕ}
    (hi : i ∉ lines.map Prod.fst) :
    (lines.foldl (fun d line => d.modifyFeature line.1 (change line.2)) d).features[i]? =
      d.features[i]? := by
  induction lines generalizing d with
  | nil => rfl
  | cons line rest ih =>
    obtain ⟨hfirst, hrest⟩ := not_or.mp (fun h => hi (List.mem_cons.mpr h))
    rw [List.foldl_cons, ih _ hrest, modifyFeature, List.getElem?_modify]
    simp [Ne.symm hfirst]

/-- The compartments leave what is not an entry as it is. -/
lemma getElem?_layoutCompartments (m : Composer ℚ) (config : Config ℚ) {d : Drawing ℚ} {i : ℕ}
    {f : PlacedFeature ℚ} (hf : d.features[i]? = some f)
    (hkind : f.element.kind.isCompartmentEntry = false) (classifier : ℕ) :
    (d.layoutCompartments m config classifier).features[i]? = some f := by
  have hnone : i ∉ (stackEntries m config.border (d.boxes classifier).space config.border
      (d.entries classifier)).map Prod.fst := by
    rw [map_fst_stackEntries]
    intro hmem
    have hentry := isCompartmentEntry_of_mem_entries hf hmem
    rw [hkind] at hentry
    cases hentry
  rw [← hf]
  exact getElem?_foldl_modifyFeature (fun box f =>
    { f with symbol := box, label := .empty, direction := .center }) _ d hnone

/-- Before the compartments a classifier places each of its features beside it. -/
lemma getElem?_layoutBeside (config : Config ℚ) {d : Drawing ℚ} {i : ℕ} {f : PlacedFeature ℚ}
    (hf : d.features[i]? = some f) {classifier : ℕ} {owner : PlacedClassifier ℚ}
    (howner : d.classifiers[classifier]? = some owner) :
    (d.layoutBeside config classifier).value.features[i]? =
      some (if f.owner = classifier then
        (placeBeside config d.diagram.kind d.sheet.drawArea owner f).value else f) := by
  unfold layoutBeside
  rw [howner]
  simp only [Guarded.value_bind, Guarded.value_pure, Guarded.value_mapM, List.getElem?_map, hf,
    Option.map_some, Option.some.injEq, beq_iff_eq]
  split_ifs <;> rfl

/-- The turn of a classifier places its features that are not entries beside it and leaves others as
they are. -/
lemma beside_layoutFeaturesOf (m : Composer ℚ) (config : Config ℚ) {d : Drawing ℚ} {i : ℕ}
    {f : PlacedFeature ℚ} (hf : d.features[i]? = some f)
    (hkind : f.element.kind.isCompartmentEntry = false) {classifier : ℕ}
    {owner : PlacedClassifier ℚ} (howner : d.classifiers[classifier]? = some owner) :
    (d.layoutFeaturesOf m config classifier).value.features[i]? =
      some (if f.owner = classifier then
        (placeBeside config d.diagram.kind d.sheet.drawArea owner f).value else f) := by
  unfold layoutFeaturesOf
  simp only [Guarded.value_bind, Guarded.value_pure]
  refine getElem?_layoutCompartments m config (getElem?_layoutBeside config hf howner) ?_ classifier
  split_ifs
  · rw [element_placeBeside]
    exact hkind
  · exact hkind

/-- While features are placed, every one keeps its element and its owner. -/
lemma getElem?_of_refeatures {d e : Drawing ℚ} (h : Refeatures PlacedFeature.origin d e) {i : ℕ}
    {f : PlacedFeature ℚ} (hf : d.features[i]? = some f) :
    ∃ f₁, e.features[i]? = some f₁ ∧ f₁.element = f.element ∧ f₁.owner = f.owner := by
  obtain ⟨f₁, hf₁, hsame⟩ := getElem?_of_map_eq h.map_features hf
  exact ⟨f₁, hf₁, congrArg Prod.fst hsame, congrArg Prod.snd hsame⟩

/-- After all features have been placed, one that is no entry is where its classifier has placed it
beside itself. -/
theorem beside_layoutFeatures (m : Composer ℚ) (config : Config ℚ) {d : Drawing ℚ} {i : ℕ}
    {f : PlacedFeature ℚ} (hf : d.features[i]? = some f)
    (hkind : f.element.kind.isCompartmentEntry = false) {owner : PlacedClassifier ℚ}
    (howner : d.classifiers[f.owner]? = some owner) :
    (d.layoutFeatures m config).value.features[i]? =
      some (placeBeside config d.diagram.kind d.sheet.drawArea owner f).value := by
  set placed := (placeBeside config d.diagram.kind d.sheet.drawArea owner f).value with hplaced
  have hlt : f.owner < d.classifiers.length := (List.getElem?_eq_some_iff.mp howner).1
  have hturn {e : Drawing ℚ} (he : Refeatures PlacedFeature.origin d e) {g : PlacedFeature ℚ}
      (hg : e.features[i]? = some g) (hknown : g = f ∨ g = placed) (j : ℕ) :
      (e.layoutFeaturesOf m config j).value.features[i]? =
        some (if f.owner = j then placed else g) := by
    obtain ⟨g', hg', helement, hgowner⟩ := getElem?_of_refeatures he hf
    obtain rfl : g = g' := Option.some.inj (hg.symm.trans hg')
    have hentry : g.element.kind.isCompartmentEntry = false := helement ▸ hkind
    cases hother : e.classifiers[j]? with
    | none =>
      have hcompartments : (e.layoutFeaturesOf m config j).value =
          e.layoutCompartments m config j := by
        simp [layoutFeaturesOf, layoutBeside, hother]
      have hne : f.owner ≠ j := by
        rintro rfl
        rw [he.classifiers_eq, howner] at hother
        cases hother
      rw [hcompartments, if_neg hne]
      exact getElem?_layoutCompartments m config hg hentry j
    | some other =>
      rw [beside_layoutFeaturesOf m config hg hentry hother, hgowner]
      split_ifs with hj
      · subst hj
        rw [he.classifiers_eq, howner, Option.some.injEq] at hother
        rw [he.diagram_eq, he.sheet_eq, ← hother]
        rcases hknown with rfl | rfl
        · rfl
        · rw [hplaced, value_placeBeside_again]
      · rfl
  unfold layoutFeatures
  rw [Guarded.value_foldlM]
  refine foldl_turn
    (fun e => Refeatures PlacedFeature.origin d e ∧
      ∃ g, e.features[i]? = some g ∧ (g = f ∨ g = placed))
    (fun e => e.features[i]? = some placed) (i := f.owner) ?_ ?_ ?_ _
    ⟨Refeatures.refl d, f, hf, Or.inl rfl⟩ (Or.inl (List.mem_range.mpr hlt))
  · rintro e j ⟨he, g, hg, hknown⟩
    refine ⟨he.trans (refeatures_layoutFeaturesOf m config e j), _, hturn he hg hknown j, ?_⟩
    split_ifs
    · exact Or.inr rfl
    · exact hknown
  · rintro e ⟨he, g, hg, hknown⟩
    rw [hturn he hg hknown, if_pos rfl]
  · rintro e j hj ⟨he, -⟩ hdone
    rw [hturn he hdone (Or.inr rfl), if_neg (Ne.symm hj)]

/-- After all features have been placed a lifeline of a classifier has its bar. -/
theorem lifeline_layoutFeatures (m : Composer ℚ) (config : Config ℚ) {d : Drawing ℚ} {i : ℕ}
    {f : PlacedFeature ℚ} (hf : d.features[i]? = some f) (hkind : f.element.kind = .lifeline)
    {owner : PlacedClassifier ℚ} (howner : d.classifiers[f.owner]? = some owner) :
    ∃ f', (d.layoutFeatures m config).value.features[i]? = some f' ∧
      f'.symbol = lifelineBox config d owner := by
  have hentry : f.element.kind.isCompartmentEntry = false := by
    rw [hkind]
    rfl
  refine ⟨_, beside_layoutFeatures m config hf hentry howner, ?_⟩
  rw [value_placeBeside_lifeline config _ _ owner hkind]
  rfl

end Drawing

/-- Along the time axis a lifeline starts at the far edge of its classifier and reaches at least as
far as the draw area without its border. -/
lemma lifelineBar_along (config : Config ℚ) {diagram : DiagramKind} (drawArea symbol : Rect ℚ)
    {kind : ClassifierKind} {axis : Axis} (haxis : diagram.gridKind.timeAxis = some axis)
    (hkind : kind.canHaveLifeline = true) :
    (lifelineBar config diagram drawArea kind symbol).startAlong axis = symbol.endAlong axis ∧
      drawArea.endAlong axis - config.border ≤
        (lifelineBar config diagram drawArea kind symbol).endAlong axis := by
  unfold lifelineBar
  simp only [hkind, Bool.not_true, Bool.false_eq_true, if_false]
  cases diagram <;> simp only [DiagramKind.gridKind, GridKind.timeAxis, Option.some.injEq,
    reduceCtorEq] at haxis
  · subst haxis
    simp only [Rect.startAlong, Rect.endAlong, Rect.spanning, Scalar.min_exact, Scalar.max_exact]
    exact ⟨min_eq_left (le_max_right _ _), le_max_of_le_right (le_max_left _ _)⟩
  · subst haxis
    simp only [Rect.startAlong, Rect.endAlong, Rect.spanning, Scalar.min_exact, Scalar.max_exact]
    exact ⟨min_eq_left (le_max_right _ _), le_max_of_le_right (le_max_left _ _)⟩

end DiagramLayout
