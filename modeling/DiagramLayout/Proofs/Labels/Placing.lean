import DiagramLayout.Proofs.Labels.Selecting
import DiagramLayout.Proofs.SoundStages
import DiagramLayout.Proofs.Translation.Completion

/-!
# Where the names float

The eight places around an anchor have the size of the name and keep the border from the anchor,
each along one axis (`floatsBeside_of_mem_placesAround`), and whichever of them is selected, the
selection is in range. So what a name is charged with plays no role here: the box of a name is right
as soon as its turn has come, and the turns of other names leave it alone.

Two things are settled before the names get their turns. The symbol of a feature that is no entry of
a compartment is not reversed, since it is an icon, the bar of a lifeline or the symbol of a
classifier with sound boxes (`Stages.ordered_symbols`); and no entry has a label, since none has been
given one (`Stages.unnamed_furnished`). Naming skips the entries, but it clears the label of
everything else in its turn, so a relationship that is not drawn has none.

## Main definitions

* `Rect.FloatsBeside`: a label of a given size lies clear of its anchor.
* `Rect.IsNameOf`: a label floats beside its anchor, or is empty where no name is shown.
-/

namespace DiagramLayout

/-! ## Places beside an anchor -/

/-- A label of a given size that shares no area with its anchor and keeps a gap from it along one of
the axes. -/
structure Rect.FloatsBeside (label anchor : Rect ℚ) (size : Size ℚ) (gap : ℚ) : Prop where
  /-- The anchor has a side for the label to be on. -/
  anchored : anchor.Ordered
  width : label.width = size.width
  height : label.height = size.height
  apart : label.overlapArea anchor = 0
  /-- The label is left of the anchor, right of it, above it or below it. -/
  clear : label.maxX + gap ≤ anchor.minX ∨ anchor.maxX + gap ≤ label.minX ∨
    label.maxY + gap ≤ anchor.minY ∨ anchor.maxY + gap ≤ label.minY

/-- The center of a place lies on one of the four lines beside the anchor on which a label of the
given size keeps the gap. -/
lemma center_of_mem_placesAround {anchor : Rect ℚ} {size : Size ℚ} {gap : ℚ} {place : Rect ℚ}
    (hplace : place ∈ placesAround anchor size gap) :
    ∃ center : Point ℚ, place = .centered center size ∧
      (center.x = anchor.minX - gap - size.width / 2 ∨
        center.x = anchor.maxX + gap + size.width / 2 ∨
        center.y = anchor.minY - gap - size.height / 2 ∨
        center.y = anchor.maxY + gap + size.height / 2) := by
  obtain ⟨center, hcenter, rfl⟩ := List.mem_map.mp hplace
  refine ⟨center, rfl, ?_⟩
  simp only [List.mem_cons, List.not_mem_nil, or_false, Nat.cast_ofNat] at hcenter
  rcases hcenter with rfl | rfl | rfl | rfl | rfl | rfl | rfl | rfl <;> simp only [true_or, or_true]

/-- Every place around an anchor is clear of it. -/
lemma floatsBeside_of_mem_placesAround {anchor : Rect ℚ} (hanchor : anchor.Ordered) {size : Size ℚ}
    {gap : ℚ} (hgap : 0 ≤ gap) {place : Rect ℚ} (hplace : place ∈ placesAround anchor size gap) :
    place.FloatsBeside anchor size gap := by
  obtain ⟨center, rfl, hcenter⟩ := center_of_mem_placesAround hplace
  have hclear : (Rect.centered center size).maxX + gap ≤ anchor.minX ∨
      anchor.maxX + gap ≤ (Rect.centered center size).minX ∨
      (Rect.centered center size).maxY + gap ≤ anchor.minY ∨
      anchor.maxY + gap ≤ (Rect.centered center size).minY := by
    simp only [Rect.centered, Nat.cast_ofNat]
    rcases hcenter with h | h | h | h
    · exact Or.inl (by linarith)
    · exact Or.inr (Or.inl (by linarith))
    · exact Or.inr (Or.inr (Or.inl (by linarith)))
    · exact Or.inr (Or.inr (Or.inr (by linarith)))
  have hbeside {a b : ℚ} (h : a + gap ≤ b) : a ≤ b := (le_add_of_nonneg_right hgap).trans h
  have hapart := Rect.overlapArea_eq_zero_of_beside
    (hclear.imp hbeside (Or.imp hbeside (Or.imp hbeside hbeside)))
  exact ⟨hanchor, Rect.width_centered center size, Rect.height_centered center size, hapart, hclear⟩

/-- A label is put at one of the places around its anchor. -/
lemma Drawing.labelBeside_mem (config : Config ℚ) (d : Drawing ℚ) (anchor : Rect ℚ)
    (size : Size ℚ) :
    d.labelBeside config anchor size ∈ placesAround anchor size config.border := by
  have hsome : placesAround anchor size config.border ≠ [] := by simp [placesAround]
  obtain ⟨place, hplace, -⟩ := d.exists_selectPlace config.lineWidth hsome
  unfold labelBeside
  dsimp only
  rw [List.getD_eq_getElem?_getD, hplace, Option.getD_some]
  exact List.mem_of_getElem? hplace

/-! ## Names -/

/-- A label is the box of a name: it has the size of the text and floats beside its anchor, or is
empty if there is no text or the name does not float. -/
def Rect.IsNameOf (label : Rect ℚ) (config : Config ℚ) (floats : Bool) (text : String)
    (anchor : Rect ℚ) : Prop :=
  if floats = true ∧ text ≠ "" then
    label.FloatsBeside anchor ⟨text.length * config.charWidth, config.lineHeight⟩ config.border
  else label = .empty

/-- A feature has the box of its name: that floats beside the symbol, unless the feature is listed
in a compartment. -/
def PlacedFeature.WellNamed (config : Config ℚ) (f : PlacedFeature ℚ) : Prop :=
  f.label.IsNameOf config (!f.element.kind.isCompartmentEntry) f.element.key f.symbol

/-- A relationship has the box of its name: that floats beside the middle of its main line, provided
that it is drawn. -/
def RoutedRelationship.WellNamed (config : Config ℚ) (r : RoutedRelationship ℚ) : Prop :=
  r.label.IsNameOf config r.isDrawn r.element.name (Drawing.relationshipAnchor config r)

/-- A feature that can be named: an entry of a compartment has no label and the symbol of anything
else is not reversed. -/
structure PlacedFeature.Nameable (f : PlacedFeature ℚ) : Prop where
  entry : f.element.kind.isCompartmentEntry = true → f.label = .empty
  symbol : f.element.kind.isCompartmentEntry = false → f.symbol.Ordered

variable {config : Config ℚ}

/-- What does not float has an empty label. -/
lemma Rect.isNameOf_empty {floats : Bool} {text : String} (h : floats = false ∨ text = "")
    (anchor : Rect ℚ) : Rect.empty.IsNameOf config floats text anchor := by
  refine (if_neg ?_).mpr rfl
  rintro ⟨hfloats, htext⟩
  rcases h with h | h
  · rw [h] at hfloats
    cases hfloats
  · exact htext h

/-- The size of a text that is not empty. -/
lemma Composer.textSize_ofConfig (config : Config ℚ) {text : String} (h : text ≠ "") :
    (Composer.ofConfig config).textSize text =
      ⟨text.length * config.charWidth, config.lineHeight⟩ :=
  if_neg (mt String.isEmpty_iff.mp h)

/-- Only the empty text has no size. -/
lemma Config.Usable.isZero_textSize (hconfig : config.Usable) {text : String} :
    ((Composer.ofConfig config).textSize text).isZero = true ↔ text = "" := by
  constructor
  · intro hzero
    by_contra hsome
    rw [Composer.textSize_ofConfig config hsome, Size.isZero, Bool.and_eq_true,
      Scalar.isZero_exact, Scalar.isZero_exact] at hzero
    exact hconfig.lineHeight.ne' hzero.2
  · rintro rfl
    rfl

namespace Drawing

/-- The place that is selected for a text is the box of a name. -/
lemma isNameOf_labelBeside (hconfig : config.Usable) (d : Drawing ℚ) {anchor : Rect ℚ}
    (hanchor : anchor.Ordered) {text : String} (htext : text ≠ "") :
    (d.labelBeside config anchor ((Composer.ofConfig config).textSize text)).IsNameOf config true
      text anchor := by
  refine (if_pos ⟨rfl, htext⟩).mpr ?_
  rw [← Composer.textSize_ofConfig config htext]
  exact floatsBeside_of_mem_placesAround hanchor hconfig.border (d.labelBeside_mem config anchor _)

/-! ## The names of features -/

/-- A feature can be named in its turn, and then it has the box of its name. -/
lemma wellNamed_placeFeatureLabel (hconfig : config.Usable) {d : Drawing ℚ} {i : ℕ}
    {f : PlacedFeature ℚ} (hf : d.features[i]? = some f) (hnameable : f.Nameable) :
    ∃ f', (d.placeFeatureLabel (.ofConfig config) config i).features[i]? = some f' ∧
      f'.Nameable ∧ f'.WellNamed config := by
  have hput {e : Drawing ℚ} {g : PlacedFeature ℚ} (hg : e.features[i]? = some g) (label : Rect ℚ) :
      (e.modifyFeature i fun g => { g with label }).features[i]? = some { g with label } := by
    simp [modifyFeature, hg]
  unfold placeFeatureLabel
  rw [hf]
  dsimp only
  split_ifs with hentry hsize
  · refine ⟨f, hf, hnameable, ?_⟩
    unfold PlacedFeature.WellNamed
    rw [hnameable.entry hentry, hentry]
    exact Rect.isNameOf_empty (Or.inl rfl) f.symbol
  · have hkey : f.element.key = "" := hconfig.isZero_textSize.mp hsize
    exact ⟨_, hput hf _, ⟨fun h => absurd h hentry, hnameable.symbol⟩,
      Rect.isNameOf_empty (Or.inr hkey) f.symbol⟩
  · have hfloats : f.element.kind.isCompartmentEntry = false := Bool.eq_false_iff.mpr hentry
    refine ⟨_, hput (hput hf _) _, ⟨fun h => absurd h hentry, hnameable.symbol⟩, ?_⟩
    unfold PlacedFeature.WellNamed
    dsimp only
    rw [hfloats]
    exact isNameOf_labelBeside hconfig _ (hnameable.symbol hfloats)
      (mt hconfig.isZero_textSize.mpr hsize)

/-- The turn of another feature leaves a feature as it is. -/
lemma getElem?_placeFeatureLabel (m : Composer ℚ) {i j : ℕ} (d : Drawing ℚ) (hij : j ≠ i) :
    (d.placeFeatureLabel m config j).features[i]? = d.features[i]? := by
  have hother (d : Drawing ℚ) (change : PlacedFeature ℚ → PlacedFeature ℚ) :
      (d.modifyFeature j change).features[i]? = d.features[i]? := by
    simp [modifyFeature, hij]
  unfold placeFeatureLabel
  split
  · rfl
  · dsimp only
    split_ifs
    · rfl
    · exact hother d _
    · rw [hother, hother]

/-- If all features can be named, they all have the box of their name in the end. -/
theorem wellNamed_layoutFeatureLabels (hconfig : config.Usable) {d : Drawing ℚ}
    (hnameable : ∀ f ∈ d.features, f.Nameable) :
    ∀ f ∈ (d.layoutFeatureLabels (.ofConfig config) config).features, f.WellNamed config := by
  refine forall_done_of_turns (fun e : Drawing ℚ => e.features) ?_ ?_ hnameable
  · intro e i f hf hf'
    exact wellNamed_placeFeatureLabel hconfig hf hf'
  · intro i j e hij
    exact getElem?_placeFeatureLabel _ e hij

/-! ## The names of relationships -/

/-- A relationship has the box of its name after its turn. -/
lemma wellNamed_placeRelationshipLabel (hconfig : config.Usable) {d : Drawing ℚ} {i : ℕ}
    {r : RoutedRelationship ℚ} (hr : d.relationships[i]? = some r) :
    ∃ r', (d.placeRelationshipLabel (.ofConfig config) config i).relationships[i]? = some r' ∧
      r'.WellNamed config := by
  have hput {e : Drawing ℚ} {g : RoutedRelationship ℚ} (hg : e.relationships[i]? = some g)
      (label : Rect ℚ) :
      (e.modifyRelationship i fun g => { g with label }).relationships[i]? =
        some { g with label } := by
    simp [modifyRelationship, hg]
  unfold placeRelationshipLabel
  rw [hr]
  dsimp only
  split_ifs with hsize
  · have hnone : r.isDrawn = false ∨ r.element.name = "" := by
      rw [Bool.or_eq_true, Bool.not_eq_true'] at hsize
      exact hsize.imp_right hconfig.isZero_textSize.mp
    exact ⟨_, hput hr _, Rect.isNameOf_empty hnone (relationshipAnchor config r)⟩
  · obtain ⟨hdrawn, hname⟩ : r.isDrawn = true ∧ r.element.name ≠ "" := by
      rw [Bool.or_eq_true, Bool.not_eq_true', not_or, Bool.not_eq_false] at hsize
      exact hsize.imp_right (mt hconfig.isZero_textSize.mpr)
    have hanchor : (relationshipAnchor config r).Ordered :=
      Rect.ordered_centered _ _ hconfig.lineWidth.le hconfig.lineWidth.le
    have hlabel := isNameOf_labelBeside hconfig
      (d.modifyRelationship i fun r => { r with label := .empty }) hanchor hname
    rw [← hdrawn] at hlabel
    exact ⟨_, hput (hput hr _) _, hlabel⟩

/-- The turn of another relationship leaves a relationship as it is. -/
lemma getElem?_placeRelationshipLabel (m : Composer ℚ) {i j : ℕ} (d : Drawing ℚ) (hij : j ≠ i) :
    (d.placeRelationshipLabel m config j).relationships[i]? = d.relationships[i]? := by
  have hother (d : Drawing ℚ) (change : RoutedRelationship ℚ → RoutedRelationship ℚ) :
      (d.modifyRelationship j change).relationships[i]? = d.relationships[i]? := by
    simp [modifyRelationship, hij]
  unfold placeRelationshipLabel
  split
  · rfl
  · dsimp only
    split_ifs
    · exact hother d _
    · rw [hother, hother]

/-- In the end all relationships have the box of their name. -/
theorem wellNamed_layoutRelationshipLabels (hconfig : config.Usable) (d : Drawing ℚ) :
    ∀ r ∈ (d.layoutRelationshipLabels (.ofConfig config) config).relationships,
      r.WellNamed config := by
  have hready : ∀ r ∈ d.relationships, (fun _ : RoutedRelationship ℚ => True) r :=
    fun _ _ => trivial
  refine forall_done_of_turns (fun e : Drawing ℚ => e.relationships) ?_ ?_ hready
  · rintro e i r hr -
    obtain ⟨r', hr', hnamed⟩ := wellNamed_placeRelationshipLabel hconfig hr
    exact ⟨r', hr', trivial, hnamed⟩
  · intro i j e hij
    exact getElem?_placeRelationshipLabel _ e hij

end Drawing

/-! ## Before the names -/

/-- A rectangle that spans two points is not reversed. -/
lemma Rect.ordered_spanning (p q : Point ℚ) : (spanning p q).Ordered := by
  constructor
  · simp only [spanning, Scalar.min_exact, Scalar.max_exact]
    exact min_le_max
  · simp only [spanning, Scalar.min_exact, Scalar.max_exact]
    exact min_le_max

/-- A feature that is no entry has a symbol that is not reversed once it is placed beside its
classifier. -/
lemma ordered_placeBeside (hconfig : config.Usable) (diagram : DiagramKind) (drawArea : Rect ℚ)
    {owner : PlacedClassifier ℚ} (howner : owner.boxes.symbol.Ordered) {f : PlacedFeature ℚ}
    (hentry : f.element.kind.isCompartmentEntry = false) :
    (placeBeside config diagram drawArea owner f).value.symbol.Ordered := by
  by_cases hkind : f.element.kind = .lifeline
  · rw [value_placeBeside_lifeline config diagram drawArea owner hkind]
    dsimp only
    unfold lifelineBar
    split_ifs
    · exact howner
    · cases diagram <;> first | exact Rect.ordered_spanning _ _ | exact howner
  · unfold placeBeside
    simp only [hentry, beq_iff_eq, hkind, iconBox, Bool.false_eq_true, if_false,
      Guarded.value_bind, Guarded.value_pure]
    exact Rect.ordered_centered _ _ hconfig.iconSize.le hconfig.iconSize.le

namespace Stages

variable {start : Drawing ℚ}

/-- Until features are placed they are what they are at first. -/
lemma features_settled (t : Stages (.ofConfig config) config start) :
    t.settled.features = start.features := by
  have hestimated : t.estimated.features = start.initVisibility.features := by
    rw [t.estimated_eq]
    rfl
  rw [t.settled_eq, (Drawing.relates_hideNested _).features_eq, t.gathered_eq,
    (Drawing.reboxes_gatherGroups _ config _).features_eq, t.hidden_eq,
    (Drawing.relates_hideNested _).features_eq, t.grown_eq,
    (Drawing.reboxes_embraceChildren _ config _).features_eq, t.spread_eq,
    (Drawing.reboxes_moveApart config _).features_eq, hestimated,
    (Drawing.relates_initVisibility start).features_eq]

/-- When the names get their turns, all features can be named. -/
lemma nameable_routed (hconfig : config.Usable) (t : Stages (.ofConfig config) config start)
    (hin : start.InRange) (hunnamed : start.Unnamed) : ∀ f ∈ t.routed.features, f.Nameable := by
  rw [t.routed_eq, (Drawing.kept_routeAll config _).2]
  intro f hf
  constructor
  · intro _
    have hfurnished : t.furnished.Unnamed := by
      rw [t.furnished_eq, Drawing.layoutFeatures, Guarded.value_foldlM]
      refine List.foldlRecOn _ _ ?_ fun e he i _ => he.layoutFeaturesOf i
      rw [Drawing.Unnamed, t.features_settled]
      exact hunnamed
    exact hfurnished f hf
  · intro hentry
    obtain ⟨i, hi⟩ := List.mem_iff_getElem?.mp hf
    rw [t.furnished_eq] at hi
    have hkept := Drawing.refeatures_layoutFeatures (.ofConfig config) config t.settled
    obtain ⟨f₀, hf₀, hsame⟩ := getElem?_of_map_eq hkept.map_features.symm hi
    have hentry₀ : f₀.element.kind.isCompartmentEntry = false :=
      (congrArg (fun o : Feature × ℕ => o.1.kind.isCompartmentEntry) hsame).trans hentry
    have hsettled := t.keepsRecords t.settled (by simp [toList])
    have howner : f₀.owner < t.settled.classifiers.length :=
      (hin.of_keepsRecords hsettled).owners f₀ (List.mem_of_getElem? hf₀)
    obtain ⟨owner, howner⟩ : ∃ owner, t.settled.classifiers[f₀.owner]? = some owner :=
      ⟨_, List.getElem?_eq_getElem howner⟩
    rw [Drawing.beside_layoutFeatures _ config hf₀ hentry₀ howner, Option.some.injEq] at hi
    rw [← hi]
    refine ordered_placeBeside hconfig _ _ ?_ hentry₀
    rw [← Drawing.boxes_of_getElem? howner]
    exact (t.sound hconfig t.settled (by simp [toList]) f₀.owner).symbol

end Stages

/-! ## The names of a layout -/

/-- Every set that passes the checks has a layout in which all names are where they belong. A
feature that is not listed in a compartment and has a key has a label of the size of the key, which
keeps the border from the symbol of the feature; a relationship that is drawn and has a name has a
label of the size of the name, which keeps the border from the square on the middle of its main
line; and the labels of all others are empty. -/
theorem ElementSet.layout_wellNamed {bounds : Rect ℚ} {s : ElementSet} {start : Drawing ℚ}
    (hprepare : s.prepare config bounds = .ok start) :
    ∃ d, s.layout (.ofConfig config) config bounds = .ok ⟨d, true⟩ ∧
      d.features.map (·.element) = s.features ∧
      d.relationships.map (·.element) = s.relationships ∧
      (∀ f ∈ d.features, f.WellNamed config) ∧ ∀ r ∈ d.relationships, r.WellNamed config := by
  obtain ⟨hconfig, -⟩ := prepare_eq_ok hprepare
  have hblank := blank_of_prepare hprepare
  have t := start.stages (.ofConfig config) config
  have hlayout : s.layout (.ofConfig config) config bounds = .ok ⟨t.named, true⟩ := by
    rw [layout_eq_ok hprepare, ← t.value_complete_eq, ← start.defined_complete]
  have hrecorded := recordedIn_of_layout hlayout
  refine ⟨t.named, hlayout, hrecorded.features, hrecorded.relationships, ?_, ?_⟩
  · -- the names of relationships leave the features alone
    rw [t.named_eq, (Drawing.relates_layoutRelationshipLabels _ config _).features_eq, t.labeled_eq]
    exact Drawing.wellNamed_layoutFeatureLabels hconfig
      (t.nameable_routed hconfig hblank.inRange hblank.features)
  · rw [t.named_eq]
    exact Drawing.wellNamed_layoutRelationshipLabels hconfig t.labeled

/-- A component with a port and an operation in a package, and a line with a name to another
component. -/
def wiredComponents : ElementSet where
  diagram := ⟨⟨1⟩, .component, ""⟩
  limits := .standard
  classifiers :=
    [⟨⟨1⟩, .package, "Plant", 0, 0, false⟩, ⟨⟨2⟩, .component, "Boiler", 0, 0, false⟩,
      ⟨⟨3⟩, .component, "Valve", 1, 0, false⟩]
  features := [⟨⟨11⟩, ⟨2⟩, .port, "in", "", 0⟩, ⟨⟨12⟩, ⟨2⟩, .operation, "open", "", 5⟩]
  relationships :=
    [⟨⟨101⟩, .containment, "holds", ⟨1⟩, ⟨2⟩, none, none, 0⟩,
      ⟨⟨102⟩, .dependency, "feeds", ⟨3⟩, ⟨2⟩, none, none, 0⟩]

/-- The drawing of the components before anything is computed. -/
def wiredComponentsStart : Drawing ℚ where
  diagram := wiredComponents.diagram
  sheet := .ofBounds (.ofCorner 0 0 800 600) .standard .xy
  nesting := .ofElements wiredComponents 4
  classifiers := wiredComponents.classifiers.map (⟨·, .unplaced⟩)
  features := wiredComponents.features.map (⟨·, 1, .empty, .empty, .center⟩)
  relationships :=
    [⟨⟨⟨101⟩, .containment, "holds", ⟨1⟩, ⟨2⟩, none, none, 0⟩, 0, 1, none, none, .collapsed, .shown,
        .empty⟩,
      ⟨⟨⟨102⟩, .dependency, "feeds", ⟨3⟩, ⟨2⟩, none, none, 0⟩, 2, 1, none, none, .collapsed, .shown,
        .empty⟩]

/-- In the layout of the components all names are where they belong. -/
theorem layout_wellNamed_wiredComponents :
    wiredComponents.prepare .standard (.ofCorner 0 0 800 600) = .ok wiredComponentsStart ∧
      ∃ d, wiredComponents.layout (.ofConfig .standard) .standard (.ofCorner 0 0 800 600) =
          .ok ⟨d, true⟩ ∧
        d.features.map (·.element) = wiredComponents.features ∧
        d.relationships.map (·.element) = wiredComponents.relationships ∧
        (∀ f ∈ d.features, f.WellNamed .standard) ∧
        ∀ r ∈ d.relationships, r.WellNamed .standard :=
  have hprepare : wiredComponents.prepare .standard (.ofCorner 0 0 800 600) =
      .ok wiredComponentsStart := by
    decide +kernel
  ⟨hprepare, ElementSet.layout_wellNamed hprepare⟩

end DiagramLayout
