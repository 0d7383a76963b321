import DiagramLayout.Proofs.Compartments
import DiagramLayout.Proofs.Refusal
import DiagramLayout.Proofs.Routing.Timed
import DiagramLayout.Proofs.Scale.Locating
import DiagramLayout.Proofs.Translation.Geometry

/-!
# Where classifiers begin

The first step of the layout gives every classifier a space with room for its entries and puts the
center of its symbol where its keys lie on the grid (`Drawing.placedByKeys_estimateBounds`). Three
things fit together for this.

* The grid of a new drawing covers the draw area. On an axis that places classifiers their keys are
  registered, which is a run of changes from the scale that spans the area. So the scale is sound,
  and its range is that of the area (`Drawing.sound_scale_registerKeys`).
* Boxes are put in place by one offset for all of them. It is measured at the symbol, not at the
  envelope, so the symbol ends up in its place whatever label it has (`center_placeOnGrid`), and the
  space has the size that it was given.
* Along a time axis no key is asked. The offset brings the edge of the symbol to the distance from
  the edge of the draw area, however large the symbol is (`startAlong_placeOnGrid`).
-/

namespace DiagramLayout

/-- The key that places a classifier along an axis. -/
def Classifier.keyAlong (c : Classifier) : Axis → OrderKey
  | .x => c.xKey
  | .y => c.yKey

/-! ## Scales with registered keys -/

namespace Scale

/-- Registering keys on a scale without anchors is a run of changes. -/
lemma foldl_addKey_spanning {α : Type} [Scalar α] (lower upper : α) (keys : List OrderKey) :
    keys.foldl addKey (spanning lower upper) = built lower upper (keys.map .addKey) := by
  rw [built, List.foldl_map]
  rfl

/-- Registering keys leaves the range as it is. -/
lemma lastRange_map_addKey {α : Type} (lower upper : α) (keys : List OrderKey) :
    lastRange lower upper (keys.map .addKey) = (lower, upper) := by
  rw [lastRange, List.foldl_map]
  exact List.foldlRecOn keys _ (motive := fun range => range = (lower, upper)) rfl
    fun _ hrange _ _ => hrange

namespace Sound

variable {s : Scale ℚ} (hs : s.Sound) (hrange : s.lower < s.upper) {key key' : OrderKey}

include hs hrange

/-- Over a range of some length locations compare as their keys. -/
lemma location_lt_iff : s.location key < s.location key' ↔ key < key' := by
  constructor
  · intro hlt
    by_contra hge
    exact absurd (hs.location_mono (Int32.not_lt.mp hge)) (not_le.mpr hlt)
  · exact hs.location_strictMono hrange

/-- Over a range of some length different keys have different locations. -/
lemma location_inj : s.location key = s.location key' ↔ key = key' := by
  constructor
  · intro heq
    have hge : ¬ key < key' := fun hlt =>
      (hs.location_strictMono hrange hlt).ne heq
    have hle : ¬ key' < key := fun hlt =>
      (hs.location_strictMono hrange hlt).ne' heq
    exact Int32.le_antisymm (Int32.not_lt.mp hle) (Int32.not_lt.mp hge)
  · rintro rfl
    rfl

end Sound

end Scale

namespace Drawing

/-- On the grid of a new drawing the scale along each axis is sound, and its range is that of the
draw area. -/
lemma sound_scale_registerKeys {d : Drawing ℚ} {bounds : Rect ℚ} {config : Config ℚ}
    {kind : GridKind} (hsheet : d.sheet = .ofBounds bounds config kind) (axis : Axis) :
    (d.registerKeys.sheet.grid.scale axis).Sound ∧
      (d.registerKeys.sheet.grid.scale axis).lower = d.sheet.drawArea.startAlong axis ∧
      (d.registerKeys.sheet.grid.scale axis).upper = d.sheet.drawArea.endAlong axis := by
  have hordered : d.sheet.drawArea.startAlong axis ≤ d.sheet.drawArea.endAlong axis := by
    have harea := Rect.shrink_ordered bounds config.borderInsets
    rw [hsheet]
    cases axis with
    | x => exact harea.x
    | y => exact harea.y
  have hspanning : d.sheet.grid.scale axis =
      .spanning (d.sheet.drawArea.startAlong axis) (d.sheet.drawArea.endAlong axis) := by
    rw [hsheet]
    cases axis <;> rfl
  -- along a time axis it is the run that registers nothing
  obtain ⟨keys, hkeys⟩ : ∃ keys : List OrderKey, d.registerKeys.sheet.grid.scale axis =
      .built (d.sheet.drawArea.startAlong axis) (d.sheet.drawArea.endAlong axis)
        (keys.map .addKey) := by
    rw [scale_registerKeys_eq, hspanning]
    split_ifs
    · exact ⟨_, Scale.foldl_addKey_spanning _ _ _⟩
    · exact ⟨[], rfl⟩
  have hrange := Scale.range_built (d.sheet.drawArea.startAlong axis)
    (d.sheet.drawArea.endAlong axis) (keys.map .addKey)
  rw [← hkeys, Scale.lastRange_map_addKey, Scale.orderedRange, if_pos hordered] at hrange
  obtain ⟨hlower, hupper⟩ := Prod.mk.inj hrange
  have hbuilt : (d.registerKeys.sheet.grid.scale axis).IsBuilt := ⟨_, _, _, hkeys.symm⟩
  exact ⟨hbuilt.sound, hlower, hupper⟩

end Drawing

/-! ## Boxes in place -/

section Placing

variable (config : Config ℚ) {sheet : Sheet ℚ} {axis : Axis} (c : Classifier)

/-- On an axis that places classifiers a center belongs where the key lies. -/
lemma gridTarget_along (hplaces : sheet.grid.kind.places axis = true) (symbol : Rect ℚ) :
    (gridTarget config sheet c symbol).along axis =
      (sheet.grid.scale axis).location (c.keyAlong axis) := by
  unfold gridTarget
  cases hkind : sheet.grid.kind <;> cases axis <;>
    first
    | rfl
    | (rw [hkind] at hplaces; cases hplaces)

/-- The symbol of boxes that have been put in place is centered where it belongs. -/
lemma center_placeOnGrid (boxes : ClassifierBoxes ℚ) :
    (placeOnGrid config sheet c boxes).symbol.center = gridTarget config sheet c boxes.symbol := by
  have hcenter : (placeOnGrid config sheet c boxes).symbol.center =
      boxes.symbol.center + (gridTarget config sheet c boxes.symbol - boxes.symbol.center) :=
    Rect.center_translate _ _
  rw [hcenter]
  generalize gridTarget config sheet c boxes.symbol = target
  obtain ⟨x, y⟩ := target
  exact congrArg₂ Point.mk (add_sub_cancel _ _) (add_sub_cancel _ _)

/-- Along a time axis the symbol of boxes that have been put in place begins at the distance from
the edge of the draw area. -/
lemma startAlong_placeOnGrid (haxis : sheet.grid.kind.timeAxis = some axis)
    (boxes : ClassifierBoxes ℚ) :
    (placeOnGrid config sheet c boxes).symbol.startAlong axis =
      sheet.drawArea.startAlong axis + config.distance := by
  cases hkind : sheet.grid.kind with
  | xy =>
    rw [hkind] at haxis
    cases haxis
  | timeY =>
    obtain rfl : Axis.y = axis := by
      rw [hkind] at haxis
      exact Option.some.inj haxis
    simp only [placeOnGrid, gridTarget, hkind, ClassifierBoxes.translate, Rect.startAlong,
      Rect.translate, Rect.center, Rect.height, Point.sub_y, Scalar.num_exact]
    ring
  | timeX =>
    obtain rfl : Axis.x = axis := by
      rw [hkind] at haxis
      exact Option.some.inj haxis
    simp only [placeOnGrid, gridTarget, hkind, ClassifierBoxes.translate, Rect.startAlong,
      Rect.translate, Rect.center, Rect.width, Point.sub_x, Scalar.num_exact]
    ring

end Placing

/-! ## The first step -/

namespace Drawing

/-- Every classifier has a space with room for its entries and lies where its keys place it.

On the axes that place classifiers the centers of symbols are `within` the draw area and `ordered`
as their keys, if the draw area has any extent there; equal keys are `aligned` in any case. Along a
time axis all symbols begin in one row or column, at the preferred distance from the edge. -/
structure PlacedByKeys (config : Config ℚ) (d : Drawing ℚ) : Prop where
  room : ∀ i < d.classifiers.length, d.SpaceSuffices config i
  aligned : ∀ axis, d.sheet.grid.kind.places axis = true →
    ∀ c ∈ d.classifiers, ∀ c' ∈ d.classifiers,
      c.element.keyAlong axis = c'.element.keyAlong axis →
        c.boxes.symbol.center.along axis = c'.boxes.symbol.center.along axis
  ordered : ∀ axis, d.sheet.grid.kind.places axis = true →
    d.sheet.drawArea.startAlong axis < d.sheet.drawArea.endAlong axis →
      ∀ c ∈ d.classifiers, ∀ c' ∈ d.classifiers,
        (c.boxes.symbol.center.along axis < c'.boxes.symbol.center.along axis ↔
          c.element.keyAlong axis < c'.element.keyAlong axis) ∧
        (c.boxes.symbol.center.along axis = c'.boxes.symbol.center.along axis ↔
          c.element.keyAlong axis = c'.element.keyAlong axis)
  within : ∀ axis, d.sheet.grid.kind.places axis = true → ∀ c ∈ d.classifiers,
    d.sheet.drawArea.startAlong axis ≤ c.boxes.symbol.center.along axis ∧
      c.boxes.symbol.center.along axis ≤ d.sheet.drawArea.endAlong axis
  row : ∀ axis, d.sheet.grid.kind.timeAxis = some axis → ∀ c ∈ d.classifiers,
    c.boxes.symbol.startAlong axis = d.sheet.drawArea.startAlong axis + config.distance

variable {config : Config ℚ} {d : Drawing ℚ}

/-- The first step leaves what the grid measures. -/
lemma kind_estimateBounds (m : Composer ℚ) (config : Config ℚ) (d : Drawing ℚ) :
    (d.estimateBounds m config).sheet.grid.kind = d.sheet.grid.kind :=
  kind_registerKeys d

/-- After the first step every classifier has boxes that have been put in place. -/
lemma exists_placeOnGrid_of_mem (m : Composer ℚ) {c : PlacedClassifier ℚ}
    (hc : c ∈ (d.estimateBounds m config).classifiers) :
    ∃ boxes, c.boxes = placeOnGrid config d.registerKeys.sheet c.element boxes := by
  obtain ⟨i, hi, rfl⟩ := List.mem_mapIdx.mp hc
  exact ⟨_, rfl⟩

/-- After the first step the center of every symbol is, on an axis that places classifiers, at the
location of its key. -/
lemma center_estimateBounds (m : Composer ℚ) {axis : Axis}
    (hplaces : d.sheet.grid.kind.places axis = true) {c : PlacedClassifier ℚ}
    (hc : c ∈ (d.estimateBounds m config).classifiers) :
    c.boxes.symbol.center.along axis =
      (d.registerKeys.sheet.grid.scale axis).location (c.element.keyAlong axis) := by
  obtain ⟨boxes, hboxes⟩ := exists_placeOnGrid_of_mem m hc
  rw [← kind_registerKeys d] at hplaces
  rw [hboxes, center_placeOnGrid, gridTarget_along config c.element hplaces]

/-- After the first step every symbol begins, along a time axis, at the distance from the edge of
the draw area. -/
lemma startAlong_estimateBounds (m : Composer ℚ) {axis : Axis}
    (haxis : d.sheet.grid.kind.timeAxis = some axis) {c : PlacedClassifier ℚ}
    (hc : c ∈ (d.estimateBounds m config).classifiers) :
    c.boxes.symbol.startAlong axis = d.sheet.drawArea.startAlong axis + config.distance := by
  obtain ⟨boxes, hboxes⟩ := exists_placeOnGrid_of_mem m hc
  rw [← kind_registerKeys d] at haxis
  rw [hboxes, startAlong_placeOnGrid config c.element haxis]
  rfl

/-- The first step places the classifiers of a new drawing by their keys. -/
theorem placedByKeys_estimateBounds (hconfig : config.Usable) {bounds : Rect ℚ} {kind : GridKind}
    (hsheet : d.sheet = .ofBounds bounds config kind) :
    (d.estimateBounds (.ofConfig config) config).PlacedByKeys config := by
  have harea : (d.estimateBounds (.ofConfig config) config).sheet.drawArea = d.sheet.drawArea := rfl
  constructor
  case room =>
    intro i hi
    rw [length_classifiers_estimateBounds] at hi
    exact spaceSuffices_estimateBounds hconfig hi
  all_goals
    intro axis haxis
    rw [kind_estimateBounds] at haxis
  case aligned =>
    intro c hc c' hc' hkeys
    rw [center_estimateBounds _ haxis hc, center_estimateBounds _ haxis hc', hkeys]
  case ordered =>
    obtain ⟨hsound, hlower, hupper⟩ := sound_scale_registerKeys hsheet axis
    intro hextent c hc c' hc'
    rw [harea, ← hlower, ← hupper] at hextent
    rw [center_estimateBounds _ haxis hc, center_estimateBounds _ haxis hc']
    exact ⟨hsound.location_lt_iff hextent, hsound.location_inj hextent⟩
  case within =>
    obtain ⟨hsound, hlower, hupper⟩ := sound_scale_registerKeys hsheet axis
    intro c hc
    rw [center_estimateBounds _ haxis hc, harea, ← hlower, ← hupper]
    exact hsound.location_within_range _
  case row =>
    intro c hc
    exact startAlong_estimateBounds _ haxis hc

end Drawing

/-- For every set whose references lead somewhere, and with every valid configuration, the first
step places the classifiers of the set by their keys on the grid of its diagram, before the
visibilities of its relationships have been chosen and afterwards. -/
theorem ElementSet.estimateBounds_placesByKeys {config : Config ℚ}
    (hconfig : config.validate = .ok ()) {bounds : Rect ℚ} {s : ElementSet} {start : Drawing ℚ}
    (hresolved : Drawing.ofElements s bounds config = .ok start) :
    ∀ d ∈ [start, start.initVisibility],
      (d.estimateBounds (.ofConfig config) config).PlacedByKeys config ∧
        s.RecordedIn (d.estimateBounds (.ofConfig config) config) ∧
        (d.estimateBounds (.ofConfig config) config).sheet.grid.kind = s.diagram.kind.gridKind ∧
        (d.estimateBounds (.ofConfig config) config).sheet.drawArea =
          bounds.shrink config.borderInsets := by
  intro d hd
  have hstart : s.RecordedIn start := Drawing.recordedIn_of_ofElements hresolved
  have hsheetStart := (Drawing.ofElements_eq_ok hresolved).2
  obtain ⟨hrecorded, hsheet⟩ :
      s.RecordedIn d ∧ d.sheet = .ofBounds bounds config s.diagram.kind.gridKind := by
    rcases List.mem_pair.mp hd with rfl | rfl
    · exact ⟨hstart, hsheetStart⟩
    · refine ⟨hstart.of_keepsRecords start.keepsRecords_initVisibility, ?_⟩
      rw [(Drawing.relates_initVisibility start).sheet_eq, hsheetStart]
  refine ⟨Drawing.placedByKeys_estimateBounds (Config.usable_of_validate hconfig) hsheet,
    hrecorded.of_keepsRecords (Drawing.keepsRecords_estimateBounds _ config d), ?_, ?_⟩
  · rw [Drawing.kind_estimateBounds, hsheet]
    rfl
  · have harea : (d.estimateBounds (.ofConfig config) config).sheet.drawArea =
        d.sheet.drawArea := rfl
    rw [harea, hsheet]
    rfl

/-- The heads of two objects in a sequence diagram begin in one row and stand in the order of their
keys, on a draw area that has room for that. -/
theorem estimateBounds_placesByKeys_exchange :
    (Config.standard : Config ℚ).validate = .ok () ∧
      Drawing.ofElements exchange exchangeBounds (Config.standard : Config ℚ) = .ok exchangeStart ∧
      exchangeStart.sheet.drawArea.startAlong .x < exchangeStart.sheet.drawArea.endAlong .x ∧
      (exchangeStart.estimateBounds (.ofConfig .standard) .standard).PlacedByKeys .standard := by
  have hvalid : (Config.standard : Config ℚ).validate = .ok () := by decide +kernel
  have hresolved :
      Drawing.ofElements exchange exchangeBounds (Config.standard : Config ℚ) =
        .ok exchangeStart := by decide +kernel
  exact ⟨hvalid, hresolved, by decide +kernel,
    (ElementSet.estimateBounds_placesByKeys hvalid hresolved _ List.mem_cons_self).1⟩

end DiagramLayout
