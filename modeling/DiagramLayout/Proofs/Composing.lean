import DiagramLayout.Composer
import DiagramLayout.Proofs.Rect

/-!
# Composed boxes

The boxes that a composer makes are *sound*: symbol and space are ordered and the space lies within
the symbol without its border (`Composer.sound_aroundEnvelope`). Composing around a space gives
exactly that space back, in all three shapes (`Composer.space_aroundSpace`): what the strip for the
name and the borders add to the space is taken away again in the same order.

All this asks of the metrics is what `Config.validate` checks.
-/

namespace DiagramLayout

/-! ## Usable metrics -/

/-- A configuration that passes its check. -/
structure Config.Usable (c : Config ℚ) : Prop where
  border : 0 ≤ c.border
  distance : 0 < c.distance
  classifierWidth : 0 < c.classifierWidth
  classifierHeight : 0 < c.classifierHeight
  lineHeight : 0 < c.lineHeight
  charWidth : 0 < c.charWidth
  iconSize : 0 < c.iconSize
  lineWidth : 0 < c.lineWidth

/-- Every metric but the border is accepted exactly if it is positive. -/
lemma Metric.accepts_exact {metric : Metric} (h : metric ≠ .border) {value : ℚ} :
    metric.accepts value = true ↔ 0 < value := by
  cases metric <;> simp [accepts] at h ⊢

/-- The border is accepted exactly if it is not negative. -/
lemma Metric.accepts_border_exact {value : ℚ} : border.accepts value = true ↔ 0 ≤ value := by
  simp [accepts]

/-- The check of a configuration passes exactly if every metric is accepted. -/
lemma Config.validate_eq_ok {c : Config ℚ} :
    c.validate = .ok () ↔ ∀ metric ∈ Metric.all, metric.accepts (c.metric metric) = true := by
  unfold validate
  cases hfirst : c.invalidMetric? with
  | none =>
    rw [invalidMetric?, List.find?_eq_none] at hfirst
    simpa using hfirst
  | some metric =>
    have hmem := List.mem_of_find?_eq_some hfirst
    have hbad := List.find?_some hfirst
    constructor
    · intro h
      cases h
    · intro hall
      simp [hall metric hmem] at hbad

/-- A configuration that passes its check is usable. -/
theorem Config.usable_of_validate {c : Config ℚ} (h : c.validate = .ok ()) : c.Usable := by
  have haccepts := Config.validate_eq_ok.mp h
  constructor
  · exact Metric.accepts_border_exact.mp (haccepts .border (by decide))
  · exact (Metric.accepts_exact (by decide)).mp (haccepts .distance (by decide))
  · exact (Metric.accepts_exact (by decide)).mp (haccepts .classifierWidth (by decide))
  · exact (Metric.accepts_exact (by decide)).mp (haccepts .classifierHeight (by decide))
  · exact (Metric.accepts_exact (by decide)).mp (haccepts .lineHeight (by decide))
  · exact (Metric.accepts_exact (by decide)).mp (haccepts .charWidth (by decide))
  · exact (Metric.accepts_exact (by decide)).mp (haccepts .iconSize (by decide))
  · exact (Metric.accepts_exact (by decide)).mp (haccepts .lineWidth (by decide))

/-- What composing asks of the metrics of a composer. -/
structure Composer.Usable (m : Composer ℚ) : Prop where
  border : 0 ≤ m.border
  lineHeight : 0 < m.lineHeight
  charWidth : 0 < m.charWidth

/-- The composer of a usable configuration is usable. -/
lemma Config.Usable.composer {c : Config ℚ} (h : c.Usable) : (Composer.ofConfig c).Usable :=
  ⟨h.border, h.lineHeight, h.charWidth⟩

/-! ## Shrinking -/

namespace Rect

/-- An axis that is narrowed is not reversed, even if nothing was left of it. -/
lemma shrinkAxis_ordered (low high atLow atHigh : ℚ) :
    (shrinkAxis low high atLow atHigh).1 ≤ (shrinkAxis low high atLow atHigh).2 := by
  unfold shrinkAxis
  split_ifs with hnone
  · exact le_rfl
  · exact not_lt.mp hnone

/-- An axis in order keeps its ends outside the narrowed one. -/
lemma shrinkAxis_within {low high atLow atHigh : ℚ} (h : low ≤ high) (hlow : 0 ≤ atLow)
    (hhigh : 0 ≤ atHigh) :
    low ≤ (shrinkAxis low high atLow atHigh).1 ∧ (shrinkAxis low high atLow atHigh).2 ≤ high := by
  unfold shrinkAxis
  split_ifs
  · simp only [Scalar.num_exact]
    constructor <;> push_cast <;> linarith
  · constructor <;> dsimp only <;> linarith

/-- An axis with room for the insets is narrowed by them. -/
lemma shrinkAxis_of_le {low high atLow atHigh : ℚ} (h : low + atLow ≤ high - atHigh) :
    shrinkAxis low high atLow atHigh = (low + atLow, high - atHigh) :=
  if_neg (not_lt.mpr h)

/-- Narrowing further at the lower end stays within, also if the rest collapses. A larger inset that
takes the whole axis collapses it just as the smaller ones do. -/
lemma shrinkAxis_nested {low high header border : ℚ} (h : low ≤ high)
    (hheader : border ≤ header ∨ header = high - low) :
    (shrinkAxis low high border border).1 ≤ (shrinkAxis low high header border).1 ∧
      (shrinkAxis low high header border).2 ≤ (shrinkAxis low high border border).2 := by
  unfold shrinkAxis
  simp only [Scalar.num_exact]
  split_ifs with hboth hheaderOnly
  · exact ⟨le_rfl, le_rfl⟩
  · -- a header that takes the whole axis is not below the border only if there is none
    rcases hheader with hle | hall <;> constructor <;> push_cast <;> linarith
  · constructor <;> push_cast <;> linarith
  · rcases hheader with hle | hall <;> constructor <;> dsimp only <;> linarith

/-- A shrunk rectangle is ordered. -/
lemma shrink_ordered (r : Rect ℚ) (insets : Insets ℚ) : (r.shrink insets).Ordered :=
  ⟨shrinkAxis_ordered _ _ _ _, shrinkAxis_ordered _ _ _ _⟩

/-- A rectangle in order contains what is left when it is shrunk. -/
lemma Ordered.contains_shrink {r : Rect ℚ} (hr : r.Ordered) {border : ℚ} (hborder : 0 ≤ border) :
    r.contains (r.shrink (.uniform border)) = true := by
  obtain ⟨hx, hX⟩ := shrinkAxis_within hr.x hborder hborder
  obtain ⟨hy, hY⟩ := shrinkAxis_within hr.y hborder hborder
  exact contains_iff.mpr ⟨hx, hy, hX, hY⟩

/-- Shrinking and moving commute. -/
lemma shrink_translate (r : Rect ℚ) (insets : Insets ℚ) (v : Point ℚ) :
    (r.translate v).shrink insets = (r.shrink insets).translate v := by
  have haxis (low high atLow atHigh d : ℚ) :
      shrinkAxis (low + d) (high + d) atLow atHigh =
        ((shrinkAxis low high atLow atHigh).1 + d, (shrinkAxis low high atLow atHigh).2 + d) := by
    unfold shrinkAxis
    have hiff : high + d - atHigh < low + d + atLow ↔ high - atHigh < low + atLow := by
      constructor <;> intro h <;> linarith
    simp only [hiff, Scalar.num_exact]
    split_ifs
    · simp only [Prod.mk.injEq]
      constructor <;> push_cast <;> ring
    · simp only [Prod.mk.injEq]
      constructor <;> ring
  unfold shrink
  simp only [translate_minX, translate_minY, translate_maxX, translate_maxY, haxis]
  rfl

end Rect

/-! ## Sound boxes -/

/-- Symbol and space are ordered, and the space keeps the border from the symbol. -/
structure ClassifierBoxes.Sound (border : ℚ) (b : ClassifierBoxes ℚ) : Prop where
  symbol : b.symbol.Ordered
  space : b.space.Ordered
  inner : (b.symbol.shrink (.uniform border)).contains b.space = true

/-- Symbol and space are ordered, and the space lies in the symbol. -/
structure ClassifierBoxes.Proper (b : ClassifierBoxes ℚ) : Prop where
  symbol : b.symbol.Ordered
  space : b.space.Ordered
  inner : b.symbol.contains b.space = true

namespace ClassifierBoxes

/-- The envelope moves with the boxes. -/
@[simp] lemma envelope_translate (b : ClassifierBoxes ℚ) (v : Point ℚ) :
    (b.translate v).envelope = b.envelope.translate v :=
  envelopeOf_translate b.symbol b.label v

/-- An offset of zero moves no box. -/
@[simp] lemma translate_origin (b : ClassifierBoxes ℚ) : b.translate .origin = b := by
  simp [translate]

namespace Proper

variable {b : ClassifierBoxes ℚ}

/-- The envelope of proper boxes is ordered. -/
lemma envelope (h : b.Proper) : b.envelope.Ordered :=
  h.symbol.envelopeOf b.label

/-- The envelope of proper boxes contains their space. -/
lemma envelope_contains_space (h : b.Proper) : b.envelope.contains b.space = true :=
  Rect.contains_trans (contains_envelopeOf b.symbol b.label) h.inner

end Proper

namespace Sound

variable {border : ℚ} {b : ClassifierBoxes ℚ}

/-- Sound boxes stay sound when they are moved. -/
lemma translate (h : b.Sound border) (v : Point ℚ) : (b.translate v).Sound border where
  symbol := h.symbol.translate v
  space := h.space.translate v
  inner := by
    change ((b.symbol.translate v).shrink _).contains (b.space.translate v) = true
    rw [Rect.shrink_translate, Rect.contains_translate]
    exact h.inner

/-- The envelope of sound boxes is ordered. -/
lemma envelope (h : b.Sound border) : b.envelope.Ordered :=
  h.symbol.envelopeOf b.label

/-- Sound boxes are proper. -/
lemma proper (h : b.Sound border) (hborder : 0 ≤ border) : b.Proper :=
  ⟨h.symbol, h.space, Rect.contains_trans (h.symbol.contains_shrink hborder) h.inner⟩

/-- The envelope of sound boxes contains their space. -/
lemma envelope_contains_space (h : b.Sound border) (hborder : 0 ≤ border) :
    b.envelope.contains b.space = true :=
  (h.proper hborder).envelope_contains_space

end Sound

end ClassifierBoxes

/-! ## Composing -/

namespace Composer

variable {m : Composer ℚ}

/-- The strip for the name is higher than the border. -/
lemma Usable.border_lt_headerHeight (hm : m.Usable) : m.border < m.headerHeight := by
  have hb := hm.border
  have hl := hm.lineHeight
  unfold headerHeight
  simp only [Scalar.num_exact]
  push_cast
  linarith

/-- Boxes composed around an ordered envelope are sound. -/
theorem sound_aroundEnvelope (hm : m.Usable) (c : Classifier) {envelope : Rect ℚ}
    (h : envelope.Ordered) (nests : Bool) :
    (m.aroundEnvelope c envelope nests).Sound m.border := by
  obtain ⟨hx, hy⟩ := h
  have hheight : max envelope.height 0 = envelope.height := max_eq_left (sub_nonneg.mpr hy)
  have hwidth : max envelope.width 0 = envelope.width := max_eq_left (sub_nonneg.mpr hx)
  have hheader : min m.headerHeight envelope.height ≤ envelope.height := min_le_right _ _
  unfold aroundEnvelope
  simp only [Scalar.min_exact, Scalar.max_exact, hheight, hwidth]
  cases Shape.of c.kind nests with
  | nesting | figure =>
    refine ⟨⟨?_, ?_⟩, Rect.shrink_ordered _ _, Rect.contains_self _⟩
    · exact le_add_of_nonneg_right (sub_nonneg.mpr hx)
    · exact le_add_of_nonneg_right (sub_nonneg.mpr hheader)
  | plain =>
    refine ⟨⟨hx, hy⟩, Rect.shrink_ordered _ _, Rect.contains_iff.mpr ?_⟩
    have hcase : m.border ≤ min m.headerHeight envelope.height ∨
        min m.headerHeight envelope.height = envelope.maxY - envelope.minY := by
      rcases min_choice m.headerHeight envelope.height with hall | hall <;> rw [hall]
      · exact Or.inl hm.border_lt_headerHeight.le
      · exact Or.inr rfl
    obtain ⟨htop, hbottom⟩ := Rect.shrinkAxis_nested hy hcase
    exact ⟨le_rfl, htop, le_rfl, hbottom⟩

/-- The envelope around an ordered space is ordered. -/
lemma envelopeAround_ordered (hm : m.Usable) (shape : Shape) {space : Rect ℚ} (h : space.Ordered) :
    (m.envelopeAround shape space).Ordered := by
  obtain ⟨hx, hy⟩ := h
  have hb := hm.border
  have hH := hm.border_lt_headerHeight
  cases shape with
  | nesting =>
    constructor
    · change space.minX - m.border ≤
        space.minX - m.border + (space.maxX + m.border - (space.minX - m.border))
      linarith
    · change space.minY - m.border - m.headerHeight ≤ space.minY - m.border - m.headerHeight +
        (space.maxY + m.border - (space.minY - m.border) + m.headerHeight)
      linarith
  | figure =>
    unfold envelopeAround Rect.enlarge
    simp only [Scalar.max_exact]
    exact ⟨le_add_of_nonneg_right (le_max_right _ _), le_add_of_nonneg_right (le_max_right _ _)⟩
  | plain =>
    constructor
    · change space.minX - m.border ≤ space.maxX + m.border
      linarith
    · change space.minY - m.headerHeight ≤ space.maxY + m.border
      linarith

/-- Boxes composed around an ordered space are sound. -/
theorem sound_aroundSpace (hm : m.Usable) (c : Classifier) {space : Rect ℚ} (h : space.Ordered)
    (nests : Bool) : (m.aroundSpace c space nests).Sound m.border :=
  sound_aroundEnvelope hm c (envelopeAround_ordered hm _ h) nests

/-- Padding is undone by shrinking. -/
lemma shrink_of_padded {r space : Rect ℚ} {insets : Insets ℚ} (hspace : space.Ordered)
    (hr : r = space.pad insets) : r.shrink insets = space := by
  obtain ⟨hx, hy⟩ := hspace
  subst hr
  have hminX : space.minX - insets.left + insets.left = space.minX := sub_add_cancel _ _
  have hmaxX : space.maxX + insets.right - insets.right = space.maxX := add_sub_cancel_right _ _
  have hminY : space.minY - insets.top + insets.top = space.minY := sub_add_cancel _ _
  have hmaxY : space.maxY + insets.bottom - insets.bottom = space.maxY := add_sub_cancel_right _ _
  unfold Rect.shrink Rect.pad
  rw [Rect.shrinkAxis_of_le (by rw [hminX, hmaxX]; exact hx),
    Rect.shrinkAxis_of_le (by rw [hminY, hmaxY]; exact hy), hminX, hmaxX, hminY, hmaxY]

/-- Boxes composed around an ordered space have exactly that space. -/
theorem space_aroundSpace (hm : m.Usable) (c : Classifier) {space : Rect ℚ} (h : space.Ordered)
    (nests : Bool) : (m.aroundSpace c space nests).space = space := by
  have hb := hm.border
  have hH := hm.border_lt_headerHeight
  obtain ⟨hx, hy⟩ := id h
  unfold aroundSpace aroundEnvelope
  simp only [Scalar.min_exact, Scalar.max_exact]
  cases Shape.of c.kind nests with
  | nesting =>
    refine shrink_of_padded h ?_
    have hheight : (m.envelopeAround .nesting space).height =
        space.maxY - space.minY + 2 * m.border + m.headerHeight := by
      simp only [envelopeAround, Rect.height, Rect.ofCorner, Rect.pad, Insets.uniform]
      ring
    have hwidth : (m.envelopeAround .nesting space).width =
        space.maxX - space.minX + 2 * m.border := by
      simp only [envelopeAround, Rect.width, Rect.ofCorner, Rect.pad, Insets.uniform]
      ring
    rw [hheight, hwidth, max_eq_left (by linarith), max_eq_left (by linarith),
      min_eq_left (by linarith)]
    simp only [envelopeAround, Rect.ofCorner, Rect.pad, Insets.uniform, Rect.mk.injEq, true_and]
    refine ⟨?_, ?_, ?_⟩ <;> ring
  | figure =>
    refine shrink_of_padded h ?_
    have hextentX : 0 ≤ space.maxX + m.border - (space.minX - m.border) := by linarith
    have hextentY : 0 ≤ space.maxY + m.border - (space.minY - m.border) + m.headerHeight := by
      linarith
    have hheight : (m.envelopeAround .figure space).height =
        space.maxY - space.minY + 2 * m.border + m.headerHeight := by
      simp only [envelopeAround, Rect.enlarge, Rect.height, Rect.pad, Insets.uniform,
        Scalar.max_exact, max_eq_left hextentY]
      ring
    have hwidth : (m.envelopeAround .figure space).width =
        space.maxX - space.minX + 2 * m.border := by
      simp only [envelopeAround, Rect.enlarge, Rect.width, Rect.pad, Insets.uniform,
        Scalar.max_exact, add_zero, max_eq_left hextentX]
      ring
    rw [hheight, hwidth, max_eq_left (by linarith), max_eq_left (by linarith),
      min_eq_left (by linarith)]
    simp only [envelopeAround, Rect.enlarge, Rect.ofCorner, Rect.pad, Insets.uniform,
      Rect.mk.injEq, true_and]
    refine ⟨?_, ?_⟩ <;> ring
  | plain =>
    have hheight : (m.envelopeAround .plain space).height =
        space.maxY - space.minY + m.headerHeight + m.border := by
      simp only [envelopeAround, Rect.height, Rect.pad, Insets.uniform, Insets.withTop]
      ring
    rw [hheight, max_eq_left (by linarith), min_eq_left (by linarith)]
    exact shrink_of_padded h rfl

/-- With the metrics of a configuration that passes its check, boxes composed around a space that is
not reversed have exactly that space, whatever the classifier, and their symbol and their envelope
contain it. -/
theorem aroundSpace_surrounds {config : Config ℚ} (hconfig : config.validate = .ok ())
    (c : Classifier) (nests : Bool) {space : Rect ℚ} (h : space.Ordered) :
    ((ofConfig config).aroundSpace c space nests).space = space ∧
      ((ofConfig config).aroundSpace c space nests).symbol.contains space = true ∧
      ((ofConfig config).aroundSpace c space nests).envelope.contains space = true := by
  have husable := Config.usable_of_validate hconfig
  have hspace := space_aroundSpace husable.composer c h nests
  have hsound := sound_aroundSpace husable.composer c h nests
  have hproper : ((ofConfig config).aroundSpace c space nests).Proper :=
    hsound.proper husable.border
  refine ⟨hspace, ?_, ?_⟩
  · have hinner := hproper.inner
    rwa [hspace] at hinner
  · have hinner := hproper.envelope_contains_space
    rwa [hspace] at hinner

/-- An actor around a space without extent, which is smaller than its border and its name. -/
theorem aroundSpace_surrounds_actor :
    (Config.standard : Config ℚ).validate = .ok () ∧
      (Rect.ofCorner 50 70 0 0 : Rect ℚ).Ordered ∧
      ((ofConfig (.standard : Config ℚ)).aroundSpace ⟨⟨1⟩, .actor, "Driver", 0, 0, false⟩
        (.ofCorner 50 70 0 0) false).space = .ofCorner 50 70 0 0 ∧
      ((ofConfig (.standard : Config ℚ)).aroundSpace ⟨⟨1⟩, .actor, "Driver", 0, 0, false⟩
        (.ofCorner 50 70 0 0) false).symbol.contains (.ofCorner 50 70 0 0) = true ∧
      ((ofConfig (.standard : Config ℚ)).aroundSpace ⟨⟨1⟩, .actor, "Driver", 0, 0, false⟩
        (.ofCorner 50 70 0 0) false).envelope.contains (.ofCorner 50 70 0 0) = true :=
  have hvalid : (Config.standard : Config ℚ).validate = .ok () := by decide +kernel
  have hordered : (Rect.ofCorner 50 70 0 0 : Rect ℚ).Ordered := by decide +kernel
  ⟨hvalid, hordered, aroundSpace_surrounds hvalid _ _ hordered⟩

end Composer

end DiagramLayout
