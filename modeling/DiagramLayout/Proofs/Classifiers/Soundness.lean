import DiagramLayout.Proofs.Composing
import DiagramLayout.Proofs.Frame

/-!
# Classifier boxes stay sound

The first step of the layout gives every classifier sound boxes, whatever was there before
(`Drawing.sound_estimateBounds`). From then on boxes are only moved or composed anew around a space
that is in order, so every later step keeps them sound.

The small lemmas in front say which boxes are found at a position after boxes have been set there or
elsewhere.
-/

namespace DiagramLayout

namespace Drawing

/-! ## Reading boxes back -/

/-- A position has the envelope of the boxes there, also if it is not in the list. -/
lemma getD_envelopes (d : Drawing ℚ) (i : ℕ) :
    d.envelopes.getD i .empty = (d.boxes i).envelope := by
  have hempty : (Rect.empty : Rect ℚ).isEmpty = true := by
    simp [Rect.isEmpty, Rect.width, Rect.empty]
  unfold envelopes boxes
  rw [List.getD_eq_getElem?_getD, List.getElem?_map]
  cases d.classifiers[i]? with
  | none => simp [ClassifierBoxes.unplaced, ClassifierBoxes.envelope, envelopeOf, hempty]
  | some c => rfl

/-- There are as many envelopes as classifiers. -/
@[simp] lemma length_envelopes (d : Drawing ℚ) : d.envelopes.length = d.classifiers.length :=
  List.length_map _

/-- A position that is in the list has the boxes of its classifier. -/
lemma boxes_of_getElem? {d : Drawing ℚ} {i : ℕ} {c : PlacedClassifier ℚ}
    (h : d.classifiers[i]? = some c) : d.boxes i = c.boxes := by
  rw [boxes, h]

/-- The boxes that are set at a position are found there, and all others are as they were. -/
lemma boxes_setBoxes (d : Drawing ℚ) (i : ℕ) (b : ClassifierBoxes ℚ) (j : ℕ) :
    (d.setBoxes i b).boxes j =
      if i = j ∧ j < d.classifiers.length then b else d.boxes j := by
  unfold boxes setBoxes
  dsimp only
  rw [List.getElem?_modify]
  by_cases hj : j < d.classifiers.length
  · rw [List.getElem?_eq_getElem hj]
    by_cases hij : i = j <;> simp [hij, hj]
  · rw [List.getElem?_eq_none (not_lt.mp hj)]
    simp [hj]

/-- A classifier that is moved has its boxes moved, and all others are as they were. -/
lemma boxes_translateClassifier (d : Drawing ℚ) (i : ℕ) (v : Point ℚ) (j : ℕ) :
    (d.translateClassifier i v).boxes j =
      if i = j ∧ j < d.classifiers.length then (d.boxes j).translate v else d.boxes j := by
  rw [translateClassifier, boxes_setBoxes]
  by_cases hij : i = j
  · rw [hij]
  · simp [hij]

/-- Of several classifiers that are moved by the same offset each one is moved once. -/
lemma boxes_foldl_translateClassifier {indices : List ℕ} (hnodup : indices.Nodup) (d : Drawing ℚ)
    (v : Point ℚ) (j : ℕ) :
    (indices.foldl (fun d i => d.translateClassifier i v) d).boxes j =
      if j ∈ indices ∧ j < d.classifiers.length then (d.boxes j).translate v else d.boxes j := by
  induction indices generalizing d with
  | nil => simp
  | cons i is ih =>
    obtain ⟨hi, his⟩ := List.nodup_cons.mp hnodup
    have hlength := (reboxes_translateClassifier d i v).length_classifiers
    rw [List.foldl_cons, ih his, hlength, boxes_translateClassifier]
    by_cases hij : i = j
    · subst hij
      simp [hi]
    · simp [hij, Ne.symm hij]

/-! ## Soundness -/

/-- Every classifier has sound boxes. -/
def Sound (border : ℚ) (d : Drawing ℚ) : Prop := ∀ i, (d.boxes i).Sound border

/-- Soundness is about the boxes of the classifiers only. -/
lemma Sound.congr {border : ℚ} {d d' : Drawing ℚ} (h : d.Sound border)
    (hclassifiers : d'.classifiers = d.classifiers) : d'.Sound border := by
  intro i
  rw [boxes, hclassifiers]
  exact h i

/-- No symbol is reversed. -/
def Upright (d : Drawing ℚ) : Prop := ∀ i, (d.boxes i).symbol.Ordered

/-- Whether a drawing is upright is decided on its classifiers. -/
instance (d : Drawing ℚ) : Decidable d.Upright :=
  decidable_of_iff (∀ c ∈ d.classifiers, c.boxes.symbol.Ordered) <| by
    refine ⟨fun h i => ?_, fun h c hc => ?_⟩
    · unfold boxes
      split
      · rename_i c hc
        exact h c (List.mem_of_getElem? hc)
      · exact ⟨le_rfl, le_rfl⟩
    · obtain ⟨i, hi⟩ := List.mem_iff_getElem?.mp hc
      rw [← boxes_of_getElem? hi]
      exact h i

/-- Sound boxes have symbols that are not reversed. -/
lemma Sound.upright {border : ℚ} {d : Drawing ℚ} (h : d.Sound border) : d.Upright :=
  fun i => (h i).symbol

/-- The boxes before anything is computed are sound. -/
lemma sound_unplaced {border : ℚ} (hborder : 0 ≤ border) :
    (ClassifierBoxes.unplaced : ClassifierBoxes ℚ).Sound border := by
  have hordered : (Rect.empty : Rect ℚ).Ordered := ⟨le_rfl, le_rfl⟩
  have haxis : Rect.shrinkAxis (0 : ℚ) 0 border border = (0, 0) := by
    unfold Rect.shrinkAxis
    split_ifs with hnone
    · simp
    · have hzero : border = 0 := by linarith
      simp [hzero]
  refine ⟨hordered, hordered, Rect.contains_iff.mpr ?_⟩
  have hshrink : (Rect.empty : Rect ℚ).shrink (.uniform border) = Rect.empty := by
    simp [Rect.shrink, Rect.empty, Insets.uniform, haxis]
  change ((Rect.empty : Rect ℚ).shrink (.uniform border)).minX ≤ 0 ∧ _
  rw [ClassifierBoxes.unplaced, hshrink]
  exact ⟨le_rfl, le_rfl, le_rfl, le_rfl⟩

/-- Setting sound boxes keeps all boxes sound. -/
lemma Sound.setBoxes {border : ℚ} {d : Drawing ℚ} (h : d.Sound border) (i : ℕ)
    {b : ClassifierBoxes ℚ} (hb : b.Sound border) : (d.setBoxes i b).Sound border := by
  intro j
  rw [boxes_setBoxes]
  split_ifs
  · exact hb
  · exact h j

/-- Moving a classifier keeps all boxes sound. -/
lemma Sound.translateClassifier {border : ℚ} {d : Drawing ℚ} (h : d.Sound border) (i : ℕ)
    (v : Point ℚ) : (d.translateClassifier i v).Sound border :=
  h.setBoxes i ((h i).translate v)

variable {config : Config ℚ}

/-- The boxes that a classifier starts with are sound. -/
lemma sound_composeFor (hconfig : config.Usable) (c : Classifier) (needed : Size ℚ)
    (nests : Bool) :
    (composeFor (.ofConfig config) config c needed nests).Sound config.border := by
  have hm := hconfig.composer
  unfold composeFor
  dsimp only
  have hstandard := Rect.ordered_centered .origin config.classifierSize
    hconfig.classifierWidth.le hconfig.classifierHeight.le
  have hstart := Composer.sound_aroundEnvelope hm c hstandard nests
  split_ifs
  · refine Composer.sound_aroundSpace hm c (Rect.ordered_centered _ _ ?_ ?_) nests
    · simp only [Size.max, Scalar.max_exact]
      exact le_max_of_le_left (sub_nonneg.mpr hstart.space.x)
    · simp only [Size.max, Scalar.max_exact]
      exact le_max_of_le_left (sub_nonneg.mpr hstart.space.y)
  · exact hstart

/-- The first step adds and removes no classifier. -/
lemma length_classifiers_estimateBounds (m : Composer ℚ) (config : Config ℚ) (d : Drawing ℚ) :
    (d.estimateBounds m config).classifiers.length = d.classifiers.length :=
  List.length_mapIdx

/-- After the first step a classifier has its estimated boxes. -/
lemma boxes_estimateBounds (m : Composer ℚ) (config : Config ℚ) (d : Drawing ℚ) {i : ℕ}
    (hi : i < d.classifiers.length) :
    (d.estimateBounds m config).boxes i =
      d.registerKeys.estimatedBoxes m config i d.classifiers[i].element := by
  have hc : d.registerKeys.classifiers[i]? = some d.classifiers[i] := List.getElem?_eq_getElem hi
  unfold estimateBounds boxes
  dsimp only
  rw [List.getElem?_mapIdx, hc]
  rfl

/-- After the first step all boxes are sound. -/
theorem sound_estimateBounds (hconfig : config.Usable) (d : Drawing ℚ) :
    (d.estimateBounds (.ofConfig config) config).Sound config.border := by
  intro i
  rcases lt_or_ge i d.classifiers.length with hi | hbeyond
  · rw [boxes_estimateBounds _ config d hi]
    exact (sound_composeFor hconfig _ _ _).translate _
  · -- where there is no classifier, nothing has been placed
    rw [← length_classifiers_estimateBounds (.ofConfig config) config d] at hbeyond
    rw [boxes, List.getElem?_eq_none hbeyond]
    exact sound_unplaced hconfig.border

/-- The boxes of a parent that has grown are sound, and their space is what the parent has grown
from, joined with the envelope of the child and the distance around it. -/
lemma grownBoxes_spec (hconfig : config.Usable) (d : Drawing ℚ) {parent : PlacedClassifier ℚ}
    (hparent : parent.boxes.Proper) (isFurther : Bool) (child : ℕ) :
    (d.grownBoxes (.ofConfig config) config parent isFurther child).Sound config.border ∧
      (d.grownBoxes (.ofConfig config) config parent isFurther child).space =
        (if isFurther then parent.boxes.space else parent.boxes.envelope).join
          ((d.boxes child).envelope.pad (.uniform config.distance)) := by
  have hbase : (if isFurther then parent.boxes.space else parent.boxes.envelope).Ordered := by
    cases isFurther
    · exact hparent.envelope
    · exact hparent.space
  have hordered := hbase.join ((d.boxes child).envelope.pad (.uniform config.distance))
  exact ⟨Composer.sound_aroundSpace hconfig.composer parent.element hordered true,
    Composer.space_aroundSpace hconfig.composer parent.element hordered true⟩

/-- A parent that has grown has at least the space that it had. -/
lemma contains_space_grownBoxes (hconfig : config.Usable) (d : Drawing ℚ)
    {parent : PlacedClassifier ℚ} (hparent : parent.boxes.Proper) (isFurther : Bool) (child : ℕ) :
    (d.grownBoxes (.ofConfig config) config parent isFurther child).space.contains
      parent.boxes.space = true := by
  rw [(grownBoxes_spec hconfig d hparent isFurther child).2]
  refine Rect.contains_trans (Rect.contains_join_left _ _) ?_
  cases isFurther
  · exact hparent.envelope_contains_space
  · exact Rect.contains_self parent.boxes.space

/-- Embracing a child keeps all boxes sound. -/
lemma Sound.embracing_step (hconfig : config.Usable) {s : Embracing ℚ}
    (h : s.drawing.Sound config.border) (c : Containment) :
    (s.step (.ofConfig config) config c).drawing.Sound config.border := by
  unfold Embracing.step
  split
  · exact h
  · rename_i parent hparent
    have hsound := boxes_of_getElem? hparent ▸ h c.parent
    dsimp only
    split_ifs
    · have hproper := hsound.proper hconfig.border
      exact h.setBoxes c.parent (grownBoxes_spec hconfig s.drawing hproper _ c.child).1
    · exact h

/-- Embracing children keeps all boxes sound. -/
theorem Sound.embraceChildren (hconfig : config.Usable) {d : Drawing ℚ}
    (h : d.Sound config.border) :
    (d.embraceChildren (.ofConfig config) config).Sound config.border :=
  List.foldlRecOn _ _ (motive := fun s : Embracing ℚ => s.drawing.Sound config.border) h
    fun _ hs c _ => hs.embracing_step hconfig c

end Drawing

end DiagramLayout
