import DiagramLayout.Proofs.Ranking
import DiagramLayout.Proofs.Translation.Drawing

/-!
# Estimating and spreading on a translated sheet

The first boxes of a classifier are composed around the origin and then moved to where its keys lie
on the sheet, so they move with the sheet. Every offset that a classifier chooses among in the
second step is read off differences of coordinates, and every cost is made of areas and lengths; so
on a translated sheet the same offset is chosen.

The one box that does not move with the sheet is the empty rectangle, which stands for a strip or a
neighbourhood without room. No classifier is looked for room in it, because every envelope has some
width (`Drawing.Wide`).
-/

namespace DiagramLayout

/-! ## Estimating -/

/-- The place that belongs to a classifier moves with the sheet. -/
lemma gridTarget_translate (config : Config ℚ) (sheet : Sheet ℚ) (v : Point ℚ) (c : Classifier)
    (symbol : Rect ℚ) :
    gridTarget config (sheet.translate v) c symbol = gridTarget config sheet c symbol + v := by
  have hkind : (sheet.translate v).grid.kind = sheet.grid.kind := rfl
  unfold gridTarget
  rw [hkind]
  cases sheet.grid.kind with
  | xy => exact Grid.location_translate sheet.grid v c.xKey c.yKey
  | timeY =>
    refine congrArg₂ Point.mk (Scale.location_translate sheet.grid.x v.x c.xKey) ?_
    change sheet.drawArea.minY + v.y + config.distance + symbol.height / Scalar.num 2 =
      sheet.drawArea.minY + config.distance + symbol.height / Scalar.num 2 + v.y
    ring
  | timeX =>
    refine congrArg₂ Point.mk ?_ (Scale.location_translate sheet.grid.y v.y c.yKey)
    change sheet.drawArea.minX + v.x + config.distance + symbol.width / Scalar.num 2 =
      sheet.drawArea.minX + config.distance + symbol.width / Scalar.num 2 + v.x
    ring

/-- Boxes are placed on the moved sheet where they would be on the sheet, and moved. -/
lemma placeOnGrid_translate (config : Config ℚ) (sheet : Sheet ℚ) (v : Point ℚ) (c : Classifier)
    (boxes : ClassifierBoxes ℚ) :
    (placeOnGrid config sheet c boxes).MovedBy v
      (placeOnGrid config (sheet.translate v) c boxes) := by
  have hoffset (p q : Point ℚ) : p + v - q = p - q + v :=
    congrArg₂ Point.mk (add_sub_right_comm _ _ _) (add_sub_right_comm _ _ _)
  rw [placeOnGrid, placeOnGrid, gridTarget_translate, hoffset]
  exact ClassifierBoxes.movedBy_translate_add _ _ _

namespace Drawing

/-- The drawing on the moved sheet. -/
def translateSheet (v : Point ℚ) (d : Drawing ℚ) : Drawing ℚ :=
  { d with sheet := d.sheet.translate v }

variable (m : Composer ℚ) (config : Config ℚ) (v : Point ℚ) (d : Drawing ℚ)

/-- Keys are registered on the moved sheet as on the sheet. -/
lemma registerKeys_translateSheet :
    (d.translateSheet v).registerKeys = d.registerKeys.translateSheet v := by
  have hgrid : d.classifiers.foldl (fun grid c => grid.addKeys c.element.xKey c.element.yKey)
      (d.sheet.grid.translate v) =
      (d.classifiers.foldl (fun grid c => grid.addKeys c.element.xKey c.element.yKey)
        d.sheet.grid).translate v :=
    List.foldl_hom (Grid.translate · v) fun g c => Grid.addKeys_translate g v _ _
  unfold registerKeys modifyGrid translateSheet
  exact congrArg (fun grid : Grid ℚ => { d with
    sheet := ⟨d.sheet.bounds.translate v, d.sheet.drawArea.translate v, grid⟩ }) hgrid

/-- The first boxes move with the sheet. -/
theorem movedBy_estimateBounds :
    (d.estimateBounds m config).MovedBy v ((d.translateSheet v).estimateBounds m config) := by
  unfold estimateBounds
  rw [registerKeys_translateSheet]
  refine ⟨rfl, rfl, rfl, List.ext_getElem? fun i => ?_⟩
  have hclassifiers : (d.registerKeys.translateSheet v).classifiers = d.registerKeys.classifiers :=
    rfl
  simp only [hclassifiers, List.getElem?_map, List.getElem?_mapIdx, Option.map_map]
  refine congrArg (Option.map · d.registerKeys.classifiers[i]?) (funext fun c => ?_)
  exact PlacedClassifier.iconless_eq_iff.mpr
    ⟨rfl, placeOnGrid_translate config d.registerKeys.sheet v c.element _⟩

end Drawing

/-! ## Offsets -/

section Offsets

variable (v : Point ℚ)

/-- A moved box passes a moved obstacle on the same way. -/
lemma clearance_translate (gap : ℚ) (box obstacle : Rect ℚ) (direction : Direction) :
    clearance gap (box.translate v) direction (obstacle.translate v) =
      clearance gap box direction obstacle := by
  cases direction <;> simp only [clearance, Rect.translate] <;> ring

/-- Moved obstacles ask for the same step of a moved box. -/
lemma clearingStep_translate (gap : ℚ) (box : Rect ℚ) (obstacles : List (Rect ℚ))
    (direction : Direction) :
    clearingStep gap (box.translate v) (obstacles.map (·.translate v)) direction =
      clearingStep gap box obstacles direction := by
  unfold clearingStep
  rw [List.filter_map, List.map_map]
  simp only [Function.comp_def, Rect.overlaps_translate, clearance_translate]

/-- A moved box is clear of moved obstacles after the same shift. -/
lemma shiftClear_translate (gap : ℚ) (box : Rect ℚ) (obstacles : List (Rect ℚ))
    (direction : Direction) :
    shiftClear gap (box.translate v) (obstacles.map (·.translate v)) direction =
      shiftClear gap box obstacles direction := by
  have hrounds (rounds : ℕ) (offset : Point ℚ) :
      shiftFrom gap (box.translate v) (obstacles.map (·.translate v)) direction rounds offset =
        shiftFrom gap box obstacles direction rounds offset := by
    induction rounds generalizing offset with
    | zero => rfl
    | succ rounds ih =>
      simp only [shiftFrom, Rect.translate_comm box v, clearingStep_translate, ih]
  rw [shiftClear, shiftClear, List.length_map, hrounds]

/-! ### Slots -/

/-- A box fits in a rectangle wherever that is. -/
@[simp] lemma fits_translate (size : Size ℚ) (free : Rect ℚ) :
    fits size (free.translate v) = fits size free := by
  rw [fits, fits, Rect.width_translate, Rect.height_translate]

/-- The way into a rectangle is the same for a center that moves with it. -/
@[simp] lemma wayInto_translate (size : Size ℚ) (center : Point ℚ) (free : Rect ℚ) :
    wayInto size (center + v) (free.translate v) = wayInto size center free := by
  unfold wayInto
  rw [centerRegion_translate, Rect.nearestPoint_translate, bind_map_left]
  simp only [Point.add_sub_add]

/-- The nearest strip moves with the strips and the center. -/
lemma nearestStrip_translate (size : Size ℚ) (center : Point ℚ) (strips : List (Rect ℚ)) :
    nearestStrip size (center + v) (strips.map (·.translate v)) =
      Option.map (·.translate v) <$> nearestStrip size center strips := by
  rcases strips with _ | ⟨first, _ | ⟨second, rest⟩⟩
  · rfl
  · rfl
  · have hmeasured : ((first :: second :: rest).map (·.translate v)).mapM (fun strip => do
        let way ← wayInto size (center + v) strip
        return (strip, way.manhattanLength)) =
        List.map (fun p => (p.1.translate v, p.2)) <$>
          (first :: second :: rest).mapM (fun strip => do
            let way ← wayInto size center strip
            return (strip, way.manhattanLength)) :=
      mapM_map_of_commutes fun strip _ => by
        rw [wayInto_translate, map_bind]
        rfl
    have hleast (measured : List (Rect ℚ × ℚ)) :
        (Scalar.leastBy Prod.snd (measured.map fun p => (p.1.translate v, p.2))).map Prod.fst =
          ((Scalar.leastBy Prod.snd measured).map Prod.fst).map (·.translate v) := by
      rw [Scalar.leastBy_map (fun _ => rfl), Option.map_map, Option.map_map]
      rfl
    simp only [List.map_cons] at hmeasured
    simp only [nearestStrip, List.map_cons]
    rw [hmeasured, bind_map_left, map_bind]
    refine bind_congr fun measured => ?_
    rw [hleast]
    rfl

/-- A box of some width does not fit in the empty rectangle. -/
lemma fits_empty {size : Size ℚ} (hsize : 0 < size.width) : fits size .empty = false := by
  have hwidth : (Rect.empty : Rect ℚ).width = 0 := sub_self 0
  simp [fits, hwidth, not_le.mpr hsize]

/-- The strips with room for a box of some width move with the rectangle and the obstacle. -/
lemma filter_fits_stripsOutside {size : Size ℚ} (hsize : 0 < size.width) (free obstacle : Rect ℚ) :
    ((free.translate v).stripsOutside (obstacle.translate v)).filter (fits size) =
      ((free.stripsOutside obstacle).filter (fits size)).map (·.translate v) := by
  have hfits (strip : Rect ℚ) : fits size (strip.translateArea v) = fits size strip := by
    unfold Rect.translateArea
    split_ifs
    · rfl
    · exact fits_translate v size strip
  rw [Rect.stripsOutside_translate, List.filter_map]
  simp only [Function.comp_def, hfits]
  refine List.map_congr_left fun strip hstrip => ?_
  obtain ⟨hmem, hroom⟩ := List.mem_filter.mp hstrip
  rcases Rect.strip_spec hmem with rfl | ⟨hsolid, -, -⟩
  · rw [fits_empty hsize] at hroom
    cases hroom
  · exact Rect.translateArea_of_not_isEmpty (Rect.solid_iff.mp hsolid) v

/-- A free rectangle is narrowed to the same strip. -/
lemma narrow_translate {size : Size ℚ} (hsize : 0 < size.width) (center : Point ℚ)
    (free : Option (Rect ℚ)) (obstacle : Rect ℚ) :
    narrow size (center + v) (free.map (·.translate v)) (obstacle.translate v) =
      Option.map (·.translate v) <$> narrow size center free obstacle := by
  cases free with
  | none => rfl
  | some free =>
    simp only [narrow, Option.map_some, Rect.overlaps_translate,
      filter_fits_stripsOutside v hsize, nearestStrip_translate]
    split_ifs <;> rfl

/-- An overlap is the empty rectangle, or it has an area. -/
lemma Rect.overlap_eq_empty_or (a b : Rect ℚ) :
    a.overlap b = .empty ∨ (a.overlap b).isEmpty = false := by
  unfold overlap
  simp only [Scalar.min_exact, Scalar.max_exact, Bool.or_eq_true, decide_eq_true_eq]
  split_ifs with hapart
  · exact Or.inl rfl
  · obtain ⟨hx, hy⟩ := not_or.mp hapart
    exact Or.inr (isEmpty_eq_false_iff.mpr
      ⟨sub_pos.mpr (not_le.mp hx), sub_pos.mpr (not_le.mp hy)⟩)

/-- The offset to a free slot is the same for a box of some width, wherever everything lies. -/
theorem slotOffset_translate (gap : ℚ) {box : Rect ℚ} (hbox : 0 < box.width)
    (obstacles : List (Rect ℚ)) (drawArea : Rect ℚ) :
    slotOffset gap (box.translate v) (obstacles.map (·.translate v)) (drawArea.translate v) =
      slotOffset gap box obstacles drawArea := by
  unfold slotOffset
  simp only [Rect.size_translate, Rect.center_translate, Rect.expand_translate,
    Rect.overlap_translate]
  generalize box.expand (box.size.width + Scalar.num 2 * gap)
    (box.size.height + Scalar.num 2 * gap) = grown
  rcases grown.overlap_eq_empty_or drawArea with hempty | hsolid
  · -- without a neighbourhood there is no room
    have hroom : fits box.size .empty = false := fits_empty hbox
    simp [hempty, hroom]
  · have hnarrowed : obstacles.foldlM (fun free obstacle =>
        narrow box.size (box.center + v) free (obstacle.translate v))
          (some ((grown.overlap drawArea).translate v)) =
        Option.map (·.translate v) <$>
          obstacles.foldlM (narrow box.size box.center) (some (grown.overlap drawArea)) :=
      @foldlM_of_commutes _ _ _ _ _ _ (Option.map (·.translate v)) _ _
        (narrow_translate v hbox box.center) obstacles (some (grown.overlap drawArea))
    rw [Rect.translateArea_of_not_isEmpty hsolid, fits_translate, List.foldlM_map, hnarrowed,
      bind_map_left]
    split_ifs
    · rfl
    · refine bind_congr fun free => ?_
      cases free with
      | none => rfl
      | some free => exact congrArg (some <$> ·) (wayInto_translate v box.size box.center free)

end Offsets

/-! ## Turns -/

/-- The situation with the draw area and all envelopes moved. -/
def Turn.translate (v : Point ℚ) (t : Turn ℚ) : Turn ℚ :=
  { t with drawArea := t.drawArea.translate v, envelopes := t.envelopes.map (·.translate v) }

namespace Turn

variable (v : Point ℚ) {t : Turn ℚ}

/-- The envelope of the classifier whose turn it is moves with the others. -/
lemma current_translate (hindex : t.index < t.envelopes.length) :
    (t.translate v).current = t.current.translate v := by
  unfold current translate
  dsimp only
  rw [List.getD_eq_getElem?_getD, List.getD_eq_getElem?_getD, List.getElem?_map,
    List.getElem?_eq_getElem hindex]
  rfl

/-- The strangers move with the other envelopes. -/
lemma strangers_translate (t : Turn ℚ) :
    (t.translate v).strangers = t.strangers.map (·.translate v) :=
  DiagramLayout.strangers_translate t.nesting t.index t.envelopes v

/-- The obstacles move with the other envelopes. -/
lemma obstacles_translate (t : Turn ℚ) :
    (t.translate v).obstacles = t.obstacles.map (·.translate v) := by
  simp only [obstacles, translate, List.zipIdx_map, List.filter_map, List.map_map,
    Function.comp_def, Prod.map_fst, Prod.map_snd, id_eq]

/-- An offset is eligible on the moved sheet if it is on the sheet. -/
lemma isEligible_translate (hindex : t.index < t.envelopes.length) (offset : Point ℚ) :
    (t.translate v).isEligible offset = t.isEligible offset := by
  unfold isEligible overlapAfter
  rw [current_translate v hindex, Rect.translate_comm]
  simp only [translate, strangerOverlap_translate]

/-- An offset costs the same on the moved sheet. -/
lemma cost_translate (hindex : t.index < t.envelopes.length) (offset : Point ℚ) :
    (t.translate v).cost offset = t.cost offset := by
  have hdebt (placed : List ℕ) (probe other : Rect ℚ) (otherIndex : ℕ) :
      Debt.ofClassifiersWhile t.nesting placed t.index (probe.translate v) otherIndex
        (other.translate v) =
      Debt.ofClassifiersWhile t.nesting placed t.index probe otherIndex other := by
    simp only [Debt.ofClassifiersWhile, Debt.ofClassifiers, Rect.overlapArea_translate]
  unfold cost
  rw [current_translate v hindex, Rect.translate_comm]
  simp only [translate, Rect.areaOutside_translate, List.zipIdx_map, List.filter_map, List.map_map,
    Function.comp_def, Prod.map_fst, Prod.map_snd, id_eq, hdebt]

/-- The offsets back into the draw area are the same on the moved sheet. -/
lemma returnOffsets_translate (hindex : t.index < t.envelopes.length) :
    (t.translate v).returnOffsets = t.returnOffsets := by
  unfold returnOffsets
  rw [current_translate v hindex, strangers_translate]
  simp only [translate, Rect.offsetInto_translate, Rect.translate_comm _ v, shiftClear_translate]

/-- The offset to a free slot is the same on the moved sheet, for a classifier of some width. -/
lemma slotOffset?_translate (hindex : t.index < t.envelopes.length) (hwide : 0 < t.current.width) :
    (t.translate v).slotOffset? = t.slotOffset? := by
  unfold slotOffset?
  rw [current_translate v hindex, obstacles_translate]
  simp only [translate]
  rw [slotOffset_translate v t.gap hwide]

/-- On the moved sheet the same offset is chosen, for a classifier of some width. -/
theorem choice_translate (hindex : t.index < t.envelopes.length) (hwide : 0 < t.current.width) :
    (t.translate v).choice = t.choice := by
  have hcandidates : (t.translate v).candidates = t.candidates := by
    unfold candidates
    rw [slotOffset?_translate v hindex hwide, current_translate v hindex, obstacles_translate,
      returnOffsets_translate v hindex]
    simp only [translate, Rect.offsetInto_translate, shiftClear_translate]
  have heligible : (t.translate v).isEligible = t.isEligible :=
    funext (isEligible_translate v hindex)
  have hcost : (t.translate v).cost = t.cost := funext (cost_translate v hindex)
  rw [choice, choice, hcandidates, heligible, hcost]

end Turn

/-! ## Widths -/

/-- What is left of the width and the insets together have at least the width. -/
lemma Rect.width_le_width_shrink (r : Rect ℚ) (insets : Insets ℚ) :
    r.width ≤ (r.shrink insets).width + insets.left + insets.right := by
  unfold Rect.width Rect.shrink Rect.shrinkAxis
  simp only [Scalar.num_exact]
  split_ifs <;> dsimp only <;> linarith

namespace Composer

variable {m : Composer ℚ} {c : Classifier}

/-- A symbol is as wide as the envelope that it is composed in. -/
lemma width_le_width_symbol (envelope : Rect ℚ) (nests : Bool) :
    envelope.width ≤ (m.aroundEnvelope c envelope nests).symbol.width := by
  have hcorner (left top width height : ℚ) : (Rect.ofCorner left top width height).width = width :=
    add_sub_cancel_left left width
  unfold aroundEnvelope
  simp only [Scalar.max_exact]
  cases Shape.of c.kind nests with
  | nesting | figure =>
    dsimp only
    rw [hcorner]
    exact le_max_left _ _
  | plain => exact le_rfl

/-- A space and the borders beside it are at least as wide as the envelope. -/
lemma width_le_width_space (envelope : Rect ℚ) (nests : Bool) :
    envelope.width ≤ (m.aroundEnvelope c envelope nests).space.width + m.border + m.border := by
  refine (width_le_width_symbol (m := m) (c := c) envelope nests).trans ?_
  unfold aroundEnvelope
  dsimp only
  cases Shape.of c.kind nests with
  | nesting | figure => exact Rect.width_le_width_shrink _ (.uniform m.border)
  | plain => exact Rect.width_le_width_shrink envelope (.withTop (.uniform m.border) _)

/-- An envelope around a space is wider than it by the borders. -/
lemma width_le_width_envelopeAround (shape : Shape) (space : Rect ℚ) :
    space.width + m.border + m.border ≤ (m.envelopeAround shape space).width := by
  cases shape with
  | nesting | plain =>
    simp only [envelopeAround, Rect.ofCorner, Rect.width, Rect.pad, Insets.uniform, Insets.withTop]
    linarith
  | figure =>
    simp only [envelopeAround, Rect.enlarge, Rect.width, Rect.pad, Insets.uniform,
      Scalar.max_exact, add_zero]
    refine le_trans ?_ (sub_le_sub_right (add_le_add_right (le_max_left _ _) _) _)
    linarith

end Composer

/-- A classifier starts with some width. -/
lemma width_composeFor_pos {config : Config ℚ} (hwidth : 0 < config.classifierWidth)
    (m : Composer ℚ) (c : Classifier) (needed : Size ℚ) (nests : Bool) :
    0 < (composeFor m config c needed nests).envelope.width := by
  have hstandard : (Rect.centered .origin config.classifierSize : Rect ℚ).width =
      config.classifierWidth := Rect.width_centered _ _
  -- an envelope is at least as wide as the rectangle that it is composed in
  have henvelope (envelope : Rect ℚ) (h : 0 < envelope.width) :
      0 < (m.aroundEnvelope c envelope nests).envelope.width :=
    h.trans_le ((Composer.width_le_width_symbol envelope nests).trans
      (Rect.width_le_of_contains (contains_envelopeOf _ _)))
  unfold composeFor
  dsimp only
  split_ifs
  · refine henvelope _ (lt_of_lt_of_le ?_ (Composer.width_le_width_envelopeAround _ _))
    have hspace := Composer.width_le_width_space (m := m) (c := c)
      (.centered .origin config.classifierSize) nests
    rw [hstandard] at hspace
    rw [Rect.width_centered, Size.max, Scalar.max_exact]
    have hgrown := le_max_left
      (m.aroundEnvelope c (.centered .origin config.classifierSize) nests).space.size.width
      needed.width
    simp only [Rect.size] at hgrown ⊢
    linarith
  · exact henvelope _ (hstandard ▸ hwidth)

namespace Drawing

/-- Every classifier has some width. -/
def Wide (d : Drawing ℚ) : Prop := ∀ i < d.classifiers.length, 0 < (d.boxes i).envelope.width

/-- After the first step every classifier has some width. -/
lemma wide_estimateBounds {config : Config ℚ} (hwidth : 0 < config.classifierWidth)
    (m : Composer ℚ) (d : Drawing ℚ) : (d.estimateBounds m config).Wide := by
  intro i hi
  rw [length_classifiers_estimateBounds] at hi
  rw [boxes_estimateBounds m config d hi, estimatedBoxes, placeOnGrid,
    ClassifierBoxes.envelope_translate, Rect.width_translate]
  exact width_composeFor_pos hwidth m _ _ _

/-- A classifier that moves keeps its width. -/
lemma Wide.translateClassifier {d : Drawing ℚ} (h : d.Wide) (i : ℕ) (v : Point ℚ) :
    (d.translateClassifier i v).Wide := by
  intro j hj
  rw [(reboxes_translateClassifier d i v).length_classifiers] at hj
  rw [boxes_translateClassifier]
  split_ifs
  · rw [ClassifierBoxes.envelope_translate, Rect.width_translate]
    exact h j hj
  · exact h j hj

/-! ## Moving apart -/

namespace MovedBy

variable {v : Point ℚ} {d d' : Drawing ℚ} (config : Config ℚ)

/-- A classifier is as simple on the moved sheet. -/
lemma simpleness (h : d.MovedBy v d') {i : ℕ} (hi : i < d.classifiers.length) :
    d'.simpleness i = d.simpleness i := by
  have hboxes := h.boxes hi
  unfold Drawing.simpleness
  dsimp only
  rw [hboxes.envelope, hboxes.space, h.envelopes, h.nesting, h.drawArea]
  simp only [Rect.area_translate, Rect.areaOutside_translate, strangerOverlap_translate]

/-- Classifiers take their turns in the same order on the moved sheet. -/
lemma turnRanking (h : d.MovedBy v d') : d'.turnRanking config = d.turnRanking config := by
  unfold Drawing.turnRanking
  rw [h.length_classifiers]
  refine congrArg _ (List.map_congr_left fun i hi => ?_)
  rw [h.simpleness (List.mem_range.mp hi)]

/-- The situation on the moved sheet is the moved situation. -/
lemma turn {s s' : Spreading ℚ} (h : s.drawing.MovedBy v s'.drawing)
    (hplaced : s'.placed = s.placed) (i : ℕ) :
    s'.turn config i = (s.turn config i).translate v := by
  unfold Spreading.turn Turn.translate
  rw [h.kind, h.drawArea, h.nesting, h.envelopes, hplaced]

/-- On the moved sheet a classifier goes the same way when it takes its turn. -/
lemma spreading_step {s s' : Spreading ℚ} (h : s.drawing.MovedBy v s'.drawing)
    (hplaced : s'.placed = s.placed) (hwide : s.drawing.Wide) {i : ℕ}
    (hi : i < s.drawing.classifiers.length) :
    (s.step config i).value.drawing.MovedBy v (s'.step config i).value.drawing ∧
      (s'.step config i).value.placed = (s.step config i).value.placed ∧
      (s.step config i).value.drawing.Wide := by
  have hcurrent : 0 < (s.turn config i).current.width := by
    have henvelope : (s.turn config i).current = (s.drawing.boxes i).envelope :=
      getD_envelopes s.drawing i
    rw [henvelope]
    exact hwide i hi
  have hindex : (s.turn config i).index < (s.turn config i).envelopes.length := by
    rwa [← length_envelopes] at hi
  unfold Spreading.step
  rw [h.turn config hplaced, Turn.choice_translate v hindex hcurrent, h.nesting, hplaced]
  simp only [Guarded.value_bind, Guarded.value_pure]
  refine ⟨?_, trivial, ?_⟩
  · split_ifs
    · exact h
    · exact h.translateClassifier i _
  · split_ifs
    · exact hwide
    · exact hwide.translateClassifier i _

/-- Classifiers are moved apart on the moved sheet as on the sheet. -/
theorem moveApart (h : d.MovedBy v d') (hwide : d.Wide) :
    (d.moveApart config).value.1.MovedBy v (d'.moveApart config).value.1 := by
  unfold Drawing.moveApart
  rw [h.turnRanking config]
  simp only [Guarded.value_bind, Guarded.value_pure, Guarded.value_foldlM]
  refine (List.foldl_rel (r := fun s s' : Spreading ℚ => s.drawing.MovedBy v s'.drawing ∧
    s'.placed = s.placed ∧ s.drawing.Wide ∧
      s.drawing.classifiers.length = d.classifiers.length) ?_ ?_).1
  · exact ⟨h, rfl, hwide, rfl⟩
  rintro i hi s s' ⟨hmoved, hplaced, hwide, hlength⟩
  have hindex : i < s.drawing.classifiers.length := by
    have hmem := Ranking.mem_of_mem_order hi
    rw [List.map_map] at hmem
    obtain ⟨j, hj, rfl⟩ := List.mem_map.mp hmem
    rw [hlength]
    exact List.mem_range.mp hj
  obtain ⟨hmoved', hplaced', hwide'⟩ := hmoved.spreading_step config hplaced hwide hindex
  exact ⟨hmoved', hplaced', hwide',
    (reboxes_spreading_step config s i).length_classifiers.trans hlength⟩

end MovedBy

end Drawing

end DiagramLayout
