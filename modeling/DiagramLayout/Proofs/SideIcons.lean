import DiagramLayout.Proofs.Guards
import DiagramLayout.Proofs.Lifelines

/-!
# Icons at the sides of a symbol

Ports, pins, entry and exit points and interfaces have a square icon at the side of the symbol that
their list key chooses. The four sides are walked in different directions, but what matters of a
side can be said for all of them at once: how far along it a rectangle extends (`Side.extent`), and
how far outside its line a point or a rectangle is (`Side.outside`, `Side.gap`). In these terms
`Side.IsAt` describes an icon by the distance of its middle from the side, and only
`Side.isAt_centered` looks at the sides one by one.

The rules for the kinds are then rules for that distance: half an icon inside for constraint blocks,
half an icon outside for ports and pins of behavior, no distance for what else is on the border, and
the distance of interfaces (`iconDistance_eq`). `Drawing.placesIcon_layoutFeatures` says where this
puts the icons.
-/

namespace DiagramLayout

namespace Side

/-! ## Geometry of a side -/

/-- The ends of a rectangle along a side. -/
def extent (side : Side) (r : Rect ℚ) : ℚ × ℚ :=
  match side with
  | right | left => (r.minY, r.maxY)
  | top | bottom => (r.minX, r.maxX)

/-- The coordinate of a point along a side. -/
def place (side : Side) (p : Point ℚ) : ℚ :=
  match side with
  | right | left => p.y
  | top | bottom => p.x

/-- How far a point is outside the line of a side of a symbol. Inside it is negative. -/
def outside (side : Side) (symbol : Rect ℚ) (p : Point ℚ) : ℚ :=
  match side with
  | right => p.x - symbol.maxX
  | top => symbol.minY - p.y
  | left => symbol.minX - p.x
  | bottom => p.y - symbol.maxY

/-- How far the edge of a box that faces a side of a symbol is outside the line of the side. -/
def gap (side : Side) (symbol box : Rect ℚ) : ℚ :=
  match side with
  | right => box.minX - symbol.maxX
  | top => symbol.minY - box.maxY
  | left => symbol.minX - box.maxX
  | bottom => box.minY - symbol.maxY

/-- The box is a square of the given size that extends along no more than the side of the symbol and
has its middle the given distance outside. -/
structure IsAt (side : Side) (symbol : Rect ℚ) (size distance : ℚ) (box : Rect ℚ) : Prop where
  width : box.width = size
  height : box.height = size
  low : (side.extent symbol).1 ≤ (side.extent box).1
  high : (side.extent box).2 ≤ (side.extent symbol).2
  center : side.outside symbol box.center = distance

namespace IsAt

variable {side : Side} {symbol box : Rect ℚ} {size distance : ℚ}

/-- Half of the square is between its middle and the edge that faces the side. -/
lemma gap_eq (h : side.IsAt symbol size distance box) :
    side.gap symbol box = distance - size / 2 := by
  have hwidth := h.width
  have hheight := h.height
  have hcenter := h.center
  rw [Rect.width] at hwidth
  rw [Rect.height] at hheight
  cases side <;> simp only [outside, Rect.center, Scalar.num_exact] at hcenter <;>
    simp only [gap] <;> push_cast at hcenter <;> linarith

/-- A square that is at least half of it outside shares no area with the symbol. -/
lemma overlapArea_eq_zero (h : side.IsAt symbol size distance box)
    (hdistance : size / 2 ≤ distance) : symbol.overlapArea box = 0 := by
  have hgap : 0 ≤ side.gap symbol box := by
    rw [h.gap_eq]
    exact sub_nonneg.mpr hdistance
  refine Rect.overlapArea_eq_zero_of_beside ?_
  cases side with
  | right => exact Or.inl (sub_nonneg.mp hgap)
  | top => exact Or.inr (Or.inr (Or.inr (sub_nonneg.mp hgap)))
  | left => exact Or.inr (Or.inl (sub_nonneg.mp hgap))
  | bottom => exact Or.inr (Or.inr (Or.inl (sub_nonneg.mp hgap)))

/-- A square half of which is inside lies within a symbol that is not smaller. -/
lemma contains (h : side.IsAt symbol size (-(size / 2)) box) (hwidth : size ≤ symbol.width)
    (hheight : size ≤ symbol.height) : symbol.contains box = true := by
  have hgap := h.gap_eq
  have hboxWidth := h.width
  have hboxHeight := h.height
  have hlow := h.low
  have hhigh := h.high
  rw [Rect.width] at hwidth hboxWidth
  rw [Rect.height] at hheight hboxHeight
  rw [Rect.contains_iff]
  cases side <;> simp only [gap] at hgap <;> simp only [extent] at hlow hhigh <;>
    refine ⟨?_, ?_, ?_, ?_⟩ <;> linarith

end IsAt

/-! ## Places along a side -/

/-- A place between two ends, walked to in either direction, is pushed in between the margins if
there is room for them, and is the middle otherwise. -/
lemma value_along {low high : ℚ} (horder : low ≤ high) {start stop : ℚ}
    (hends : start = low ∧ stop = high ∨ start = high ∧ stop = low) (fraction margin : ℚ) :
    (along start stop fraction margin).value =
      if 2 * margin < high - low then
        (clamp (low + margin) (high - margin)
          (start + (stop - start) * (clamp 0 1 fraction).value)).value
      else (low + high) / 2 := by
  have hsorted : (if start ≤ stop then (start, stop) else (stop, start)) = (low, high) := by
    rcases hends with ⟨rfl, rfl⟩ | ⟨rfl, rfl⟩
    · exact if_pos horder
    · rcases horder.lt_or_eq with hlt | rfl
      · exact if_neg (not_le.mpr hlt)
      · exact if_pos le_rfl
  unfold along
  rw [hsorted]
  simp only [Guarded.value_bind, Scalar.num_exact]
  push_cast
  split_ifs <;> rfl

/-- A place between two ends, walked to in either direction, keeps its margin from both of them if
there is room for the margins. -/
lemma along_within {low high margin : ℚ} (hmargin : 0 ≤ margin) (hroom : 2 * margin ≤ high - low)
    {start stop : ℚ} (hends : start = low ∧ stop = high ∨ start = high ∧ stop = low)
    (fraction : ℚ) :
    low + margin ≤ (along start stop fraction margin).value ∧
      (along start stop fraction margin).value ≤ high - margin := by
  rw [value_along (by linarith) hends]
  split_ifs
  · exact clamp_within (by linarith) _
  · constructor <;> linarith

/-- The point of a side for a list key is on its line and keeps its margin from the corners if there
is room for the margins. -/
lemma point_within (side : Side) {symbol : Rect ℚ} {margin : ℚ} (hmargin : 0 ≤ margin)
    (hroom : 2 * margin ≤ (side.extent symbol).2 - (side.extent symbol).1) (fraction : ℚ) :
    side.outside symbol (side.point symbol fraction margin).value = 0 ∧
      (side.extent symbol).1 + margin ≤ side.place (side.point symbol fraction margin).value ∧
      side.place (side.point symbol fraction margin).value ≤ (side.extent symbol).2 - margin := by
  cases side with
  | right => exact ⟨sub_self _, along_within hmargin hroom (Or.inr ⟨rfl, rfl⟩) fraction⟩
  | top => exact ⟨sub_self _, along_within hmargin hroom (Or.inr ⟨rfl, rfl⟩) fraction⟩
  | left => exact ⟨sub_self _, along_within hmargin hroom (Or.inl ⟨rfl, rfl⟩) fraction⟩
  | bottom => exact ⟨sub_self _, along_within hmargin hroom (Or.inl ⟨rfl, rfl⟩) fraction⟩

/-- A square whose middle is moved straight outward from a point of a side is at that side if the
point is half the square away from the corners. -/
lemma isAt_centered (side : Side) {symbol : Rect ℚ} {size : ℚ} {p : Point ℚ}
    (hon : side.outside symbol p = 0) (hlow : (side.extent symbol).1 + size / 2 ≤ side.place p)
    (hhigh : side.place p ≤ (side.extent symbol).2 - size / 2) (distance : ℚ) :
    side.IsAt symbol size distance
      (.centered (p + side.outward.step.scale distance) ⟨size, size⟩) := by
  refine ⟨Rect.width_centered _ _, Rect.height_centered _ _, ?_, ?_, ?_⟩
  all_goals
    cases side <;> simp only [outside, extent, place] at hon hlow hhigh <;>
      simp only [outside, extent, Rect.center, Rect.centered, outward, Direction.step, Point.scale,
        Point.add_x, Point.add_y, Scalar.num_exact] <;> push_cast <;> linarith

/-- An icon is at the side that its list key chooses, at the distance of its kind, if the symbol is
not smaller than the icon. -/
theorem isAt_iconBox {config : Config ℚ} (hicon : 0 ≤ config.iconSize) (owner : ClassifierKind)
    (f : Feature) {symbol : Rect ℚ} (hwidth : config.iconSize ≤ symbol.width)
    (hheight : config.iconSize ≤ symbol.height) :
    (ofKey f.listKey).IsAt symbol config.iconSize (iconDistance config owner f.kind)
      (iconBox config owner f symbol).value := by
  have hroom : 2 * (config.iconSize / 2) ≤
      ((ofKey f.listKey).extent symbol).2 - ((ofKey f.listKey).extent symbol).1 := by
    rw [mul_div_cancel₀ _ two_ne_zero]
    cases ofKey f.listKey with
    | right => exact hheight
    | top => exact hwidth
    | left => exact hheight
    | bottom => exact hwidth
  obtain ⟨hon, hlow, hhigh⟩ :=
    (ofKey f.listKey).point_within (by linarith) hroom (fractionOfKey f.listKey)
  exact isAt_centered _ hon hlow hhigh _

end Side

/-! ## Kinds -/

/-- Ports and pins of behavior sit outside the border. -/
def SitsOutside (owner : ClassifierKind) (kind : FeatureKind) : Prop :=
  owner.isBehavioral = true ∧ (kind = .port ∨ kind = .inPin ∨ kind = .outPin)

/-- Interfaces are at their own distance. -/
lemma iconDistance_of_isInterface (config : Config ℚ) (owner : ClassifierKind) {kind : FeatureKind}
    (hkind : kind.isInterface = true) :
    iconDistance config owner kind = 2 * config.distance + config.border := by
  rw [iconDistance, if_pos hkind, Scalar.num_exact]
  norm_num

/-- Half of an icon on the border of a constraint block is inside. -/
lemma iconDistance_of_isConstraintBlock (config : Config ℚ) {owner : ClassifierKind}
    {kind : FeatureKind} (hkind : kind.isBorderFeature = true)
    (howner : owner.isConstraintBlock = true) :
    iconDistance config owner kind = -(config.iconSize / 2) := by
  have hinterface : kind.isInterface = false := by
    cases kind <;> simp_all [FeatureKind.isBorderFeature, FeatureKind.isInterface]
  unfold iconDistance outwardOffset
  rw [hinterface, if_pos howner, Scalar.num_exact]
  norm_num

/-- Half of an icon that sits outside is outside. -/
lemma iconDistance_of_sitsOutside (config : Config ℚ) {owner : ClassifierKind} {kind : FeatureKind}
    (hkind : SitsOutside owner kind) (howner : owner.isConstraintBlock = false) :
    iconDistance config owner kind = config.iconSize / 2 := by
  obtain ⟨hbehavioral, rfl | rfl | rfl⟩ := hkind
  all_goals
    simp only [iconDistance, outwardOffset, FeatureKind.isInterface, howner, hbehavioral,
      Scalar.num_exact, Bool.false_eq_true, if_false, if_true]
    push_cast
    ring

/-- Every other icon on the border has its middle there. -/
lemma iconDistance_of_not_sitsOutside (config : Config ℚ) {owner : ClassifierKind}
    {kind : FeatureKind} (hkind : kind.isBorderFeature = true)
    (howner : owner.isConstraintBlock = false) (hinside : ¬ SitsOutside owner kind) :
    iconDistance config owner kind = 0 := by
  have hborder (h : kind = .port ∨ kind = .inPin ∨ kind = .outPin) :
      owner.isBehavioral = false := by
    by_contra hbehavioral
    exact hinside ⟨by simpa using hbehavioral, h⟩
  cases kind <;> simp_all [FeatureKind.isBorderFeature, iconDistance, outwardOffset,
    FeatureKind.isInterface]

/-! ## Icons of a drawing -/

/-- What is true of the icon of a feature at the symbol of its owner. -/
structure PlacesIcon (config : Config ℚ) (owner : PlacedClassifier ℚ) (f : Feature)
    (box : Rect ℚ) : Prop where
  width : box.width = config.iconSize
  height : box.height = config.iconSize
  low : ((Side.ofKey f.listKey).extent owner.boxes.symbol).1 ≤
    ((Side.ofKey f.listKey).extent box).1
  high : ((Side.ofKey f.listKey).extent box).2 ≤
    ((Side.ofKey f.listKey).extent owner.boxes.symbol).2
  inside : f.kind.isBorderFeature = true → owner.element.kind.isConstraintBlock = true →
    owner.boxes.symbol.contains box = true
  touches : owner.element.kind.isConstraintBlock = false → SitsOutside owner.element.kind f.kind →
    (Side.ofKey f.listKey).gap owner.boxes.symbol box = 0 ∧
      owner.boxes.symbol.overlapArea box = 0
  centered : f.kind.isBorderFeature = true → owner.element.kind.isConstraintBlock = false →
    ¬ SitsOutside owner.element.kind f.kind →
      (Side.ofKey f.listKey).outside owner.boxes.symbol box.center = 0
  floats : f.kind.isInterface = true →
    (Side.ofKey f.listKey).outside owner.boxes.symbol box.center =
      2 * config.distance + config.border
  clear : f.kind.isInterface = true → config.iconSize ≤ 2 * (2 * config.distance + config.border) →
    owner.boxes.symbol.overlapArea box = 0

/-- The icon box of a feature is where the kinds require it. -/
theorem placesIcon_iconBox {config : Config ℚ} (hicon : 0 ≤ config.iconSize)
    (owner : PlacedClassifier ℚ) (f : Feature)
    (hwidth : config.iconSize ≤ owner.boxes.symbol.width)
    (hheight : config.iconSize ≤ owner.boxes.symbol.height) :
    PlacesIcon config owner f (iconBox config owner.element.kind f owner.boxes.symbol).value := by
  have hat := Side.isAt_iconBox hicon owner.element.kind f hwidth hheight
  refine ⟨hat.width, hat.height, hat.low, hat.high, ?_, ?_, ?_, ?_, ?_⟩
  · intro hkind howner
    rw [iconDistance_of_isConstraintBlock config hkind howner] at hat
    exact hat.contains hwidth hheight
  · intro howner hkind
    rw [iconDistance_of_sitsOutside config hkind howner] at hat
    exact ⟨by rw [hat.gap_eq, sub_self], hat.overlapArea_eq_zero le_rfl⟩
  · intro hkind howner hinside
    rw [hat.center, iconDistance_of_not_sitsOutside config hkind howner hinside]
  · intro hkind
    rw [hat.center, iconDistance_of_isInterface config _ hkind]
  · intro hkind hroom
    rw [iconDistance_of_isInterface config _ hkind] at hat
    exact hat.overlapArea_eq_zero (by linarith)

/-- A feature with an icon gets its icon box when it is placed beside its classifier. -/
lemma value_placeBeside_icon (config : Config ℚ) (diagram : DiagramKind) (drawArea : Rect ℚ)
    (owner : PlacedClassifier ℚ) {f : PlacedFeature ℚ}
    (hkind : f.element.kind.isBorderFeature = true ∨ f.element.kind.isInterface = true) :
    (placeBeside config diagram drawArea owner f).value =
      { f with
        symbol := (iconBox config owner.element.kind f.element owner.boxes.symbol).value
        direction := iconDirection (Side.ofKey f.element.listKey) f.element.kind } := by
  unfold placeBeside
  cases hf : f.element.kind <;> simp_all [FeatureKind.isBorderFeature, FeatureKind.isInterface,
    FeatureKind.isCompartmentEntry]

/-- Features with icons are not entries of compartments. -/
lemma isCompartmentEntry_of_icon {kind : FeatureKind}
    (hkind : kind.isBorderFeature = true ∨ kind.isInterface = true) :
    kind.isCompartmentEntry = false := by
  revert hkind
  cases kind <;> decide

/-- Placing the features is defined and gives every port, pin, entry point, exit point and interface
its icon, if the symbol of its owner is not smaller than an icon. -/
theorem Drawing.placesIcon_layoutFeatures (m : Composer ℚ) {config : Config ℚ}
    (hicon : 0 < config.iconSize) {d : Drawing ℚ} {i : ℕ} {f : PlacedFeature ℚ}
    (hf : d.features[i]? = some f)
    (hkind : f.element.kind.isBorderFeature = true ∨ f.element.kind.isInterface = true)
    {owner : PlacedClassifier ℚ} (howner : d.classifiers[f.owner]? = some owner)
    (hwidth : config.iconSize ≤ owner.boxes.symbol.width)
    (hheight : config.iconSize ≤ owner.boxes.symbol.height) :
    ∃ g, d.layoutFeatures m config = g ∧ g.defined = true ∧
      ∃ f', g.value.features[i]? = some f' ∧ f'.element = f.element ∧
        PlacesIcon config owner f.element f'.symbol := by
  have hplaced := beside_layoutFeatures m config hf (isCompartmentEntry_of_icon hkind) howner
  rw [value_placeBeside_icon config _ _ owner hkind] at hplaced
  exact ⟨_, rfl, defined_layoutFeatures m d, _, hplaced, rfl,
    placesIcon_iconBox hicon.le owner f.element hwidth hheight⟩

/-- An action that is no higher than an icon. -/
def flatAction : PlacedClassifier ℚ where
  element := ⟨⟨1⟩, .action, "", 0, 0, false⟩
  boxes := ⟨.ofCorner 0 0 120 12, .ofCorner 4 4 112 4, .empty, .empty⟩

/-- The pin in the middle of the left side of the action. -/
def flatActionPin : PlacedFeature ℚ where
  element := ⟨⟨2⟩, ⟨1⟩, .inPin, "", "", 0⟩
  owner := 0
  symbol := .empty
  label := .empty
  direction := .center

/-- The drawing of the action with its pin. -/
def flatActionDrawing : Drawing ℚ where
  diagram := ⟨⟨1⟩, .activity, ""⟩
  sheet := .ofBounds (.ofCorner 0 0 800 600) .standard .xy
  nesting := .flat 1
  classifiers := [flatAction]
  features := [flatActionPin]
  relationships := []

/-- The pin has its place although there is no room for margins along its side. -/
theorem placesIcon_layoutFeatures_flatAction :
    ∃ g, flatActionDrawing.layoutFeatures (.ofConfig .standard) .standard = g ∧
      g.defined = true ∧ ∃ f', g.value.features[0]? = some f' ∧
        f'.element = flatActionPin.element ∧
        PlacesIcon .standard flatAction flatActionPin.element f'.symbol :=
  Drawing.placesIcon_layoutFeatures (.ofConfig .standard) (by decide +kernel) rfl
    (Or.inl (by decide)) rfl (by decide +kernel) (by decide +kernel)

end DiagramLayout
