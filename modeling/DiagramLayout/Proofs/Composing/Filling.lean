import DiagramLayout.Proofs.Composing

/-!
# Filling an envelope

A classifier that is composed around an envelope is to fill it: its symbol and its name together
reach as far as the envelope and no further. The symbol always stays within the envelope; whether
the name completes it depends on the shape.

* Above a *nesting* classifier the tab with the name takes a strip off the envelope
  (`Composer.envelope_of_nesting`). Without a border and without a name the tab has no width, and
  what has no extent takes no part in an envelope: the strip is left over.
* Below a *figure* the name is as wide as the symbol, and the two fill the envelope
  (`Composer.envelope_of_figure`).
* Within a *plain* classifier the name begins one border below the upper edge. Its height is limited
  to the height of the envelope and not to what the border leaves of it, so it sticks out of an
  envelope that is lower than a border and a line (`Composer.envelope_of_plain`).

`Composer.HasRoomForName` collects the three conditions, and `Composer.fills_aroundEnvelope_iff` says
that an envelope of some extent is filled exactly under them.
-/

namespace DiagramLayout

/-! ## Joining a symbol and its name -/

namespace Rect

/-- A strip on top of a rectangle that is at least as wide joins with it. -/
lemma join_strip_above {left right top middle bottom stop : ℚ} (htop : top ≤ middle)
    (hbottom : middle ≤ bottom) (hstop : stop ≤ right) :
    join ⟨left, middle, right, bottom⟩ ⟨left, top, stop, middle⟩ = ⟨left, top, right, bottom⟩ := by
  simp [join, htop, hbottom, hstop]

/-- A strip below a rectangle of the same width joins with it. -/
lemma join_strip_below {left right top middle bottom : ℚ} (htop : top ≤ middle)
    (hbottom : middle ≤ bottom) :
    join ⟨left, top, right, middle⟩ ⟨left, middle, right, bottom⟩ = ⟨left, top, right, bottom⟩ := by
  simp [join, htop, hbottom]

end Rect

/-- A name of some extent is part of the envelope. -/
lemma envelopeOf_of_solid {label : Rect ℚ} (h : label.Solid) (symbol : Rect ℚ) :
    envelopeOf symbol label = symbol.join label := by
  rw [envelopeOf, Rect.solid_iff.mp h, if_neg Bool.false_ne_true]

/-- A name without extent takes no part in the envelope. -/
lemma envelopeOf_of_not_solid {label : Rect ℚ} (h : ¬ label.Solid) (symbol : Rect ℚ) :
    envelopeOf symbol label = symbol := by
  rw [Rect.solid_iff, Bool.not_eq_false] at h
  rw [envelopeOf, if_pos h]

namespace Composer

variable {m : Composer ℚ} {c : Classifier} {nests : Bool} {envelope : Rect ℚ}

/-! ## The strip for the name -/

/-- The height of the strip for the name in an envelope. -/
def strip (m : Composer ℚ) (envelope : Rect ℚ) : ℚ := min m.headerHeight envelope.height

/-- In an envelope of some extent the strip for the name has a height. -/
lemma Usable.strip_pos (hm : m.Usable) (h : envelope.Solid) : 0 < m.strip envelope :=
  lt_min (hm.border.trans_lt hm.border_lt_headerHeight) (sub_pos.mpr h.y)

/-- The strip for the name ends within the envelope. -/
lemma top_add_strip_le (m : Composer ℚ) (envelope : Rect ℚ) :
    envelope.minY + m.strip envelope ≤ envelope.maxY := by
  have hstrip : m.strip envelope ≤ envelope.maxY - envelope.minY := min_le_right _ _
  linarith

/-- A tab has a width exactly if there is a name or a border. -/
lemma Usable.tabWidth_pos_iff (hm : m.Usable) (name : String) :
    0 < m.tabWidth name ↔ name ≠ "" ∨ 0 < m.border := by
  have hb := hm.border
  have htab : m.tabWidth name = (m.textSize name).width + 2 * m.border := by
    simp [tabWidth]
  rw [htab, textSize]
  split_ifs with hempty
  · rw [String.isEmpty_iff] at hempty
    have hwidth : (Size.zero : Size ℚ).width = 0 := rfl
    rw [hwidth, zero_add, mul_pos_iff_of_pos_left two_pos]
    exact ⟨Or.inr, fun h => h.resolve_left (not_not.mpr hempty)⟩
  · rw [String.isEmpty_iff] at hempty
    have hlength : (0 : ℚ) < name.length :=
      Nat.cast_pos.mpr (Nat.pos_of_ne_zero (mt String.length_eq_zero_iff.mp hempty))
    have hwidth : 0 < (name.length : ℚ) * m.charWidth := mul_pos hlength hm.charWidth
    refine iff_of_true ?_ (Or.inl hempty)
    change 0 < (name.length : ℚ) * m.charWidth + 2 * m.border
    linarith

/-! ## Shape by shape -/

/-- The boxes of a nesting classifier: a tab above, and below it the symbol. -/
lemma boxes_of_nesting (hshape : Shape.of c.kind nests = .nesting) (h : envelope.Solid) :
    (m.aroundEnvelope c envelope nests).symbol =
        { envelope with minY := envelope.minY + m.strip envelope } ∧
      (m.aroundEnvelope c envelope nests).label =
        ⟨envelope.minX, envelope.minY, envelope.minX + min (m.tabWidth c.name) envelope.width,
          envelope.minY + m.strip envelope⟩ := by
  have hheight : max envelope.height 0 = envelope.height := max_eq_left (sub_pos.mpr h.y).le
  have hwidth : max envelope.width 0 = envelope.width := max_eq_left (sub_pos.mpr h.x).le
  have hstrip : min m.headerHeight envelope.height = m.strip envelope := rfl
  unfold aroundEnvelope
  simp only [hshape, Scalar.min_exact, Scalar.max_exact, hheight, hwidth, hstrip]
  simp only [Rect.ofCorner, Rect.width, Rect.height, Rect.mk.injEq, true_and, and_true]
  constructor <;> ring

/-- The boxes of a figure: the symbol, and below it the name. -/
lemma boxes_of_figure (hshape : Shape.of c.kind nests = .figure) (h : envelope.Solid) :
    (m.aroundEnvelope c envelope nests).symbol =
        { envelope with maxY := envelope.maxY - m.strip envelope } ∧
      (m.aroundEnvelope c envelope nests).label =
        { envelope with minY := envelope.maxY - m.strip envelope } := by
  have hheight : max envelope.height 0 = envelope.height := max_eq_left (sub_pos.mpr h.y).le
  have hwidth : max envelope.width 0 = envelope.width := max_eq_left (sub_pos.mpr h.x).le
  have hstrip : min m.headerHeight envelope.height = m.strip envelope := rfl
  unfold aroundEnvelope
  simp only [hshape, Scalar.min_exact, Scalar.max_exact, hheight, hwidth, hstrip]
  simp only [Rect.ofCorner, Rect.width, Rect.height, Rect.mk.injEq, true_and]
  refine ⟨⟨?_, ?_⟩, ?_, ?_, ?_⟩ <;> ring

/-- The boxes of a plain classifier: the symbol, and within it the name. -/
lemma boxes_of_plain (hshape : Shape.of c.kind nests = .plain) (h : envelope.Solid) :
    (m.aroundEnvelope c envelope nests).symbol = envelope ∧
      (m.aroundEnvelope c envelope nests).label =
        .ofCorner (envelope.minX + m.border) (envelope.minY + m.border)
          (max (envelope.width - 2 * m.border) 0) (min m.lineHeight (m.strip envelope)) := by
  have hheight : max envelope.height 0 = envelope.height := max_eq_left (sub_pos.mpr h.y).le
  have hwidth : max envelope.width 0 = envelope.width := max_eq_left (sub_pos.mpr h.x).le
  unfold aroundEnvelope
  simp only [hshape, Scalar.min_exact, Scalar.max_exact, hheight, hwidth, Scalar.num_exact]
  exact ⟨trivial, rfl⟩

/-- A nesting classifier fills its envelope unless there is neither a name nor a border. -/
lemma envelope_of_nesting (hm : m.Usable) (hshape : Shape.of c.kind nests = .nesting)
    (h : envelope.Solid) :
    (m.aroundEnvelope c envelope nests).envelope =
      if c.name ≠ "" ∨ 0 < m.border then envelope
      else { envelope with minY := envelope.minY + m.strip envelope } := by
  have hstrip := hm.strip_pos h
  obtain ⟨hsymbol, hlabel⟩ := boxes_of_nesting (m := m) hshape h
  rw [ClassifierBoxes.envelope, hsymbol, hlabel]
  split_ifs with htab
  · have hwidth := (hm.tabWidth_pos_iff c.name).mpr htab
    rw [envelopeOf_of_solid
      ⟨lt_add_of_pos_right _ (lt_min hwidth (sub_pos.mpr h.x)), lt_add_of_pos_right _ hstrip⟩]
    refine Rect.join_strip_above (le_add_of_nonneg_right hstrip.le) (top_add_strip_le m envelope) ?_
    have hin : min (m.tabWidth c.name) envelope.width ≤ envelope.maxX - envelope.minX :=
      min_le_right _ _
    linarith
  · rw [envelopeOf_of_not_solid]
    rintro ⟨hx, -⟩
    exact htab ((hm.tabWidth_pos_iff c.name).mp
      ((pos_of_lt_add_right hx).trans_le (min_le_left _ _)))

/-- A figure fills its envelope. -/
lemma envelope_of_figure (hm : m.Usable) (hshape : Shape.of c.kind nests = .figure)
    (h : envelope.Solid) : (m.aroundEnvelope c envelope nests).envelope = envelope := by
  have hstrip := hm.strip_pos h
  obtain ⟨hsymbol, hlabel⟩ := boxes_of_figure (m := m) hshape h
  have hsolid : Rect.Solid { envelope with minY := envelope.maxY - m.strip envelope } :=
    ⟨h.x, sub_lt_self envelope.maxY hstrip⟩
  rw [ClassifierBoxes.envelope, hsymbol, hlabel, envelopeOf_of_solid hsolid]
  refine Rect.join_strip_below ?_ (sub_le_self _ hstrip.le)
  linarith [top_add_strip_le m envelope]

/-- A plain classifier reaches as far as its envelope, and if its name has a width also as far down
as its name. -/
lemma envelope_of_plain (hm : m.Usable) (hshape : Shape.of c.kind nests = .plain)
    (h : envelope.Solid) :
    (m.aroundEnvelope c envelope nests).envelope =
      if 2 * m.border < envelope.width then
        { envelope with
          maxY := max envelope.maxY
            (envelope.minY + m.border + min m.lineHeight (m.strip envelope)) }
      else envelope := by
  have hb := hm.border
  have hline : 0 < min m.lineHeight (m.strip envelope) := lt_min hm.lineHeight (hm.strip_pos h)
  obtain ⟨hsymbol, hlabel⟩ := boxes_of_plain (m := m) hshape h
  rw [ClassifierBoxes.envelope, hsymbol, hlabel]
  split_ifs with hwide
  · have hroom : max (envelope.width - 2 * m.border) 0 = envelope.width - 2 * m.border :=
      max_eq_left (sub_pos.mpr hwide).le
    have hright : envelope.minX + m.border + (envelope.width - 2 * m.border) ≤ envelope.maxX := by
      rw [Rect.width]
      linarith
    rw [hroom, envelopeOf_of_solid
      ⟨lt_add_of_pos_right _ (sub_pos.mpr hwide), lt_add_of_pos_right _ hline⟩]
    simp [Rect.join, Rect.ofCorner, hb, hright]
  · rw [envelopeOf_of_not_solid]
    rintro ⟨hx, -⟩
    rw [Rect.ofCorner, max_eq_right (sub_nonpos.mpr (not_lt.mp hwide)), add_zero] at hx
    exact lt_irrefl _ hx

/-- The name within a plain classifier ends in the envelope exactly if there is no border or if
there is room for a border and a line. -/
lemma Usable.name_within_iff (hm : m.Usable) (h : envelope.Solid) :
    envelope.minY + m.border + min m.lineHeight (m.strip envelope) ≤ envelope.maxY ↔
      m.border = 0 ∨ m.border + m.lineHeight ≤ envelope.height := by
  have hb := hm.border
  have hheight : 0 < envelope.height := sub_pos.mpr h.y
  have hend : envelope.maxY = envelope.minY + envelope.height := by
    rw [Rect.height]
    ring
  have hheader : m.lineHeight ≤ m.headerHeight := by
    simp only [headerHeight, Scalar.num_exact]
    push_cast
    linarith
  rw [strip, ← min_assoc, min_eq_left hheader, hend, add_assoc, add_le_add_iff_left]
  rcases le_total m.lineHeight envelope.height with hline | hline
  · rw [min_eq_left hline]
    refine ⟨Or.inr, ?_⟩
    rintro (hnone | hroom)
    · rwa [hnone, zero_add]
    · exact hroom
  · -- the name is as high as the whole envelope, so only a border of zero leaves room for it
    rw [min_eq_right hline]
    constructor
    · intro hroom
      exact Or.inl (by linarith)
    · rintro (hnone | hroom) <;> linarith

/-! ## All shapes -/

/-- The name of a classifier has room in an envelope where its shape puts it. -/
def HasRoomForName (m : Composer ℚ) (c : Classifier) (nests : Bool) (envelope : Rect ℚ) : Prop :=
  match Shape.of c.kind nests with
  | .nesting => c.name ≠ "" ∨ 0 < m.border
  | .figure => True
  | .plain =>
    m.border = 0 ∨ envelope.width ≤ 2 * m.border ∨ m.border + m.lineHeight ≤ envelope.height

/-- With the metrics of a configuration that passes its check, the symbol of a classifier that is
composed around an envelope of some extent stays within it, and the name sticks out, if it does, at
the lower edge and by a border at most. Symbol and name fill the envelope exactly if there is room
for the name. -/
theorem fills_aroundEnvelope_iff {config : Config ℚ} (hconfig : config.validate = .ok ())
    (c : Classifier) (nests : Bool) {envelope : Rect ℚ} (h : envelope.Solid) :
    envelope.contains ((ofConfig config).aroundEnvelope c envelope nests).symbol = true ∧
      Rect.contains { envelope with maxY := envelope.maxY + config.border }
        ((ofConfig config).aroundEnvelope c envelope nests).envelope = true ∧
      (((ofConfig config).aroundEnvelope c envelope nests).envelope = envelope ↔
        (ofConfig config).HasRoomForName c nests envelope) := by
  have hm := (Config.usable_of_validate hconfig).composer
  have hb : 0 ≤ config.border := hm.border
  have hstrip := hm.strip_pos h
  have hend := top_add_strip_le (ofConfig config) envelope
  have hlow : envelope.maxY ≤ envelope.maxY + config.border := le_add_of_nonneg_right hb
  simp only [Rect.contains_iff, HasRoomForName]
  cases hshape : Shape.of c.kind nests with
  | nesting =>
    rw [(boxes_of_nesting hshape h).1, envelope_of_nesting hm hshape h]
    refine ⟨⟨le_rfl, by linarith, le_rfl, le_rfl⟩, ?_⟩
    split_ifs with hroom
    · exact ⟨⟨le_rfl, le_rfl, le_rfl, hlow⟩, iff_of_true rfl hroom⟩
    · refine ⟨⟨le_rfl, by linarith, le_rfl, hlow⟩, iff_of_false (fun hfills => ?_) hroom⟩
      have htop : envelope.minY + (ofConfig config).strip envelope = envelope.minY :=
        congrArg Rect.minY hfills
      linarith
  | figure =>
    rw [(boxes_of_figure hshape h).1, envelope_of_figure hm hshape h]
    exact ⟨⟨le_rfl, le_rfl, le_rfl, by linarith⟩, ⟨le_rfl, le_rfl, le_rfl, hlow⟩,
      iff_of_true rfl trivial⟩
  | plain =>
    rw [(boxes_of_plain hshape h).1, envelope_of_plain hm hshape h]
    refine ⟨⟨le_rfl, le_rfl, le_rfl, le_rfl⟩, ?_⟩
    split_ifs with hwide
    · have hname : min (ofConfig config).lineHeight ((ofConfig config).strip envelope) ≤
          (ofConfig config).strip envelope := min_le_right _ _
      refine ⟨⟨le_rfl, le_rfl, le_rfl, max_le hlow ?_⟩, ?_⟩
      · change envelope.minY + config.border + _ ≤ _
        linarith
      · rw [Rect.mk.injEq, or_iff_right (not_le.mpr hwide), ← hm.name_within_iff h]
        simp only [true_and, max_eq_left_iff]
    · exact ⟨⟨le_rfl, le_rfl, le_rfl, hlow⟩,
        iff_of_true rfl (Or.inr (Or.inl (not_lt.mp hwide)))⟩

/-- A class named Engine. -/
def engine : Classifier := ⟨⟨1⟩, .classType, "Engine", 0, 0, false⟩

/-- An envelope that is a little lower than a border and a line. -/
def lowEnvelope : Rect ℚ := .ofCorner 0 0 120 15

/-- In the low envelope the name of the class ends below the symbol. -/
theorem engine_not_fills_lowEnvelope :
    (Config.standard : Config ℚ).validate = .ok () ∧ lowEnvelope.Solid ∧
      ((ofConfig (.standard : Config ℚ)).aroundEnvelope engine lowEnvelope false).envelope ≠
        lowEnvelope :=
  ⟨by decide +kernel, ⟨by decide +kernel, by decide +kernel⟩, by decide +kernel⟩

/-- A package without a name. -/
def namelessPackage : Classifier := ⟨⟨1⟩, .package, "", 0, 0, false⟩

/-- A configuration without borders. -/
def borderless : Config ℚ := { Config.standard with border := 0 }

/-- Without a border and a name the package that nests others leaves the strip for its tab over. -/
theorem fills_aroundEnvelope_iff_namelessPackage :
    borderless.validate = .ok () ∧ (Rect.ofCorner 0 0 120 60 : Rect ℚ).Solid ∧
      Rect.contains (.ofCorner 0 0 120 60)
        ((ofConfig borderless).aroundEnvelope namelessPackage (.ofCorner 0 0 120 60) true).symbol =
          true ∧
      Rect.contains { (Rect.ofCorner 0 0 120 60 : Rect ℚ) with
          maxY := (Rect.ofCorner 0 0 120 60 : Rect ℚ).maxY + borderless.border }
        ((ofConfig borderless).aroundEnvelope namelessPackage
          (.ofCorner 0 0 120 60) true).envelope = true ∧
      (((ofConfig borderless).aroundEnvelope namelessPackage
          (.ofCorner 0 0 120 60) true).envelope = .ofCorner 0 0 120 60 ↔
        (ofConfig borderless).HasRoomForName namelessPackage true (.ofCorner 0 0 120 60)) :=
  have hvalid : borderless.validate = .ok () := by decide +kernel
  have hsolid : (Rect.ofCorner 0 0 120 60 : Rect ℚ).Solid := ⟨by decide +kernel, by decide +kernel⟩
  ⟨hvalid, hsolid, fills_aroundEnvelope_iff hvalid namelessPackage true hsolid⟩

end Composer

end DiagramLayout
