import DiagramLayout.Proofs.Classifiers.Phases
import DiagramLayout.Proofs.Records
import DiagramLayout.Proofs.Translation.Geometry

/-!
# Drawings on a translated sheet

`Drawing.MovedBy` compares two drawings: the second one has the sheet and the classifiers of the
first one at another place. Icons are left out of the comparison. A container that is composed anew
has no icon, and the empty rectangle that stands for it is at the origin of the plane wherever the
sheet is.

What the layout reads of two such drawings is the same or moves as well, and changes of the one and
of the other keep them comparable. Positions must be those of classifiers for this
(`Drawing.InRange`): what is read beyond the list does not move.
-/

namespace DiagramLayout

/-! ## Searches -/

namespace Scalar

variable {α β γ : Type} [Scalar α] {view : β → γ} {measure : β → α} {measure' : γ → α}

/-- A search finds the image of what it finds, if the images measure the same. -/
lemma leastBy_map (h : ∀ b, measure' (view b) = measure b) (xs : List β) :
    leastBy measure' (xs.map view) = (leastBy measure xs).map view := by
  cases xs with
  | nil => rfl
  | cons x xs =>
    have hstep (best y : β) : (if precedes (measure' (view y)) (measure' (view best)) then view y
        else view best) = view (if precedes (measure y) (measure best) then y else best) := by
      rw [h, h, apply_ite view]
    simp only [leastBy, List.map_cons, Option.map_some, List.foldl_map]
    exact congrArg some (List.foldl_hom view hstep)

/-- A search for the cheapest finds the image of what it finds, if the images cost the same. -/
lemma cheapestBy_map (h : ∀ b, measure' (view b) = measure b) (xs : List β) :
    cheapestBy measure' (xs.map view) = (cheapestBy measure xs).map view := by
  have hstep (best : Option (β × α)) (b : β) :
      cheaper measure' (best.map fun p => (view p.1, p.2)) (view b) =
        (cheaper measure best b).map fun p => (view p.1, p.2) := by
    unfold cheaper
    rw [h]
    cases best with
    | none =>
      dsimp only [Option.map_none]
      split_ifs <;> rfl
    | some p =>
      dsimp only [Option.map_some]
      split_ifs <;> rfl
  unfold cheapestBy
  rw [List.foldl_map, ← Option.map_none (fun p : β × α => (view p.1, p.2)),
    List.foldl_hom (Option.map fun p : β × α => (view p.1, p.2)) hstep, Option.map_map,
    Option.map_map]
  rfl

end Scalar

/-! ## Boxes -/

namespace ClassifierBoxes

/-- The second boxes are the first ones moved by an offset, apart from the icon. -/
structure MovedBy (v : Point ℚ) (b b' : ClassifierBoxes ℚ) : Prop where
  symbol : b'.symbol = b.symbol.translate v
  space : b'.space = b.space.translate v
  label : b'.label = b.label.translate v

variable {v : Point ℚ} {b b' : ClassifierBoxes ℚ}

/-- The envelope moves with the boxes. -/
lemma MovedBy.envelope (h : b.MovedBy v b') : b'.envelope = b.envelope.translate v := by
  rw [ClassifierBoxes.envelope, h.symbol, h.label, envelopeOf_translate]
  rfl

/-- Boxes stay comparable when both are moved by the same offset. -/
lemma MovedBy.translate (h : b.MovedBy v b') (w : Point ℚ) :
    (b.translate w).MovedBy v (b'.translate w) := by
  have hbox {r r' : Rect ℚ} (hr : r' = r.translate v) :
      r'.translate w = (r.translate w).translate v := by
    rw [hr, Rect.translate_comm]
  exact ⟨hbox h.symbol, hbox h.space, hbox h.label⟩

/-- Boxes that are moved further are moved boxes moved. -/
lemma movedBy_translate_add (b : ClassifierBoxes ℚ) (w v : Point ℚ) :
    (b.translate w).MovedBy v (b.translate (w + v)) where
  symbol := Rect.translate_add b.symbol w v
  space := Rect.translate_add b.space w v
  label := Rect.translate_add b.label w v

end ClassifierBoxes

/-! ## Composing -/

namespace Composer

variable (m : Composer ℚ) (c : Classifier) (v : Point ℚ)

/-- Boxes that are composed around an envelope move with it. -/
theorem aroundEnvelope_translate (envelope : Rect ℚ) (nests : Bool) :
    (m.aroundEnvelope c envelope nests).MovedBy v
      (m.aroundEnvelope c (envelope.translate v) nests) := by
  have hcorner (r : Rect ℚ) (height width' height' : ℚ) :
      Rect.ofCorner (r.minX + v.x) (r.minY + v.y + height) width' height' =
        (Rect.ofCorner r.minX (r.minY + height) width' height').translate v := by
    rw [add_right_comm, Rect.ofCorner_add]
  unfold aroundEnvelope
  simp only [Rect.width_translate, Rect.height_translate, Rect.translate_minX, Rect.translate_minY]
  cases Shape.of c.kind nests with
  | nesting =>
    dsimp only
    rw [hcorner, Rect.shrink_translate, Rect.ofCorner_add]
    exact ⟨rfl, rfl, rfl⟩
  | figure =>
    dsimp only
    rw [Rect.ofCorner_add, Rect.shrink_translate, Rect.translate_maxY, Rect.ofCorner_add]
    exact ⟨rfl, rfl, rfl⟩
  | plain =>
    dsimp only
    rw [Rect.shrink_translate, add_right_comm _ v.x, add_right_comm _ v.y, Rect.ofCorner_add]
    exact ⟨rfl, rfl, rfl⟩

/-- The envelope around a space moves with it. -/
lemma envelopeAround_translate (shape : Shape) (space : Rect ℚ) :
    m.envelopeAround shape (space.translate v) = (m.envelopeAround shape space).translate v := by
  cases shape with
  | nesting =>
    simp only [envelopeAround, Rect.pad_translate, Rect.width_translate, Rect.height_translate,
      Rect.translate_minX, Rect.translate_minY, add_sub_right_comm]
    exact Rect.ofCorner_add v _ _ _ _
  | figure => simp only [envelopeAround, Rect.pad_translate, Rect.enlarge_translate]
  | plain => simp only [envelopeAround, Rect.pad_translate]

/-- Boxes that are composed around a space move with it. -/
theorem aroundSpace_translate (space : Rect ℚ) (nests : Bool) :
    (m.aroundSpace c space nests).MovedBy v (m.aroundSpace c (space.translate v) nests) := by
  rw [aroundSpace, aroundSpace, envelopeAround_translate]
  exact aroundEnvelope_translate m c v _ nests

end Composer

/-! ## Strangers -/

section Strangers

variable (nesting : Nesting) (index : ℕ) (envelopes : List (Rect ℚ)) (v : Point ℚ)

/-- Strangers are where their envelopes are. -/
lemma strangers_translate : strangers nesting index (envelopes.map (·.translate v)) =
    (strangers nesting index envelopes).map (·.translate v) := by
  simp only [strangers, List.zipIdx_map, List.filter_map, List.map_map, Function.comp_def,
    Prod.map_fst, Prod.map_snd, id_eq]

/-- The overlap with strangers is kept if all envelopes move. -/
lemma strangerOverlap_translate (probe : Rect ℚ) :
    strangerOverlap nesting index (envelopes.map (·.translate v)) (probe.translate v) =
      strangerOverlap nesting index envelopes probe := by
  rw [strangerOverlap, strangerOverlap, strangers_translate, List.map_map]
  simp only [Function.comp_def, Rect.overlapArea_translate]

end Strangers

/-! ## Classifiers -/

/-- A classifier without its icon. -/
def PlacedClassifier.iconless (c : PlacedClassifier ℚ) : PlacedClassifier ℚ :=
  { c with boxes := { c.boxes with icon := .empty } }

/-- A classifier with all its boxes moved. -/
def PlacedClassifier.translate (v : Point ℚ) (c : PlacedClassifier ℚ) : PlacedClassifier ℚ :=
  { c with boxes := c.boxes.translate v }

/-- Apart from the icons two classifiers are the same but for a move. -/
lemma PlacedClassifier.iconless_eq_iff {v : Point ℚ} {c c' : PlacedClassifier ℚ} :
    c'.iconless = (c.translate v).iconless ↔
      c'.element = c.element ∧ c.boxes.MovedBy v c'.boxes := by
  simp only [iconless, translate, ClassifierBoxes.translate, PlacedClassifier.mk.injEq,
    ClassifierBoxes.mk.injEq, and_true]
  refine and_congr_right fun _ => ?_
  constructor
  · rintro ⟨hsymbol, hspace, hlabel⟩
    exact ⟨hsymbol, hspace, hlabel⟩
  · intro h
    exact ⟨h.symbol, h.space, h.label⟩

/-- The sheet with its bounds, its draw area and its grid moved. -/
def Sheet.translate (sheet : Sheet ℚ) (v : Point ℚ) : Sheet ℚ :=
  ⟨sheet.bounds.translate v, sheet.drawArea.translate v, sheet.grid.translate v⟩

/-- The sheet of a diagram moves with its bounds. -/
lemma Sheet.ofBounds_translate (bounds : Rect ℚ) (config : Config ℚ) (kind : GridKind)
    (v : Point ℚ) :
    Sheet.ofBounds (bounds.translate v) config kind =
      (Sheet.ofBounds bounds config kind).translate v := by
  unfold ofBounds translate
  dsimp only
  rw [Rect.shrink_translate, Grid.spanning_translate]

namespace Drawing

/-- The second drawing has the sheet and the classifiers of the first one moved by an offset. Their
icons are not compared. -/
structure MovedBy (v : Point ℚ) (d d' : Drawing ℚ) : Prop where
  diagram : d'.diagram = d.diagram
  sheet : d'.sheet = d.sheet.translate v
  nesting : d'.nesting = d.nesting
  classifiers : d'.classifiers.map PlacedClassifier.iconless =
    d.classifiers.map fun c => (c.translate v).iconless

/-- All positions in a drawing are those of records. -/
structure InRange (d : Drawing ℚ) : Prop where
  nesting : d.nesting.size = d.classifiers.length
  owners : ∀ f ∈ d.features, f.owner < d.classifiers.length
  sources : ∀ r ∈ d.relationships, r.source < d.classifiers.length
  targets : ∀ r ∈ d.relationships, r.target < d.classifiers.length
  sourceFeatures : ∀ r ∈ d.relationships, ∀ f ∈ r.sourceFeature, f < d.features.length
  targetFeatures : ∀ r ∈ d.relationships, ∀ f ∈ r.targetFeature, f < d.features.length

namespace MovedBy

variable {v : Point ℚ} {d d' : Drawing ℚ}

/-! ### Reading -/

/-- What is read of classifiers but not of their icons is that of moved classifiers. -/
lemma map_classifiers {γ : Type} (h : d.MovedBy v d') {view : PlacedClassifier ℚ → γ}
    (hview : ∀ c, view c.iconless = view c) :
    d'.classifiers.map view = d.classifiers.map fun c => view (c.translate v) := by
  have hviews := congrArg (List.map view) h.classifiers
  rw [List.map_map, List.map_map] at hviews
  simpa only [Function.comp_def, hview] using hviews

/-- There are as many classifiers. -/
lemma length_classifiers (h : d.MovedBy v d') : d'.classifiers.length = d.classifiers.length := by
  simpa using congrArg List.length h.classifiers

/-- A classifier is moved. -/
lemma getElem?_classifiers (h : d.MovedBy v d') (i : ℕ) :
    (∃ c c', d.classifiers[i]? = some c ∧ d'.classifiers[i]? = some c' ∧
      c'.element = c.element ∧ c.boxes.MovedBy v c'.boxes) ∨
    d.classifiers[i]? = none ∧ d'.classifiers[i]? = none := by
  have hi := congrArg (·[i]?) h.classifiers
  simp only [List.getElem?_map] at hi
  cases hc : d.classifiers[i]? with
  | none =>
    rw [hc, Option.map_none, Option.map_eq_none_iff] at hi
    exact Or.inr ⟨rfl, hi⟩
  | some c =>
    rw [hc, Option.map_some, Option.map_eq_some_iff] at hi
    obtain ⟨c', hc', hmoved⟩ := hi
    exact Or.inl ⟨c, c', rfl, hc', PlacedClassifier.iconless_eq_iff.mp hmoved⟩

/-- The boxes of a classifier are moved. -/
lemma boxes (h : d.MovedBy v d') {i : ℕ} (hi : i < d.classifiers.length) :
    (d.boxes i).MovedBy v (d'.boxes i) := by
  rcases h.getElem?_classifiers i with ⟨c, c', hc, hc', -, hmoved⟩ | ⟨hnone, -⟩
  · rwa [boxes_of_getElem? hc, boxes_of_getElem? hc']
  · rw [List.getElem?_eq_none_iff] at hnone
    omega

/-- The envelopes are moved. -/
lemma envelopes (h : d.MovedBy v d') : d'.envelopes = d.envelopes.map (·.translate v) := by
  rw [Drawing.envelopes, h.map_classifiers (by intro c; rfl), Drawing.envelopes, List.map_map]
  exact List.map_congr_left fun c _ => ClassifierBoxes.envelope_translate c.boxes v

/-- Who is grayed out does not depend on the place. -/
lemma isGrayedOut (h : d.MovedBy v d') (i : ℕ) : d'.isGrayedOut i = d.isGrayedOut i := by
  unfold Drawing.isGrayedOut
  rcases h.getElem?_classifiers i with ⟨c, c', hc, hc', helement, -⟩ | ⟨hnone, hnone'⟩
  · rw [hc, hc', Option.any_some, Option.any_some, helement]
  · rw [hnone, hnone']

/-- The grid measures the same. -/
lemma kind (h : d.MovedBy v d') : d'.sheet.grid.kind = d.sheet.grid.kind := by
  rw [h.sheet]
  rfl

/-- The draw area is moved. -/
lemma drawArea (h : d.MovedBy v d') : d'.sheet.drawArea = d.sheet.drawArea.translate v := by
  rw [h.sheet]
  rfl

/-! ### Writing -/

/-- Boxes that are moved may be set in both drawings. -/
lemma setBoxes (h : d.MovedBy v d') (i : ℕ) {b b' : ClassifierBoxes ℚ} (hb : b.MovedBy v b') :
    (d.setBoxes i b).MovedBy v (d'.setBoxes i b') where
  diagram := h.diagram
  sheet := h.sheet
  nesting := h.nesting
  classifiers := by
    let put (c : PlacedClassifier ℚ) : PlacedClassifier ℚ :=
      ⟨c.element, { b' with icon := .empty }⟩
    have hset (c : PlacedClassifier ℚ) :
        PlacedClassifier.iconless { c with boxes := b' } = put c.iconless := rfl
    have hset' (c : PlacedClassifier ℚ) :
        (PlacedClassifier.translate v { c with boxes := b }).iconless =
          put (c.translate v).iconless := by
      simp only [put, PlacedClassifier.translate, PlacedClassifier.iconless,
        ClassifierBoxes.translate, hb.symbol, hb.space, hb.label]
    unfold Drawing.setBoxes
    dsimp only
    rw [map_modify_of_commutes hset, map_modify_of_commutes hset', h.classifiers]

/-- A classifier may be moved in both drawings. -/
lemma translateClassifier (h : d.MovedBy v d') (i : ℕ) (w : Point ℚ) :
    (d.translateClassifier i w).MovedBy v (d'.translateClassifier i w) := by
  by_cases hi : i < d.classifiers.length
  · exact h.setBoxes i ((h.boxes hi).translate w)
  · have hkept (d : Drawing ℚ) (hi : d.classifiers.length ≤ i) : d.translateClassifier i w = d := by
      unfold Drawing.translateClassifier Drawing.setBoxes
      rw [List.modify_eq_self hi]
    rw [hkept d (not_lt.mp hi), hkept d' (h.length_classifiers ▸ not_lt.mp hi)]
    exact h

/-- Features may be replaced in both drawings. -/
lemma of_refeatures {γ : Type} {keep : PlacedFeature ℚ → γ} {e e' : Drawing ℚ} (h : d.MovedBy v d')
    (hd : Refeatures keep d e) (hd' : Refeatures keep d' e') : e.MovedBy v e' := by
  obtain ⟨fs, rfl, -⟩ := hd
  obtain ⟨fs', rfl, -⟩ := hd'
  exact ⟨h.diagram, h.sheet, h.nesting, h.classifiers⟩

end MovedBy

end Drawing

end DiagramLayout
