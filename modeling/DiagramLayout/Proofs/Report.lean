import DiagramLayout.Proofs.Refusal
import DiagramLayout.Report

/-!
# Lines of a report

A report has a text for every element, in the order diagram, classifiers, features, relationships,
and ends each with a line break. Numbers, identifiers and kinds have no line breaks. The name of a
classifier and the key of a feature may have some, and they are copied as they are. So a report has
one line per element exactly if these have none (`ElementSet.report_hasLines_iff`), and otherwise
one more line for each line break in a name or key.
-/

namespace DiagramLayout

/-! ## Line breaks -/

/-- The number of line breaks in a text. -/
def lineBreaks (text : String) : ℕ := text.toList.count '\n'

@[simp]
lemma lineBreaks_append (a b : String) : lineBreaks (a ++ b) = lineBreaks a + lineBreaks b := by
  simp [lineBreaks]

/-- The line breaks of a joined text are those of its parts. -/
lemma lineBreaks_join (texts : List String) :
    lineBreaks (String.join texts) = (texts.map lineBreaks).sum := by
  rw [lineBreaks, String.toList_join, List.count_flatMap]
  rfl

/-- A text has no line breaks if none of its characters is one. -/
lemma lineBreaks_eq_zero_iff {text : String} : lineBreaks text = 0 ↔ '\n' ∉ text.toList :=
  List.count_eq_zero

lemma lineBreaks_ofList_eq_zero {cs : List Char} (h : '\n' ∉ cs) :
    lineBreaks (String.ofList cs) = 0 := by
  rwa [lineBreaks_eq_zero_iff, String.toList_ofList]

/-- The first text is what the second one begins with. -/
def BeginsLine (head line : String) : Prop := head.toList <+: line.toList

lemma BeginsLine.refl (head : String) : BeginsLine head head := List.prefix_rfl

/-- A line may go on in any way. -/
lemma BeginsLine.append {head line : String} (h : BeginsLine head line) (rest : String) :
    BeginsLine head (line ++ rest) := by
  rw [BeginsLine, String.toList_append]
  exact List.IsPrefix.trans h (List.prefix_append line.toList rest.toList)

/-- The text consists of lines, one for every head, in the order of the heads. Each begins with its
head and ends in a line break, and has no other line break. -/
def HasLines (text : String) (heads : List String) : Prop :=
  ∃ lines : List String, text = String.join (lines.map (· ++ "\n")) ∧
    (∀ line ∈ lines, lineBreaks line = 0) ∧ List.Forall₂ BeginsLine heads lines

/-- Texts that each end in a line break have that many line breaks more. -/
lemma lineBreaks_join_terminated (texts : List String) :
    lineBreaks (String.join (texts.map (· ++ "\n"))) =
      texts.length + (texts.map lineBreaks).sum := by
  rw [lineBreaks_join]
  induction texts with
  | nil => rfl
  | cons text texts ih =>
    have hbreak : lineBreaks "\n" = 1 := by decide
    simp only [List.map_cons, List.sum_cons, List.length_cons, ih, lineBreaks_append, hbreak]
    omega

/-- A text has as many line breaks as it has lines. -/
lemma HasLines.lineBreaks_eq {text : String} {heads : List String} (h : HasLines text heads) :
    lineBreaks text = heads.length := by
  obtain ⟨lines, rfl, hnone, hheads⟩ := h
  rw [lineBreaks_join_terminated, hheads.length_eq, List.map_congr_left hnone]
  simp

/-- Texts that begin with the heads and each end in a line break are lines exactly if they have no
other line breaks. -/
lemma hasLines_join_iff {heads texts : List String}
    (h : List.Forall₂ BeginsLine heads texts) :
    HasLines (String.join (texts.map (· ++ "\n"))) heads ↔ (texts.map lineBreaks).sum = 0 := by
  constructor
  · intro hlines
    have hcount := hlines.lineBreaks_eq
    rw [lineBreaks_join_terminated, h.length_eq] at hcount
    omega
  · intro hsum
    rw [List.sum_eq_zero_iff, List.forall_mem_map] at hsum
    exact ⟨texts, rfl, hsum, h⟩

/-! ## What is written on one line -/

lemma newline_not_mem_toDigits (n : ℕ) : '\n' ∉ Nat.toDigits 10 n := fun hmem => by
  have hdigit := Nat.isDigit_of_mem_toDigits (by omega) (by omega) hmem
  exact absurd hdigit (by decide)

@[simp]
lemma lineBreaks_repr (n : ℕ) : lineBreaks n.repr = 0 := by
  rw [lineBreaks_eq_zero_iff, Nat.toList_repr]
  exact newline_not_mem_toDigits n

@[simp]
lemma lineBreaks_intRepr (i : ℤ) : lineBreaks i.repr = 0 := by
  cases i with
  | ofNat n => exact lineBreaks_repr n
  | negSucc n =>
    have hminus : lineBreaks "-" = 0 := by decide
    exact (lineBreaks_append _ _).trans (by rw [hminus, lineBreaks_repr])

/-- Identifiers have no line breaks. -/
@[simp]
lemma RowId.lineBreaks_text (id : RowId) : lineBreaks id.text = 0 := by
  simp +decide [text]

/-- Joined texts have line breaks only in the texts and between them. -/
lemma lineBreaks_intercalate {separator : String} {texts : List String}
    (hseparator : lineBreaks separator = 0) (h : ∀ text ∈ texts, lineBreaks text = 0) :
    lineBreaks (separator.intercalate texts) = 0 := by
  induction texts with
  | nil => rfl
  | cons text texts ih =>
    obtain ⟨htext, hrest⟩ := List.forall_mem_cons.mp h
    cases texts with
    | nil => rwa [String.intercalate_singleton]
    | cons next texts => simp [String.intercalate_cons_cons, htext, hseparator, ih hrest]

namespace DecimalStyle

variable (style : DecimalStyle)

@[simp]
lemma lineBreaks_zeros (count : ℕ) : lineBreaks (zeros count) = 0 := by
  refine lineBreaks_ofList_eq_zero fun hmem => ?_
  exact absurd (List.eq_of_mem_replicate hmem) (by decide)

section Digits

variable {digits : List Char} (h : '\n' ∉ digits)
include h

lemma lineBreaks_take (n : ℕ) : lineBreaks (String.ofList (digits.take n)) = 0 :=
  lineBreaks_ofList_eq_zero fun hmem => h (List.mem_of_mem_take hmem)

lemma lineBreaks_drop (n : ℕ) : lineBreaks (String.ofList (digits.drop n)) = 0 :=
  lineBreaks_ofList_eq_zero fun hmem => h (List.mem_of_mem_drop hmem)

/-- Digits with the point in its place have no line breaks. -/
lemma lineBreaks_plain (exponent : ℤ) : lineBreaks (style.plain digits exponent) = 0 := by
  have hdigits := lineBreaks_ofList_eq_zero h
  unfold plain
  dsimp only
  split_ifs <;> simp +decide [hdigits, lineBreaks_take h, lineBreaks_drop h]

/-- Digits with an exponent have no line breaks. -/
lemma lineBreaks_scientific (exponent : ℤ) :
    lineBreaks (style.scientific digits exponent) = 0 := by
  unfold scientific
  dsimp only
  split_ifs <;> simp +decide [-List.drop_one, lineBreaks_take h, lineBreaks_drop h]

end Digits

/-- In no style does a number have a line break. -/
lemma lineBreaks_write (x : Float) : lineBreaks (style.write x) = 0 := by
  have hdecimal (d : Decimal) : lineBreaks (style.writeDecimal d) = 0 := by
    have hdigits := newline_not_mem_toDigits d.digits
    unfold writeDecimal
    dsimp only
    split_ifs
    · exact style.lineBreaks_plain hdigits _
    · exact style.lineBreaks_scientific hdigits _
  unfold write
  split
  · dsimp only
    split_ifs <;> simp +decide [hdecimal]
  · split_ifs <;> decide

end DecimalStyle

namespace Report

@[simp]
lemma lineBreaks_number (x : Float) : lineBreaks (number x) = 0 :=
  DecimalStyle.report.lineBreaks_write x

@[simp]
lemma lineBreaks_numbers (xs : List Float) : lineBreaks (numbers xs) = 0 :=
  lineBreaks_intercalate (by decide) (by simp)

@[simp]
lemma lineBreaks_box (r : Rect Float) : lineBreaks (box r) = 0 := by simp +decide [box]

@[simp]
lemma lineBreaks_point (p : Point Float) : lineBreaks (point p) = 0 := by simp +decide [point]

@[simp]
lemma lineBreaks_label (r : Rect Float) : lineBreaks (label r) = 0 := by
  unfold label
  split_ifs <;> simp +decide

/-- The words for visibilities have no line breaks. -/
@[simp]
lemma lineBreaks_visibilityWord (v : Visibility) : lineBreaks (visibilityWord v) = 0 := by
  cases v <;> decide

/-! ## The texts of the elements -/

/-- The diagram has one line. -/
lemma lineBreaks_diagramLine (diagram : Diagram) (bounds : Rect Float) :
    lineBreaks (diagramLine diagram bounds) = 0 := by
  have hkind : lineBreaks diagram.kind.name = 0 := by cases diagram.kind <;> decide +kernel
  unfold diagramLine
  simp +decide [hkind]

/-- A classifier has the line breaks of its name. -/
lemma lineBreaks_classifierLine (c : PlacedClassifier Float) :
    lineBreaks (classifierLine c) = lineBreaks c.element.name := by
  have hwords : lineBreaks "classifier " = 0 ∧ lineBreaks " " = 0 ∧
      lineBreaks " symbol=" = 0 ∧ lineBreaks " space=" = 0 := by decide
  unfold classifierLine
  simp [hwords]

/-- A feature has the line breaks of its key. -/
lemma lineBreaks_featureLine (f : PlacedFeature Float) :
    lineBreaks (featureLine f) = lineBreaks f.element.key := by
  have hkind : lineBreaks f.element.kind.name = 0 := by cases f.element.kind <;> decide +kernel
  have hwords : lineBreaks "feature " = 0 ∧ lineBreaks " " = 0 ∧ lineBreaks " symbol=" = 0 := by
    decide
  unfold featureLine
  simp [hkind, hwords]

/-- A relationship has one line, drawn or not. -/
lemma lineBreaks_relationshipLine (r : RoutedRelationship Float) :
    lineBreaks (relationshipLine r) = 0 := by
  have hkind : lineBreaks r.element.kind.name = 0 := by cases r.element.kind <;> decide +kernel
  have hroute : lineBreaks (" ".intercalate (r.route.corners.map point)) = 0 :=
    lineBreaks_intercalate (by decide) (by simp)
  unfold relationshipLine
  split_ifs <;> simp +decide [hkind, hroute]

/-- The line breaks within the texts of the elements are those of names and keys. -/
lemma sum_lineBreaks_lines (d : Drawing Float) :
    ((lines d).map lineBreaks).sum =
      ((d.classifiers.map (·.element)).map fun c => lineBreaks c.name).sum +
        ((d.features.map (·.element)).map fun f => lineBreaks f.key).sum := by
  simp [lines, Function.comp_def, lineBreaks_diagramLine, lineBreaks_classifierLine,
    lineBreaks_featureLine, lineBreaks_relationshipLine]

end Report

/-- How a line begins: with a word for the kind of element and its identifier. -/
def lineHead (word : String) (id : RowId) : String := word ++ id.text ++ " "

/-- How the lines for the elements of a set begin, in the order diagram, classifiers, features,
relationships. -/
def ElementSet.lineHeads (s : ElementSet) : List String :=
  lineHead "diagram " s.diagram.id :: s.classifiers.map (lineHead "classifier " ·.id) ++
    s.features.map (lineHead "feature " ·.id) ++ s.relationships.map (lineHead "relationship " ·.id)

namespace Report

lemma beginsLine_diagramLine (diagram : Diagram) (bounds : Rect Float) :
    BeginsLine (lineHead "diagram " diagram.id) (diagramLine diagram bounds) := by
  unfold diagramLine
  iterate 3 apply BeginsLine.append
  exact BeginsLine.refl _

lemma beginsLine_classifierLine (c : PlacedClassifier Float) :
    BeginsLine (lineHead "classifier " c.element.id) (classifierLine c) := by
  unfold classifierLine
  iterate 5 apply BeginsLine.append
  exact BeginsLine.refl _

lemma beginsLine_featureLine (f : PlacedFeature Float) :
    BeginsLine (lineHead "feature " f.element.id) (featureLine f) := by
  unfold featureLine
  iterate 6 apply BeginsLine.append
  exact BeginsLine.refl _

lemma beginsLine_relationshipLine (r : RoutedRelationship Float) :
    BeginsLine (lineHead "relationship " r.element.id) (relationshipLine r) := by
  unfold relationshipLine
  iterate 4 apply BeginsLine.append
  exact BeginsLine.refl _

/-- Whatever the names and keys are, the text of each element begins with the head for it. -/
lemma forall₂_beginsLine {s : ElementSet} {d : Drawing Float} (h : s.RecordedIn d)
    (hdiagram : d.diagram = s.diagram) :
    List.Forall₂ BeginsLine s.lineHeads (lines d) := by
  have hmap {ι : Type} {head line : ι → String} (hline : ∀ x, BeginsLine (head x) (line x))
      (xs : List ι) : List.Forall₂ BeginsLine (xs.map head) (xs.map line) := by
    rw [List.forall₂_map_left_iff, List.forall₂_map_right_iff, List.forall₂_same]
    exact fun x _ => hline x
  have hclassifiers := hmap beginsLine_classifierLine d.classifiers
  have hfeatures := hmap beginsLine_featureLine d.features
  have hrelationships := hmap beginsLine_relationshipLine d.relationships
  unfold ElementSet.lineHeads lines
  rw [← hdiagram, ← h.classifiers, ← h.features, ← h.relationships, List.map_map, List.map_map,
    List.map_map]
  have hfront := List.rel_append
    (List.Forall₂.cons (beginsLine_diagramLine d.diagram d.sheet.bounds) hclassifiers) hfeatures
  exact List.rel_append hfront hrelationships

/-- A report has a line break behind the text of each element, and those of the names and keys. -/
lemma lineBreaks_render {s : ElementSet} {d : Drawing Float} (h : s.RecordedIn d) :
    lineBreaks (render d) =
      1 + s.classifiers.length + s.features.length + s.relationships.length +
        ((s.classifiers.map fun c => lineBreaks c.name).sum +
          (s.features.map fun f => lineBreaks f.key).sum) := by
  rw [render, lineBreaks_join_terminated, sum_lineBreaks_lines, ← h.classifiers, ← h.features,
    ← h.relationships]
  simp only [lines, List.length_append, List.length_cons, List.length_map]
  omega

end Report

namespace ElementSet

/-- A layout is one of the diagram of its set. -/
lemma diagram_of_layout {α : Type} [Scalar α] {s : ElementSet} {m : Composer α}
    {config : Config α} {bounds : Rect α} {g : Guarded (Drawing α)}
    (h : s.layout m config bounds = .ok g) : g.value.diagram = s.diagram := by
  obtain ⟨start, hprepare, rfl⟩ := exists_of_layout_eq_ok h
  have hstart := (Drawing.ofElements_eq_ok (ofElements_of_prepare hprepare)).1
  exact (Drawing.keepsRecords_complete m config start).diagram.trans hstart

/-- The report on a layout has exactly one line per element, each beginning with the kind of element
and its identifier, if and only if no name of a classifier and no key of a feature has a line break.
Each line break in one of these is one more in the report. -/
theorem report_hasLines_iff {s : ElementSet} {m : Composer Float} {config : Config Float}
    {bounds : Rect Float} {g : Guarded (Drawing Float)} (h : s.layout m config bounds = .ok g) :
    (HasLines (Report.render g.value) s.lineHeads ↔
      (∀ c ∈ s.classifiers, lineBreaks c.name = 0) ∧ ∀ f ∈ s.features, lineBreaks f.key = 0) ∧
    lineBreaks (Report.render g.value) =
      1 + s.classifiers.length + s.features.length + s.relationships.length +
        ((s.classifiers.map fun c => lineBreaks c.name).sum +
          (s.features.map fun f => lineBreaks f.key).sum) := by
  have hrecorded := recordedIn_of_layout h
  refine ⟨?_, Report.lineBreaks_render hrecorded⟩
  have hheads := Report.forall₂_beginsLine hrecorded (diagram_of_layout h)
  rw [Report.render, hasLines_join_iff hheads, Report.sum_lineBreaks_lines, hrecorded.classifiers,
    hrecorded.features, Nat.add_eq_zero_iff, List.sum_eq_zero_iff, List.sum_eq_zero_iff,
    List.forall_mem_map, List.forall_mem_map]

end ElementSet

/-- A class with a name. -/
def namedClass (name : String) : ElementSet where
  diagram := ⟨⟨1⟩, .classes, ""⟩
  limits := .standard
  classifiers := [⟨⟨10⟩, .classType, name, 0, 0, false⟩]
  features := []
  relationships := []

/-- A sheet of the usual size. -/
def usualBounds : Rect Float := .ofCorner 0 0 800 600

/-- The class has a layout whatever its name is. -/
lemma exists_layout_namedClass (name : String) :
    ∃ g, (namedClass name).layout (.ofConfig .standard) .standard usualBounds = .ok g := by
  have hvalid : (Config.standard (α := Float)).validate = .ok () := by decide +kernel
  have hprepare : ∃ start, (namedClass name).prepare Config.standard usualBounds = .ok start := by
    rw [ElementSet.prepare, hvalid]
    exact ⟨_, rfl⟩
  obtain ⟨start, hstart⟩ := hprepare
  exact ⟨_, ElementSet.layout_eq_ok hstart _⟩

/-- The report on a class whose name has no line break has a line for the diagram and one for the
class. -/
theorem report_hasLines_namedClass :
    ∃ g, (namedClass "Engine").layout (.ofConfig .standard) .standard usualBounds = .ok g ∧
      HasLines (Report.render g.value) ["diagram #1 ", "classifier #10 "] := by
  obtain ⟨g, hlayout⟩ := exists_layout_namedClass "Engine"
  have hheads : (namedClass "Engine").lineHeads = ["diagram #1 ", "classifier #10 "] := by decide
  have hnone : (∀ c ∈ (namedClass "Engine").classifiers, lineBreaks c.name = 0) ∧
      ∀ f ∈ (namedClass "Engine").features, lineBreaks f.key = 0 := by decide
  exact ⟨g, hlayout, hheads ▸ (ElementSet.report_hasLines_iff hlayout).1.mpr hnone⟩

/-- A line break in the name of a class is one in the report, which so has a line too many. -/
theorem report_not_hasLines_namedClass :
    ∃ g, (namedClass "A\nB").layout (.ofConfig .standard) .standard usualBounds = .ok g ∧
      lineBreaks (Report.render g.value) = 3 ∧
      ¬ HasLines (Report.render g.value) (namedClass "A\nB").lineHeads := by
  obtain ⟨g, hlayout⟩ := exists_layout_namedClass "A\nB"
  have hthree : lineBreaks (Report.render g.value) = 3 :=
    (Report.lineBreaks_render (ElementSet.recordedIn_of_layout hlayout)).trans (by decide)
  refine ⟨g, hlayout, hthree, fun hlines => ?_⟩
  have htwo := hlines.lineBreaks_eq
  rw [hthree] at htwo
  exact absurd htwo (by decide)

end DiagramLayout
