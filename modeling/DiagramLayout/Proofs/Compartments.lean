import DiagramLayout.Proofs.Entries
import DiagramLayout.Proofs.Guards
import DiagramLayout.Proofs.Lifelines
import DiagramLayout.Proofs.Records

/-!
# Compartment entries in the space of their classifier

The entries of a classifier are stacked from the top of its space. They all lie within it exactly if
the space has room for the stack (`Drawing.HasRoom`): the last line ends within the height, and the
width takes the border on the left.

The first step gives every classifier that room. Growing a container only widens its space, so the
room is there until groups are gathered. Then a container is fitted around what it encloses, and
nothing asks for its entries: `ElementSet.layout_listsWithin_iff` says that entries lie within the
space exactly where there is room at the end, which is sure of the classifiers that enclose
nothing, and `crowdedClass_entry_outside` is a container where there is none.

## Main definitions

* `Drawing.HasRoom`: the space of a classifier has room for the stack of its entries.
* `Drawing.ListsWithin`: all entries of a classifier lie in its space.
-/

namespace DiagramLayout

/-! ## Stacks -/

section Stacks

variable {m : Composer ℚ} {border : ℚ} {space : Rect ℚ}

/-- Texts have no negative extent. -/
lemma Composer.Usable.entrySize_width_nonneg (hm : m.Usable) (f : Feature) :
    0 ≤ (m.entrySize f).width := by
  change 0 ≤ (m.textSize f.displayText).width
  unfold Composer.textSize
  split_ifs
  · exact le_rfl
  · exact mul_nonneg (Nat.cast_nonneg _) hm.charWidth.le

/-- One line lies in a space if the space is as wide as the border and reaches below the line. -/
lemma contains_line_iff (hborder : 0 ≤ border) {offset width height : ℚ} (hoffset : 0 ≤ offset)
    (hwidth : 0 ≤ width) :
    space.contains (.ofCorner (space.minX + border) (space.minY + offset)
        (min width (max (space.width - 2 * border) 0)) height) = true ↔
      border ≤ space.width ∧ offset + height ≤ space.height := by
  rw [Rect.contains_iff]
  simp only [Rect.ofCorner, Rect.width, Rect.height]
  constructor
  · rintro ⟨-, -, hright, hbottom⟩
    have hextent : 0 ≤ min width (max (space.maxX - space.minX - 2 * border) 0) :=
      le_min hwidth (le_max_right _ _)
    constructor <;> linarith
  · rintro ⟨hroom, hbottom⟩
    have hextent : border + min width (max (space.maxX - space.minX - 2 * border) 0) ≤
        space.maxX - space.minX := by
      have hle := min_le_right width (max (space.maxX - space.minX - 2 * border) 0)
      rcases max_cases (space.maxX - space.minX - 2 * border) 0 with ⟨hmax, -⟩ | ⟨hmax, -⟩ <;>
        rw [hmax] at hle ⊢ <;> linarith
    refine ⟨?_, ?_, ?_, ?_⟩ <;> linarith

/-- Stacked lines lie in a space if it is as wide as the border and reaches below the last line. -/
lemma contains_stackEntries_iff (hborder : 0 ≤ border) (hm : m.Usable)
    {entries : List (ℕ × Feature)}
    (hsorted : entries.Pairwise fun a b => a.2.kind.compartment ≤ b.2.kind.compartment)
    {last : ℕ × Feature} (hlast : entries.getLast? = some last) {offset : ℚ}
    (hoffset : 0 ≤ offset) :
    (∀ line ∈ stackEntries m border space offset entries, space.contains line.2 = true) ↔
      border ≤ space.width ∧
        offset + entries.length * m.lineHeight + 2 * border * last.2.kind.compartment ≤
          space.height := by
  have hline := hm.lineHeight
  have hfirst (f : Feature) {offset : ℚ} (hoffset : 0 ≤ offset) :
      space.contains (.ofCorner (space.minX + border)
          (space.minY + offset + 2 * border * f.kind.compartment)
          (min (m.entrySize f).width (max (space.width - 2 * border) 0)) m.lineHeight) = true ↔
        border ≤ space.width ∧
          offset + 2 * border * f.kind.compartment + m.lineHeight ≤ space.height := by
    rw [add_assoc space.minY]
    exact contains_line_iff hborder (by positivity) (hm.entrySize_width_nonneg f)
  induction entries generalizing offset with
  | nil => cases hlast
  | cons entry rest ih =>
    obtain ⟨hbefore, hrest⟩ := List.pairwise_cons.mp hsorted
    rw [stackEntries, List.forall_mem_cons]
    simp only [Scalar.num_exact, Scalar.min_exact, Scalar.max_exact]
    push_cast
    rw [show (m.entrySize entry.2).height = m.lineHeight from rfl, hfirst entry.2 hoffset]
    cases rest with
    | nil =>
      obtain rfl : entry = last := by simpa using hlast
      simp only [stackEntries, List.not_mem_nil, false_implies, implies_true, and_true,
        List.length_singleton, Nat.cast_one, one_mul]
      exact and_congr_right fun _ => by rw [add_right_comm]
    | cons next rest =>
      have hlast' : (next :: rest).getLast? = some last := by
        rw [← hlast, List.getLast?_cons_cons]
      have hbelow : 0 ≤ offset + m.lineHeight := by linarith
      refine (and_congr_right' (ih hrest hlast' hbelow)).trans ?_
      have hcompartment : ((entry.2.kind.compartment : ℕ) : ℚ) ≤ last.2.kind.compartment :=
        Nat.cast_le.mpr (hbefore last (List.mem_of_getLast? hlast'))
      have hgap := mul_le_mul_of_nonneg_left hcompartment (mul_nonneg two_pos.le hborder)
      have hlines : 0 ≤ ((next :: rest).length : ℚ) * m.lineHeight := by positivity
      have hlength : ((entry :: next :: rest).length : ℚ) * m.lineHeight =
          (next :: rest).length * m.lineHeight + m.lineHeight := by
        rw [List.length_cons (a := entry)]
        push_cast
        ring
      rw [hlength]
      constructor
      · rintro ⟨-, hroom, hbottom⟩
        exact ⟨hroom, by linarith⟩
      · rintro ⟨hroom, hbottom⟩
        exact ⟨⟨hroom, by linarith⟩, hroom, by linarith⟩

end Stacks

namespace Drawing

/-- Which entries a classifier has depends only on the elements and their owners. -/
lemma entries_congr {d d' : Drawing ℚ}
    (h : d'.features.map PlacedFeature.origin = d.features.map PlacedFeature.origin) (i : ℕ) :
    d'.entries i = d.entries i := by
  have hentries (d : Drawing ℚ) : d.entries i =
      ((d.features.map PlacedFeature.origin).zipIdx.filterMap fun (o, j) =>
        if o.2 == i && o.1.kind.isCompartmentEntry then some (j, o.1) else none).mergeSort
          fun a b => entryAtMost a.2 b.2 := by
    rw [entries, List.zipIdx_map, List.filterMap_map]
    rfl
  rw [hentries, hentries, h]

/-- A feature that is among those changed is changed once. -/
lemma getElem?_foldl_modifyFeature_of_mem {α β : Type} [Scalar α]
    (change : β → PlacedFeature α → PlacedFeature α) {lines : List (ℕ × β)}
    (hnodup : (lines.map Prod.fst).Nodup) (d : Drawing α) {k : ℕ} {b : β} (hk : (k, b) ∈ lines) :
    (lines.foldl (fun d line => d.modifyFeature line.1 (change line.2)) d).features[k]? =
      (d.features[k]?).map (change b) := by
  induction lines generalizing d with
  | nil => cases hk
  | cons line rest ih =>
    rw [List.map_cons, List.nodup_cons] at hnodup
    obtain ⟨hfirst, hrest⟩ := hnodup
    rw [List.foldl_cons]
    rcases List.mem_cons.mp hk with rfl | hmem
    · rw [getElem?_foldl_modifyFeature change rest _ hfirst, modifyFeature, List.getElem?_modify]
      cases d.features[k]? <;> simp
    · have hother : line.1 ≠ k := by
        rintro rfl
        exact hfirst (List.mem_map.mpr ⟨_, hmem, rfl⟩)
      rw [ih hrest _ hmem, modifyFeature, List.getElem?_modify]
      simp [hother]

/-- The lines of a classifier, one for each of its entries. -/
def entryLines (m : Composer ℚ) (config : Config ℚ) (d : Drawing ℚ) (i : ℕ) :
    List (ℕ × Rect ℚ) :=
  stackEntries m config.border (d.boxes i).space config.border (d.entries i)

variable {m : Composer ℚ} {config : Config ℚ}

/-- A line is that of a feature of the classifier. -/
lemma exists_of_mem_entryLines {d : Drawing ℚ} {i k : ℕ} {box : Rect ℚ}
    (hline : (k, box) ∈ d.entryLines m config i) :
    ∃ f, d.features[k]? = some f ∧ f.owner = i := by
  have hmem : k ∈ (d.entries i).map Prod.fst := by
    rw [← map_fst_stackEntries m config.border (d.boxes i).space config.border]
    exact List.mem_map_of_mem hline
  obtain ⟨⟨_, e⟩, hentry, rfl⟩ := List.mem_map.mp hmem
  obtain ⟨f, hf, howner, -⟩ := mem_entries.mp hentry
  exact ⟨f, hf, howner⟩

/-- Every entry of the classifier has a line. -/
lemma exists_mem_entryLines (m : Composer ℚ) (config : Config ℚ) {d : Drawing ℚ} {k : ℕ}
    {f : PlacedFeature ℚ} (hf : d.features[k]? = some f)
    (hkind : f.element.kind.isCompartmentEntry = true) :
    ∃ box, (k, box) ∈ d.entryLines m config f.owner := by
  have hentry : (k, f.element) ∈ d.entries f.owner := mem_entries.mpr ⟨f, hf, rfl, hkind, rfl⟩
  have hmem : k ∈ (d.entryLines m config f.owner).map Prod.fst := by
    rw [entryLines, map_fst_stackEntries]
    exact List.mem_map.mpr ⟨_, hentry, rfl⟩
  obtain ⟨⟨_, box⟩, hline, rfl⟩ := List.mem_map.mp hmem
  exact ⟨box, hline⟩

/-- The turn of a classifier leaves the features of the others as they are. -/
lemma getElem?_layoutFeaturesOf_of_ne {d : Drawing ℚ} {k : ℕ} {f : PlacedFeature ℚ}
    (hf : d.features[k]? = some f) {j : ℕ} (hj : f.owner ≠ j) :
    (d.layoutFeaturesOf m config j).value.features[k]? = some f := by
  have hbeside : (d.layoutBeside config j).value.features[k]? = some f := by
    unfold layoutBeside
    split
    · exact hf
    · simp [List.getElem?_map, hf, hj]
  have hnone : k ∉ (((d.layoutBeside config j).value).entryLines m config j).map Prod.fst := by
    rw [entryLines, map_fst_stackEntries]
    intro hmem
    obtain ⟨⟨_, e⟩, hentry, rfl⟩ := List.mem_map.mp hmem
    obtain ⟨g, hg, howner, -⟩ := mem_entries.mp hentry
    obtain rfl : f = g := Option.some.inj (hbeside.symm.trans hg)
    exact hj howner
  rw [← hbeside]
  exact getElem?_foldl_modifyFeature (fun box f =>
    { f with symbol := box, label := .empty, direction := .center }) _ _ hnone

/-- The turn of a classifier gives each of its entries its line. -/
lemma entry_layoutFeaturesOf {d : Drawing ℚ} {i k : ℕ} {box : Rect ℚ}
    (hline : (k, box) ∈ d.entryLines m config i) {f : PlacedFeature ℚ}
    (hf : d.features[k]? = some f) :
    (d.layoutFeaturesOf m config i).value.features[k]? =
      some { f with symbol := box, label := .empty, direction := .center } := by
  have hbeside := refeatures_layoutBeside config d i
  have hlines : (d.layoutBeside config i).value.entryLines m config i =
      d.entryLines m config i := by
    rw [entryLines, entries_congr hbeside.map_features, boxes, hbeside.classifiers_eq]
    rfl
  have hnodup : ((d.entryLines m config i).map Prod.fst).Nodup := by
    rw [entryLines, map_fst_stackEntries]
    exact d.nodup_entries i
  obtain ⟨f₁, hf₁, helement, howner⟩ := getElem?_of_refeatures hbeside hf
  have hchanged := getElem?_foldl_modifyFeature_of_mem (fun box f =>
    { f with symbol := box, label := .empty, direction := .center }) hnodup
    (d.layoutBeside config i).value hline
  rw [hf₁, ← hlines] at hchanged
  refine hchanged.trans ?_
  simp only [Option.map_some, helement, howner]

/-- After all features have been placed every entry has its line. -/
theorem symbol_layoutFeatures {d : Drawing ℚ} {i k : ℕ} (hi : i < d.classifiers.length)
    {box : Rect ℚ} (hline : (k, box) ∈ d.entryLines m config i) :
    ∃ f, (d.layoutFeatures m config).value.features[k]? = some f ∧ f.symbol = box := by
  obtain ⟨f, hf, howner⟩ := exists_of_mem_entryLines hline
  unfold layoutFeatures
  rw [Guarded.value_foldlM]
  refine foldl_turn (Refeatures PlacedFeature.origin d)
    (fun e => ∃ f', e.features[k]? = some f' ∧ f'.symbol = box) (i := i) ?_ ?_ ?_ _
    (Refeatures.refl d) (Or.inl (List.mem_range.mpr hi))
  · intro e j he
    exact he.trans (refeatures_layoutFeaturesOf m config e j)
  · intro e he
    obtain ⟨f₁, hf₁, -⟩ := getElem?_of_refeatures he hf
    refine ⟨_, entry_layoutFeaturesOf ?_ hf₁, rfl⟩
    rw [entryLines, entries_congr he.map_features, boxes, he.classifiers_eq]
    exact hline
  · rintro e j hj he ⟨f', hf', hbox⟩
    obtain ⟨f₁, hf₁, -, howner₁⟩ := getElem?_of_refeatures he hf
    obtain rfl : f₁ = f' := Option.some.inj (hf₁.symm.trans hf')
    refine ⟨f₁, getElem?_layoutFeaturesOf_of_ne hf₁ ?_, hbox⟩
    rw [howner₁, howner]
    exact Ne.symm hj

/-! ## Room -/

/-- The space of a classifier is as wide as its border and reaches below its last entry. -/
def HasRoom (config : Config ℚ) (d : Drawing ℚ) (i : ℕ) : Prop :=
  ∀ last, (d.entries i).getLast? = some last →
    config.border ≤ (d.boxes i).space.width ∧
      config.border + (d.entries i).length * config.lineHeight +
        2 * config.border * last.2.kind.compartment ≤ (d.boxes i).space.height

/-- All entries of a classifier lie in its space. -/
def ListsWithin (d : Drawing ℚ) (i : ℕ) : Prop :=
  ∀ f ∈ d.features, f.owner = i → f.element.kind.isCompartmentEntry = true →
    (d.boxes i).space.contains f.symbol = true

/-- The entries have room in a space that is at least as large. -/
lemma HasRoom.of_le {d d' : Drawing ℚ} {i : ℕ} (h : d.HasRoom config i)
    (hentries : d'.entries i = d.entries i)
    (hwidth : (d.boxes i).space.width ≤ (d'.boxes i).space.width)
    (hheight : (d.boxes i).space.height ≤ (d'.boxes i).space.height) : d'.HasRoom config i := by
  intro last hlast
  rw [hentries] at hlast ⊢
  obtain ⟨hx, hy⟩ := h last hlast
  exact ⟨hx.trans hwidth, hy.trans hheight⟩

/-- Boxes that are only moved leave the room as it is. -/
lemma HasRoom.of_translate {d d' : Drawing ℚ} {i : ℕ} (h : d.HasRoom config i)
    (hentries : d'.entries i = d.entries i) {v : Point ℚ}
    (hboxes : d'.boxes i = (d.boxes i).translate v) : d'.HasRoom config i := by
  refine h.of_le hentries ?_ ?_
  · rw [hboxes, ClassifierBoxes.translate, Rect.width_translate]
  · rw [hboxes, ClassifierBoxes.translate, Rect.height_translate]

/-- Entries that have their lines lie in the space exactly if the lines do. -/
lemma listsWithin_iff {d d' : Drawing ℚ} (hkept : Refeatures PlacedFeature.origin d d') {i : ℕ}
    (hsymbol : ∀ k box, (k, box) ∈ d.entryLines m config i →
      ∃ f, d'.features[k]? = some f ∧ f.symbol = box) :
    d'.ListsWithin i ↔ ∀ line ∈ d.entryLines m config i,
      (d.boxes i).space.contains line.2 = true := by
  have hboxes : d'.boxes i = d.boxes i := by
    rw [boxes, hkept.classifiers_eq]
    rfl
  have hpositions : (d.entryLines m config i).map Prod.fst = (d'.entries i).map Prod.fst := by
    rw [entries_congr hkept.map_features]
    exact map_fst_stackEntries m config.border _ _ _
  unfold ListsWithin
  rw [hboxes]
  constructor
  · rintro hall ⟨k, box⟩ hline
    obtain ⟨f, hf, rfl⟩ := hsymbol k box hline
    have hmem : k ∈ (d'.entries i).map Prod.fst := hpositions ▸ List.mem_map_of_mem hline
    obtain ⟨⟨_, e⟩, hentry, rfl⟩ := List.mem_map.mp hmem
    obtain ⟨g, hg, howner, hkind, -⟩ := mem_entries.mp hentry
    obtain rfl : f = g := Option.some.inj (hf.symm.trans hg)
    exact hall f (List.mem_of_getElem? hf) howner hkind
  · intro hall f hf howner hkind
    obtain ⟨k, hk⟩ := List.mem_iff_getElem?.mp hf
    have hentry : (k, f.element) ∈ d'.entries i := mem_entries.mpr ⟨f, hk, howner, hkind, rfl⟩
    have hmem : k ∈ (d.entryLines m config i).map Prod.fst := by
      rw [hpositions]
      exact List.mem_map.mpr ⟨_, hentry, rfl⟩
    obtain ⟨⟨k, box⟩, hline, rfl⟩ := List.mem_map.mp hmem
    obtain ⟨g, hg, hbox⟩ := hsymbol k box hline
    obtain rfl : f = g := Option.some.inj (hk.symm.trans hg)
    rw [hbox]
    exact hall (k, box) hline

/-- The lines of a classifier lie in its space exactly if there is room for them. -/
lemma contains_entryLines_iff (hconfig : config.Usable) {d : Drawing ℚ} {i : ℕ} :
    (∀ line ∈ d.entryLines (.ofConfig config) config i,
      (d.boxes i).space.contains line.2 = true) ↔ d.HasRoom config i := by
  rw [HasRoom, entryLines]
  cases hlast : (d.entries i).getLast? with
  | none =>
    rw [List.getLast?_eq_none_iff.mp hlast]
    simp [stackEntries]
  | some last =>
    rw [contains_stackEntries_iff hconfig.border hconfig.composer (d.pairwise_compartment i) hlast
      hconfig.border]
    exact ⟨fun h _ hsame => Option.some.inj hsame ▸ h, fun h => h last rfl⟩

/-- The entries of a classifier lie in its space exactly if there is room for them. -/
theorem listsWithin_layoutFeatures (hconfig : config.Usable) {d : Drawing ℚ} {i : ℕ}
    (hi : i < d.classifiers.length) :
    (d.layoutFeatures (.ofConfig config) config).value.ListsWithin i ↔ d.HasRoom config i :=
  (listsWithin_iff (refeatures_layoutFeatures (.ofConfig config) config d)
    fun _ _ hline => symbol_layoutFeatures hi hline).trans (contains_entryLines_iff hconfig)

/-! ## Room from step to step -/

/-- The space that a classifier starts with is as large as what is needed. -/
lemma size_space_composeFor (hconfig : config.Usable) (c : Classifier) (needed : Size ℚ)
    (nests : Bool) :
    needed.width ≤ (composeFor (.ofConfig config) config c needed nests).space.width ∧
      needed.height ≤ (composeFor (.ofConfig config) config c needed nests).space.height := by
  unfold composeFor
  dsimp only
  split_ifs with hsmall
  · have hstandard := Rect.ordered_centered .origin config.classifierSize
      hconfig.classifierWidth.le hconfig.classifierHeight.le
    have hstart := Composer.sound_aroundEnvelope hconfig.composer c hstandard nests
    rw [Composer.space_aroundSpace hconfig.composer]
    · rw [Rect.width_centered, Rect.height_centered]
      simp only [Size.max, Scalar.max_exact]
      exact ⟨le_max_right _ _, le_max_right _ _⟩
    · refine Rect.ordered_centered _ _ ?_ ?_
      · simp only [Size.max, Scalar.max_exact]
        exact le_max_of_le_left (sub_nonneg.mpr hstart.space.x)
      · simp only [Size.max, Scalar.max_exact]
        exact le_max_of_le_left (sub_nonneg.mpr hstart.space.y)
  · simpa using hsmall

/-- The space that a classifier needs for its entries has room for them. -/
lemma le_entriesSize (hconfig : config.Usable) (d : Drawing ℚ) {i : ℕ} {last : ℕ × Feature}
    (hlast : (d.entries i).getLast? = some last) :
    config.border ≤ (d.entriesSize (.ofConfig config) config i).width ∧
      config.border + (d.entries i).length * config.lineHeight +
        2 * config.border * last.2.kind.compartment ≤
          (d.entriesSize (.ofConfig config) config i).height := by
  have hborder := hconfig.border
  have hne : d.entries i ≠ [] := by
    intro hnil
    rw [hnil] at hlast
    cases hlast
  have hheights : ((d.entries i).map fun e => (Composer.ofConfig config).entrySize e.2).map
      (·.height) = List.replicate (d.entries i).length config.lineHeight := by
    rw [List.map_map]
    exact List.map_const'
  have hcompartment : ((last.2.kind.compartment : ℕ) : ℚ) ≤ 2 :=
    Nat.cast_le_ofNat.mpr (compartment_le last.2.kind)
  have hgap := mul_le_mul_of_nonneg_left hcompartment (mul_nonneg two_pos.le hborder)
  unfold entriesSize
  dsimp only
  rw [if_neg (by simpa using hne)]
  simp only [Scalar.sum_exact, Scalar.num_exact]
  rw [hheights, List.sum_replicate, nsmul_eq_mul]
  have hwidest := Scalar.le_maxFrom 0
    (((d.entries i).map fun e => (Composer.ofConfig config).entrySize e.2).map (·.width))
  push_cast
  constructor <;> linarith

/-- The space of a classifier is as wide and as high as its entries need it. -/
def SpaceSuffices (config : Config ℚ) (d : Drawing ℚ) (i : ℕ) : Prop :=
  (d.entriesSize (.ofConfig config) config i).width ≤ (d.boxes i).space.width ∧
    (d.entriesSize (.ofConfig config) config i).height ≤ (d.boxes i).space.height

/-- After the first step the space of every classifier is as large as its entries need it. -/
lemma spaceSuffices_estimateBounds (hconfig : config.Usable) {d : Drawing ℚ} {i : ℕ}
    (hi : i < d.classifiers.length) :
    (d.estimateBounds (.ofConfig config) config).SpaceSuffices config i := by
  -- the entries are those of the features, which the first step does not touch
  have hneeded :
      (d.estimateBounds (.ofConfig config) config).entriesSize (.ofConfig config) config i =
        d.registerKeys.entriesSize (.ofConfig config) config i := rfl
  rw [SpaceSuffices, hneeded, boxes_estimateBounds _ config d hi, estimatedBoxes, placeOnGrid,
    ClassifierBoxes.translate, Rect.width_translate, Rect.height_translate]
  exact size_space_composeFor hconfig _ _ _

/-- After the first step every classifier has room for its entries. -/
theorem hasRoom_estimateBounds (hconfig : config.Usable) {d : Drawing ℚ} {i : ℕ}
    (hi : i < d.classifiers.length) :
    (d.estimateBounds (.ofConfig config) config).HasRoom config i := by
  intro last hlast
  obtain ⟨hwidth, hheight⟩ := le_entriesSize hconfig _ hlast
  obtain ⟨hx, hy⟩ := spaceSuffices_estimateBounds hconfig hi
  exact ⟨hwidth.trans hx, hheight.trans hy⟩

/-- Moving classifiers apart leaves the room as it is. -/
lemma HasRoom.moveApart {d : Drawing ℚ} {i : ℕ} (h : d.HasRoom config i) :
    (d.moveApart config).value.1.HasRoom config i := by
  refine moveApart_induction (motive := fun e : Drawing ℚ => e.HasRoom config i) ?_ h
  intro s j offset hroom _
  have hentries : (s.drawing.translateClassifier j offset).entries i = s.drawing.entries i := rfl
  have hboxes := boxes_translateClassifier s.drawing j offset i
  split_ifs at hboxes
  · exact hroom.of_translate hentries hboxes
  · exact hroom.of_le hentries (by rw [hboxes]) (by rw [hboxes])

/-- Growing containers leaves the room that there is. -/
lemma HasRoom.embraceChildren (hconfig : config.Usable) {d : Drawing ℚ}
    (hsound : d.Sound config.border) {i : ℕ} (h : d.HasRoom config i) :
    (d.embraceChildren (.ofConfig config) config).HasRoom config i := by
  refine (List.foldlRecOn _ _ (motive := fun s : Embracing ℚ =>
    s.drawing.Sound config.border ∧ s.drawing.HasRoom config i) ⟨hsound, h⟩ ?_).2
  rintro s ⟨hsound, hroom⟩ c -
  refine ⟨hsound.embracing_step hconfig c, ?_⟩
  unfold Embracing.step
  split
  · exact hroom
  · rename_i parent hparent
    dsimp only
    split_ifs
    · have hboxes := boxes_setBoxes s.drawing c.parent (s.drawing.grownBoxes (.ofConfig config)
        config parent (s.parents.contains c.parent) c.child) i
      split_ifs at hboxes with hi
      · obtain ⟨rfl, -⟩ := hi
        have hbefore := boxes_of_getElem? hparent
        have hproper := (hsound c.parent).proper hconfig.border
        have hgrown := contains_space_grownBoxes hconfig s.drawing (hbefore ▸ hproper)
          (s.parents.contains c.parent) c.child
        rw [← hboxes, ← hbefore] at hgrown
        exact hroom.of_le rfl (Rect.width_le_of_contains hgrown)
          (Rect.height_le_of_contains hgrown)
      · exact hroom.of_le rfl (by rw [hboxes]) (by rw [hboxes])
    · exact hroom

/-- Up to growing the containers every classifier has room for its entries. -/
theorem hasRoom_embraced (hconfig : config.Usable) {d : Drawing ℚ} {i : ℕ}
    (hi : i < d.classifiers.length) :
    (d.embraced (.ofConfig config) config).HasRoom config i :=
  (hasRoom_estimateBounds hconfig hi).moveApart.embraceChildren hconfig
    (sound_estimateBounds hconfig d).moveApart

/-- A classifier that encloses nothing is only moved when groups are gathered. -/
lemma exists_translate_gatherStep (m : Composer ℚ) (config : Config ℚ) {d : Drawing ℚ} {i : ℕ}
    (hi : d.nesting.descendants i = []) (index : ℕ) :
    ∃ v, (d.gatherStep m config index).value.boxes i = (d.boxes i).translate v := by
  have hstays : ∃ v, d.boxes i = (d.boxes i).translate v := ⟨.origin, by simp⟩
  rw [gatherStep_eq]
  cases haccepted : d.acceptedBoxes? m config index with
  | none => exact hstays
  | some fitted =>
    obtain ⟨hacyclic, -, container, union, hcontainer, hunion, -⟩ := of_acceptedBoxes? haccepted
    have hindex : index < d.classifiers.length := (List.getElem?_eq_some_iff.mp hcontainer).1
    have hself : ¬ d.nesting.encloses index index := fun h => hacyclic index h h
    have hother : i ≠ index := by
      rintro rfl
      rw [hi] at hunion
      cases hunion
    simp only [Guarded.value_bind, Guarded.value_pure]
    rw [boxes_moveGroup hindex hself, if_neg hother]
    split_ifs
    · exact ⟨_, rfl⟩
    · exact hstays

/-- Gathering groups leaves the room of a classifier that encloses nothing. -/
lemma HasRoom.gatherGroups (m : Composer ℚ) {d : Drawing ℚ} {i : ℕ}
    (hi : d.nesting.descendants i = []) (h : d.HasRoom config i) :
    (d.gatherGroups m config).value.HasRoom config i := by
  rw [value_gatherGroups]
  refine (List.foldlRecOn _ _ (motive := fun e : Drawing ℚ =>
    e.nesting.descendants i = [] ∧ e.HasRoom config i) ⟨hi, h⟩ ?_).2
  rintro e ⟨hi, hroom⟩ index -
  have hkept := reboxes_gatherStep m config e index
  obtain ⟨v, hboxes⟩ := exists_translate_gatherStep m config hi index
  refine ⟨by rw [hkept.nesting_eq]; exact hi, hroom.of_translate ?_ hboxes⟩
  exact entries_congr (by rw [hkept.features_eq]) i

/-! ## Whole layouts -/

/-- Moving names keeps everything else of the features. -/
lemma Renames.map_unnamed {d d' : Drawing ℚ} (h : d.Renames d') :
    d'.features.map PlacedFeature.unnamed = d.features.map PlacedFeature.unnamed := by
  obtain ⟨fs, rs, rfl, hfs, -⟩ := h
  exact hfs

/-- Routing and naming leave the boxes of the classifiers and the symbols of the features. -/
lemma kept_complete (m : Composer ℚ) (config : Config ℚ) (d : Drawing ℚ) :
    (d.complete m config).value.classifiers = (d.furnished m config).classifiers ∧
      (d.complete m config).value.features.map PlacedFeature.unnamed =
        (d.furnished m config).features.map PlacedFeature.unnamed := by
  have hrouted := kept_routeAll config (d.furnished m config)
  have hrenamed := renames_layoutLabels m config ((d.furnished m config).routeAll config).value
  rw [value_complete, hrenamed.classifiers_eq, hrenamed.map_unnamed, hrouted.1, hrouted.2]
  exact ⟨rfl, rfl⟩

/-- The boxes of the classifiers are final when they have been placed, and so are the entries. -/
lemma hasRoom_congr {d d' : Drawing ℚ} (hclassifiers : d'.classifiers = d.classifiers)
    (horigin : d'.features.map PlacedFeature.origin = d.features.map PlacedFeature.origin)
    (i : ℕ) : d'.HasRoom config i ↔ d.HasRoom config i := by
  rw [HasRoom, HasRoom, entries_congr horigin, boxes, boxes, hclassifiers]

/-- Where the names stand is nothing to whether entries lie in their space. -/
lemma listsWithin_congr {d d' : Drawing ℚ} (hclassifiers : d'.classifiers = d.classifiers)
    (hfeatures : d'.features.map PlacedFeature.unnamed = d.features.map PlacedFeature.unnamed)
    (i : ℕ) : d'.ListsWithin i ↔ d.ListsWithin i := by
  have hviewed (d : Drawing ℚ) : d.ListsWithin i ↔
      ∀ f ∈ d.features.map PlacedFeature.unnamed, f.owner = i →
        f.element.kind.isCompartmentEntry = true → (d.boxes i).space.contains f.symbol = true := by
    rw [List.forall_mem_map]
    rfl
  have hboxes : d'.boxes i = d.boxes i := by rw [boxes, boxes, hclassifiers]
  rw [hviewed, hviewed, hfeatures, hboxes]

/-- A finished drawing has room for what the drawing of placed classifiers has room for. -/
lemma hasRoom_complete_iff (m : Composer ℚ) (d : Drawing ℚ) (i : ℕ) :
    (d.complete m config).value.HasRoom config i ↔
      (d.initVisibility.layoutClassifiers m config).value.HasRoom config i := by
  have hplaced := refeatures_layoutFeatures m config
    (d.initVisibility.layoutClassifiers m config).value
  have hkeeps := (d.keepsRecords_complete m config).features
  have hplacedKeeps := (keepsRecords_initVisibility d).trans
    (keepsRecords_layoutClassifiers m config d.initVisibility)
  refine hasRoom_congr ((kept_complete m config d).1.trans ?_)
    (hkeeps.trans hplacedKeeps.features.symm) i
  rw [furnished, hplaced.classifiers_eq]

/-- In a finished drawing the entries of a classifier lie in its space exactly if there is room. -/
theorem listsWithin_complete (hconfig : config.Usable) (d : Drawing ℚ) {i : ℕ}
    (hi : i < d.classifiers.length) :
    (d.complete (.ofConfig config) config).value.ListsWithin i ↔
      (d.complete (.ofConfig config) config).value.HasRoom config i := by
  obtain ⟨hclassifiers, hfeatures⟩ := kept_complete (.ofConfig config) config d
  have hplacedKeeps := (keepsRecords_initVisibility d).trans
    (keepsRecords_layoutClassifiers (.ofConfig config) config d.initVisibility)
  rw [listsWithin_congr hclassifiers hfeatures, furnished, hasRoom_complete_iff]
  refine listsWithin_layoutFeatures hconfig ?_
  rw [hplacedKeeps.length_classifiers]
  exact hi

/-- A classifier that encloses nothing has room for its entries in a finished drawing. -/
theorem hasRoom_complete (hconfig : config.Usable) (d : Drawing ℚ) {i : ℕ}
    (hi : i < d.classifiers.length) (hnone : d.nesting.descendants i = []) :
    (d.complete (.ofConfig config) config).value.HasRoom config i := by
  have hstart : i < d.initVisibility.classifiers.length := by
    rw [(keepsRecords_initVisibility d).length_classifiers]
    exact hi
  have hembraced := hasRoom_embraced hconfig hstart
  have hnesting : (d.initVisibility.embraced (.ofConfig config) config).nesting = d.nesting :=
    (reboxes_embraced (.ofConfig config) d.initVisibility).nesting_eq.trans
      (keepsRecords_initVisibility d).nesting
  have hgathered : (d.initVisibility.gathered (.ofConfig config) config).HasRoom config i := by
    refine HasRoom.gatherGroups _ ?_ ?_
    · rw [nesting_hideNested, hnesting]
      exact hnone
    · have hkept := relates_hideNested (d.initVisibility.embraced (.ofConfig config) config)
      exact (hasRoom_congr hkept.classifiers_eq (by rw [hkept.features_eq]) i).mpr hembraced
  have hkept := relates_hideNested (d.initVisibility.gathered (.ofConfig config) config)
  rw [hasRoom_complete_iff, value_layoutClassifiers]
  exact (hasRoom_congr hkept.classifiers_eq (by rw [hkept.features_eq]) i).mpr hgathered

end Drawing

/-- Until the groups are gathered every classifier has room for its entries. In the layout the
entries of a classifier lie in its space exactly if there is still room, and that is sure if the
classifier encloses nothing. -/
theorem ElementSet.layout_listsWithin_iff {config : Config ℚ} {bounds : Rect ℚ} {s : ElementSet}
    {start : Drawing ℚ} (h : s.prepare config bounds = .ok start) :
    ∃ g, s.layout (.ofConfig config) config bounds = .ok g ∧ g.defined = true ∧
      ∀ i < g.value.classifiers.length,
        (start.initVisibility.embraced (.ofConfig config) config).HasRoom config i ∧
        (g.value.ListsWithin i ↔ g.value.HasRoom config i) ∧
        (g.value.nesting.descendants i = [] → g.value.ListsWithin i) := by
  obtain ⟨hconfig, -⟩ := prepare_eq_ok h
  refine ⟨_, layout_eq_ok h _, start.defined_complete _, fun i hi => ?_⟩
  have hkeeps := start.keepsRecords_complete (.ofConfig config) config
  rw [hkeeps.length_classifiers] at hi
  rw [hkeeps.nesting]
  have hstart : i < start.initVisibility.classifiers.length := by
    rw [(Drawing.keepsRecords_initVisibility start).length_classifiers]
    exact hi
  have hiff := Drawing.listsWithin_complete hconfig start hi
  exact ⟨Drawing.hasRoom_embraced hconfig hstart, hiff, fun hnone =>
    hiff.mpr (Drawing.hasRoom_complete hconfig start hi hnone)⟩

/-! ## A container without room -/

/-- A class with seven properties that contains another class. -/
def crowdedClass : ElementSet where
  diagram := ⟨⟨1⟩, .classes, ""⟩
  limits := .standard
  classifiers :=
    [⟨⟨1⟩, .classType, "", 0, 0, false⟩, ⟨⟨2⟩, .classType, "", 0, 0, false⟩]
  features := (List.range 7).map fun n => ⟨⟨n⟩, ⟨1⟩, .property, "size", "", 0⟩
  relationships := [⟨⟨101⟩, .containment, "", ⟨1⟩, ⟨2⟩, none, none, 0⟩]

/-- The sheet of the two classes. -/
def crowdedClassBounds : Rect ℚ := .ofCorner 0 0 800 600

/-- The drawing of the two classes before anything is computed. -/
def crowdedClassStart : Drawing ℚ where
  diagram := crowdedClass.diagram
  sheet := .ofBounds crowdedClassBounds .standard .xy
  nesting := .ofElements crowdedClass 4
  classifiers := crowdedClass.classifiers.map (⟨·, .unplaced⟩)
  features := crowdedClass.features.map (⟨·, 0, .empty, .empty, .center⟩)
  relationships :=
    [⟨⟨⟨101⟩, .containment, "", ⟨1⟩, ⟨2⟩, none, none, 0⟩, 0, 1, none, none, .collapsed, .shown,
      .empty⟩]

/-- The seven properties need a space of height 102. -/
lemma crowdedClass_entries : (crowdedClassStart.entries 0).length = 7 ∧
    (crowdedClassStart.entries 0).getLast? =
      some (6, ⟨⟨6⟩, ⟨1⟩, .property, "size", "", 0⟩) := by
  constructor <;> cbv

set_option maxRecDepth 100000 in
/-- The container is fitted around the class in it and ends with a space of height 92. -/
lemma crowdedClass_height :
    ((crowdedClassStart.complete (.ofConfig .standard) .standard).value.boxes 0).space.height =
      92 := by
  cbv

/-- The properties of the container do not all lie in its space. -/
theorem crowdedClass_entry_outside :
    ∃ g, crowdedClass.layout (.ofConfig .standard) .standard crowdedClassBounds = .ok g ∧
      g.defined = true ∧ 0 < g.value.classifiers.length ∧ ¬ g.value.ListsWithin 0 := by
  have hprepare : crowdedClass.prepare .standard crowdedClassBounds = .ok crowdedClassStart := by
    decide +kernel
  have hkeeps := crowdedClassStart.keepsRecords_complete (.ofConfig .standard) .standard
  have hfirst : 0 < crowdedClassStart.classifiers.length := by decide
  obtain ⟨hlength, hlast⟩ := crowdedClass_entries
  have hentries := Drawing.entries_congr hkeeps.features 0
  refine ⟨_, ElementSet.layout_eq_ok hprepare _, Drawing.defined_complete _ _,
    hkeeps.length_classifiers ▸ hfirst, fun hwithin => ?_⟩
  have hroom := (Drawing.listsWithin_complete (ElementSet.prepare_eq_ok hprepare).1
    crowdedClassStart hfirst).mp hwithin
  obtain ⟨-, hheight⟩ := hroom _ (hentries ▸ hlast)
  rw [hentries, hlength, crowdedClass_height] at hheight
  revert hheight
  decide +kernel

set_option maxRecDepth 100000 in
/-- Where the entries lie in the layout of the two classes. -/
theorem layout_listsWithin_iff_crowdedClass :
    crowdedClass.prepare .standard crowdedClassBounds = .ok crowdedClassStart ∧
      ∃ g, crowdedClass.layout (.ofConfig .standard) .standard crowdedClassBounds = .ok g ∧
        g.defined = true ∧ ∀ i < g.value.classifiers.length,
          (crowdedClassStart.initVisibility.embraced (.ofConfig .standard) .standard).HasRoom
            .standard i ∧
          (g.value.ListsWithin i ↔ g.value.HasRoom .standard i) ∧
          (g.value.nesting.descendants i = [] → g.value.ListsWithin i) :=
  ⟨by decide +kernel, ElementSet.layout_listsWithin_iff (by decide +kernel)⟩

end DiagramLayout
