import DiagramLayout.Proofs.Compartments

/-!
# Entries are stacked

When a classifier has its turn, its compartment entries are put below one another in their order,
with two borders for each boundary between compartments that lies between them, also for the
compartments that are empty (`Drawing.Stacked`). The line of an entry can be given in one step: so
many lines below the border as there are entries before it (`getElem?_stackEntries`). Two entries
are therefore compared by their numbers in the list, and the order of the list is that of their
places.

What a classifier asks for with `Drawing.entriesSize` has room for the stack, so in a space of that
size all entries lie within it (`Drawing.stacked_layoutFeaturesOf`).
-/

namespace DiagramLayout

/-- The line of an entry in a space, `offset` below where it would be in the first compartment at
the top. -/
def lineBox (m : Composer ℚ) (border : ℚ) (space : Rect ℚ) (offset : ℚ) (f : Feature) : Rect ℚ :=
  .ofCorner (space.minX + border) (space.minY + offset + 2 * border * f.kind.compartment)
    (min (m.entrySize f).width (max (space.width - 2 * border) 0)) m.lineHeight

/-- Lines are as high as a line of text. -/
lemma height_lineBox (m : Composer ℚ) (border : ℚ) (space : Rect ℚ) (offset : ℚ) (f : Feature) :
    (lineBox m border space offset f).height = m.lineHeight := by
  rw [lineBox, Rect.ofCorner, Rect.height]
  ring

/-- The line of an entry is as many lines below the offset as there are entries before it. -/
lemma getElem?_stackEntries (m : Composer ℚ) (border : ℚ) (space : Rect ℚ) (offset : ℚ)
    (entries : List (ℕ × Feature)) (n : ℕ) :
    (stackEntries m border space offset entries)[n]? = entries[n]?.map fun entry =>
      (entry.1, lineBox m border space (offset + n * m.lineHeight) entry.2) := by
  induction entries generalizing offset n with
  | nil => simp [stackEntries]
  | cons entry rest ih =>
    rw [stackEntries]
    cases n with
    | zero =>
      simp only [List.getElem?_cons_zero, Option.map_some, lineBox, Scalar.num_exact,
        Scalar.min_exact, Scalar.max_exact, Nat.cast_zero, zero_mul, add_zero]
      push_cast
      rfl
    | succ n =>
      have hoffset : offset + ((n + 1 : ℕ) : ℚ) * m.lineHeight =
          offset + (m.entrySize entry.2).height + n * m.lineHeight := by
        rw [show (m.entrySize entry.2).height = m.lineHeight from rfl]
        push_cast
        ring
      rw [List.getElem?_cons_succ, List.getElem?_cons_succ, ih, hoffset]

/-- A line ends above another one that has more entries before it, with two borders for each
boundary between their compartments. -/
lemma lineBox_above {m : Composer ℚ} (hm : 0 ≤ m.lineHeight) (border : ℚ) (space : Rect ℚ)
    (start : ℚ) {n n' : ℕ} (hn : n < n') (f g : Feature) :
    (lineBox m border space (start + n * m.lineHeight) f).maxY +
        2 * border * ((g.kind.compartment : ℚ) - f.kind.compartment) ≤
      (lineBox m border space (start + n' * m.lineHeight) g).minY := by
  have hlines : ((n + 1 : ℕ) : ℚ) * m.lineHeight ≤ n' * m.lineHeight :=
    mul_le_mul_of_nonneg_right (Nat.cast_le.mpr hn) hm
  push_cast at hlines
  simp only [lineBox, Rect.ofCorner]
  linarith

namespace Drawing

variable {config : Config ℚ}

/-- The entries of a classifier stand below one another in their order, each on a line, with two
borders for each boundary between compartments. -/
structure Stacked (config : Config ℚ) (d : Drawing ℚ) (i : ℕ) : Prop where
  height : ∀ (k : ℕ) (f : PlacedFeature ℚ), d.features[k]? = some f → f.owner = i →
    f.element.kind.isCompartmentEntry = true → f.symbol.height = config.lineHeight
  above : ∀ (k l : ℕ) (f g : PlacedFeature ℚ), d.features[k]? = some f →
    d.features[l]? = some g → f.owner = i → g.owner = i →
    f.element.kind.isCompartmentEntry = true → g.element.kind.isCompartmentEntry = true →
    entryPlace (k, f.element) < entryPlace (l, g.element) →
      f.symbol.maxY + 2 * config.border *
        ((g.element.kind.compartment : ℚ) - f.element.kind.compartment) ≤ g.symbol.minY

/-- Entries with earlier places have lower numbers in the list. -/
lemma lt_of_entryPlace_lt {d : Drawing ℚ} {i n n' : ℕ} {entry entry' : ℕ × Feature}
    (hn : (d.entries i)[n]? = some entry) (hn' : (d.entries i)[n']? = some entry')
    (hplace : entryPlace entry < entryPlace entry') : n < n' := by
  by_contra hnot
  obtain ⟨hlt, hentry⟩ := List.getElem?_eq_some_iff.mp hn
  obtain ⟨hlt', hentry'⟩ := List.getElem?_eq_some_iff.mp hn'
  rcases (not_lt.mp hnot).lt_or_eq with hless | rfl
  · have hback := List.pairwise_iff_getElem.mp (d.pairwise_entries i) n' n hlt' hlt hless
    rw [hentry, hentry'] at hback
    exact lt_asymm hplace hback
  · rw [← hentry, ← hentry'] at hplace
    exact lt_irrefl _ hplace

/-- After the turn of its classifier an entry has the line of its number. -/
lemma exists_lineBox_layoutFeaturesOf (m : Composer ℚ) (config : Config ℚ) {d : Drawing ℚ}
    {i k : ℕ} {f : PlacedFeature ℚ}
    (hf : (d.layoutFeaturesOf m config i).value.features[k]? = some f) (howner : f.owner = i)
    (hkind : f.element.kind.isCompartmentEntry = true) :
    ∃ n : ℕ, (d.entries i)[n]? = some (k, f.element) ∧
      f.symbol = lineBox m config.border (d.boxes i).space
        (config.border + n * m.lineHeight) f.element := by
  have hkept := refeatures_layoutFeaturesOf m config d i
  have hentry : (k, f.element) ∈ d.entries i := by
    rw [← entries_congr hkept.map_features]
    exact mem_entries.mpr ⟨f, hf, howner, hkind, rfl⟩
  obtain ⟨n, hn⟩ := List.mem_iff_getElem?.mp hentry
  have hnumber := getElem?_stackEntries m config.border (d.boxes i).space config.border
    (d.entries i) n
  rw [hn, Option.map_some] at hnumber
  have hline : (k, lineBox m config.border (d.boxes i).space
      (config.border + n * m.lineHeight) f.element) ∈ d.entryLines m config i :=
    List.mem_of_getElem? hnumber
  obtain ⟨f₀, hf₀, -⟩ := mem_entries.mp hentry
  have hplaced := entry_layoutFeaturesOf hline hf₀
  rw [hf, Option.some.injEq] at hplaced
  exact ⟨n, hn, congrArg PlacedFeature.symbol hplaced⟩

/-- After the turn of a classifier its entries are stacked. -/
lemma stacked_value_layoutFeaturesOf (hconfig : config.Usable) (d : Drawing ℚ) (i : ℕ) :
    (d.layoutFeaturesOf (.ofConfig config) config i).value.Stacked config i := by
  constructor
  · intro k f hf howner hkind
    obtain ⟨n, -, hsymbol⟩ :=
      exists_lineBox_layoutFeaturesOf (.ofConfig config) config hf howner hkind
    rw [hsymbol, height_lineBox]
    rfl
  · intro k l f g hf hg hfowner hgowner hfkind hgkind hplace
    obtain ⟨n, hn, hfsymbol⟩ :=
      exists_lineBox_layoutFeaturesOf (.ofConfig config) config hf hfowner hfkind
    obtain ⟨n', hn', hgsymbol⟩ :=
      exists_lineBox_layoutFeaturesOf (.ofConfig config) config hg hgowner hgkind
    rw [hfsymbol, hgsymbol]
    exact lineBox_above hconfig.composer.lineHeight.le config.border (d.boxes i).space
      config.border (lt_of_entryPlace_lt hn hn' hplace) f.element g.element

/-- A space of the size that a classifier asks for has room for its entries. -/
lemma hasRoom_of_entriesSize_le (hconfig : config.Usable) {d : Drawing ℚ} {i : ℕ}
    (hwidth : (d.entriesSize (.ofConfig config) config i).width ≤ (d.boxes i).space.width)
    (hheight : (d.entriesSize (.ofConfig config) config i).height ≤ (d.boxes i).space.height) :
    d.HasRoom config i := by
  intro last hlast
  obtain ⟨hx, hy⟩ := le_entriesSize hconfig d hlast
  exact ⟨hx.trans hwidth, hy.trans hheight⟩

/-- The turn of a classifier is defined and stacks its entries, and they lie within its space if
that is as large as the classifier asks for. -/
theorem stacked_layoutFeaturesOf (hconfig : config.Usable) (d : Drawing ℚ) (i : ℕ) :
    ∃ g, d.layoutFeaturesOf (.ofConfig config) config i = g ∧ g.defined = true ∧
      Refeatures PlacedFeature.origin d g.value ∧ g.value.Stacked config i ∧
      ((d.entriesSize (.ofConfig config) config i).width ≤ (d.boxes i).space.width →
        (d.entriesSize (.ofConfig config) config i).height ≤ (d.boxes i).space.height →
          g.value.ListsWithin i) := by
  refine ⟨_, rfl, defined_layoutFeaturesOf _ d i, refeatures_layoutFeaturesOf _ config d i,
    stacked_value_layoutFeaturesOf hconfig d i, fun hwidth hheight => ?_⟩
  have hsymbol (k : ℕ) (box : Rect ℚ)
      (hline : (k, box) ∈ d.entryLines (.ofConfig config) config i) :
      ∃ f, (d.layoutFeaturesOf (.ofConfig config) config i).value.features[k]? = some f ∧
        f.symbol = box := by
    obtain ⟨f, hf, -⟩ := exists_of_mem_entryLines hline
    exact ⟨_, entry_layoutFeaturesOf hline hf, rfl⟩
  rw [listsWithin_iff (refeatures_layoutFeaturesOf _ config d i) hsymbol,
    contains_entryLines_iff hconfig]
  exact hasRoom_of_entriesSize_le hconfig hwidth hheight

end Drawing

/-- A class without operations, whose tagged value comes before its two properties. Its space is as
high as the three entries ask for. -/
def listedClass : Drawing ℚ where
  diagram := ⟨⟨1⟩, .classes, ""⟩
  sheet := .ofBounds (.ofCorner 0 0 800 600) .standard .xy
  nesting := .flat 1
  classifiers :=
    [⟨⟨⟨1⟩, .classType, "", 0, 0, false⟩,
      ⟨.ofCorner 0 0 120 92, .ofCorner 4 22 112 66, .empty, .empty⟩⟩]
  features :=
    [⟨⟨⟨11⟩, ⟨1⟩, .taggedValue, "unit", "mm", 0⟩, 0, .empty, .empty, .center⟩,
      ⟨⟨⟨13⟩, ⟨1⟩, .property, "depth", "", 5⟩, 0, .empty, .empty, .center⟩,
      ⟨⟨⟨12⟩, ⟨1⟩, .property, "width", "", 5⟩, 0, .empty, .empty, .center⟩]
  relationships := []

/-- The entries of the class are stacked in its space, the properties by their identifiers and then
the tagged value. -/
theorem stacked_layoutFeaturesOf_listedClass :
    (Config.standard : Config ℚ).Usable ∧
      (listedClass.entries 0).map Prod.fst = [2, 1, 0] ∧
      ∃ g, listedClass.layoutFeaturesOf (.ofConfig .standard) .standard 0 = g ∧
        g.defined = true ∧ g.value.Stacked .standard 0 ∧ g.value.ListsWithin 0 := by
  have hconfig : (Config.standard : Config ℚ).Usable :=
    Config.usable_of_validate (by decide +kernel)
  have hsize : listedClass.entriesSize (.ofConfig .standard) .standard 0 = ⟨64, 66⟩ := by cbv
  obtain ⟨g, hg, hdefined, -, hstacked, hwithin⟩ :=
    Drawing.stacked_layoutFeaturesOf hconfig listedClass 0
  rw [hsize] at hwithin
  refine ⟨hconfig, by cbv, g, hg, hdefined, hstacked, hwithin ?_ ?_⟩
  · decide +kernel
  · decide +kernel

end DiagramLayout
