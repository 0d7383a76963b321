import Mathlib
import DiagramLayout.Proofs.Classifiers.Hiding
import DiagramLayout.Proofs.Nesting
import DiagramLayout.Proofs.Refusal

/-!
# Containments on cycles

A containment on a cycle is to be passed over: its parent does not grow around its child, and its
line is not left out. Whether it is on a cycle is read off the nesting, which knows chains only as
far as its passes go. So a containment that is on a cycle of at most two more relationships than
there are passes is passed over, and with at most as many classifiers every one on a cycle is
(`ElementSet.passesOver_onCycle`). On a longer cycle it depends on the order of the relationships:
in a ring of seven packages two containments are taken for usable, and their lines are left out
(`ringOfSeven_not_passed`).
-/

namespace DiagramLayout

namespace Drawing

variable {d d' : Drawing ℚ}

/-! ## The nesting of the containments -/

/-- The parent and the child of every containment relationship. -/
def nestingEdges (d : Drawing ℚ) : List NestingEdge :=
  (d.relationships.filter (·.element.kind.isContainment)).map fun r => (r.source, r.target)

/-- An edge is the parent and the child of a containment. -/
lemma mem_nestingEdges {p c : ℕ} :
    (p, c) ∈ d.nestingEdges ↔ ∃ x ∈ d.containments, x.parent = p ∧ x.child = c := by
  simp only [nestingEdges, List.mem_map, List.mem_filter, Prod.mk.injEq]
  constructor
  · rintro ⟨r, ⟨hr, hkind⟩, rfl, rfl⟩
    obtain ⟨i, hi⟩ := List.mem_iff_getElem?.mp hr
    exact ⟨⟨i, r.source, r.target⟩, mem_containments.mpr ⟨r, hi, hkind, rfl, rfl⟩, rfl, rfl⟩
  · rintro ⟨x, hx, rfl, rfl⟩
    obtain ⟨r, hr, hkind, hsource, htarget⟩ := mem_containments.mp hx
    exact ⟨r, ⟨List.mem_of_getElem? hr, hkind⟩, hsource, htarget⟩

/-- The nesting is that of the containments, closed by so many passes. -/
def NestsContainments (passes : ℕ) (d : Drawing ℚ) : Prop :=
  d.nesting = .ofEdges d.classifiers.length d.nestingEdges passes

/-- Whether the nesting is that of the containments is decided by making it again. -/
instance (passes : ℕ) (d : Drawing ℚ) : Decidable (d.NestsContainments passes) :=
  inferInstanceAs (Decidable (d.nesting = .ofEdges d.classifiers.length d.nestingEdges passes))

/-- What the containments join is found in the set as in the drawing. -/
lemma edgesOf_eq {s : ElementSet} (h : s.RecordedIn d) : Nesting.edgesOf s = d.nestingEdges := by
  have hposition {id : RowId} {i : ℕ} (hi : IsFirst Classifier.id s.classifiers id i) :
      s.classifierPosition id = some i :=
    ElementSet.findIdx?_eq_some_iff.mpr hi
  rw [Nesting.edgesOf, nestingEdges, ← h.relationships, List.filter_map, List.filterMap_map,
    ← List.filterMap_eq_map]
  apply List.filterMap_congr
  intro r hr
  have hmem := (List.mem_filter.mp hr).1
  simp [hposition (h.sources r hmem), hposition (h.targets r hmem)]

/-- A drawing starts with the nesting of its containments. -/
lemma nestsContainments_ofElements {s : ElementSet} {config : Config ℚ} {bounds : Rect ℚ}
    (h : ofElements s bounds config = .ok d) : d.NestsContainments config.containmentPasses := by
  have hrecorded := recordedIn_of_ofElements h
  rw [NestsContainments, hrecorded.length_classifiers, ← edgesOf_eq hrecorded]
  exact (fresh_of_ofElements h).1

/-- The nesting of the containments knows chains as far as its passes go. -/
lemma NestsContainments.charts {passes : ℕ} (h : d.NestsContainments passes) :
    d.nesting.Charts d.classifiers.length d.nestingEdges (passes + 1) :=
  h.symm ▸ Nesting.charts_ofEdges _ _ passes

/-- Other boxes leave the nesting that of the containments. -/
lemma NestsContainments.of_reboxes {passes : ℕ} (h : d.NestsContainments passes)
    (hreboxes : d.Reboxes d') : d'.NestsContainments passes := by
  rw [NestsContainments, hreboxes.nesting_eq, hreboxes.length_classifiers, nestingEdges,
    hreboxes.relationships_eq]
  exact h

/-! ## Cycles -/

/-- So many further containments lead from the child of a containment back to its parent. -/
def OnCycle (d : Drawing ℚ) (further : ℕ) (c : Containment) : Prop :=
  Nesting.Path d.classifiers.length d.nestingEdges further c.child c.parent

/-- A containment is usable or passed over. -/
lemma mem_skippedContainments {c : Containment} (hc : c ∈ d.containments) :
    c ∈ d.skippedContainments ↔ c ∉ d.usableContainments := by
  simp [skippedContainments, usableContainments, hc]

/-- A containment is passed over if its ends are the same or its child is known to enclose its
parent. -/
lemma mem_skippedContainments_iff {c : Containment} :
    c ∈ d.skippedContainments ↔
      c ∈ d.containments ∧ (c.parent = c.child ∨ d.nesting.encloses c.child c.parent = true) := by
  rw [skippedContainments, List.mem_filter]
  apply and_congr_right
  intro _
  simp only [Containment.isUsable, Bool.not_and, Bool.not_not, Bool.or_eq_true,
    bne_eq_false_iff_eq, Bool.not_eq_true']

/-- A containment on a short cycle is passed over. -/
lemma NestsContainments.mem_skipped {passes : ℕ} (h : d.NestsContainments passes)
    {c : Containment} (hc : c ∈ d.containments) {further : ℕ} (hshort : further ≤ passes + 1)
    (hcycle : d.OnCycle further c) : c ∈ d.skippedContainments := by
  refine mem_skippedContainments_iff.mpr ⟨hc, ?_⟩
  rcases eq_or_ne c.parent c.child with hself | hne
  · exact Or.inl hself
  · exact Or.inr (h.charts.encloses_of_path _ _ hne.symm further hshort hcycle)

/-- A containment that is passed over is on a cycle. -/
lemma NestsContainments.exists_onCycle {passes : ℕ} (h : d.NestsContainments passes)
    {c : Containment} (hc : c ∈ d.skippedContainments) : ∃ further, d.OnCycle further c := by
  obtain ⟨-, hself | hencloses⟩ := mem_skippedContainments_iff.mp hc
  · refine ⟨0, ?_⟩
    rw [OnCycle, hself]
    exact .refl _
  · exact (h.charts.path_of_encloses _ _ hencloses).2

/-- With few classifiers the containments that are passed over are those on cycles. -/
lemma NestsContainments.mem_skipped_iff {passes : ℕ} (h : d.NestsContainments passes)
    (hfew : d.classifiers.length ≤ passes + 2) {c : Containment} (hc : c ∈ d.containments) :
    c ∈ d.skippedContainments ↔ ∃ further, d.OnCycle further c := by
  refine ⟨h.exists_onCycle, ?_⟩
  rintro ⟨further, hcycle⟩
  rcases eq_or_ne c.child c.parent with hself | hne
  · exact mem_skippedContainments_iff.mpr ⟨hc, Or.inl hself.symm⟩
  · obtain ⟨short, hshort, hpath⟩ := hcycle.exists_lt (hcycle.start_lt hne)
    exact h.mem_skipped hc (by omega) hpath

/-! ## What becomes of a containment that is passed over -/

variable {m : Composer ℚ} {config : Config ℚ}

/-- The containment at the position of a relationship is the only one there. -/
lemma eq_of_mem_containments {c c' : Containment} (hc : c ∈ d.containments)
    (hc' : c' ∈ d.containments) (hsame : c'.relationship = c.relationship) : c' = c := by
  obtain ⟨r, hr, -, hsource, htarget⟩ := mem_containments.mp hc
  obtain ⟨r', hr', -, hsource', htarget'⟩ := mem_containments.mp hc'
  obtain rfl : r' = r := Option.some.inj (hr'.symm.trans (hsame ▸ hr))
  obtain ⟨i, parent, child⟩ := c
  obtain ⟨i', parent', child'⟩ := c'
  rw [Containment.mk.injEq]
  exact ⟨hsame, hsource'.symm.trans hsource, htarget'.symm.trans htarget⟩

/-- A containment that takes no part when the classifiers are placed: no parent grows for it, and
its line is not left out. -/
structure PassesOver (m : Composer ℚ) (config : Config ℚ) (d : Drawing ℚ) (c : Containment) :
    Prop where
  /-- It is not usable. -/
  not_usable : c ∉ d.usableContainments
  /-- The containers grow in turns of which none is its own. -/
  not_embraced : ∃ turns, d.initVisibility.embraced m config =
    (((d.initVisibility.estimateBounds m config).moveApart config).value.1.embracingAfter m config
      turns).drawing ∧ c ∉ turns
  /-- Its line is drawn when the classifiers have been placed. -/
  not_hidden : ∃ r, (d.initVisibility.layoutClassifiers m config).value.relationships[
    c.relationship]? = some r ∧ r.visibility ≠ .implied

/-- A containment that is not usable takes no part, if its line is drawn at first. -/
lemma passesOver_of_skipped {c : Containment} (hc : c ∈ d.skippedContainments)
    (hdrawn : ∀ r ∈ d.initVisibility.relationships, r.visibility ≠ .implied) :
    d.PassesOver m config c := by
  have hmem : c ∈ d.containments := (List.mem_filter.mp hc).1
  have hunusable : c ∉ d.usableContainments := (mem_skippedContainments hmem).mp hc
  have hsame := (relates_initVisibility d).usableContainments_eq
  refine ⟨hunusable, ⟨_, embraceChildren_eq m config _, ?_⟩, ?_⟩
  · -- the turns are those of the containments that were usable before
    intro hturn
    have hspread := reboxes_moveApart config (d.initVisibility.estimateBounds m config)
    have husable := mem_usableContainments_of_turn hturn
    rw [hspread.usableContainments_eq] at husable
    exact hunusable (hsame ▸ husable)
  · obtain ⟨r, hr, -⟩ := mem_containments.mp hmem
    obtain ⟨r₀, hr₀, -⟩ := getElem?_of_map_eq (relates_initVisibility d).map_relationships hr
    have hvisible := hdrawn r₀ (List.mem_of_getElem? hr₀)
    obtain ⟨r', hr', hiff⟩ := implied_layoutClassifiers m config hr₀ hvisible
    refine ⟨r', hr', ?_⟩
    intro himplied
    obtain ⟨c', hc', hposition, -⟩ := hiff.mp himplied
    rw [hsame] at hc'
    rw [eq_of_mem_containments hmem (mem_containments_of_usable hc') hposition] at hc'
    exact hunusable hc'

/-- Every line of a drawing is drawn at first. -/
lemma initVisibility_ne_implied {s : ElementSet} {bounds : Rect ℚ}
    (h : ofElements s bounds config = .ok d) :
    ∀ r ∈ d.initVisibility.relationships, r.visibility ≠ .implied := by
  intro r hr
  unfold initVisibility at hr
  split_ifs at hr
  · rw [((fresh_of_ofElements h).2.2 r hr).2]
    exact Visibility.noConfusion
  · exact ne_implied_of_mem_showAll hr

end Drawing

/-- A containment is passed over if it is on a cycle of at most two more relationships than there
are passes, a self containment for one; only containments on cycles are passed over; and with at
most as many classifiers all of them are. -/
theorem ElementSet.passesOver_onCycle {s : ElementSet} {config : Config ℚ} {bounds : Rect ℚ}
    {start : Drawing ℚ} (hstart : Drawing.ofElements s bounds config = .ok start)
    (m : Composer ℚ) :
    (∀ c ∈ start.containments, ∀ further ≤ config.containmentPasses + 1,
        start.OnCycle further c → start.PassesOver m config c) ∧
      (∀ c ∈ start.containments, c ∉ start.usableContainments →
        ∃ further, start.OnCycle further c) ∧
      (s.classifiers.length ≤ config.containmentPasses + 2 → ∀ c ∈ start.containments,
        (∃ further, start.OnCycle further c) → start.PassesOver m config c) := by
  have hnests := Drawing.nestsContainments_ofElements hstart
  have hdrawn := Drawing.initVisibility_ne_implied hstart
  have hlength := (Drawing.recordedIn_of_ofElements hstart).length_classifiers
  refine ⟨?_, ?_, ?_⟩
  · intro c hc further hshort hcycle
    exact Drawing.passesOver_of_skipped (hnests.mem_skipped hc hshort hcycle) hdrawn
  · intro c hc hunusable
    exact hnests.exists_onCycle ((Drawing.mem_skippedContainments hc).mpr hunusable)
  · intro hfew c hc hcycle
    have hskipped := (hnests.mem_skipped_iff (hlength ▸ hfew) hc).mpr hcycle
    exact Drawing.passesOver_of_skipped hskipped hdrawn

/-! ## Rings -/

/-- So many packages in a row, each of which contains the next and the last one the first. The
containments are listed against their direction. -/
def ringOfPackages (count : ℕ) : ElementSet where
  diagram := ⟨⟨1⟩, .package, ""⟩
  limits := .standard
  classifiers := (List.range count).map fun i : ℕ =>
    ⟨⟨i + 1⟩, .package, "", Int32.ofNat i, 0, false⟩
  features := []
  relationships := (List.range count).reverse.map fun i : ℕ =>
    ⟨⟨101 + i⟩, .containment, "", ⟨i + 1⟩, ⟨((i + 1) % count : ℕ) + 1⟩, none, none, 0⟩

/-- The sheet of the rings. -/
def ringBounds : Rect ℚ := .ofCorner 0 0 1600 1200

/-- The drawing of a ring before anything is computed. -/
def ringStart (count : ℕ) : Drawing ℚ where
  diagram := (ringOfPackages count).diagram
  sheet := .ofBounds ringBounds .standard .xy
  nesting := .ofElements (ringOfPackages count) 4
  classifiers := (ringOfPackages count).classifiers.map (⟨·, .unplaced⟩)
  features := []
  relationships := (List.range count).reverse.map fun i : ℕ =>
    ⟨⟨⟨101 + i⟩, .containment, "", ⟨i + 1⟩, ⟨((i + 1) % count : ℕ) + 1⟩, none, none, 0⟩,
      i, (i + 1) % count, none, none, .collapsed, .shown, .empty⟩

/-- What a nesting with more passes knows of a drawing shows which containments are on cycles. -/
lemma Drawing.exists_onCycle_of_encloses {d : Drawing ℚ} (passes : ℕ) {c : Containment}
    (h : (Nesting.ofEdges d.classifiers.length d.nestingEdges passes).encloses c.child c.parent) :
    ∃ further, d.OnCycle further c :=
  ((Nesting.charts_ofEdges _ _ passes).path_of_encloses _ _ h).2

/-- In the ring of three every containment is passed over. -/
theorem passesOver_onCycle_ringOfThree :
    Drawing.ofElements (ringOfPackages 3) ringBounds .standard = .ok (ringStart 3) ∧
      (ringStart 3).containments.length = 3 ∧
      ∀ c ∈ (ringStart 3).containments,
        (ringStart 3).PassesOver (.ofConfig .standard) .standard c := by
  have hstart : Drawing.ofElements (ringOfPackages 3) ringBounds .standard = .ok (ringStart 3) := by
    decide +kernel
  obtain ⟨-, -, hall⟩ := ElementSet.passesOver_onCycle hstart (.ofConfig .standard)
  refine ⟨hstart, by decide, ?_⟩
  intro c hc
  apply hall (by decide) c hc
  apply Drawing.exists_onCycle_of_encloses 1
  revert c hc
  decide +kernel

set_option maxRecDepth 100000 in
/-- In the ring of seven every containment is on a cycle, but three of them are taken for usable,
and the lines of two are left out. -/
theorem ringOfSeven_not_passed :
    (ringOfPackages 7).prepare .standard ringBounds = .ok (ringStart 7) ∧
      (∀ c ∈ (ringStart 7).containments, ∃ further, (ringStart 7).OnCycle further c) ∧
      (ringStart 7).usableContainments.map (·.relationship) = [0, 1, 6] ∧
      ∃ g, (ringOfPackages 7).layout (.ofConfig .standard) .standard ringBounds = .ok g ∧
        g.value.relationships.map (·.visibility) =
          [.shown, .implied, .shown, .shown, .shown, .shown, .implied] := by
  have hprepare : (ringOfPackages 7).prepare .standard ringBounds = .ok (ringStart 7) := by
    decide +kernel
  refine ⟨hprepare, ?_, by decide +kernel, _, ElementSet.layout_eq_ok hprepare _,
    by decide +kernel⟩
  intro c hc
  apply Drawing.exists_onCycle_of_encloses 5
  revert c hc
  decide +kernel

end DiagramLayout
