import DiagramLayout.Proofs.Guards

/-!
# Which lines of containments are left out

On a free grid the line of a relationship is left out exactly if the relationship is a usable
containment whose nesting shows after the containers have grown or shows at the end
(`Drawing.implied_complete`). Nothing takes a line that is left out back, so a nesting that shows in
between and is broken when groups are gathered leaves its line out with nothing to say it.
`ElementSet.layout_hidesOnlyNested_iff` states when that happens, and `refusedGroup` is a diagram
where it does.
-/

namespace DiagramLayout

/-- What a relationship is and what it joins. -/
def RoutedRelationship.joined (r : RoutedRelationship ℚ) : Relationship × ℕ × ℕ :=
  (r.element, r.source, r.target)

/-- What a relationship is, what it joins and whether it is drawn. -/
def RoutedRelationship.seen (r : RoutedRelationship ℚ) : (Relationship × ℕ × ℕ) × Visibility :=
  (r.joined, r.visibility)

namespace Drawing

/-! ## Containments -/

/-- The containments are the relationships of that kind with their ends. -/
lemma mem_containments {d : Drawing ℚ} {c : Containment} :
    c ∈ d.containments ↔ ∃ r, d.relationships[c.relationship]? = some r ∧
      r.element.kind.isContainment = true ∧ r.source = c.parent ∧ r.target = c.child := by
  simp only [containments, List.mem_filterMap, Prod.exists, Option.ite_none_right_eq_some,
    Option.some.injEq, List.mem_zipIdx_iff_getElem?]
  constructor
  · rintro ⟨r, i, hr, hkind, rfl⟩
    exact ⟨r, hr, hkind, rfl, rfl⟩
  · rintro ⟨r, hr, hkind, hsource, htarget⟩
    refine ⟨r, c.relationship, hr, hkind, ?_⟩
    rw [hsource, htarget]

/-- The usable containments are among the containments. -/
lemma mem_containments_of_usable {d : Drawing ℚ} {c : Containment}
    (h : c ∈ d.usableContainments) : c ∈ d.containments :=
  (List.mem_filter.mp h).1

/-- Which containments there are depends only on what the relationships join. -/
lemma containments_congr {d d' : Drawing ℚ}
    (h : d'.relationships.map RoutedRelationship.joined =
      d.relationships.map RoutedRelationship.joined) : d'.containments = d.containments := by
  have hview (d : Drawing ℚ) : d.containments =
      (d.relationships.map RoutedRelationship.joined).zipIdx.filterMap fun (joined, i) =>
        if joined.1.kind.isContainment then some ⟨i, joined.2.1, joined.2.2⟩ else none := by
    rw [List.zipIdx_map, List.filterMap_map]
    rfl
  rw [hview, hview, h]

/-- What relationships join is seen of them whether they are drawn or not. -/
lemma map_joined_of_unseen {rs rs' : List (RoutedRelationship ℚ)}
    (h : rs'.map RoutedRelationship.unseen = rs.map RoutedRelationship.unseen) :
    rs'.map RoutedRelationship.joined = rs.map RoutedRelationship.joined := by
  have hfactor (rs : List (RoutedRelationship ℚ)) : rs.map RoutedRelationship.joined =
      (rs.map RoutedRelationship.unseen).map RoutedRelationship.joined := by
    rw [List.map_map]
    rfl
  rw [hfactor, h, ← hfactor]

/-- The usable containments do not depend on visibilities. -/
lemma usableContainments_congr {d d' : Drawing ℚ} (hnesting : d'.nesting = d.nesting)
    (h : d'.relationships.map RoutedRelationship.unseen =
      d.relationships.map RoutedRelationship.unseen) :
    d'.usableContainments = d.usableContainments := by
  rw [usableContainments, usableContainments, containments_congr (map_joined_of_unseen h), hnesting]

/-! ## Leaving out lines -/

/-- Of several relationships that are left out each one is, and no other is changed. -/
lemma getElem?_foldl_hide (cs : List Containment) (d : Drawing ℚ) (i : ℕ) :
    (cs.foldl (fun d c => d.modifyRelationship c.relationship fun r =>
        { r with visibility := .implied }) d).relationships[i]? =
      d.relationships[i]?.map fun r =>
        if ∃ c ∈ cs, c.relationship = i then { r with visibility := .implied } else r := by
  induction cs generalizing d with
  | nil => simp
  | cons c cs ih =>
    rw [List.foldl_cons, ih]
    simp only [modifyRelationship, List.getElem?_modify, List.mem_cons, exists_eq_or_imp]
    cases d.relationships[i]? with
    | none => simp
    | some r =>
      by_cases hc : c.relationship = i
      · simp [hc]
      · simp [hc]

/-- A relationship is not drawn after lines have been left out exactly if it was not before or its
nesting shows. -/
lemma implied_hideNested {d : Drawing ℚ} {i : ℕ} {r : RoutedRelationship ℚ}
    (hr : d.relationships[i]? = some r) :
    ∃ r', d.hideNested.relationships[i]? = some r' ∧
      (r'.visibility = .implied ↔ r.visibility = .implied ∨
        ∃ c ∈ d.usableContainments, c.relationship = i ∧ d.showsNesting c = true) := by
  have hspec := getElem?_foldl_hide (d.usableContainments.filter d.showsNesting) d i
  rw [hr, Option.map_some] at hspec
  refine ⟨_, hspec, ?_⟩
  have hiff : (∃ c ∈ d.usableContainments.filter d.showsNesting, c.relationship = i) ↔
      ∃ c ∈ d.usableContainments, c.relationship = i ∧ d.showsNesting c = true := by
    simp only [List.mem_filter]
    constructor
    · rintro ⟨c, ⟨hmem, hshows⟩, hc⟩
      exact ⟨c, hmem, hc, hshows⟩
    · rintro ⟨c, hmem, hc, hshows⟩
      exact ⟨c, ⟨hmem, hshows⟩, hc⟩
  rw [← hiff]
  split_ifs with hhidden
  · exact iff_of_true rfl (Or.inr hhidden)
  · exact (or_iff_left hhidden).symm

/-- What shows depends on boxes only. -/
lemma showsNesting_congr {d d' : Drawing ℚ} (h : d'.classifiers = d.classifiers) :
    d'.showsNesting = d.showsNesting := by
  funext c
  unfold showsNesting boxes
  rw [h]

/-- Leaving out lines leaves what shows as it is. -/
lemma showsNesting_hideNested (d : Drawing ℚ) : d.hideNested.showsNesting = d.showsNesting := by
  obtain ⟨rs, heq, -⟩ := relates_hideNested d
  exact showsNesting_congr (by rw [heq])

/-- Other visibilities leave the usable containments as they are. -/
lemma Relates.usableContainments_eq {d d' : Drawing ℚ}
    (h : Relates RoutedRelationship.unseen d d') :
    d'.usableContainments = d.usableContainments := by
  obtain ⟨rs, rfl, hrs⟩ := h
  exact usableContainments_congr rfl hrs

/-- Other boxes leave the usable containments as they are. -/
lemma Reboxes.usableContainments_eq {d d' : Drawing ℚ} (h : d.Reboxes d') :
    d'.usableContainments = d.usableContainments :=
  usableContainments_congr h.nesting_eq (by rw [h.relationships_eq])

/-- A line that was drawn is left out exactly if it belongs to a usable containment whose nesting
shows after the containers have grown or after the groups have been gathered. -/
theorem implied_layoutClassifiers (m : Composer ℚ) (config : Config ℚ) {d : Drawing ℚ} {i : ℕ}
    {r : RoutedRelationship ℚ} (hr : d.relationships[i]? = some r)
    (hdrawn : r.visibility ≠ .implied) :
    ∃ r', (d.layoutClassifiers m config).value.relationships[i]? = some r' ∧
      (r'.visibility = .implied ↔ ∃ c ∈ d.usableContainments, c.relationship = i ∧
        ((d.embraced m config).showsNesting c = true ∨
          (d.gathered m config).showsNesting c = true)) := by
  have hgrow : (d.estimateBounds m config).Reboxes (d.embraced m config) := reboxes_embraced m d
  have hgather : (d.embraced m config).hideNested.Reboxes (d.gathered m config) :=
    reboxes_gatherGroups m config _
  have husable : (d.embraced m config).usableContainments = d.usableContainments :=
    hgrow.usableContainments_eq
  have husable' : (d.gathered m config).usableContainments = d.usableContainments := by
    rw [hgather.usableContainments_eq, (relates_hideNested _).usableContainments_eq, husable]
  rw [value_layoutClassifiers]
  -- the line after it may have been left out once, then after it may have been left out again
  obtain ⟨r₁, hr₁, hfirst⟩ := implied_hideNested (d := d.embraced m config) (i := i) (r := r)
    (by rw [hgrow.relationships_eq]; exact hr)
  obtain ⟨r₂, hr₂, hsecond⟩ := implied_hideNested (d := d.gathered m config) (i := i) (r := r₁)
    (by rw [hgather.relationships_eq]; exact hr₁)
  refine ⟨r₂, hr₂, ?_⟩
  rw [hsecond, hfirst, husable, husable']
  simp only [hdrawn, false_or, and_or_left, exists_or]

/-! ## To the end of the layout -/

/-- What is done after placing the classifiers on a free grid moves no classifier, and it draws and
leaves out no line. -/
lemma complete_of_free (m : Composer ℚ) (config : Config ℚ) {d : Drawing ℚ}
    (hkind : d.diagram.kind.hasTimeAxis = false) :
    (d.complete m config).value.classifiers =
        (d.showAll.layoutClassifiers m config).value.classifiers ∧
      (d.complete m config).value.relationships.map RoutedRelationship.seen =
        (d.showAll.layoutClassifiers m config).value.relationships.map
          RoutedRelationship.seen := by
  have hinit : d.initVisibility = d.showAll := by simp [initVisibility, hkind]
  have hplaced := redraws_layoutClassifiers m config d.showAll
  have hfurnished := refeatures_layoutFeatures m config
    (d.showAll.layoutClassifiers m config).value
  have hdiagram : (d.furnished m config).diagram = d.diagram := by
    rw [furnished, hinit, hfurnished.diagram_eq, hplaced.diagram_eq]
    rfl
  have hroute : ((d.furnished m config).routeAll config).value =
      (d.furnished m config).routeFreely config := by
    rw [routeAll, hdiagram, hkind, if_neg Bool.false_ne_true, Guarded.value_pure]
  have hrouted : Relates RoutedRelationship.seen _ _ :=
    (relates_routeFreely config (d.furnished m config)).weaken (by intros; rfl)
  have hrenamed := renames_layoutLabels m config ((d.furnished m config).routeFreely config)
  rw [value_complete, hroute, hrenamed.classifiers_eq, hrouted.classifiers_eq,
    hrenamed.map_relationships (by intros; rfl), hrouted.map_relationships, furnished, hinit,
    hfurnished.classifiers_eq, hfurnished.relationships_eq]
  exact ⟨rfl, rfl⟩

/-- At the end of a layout on a free grid those nestings show that show after the groups have been
gathered. -/
lemma showsNesting_complete (m : Composer ℚ) (config : Config ℚ) {d : Drawing ℚ}
    (hkind : d.diagram.kind.hasTimeAxis = false) :
    (d.complete m config).value.showsNesting = (d.showAll.gathered m config).showsNesting := by
  rw [showsNesting_congr (complete_of_free m config hkind).1, value_layoutClassifiers,
    showsNesting_hideNested]

/-- Showing all relationships leaves out none. -/
lemma ne_implied_of_mem_showAll {d : Drawing ℚ} {r : RoutedRelationship ℚ}
    (hr : r ∈ d.showAll.relationships) : r.visibility ≠ .implied := by
  obtain ⟨r₀, -, rfl⟩ := List.mem_map.mp hr
  cases d.isGrayedOut r₀.source || d.isGrayedOut r₀.target <;> simp [Visibility.ofDrawn]

/-- On a free grid a line is left out exactly if it belongs to a usable containment whose nesting
shows after the containers have grown or after the groups have been gathered. -/
theorem implied_complete (m : Composer ℚ) (config : Config ℚ) {d : Drawing ℚ}
    (hkind : d.diagram.kind.hasTimeAxis = false) {i : ℕ} {r : RoutedRelationship ℚ}
    (hr : (d.complete m config).value.relationships[i]? = some r) :
    r.visibility = .implied ↔ ∃ c ∈ d.usableContainments, c.relationship = i ∧
      ((d.showAll.embraced m config).showsNesting c = true ∨
        (d.showAll.gathered m config).showsNesting c = true) := by
  obtain ⟨-, hseen⟩ := complete_of_free m config hkind
  obtain ⟨cs, rs, hplaced, -, hrs⟩ := redraws_layoutClassifiers m config d.showAll
  -- the relationship as it was placed, and as it was shown at first
  obtain ⟨rl, hrl, hrseen⟩ := getElem?_of_map_eq hseen.symm hr
  obtain ⟨r₀, hr₀, hdrawn⟩ : ∃ r₀, d.showAll.relationships[i]? = some r₀ ∧
      r₀.visibility ≠ .implied := by
    rw [hplaced] at hrl
    obtain ⟨r₀, hr₀, -⟩ := getElem?_of_map_eq hrs.symm hrl
    exact ⟨r₀, hr₀, ne_implied_of_mem_showAll (List.mem_of_getElem? hr₀)⟩
  obtain ⟨r', hr', hiff⟩ := implied_layoutClassifiers m config hr₀ hdrawn
  rw [hrl, Option.some.injEq] at hr'
  subst hr'
  have hvisibility : r.visibility = rl.visibility :=
    congrArg Prod.snd hrseen.symm
  rw [hvisibility, hiff, (relates_showAll d).usableContainments_eq]

/-- A layout on a free grid keeps the containments. -/
lemma containments_complete (m : Composer ℚ) (config : Config ℚ) {d : Drawing ℚ}
    (hkind : d.diagram.kind.hasTimeAxis = false) :
    (d.complete m config).value.containments = d.containments := by
  obtain ⟨-, hseen⟩ := complete_of_free m config hkind
  obtain ⟨cs, rs, hplaced, -, hrs⟩ := redraws_layoutClassifiers m config d.showAll
  have hjoined := congrArg (List.map Prod.fst) hseen
  rw [List.map_map, List.map_map] at hjoined
  refine containments_congr (hjoined.trans ?_)
  rw [hplaced]
  exact (map_joined_of_unseen hrs).trans
    (map_joined_of_unseen (relates_showAll d).map_relationships)

/-- Every line that is left out belongs to a containment whose nesting shows. -/
def HidesOnlyNested (d : Drawing ℚ) : Prop :=
  ∀ r ∈ d.relationships, r.visibility = .implied →
    r.element.kind.isContainment = true ∧
      (d.boxes r.source).space.contains (d.boxes r.target).symbol = true

instance (d : Drawing ℚ) : Decidable d.HidesOnlyNested :=
  inferInstanceAs (Decidable (∀ r ∈ d.relationships, r.visibility = .implied →
    r.element.kind.isContainment = true ∧
      (d.boxes r.source).space.contains (d.boxes r.target).symbol = true))

/-- Every nesting that shows after the containers have grown still shows after the groups have been
gathered. -/
def GatheringKeepsNestings (m : Composer ℚ) (config : Config ℚ) (d : Drawing ℚ) : Prop :=
  ∀ c ∈ d.usableContainments, (d.embraced m config).showsNesting c = true →
    (d.gathered m config).showsNesting c = true

end Drawing

/-- The layout of a set on a free grid leaves out only lines of containments whose nesting shows
exactly if gathering the groups breaks no nesting that growing the containers has made. -/
theorem ElementSet.layout_hidesOnlyNested_iff (m : Composer ℚ) {config : Config ℚ}
    {bounds : Rect ℚ} {s : ElementSet} {start : Drawing ℚ}
    (hprepare : s.prepare config bounds = .ok start)
    (hkind : start.diagram.kind.hasTimeAxis = false) :
    ∃ g, s.layout m config bounds = .ok g ∧ g.defined = true ∧
      (g.value.HidesOnlyNested ↔ start.showAll.GatheringKeepsNestings m config) := by
  refine ⟨_, ElementSet.layout_eq_ok hprepare m, Drawing.defined_complete m start, ?_⟩
  have hcontainments := Drawing.containments_complete m config hkind
  have hshown := Drawing.showsNesting_complete m config hkind
  have hleftOut {i : ℕ} {r : RoutedRelationship ℚ} :=
    Drawing.implied_complete m config hkind (i := i) (r := r)
  rw [Drawing.GatheringKeepsNestings, (Drawing.relates_showAll start).usableContainments_eq]
  generalize (start.complete m config).value = final at hcontainments hshown hleftOut ⊢
  rw [← hshown] at hleftOut ⊢
  constructor
  · intro hhides c hc hshows
    have hmem : c ∈ final.containments := hcontainments ▸ Drawing.mem_containments_of_usable hc
    obtain ⟨r, hr, -, hsource, htarget⟩ := Drawing.mem_containments.mp hmem
    have himplied : r.visibility = .implied :=
      (hleftOut hr).mpr ⟨c, hc, rfl, Or.inl hshows⟩
    obtain ⟨-, hnested⟩ := hhides r (List.mem_of_getElem? hr) himplied
    rw [hsource, htarget] at hnested
    exact hnested
  · intro hkeeps r hmem himplied
    obtain ⟨i, hr⟩ := List.mem_iff_getElem?.mp hmem
    obtain ⟨c, hc, rfl, hshows⟩ := (hleftOut hr).mp himplied
    have hcmem : c ∈ final.containments := hcontainments ▸ Drawing.mem_containments_of_usable hc
    obtain ⟨r', hr', hkindr, hsource, htarget⟩ := Drawing.mem_containments.mp hcmem
    obtain rfl : r = r' := Option.some.inj (hr.symm.trans hr')
    refine ⟨hkindr, ?_⟩
    rw [hsource, htarget]
    exact hshows.elim (hkeeps c hc) id

/-! ## A group that is refused -/

/-- Three packages, each in the next, on a sheet that has just room for the outer one. -/
def refusedGroup : ElementSet where
  diagram := ⟨⟨1⟩, .package, ""⟩
  limits := .standard
  classifiers :=
    [⟨⟨1⟩, .package, "", 2, 2, false⟩, ⟨⟨2⟩, .package, "", 2, 1, false⟩,
      ⟨⟨3⟩, .package, "", 2, 0, false⟩]
  features := []
  relationships :=
    [⟨⟨102⟩, .containment, "", ⟨2⟩, ⟨3⟩, none, none, 0⟩,
      ⟨⟨101⟩, .containment, "", ⟨1⟩, ⟨2⟩, none, none, 0⟩]

/-- The sheet of the three packages. -/
def refusedGroupBounds : Rect ℚ := .ofCorner 0 0 200 400

/-- The drawing of the three packages before anything is computed. -/
def refusedGroupStart : Drawing ℚ where
  diagram := refusedGroup.diagram
  sheet := .ofBounds refusedGroupBounds .standard .xy
  nesting := .ofElements refusedGroup 4
  classifiers := refusedGroup.classifiers.map (⟨·, .unplaced⟩)
  features := []
  relationships :=
    [⟨⟨⟨102⟩, .containment, "", ⟨2⟩, ⟨3⟩, none, none, 0⟩, 1, 2, none, none, .collapsed, .shown,
        .empty⟩,
      ⟨⟨⟨101⟩, .containment, "", ⟨1⟩, ⟨2⟩, none, none, 0⟩, 0, 1, none, none, .collapsed, .shown,
        .empty⟩]

set_option maxRecDepth 100000 in
/-- The outer package embraces the middle one, the group of the middle one is gathered, the group of
the outer one is refused, and the line between them stays left out with nothing to say it. -/
theorem refusedGroup_not_hidesOnlyNested :
    ∃ g, refusedGroup.layout (.ofConfig .standard) .standard refusedGroupBounds = .ok g ∧
      g.defined = true ∧ ¬ g.value.HidesOnlyNested := by
  have hprepare : refusedGroup.prepare .standard refusedGroupBounds = .ok refusedGroupStart := by
    decide +kernel
  exact ⟨_, ElementSet.layout_eq_ok hprepare _, by decide +kernel, by decide +kernel⟩

set_option maxRecDepth 100000 in
/-- The exact condition for the three packages. -/
theorem layout_hidesOnlyNested_iff_refusedGroup :
    refusedGroup.prepare .standard refusedGroupBounds = .ok refusedGroupStart ∧
      refusedGroupStart.diagram.kind.hasTimeAxis = false ∧
      ∃ g, refusedGroup.layout (.ofConfig .standard) .standard refusedGroupBounds = .ok g ∧
        g.defined = true ∧
        (g.value.HidesOnlyNested ↔
          refusedGroupStart.showAll.GatheringKeepsNestings (.ofConfig .standard) .standard) :=
  ⟨by decide +kernel, by decide, ElementSet.layout_hidesOnlyNested_iff _ (by decide +kernel)
    (by decide)⟩

end DiagramLayout
