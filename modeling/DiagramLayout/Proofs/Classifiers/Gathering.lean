import DiagramLayout.Proofs.Classifiers.Soundness

/-!
# Gathering moves groups into free room

A container whose turn it is is either refused, and stays with all that it encloses, or accepted,
and the whole group moves by one offset. `Drawing.gatherStep_eq` says so, and `Drawing.Gathered`
says what is known of a group that moves: its container holds everything that it encloses with the
distance around, and its envelope lies in the draw area, apart from all strangers.
-/

namespace DiagramLayout

/-! ## Free room -/

/-- What is left beside an obstacle is empty, or it lies in the rectangle and shares nothing with
the obstacle. -/
lemma mostCoveredStrip_spec (box free obstacle : Rect ℚ) :
    mostCoveredStrip box free obstacle = .empty ∨
      free.contains (mostCoveredStrip box free obstacle) = true ∧
        (mostCoveredStrip box free obstacle).overlapArea obstacle = 0 := by
  unfold mostCoveredStrip
  refine List.foldlRecOn _ _ (motive := fun best : Rect ℚ =>
    best = .empty ∨ free.contains best = true ∧ best.overlapArea obstacle = 0) (Or.inl rfl) ?_
  intro best hbest strip hstrip
  split_ifs
  · exact (Rect.strip_spec hstrip).imp_right And.right
  · exact hbest

/-- A rectangle cut by an obstacle is empty, or it lies in what it was before and shares nothing
with the obstacle. -/
lemma cutFree_spec (box free obstacle : Rect ℚ) :
    cutFree box free obstacle = .empty ∨
      free.contains (cutFree box free obstacle) = true ∧
        (cutFree box free obstacle).overlapArea obstacle = 0 := by
  unfold cutFree
  split_ifs with hoverlaps
  · exact mostCoveredStrip_spec box free obstacle
  · refine Or.inr ⟨Rect.contains_self free, ?_⟩
    rw [Rect.overlapArea_comm]
    exact Rect.overlapArea_eq_zero (by simpa using hoverlaps)

/-- An empty rectangle is not cut further. -/
lemma cutFree_empty (box obstacle : Rect ℚ) : cutFree box .empty obstacle = .empty := by
  have hapart : obstacle.overlaps .empty ≠ true := by
    rw [Ne, Rect.overlaps_exact, Rect.overlapArea_comm, Rect.overlapArea_empty]
    exact lt_irrefl 0
  rw [cutFree, if_neg hapart]

/-- A rectangle cut by one obstacle after the other is empty, or it lies in what it was before and
shares nothing with any of them. -/
lemma foldl_cutFree_spec (box : Rect ℚ) (obstacles : List (Rect ℚ)) (free : Rect ℚ) :
    obstacles.foldl (cutFree box) free = .empty ∨
      free.contains (obstacles.foldl (cutFree box) free) = true ∧
        ∀ o ∈ obstacles, (obstacles.foldl (cutFree box) free).overlapArea o = 0 := by
  induction obstacles generalizing free with
  | nil => exact Or.inr ⟨Rect.contains_self free, by simp⟩
  | cons o os ih =>
    rw [List.foldl_cons]
    rcases cutFree_spec box free o with hempty | ⟨hin, hapart⟩
    · left
      rw [hempty]
      exact List.foldlRecOn os (cutFree box) (motive := (· = Rect.empty)) rfl
        fun _ hfree o _ => hfree ▸ cutFree_empty box o
    · rcases ih (cutFree box free o) with hempty | ⟨hin', hapart'⟩
      · exact Or.inl hempty
      · refine Or.inr ⟨Rect.contains_trans hin hin', ?_⟩
        rintro p hp
        rcases List.mem_cons.mp hp with rfl | hp
        · exact Rect.overlapArea_eq_zero_of_contains hin' hapart
        · exact hapart' p hp

/-- An ordered box does not fit loosely in the empty rectangle. -/
lemma not_fitsLoosely_empty {box : Rect ℚ} (hbox : box.Ordered) :
    fitsLoosely .empty box = false := by
  have hwidth : (Rect.empty : Rect ℚ).width - box.width ≤ 0 := by
    have hx := hbox.x
    simp only [Rect.width, Rect.empty]
    linarith
  simp [fitsLoosely, hwidth]

/-- A box with room in a rectangle is in it wherever the center has been pulled to within the region
for centers. -/
lemma contains_translate_nearestPoint {free box : Rect ℚ} (hwidth : box.width ≤ free.width)
    (hheight : box.height ≤ free.height) (p : Point ℚ) :
    free.contains (box.translate
      (((centerRegion free box.size).nearestPoint p).value - box.center)) = true := by
  simp only [Rect.width, Rect.height] at hwidth hheight
  have hminX : free.minX + box.size.width / 2 ≤ free.maxX - box.size.width / 2 := by
    simp only [Rect.size, Rect.width]
    linarith
  have hminY : free.minY + box.size.height / 2 ≤ free.maxY - box.size.height / 2 := by
    simp only [Rect.size, Rect.height]
    linarith
  have hregion : centerRegion free box.size =
      ⟨free.minX + box.size.width / 2, free.minY + box.size.height / 2,
        free.maxX - box.size.width / 2, free.maxY - box.size.height / 2⟩ := by
    simp [centerRegion, Rect.spanning, hminX, hminY]
  have hordered : (centerRegion free box.size).Ordered := by
    rw [hregion]
    exact ⟨hminX, hminY⟩
  have hreached := hordered.containsPoint_nearestPoint p
  generalize ((centerRegion free box.size).nearestPoint p).value = reached at hreached ⊢
  rw [hregion, Rect.containsPoint_iff] at hreached
  obtain ⟨hleft, hright, htop, hbottom⟩ := hreached
  simp only [Rect.size, Rect.width, Rect.height] at hleft hright htop hbottom
  rw [Rect.contains_iff]
  simp only [Rect.translate, Rect.center, Point.sub_x, Point.sub_y, Scalar.num_exact]
  refine ⟨?_, ?_, ?_, ?_⟩ <;> push_cast <;> linarith

/-- There always is an offset towards the middle of a rectangle. -/
lemma defined_offsetTowards (free box : Rect ℚ) : (offsetTowards free box).defined = true := by
  simp [offsetTowards, Rect.defined_nearestPoint]

/-- A box that fits loosely in a rectangle is in it after it has gone towards the middle. -/
lemma contains_offsetTowards {free box : Rect ℚ} (h : fitsLoosely free box = true) :
    free.contains (box.translate (offsetTowards free box).value) = true := by
  have hroom : ¬ (free.width - box.width ≤ 0 ∨ free.height - box.height ≤ 0) := by
    simpa [fitsLoosely] using h
  rw [not_or, not_le, not_le, sub_pos, sub_pos] at hroom
  exact contains_translate_nearestPoint hroom.1.le hroom.2.le _

/-! ## The union of a group -/

/-- A rectangle joined with others contains itself and each of them. -/
lemma contains_foldl_join (rs : List (Rect ℚ)) (r : Rect ℚ) :
    (rs.foldl Rect.join r).contains r = true ∧
      ∀ s ∈ rs, (rs.foldl Rect.join r).contains s = true := by
  induction rs generalizing r with
  | nil => exact ⟨Rect.contains_self r, by simp⟩
  | cons s ss ih =>
    obtain ⟨hjoined, hrest⟩ := ih (r.join s)
    refine ⟨Rect.contains_trans hjoined (Rect.contains_join_left r s), ?_⟩
    intro t ht
    rcases List.mem_cons.mp ht with rfl | ht
    · exact Rect.contains_trans hjoined (Rect.contains_join_right r t)
    · exact hrest t ht

/-- The union of a list contains every rectangle of it. -/
lemma contains_of_joinAll {rs : List (Rect ℚ)} {union : Rect ℚ} (h : joinAll rs = some union)
    {r : Rect ℚ} (hr : r ∈ rs) : union.contains r = true := by
  cases rs with
  | nil => cases hr
  | cons s ss =>
    obtain rfl : ss.foldl Rect.join s = union := Option.some.inj h
    obtain ⟨hhead, htail⟩ := contains_foldl_join ss s
    rcases List.mem_cons.mp hr with rfl | hmem
    · exact hhead
    · exact htail r hmem

/-- The union of ordered rectangles is ordered. -/
lemma ordered_of_joinAll {rs : List (Rect ℚ)} {union : Rect ℚ} (h : joinAll rs = some union)
    (hrs : ∀ r ∈ rs, r.Ordered) : union.Ordered := by
  cases rs with
  | nil => cases h
  | cons s ss =>
    obtain rfl : ss.foldl Rect.join s = union := Option.some.inj h
    exact List.foldlRecOn ss Rect.join (motive := Rect.Ordered) (hrs s List.mem_cons_self)
      fun _ hunion r _ => hunion.join r

namespace Drawing

/-! ## Strangers -/

/-- The strangers of a classifier have their envelopes among those of its strangers. -/
lemma mem_strangers {d : Drawing ℚ} {i x : ℕ} (hx : x < d.classifiers.length)
    (hstranger : d.nesting.related i x = false) :
    (d.boxes x).envelope ∈ strangers d.nesting i d.envelopes := by
  have henvelope : d.envelopes[x]? = some (d.boxes x).envelope := by
    rw [envelopes, List.getElem?_map, List.getElem?_eq_getElem hx, boxes,
      List.getElem?_eq_getElem hx]
    rfl
  refine List.mem_map.mpr ⟨((d.boxes x).envelope, x), List.mem_filter.mpr ⟨?_, ?_⟩, rfl⟩
  · exact List.mem_zipIdx_iff_getElem?.mpr henvelope
  · simp [hstranger]

/-- A rectangle in which a box fits loosely lies in the draw area, apart from all strangers. -/
lemma freeFor_spec {d : Drawing ℚ} {i : ℕ} {box : Rect ℚ} (hbox : box.Ordered)
    (hloose : fitsLoosely (d.freeFor i box) box = true) :
    d.sheet.drawArea.contains (d.freeFor i box) = true ∧
      ∀ x < d.classifiers.length, d.nesting.related i x = false →
        (d.freeFor i box).overlapArea (d.boxes x).envelope = 0 := by
  unfold freeFor at hloose ⊢
  rcases foldl_cutFree_spec box (strangers d.nesting i d.envelopes) d.sheet.drawArea with
    hempty | ⟨hin, hapart⟩
  · rw [hempty, not_fitsLoosely_empty hbox] at hloose
    cases hloose
  · exact ⟨hin, fun x hx hstranger => hapart _ (mem_strangers hx hstranger)⟩

/-! ## One group -/

/-- A container that does not enclose itself gets other boxes, what it encloses moves by the offset
and all else stays. -/
lemma boxes_moveGroup {d : Drawing ℚ} {i : ℕ} (hi : i < d.classifiers.length)
    (hself : ¬ d.nesting.encloses i i) (b : ClassifierBoxes ℚ) (v : Point ℚ) (j : ℕ) :
    ((d.nesting.descendants i).foldl (fun d other => d.translateClassifier other v)
        (d.setBoxes i b)).boxes j =
      if j = i then b
      else if d.nesting.encloses i j ∧ j < d.classifiers.length then (d.boxes j).translate v
      else d.boxes j := by
  have hnodup : (d.nesting.descendants i).Nodup := List.nodup_range.filter _
  have hlength := (reboxes_setBoxes d i b).length_classifiers
  rw [boxes_foldl_translateClassifier hnodup, hlength, boxes_setBoxes]
  simp only [Nesting.mem_descendants]
  rcases eq_or_ne j i with rfl | hj
  · simp [hself, hi]
  · simp [hj, Ne.symm hj]

/-- A group has been gathered: its container has been fitted around all that it encloses and has
gone by an offset, and they have gone with it. -/
structure Gathered (config : Config ℚ) (d : Drawing ℚ) (index : ℕ) (fitted : ClassifierBoxes ℚ)
    (offset : Point ℚ) (d' : Drawing ℚ) : Prop where
  /-- The container is a classifier of the drawing. -/
  exists_container : index < d.classifiers.length
  /-- It is on no cycle. -/
  acyclic : ∀ other, d.nesting.encloses index other → ¬ d.nesting.encloses other index
  /-- The fitted boxes are sound. -/
  sound : fitted.Sound config.border
  /-- The fitted space holds all that the container encloses, with the distance around. -/
  holds : ∀ other, d.nesting.encloses index other →
    fitted.space.contains ((d.boxes other).envelope.pad (.uniform config.distance)) = true
  /-- The group has moved and nothing else has. -/
  boxes : ∀ j, d'.boxes j =
    if j = index then fitted.translate offset
    else if d.nesting.encloses index j ∧ j < d.classifiers.length then
      (d.boxes j).translate offset
    else d.boxes j
  /-- The container is in the draw area. -/
  inside : d.sheet.drawArea.contains (fitted.translate offset).envelope = true
  /-- The container is apart from its strangers. -/
  apart : ∀ x < d.classifiers.length, d.nesting.related index x = false →
    (fitted.translate offset).envelope.overlapArea (d.boxes x).envelope = 0

/-! ## Acceptance -/

/-- The boxes of a container that is accepted in its turn: they are fitted around all that it
encloses. A container on a cycle is refused, one that encloses nothing, and one whose fitted boxes
have no room to spare in what its strangers leave. -/
def acceptedBoxes? (m : Composer ℚ) (config : Config ℚ) (d : Drawing ℚ) (index : ℕ) :
    Option (ClassifierBoxes ℚ) :=
  let descendants := d.nesting.descendants index
  if descendants.any fun other => d.nesting.encloses other index then none
  else
    let envelopes := descendants.map fun other => (d.boxes other).envelope
    match d.classifiers[index]?, joinAll envelopes with
    | some container, some union =>
      let fitted := fittedBoxes m config container.element union
      if fitsLoosely (d.freeFor index fitted.envelope) fitted.envelope then some fitted else none
    | _, _ => none

/-- True if a container is accepted in its turn. -/
def accepts (m : Composer ℚ) (config : Config ℚ) (d : Drawing ℚ) (index : ℕ) : Bool :=
  (d.acceptedBoxes? m config index).isSome

variable {config : Config ℚ}

/-- What is known of a container that is accepted. -/
lemma of_acceptedBoxes? {m : Composer ℚ} {d : Drawing ℚ} {index : ℕ} {fitted : ClassifierBoxes ℚ}
    (h : d.acceptedBoxes? m config index = some fitted) :
    (∀ other, d.nesting.encloses index other → ¬ d.nesting.encloses other index) ∧
      fitsLoosely (d.freeFor index fitted.envelope) fitted.envelope = true ∧
      ∃ container union, d.classifiers[index]? = some container ∧
        joinAll ((d.nesting.descendants index).map fun other => (d.boxes other).envelope) =
          some union ∧
        fittedBoxes m config container.element union = fitted := by
  unfold acceptedBoxes? at h
  dsimp only at h
  split_ifs at h with hcycle
  split at h
  · rename_i container union hcontainer hunion
    split_ifs at h with hloose
    obtain rfl := Option.some.inj h
    refine ⟨fun other hother hback => hcycle ?_, hloose, container, union, hcontainer, hunion, rfl⟩
    exact List.any_eq_true.mpr ⟨other, Nesting.mem_descendants.mpr hother, hback⟩
  · cases h

/-- In its turn a container that is refused changes nothing, and one that is accepted gets its
fitted boxes and goes with its group. -/
theorem gatherStep_eq (m : Composer ℚ) (config : Config ℚ) (d : Drawing ℚ) (index : ℕ) :
    d.gatherStep m config index =
      match d.acceptedBoxes? m config index with
      | none => pure d
      | some fitted => do
        let offset ← offsetTowards (d.freeFor index fitted.envelope) fitted.envelope
        return (d.nesting.descendants index).foldl
          (fun d other => d.translateClassifier other offset)
          (d.setBoxes index (fitted.translate offset)) := by
  unfold gatherStep acceptedBoxes?
  dsimp only
  split_ifs
  · rfl
  · cases d.classifiers[index]? with
    | none => rfl
    | some container =>
      cases joinAll ((d.nesting.descendants index).map fun other => (d.boxes other).envelope) with
      | none => rfl
      | some union =>
        dsimp only
        cases hloose : fitsLoosely (d.freeFor index
          (fittedBoxes m config container.element union).envelope)
          (fittedBoxes m config container.element union).envelope <;> rfl

/-- A container is gathered without a guard. -/
lemma defined_gatherStep (m : Composer ℚ) (d : Drawing ℚ) (index : ℕ) :
    (d.gatherStep m config index).defined = true := by
  rw [gatherStep_eq]
  split
  · rfl
  · simp [defined_offsetTowards]

/-- The group of a container that is accepted is gathered. -/
theorem gathered_of_acceptedBoxes? (hconfig : config.Usable) {d : Drawing ℚ} (hupright : d.Upright)
    {index : ℕ} {fitted : ClassifierBoxes ℚ}
    (h : d.acceptedBoxes? (.ofConfig config) config index = some fitted) :
    ∃ offset, d.Gathered config index fitted offset
      (d.gatherStep (.ofConfig config) config index).value := by
  obtain ⟨hacyclic, hloose, container, union, hcontainer, hunion, rfl⟩ := of_acceptedBoxes? h
  have hindex : index < d.classifiers.length := (List.getElem?_eq_some_iff.mp hcontainer).1
  have hself : ¬ d.nesting.encloses index index := fun h => hacyclic index h h
  -- the space of the fitted boxes is the padded union of what is enclosed
  have hpadded : (union.pad (.uniform config.distance)).Ordered := by
    refine Rect.Ordered.pad (ordered_of_joinAll hunion fun r hr => ?_) hconfig.distance.le
    obtain ⟨other, -, rfl⟩ := List.mem_map.mp hr
    exact (hupright other).envelopeOf _
  have hspace := Composer.space_aroundSpace hconfig.composer container.element hpadded true
  have hfitted := Composer.sound_aroundSpace hconfig.composer container.element hpadded true
  rw [← fittedBoxes] at hspace hfitted
  rw [gatherStep_eq, h]
  generalize fittedBoxes (.ofConfig config) config container.element union = fitted
    at hloose hspace hfitted
  -- the envelope ends within the free rectangle
  obtain ⟨harea, hapart⟩ := freeFor_spec hfitted.envelope hloose
  have hwithin := contains_offsetTowards hloose
  rw [← ClassifierBoxes.envelope_translate] at hwithin
  refine ⟨(offsetTowards (d.freeFor index fitted.envelope) fitted.envelope).value, hindex, hacyclic,
    hfitted, ?_, ?_, ?_, ?_⟩
  · intro other hother
    rw [hspace]
    refine Rect.contains_pad_pad (contains_of_joinAll hunion ?_) _
    exact List.mem_map.mpr ⟨other, Nesting.mem_descendants.mpr hother, rfl⟩
  · exact boxes_moveGroup hindex hself _ _
  · exact Rect.contains_trans harea hwithin
  · intro x hx hstranger
    exact Rect.overlapArea_eq_zero_of_contains hwithin (hapart x hx hstranger)

/-- In its turn a container that is refused changes nothing, and the group of one that is accepted
is gathered. -/
theorem gatherStep_spec (hconfig : config.Usable) {d : Drawing ℚ} (hupright : d.Upright)
    (index : ℕ) :
    if d.accepts (.ofConfig config) config index then
      ∃ fitted offset, d.Gathered config index fitted offset
        (d.gatherStep (.ofConfig config) config index).value
    else (d.gatherStep (.ofConfig config) config index).value = d := by
  rw [accepts]
  cases haccepted : d.acceptedBoxes? (.ofConfig config) config index with
  | none =>
    rw [gatherStep_eq, haccepted]
    rfl
  | some fitted => exact ⟨fitted, gathered_of_acceptedBoxes? hconfig hupright haccepted⟩

/-- A container whose turn it is stays as it is, or its group is gathered. -/
theorem gatherStep_cases (hconfig : config.Usable) {d : Drawing ℚ}
    (hsound : d.Sound config.border) (index : ℕ) :
    (d.gatherStep (.ofConfig config) config index).value = d ∨
      ∃ fitted offset, d.Gathered config index fitted offset
        (d.gatherStep (.ofConfig config) config index).value := by
  have hspec := gatherStep_spec hconfig hsound.upright index
  split_ifs at hspec
  · exact Or.inr hspec
  · exact Or.inl hspec

/-- Gathering a group keeps all boxes sound. -/
lemma Gathered.keeps_sound {d d' : Drawing ℚ} {index : ℕ} {fitted : ClassifierBoxes ℚ}
    {offset : Point ℚ} (h : d.Gathered config index fitted offset d')
    (hsound : d.Sound config.border) : d'.Sound config.border := by
  intro j
  rw [h.boxes j]
  split_ifs
  · exact h.sound.translate offset
  · exact (hsound j).translate offset
  · exact hsound j

/-- A container whose turn it is leaves all boxes sound. -/
lemma Sound.gatherStep (hconfig : config.Usable) {d : Drawing ℚ} (hsound : d.Sound config.border)
    (index : ℕ) : (d.gatherStep (.ofConfig config) config index).value.Sound config.border := by
  rcases gatherStep_cases hconfig hsound index with hstays | ⟨fitted, offset, hgathered⟩
  · rwa [hstays]
  · exact hgathered.keeps_sound hsound

/-- A container whose turn it is reverses no symbol. -/
lemma Upright.gatherStep (hconfig : config.Usable) {d : Drawing ℚ} (hupright : d.Upright)
    (index : ℕ) : (d.gatherStep (.ofConfig config) config index).value.Upright := by
  have hspec := gatherStep_spec hconfig hupright index
  split_ifs at hspec
  · obtain ⟨fitted, offset, hgathered⟩ := hspec
    intro j
    rw [hgathered.boxes j]
    split_ifs
    · exact hgathered.sound.symbol.translate offset
    · exact (hupright j).translate offset
    · exact hupright j
  · rwa [hspec]

/-- Gathering all groups needs no guard. -/
lemma defined_gatherGroups (m : Composer ℚ) (d : Drawing ℚ) :
    (d.gatherGroups m config).defined = true :=
  Guarded.defined_foldlM (defined_gatherStep m) d _

/-- What gathering one group preserves is preserved by gathering all of them. -/
theorem gatherGroups_induction (hconfig : config.Usable) {motive : Drawing ℚ → Prop}
    (hstep : ∀ d d' index fitted offset, d.Sound config.border → motive d →
      d.Reboxes d' → d.Gathered config index fitted offset d' → motive d')
    {d : Drawing ℚ} (hsound : d.Sound config.border) (hstart : motive d) :
    motive (d.gatherGroups (.ofConfig config) config).value := by
  rw [value_gatherGroups]
  refine (List.foldlRecOn _ _ (motive := fun d : Drawing ℚ => d.Sound config.border ∧ motive d)
    ⟨hsound, hstart⟩ ?_).2
  rintro d ⟨hsound, hd⟩ index -
  refine ⟨hsound.gatherStep hconfig index, ?_⟩
  rcases gatherStep_cases hconfig hsound index with hstays | ⟨fitted, offset, hgathered⟩
  · rwa [hstays]
  · exact hstep _ _ _ _ _ hsound hd (reboxes_gatherStep _ _ _ _) hgathered

/-- Gathering groups keeps all boxes sound. -/
theorem Sound.gatherGroups (hconfig : config.Usable) {d : Drawing ℚ}
    (h : d.Sound config.border) :
    (d.gatherGroups (.ofConfig config) config).value.Sound config.border :=
  gatherGroups_induction hconfig (motive := Drawing.Sound config.border)
    (fun _ _ _ _ _ hsound _ _ hgathered => hgathered.keeps_sound hsound) h h

end Drawing

end DiagramLayout
