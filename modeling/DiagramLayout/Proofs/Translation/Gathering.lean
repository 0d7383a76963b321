import DiagramLayout.Proofs.Translation.Spreading

/-!
# Embracing and gathering on a translated sheet

Containers are composed around envelopes that are moved with the sheet, so they are moved
themselves, and whether a growth is admitted is decided by containment and by areas. What the
strangers leave free for a group moves with them unless it is empty, and then no group fits in
there. So the steps after the second one take the same decisions on a translated sheet, and the same
lines are left out.
-/

namespace DiagramLayout

/-! ## Free room -/

section Room

variable (v : Point ℚ)

/-- The union of moved rectangles is the moved union. -/
lemma joinAll_translate (rs : List (Rect ℚ)) :
    joinAll (rs.map (·.translate v)) = (joinAll rs).map (·.translate v) := by
  cases rs with
  | nil => rfl
  | cons r rs =>
    simp only [List.map_cons, joinAll, List.foldl_map, Option.map_some]
    exact congrArg some (List.foldl_hom (Rect.translate · v) fun a b => Rect.join_translate v b)

/-- The strip that is covered most moves with the box and the strips. -/
lemma mostCoveredStrip_translate (box free obstacle : Rect ℚ) :
    mostCoveredStrip (box.translate v) (free.translate v) (obstacle.translate v) =
      (mostCoveredStrip box free obstacle).translateArea v := by
  unfold mostCoveredStrip
  rw [Rect.stripsOutside_translate, List.foldl_map]
  refine List.foldl_rel (r := fun best best' : Rect ℚ => best' = best.translateArea v) ?_ ?_
  · exact (Rect.translateArea_empty v).symm
  · rintro strip - best best' rfl
    rw [Rect.overlapArea_translateArea_left, Rect.overlapArea_translateArea_left,
      Rect.isEmpty_translateArea, apply_ite (Rect.translateArea · v)]

/-- What is left of a moved rectangle is moved, or else it is empty and stays. -/
def LeftAlike (free free' : Rect ℚ) : Prop :=
  free' = free.translate v ∨ free.isEmpty = true ∧ free' = free

variable {v}

/-- A moved obstacle cuts as much off. -/
lemma LeftAlike.cutFree {free free' : Rect ℚ} (h : LeftAlike v free free') (box obstacle : Rect ℚ) :
    LeftAlike v (cutFree box free obstacle)
      (DiagramLayout.cutFree (box.translate v) free' (obstacle.translate v)) := by
  rcases h with rfl | ⟨hempty, rfl⟩
  · unfold DiagramLayout.cutFree
    rw [Rect.overlaps_translate, mostCoveredStrip_translate]
    split_ifs
    · unfold Rect.translateArea
      split_ifs with hstrip
      · exact Or.inr ⟨hstrip, rfl⟩
      · exact Or.inl rfl
    · exact Or.inl rfl
  · -- an empty rectangle overlaps no obstacle
    have hapart (o : Rect ℚ) : o.overlaps free' ≠ true := by
      rw [Ne, Rect.overlaps_exact, Rect.overlapArea_comm, Rect.overlapArea_of_isEmpty hempty]
      exact lt_irrefl 0
    rw [DiagramLayout.cutFree, DiagramLayout.cutFree, if_neg (hapart _), if_neg (hapart _)]
    exact Or.inr ⟨hempty, rfl⟩

/-- A box has as much room in what is left. -/
lemma LeftAlike.fitsLoosely {free free' : Rect ℚ} (h : LeftAlike v free free') (box : Rect ℚ) :
    DiagramLayout.fitsLoosely free' (box.translate v) = DiagramLayout.fitsLoosely free box := by
  rcases h with rfl | ⟨-, rfl⟩ <;> simp only [DiagramLayout.fitsLoosely, Rect.width_translate,
    Rect.height_translate]

/-- What an ordered box fits in loosely is moved. -/
lemma LeftAlike.eq_translate {free free' : Rect ℚ} (h : LeftAlike v free free') {box : Rect ℚ}
    (hbox : box.Ordered) (hroom : DiagramLayout.fitsLoosely free box = true) :
    free' = free.translate v := by
  rcases h with hmoved | ⟨hempty, -⟩
  · exact hmoved
  · have hwidth : 0 ≤ box.width := sub_nonneg.mpr hbox.x
    have hheight : 0 ≤ box.height := sub_nonneg.mpr hbox.y
    have hfree : 0 < free.width - box.width ∧ 0 < free.height - box.height := by
      simpa [DiagramLayout.fitsLoosely] using hroom
    have hsolid : free.isEmpty = false := Rect.isEmpty_eq_false_iff.mpr
      ⟨by linarith [hfree.1], by linarith [hfree.2]⟩
    rw [hsolid] at hempty
    cases hempty

variable (v)

/-- A box goes the same way towards the middle of a rectangle that moves with it. -/
lemma offsetTowards_translate (free box : Rect ℚ) :
    offsetTowards (free.translate v) (box.translate v) = offsetTowards free box := by
  have hgoal (p q : Point ℚ) :
      (p + v).scale (Scalar.num 1 / Scalar.num 3) + (q + v).scale (Scalar.num 2 / Scalar.num 3) =
        p.scale (Scalar.num 1 / Scalar.num 3) + q.scale (Scalar.num 2 / Scalar.num 3) + v := by
    have haxis (a b d : ℚ) : (a + d) * ((1 : ℕ) / (3 : ℕ)) + (b + d) * ((2 : ℕ) / (3 : ℕ)) =
        a * ((1 : ℕ) / (3 : ℕ)) + b * ((2 : ℕ) / (3 : ℕ)) + d := by
      push_cast
      ring
    exact congrArg₂ Point.mk (haxis p.x q.x v.x) (haxis p.y q.y v.y)
  unfold offsetTowards
  simp only [Rect.center_translate, Rect.size_translate, centerRegion_translate, hgoal,
    Rect.nearestPoint_translate, bind_map_left, Point.add_sub_add]

end Room

namespace Drawing

/-! ## Positions -/

/-- Positions stay in range as long as the records are kept. -/
lemma InRange.of_keepsRecords {d d' : Drawing ℚ} (h : d.InRange) (hkeeps : d.KeepsRecords d') :
    d'.InRange := by
  have hlength := hkeeps.length_classifiers
  have hfeatures := hkeeps.length_features
  have hrelationship {r : RoutedRelationship ℚ} (hr : r ∈ d'.relationships) :
      ∃ r₀ ∈ d.relationships, r₀.references = r.references := by
    rw [← List.mem_map, ← hkeeps.relationships]
    exact List.mem_map_of_mem hr
  constructor
  · rw [hkeeps.nesting, hlength]
    exact h.nesting
  · intro f hf
    have hmem : f.origin ∈ d.features.map PlacedFeature.origin :=
      hkeeps.features ▸ List.mem_map_of_mem hf
    obtain ⟨f₀, hf₀, horigin⟩ := List.mem_map.mp hmem
    rw [hlength, ← (Prod.mk.inj horigin).2]
    exact h.owners f₀ hf₀
  all_goals
    intro r hr
    obtain ⟨r₀, hr₀, hreferences⟩ := hrelationship hr
    simp only [RoutedRelationship.references, Prod.mk.injEq] at hreferences
    obtain ⟨-, ⟨hsource, htarget⟩, hstart, hend⟩ := hreferences
  · rw [hlength, ← hsource]
    exact h.sources r₀ hr₀
  · rw [hlength, ← htarget]
    exact h.targets r₀ hr₀
  · rw [hfeatures, ← hstart]
    exact h.sourceFeatures r₀ hr₀
  · rw [hfeatures, ← hend]
    exact h.targetFeatures r₀ hr₀

/-- The ends of a containment are positions of classifiers. -/
lemma InRange.containment {d : Drawing ℚ} (h : d.InRange) {c : Containment}
    (hc : c ∈ d.usableContainments) :
    c.parent < d.classifiers.length ∧ c.child < d.classifiers.length := by
  have hmem : c ∈ d.containments := (List.mem_filter.mp hc).1
  obtain ⟨⟨r, i⟩, hr, hcontainment⟩ := List.mem_filterMap.mp hmem
  have hr' : r ∈ d.relationships := List.fst_mem_of_mem_zipIdx hr
  simp only [Option.ite_none_right_eq_some, Option.some.injEq] at hcontainment
  obtain ⟨-, rfl⟩ := hcontainment
  exact ⟨h.sources r hr', h.targets r hr'⟩

namespace MovedBy

variable {v : Point ℚ} {d d' : Drawing ℚ} (m : Composer ℚ) (config : Config ℚ)

/-! ## Embracing -/

/-- The same containments take part. -/
lemma usableContainments (h : d.MovedBy v d')
    (hrelationships : d'.relationships = d.relationships) :
    d'.usableContainments = d.usableContainments := by
  unfold Drawing.usableContainments Drawing.containments
  rw [hrelationships, h.nesting]

/-- A parent grows around a child on the moved sheet as on the sheet. -/
lemma grownBoxes (h : d.MovedBy v d') {parent parent' : PlacedClassifier ℚ}
    (helement : parent'.element = parent.element) (hparent : parent.boxes.MovedBy v parent'.boxes)
    (isFurther : Bool) {child : ℕ} (hchild : child < d.classifiers.length) :
    (d.grownBoxes m config parent isFurther child).MovedBy v
      (d'.grownBoxes m config parent' isFurther child) := by
  have hbase : (if isFurther then parent'.boxes.space else parent'.boxes.envelope) =
      (if isFurther then parent.boxes.space else parent.boxes.envelope).translate v := by
    rw [hparent.space, hparent.envelope, apply_ite (Rect.translate · v)]
  unfold Drawing.grownBoxes
  rw [helement, (h.boxes hchild).envelope]
  dsimp only
  rw [hbase, Rect.pad_translate, Rect.join_translate]
  exact Composer.aroundSpace_translate m parent.element v _ true

/-- The same growth is admitted. -/
lemma admitsGrowth (h : d.MovedBy v d') (i : ℕ) {before before' after after' : ClassifierBoxes ℚ}
    (hbefore : before.MovedBy v before') (hafter : after.MovedBy v after') :
    d'.admitsGrowth i before' after' = d.admitsGrowth i before after := by
  unfold Drawing.admitsGrowth addsOverlap
  rw [h.drawArea, hbefore.envelope, hafter.envelope, h.nesting, h.envelopes, strangers_translate,
    List.any_map]
  simp only [Rect.contains_translate, Function.comp_def, Rect.overlapArea_translate]

/-- A containment is handled on the moved sheet as on the sheet. -/
lemma embracing_step {s s' : Embracing ℚ} (h : s.drawing.MovedBy v s'.drawing)
    (hparents : s'.parents = s.parents) {c : Containment}
    (hchild : c.child < s.drawing.classifiers.length) :
    (s.step m config c).drawing.MovedBy v (s'.step m config c).drawing ∧
      (s'.step m config c).parents = (s.step m config c).parents := by
  unfold Embracing.step
  rcases h.getElem?_classifiers c.parent with ⟨p, p', hp, hp', helement, hboxes⟩ | ⟨hnone, hnone'⟩
  · have hgrown := h.grownBoxes m config helement hboxes
      (s.parents.contains c.parent) hchild
    rw [hp, hp', hparents]
    dsimp only
    rw [h.admitsGrowth c.parent hboxes hgrown]
    split_ifs
    · exact ⟨h.setBoxes c.parent hgrown, rfl⟩
    · exact ⟨h, hparents⟩
  · rw [hnone, hnone']
    exact ⟨h, hparents⟩

/-- Containers grow on the moved sheet as on the sheet. -/
theorem embraceChildren (h : d.MovedBy v d') (hrelationships : d'.relationships = d.relationships)
    (hin : d.InRange) :
    (d.embraceChildren m config).MovedBy v (d'.embraceChildren m config) := by
  unfold Drawing.embraceChildren containmentRanking
  rw [h.usableContainments hrelationships, h.nesting]
  refine (List.foldl_rel (r := fun s s' : Embracing ℚ => s.drawing.MovedBy v s'.drawing ∧
    s'.parents = s.parents ∧ s.drawing.classifiers.length = d.classifiers.length) ?_ ?_).1
  · exact ⟨h, rfl, rfl⟩
  rintro c hc s s' ⟨hmoved, hparents, hlength⟩
  obtain ⟨i, -, hi⟩ := List.mem_filterMap.mp hc
  have hchild : c.child < s.drawing.classifiers.length := by
    rw [hlength]
    exact (hin.containment (List.mem_of_getElem? hi)).2
  obtain ⟨hmoved', hparents'⟩ := hmoved.embracing_step m config hparents hchild
  exact ⟨hmoved', hparents',
    (reboxes_embracing_step m config s c).length_classifiers.trans hlength⟩

/-! ## Leaving out lines -/

/-- The same lines are left out. -/
theorem hideNested (h : d.MovedBy v d') (hrelationships : d'.relationships = d.relationships)
    (hin : d.InRange) :
    d.hideNested.MovedBy v d'.hideNested ∧
      d'.hideNested.relationships = d.hideNested.relationships := by
  have hshown : d'.usableContainments.filter d'.showsNesting =
      d.usableContainments.filter d.showsNesting := by
    rw [h.usableContainments hrelationships]
    refine List.filter_congr fun c hc => ?_
    obtain ⟨hparent, hchild⟩ := hin.containment hc
    rw [Drawing.showsNesting, (h.boxes hparent).space, (h.boxes hchild).symbol,
      Rect.contains_translate, Drawing.showsNesting]
  unfold Drawing.hideNested
  rw [hshown]
  refine List.foldl_rel (r := fun e e' : Drawing ℚ => e.MovedBy v e' ∧
    e'.relationships = e.relationships) ?_ ?_
  · exact ⟨h, hrelationships⟩
  · rintro c - e e' ⟨hmoved, hsame⟩
    refine ⟨⟨hmoved.diagram, hmoved.sheet, hmoved.nesting, hmoved.classifiers⟩, ?_⟩
    unfold modifyRelationship
    dsimp only
    rw [hsame]

/-! ## Gathering -/

variable {config}

/-- The envelopes of what a container encloses are moved. -/
lemma descendantEnvelopes (h : d.MovedBy v d') (hin : d.InRange) (i : ℕ) :
    ((d'.nesting.descendants i).map fun other => (d'.boxes other).envelope) =
      ((d.nesting.descendants i).map fun other => (d.boxes other).envelope).map
        (·.translate v) := by
  rw [h.nesting, List.map_map]
  refine List.map_congr_left fun other hother => ?_
  have hlt : other < d.classifiers.length := by
    rw [← hin.nesting]
    exact List.mem_range.mp (List.mem_filter.mp hother).1
  exact (h.boxes hlt).envelope

/-- The strangers of a container leave as much free. -/
lemma freeFor (h : d.MovedBy v d') (i : ℕ) (box : Rect ℚ) :
    LeftAlike v (d.freeFor i box) (d'.freeFor i (box.translate v)) := by
  unfold Drawing.freeFor
  rw [h.nesting, h.envelopes, strangers_translate, List.foldl_map, h.drawArea]
  refine List.foldl_rel (r := LeftAlike v) ?_ ?_
  · exact Or.inl rfl
  · intro obstacle _ free free' hleft
    exact hleft.cutFree box obstacle

/-- A group is gathered on the moved sheet as on the sheet. -/
lemma gatherStep (hconfig : config.Usable) (h : d.MovedBy v d') (hin : d.InRange)
    (hsound : d.Sound config.border) (i : ℕ) :
    (d.gatherStep (.ofConfig config) config i).value.MovedBy v
      (d'.gatherStep (.ofConfig config) config i).value := by
  have hunion := congrArg joinAll (h.descendantEnvelopes hin i)
  rw [joinAll_translate] at hunion
  unfold Drawing.gatherStep
  dsimp only
  rw [hunion, h.nesting]
  split_ifs
  · exact h
  rcases h.getElem?_classifiers i with ⟨c, c', hc, hc', helement, -⟩ | ⟨hnone, hnone'⟩
  · rw [hc, hc']
    cases hall : joinAll ((d.nesting.descendants i).map fun other => (d.boxes other).envelope) with
    | none => exact h
    | some union =>
      have hpadded : (union.pad (.uniform config.distance)).Ordered := by
        refine Rect.Ordered.pad (ordered_of_joinAll hall fun r hr => ?_) hconfig.distance.le
        obtain ⟨other, -, rfl⟩ := List.mem_map.mp hr
        exact (hsound other).envelope
      have hfitted : (fittedBoxes (.ofConfig config) config c.element union).MovedBy v
          (fittedBoxes (.ofConfig config) config c.element (union.translate v)) := by
        rw [fittedBoxes, fittedBoxes, Rect.pad_translate]
        exact Composer.aroundSpace_translate _ c.element v _ true
      have hordered : (fittedBoxes (.ofConfig config) config c.element union).envelope.Ordered :=
        (Composer.sound_aroundSpace hconfig.composer c.element hpadded true).envelope
      have hleft := h.freeFor i (fittedBoxes (.ofConfig config) config c.element union).envelope
      simp only [Option.map_some, helement, hfitted.envelope, hleft.fitsLoosely]
      split_ifs with htight
      · exact h
      · have hroom : fitsLoosely
            (d.freeFor i (fittedBoxes (.ofConfig config) config c.element union).envelope)
            (fittedBoxes (.ofConfig config) config c.element union).envelope = true := by
          simpa using htight
        rw [hleft.eq_translate hordered hroom, offsetTowards_translate]
        simp only [Guarded.value_bind, Guarded.value_pure]
        refine List.foldl_rel (r := fun e e' : Drawing ℚ => e.MovedBy v e') ?_ ?_
        · exact h.setBoxes i (hfitted.translate _)
        · intro other _ e e' hmoved
          exact hmoved.translateClassifier other _
  · rw [hnone, hnone']
    exact h

/-- Groups are gathered on the moved sheet as on the sheet. -/
theorem gatherGroups (hconfig : config.Usable) (h : d.MovedBy v d') (hin : d.InRange)
    (hsound : d.Sound config.border) :
    (d.gatherGroups (.ofConfig config) config).value.MovedBy v
      (d'.gatherGroups (.ofConfig config) config).value := by
  unfold Drawing.gatherGroups containerRanking
  rw [h.nesting, h.length_classifiers, Guarded.value_foldlM, Guarded.value_foldlM]
  refine (List.foldl_rel (r := fun e e' : Drawing ℚ => e.MovedBy v e' ∧ e.InRange ∧
    e.Sound config.border) ?_ ?_).1
  · exact ⟨h, hin, hsound⟩
  rintro i - e e' ⟨hmoved, hin, hsound⟩
  exact ⟨hmoved.gatherStep hconfig hin hsound i,
    hin.of_keepsRecords (reboxes_gatherStep _ config e i).keepsRecords,
    hsound.gatherStep hconfig i⟩

end MovedBy

/-! ## All steps of placing classifiers -/

/-- Classifiers are placed on the moved sheet as on the sheet, and the same lines are left out. -/
theorem movedBy_layoutClassifiers {config : Config ℚ} (hconfig : config.Usable) (v : Point ℚ)
    {d : Drawing ℚ} (hin : d.InRange) :
    (d.layoutClassifiers (.ofConfig config) config).value.MovedBy v
        ((d.translateSheet v).layoutClassifiers (.ofConfig config) config).value ∧
      ((d.translateSheet v).layoutClassifiers (.ofConfig config) config).value.relationships =
        (d.layoutClassifiers (.ofConfig config) config).value.relationships := by
  -- up to growing the containers the relationships are those from the start
  have hspreadKeeps (d : Drawing ℚ) := reboxes_moveApart config
    (d.estimateBounds (.ofConfig config) config)
  have hkept (d : Drawing ℚ) :
      (d.embraced (.ofConfig config) config).relationships = d.relationships :=
    (reboxes_embraced (.ofConfig config) d).relationships_eq
  have hspread := (movedBy_estimateBounds (.ofConfig config) config v d).moveApart config
    (wide_estimateBounds hconfig.classifierWidth _ d)
  have hspreadIn := (hin.of_keepsRecords
    (keepsRecords_estimateBounds (.ofConfig config) config d)).of_keepsRecords
      (hspreadKeeps d).keepsRecords
  have hspreadSame : ((d.translateSheet v).estimateBounds (.ofConfig config) config
      |>.moveApart config).value.1.relationships =
      ((d.estimateBounds (.ofConfig config) config).moveApart config).value.1.relationships := by
    rw [(hspreadKeeps _).relationships_eq, (hspreadKeeps d).relationships_eq]
    rfl
  have hgrown : (d.embraced (.ofConfig config) config).MovedBy v
      ((d.translateSheet v).embraced (.ofConfig config) config) :=
    hspread.embraceChildren _ config hspreadSame hspreadIn
  have hgrownIn : (d.embraced (.ofConfig config) config).InRange :=
    hspreadIn.of_keepsRecords (reboxes_embraceChildren _ config _).keepsRecords
  obtain ⟨hhidden, hsame⟩ := hgrown.hideNested (by rw [hkept, hkept]; rfl) hgrownIn
  have hhiddenIn := hgrownIn.of_keepsRecords (keepsRecords_hideNested _)
  have hgathered : (d.gathered (.ofConfig config) config).MovedBy v
      ((d.translateSheet v).gathered (.ofConfig config) config) :=
    hhidden.gatherGroups hconfig hhiddenIn (sound_embraced hconfig d).hideNested
  have hgroups (d : Drawing ℚ) :=
    reboxes_gatherGroups (.ofConfig config) config (d.embraced (.ofConfig config) config).hideNested
  rw [value_layoutClassifiers, value_layoutClassifiers]
  refine hgathered.hideNested ?_ (hhiddenIn.of_keepsRecords (hgroups d).keepsRecords)
  rw [gathered, gathered, (hgroups _).relationships_eq, (hgroups d).relationships_eq]
  exact hsame

end Drawing

end DiagramLayout
