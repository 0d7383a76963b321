import DiagramLayout.Proofs.Classifiers.Gathering
import DiagramLayout.Proofs.Classifiers.Spreading

/-!
# The steps of placing classifiers

`Drawing.layoutClassifiers` taken apart: after the growing of containers (`Drawing.embraced`) lines
are left out, groups are gathered, and lines are left out again. None of this trips a guard, boxes
stay sound throughout, and nothing but boxes and visibilities changes.
-/

namespace DiagramLayout

namespace Drawing

variable {config : Config ℚ}

/-- The drawing after its containers have been grown around their children. -/
def embraced (m : Composer ℚ) (config : Config ℚ) (d : Drawing ℚ) : Drawing ℚ :=
  ((d.estimateBounds m config).moveApart config).value.1.embraceChildren m config

/-- The drawing after the groups have been gathered. -/
def gathered (m : Composer ℚ) (config : Config ℚ) (d : Drawing ℚ) : Drawing ℚ :=
  ((d.embraced m config).hideNested.gatherGroups m config).value

/-- Classifiers are placed without a guard. -/
theorem defined_layoutClassifiers (m : Composer ℚ) (d : Drawing ℚ) :
    (d.layoutClassifiers m config).defined = true := by
  unfold layoutClassifiers
  simp only [Guarded.defined_bind, defined_moveApart, defined_gatherGroups, Guarded.defined_pure,
    Bool.and_self]

/-- Placing the classifiers ends with leaving out the lines that the gathered groups show. -/
lemma value_layoutClassifiers (m : Composer ℚ) (d : Drawing ℚ) :
    (d.layoutClassifiers m config).value = (d.gathered m config).hideNested := by
  unfold layoutClassifiers gathered embraced
  simp only [Guarded.value_bind, Guarded.value_pure]

/-- Leaving out lines keeps the nesting. -/
@[simp] lemma nesting_hideNested (d : Drawing ℚ) : d.hideNested.nesting = d.nesting := by
  obtain ⟨rs, heq, -⟩ := relates_hideNested d
  rw [heq]

/-- Leaving out lines keeps the envelopes. -/
@[simp] lemma envelopes_hideNested (d : Drawing ℚ) : d.hideNested.envelopes = d.envelopes := by
  obtain ⟨rs, heq, -⟩ := relates_hideNested d
  rw [heq]
  rfl

/-- Leaving out lines keeps all boxes sound. -/
lemma Sound.hideNested {d : Drawing ℚ} {border : ℚ} (h : d.Sound border) :
    d.hideNested.Sound border :=
  h.congr (relates_hideNested d).classifiers_eq

/-- Containers that have been grown are sound. -/
theorem sound_embraced (hconfig : config.Usable) (d : Drawing ℚ) :
    (d.embraced (.ofConfig config) config).Sound config.border :=
  (sound_estimateBounds hconfig d).moveApart.embraceChildren hconfig

/-- Up to growing the containers, the first boxes and the ones after it differ only in boxes. -/
lemma reboxes_embraced (m : Composer ℚ) (d : Drawing ℚ) :
    (d.estimateBounds m config).Reboxes (d.embraced m config) :=
  (reboxes_moveApart config _).trans (reboxes_embraceChildren m config _)

/-- Placing the classifiers keeps the nesting. -/
lemma nesting_gathered (m : Composer ℚ) (d : Drawing ℚ) :
    (d.gathered m config).nesting = d.nesting := by
  have hgroups := reboxes_gatherGroups m config (d.embraced m config).hideNested
  rw [gathered, hgroups.nesting_eq, nesting_hideNested]
  exact (reboxes_embraced m d).nesting_eq

/-! ## What is kept -/

/-- The second drawing has other boxes and other visibilities and is the first one otherwise. -/
def Redraws (d d' : Drawing ℚ) : Prop :=
  ∃ cs rs, d' = { d with classifiers := cs, relationships := rs } ∧
    cs.map (·.element) = d.classifiers.map (·.element) ∧
    rs.map RoutedRelationship.unseen = d.relationships.map RoutedRelationship.unseen

/-- Boxes and visibilities may be replaced one after the other. -/
lemma Redraws.trans {d d' d'' : Drawing ℚ} (h : d.Redraws d') (h' : d'.Redraws d'') :
    d.Redraws d'' := by
  obtain ⟨cs, rs, rfl, hcs, hrs⟩ := h
  obtain ⟨cs', rs', rfl, hcs', hrs'⟩ := h'
  exact ⟨cs', rs', rfl, hcs'.trans hcs, hrs'.trans hrs⟩

/-- Replacing boxes and visibilities keeps the diagram. -/
lemma Redraws.diagram_eq {d d' : Drawing ℚ} (h : d.Redraws d') : d'.diagram = d.diagram := by
  obtain ⟨cs, rs, rfl, -, -⟩ := h
  rfl

/-- Replacing boxes and visibilities keeps the sheet. -/
lemma Redraws.sheet_eq {d d' : Drawing ℚ} (h : d.Redraws d') : d'.sheet = d.sheet := by
  obtain ⟨cs, rs, rfl, -, -⟩ := h
  rfl

/-- Replacing boxes and visibilities keeps the features. -/
lemma Redraws.features_eq {d d' : Drawing ℚ} (h : d.Redraws d') : d'.features = d.features := by
  obtain ⟨cs, rs, rfl, -, -⟩ := h
  rfl

/-- Boxes may be replaced. -/
lemma Reboxes.redraws {d d' : Drawing ℚ} (h : d.Reboxes d') : d.Redraws d' := by
  obtain ⟨cs, rfl, hcs⟩ := h
  exact ⟨cs, d.relationships, rfl, hcs, rfl⟩

/-- Visibilities may be replaced. -/
lemma Relates.redraws {d d' : Drawing ℚ} (h : Relates RoutedRelationship.unseen d d') :
    d.Redraws d' := by
  obtain ⟨rs, rfl, hrs⟩ := h
  exact ⟨d.classifiers, rs, rfl, rfl, hrs⟩

/-- The first step registers keys and gives boxes. -/
lemma reboxes_estimateBounds (m : Composer ℚ) (d : Drawing ℚ) :
    d.registerKeys.Reboxes (d.estimateBounds m config) := by
  refine ⟨_, rfl, List.ext_getElem? fun i => ?_⟩
  simp [Function.comp_def]

/-- Placing the classifiers registers their keys, and apart from that nothing but boxes and
visibilities changes. -/
theorem redraws_layoutClassifiers (m : Composer ℚ) (config : Config ℚ) (d : Drawing ℚ) :
    d.registerKeys.Redraws (d.layoutClassifiers m config).value := by
  rw [value_layoutClassifiers]
  exact (((reboxes_estimateBounds m d).trans (reboxes_embraced m d)).redraws.trans
    (relates_hideNested _).redraws).trans
      ((reboxes_gatherGroups m config _).redraws.trans (relates_hideNested _).redraws)

end Drawing

end DiagramLayout
