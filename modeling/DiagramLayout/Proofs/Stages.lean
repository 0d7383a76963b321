import DiagramLayout.Proofs.Records
import DiagramLayout.Proofs.Scale

/-!
# The stages of a layout

A layout leads from the drawing of the resolved references through one drawing after the other.
`Stages` lists them, each with the step that has made it from the one before. The last one is what
the layout returns (`Stages.named_eq`), and all have the records of the first
(`Stages.keepsRecords`).

The statements hold over any coordinates.
-/

namespace DiagramLayout

variable {α : Type} [Scalar α]

/-- The drawings that the layout of a drawing leads through, in their order. -/
structure Stages (m : Composer α) (config : Config α) (start : Drawing α) where
  /-- Classifiers have their first boxes. -/
  estimated : Drawing α
  estimated_eq : estimated = start.initVisibility.estimateBounds m config
  /-- Classifiers have been moved apart. -/
  spread : Drawing α
  spread_eq : spread = (estimated.moveApart config).value.1
  /-- Containers have been grown around their children. -/
  grown : Drawing α
  grown_eq : grown = spread.embraceChildren m config
  /-- Lines of containments that show have been left out. -/
  hidden : Drawing α
  hidden_eq : hidden = grown.hideNested
  /-- Containers have been fitted around what they enclose and moved with it. -/
  gathered : Drawing α
  gathered_eq : gathered = (hidden.gatherGroups m config).value
  /-- Lines have been left out again, and classifiers have their places. -/
  settled : Drawing α
  settled_eq : settled = gathered.hideNested
  /-- Features have their places. -/
  furnished : Drawing α
  furnished_eq : furnished = (settled.layoutFeatures m config).value
  /-- Relationships have their routes. -/
  routed : Drawing α
  routed_eq : routed = (furnished.routeAll config).value
  /-- The names of features have their places. -/
  labeled : Drawing α
  labeled_eq : labeled = routed.layoutFeatureLabels m config
  /-- The names of relationships have their places. -/
  named : Drawing α
  named_eq : named = labeled.layoutRelationshipLabels m config

/-- The stages of the layout of a drawing. -/
def Drawing.stages (m : Composer α) (config : Config α) (start : Drawing α) :
    Stages m config start :=
  ⟨_, rfl, _, rfl, _, rfl, _, rfl, _, rfl, _, rfl, _, rfl, _, rfl, _, rfl, _, rfl⟩

namespace Stages

variable {m : Composer α} {config : Config α} {start : Drawing α}

/-- All stages, in their order. -/
def toList (t : Stages m config start) : List (Drawing α) :=
  [t.estimated, t.spread, t.grown, t.hidden, t.gathered, t.settled, t.furnished, t.routed,
    t.labeled, t.named]

/-- The last stage is the completed drawing. -/
theorem value_complete_eq (t : Stages m config start) :
    (start.complete m config).value = t.named := by
  unfold Drawing.complete Drawing.layoutClassifiers
  simp only [Guarded.value_bind, Guarded.value_pure, t.named_eq, t.labeled_eq, t.routed_eq,
    t.furnished_eq, t.settled_eq, t.gathered_eq, t.hidden_eq, t.grown_eq, t.spread_eq,
    t.estimated_eq]

/-- Every stage has the records of the drawing that the layout starts from. -/
theorem keepsRecords (t : Stages m config start) : ∀ e ∈ t.toList, start.KeepsRecords e := by
  have hestimated : start.KeepsRecords t.estimated := by
    rw [t.estimated_eq]
    exact start.keepsRecords_initVisibility.trans (Drawing.keepsRecords_estimateBounds m config _)
  have hspread : start.KeepsRecords t.spread := by
    rw [t.spread_eq]
    exact hestimated.trans (Drawing.reboxes_moveApart config _).keepsRecords
  have hgrown : start.KeepsRecords t.grown := by
    rw [t.grown_eq]
    exact hspread.trans (Drawing.reboxes_embraceChildren m config _).keepsRecords
  have hhidden : start.KeepsRecords t.hidden := by
    rw [t.hidden_eq]
    exact hgrown.trans (Drawing.keepsRecords_hideNested _)
  have hgathered : start.KeepsRecords t.gathered := by
    rw [t.gathered_eq]
    exact hhidden.trans (Drawing.reboxes_gatherGroups m config _).keepsRecords
  have hsettled : start.KeepsRecords t.settled := by
    rw [t.settled_eq]
    exact hgathered.trans (Drawing.keepsRecords_hideNested _)
  have hfurnished : start.KeepsRecords t.furnished := by
    rw [t.furnished_eq]
    exact hsettled.trans (Drawing.refeatures_layoutFeatures m config _).keepsRecords
  have hrouted : start.KeepsRecords t.routed := by
    rw [t.routed_eq]
    exact hfurnished.trans (Drawing.keepsRecords_routeAll config _)
  have hlabeled : start.KeepsRecords t.labeled := by
    rw [t.labeled_eq]
    exact hrouted.trans
      ((Drawing.refeatures_layoutFeatureLabels m config _).weaken (by intros; rfl)).keepsRecords
  have hnamed : start.KeepsRecords t.named := by
    rw [t.named_eq]
    exact hlabeled.trans
      ((Drawing.relates_layoutRelationshipLabels m config _).weaken (by intros; rfl)).keepsRecords
  simp only [toList, List.forall_mem_cons]
  exact ⟨hestimated, hspread, hgrown, hhidden, hgathered, hsettled, hfurnished, hrouted, hlabeled,
    hnamed, by simp⟩

/-- Until relationships are routed the grid measures what it measures at first. -/
lemma kind_furnished (t : Stages m config start) :
    t.furnished.sheet.grid.kind = start.sheet.grid.kind := by
  have hfeatures := Drawing.refeatures_layoutFeatures m config t.settled
  have hshown := Drawing.relates_hideNested t.gathered
  have hgathered := Drawing.reboxes_gatherGroups m config t.hidden
  have hhidden := Drawing.relates_hideNested t.grown
  have hgrown := Drawing.reboxes_embraceChildren m config t.spread
  have hspread := Drawing.reboxes_moveApart config t.estimated
  have hestimated : t.estimated.sheet = start.initVisibility.registerKeys.sheet := by
    rw [t.estimated_eq]
    rfl
  rw [t.furnished_eq, hfeatures.sheet_eq, t.settled_eq, hshown.sheet_eq, t.gathered_eq,
    hgathered.sheet_eq, t.hidden_eq, hhidden.sheet_eq, t.grown_eq, hgrown.sheet_eq, t.spread_eq,
    hspread.sheet_eq, hestimated, Drawing.kind_registerKeys,
    (Drawing.relates_initVisibility start).sheet_eq]

end Stages

end DiagramLayout
