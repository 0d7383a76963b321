import DiagramLayout.Proofs.Classifiers.Choosing
import DiagramLayout.Proofs.Classifiers.Cycles
import DiagramLayout.Proofs.Classifiers.Estimating
import DiagramLayout.Proofs.Translation.Routing

/-!
# Rows of heads

Spreading moves a classifier as a whole, and it tells how far. That it tells the truth is seen turn
by turn: of a classifier that has not had its turn it tells that it stays, and since nobody has two
turns, the turn of a classifier replaces that by the offset that it moves by
(`Drawing.drawing_spreadingAfter`). In the end the drawing is the first one with every classifier
moved by its own offset (`Drawing.spreadsBy_moveApart`).

In a scenario no offset has a part along the time axis. So heads that begin in one row or column
before they are moved apart do so afterwards. Where nothing is contained in anything, the later
steps find nothing to do (`Drawing.Unnested.layoutClassifiers_eq`), and the row is still there when
the classifiers have their places.
-/

namespace DiagramLayout

/-- What has no part along the time axis has no coordinate there. -/
lemma GridKind.along_eq_zero {kind : GridKind} {axis : Axis} (haxis : kind.timeAxis = some axis)
    {v : Point ℚ} (hv : kind.project v = v) : v.along axis = 0 := by
  rw [← hv, project, haxis]
  cases axis <;> rfl

namespace Drawing

variable {config : Config ℚ} {d : Drawing ℚ}

/-! ## Each by its own offset -/

/-- The drawing with every classifier moved by its own offset. -/
def translateEach (d : Drawing ℚ) (offsets : List (Point ℚ)) : Drawing ℚ :=
  { d with classifiers := List.zipWith PlacedClassifier.translate offsets d.classifiers }

/-- Where all stay nothing changes. -/
lemma translateEach_origin (d : Drawing ℚ) :
    d.translateEach (d.classifiers.map fun _ => .origin) = d := by
  have hsame : List.zipWith PlacedClassifier.translate (d.classifiers.map fun _ => .origin)
      d.classifiers = d.classifiers := by
    rw [List.zipWith_map_left, List.zipWith_self]
    simp only [PlacedClassifier.translate, ClassifierBoxes.translate_origin, List.map_id']
  rw [translateEach, hsame]

/-- A classifier that has been told to stay moves by an offset that is told instead. -/
lemma translateClassifier_translateEach {offsets : List (Point ℚ)} {i : ℕ}
    (hstays : offsets[i]? = some .origin) (v : Point ℚ) :
    (d.translateEach offsets).translateClassifier i v = d.translateEach (offsets.set i v) := by
  have hmoved : (List.zipWith PlacedClassifier.translate offsets d.classifiers).modify i
      (fun c => { c with boxes := ((d.translateEach offsets).boxes i).translate v }) =
      List.zipWith PlacedClassifier.translate (offsets.set i v) d.classifiers := by
    apply List.ext_getElem?
    intro j
    rw [List.getElem?_modify, List.getElem?_zipWith, List.getElem?_zipWith]
    by_cases hij : i = j
    · subst hij
      obtain ⟨hi, -⟩ := List.getElem?_eq_some_iff.mp hstays
      rw [List.getElem?_set_self hi, hstays]
      cases hc : d.classifiers[i]? with
      | none => rfl
      | some c =>
        have hboxes : (d.translateEach offsets).boxes i = c.boxes := by
          unfold translateEach boxes
          dsimp only
          rw [List.getElem?_zipWith, hc, hstays]
          exact ClassifierBoxes.translate_origin _
        simp [hboxes, PlacedClassifier.translate]
    · rw [List.getElem?_set_ne hij]
      simp [hij]
  rw [translateClassifier, setBoxes]
  exact congrArg (fun cs => { d with classifiers := cs }) hmoved

/-- Moved by offsets without a part along an axis, symbols that begin in one line still do. -/
lemma startAlong_translateEach {axis : Axis} {line : ℚ} {offsets : List (Point ℚ)}
    (hline : ∀ c ∈ d.classifiers, c.boxes.symbol.startAlong axis = line)
    (hoffsets : ∀ v ∈ offsets, v.along axis = 0) :
    ∀ c ∈ (d.translateEach offsets).classifiers, c.boxes.symbol.startAlong axis = line := by
  intro c hc
  obtain ⟨i, hi⟩ := List.mem_iff_getElem?.mp hc
  obtain ⟨v, c₀, hv, hc₀, rfl⟩ := List.getElem?_zipWith_eq_some.mp hi
  have hmoves := (Rect.along_translate axis c₀.boxes.symbol v).1
  have hstart := hline c₀ (List.mem_of_getElem? hc₀)
  have hkeeps := hoffsets v (List.mem_of_getElem? hv)
  calc (c₀.translate v).boxes.symbol.startAlong axis
      = c₀.boxes.symbol.startAlong axis + v.along axis := hmoves
    _ = line := by rw [hstart, hkeeps, add_zero]

/-! ## What spreading tells -/

/-- A classifier that has not had its turn is told to stay. -/
lemma getElem?_offsets_spreadingAfter (config : Config ℚ) (d : Drawing ℚ) {turns : List ℕ} {i : ℕ}
    (hi : i < d.classifiers.length) (hturns : i ∉ turns) :
    (d.spreadingAfter config turns).offsets[i]? = some .origin := by
  have hstart := getElem?_offsets_spreadingAfter_append config d [] hturns
  rw [List.nil_append] at hstart
  rw [hstart]
  simp [spreadingAfter, hi]

/-- After turns of which nobody has two every classifier has been moved by the offset that is
told. -/
theorem drawing_spreadingAfter (config : Config ℚ) (d : Drawing ℚ) {turns : List ℕ}
    (hnodup : turns.Nodup) (hturns : ∀ i ∈ turns, i < d.classifiers.length) :
    (d.spreadingAfter config turns).drawing =
      d.translateEach (d.spreadingAfter config turns).offsets := by
  induction turns using List.reverseRecOn with
  | nil => exact d.translateEach_origin.symm
  | append_singleton turns i ih =>
    obtain ⟨hfewer, -, hdisjoint⟩ := List.nodup_append.mp hnodup
    have hfirst : i ∉ turns := by
      intro hmem
      exact hdisjoint i hmem i (List.mem_singleton_self i) rfl
    have hi : i < d.classifiers.length := hturns i (by simp)
    have hdrawing := ih hfewer fun j hj => hturns j (List.mem_append_left _ hj)
    have hstays := getElem?_offsets_spreadingAfter config d hi hfirst
    rw [spreadingAfter_concat, spreading_step_eq]
    dsimp only
    rw [hdrawing, translateClassifier_translateEach hstays]

/-- No offset that is told after some turns has a part along a time axis. -/
theorem project_offsets_spreadingAfter (config : Config ℚ) (d : Drawing ℚ) (turns : List ℕ) :
    ∀ v ∈ (d.spreadingAfter config turns).offsets, d.sheet.grid.kind.project v = v := by
  induction turns using List.reverseRecOn with
  | nil =>
    intro v hv
    obtain ⟨-, -, rfl⟩ := List.mem_map.mp hv
    exact d.sheet.grid.kind.project_origin
  | append_singleton turns i ih =>
    intro v hv
    rw [spreadingAfter_concat, spreading_step_eq] at hv
    rcases List.mem_or_eq_of_mem_set hv with htold | rfl
    · exact ih v htold
    · -- in all turns the grid measures what it measures at first
      have hkind : ((d.spreadingAfter config turns).turn config i).kind =
          d.sheet.grid.kind := by
        rw [← (reboxes_spreadingAfter config d turns).sheet_eq]
        rfl
      rw [← hkind]
      exact Turn.project_of_mem_candidates (Turn.cheapest_choice _).candidate

/-- Spreading moves every classifier by the offset that it tells of it, all its boxes alike, and
changes nothing else. In a scenario no offset has a part along the time axis. -/
structure SpreadsBy (d d' : Drawing ℚ) (offsets : List (Point ℚ)) : Prop where
  length_eq : offsets.length = d.classifiers.length
  drawing_eq : d' = d.translateEach offsets
  along_eq_zero : ∀ axis, d.sheet.grid.kind.timeAxis = some axis → ∀ v ∈ offsets, v.along axis = 0

/-- Spreading moves every classifier by the offset that it tells. -/
theorem spreadsBy_moveApart (config : Config ℚ) (d : Drawing ℚ) :
    d.SpreadsBy (d.moveApart config).value.1 (d.moveApart config).value.2 := by
  rw [value_moveApart]
  constructor
  · exact length_offsets_spreadingAfter config d _
  · exact drawing_spreadingAfter config d (d.nodup_turnRanking config)
      fun _ => lt_of_mem_turnRanking
  · intro axis haxis v hv
    exact GridKind.along_eq_zero haxis (project_offsets_spreadingAfter config d _ v hv)

/-! ## Without containments -/

/-- Nothing is contained in anything, and nothing is known to enclose anything. -/
structure Unnested (d : Drawing ℚ) : Prop where
  containments : d.containments = []
  encloses : ∀ a b, d.nesting.encloses a b = false

/-- Without containment relationships a drawing is not nested. -/
lemma unnested_ofElements {s : ElementSet} {bounds : Rect ℚ}
    (hresolved : ofElements s bounds config = .ok d)
    (hplain : ∀ r ∈ s.relationships, r.kind.isContainment = false) : d.Unnested := by
  have hrecorded := recordedIn_of_ofElements hresolved
  have hrelationships : ∀ r ∈ d.relationships, r.element.kind.isContainment = false := by
    intro r hr
    apply hplain
    rw [← hrecorded.relationships]
    exact List.mem_map_of_mem hr
  have hedges : d.nestingEdges = [] := by
    rw [nestingEdges, List.map_eq_nil_iff, List.filter_eq_nil_iff]
    intro r hr
    rw [hrelationships r hr]
    exact Bool.false_ne_true
  constructor
  · rw [List.eq_nil_iff_forall_not_mem]
    intro c hc
    obtain ⟨r, hr, hkind, -, -⟩ := mem_containments.mp hc
    rw [hrelationships r (List.mem_of_getElem? hr)] at hkind
    cases hkind
  · intro a b
    -- whatever is enclosed is reached along edges, of which there are none
    by_contra hencloses
    obtain ⟨hne, further, hpath⟩ := (nestsContainments_ofElements hresolved).charts.path_of_encloses
      a b (Bool.eq_true_of_not_eq_false hencloses)
    rw [hedges] at hpath
    cases hpath with
    | refl => exact hne rfl
    | snoc _ hmem _ => cases hmem

namespace Unnested

variable {d' : Drawing ℚ}

/-- Other boxes nest nothing. -/
lemma of_reboxes (h : d.Unnested) (hreboxes : d.Reboxes d') : d'.Unnested where
  containments := by
    rw [← h.containments]
    exact containments_congr (congrArg _ hreboxes.relationships_eq)
  encloses := by
    rw [hreboxes.nesting_eq]
    exact h.encloses

variable (h : d.Unnested)

include h

/-- No containment takes part. -/
lemma usableContainments_eq : d.usableContainments = [] := by
  rw [usableContainments, h.containments, List.filter_nil]

/-- No container is grown. -/
lemma embraceChildren_eq (m : Composer ℚ) (config : Config ℚ) : d.embraceChildren m config = d := by
  have hturns : d.containmentTurns config = [] := by
    rw [List.eq_nil_iff_forall_not_mem]
    intro c hc
    have husable := mem_usableContainments_of_turn hc
    rw [h.usableContainments_eq] at husable
    cases husable
  rw [Drawing.embraceChildren_eq, hturns]
  rfl

/-- No line is left out. -/
lemma hideNested_eq : d.hideNested = d := by
  rw [hideNested, h.usableContainments_eq]
  rfl

/-- No group is gathered. -/
lemma gatherGroups_eq (m : Composer ℚ) (config : Config ℚ) :
    d.gatherGroups m config = pure d := by
  have horder : (d.containerRanking config).order = [] := by
    rw [List.eq_nil_iff_forall_not_mem]
    intro i hi
    have hranked := Ranking.mem_of_mem_order hi
    simp only [List.map_map, List.mem_map, List.mem_filter, decide_eq_true_eq] at hranked
    obtain ⟨j, ⟨-, hcount⟩, -⟩ := hranked
    obtain ⟨k, hk⟩ := List.exists_mem_of_length_pos hcount
    rw [Nesting.mem_descendants, h.encloses] at hk
    cases hk
  rw [gatherGroups, horder]
  rfl

/-- Placing the classifiers is giving them their first boxes and moving them apart. -/
theorem layoutClassifiers_eq (m : Composer ℚ) (config : Config ℚ) :
    (d.layoutClassifiers m config).value =
      ((d.estimateBounds m config).moveApart config).value.1 := by
  have hregistered : d.registerKeys.Unnested := ⟨h.containments, h.encloses⟩
  have hspread : ((d.estimateBounds m config).moveApart config).value.1.Unnested :=
    hregistered.of_reboxes ((reboxes_estimateBounds m d).trans (reboxes_moveApart config _))
  rw [value_layoutClassifiers, gathered, embraced, hspread.embraceChildren_eq,
    hspread.hideNested_eq, hspread.gatherGroups_eq, Guarded.value_pure, hspread.hideNested_eq]

end Unnested

end Drawing

/-- Whatever the drawing is, spreading moves every classifier by the offset that it tells, which has
no part along a time axis. And so in every sequence diagram without containments all heads begin in
one row when the classifiers have their places, in every timing diagram in one column, at the
preferred distance from the edge of the draw area. -/
theorem ElementSet.moveApart_keepsRows (m : Composer ℚ) (config : Config ℚ) :
    (∀ d : Drawing ℚ, (d.moveApart config).defined = true ∧
      d.SpreadsBy (d.moveApart config).value.1 (d.moveApart config).value.2) ∧
      ∀ (s : ElementSet) (bounds : Rect ℚ) (start : Drawing ℚ) (axis : Axis),
        Drawing.ofElements s bounds config = .ok start →
        s.diagram.kind.gridKind.timeAxis = some axis →
        (∀ r ∈ s.relationships, r.kind.isContainment = false) →
          (start.layoutClassifiers m config).defined = true ∧
            (start.layoutClassifiers m config).value.classifiers.map (·.element) =
              s.classifiers ∧
            ∀ c ∈ (start.layoutClassifiers m config).value.classifiers,
              c.boxes.symbol.startAlong axis =
                (bounds.shrink config.borderInsets).startAlong axis + config.distance := by
  refine ⟨fun d => ⟨Drawing.defined_moveApart d, Drawing.spreadsBy_moveApart config d⟩, ?_⟩
  intro s bounds start axis hresolved haxis hplain
  have hunnested := Drawing.unnested_ofElements hresolved hplain
  have hsheet := (Drawing.ofElements_eq_ok hresolved).2
  refine ⟨Drawing.defined_layoutClassifiers m start, ?_, ?_⟩
  · obtain ⟨cs, rs, hredrawn, hcs, -⟩ := Drawing.redraws_layoutClassifiers m config start
    rw [hredrawn]
    exact hcs.trans (Drawing.recordedIn_of_ofElements hresolved).classifiers
  · have hgrid : start.sheet.grid.kind.timeAxis = some axis := by
      rw [hsheet]
      exact haxis
    have hfirst : ∀ c ∈ (start.estimateBounds m config).classifiers,
        c.boxes.symbol.startAlong axis =
          (bounds.shrink config.borderInsets).startAlong axis + config.distance := by
      intro c hc
      rw [Drawing.startAlong_estimateBounds m hgrid hc, hsheet]
      rfl
    have hspread := Drawing.spreadsBy_moveApart config (start.estimateBounds m config)
    rw [← Drawing.kind_estimateBounds m config start] at hgrid
    rw [hunnested.layoutClassifiers_eq, hspread.drawing_eq]
    exact Drawing.startAlong_translateEach hfirst (hspread.along_eq_zero axis hgrid)

/-- Two objects in a sequence diagram whose heads are put in the same place at first. -/
def crowdedHeads : ElementSet :=
  { exchange with
    classifiers := [⟨⟨1⟩, .object, "", 0, 0, false⟩, ⟨⟨2⟩, .object, "", 0, 7, false⟩] }

/-- The drawing of the two objects before anything is computed. -/
def crowdedHeadsStart : Drawing ℚ :=
  { exchangeStart with classifiers := crowdedHeads.classifiers.map (⟨·, .unplaced⟩) }

/-- The heads of the two objects are moved apart, and they still begin in one row. -/
theorem moveApart_keepsRows_crowdedHeads :
    Drawing.ofElements crowdedHeads exchangeBounds (Config.standard : Config ℚ) =
        .ok crowdedHeadsStart ∧
      ((crowdedHeadsStart.estimateBounds (.ofConfig .standard) .standard).moveApart
        .standard).value.2 = [.origin, ⟨-136, 0⟩] ∧
      (exchangeBounds.shrink (Config.standard : Config ℚ).borderInsets).startAlong .y = 4 ∧
      (Config.standard : Config ℚ).distance = 16 ∧
      ∀ c ∈ (crowdedHeadsStart.layoutClassifiers (.ofConfig .standard) .standard).value.classifiers,
        c.boxes.symbol.startAlong .y =
          (exchangeBounds.shrink (Config.standard : Config ℚ).borderInsets).startAlong .y +
            (Config.standard : Config ℚ).distance := by
  have hresolved : Drawing.ofElements crowdedHeads exchangeBounds (Config.standard : Config ℚ) =
      .ok crowdedHeadsStart := by decide +kernel
  have hplain : ∀ r ∈ crowdedHeads.relationships, r.kind.isContainment = false := by decide
  have hrows := (ElementSet.moveApart_keepsRows (.ofConfig .standard) .standard).2 crowdedHeads
    exchangeBounds crowdedHeadsStart .y hresolved rfl hplain
  exact ⟨hresolved, by decide +kernel, by decide +kernel, by decide +kernel, hrows.2.2⟩

end DiagramLayout
