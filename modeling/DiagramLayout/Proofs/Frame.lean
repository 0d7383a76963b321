import DiagramLayout.Layout
import DiagramLayout.Proofs.Exact
import DiagramLayout.Proofs.Runs

/-!
# What the steps of a layout leave alone

Every step of the layout writes to one list of records and leaves the rest of the drawing as it is:
the classifier steps write boxes, the feature step writes features, routing and naming write
relationships. `Drawing.Reboxes`, `Drawing.Refeatures` and `Drawing.Relates` say so. Each of them
names a list that may be replaced and a view of its records that may not, so one statement about a
step answers for every field of the drawing.

The statements hold over any coordinates.
-/

namespace DiagramLayout

/-- Changing one element changes nothing that the change keeps. -/
lemma map_modify_of_keeps {β γ : Type} {change : β → β} {keep : β → γ}
    (h : ∀ x, keep (change x) = keep x) (xs : List β) (index : ℕ) :
    (xs.modify index change).map keep = xs.map keep := by
  refine List.ext_getElem? fun i => ?_
  rw [List.getElem?_map, List.getElem?_map, List.getElem?_modify]
  split_ifs
  · cases xs[i]? <;> simp [h]
  · simp

/-- A change of one element of a list commutes with a map that it does not see. -/
lemma map_modify_of_commutes {β γ : Type} {view : β → γ} {change : β → β} {change' : γ → γ}
    (h : ∀ b, view (change b) = change' (view b)) (xs : List β) (i : ℕ) :
    (xs.modify i change).map view = (xs.map view).modify i change' := by
  refine List.ext_getElem? fun j => ?_
  simp only [List.getElem?_map, List.getElem?_modify, Option.map_eq_map, Option.map_map]
  refine congrArg (Option.map · xs[j]?) (funext fun b => ?_)
  by_cases hij : i = j <;> simp [hij, h]

/-- Lists that show the same to a view show the same at every position. -/
lemma getElem?_of_map_eq {β γ : Type} {keep : β → γ} {xs ys : List β}
    (h : ys.map keep = xs.map keep) {i : ℕ} {x : β} (hx : xs[i]? = some x) :
    ∃ y, ys[i]? = some y ∧ keep y = keep x := by
  have hi := congrArg (·[i]?) h
  simp only [List.getElem?_map, hx, Option.map_some] at hi
  exact Option.map_eq_some_iff.mp hi

/-- In a run of turns, what one turn brings about and no other turn undoes holds after the run. -/
lemma foldl_turn {σ : Type} {step : σ → ℕ → σ} (inv goal : σ → Prop) {i : ℕ}
    (hinv : ∀ s j, inv s → inv (step s j)) (hturn : ∀ s, inv s → goal (step s i))
    (hkeep : ∀ s j, j ≠ i → inv s → goal s → goal (step s j)) (order : List ℕ) {s : σ}
    (hs : inv s) (hi : i ∈ order ∨ goal s) : goal (order.foldl step s) := by
  induction order generalizing s with
  | nil => exact hi.resolve_left List.not_mem_nil
  | cons j js ih =>
    refine ih (hinv s j hs) ?_
    by_cases hj : j = i
    · exact Or.inr (hj ▸ hturn s hs)
    · refine hi.imp (fun hmem => ?_) (hkeep s j hj hs)
      exact (List.mem_cons.mp hmem).resolve_left (Ne.symm hj)

/-- In a pass that gives every element of a list a turn, each one is done in the end if its own turn
does it and the turns of others leave it alone. -/
lemma forall_done_of_turns {σ β : Type} {step : σ → ℕ → σ} (view : σ → List β)
    {ready done : β → Prop}
    (hturn : ∀ {s i x}, (view s)[i]? = some x → ready x →
      ∃ x', (view (step s i))[i]? = some x' ∧ ready x' ∧ done x')
    (hother : ∀ {i j} s, j ≠ i → (view (step s j))[i]? = (view s)[i]?) {s : σ}
    (hready : ∀ x ∈ view s, ready x) :
    ∀ x ∈ view ((List.range (view s).length).foldl step s), done x := by
  intro x hx
  obtain ⟨i, hi⟩ := List.mem_iff_getElem?.mp hx
  by_cases hlength : i < (view s).length
  · have hfirst := List.getElem?_eq_getElem hlength
    have hrun : ∃ y, (view ((List.range (view s).length).foldl step s))[i]? = some y ∧ done y := by
      refine foldl_turn (fun s => ∃ y, (view s)[i]? = some y ∧ ready y)
        (fun s => ∃ y, (view s)[i]? = some y ∧ done y) ?_ ?_ ?_ _
        ⟨_, hfirst, hready _ (List.mem_of_getElem? hfirst)⟩ (Or.inl (List.mem_range.mpr hlength))
      · rintro s j ⟨y, hy, hgood⟩
        rcases eq_or_ne j i with rfl | hj
        · obtain ⟨y', hy', hgood', -⟩ := hturn hy hgood
          exact ⟨y', hy', hgood'⟩
        · exact ⟨y, (hother s hj).trans hy, hgood⟩
      · rintro s ⟨y, hy, hgood⟩
        obtain ⟨y', hy', -, hdone⟩ := hturn hy hgood
        exact ⟨y', hy', hdone⟩
      · rintro s j hj - ⟨y, hy, hdone⟩
        exact ⟨y, (hother s hj).trans hy, hdone⟩
    obtain ⟨y, hy, hdone⟩ := hrun
    obtain rfl : x = y := Option.some.inj (hi.symm.trans hy)
    exact hdone
  · -- no turn adds an element
    have hnone : (view ((List.range (view s).length).foldl step s))[i]? = none := by
      refine List.foldlRecOn _ step (motive := fun s => (view s)[i]? = none)
        (List.getElem?_eq_none (not_lt.mp hlength)) fun s hs j hj => ?_
      have hji : j ≠ i := by
        rintro rfl
        exact hlength (List.mem_range.mp hj)
      exact (hother s hji).trans hs
    rw [hnone] at hi
    cases hi

section Views

variable {α : Type} [Scalar α]

/-- A feature without the place of its name. -/
def PlacedFeature.unnamed (f : PlacedFeature α) : PlacedFeature α := { f with label := .empty }

/-- A relationship without the place of its name. -/
def RoutedRelationship.unnamed (r : RoutedRelationship α) : RoutedRelationship α :=
  { r with label := .empty }

/-- A relationship without its line. -/
def RoutedRelationship.unrouted (r : RoutedRelationship α) : RoutedRelationship α :=
  { r with route := .collapsed }

/-- A relationship apart from whether it is drawn. -/
def RoutedRelationship.unseen (r : RoutedRelationship α) : RoutedRelationship α :=
  { r with visibility := .shown }

/-- The element of a feature with the position of its owner. -/
def PlacedFeature.origin (f : PlacedFeature α) : Feature × ℕ := (f.element, f.owner)

end Views

namespace Drawing

variable {α : Type}

/-! ## Boxes -/

/-- The second drawing has the boxes of other classifiers and is the first one otherwise. -/
def Reboxes (d d' : Drawing α) : Prop :=
  ∃ cs, d' = { d with classifiers := cs } ∧ cs.map (·.element) = d.classifiers.map (·.element)

namespace Reboxes

/-- Nothing need change. -/
lemma refl (d : Drawing α) : d.Reboxes d := ⟨d.classifiers, rfl, rfl⟩

/-- Boxes may be replaced one after the other. -/
lemma trans {d d' d'' : Drawing α} (h : d.Reboxes d') (h' : d'.Reboxes d'') : d.Reboxes d'' := by
  obtain ⟨cs, rfl, hcs⟩ := h
  obtain ⟨cs', rfl, hcs'⟩ := h'
  exact ⟨cs', rfl, hcs'.trans hcs⟩

/-- Boxes may be replaced in every step of a fold. -/
lemma foldl {β : Type} {step : Drawing α → β → Drawing α} (h : ∀ d x, Reboxes d (step d x))
    (d : Drawing α) (xs : List β) : d.Reboxes (xs.foldl step d) :=
  List.foldlRecOn xs step (refl d) fun d' hd' x _ => hd'.trans (h d' x)

variable {d d' : Drawing α}

/-- Replacing boxes adds and removes no classifier. -/
lemma length_classifiers (h : d.Reboxes d') : d'.classifiers.length = d.classifiers.length := by
  obtain ⟨cs, rfl, hcs⟩ := h
  simpa using congrArg List.length hcs

/-- Replacing boxes keeps the nesting. -/
lemma nesting_eq (h : d.Reboxes d') : d'.nesting = d.nesting := by
  obtain ⟨cs, rfl, -⟩ := h
  rfl

/-- Replacing boxes keeps the sheet. -/
lemma sheet_eq (h : d.Reboxes d') : d'.sheet = d.sheet := by
  obtain ⟨cs, rfl, -⟩ := h
  rfl

/-- Replacing boxes keeps the relationships. -/
lemma relationships_eq (h : d.Reboxes d') : d'.relationships = d.relationships := by
  obtain ⟨cs, rfl, -⟩ := h
  rfl

/-- Replacing boxes keeps the features. -/
lemma features_eq (h : d.Reboxes d') : d'.features = d.features := by
  obtain ⟨cs, rfl, -⟩ := h
  rfl

/-- Replacing boxes keeps the diagram. -/
lemma diagram_eq (h : d.Reboxes d') : d'.diagram = d.diagram := by
  obtain ⟨cs, rfl, -⟩ := h
  rfl

end Reboxes

/-- Setting the boxes of a classifier replaces boxes only. -/
lemma reboxes_setBoxes (d : Drawing α) (index : ℕ) (boxes : ClassifierBoxes α) :
    d.Reboxes (d.setBoxes index boxes) :=
  ⟨_, rfl, map_modify_of_keeps (by intros; rfl) d.classifiers index⟩

section Boxes

variable [Scalar α]

/-- Moving a classifier replaces boxes only. -/
lemma reboxes_translateClassifier (d : Drawing α) (index : ℕ) (offset : Point α) :
    d.Reboxes (d.translateClassifier index offset) :=
  reboxes_setBoxes d index _

/-- A turn in which a classifier moves replaces boxes only. -/
lemma reboxes_spreading_step (config : Config α) (s : Spreading α) (index : ℕ) :
    s.drawing.Reboxes (s.step config index).value.drawing := by
  unfold Spreading.step
  simp only [Guarded.value_bind, Guarded.value_pure]
  split_ifs
  · exact Reboxes.refl _
  · exact reboxes_translateClassifier _ _ _

/-- Turns in which classifiers move replace boxes only. -/
lemma reboxes_spreadingAfter (config : Config α) (d : Drawing α) (turns : List ℕ) :
    d.Reboxes (d.spreadingAfter config turns).drawing :=
  List.foldlRecOn _ _ (motive := fun s : Spreading α => d.Reboxes s.drawing)
    (Reboxes.refl d) fun s hs index _ => hs.trans (reboxes_spreading_step config s index)

/-- Moving classifiers apart replaces boxes only. -/
lemma reboxes_moveApart (config : Config α) (d : Drawing α) :
    d.Reboxes (d.moveApart config).value.1 := by
  rw [value_moveApart]
  exact reboxes_spreadingAfter config d _

/-- Embracing one child replaces boxes only. -/
lemma reboxes_embracing_step (m : Composer α) (config : Config α) (s : Embracing α)
    (c : Containment) : s.drawing.Reboxes (s.step m config c).drawing := by
  unfold Embracing.step
  split
  · exact Reboxes.refl _
  · dsimp only
    split_ifs
    · exact reboxes_setBoxes _ _ _
    · exact Reboxes.refl _

/-- Embracing children replaces boxes only. -/
lemma reboxes_embraceChildren (m : Composer α) (config : Config α) (d : Drawing α) :
    d.Reboxes (d.embraceChildren m config) := by
  unfold embraceChildren
  exact List.foldlRecOn _ _ (motive := fun s : Embracing α => d.Reboxes s.drawing)
    (Reboxes.refl d) fun s hs c _ => hs.trans (reboxes_embracing_step m config s c)

/-- Gathering a group replaces boxes only. -/
lemma reboxes_gatherStep (m : Composer α) (config : Config α) (d : Drawing α) (index : ℕ) :
    d.Reboxes (d.gatherStep m config index).value := by
  unfold gatherStep
  dsimp only
  split_ifs
  · exact Reboxes.refl d
  · split
    · split_ifs
      · exact Reboxes.refl d
      · simp only [Guarded.value_bind, Guarded.value_pure]
        exact (reboxes_setBoxes d _ _).trans
          (Reboxes.foldl (fun d other => reboxes_translateClassifier d other _) _ _)
    · exact Reboxes.refl d

/-- Gathering several groups replaces boxes only. -/
lemma reboxes_gatheringAfter (m : Composer α) (config : Config α) (d : Drawing α)
    (turns : List ℕ) : d.Reboxes (d.gatheringAfter m config turns) :=
  Reboxes.foldl (fun d index => reboxes_gatherStep m config d index) d turns

/-- Gathering all groups replaces boxes only. -/
lemma reboxes_gatherGroups (m : Composer α) (config : Config α) (d : Drawing α) :
    d.Reboxes (d.gatherGroups m config).value := by
  rw [value_gatherGroups]
  exact reboxes_gatheringAfter m config d _

end Boxes

/-! ## Features -/

/-- The second drawing has other features, all of which show the same to a view, and is the first
one otherwise. -/
def Refeatures {γ : Type} (keep : PlacedFeature α → γ) (d d' : Drawing α) : Prop :=
  ∃ fs, d' = { d with features := fs } ∧ fs.map keep = d.features.map keep

namespace Refeatures

variable {γ : Type} {keep : PlacedFeature α → γ}

/-- Nothing need change. -/
lemma refl (d : Drawing α) : d.Refeatures keep d := ⟨d.features, rfl, rfl⟩

/-- Features may be replaced one after the other. -/
lemma trans {d d' d'' : Drawing α} (h : Refeatures keep d d') (h' : Refeatures keep d' d'') :
    Refeatures keep d d'' := by
  obtain ⟨fs, rfl, hfs⟩ := h
  obtain ⟨fs', rfl, hfs'⟩ := h'
  exact ⟨fs', rfl, hfs'.trans hfs⟩

/-- A view that looks only at what is kept is not disturbed either. -/
lemma weaken {δ : Type} {keep : PlacedFeature α → PlacedFeature α} {view : PlacedFeature α → δ}
    (hview : ∀ f, view (keep f) = view f) {d d' : Drawing α} (h : Refeatures keep d d') :
    Refeatures view d d' := by
  obtain ⟨fs, rfl, hfs⟩ := h
  have hfactor (fs : List (PlacedFeature α)) : fs.map view = (fs.map keep).map view := by
    simp [hview]
  exact ⟨fs, rfl, by rw [hfactor, hfs, ← hfactor]⟩

/-- Features may be replaced in every step of a fold. -/
lemma foldl {β : Type} {step : Drawing α → β → Drawing α}
    (h : ∀ d x, Refeatures keep d (step d x)) (d : Drawing α) (xs : List β) :
    Refeatures keep d (xs.foldl step d) :=
  List.foldlRecOn xs step (refl d) fun d' hd' x _ => hd'.trans (h d' x)

variable {d d' : Drawing α}

/-- Replacing features keeps the classifiers. -/
lemma classifiers_eq (h : Refeatures keep d d') : d'.classifiers = d.classifiers := by
  obtain ⟨fs, rfl, -⟩ := h
  rfl

/-- Replacing features keeps the relationships. -/
lemma relationships_eq (h : Refeatures keep d d') : d'.relationships = d.relationships := by
  obtain ⟨fs, rfl, -⟩ := h
  rfl

/-- Replacing features keeps the sheet. -/
lemma sheet_eq (h : Refeatures keep d d') : d'.sheet = d.sheet := by
  obtain ⟨fs, rfl, -⟩ := h
  rfl

/-- Replacing features keeps the diagram. -/
lemma diagram_eq (h : Refeatures keep d d') : d'.diagram = d.diagram := by
  obtain ⟨fs, rfl, -⟩ := h
  rfl

/-- The view shows the same features as before. -/
lemma map_features (h : Refeatures keep d d') : d'.features.map keep = d.features.map keep := by
  obtain ⟨fs, rfl, hfs⟩ := h
  exact hfs

end Refeatures

/-- A feature may be changed as far as the view does not show. -/
lemma refeatures_modifyFeature {γ : Type} {keep : PlacedFeature α → γ}
    {change : PlacedFeature α → PlacedFeature α} (h : ∀ f, keep (change f) = keep f)
    (d : Drawing α) (index : ℕ) : Refeatures keep d (d.modifyFeature index change) :=
  ⟨_, rfl, map_modify_of_keeps h d.features index⟩

section Features

variable [Scalar α]

/-- Placing the features beside a classifier keeps every element and its owner. -/
lemma refeatures_layoutBeside (config : Config α) (d : Drawing α) (classifier : ℕ) :
    Refeatures PlacedFeature.origin d (d.layoutBeside config classifier).value := by
  unfold layoutBeside
  split
  · exact Refeatures.refl d
  · simp only [Guarded.value_bind, Guarded.value_pure, Guarded.value_mapM]
    refine ⟨_, rfl, ?_⟩
    rw [List.map_map]
    refine List.map_congr_left fun f _ => ?_
    simp only [Function.comp_apply, PlacedFeature.origin]
    split_ifs
    · unfold placeBeside
      dsimp only
      split_ifs <;> rfl
    · rfl

/-- Stacking compartment entries keeps every element and its owner. -/
lemma refeatures_layoutCompartments (m : Composer α) (config : Config α) (d : Drawing α)
    (classifier : ℕ) :
    Refeatures PlacedFeature.origin d (d.layoutCompartments m config classifier) :=
  Refeatures.foldl (fun d (line : ℕ × Rect α) =>
    refeatures_modifyFeature (by intros; rfl) d line.1) d _

/-- Placing the features of a classifier keeps every element and its owner. -/
lemma refeatures_layoutFeaturesOf (m : Composer α) (config : Config α) (d : Drawing α)
    (classifier : ℕ) :
    Refeatures PlacedFeature.origin d (d.layoutFeaturesOf m config classifier).value := by
  unfold layoutFeaturesOf
  simp only [Guarded.value_bind, Guarded.value_pure]
  exact (refeatures_layoutBeside config d classifier).trans
    (refeatures_layoutCompartments m config _ classifier)

/-- Placing the features keeps every element and its owner. -/
theorem refeatures_layoutFeatures (m : Composer α) (config : Config α) (d : Drawing α) :
    Refeatures PlacedFeature.origin d (d.layoutFeatures m config).value := by
  unfold layoutFeatures
  rw [Guarded.value_foldlM]
  exact Refeatures.foldl (fun d i => refeatures_layoutFeaturesOf m config d i) d _

/-- Naming the features changes nothing but where their names stand. -/
theorem refeatures_layoutFeatureLabels (m : Composer α) (config : Config α) (d : Drawing α) :
    Refeatures PlacedFeature.unnamed d (d.layoutFeatureLabels m config) := by
  refine Refeatures.foldl (fun d i => ?_) d _
  have hmodify (d : Drawing α) (label : Rect α) :
      Refeatures PlacedFeature.unnamed d (d.modifyFeature i fun f => { f with label }) :=
    refeatures_modifyFeature (by intros; rfl) d i
  unfold placeFeatureLabel
  split
  · exact Refeatures.refl d
  · dsimp only
    split_ifs
    · exact Refeatures.refl d
    · exact hmodify d _
    · exact (hmodify d _).trans (hmodify _ _)

end Features

/-! ## Relationships -/

/-- The second drawing has other relationships, all of which show the same to a view, and is the
first one otherwise. -/
def Relates {γ : Type} (keep : RoutedRelationship α → γ) (d d' : Drawing α) : Prop :=
  ∃ rs, d' = { d with relationships := rs } ∧ rs.map keep = d.relationships.map keep

namespace Relates

variable {γ : Type} {keep : RoutedRelationship α → γ}

/-- Nothing need change. -/
lemma refl (d : Drawing α) : Relates keep d d := ⟨d.relationships, rfl, rfl⟩

/-- Relationships may be replaced one after the other. -/
lemma trans {d d' d'' : Drawing α} (h : Relates keep d d') (h' : Relates keep d' d'') :
    Relates keep d d'' := by
  obtain ⟨rs, rfl, hrs⟩ := h
  obtain ⟨rs', rfl, hrs'⟩ := h'
  exact ⟨rs', rfl, hrs'.trans hrs⟩

/-- A view that looks only at what is kept is not disturbed either. -/
lemma weaken {δ : Type} {keep : RoutedRelationship α → RoutedRelationship α}
    {view : RoutedRelationship α → δ} (hview : ∀ r, view (keep r) = view r) {d d' : Drawing α}
    (h : Relates keep d d') : Relates view d d' := by
  obtain ⟨rs, rfl, hrs⟩ := h
  have hfactor (rs : List (RoutedRelationship α)) : rs.map view = (rs.map keep).map view := by
    simp [hview]
  exact ⟨rs, rfl, by rw [hfactor, hrs, ← hfactor]⟩

/-- Relationships may be replaced in every step of a fold. -/
lemma foldl {β : Type} {step : Drawing α → β → Drawing α} (h : ∀ d x, Relates keep d (step d x))
    (d : Drawing α) (xs : List β) : Relates keep d (xs.foldl step d) :=
  List.foldlRecOn xs step (refl d) fun d' hd' x _ => hd'.trans (h d' x)

variable {d d' : Drawing α}

/-- Replacing relationships keeps the classifiers. -/
lemma classifiers_eq (h : Relates keep d d') : d'.classifiers = d.classifiers := by
  obtain ⟨rs, rfl, -⟩ := h
  rfl

/-- Replacing relationships keeps the features. -/
lemma features_eq (h : Relates keep d d') : d'.features = d.features := by
  obtain ⟨rs, rfl, -⟩ := h
  rfl

/-- Replacing relationships keeps the sheet. -/
lemma sheet_eq (h : Relates keep d d') : d'.sheet = d.sheet := by
  obtain ⟨rs, rfl, -⟩ := h
  rfl

/-- The view shows the same relationships as before. -/
lemma map_relationships (h : Relates keep d d') :
    d'.relationships.map keep = d.relationships.map keep := by
  obtain ⟨rs, rfl, hrs⟩ := h
  exact hrs

end Relates

/-- A relationship may be changed as far as the view does not show. -/
lemma relates_modifyRelationship {γ : Type} {keep : RoutedRelationship α → γ}
    {change : RoutedRelationship α → RoutedRelationship α} (h : ∀ r, keep (change r) = keep r)
    (d : Drawing α) (index : ℕ) : Relates keep d (d.modifyRelationship index change) :=
  ⟨_, rfl, map_modify_of_keeps h d.relationships index⟩

/-- Showing all relationships changes nothing but visibilities. -/
theorem relates_showAll (d : Drawing α) : Relates RoutedRelationship.unseen d d.showAll :=
  ⟨_, rfl, by simp [RoutedRelationship.unseen]⟩

/-- The first visibilities change nothing else. -/
lemma relates_initVisibility (d : Drawing α) :
    Relates RoutedRelationship.unseen d d.initVisibility := by
  unfold initVisibility
  split_ifs
  · exact Relates.refl d
  · exact relates_showAll d

section Relationships

variable [Scalar α]

/-- Leaving out lines changes nothing but visibilities. -/
theorem relates_hideNested (d : Drawing α) : Relates RoutedRelationship.unseen d d.hideNested :=
  Relates.foldl (fun d (c : Containment) =>
    relates_modifyRelationship (by intros; rfl) d c.relationship) d _

/-- One relationship gets its route and nothing else changes. -/
lemma relates_freeRouting_step (config : Config α) (s : FreeRouting α) (index : ℕ) :
    Relates RoutedRelationship.unrouted s.drawing (s.step config index).drawing := by
  unfold FreeRouting.step
  split
  · exact Relates.refl _
  · exact relates_modifyRelationship (by intros; rfl) _ _

/-- Routing on a free grid changes nothing but routes. -/
theorem relates_routeFreely (config : Config α) (d : Drawing α) :
    Relates RoutedRelationship.unrouted d (d.routeFreely config) := by
  unfold routeFreely
  split_ifs
  · exact List.foldlRecOn _ _
      (motive := fun s : FreeRouting α => Relates RoutedRelationship.unrouted d s.drawing)
      (Relates.refl d) fun s hs i _ => hs.trans (relates_freeRouting_step config s i)
  · exact Relates.refl d

/-- Routing changes neither classifiers nor features. -/
lemma kept_routeAll (config : Config α) (d : Drawing α) :
    (d.routeAll config).value.classifiers = d.classifiers ∧
      (d.routeAll config).value.features = d.features := by
  unfold routeAll
  split_ifs
  · unfold routeInTime
    split <;> exact ⟨rfl, rfl⟩
  · have hrouted := relates_routeFreely config d
    exact ⟨hrouted.classifiers_eq, hrouted.features_eq⟩

/-- Naming the relationships changes nothing but where their names stand. -/
theorem relates_layoutRelationshipLabels (m : Composer α) (config : Config α) (d : Drawing α) :
    Relates RoutedRelationship.unnamed d (d.layoutRelationshipLabels m config) := by
  refine Relates.foldl (fun d i => ?_) d _
  have hmodify (d : Drawing α) (label : Rect α) :
      Relates RoutedRelationship.unnamed d (d.modifyRelationship i fun r => { r with label }) :=
    relates_modifyRelationship (by intros; rfl) d i
  unfold placeRelationshipLabel
  split
  · exact Relates.refl d
  · dsimp only
    split_ifs
    · exact hmodify d _
    · exact (hmodify d _).trans (hmodify _ _)

end Relationships

/-! ## Names -/

/-- The second drawing has the names at other places and is the first one otherwise. -/
def Renames [Scalar α] (d d' : Drawing α) : Prop :=
  ∃ fs rs, d' = { d with features := fs, relationships := rs } ∧
    fs.map PlacedFeature.unnamed = d.features.map PlacedFeature.unnamed ∧
    rs.map RoutedRelationship.unnamed = d.relationships.map RoutedRelationship.unnamed

namespace Renames

variable [Scalar α] {d d' : Drawing α}

/-- Moving names keeps the classifiers. -/
lemma classifiers_eq (h : d.Renames d') : d'.classifiers = d.classifiers := by
  obtain ⟨fs, rs, rfl, -, -⟩ := h
  rfl

/-- Moving names keeps the sheet. -/
lemma sheet_eq (h : d.Renames d') : d'.sheet = d.sheet := by
  obtain ⟨fs, rs, rfl, -, -⟩ := h
  rfl

/-- Every feature is there before and after, with its name at another place. -/
lemma getElem?_features (h : d.Renames d') {i : ℕ} {f : PlacedFeature α}
    (hf : d'.features[i]? = some f) : ∃ f₀, d.features[i]? = some f₀ ∧ f₀.unnamed = f.unnamed := by
  obtain ⟨fs, rs, rfl, hfs, -⟩ := h
  exact getElem?_of_map_eq hfs.symm hf

/-- What does not depend on where names stand is the same of every relationship. -/
lemma map_relationships (h : d.Renames d') {γ : Type} {view : RoutedRelationship α → γ}
    (hview : ∀ r, view r.unnamed = view r) :
    d'.relationships.map view = d.relationships.map view := by
  obtain ⟨fs, rs, rfl, -, hrs⟩ := h
  have hviews := congrArg (List.map view) hrs
  rw [List.map_map, List.map_map] at hviews
  simpa only [Function.comp_def, hview] using hviews

/-- Every relationship is there before and after, with its name at another place. -/
lemma getElem?_relationships (h : d.Renames d') {i : ℕ} {r : RoutedRelationship α}
    (hr : d'.relationships[i]? = some r) :
    ∃ r₀, d.relationships[i]? = some r₀ ∧ r₀.unnamed = r.unnamed := by
  obtain ⟨fs, rs, rfl, -, hrs⟩ := h
  exact getElem?_of_map_eq hrs.symm hr

end Renames

/-- Naming everything changes nothing but where the names stand. -/
theorem renames_layoutLabels [Scalar α] (m : Composer α) (config : Config α) (d : Drawing α) :
    d.Renames ((d.layoutFeatureLabels m config).layoutRelationshipLabels m config) := by
  obtain ⟨fs, hd', hfs⟩ := refeatures_layoutFeatureLabels m config d
  obtain ⟨rs, hd'', hrs⟩ :=
    relates_layoutRelationshipLabels m config (d.layoutFeatureLabels m config)
  rw [hd'] at hd'' hrs
  rw [hd']
  exact ⟨fs, rs, hd'', hfs, hrs⟩

end Drawing

end DiagramLayout
