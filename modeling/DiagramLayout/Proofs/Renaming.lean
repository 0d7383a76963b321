import DiagramLayout.Proofs.OrderKeys

/-!
# Identifiers matter by identity and by the order of features only

A `Renaming` gives the diagram, classifiers, features and relationships other identifiers, and
references along with them. It suits a set if it keeps the identifiers of classifiers apart that
occur in the set, and the order of those of features, which decides between features with equal keys
in a compartment (`Renaming.Suits`). Then the renamed set is refused for the same reason, or has the
same records (`ElementSet.layout_rename`).

A relabeling of drawings has to keep the order of all features there are, and a renaming that suits
a set may not extend to one, as there may be more room between two identifiers than between their
replacements. So both drawings are obtained from one whose features have the numbers of their
identifiers in place of these: every way to replace such numbers without gaps by identifiers in the
same order extends to all numbers (`exists_strictMono_through`).
-/

namespace DiagramLayout

/-! ## Ascending numbers -/

/-- A map that has the elements of a list at their positions, and goes on in steps of one in front
of them and behind them. -/
def through : List ℤ → ℤ → ℤ
  | [], k => k
  | [a], k => a + k
  | a :: b :: rest, k => if k ≤ 0 then a + k else through (b :: rest) (k - 1)

lemma through_zero (a : ℤ) (rest : List ℤ) : through (a :: rest) 0 = a := by
  cases rest <;> simp [through]

/-- The element at a position is what the map has there. -/
lemma through_of_getElem? {xs : List ℤ} {i : ℕ} {a : ℤ} (h : xs[i]? = some a) :
    through xs i = a := by
  induction xs generalizing i with
  | nil => simp at h
  | cons first rest ih =>
    cases i with
    | zero =>
      rw [List.getElem?_cons_zero] at h
      rw [Nat.cast_zero, through_zero, Option.some.inj h]
    | succ i =>
      rw [List.getElem?_cons_succ] at h
      cases rest with
      | nil => simp at h
      | cons next rest =>
        have hpos : ¬ ((i + 1 : ℕ) : ℤ) ≤ 0 := by omega
        rw [through, if_neg hpos, Nat.cast_succ, add_sub_cancel_right, ih h]

/-- The map through ascending numbers ascends everywhere. -/
lemma strictMono_through {xs : List ℤ} (h : xs.Pairwise (· < ·)) : StrictMono (through xs) := by
  induction xs with
  | nil => exact strictMono_id
  | cons first rest ih =>
    cases rest with
    | nil => exact fun j k hjk => Int.add_lt_add_left hjk first
    | cons next rest =>
      obtain ⟨hfirst, hrest⟩ := List.pairwise_cons.mp h
      have hnext : first < through (next :: rest) 0 := by
        rw [through_zero]
        exact hfirst next List.mem_cons_self
      intro j k hjk
      rw [through, through]
      split_ifs with hj hk hk
      · omega
      · have hle := (ih hrest).monotone (show 0 ≤ k - 1 by omega)
        omega
      · omega
      · exact ih hrest (by omega)

/-- A map that keeps the order of finitely many numbers leads from one map that ascends everywhere
to another, if it may start from other numbers. -/
theorem exists_strictMono_through {f : ℤ → ℤ} (s : Finset ℤ)
    (hf : ∀ a ∈ s, ∀ b ∈ s, a < b → f a < f b) :
    ∃ r g g' : ℤ → ℤ, StrictMono g ∧ StrictMono g' ∧ ∀ a ∈ s, g (r a) = a ∧ g' (r a) = f a := by
  set xs := s.sort (· ≤ ·)
  have hmem {a : ℤ} : a ∈ xs ↔ a ∈ s := Finset.mem_sort _
  have hxs : xs.Pairwise (· < ·) := s.sortedLT_sort.pairwise
  have hmap : (xs.map f).Pairwise (· < ·) :=
    List.pairwise_map.mpr (hxs.imp_of_mem fun {a b} ha hb => hf a (hmem.mp ha) b (hmem.mp hb))
  refine ⟨fun a => xs.idxOf a, through xs, through (xs.map f), strictMono_through hxs,
    strictMono_through hmap, fun a ha => ?_⟩
  have hindex : xs[xs.idxOf a]? = some a := List.getElem?_idxOf (hmem.mpr ha)
  exact ⟨through_of_getElem? hindex, through_of_getElem? (by rw [List.getElem?_map, hindex]; rfl)⟩

/-! ## Renamings -/

/-- Other identifiers in the place of those of elements. -/
structure Renaming where
  diagram : RowId → RowId
  classifier : RowId → RowId
  feature : RowId → RowId
  relationship : RowId → RowId

section Elements

variable (ν : Renaming)

/-- The diagram with another identifier. -/
def Diagram.rename (d : Diagram) : Diagram := { d with id := ν.diagram d.id }

/-- The classifier with another identifier. -/
def Classifier.rename (c : Classifier) : Classifier := { c with id := ν.classifier c.id }

/-- The feature with another identifier of itself and of its owner. -/
def Feature.rename (f : Feature) : Feature :=
  { f with id := ν.feature f.id, classifierId := ν.classifier f.classifierId }

/-- The relationship with other identifiers of itself and of what it joins. -/
def Relationship.rename (r : Relationship) : Relationship :=
  { r with
    id := ν.relationship r.id
    fromClassifier := ν.classifier r.fromClassifier
    toClassifier := ν.classifier r.toClassifier
    fromFeature := r.fromFeature.map ν.feature
    toFeature := r.toFeature.map ν.feature }

/-- The set with other identifiers. -/
def ElementSet.rename (s : ElementSet) : ElementSet :=
  { s with
    diagram := s.diagram.rename ν
    classifiers := s.classifiers.map (Classifier.rename ν)
    features := s.features.map (Feature.rename ν)
    relationships := s.relationships.map (Relationship.rename ν) }

/-- The error with another identifier of what is not known. -/
def LayoutError.rename {α : Type} : LayoutError α → LayoutError α
  | .capacityExceeded error => .capacityExceeded error
  | .unknownClassifier id => .unknownClassifier (ν.classifier id)
  | .unknownFeature id => .unknownFeature (ν.feature id)
  | .invalidMetric metric value => .invalidMetric metric value

end Elements

namespace ElementSet

/-- The identifiers of classifiers that occur in the set, in classifiers and in references. -/
def classifierIds (s : ElementSet) : List RowId :=
  s.classifiers.map (·.id) ++ s.features.map (·.classifierId) ++
    s.relationships.flatMap fun r => [r.fromClassifier, r.toClassifier]

/-- The identifiers of features that occur in the set, in features and in references. -/
def featureIds (s : ElementSet) : List RowId :=
  s.features.map (·.id) ++
    s.relationships.flatMap fun r => r.fromFeature.toList ++ r.toFeature.toList

end ElementSet

/-- The ends of a relationship are among the identifiers that occur for classifiers. -/
lemma mem_classifierIds_of_end {s : ElementSet} {r : Relationship} (hr : r ∈ s.relationships)
    (id : RowId) (hid : id ∈ [r.fromClassifier, r.toClassifier]) : id ∈ s.classifierIds :=
  List.mem_append_right _ (List.mem_flatMap.mpr ⟨r, hr, hid⟩)

/-- The renaming keeps the identifiers apart that occur for classifiers, and keeps the order of
those that occur for features. -/
structure Renaming.Suits (ν : Renaming) (s : ElementSet) : Prop where
  classifier : ∀ a ∈ s.classifierIds, ∀ b ∈ s.classifierIds,
    ν.classifier a = ν.classifier b → a = b
  feature : ∀ a ∈ s.featureIds, ∀ b ∈ s.featureIds,
    a.value < b.value → (ν.feature a).value < (ν.feature b).value

/-- Identifiers of features that keep their order are kept apart. -/
lemma Renaming.Suits.eq_of_feature_eq {ν : Renaming} {s : ElementSet} (h : ν.Suits s)
    {a b : RowId} (ha : a ∈ s.featureIds) (hb : b ∈ s.featureIds)
    (heq : ν.feature a = ν.feature b) : a = b := by
  have hvalue : (ν.feature a).value = (ν.feature b).value := congrArg RowId.value heq
  obtain ⟨x⟩ := a
  obtain ⟨y⟩ := b
  rcases lt_trichotomy x y with hlt | rfl | hlt
  · exact absurd hvalue (h.feature _ ha _ hb hlt).ne
  · rfl
  · exact absurd hvalue (h.feature _ hb _ ha hlt).ne'

/-! ## References -/

/-- A search among renamed elements finds what the search among the elements finds, if the
identifier that is searched for is kept apart from those of the elements. -/
lemma findIdx?_rename {β : Type} (idOf : β → RowId) {g : β → β} {φ : RowId → RowId}
    (hg : ∀ x, idOf (g x) = φ (idOf x)) {xs : List β} {id : RowId}
    (hφ : ∀ x ∈ xs, φ (idOf x) = φ id → idOf x = id) :
    (xs.map g).findIdx? (idOf · == φ id) = xs.findIdx? (idOf · == id) := by
  rw [List.findIdx?_map]
  induction xs with
  | nil => rfl
  | cons x xs ih =>
    have hx : (idOf (g x) == φ id) = (idOf x == id) := by
      rw [hg, Bool.eq_iff_iff, beq_iff_eq, beq_iff_eq]
      exact ⟨hφ x List.mem_cons_self, congrArg φ⟩
    rw [List.findIdx?_cons, List.findIdx?_cons, Function.comp_apply, hx,
      ih fun y hy => hφ y (List.mem_cons_of_mem x hy)]

section References

variable {α : Type} {ν : Renaming} {s : ElementSet} (h : ν.Suits s)
include h

lemma classifierPosition_rename {id : RowId} (hid : id ∈ s.classifierIds) :
    (s.rename ν).classifierPosition (ν.classifier id) = s.classifierPosition id := by
  refine findIdx?_rename Classifier.id (fun _ => rfl) fun c hc heq => h.classifier _ ?_ _ hid heq
  exact List.mem_append_left _ (List.mem_append_left _ (List.mem_map_of_mem hc))

lemma featurePosition_rename {id : RowId} (hid : id ∈ s.featureIds) :
    (s.rename ν).featurePosition (ν.feature id) = s.featurePosition id := by
  refine findIdx?_rename Feature.id (fun _ => rfl) fun f hf heq => h.eq_of_feature_eq ?_ hid heq
  exact List.mem_append_left _ (List.mem_map_of_mem hf)

/-- A renamed reference to a classifier leads to the same position, or is unknown by its other
identifier. -/
lemma resolveClassifier_rename {id : RowId} (hid : id ∈ s.classifierIds) :
    resolveClassifier (α := α) (s.rename ν) (ν.classifier id) =
      (resolveClassifier s id).mapError (LayoutError.rename ν) := by
  unfold resolveClassifier
  rw [classifierPosition_rename h hid]
  cases s.classifierPosition id <;> rfl

/-- A renamed reference to a feature leads to the same position, or is unknown by its other
identifier. -/
lemma resolveFeature?_rename {reference : Option RowId}
    (hreference : ∀ id ∈ reference, id ∈ s.featureIds) :
    resolveFeature? (α := α) (s.rename ν) (reference.map ν.feature) =
      (resolveFeature? s reference).mapError (LayoutError.rename ν) := by
  cases reference with
  | none => rfl
  | some id =>
    rw [Option.map_some, resolveFeature?, resolveFeature?, resolveFeature, resolveFeature,
      featurePosition_rename h (hreference id rfl)]
    cases s.featurePosition id <;> rfl

end References

/-! ## Records -/

section Records

variable {α : Type} (ν : Renaming)

/-- The record of the renamed feature. -/
def PlacedFeature.rename (f : PlacedFeature α) : PlacedFeature α :=
  { f with element := f.element.rename ν }

/-- The record of the renamed relationship. -/
def RoutedRelationship.rename (r : RoutedRelationship α) : RoutedRelationship α :=
  { r with element := r.element.rename ν }

/-- The record of the renamed classifier. -/
def PlacedClassifier.rename (c : PlacedClassifier α) : PlacedClassifier α :=
  { c with element := c.element.rename ν }

/-- The drawing with the records of the renamed elements. -/
def Drawing.rename (d : Drawing α) : Drawing α :=
  { d with
    diagram := d.diagram.rename ν
    classifiers := d.classifiers.map (PlacedClassifier.rename ν)
    features := d.features.map (PlacedFeature.rename ν)
    relationships := d.relationships.map (RoutedRelationship.rename ν) }

end Records

section Preparing

variable {α : Type} [Scalar α] {ν : Renaming} {s : ElementSet} (h : ν.Suits s)
include h

/-- A renamed feature is recorded as the feature is, or has no owner just as it has none. -/
lemma ofElement_feature_rename {f : Feature} (hf : f ∈ s.features) :
    PlacedFeature.ofElement (α := α) (s.rename ν) (f.rename ν) =
      PlacedFeature.rename ν <$>
        (PlacedFeature.ofElement s f).mapError (LayoutError.rename ν) := by
  have howner : f.classifierId ∈ s.classifierIds :=
    List.mem_append_left _ (List.mem_append_right _ (List.mem_map_of_mem hf))
  unfold PlacedFeature.ofElement
  rw [mapError_bind, map_bind, Feature.rename, resolveClassifier_rename h howner]
  rfl

/-- A renamed relationship is recorded as the relationship is, or dangles as it does. -/
lemma ofElement_relationship_rename {r : Relationship} (hr : r ∈ s.relationships) :
    RoutedRelationship.ofElement (α := α) (s.rename ν) (r.rename ν) =
      RoutedRelationship.rename ν <$>
        (RoutedRelationship.ofElement s r).mapError (LayoutError.rename ν) := by
  have hends := mem_classifierIds_of_end hr
  have hfeatures : ∀ id ∈ r.fromFeature.toList ++ r.toFeature.toList, id ∈ s.featureIds :=
    fun id hid => List.mem_append_right _ (List.mem_flatMap.mpr ⟨r, hr, hid⟩)
  have hfrom := resolveClassifier_rename (α := α) h (hends r.fromClassifier (by simp))
  have hto := resolveClassifier_rename (α := α) h (hends r.toClassifier (by simp))
  have hstart := resolveFeature?_rename (α := α) h fun id (hid : id ∈ r.fromFeature) =>
    hfeatures id (by simp [Option.mem_def.mp hid])
  have hend := resolveFeature?_rename (α := α) h fun id (hid : id ∈ r.toFeature) =>
    hfeatures id (by simp [Option.mem_def.mp hid])
  unfold RoutedRelationship.ofElement
  simp only [mapError_bind, map_bind, ← hfrom, ← hto, ← hstart, ← hend]
  rfl

omit [Scalar α] in
/-- Classifiers enclose each other as before. -/
lemma nesting_rename (passes : ℕ) :
    Nesting.ofElements (s.rename ν) passes = Nesting.ofElements s passes := by
  have hedges : Nesting.edgesOf (s.rename ν) = Nesting.edgesOf s := by
    unfold Nesting.edgesOf
    have hkept : (s.rename ν).relationships.filter (·.kind.isContainment) =
        (s.relationships.filter (·.kind.isContainment)).map (Relationship.rename ν) := by
      rw [ElementSet.rename, List.filter_map]
      rfl
    rw [hkept, List.filterMap_map]
    refine List.filterMap_congr fun r hr => ?_
    obtain ⟨hmem, -⟩ := List.mem_filter.mp hr
    have hends := mem_classifierIds_of_end hmem
    have hfrom := classifierPosition_rename h (hends r.fromClassifier (by simp))
    have hto := classifierPosition_rename h (hends r.toClassifier (by simp))
    rw [Function.comp_apply, Relationship.rename, hfrom, hto]
  rw [Nesting.ofElements, Nesting.ofElements, hedges, ElementSet.rename, List.length_map]

/-- What is checked and resolved is renamed along with the set. -/
lemma prepare_rename (config : Config α) (bounds : Rect α) :
    (s.rename ν).prepare config bounds =
      Drawing.rename ν <$> (s.prepare config bounds).mapError (LayoutError.rename ν) := by
  have hvalid : config.validate.mapError (LayoutError.rename ν) = config.validate := by
    unfold Config.validate
    split <;> rfl
  have hlimits : ((s.rename ν).checkLimits config.limits).mapError
        (LayoutError.capacityExceeded (α := α)) =
      ((s.checkLimits config.limits).mapError LayoutError.capacityExceeded).mapError
        (LayoutError.rename ν) := by
    have hcounts : (s.rename ν).checkLimits config.limits = s.checkLimits config.limits := by
      unfold ElementSet.checkLimits ElementSet.loads ElementSet.rename
      rw [List.length_map, List.length_map, List.length_map]
    rw [hcounts]
    cases s.checkLimits config.limits <;> rfl
  have hfeatures : (s.rename ν).features.mapM (PlacedFeature.ofElement (α := α) (s.rename ν)) =
      List.map (PlacedFeature.rename ν) <$>
        (s.features.mapM (PlacedFeature.ofElement s)).mapError (LayoutError.rename ν) := by
    rw [mapError_mapM]
    exact mapM_map_of_commutes fun f hf => ofElement_feature_rename h hf
  have hrelationships : (s.rename ν).relationships.mapM
        (RoutedRelationship.ofElement (α := α) (s.rename ν)) =
      List.map (RoutedRelationship.rename ν) <$>
        (s.relationships.mapM (RoutedRelationship.ofElement s)).mapError
          (LayoutError.rename ν) := by
    rw [mapError_mapM]
    exact mapM_map_of_commutes fun r hr => ofElement_relationship_rename h hr
  unfold ElementSet.prepare Drawing.ofElements
  simp only [mapError_bind, hvalid, ← hlimits, hfeatures, hrelationships, map_bind,
    bind_map_left, nesting_rename h]
  have hplaced : (s.rename ν).classifiers.map (PlacedClassifier.mk (α := α) · .unplaced) =
      (s.classifiers.map (PlacedClassifier.mk · .unplaced)).map (PlacedClassifier.rename ν) := by
    rw [ElementSet.rename, List.map_map, List.map_map]
    rfl
  simp only [hplaced]
  rfl

end Preparing

/-! ## Drawings with other identifiers -/

/-- The relabeling that renames and gives features identifiers in the order of theirs. -/
def Relabeling.ofIds (ν : Renaming) {g : ℤ → ℤ} (hg : StrictMono g) : Relabeling where
  diagram := Diagram.rename ν
  classifier := Classifier.rename ν
  feature f := { f.rename ν with id := ⟨g f.id.value⟩ }
  relationship := Relationship.rename ν
  diagram_kind _ := rfl
  classifier_kind _ := rfl
  classifier_name _ := rfl
  classifier_grayOut _ := rfl
  feature_kind _ := rfl
  feature_key _ := rfl
  feature_value _ := rfl
  feature_listKey _ := rfl
  feature_order e f := by
    have hids : decide (g e.id.value ≤ g f.id.value) = decide (e.id.value ≤ f.id.value) :=
      decide_eq_decide.mpr hg.le_iff_le
    unfold entryAtMost
    dsimp only [Feature.rename]
    rw [hids]
    rfl
  relationship_kind _ := rfl
  relationship_name _ := rfl

/-- A relabeling of identifiers leaves the keys as they are. -/
lemma Relabeling.rekeys_ofIds (ν : Renaming) {g : ℤ → ℤ} (hg : StrictMono g) :
    (Relabeling.ofIds ν hg).Rekeys id id id :=
  ⟨fun _ => rfl, fun _ => rfl, fun _ => rfl⟩

/-- The renaming that gives everything the identifier it has. -/
def Renaming.same : Renaming := ⟨id, id, id, id⟩

namespace Drawing

variable {α : Type}

/-- The drawing with other numbers as identifiers of its features. -/
def renumber (r : ℤ → ℤ) (d : Drawing α) : Drawing α :=
  { d with
    features := d.features.map fun f =>
      { f with element := { f.element with id := ⟨r f.element.id.value⟩ } } }

/-- A drawing is renamed by relabeling its renumbered features. -/
lemma relabel_renumber {ν : Renaming} {r g : ℤ → ℤ} (hg : StrictMono g) {d : Drawing α}
    (h : ∀ f ∈ d.features, g (r f.element.id.value) = (ν.feature f.element.id).value) :
    (d.renumber r).relabel (.ofIds ν hg) d.sheet.grid.x d.sheet.grid.y = d.rename ν := by
  have hfeatures : (d.renumber r).features.map (PlacedFeature.relabel (.ofIds ν hg)) =
      d.features.map (PlacedFeature.rename ν) := by
    rw [renumber, List.map_map]
    refine List.map_congr_left fun f hf => ?_
    simp [PlacedFeature.relabel, PlacedFeature.rename, Relabeling.ofIds, Feature.rename, h f hf]
  unfold relabel rename
  rw [hfeatures]
  rfl

/-- Nothing is renamed by giving everything the identifier it has. -/
lemma rename_same (d : Drawing α) : d.rename .same = d := by
  have hclassifiers : d.classifiers.map (PlacedClassifier.rename .same) = d.classifiers :=
    List.map_id d.classifiers
  have hfeatures : d.features.map (PlacedFeature.rename .same) = d.features :=
    List.map_id d.features
  have hrelationships : d.relationships.map (RoutedRelationship.rename .same) =
      d.relationships := by
    refine List.map_id'' (fun r => ?_) _
    simp [RoutedRelationship.rename, Relationship.rename, Renaming.same]
  rw [rename, hclassifiers, hfeatures, hrelationships]
  rfl

/-- The second drawing has the records of the first one, that is their boxes, routes, visibilities
and positions, for the renamed elements. -/
structure RenamedRecords (ν : Renaming) (d d' : Drawing α) : Prop where
  diagram : d'.diagram = d.diagram.rename ν
  classifiers : d'.classifiers = d.classifiers.map (PlacedClassifier.rename ν)
  features : d'.features = d.features.map (PlacedFeature.rename ν)
  relationships : d'.relationships = d.relationships.map (RoutedRelationship.rename ν)

/-- Two relabelings of a drawing have records of elements that are renamed from one to the other. -/
lemma renamedRecords_relabel {ν : Renaming} {g g' : ℤ → ℤ} (hg : StrictMono g)
    (hg' : StrictMono g') (x y x' y' : Scale α) {d : Drawing α}
    (h : ∀ f ∈ d.features, g' f.element.id.value = (ν.feature ⟨g f.element.id.value⟩).value) :
    (d.relabel (.ofIds .same hg) x y).RenamedRecords ν (d.relabel (.ofIds ν hg') x' y') where
  diagram := rfl
  classifiers := by
    rw [relabel_classifiers, relabel_classifiers, List.map_map]
    rfl
  features := by
    rw [relabel_features, relabel_features, List.map_map]
    refine List.map_congr_left fun f hf => ?_
    simp [PlacedFeature.relabel, PlacedFeature.rename, Relabeling.ofIds, Feature.rename, h f hf,
      Renaming.same]
  relationships := by
    rw [relabel_relationships, relabel_relationships, List.map_map]
    refine List.map_congr_left fun r _ => ?_
    simp [RoutedRelationship.relabel, RoutedRelationship.rename, Relabeling.ofIds,
      Relationship.rename, Renaming.same]

variable [Scalar α]

/-- A relabeling of identifiers replaces no keys, so the layout is relabeled along. -/
lemma Unregistered.complete_ofIds {d : Drawing α} (hd : d.Unregistered) (m : Composer α)
    (config : Config α) (ν : Renaming) {g : ℤ → ℤ} (hg : StrictMono g) :
    ∃ x y, (d.relabel (.ofIds ν hg) d.sheet.grid.x d.sheet.grid.y).complete m config =
      relabel (.ofIds ν hg) x y <$> d.complete m config :=
  hd.complete_relabel m config (Relabeling.rekeys_ofIds ν hg) (fun _ _ _ _ => id)
    (fun _ _ _ _ => id) fun _ _ _ _ => id

/-- A layout on a sheet without keys is the layout of the renamed drawing, apart from identifiers, if
those of features keep their order. -/
theorem Unregistered.complete_rename {d : Drawing α} (hd : d.Unregistered) (m : Composer α)
    (config : Config α) {ν : Renaming}
    (hν : ∀ e ∈ d.features, ∀ f ∈ d.features, e.element.id.value < f.element.id.value →
      (ν.feature e.element.id).value < (ν.feature f.element.id).value) :
    ((d.rename ν).complete m config).defined = (d.complete m config).defined ∧
      (d.complete m config).value.RenamedRecords ν ((d.rename ν).complete m config).value := by
  obtain ⟨r, g, g', hg, hg', hthrough⟩ :
      ∃ r g g' : ℤ → ℤ, StrictMono g ∧ StrictMono g' ∧
        ∀ a ∈ (d.features.map (·.element.id.value)).toFinset,
          g (r a) = a ∧ g' (r a) = (ν.feature ⟨a⟩).value := by
    refine exists_strictMono_through _ fun a ha b hb => ?_
    rw [List.mem_toFinset] at ha hb
    obtain ⟨e, he, rfl⟩ := List.mem_map.mp ha
    obtain ⟨f, hf, rfl⟩ := List.mem_map.mp hb
    exact hν e he f hf
  replace hthrough : ∀ f ∈ d.features, g (r f.element.id.value) = f.element.id.value ∧
      g' (r f.element.id.value) = (ν.feature f.element.id).value := fun f hf =>
    hthrough _ (List.mem_toFinset.mpr (List.mem_map_of_mem hf))
  have hrenumbered : (d.renumber r).Unregistered := hd
  obtain ⟨x, y, hbefore⟩ := hrenumbered.complete_ofIds m config .same hg
  obtain ⟨x', y', hafter⟩ := hrenumbered.complete_ofIds m config ν hg'
  have hsheet : (d.renumber r).sheet = d.sheet := rfl
  rw [hsheet, relabel_renumber hg fun f hf => (hthrough f hf).1, rename_same] at hbefore
  rw [hsheet, relabel_renumber hg' fun f hf => (hthrough f hf).2] at hafter
  rw [hbefore, hafter, Guarded.defined_map, Guarded.defined_map, Guarded.value_map,
    Guarded.value_map]
  refine ⟨rfl, renamedRecords_relabel hg hg' x y x' y' fun f hf => ?_⟩
  -- A feature of the finished drawing still has the number that its element was given.
  have hkept := (keepsRecords_complete m config (d.renumber r)).features
  have horigin : f.origin ∈ (d.renumber r).features.map PlacedFeature.origin :=
    hkept ▸ List.mem_map_of_mem hf
  rw [renumber, List.map_map] at horigin
  obtain ⟨f₀, hf₀, hsame⟩ := List.mem_map.mp horigin
  obtain ⟨helement, -⟩ := Prod.mk.inj hsame
  obtain ⟨hback, hrenamed⟩ := hthrough f₀ hf₀
  rw [← helement, hrenamed, hback]

end Drawing

namespace ElementSet

variable {α : Type} [Scalar α]

/-- Identifiers matter by identity, and those of features by their order: a set with other
identifiers is refused for the same reason, told with the other identifier, or has the same
layout. -/
theorem layout_rename (m : Composer α) (config : Config α) (bounds : Rect α) {ν : Renaming}
    {s : ElementSet} (h : ν.Suits s) :
    SameOutcome (fun before after => after.defined = before.defined ∧
        before.value.RenamedRecords ν after.value)
      ((s.layout m config bounds).mapError (LayoutError.rename ν))
      ((s.rename ν).layout m config bounds) := by
  rw [layout, layout, prepare_rename h]
  cases hprepare : s.prepare config bounds with
  | error e => exact .error (e.rename ν)
  | ok d =>
    have hstart := ofElements_of_prepare hprepare
    refine .ok ((Drawing.unregistered_of_ofElements hstart).complete_rename m config ?_)
    intro e he f hf
    have hids {p : PlacedFeature α} (hp : p ∈ d.features) : p.element.id ∈ s.featureIds := by
      refine List.mem_append_left _ (List.mem_map_of_mem ?_)
      rw [← (Drawing.recordedIn_of_ofElements hstart).features]
      exact List.mem_map_of_mem hp
    exact h.feature _ (hids he) _ (hids hf)

end ElementSet

/-- Two objects change their identifiers, features get identifiers further apart, and relationships
all get one. -/
def swapped : Renaming where
  diagram _ := ⟨-7⟩
  classifier id := ⟨3 - id.value⟩
  feature id := ⟨id.value * id.value⟩
  relationship _ := ⟨0⟩

/-- Two objects and their messages have the same layout with other identifiers. -/
theorem layout_rename_exchange :
    swapped.Suits exchange ∧
      ∃ before after, exchange.layout (.ofConfig .standard) .standard exchangeBounds = .ok before ∧
        (exchange.rename swapped).layout (.ofConfig .standard) .standard exchangeBounds =
          .ok after ∧
        before.value.RenamedRecords swapped after.value := by
  have hsuits : swapped.Suits exchange := ⟨by decide, by decide⟩
  have hprepare : exchange.prepare .standard exchangeBounds = .ok exchangeStart := by
    decide +kernel
  have hbefore := ElementSet.layout_eq_ok hprepare (.ofConfig .standard)
  obtain ⟨after, hafter, -, hrenamed⟩ := (ElementSet.layout_rename (.ofConfig .standard) .standard
    exchangeBounds hsuits).exists_of_eq_ok (mapError_eq_ok_iff.mpr hbefore)
  exact ⟨hsuits, _, after, hbefore, hafter, hrenamed⟩

end DiagramLayout
