import DiagramLayout.Proofs.Guards
import DiagramLayout.Proofs.Records
import DiagramLayout.Scalar.Binary64

/-!
# When there is no layout

A set is refused for the first thing that is wrong with it: a metric of the configuration, the
number of its elements, the owner of a feature, an end of a relationship. `ElementSet.Refused` lists
these faults in their order, and `ElementSet.layout_refusal` says that there is no layout exactly if
there is one of them, and which one is told. A set that is not refused has a layout with one record
for each element in their order, and every position in a record is that of the first element with
the identifier that is referred to (`ElementSet.RecordedIn`).

All this holds over any coordinates. Whether a layout trips a guard depends on them: over exact
numbers none does, and `packageInPackage_layout_undefined` is a layout over floating point that
does, because the right edge of the sheet overflows.
-/

namespace DiagramLayout

/-! ## Traversals that may fail -/

section Traversal

variable {β γ ε : Type}

/-- A sequence of two computations succeeds if both do. -/
lemma bind_eq_ok_iff {x : Except ε β} {g : β → Except ε γ} {c : γ} :
    x >>= g = .ok c ↔ ∃ b, x = .ok b ∧ g b = .ok c := by
  cases x with
  | error e =>
    constructor
    · intro h
      cases h
    · rintro ⟨b, h, -⟩
      cases h
  | ok b =>
    constructor
    · intro h
      exact ⟨b, rfl, h⟩
    · rintro ⟨b', h, hg⟩
      cases h
      exact hg

/-- A sequence of two computations fails as the first one does, or else as the second one does. -/
lemma bind_eq_error_iff {x : Except ε β} {g : β → Except ε γ} {e : ε} :
    x >>= g = .error e ↔ x = .error e ∨ ∃ b, x = .ok b ∧ g b = .error e := by
  cases x with
  | error e' =>
    constructor
    · intro h
      cases h
      exact Or.inl rfl
    · rintro (h | ⟨b, h, -⟩)
      · cases h
        rfl
      · cases h
  | ok b =>
    constructor
    · intro h
      exact Or.inr ⟨b, rfl, h⟩
    · rintro (h | ⟨b', h, hg⟩)
      · cases h
      · cases h
        exact hg

/-- A failure told in other words is a failure. -/
lemma mapError_eq_error_iff {δ : Type} {x : Except ε β} {g : ε → δ} {e : δ} :
    x.mapError g = .error e ↔ ∃ e', x = .error e' ∧ e = g e' := by
  cases x <;> simp [Except.mapError, eq_comm]

/-- A success does not depend on how failures are told. -/
lemma mapError_eq_ok_iff {δ : Type} {x : Except ε β} {g : ε → δ} {b : β} :
    x.mapError g = .ok b ↔ x = .ok b := by
  cases x <;> simp [Except.mapError]

/-- A failure is told in other words wherever it occurs. -/
lemma mapError_bind {δ : Type} (w : ε → δ) (x : Except ε β) (k : β → Except ε γ) :
    (x >>= k).mapError w = x.mapError w >>= fun b => (k b).mapError w := by
  cases x <;> rfl

/-- A traversal fails in other words if each of its steps does. -/
lemma mapError_mapM {δ : Type} (w : ε → δ) (k : β → Except ε γ) (xs : List β) :
    (xs.mapM k).mapError w = xs.mapM fun x => (k x).mapError w := by
  induction xs with
  | nil => rfl
  | cons x xs ih =>
    simp only [List.mapM_cons, mapError_bind, ih]
    rfl

variable {f : β → Except ε γ}

/-- A traversal succeeds exactly with the results of its elements. -/
lemma mapM_eq_ok_iff {xs : List β} {zs : List γ} :
    xs.mapM f = .ok zs ↔ List.Forall₂ (fun x z => f x = .ok z) xs zs := by
  induction xs generalizing zs with
  | nil =>
    rw [List.mapM_nil, List.forall₂_nil_left_iff]
    exact ⟨fun h => (Except.ok.inj h).symm, fun h => h ▸ rfl⟩
  | cons x xs ih =>
    rw [List.mapM_cons, List.forall₂_cons_left_iff, bind_eq_ok_iff]
    constructor
    · rintro ⟨z, hx, hrest⟩
      obtain ⟨zs', hxs, hcons⟩ := bind_eq_ok_iff.mp hrest
      exact ⟨z, zs', hx, ih.mp hxs, (Except.ok.inj hcons).symm⟩
    · rintro ⟨z, zs', hx, hxs, rfl⟩
      exact ⟨z, hx, bind_eq_ok_iff.mpr ⟨zs', ih.mpr hxs, rfl⟩⟩

/-- Every result of a traversal is that of an element. -/
lemma exists_of_mem_mapM {xs : List β} {zs : List γ} (h : xs.mapM f = .ok zs) {z : γ}
    (hz : z ∈ zs) : ∃ x ∈ xs, f x = .ok z := by
  have hall := mapM_eq_ok_iff.mp h
  clear h
  induction hall with
  | nil => cases hz
  | cons hx _ ih =>
    rcases List.mem_cons.mp hz with rfl | hz
    · exact ⟨_, List.mem_cons_self, hx⟩
    · obtain ⟨x, hmem, hx⟩ := ih hz
      exact ⟨x, List.mem_cons_of_mem _ hmem, hx⟩

/-- Results that show the elements they come from show them in their order. -/
lemma map_of_mapM {xs : List β} {zs : List γ} (h : xs.mapM f = .ok zs) {view : γ → β}
    (hview : ∀ x z, f x = .ok z → view z = x) : zs.map view = xs := by
  have hall := mapM_eq_ok_iff.mp h
  clear h
  induction hall with
  | nil => rfl
  | cons hx _ ih => rw [List.map_cons, hview _ _ hx, ih]

/-- A traversal succeeds exactly if every element does. -/
lemma exists_mapM_iff {xs : List β} :
    (∃ zs, xs.mapM f = .ok zs) ↔ ∀ x ∈ xs, ∃ z, f x = .ok z := by
  simp only [mapM_eq_ok_iff]
  induction xs with
  | nil => simp
  | cons x xs ih =>
    rw [List.forall_mem_cons, ← ih]
    constructor
    · rintro ⟨zs, h⟩
      obtain ⟨z, zs, hx, hxs, -⟩ := List.forall₂_cons_left_iff.mp h
      exact ⟨⟨z, hx⟩, zs, hxs⟩
    · rintro ⟨⟨z, hx⟩, zs, hxs⟩
      exact ⟨z :: zs, .cons hx hxs⟩

/-- A traversal fails exactly as the first element does that fails. -/
lemma mapM_eq_error_iff {xs : List β} {e : ε} :
    xs.mapM f = .error e ↔ ∃ before x after, xs = before ++ x :: after ∧
      (∀ y ∈ before, ∃ z, f y = .ok z) ∧ f x = .error e := by
  induction xs with
  | nil =>
    constructor
    · intro h
      cases h
    · rintro ⟨before, x, after, h, -⟩
      simp at h
  | cons x xs ih =>
    rw [List.mapM_cons, bind_eq_error_iff]
    constructor
    · rintro (hx | ⟨z, hx, hrest⟩)
      · exact ⟨[], x, xs, rfl, by simp, hx⟩
      · obtain hxs | ⟨zs, -, hcons⟩ := bind_eq_error_iff.mp hrest
        · obtain ⟨before, y, after, rfl, hbefore, hy⟩ := ih.mp hxs
          exact ⟨x :: before, y, after, rfl, by simpa using ⟨⟨z, hx⟩, hbefore⟩, hy⟩
        · cases hcons
    · rintro ⟨before, y, after, hsplit, hbefore, hy⟩
      rcases List.cons_eq_append_iff.mp hsplit with ⟨rfl, hcons⟩ | ⟨before, rfl, rfl⟩
      · obtain ⟨rfl, rfl⟩ := List.cons.inj hcons
        exact Or.inl hy
      · obtain ⟨z, hx⟩ := hbefore x List.mem_cons_self
        have hxs := ih.mpr ⟨before, y, after, rfl,
          fun y hy => hbefore y (List.mem_cons_of_mem x hy), hy⟩
        exact Or.inr ⟨z, hx, bind_eq_error_iff.mpr (Or.inl hxs)⟩

end Traversal

/-! ## Outcomes -/

/-- Two computations that both fail with the same error, or both succeed, with related results. -/
inductive SameOutcome {ε β γ : Type} (R : β → γ → Prop) : Except ε β → Except ε γ → Prop
  | error (e : ε) : SameOutcome R (.error e) (.error e)
  | ok {b : β} {c : γ} (h : R b c) : SameOutcome R (.ok b) (.ok c)

/-- If the first computation succeeds, so does the second one, with a related result. -/
lemma SameOutcome.exists_of_eq_ok {ε β γ : Type} {R : β → γ → Prop} {x : Except ε β}
    {y : Except ε γ} (h : SameOutcome R x y) {b : β} (hx : x = .ok b) :
    ∃ c, y = .ok c ∧ R b c := by
  cases h with
  | error e => cases hx
  | ok h =>
    rw [← Except.ok.inj hx]
    exact ⟨_, rfl, h⟩

/-! ## References -/

/-- Position `i` is that of the first element of a list with an identifier. -/
def IsFirst {β : Type} (idOf : β → RowId) (xs : List β) (id : RowId) (i : ℕ) : Prop :=
  ∃ h : i < xs.length, idOf xs[i] = id ∧ ∀ j (hj : j < i), idOf xs[j] ≠ id

namespace ElementSet

/-- Some classifier of the set bears the identifier. -/
def HasClassifier (s : ElementSet) (id : RowId) : Prop := ∃ c ∈ s.classifiers, c.id = id

/-- Some feature of the set bears the identifier. -/
def HasFeature (s : ElementSet) (id : RowId) : Prop := ∃ f ∈ s.features, f.id = id

variable {α : Type} {s : ElementSet}

/-- What a search by identifier finds is the first element that bears it. -/
lemma findIdx?_eq_some_iff {β : Type} {idOf : β → RowId} {xs : List β} {id : RowId} {i : ℕ} :
    xs.findIdx? (fun x => idOf x == id) = some i ↔ IsFirst idOf xs id i := by
  simp only [List.findIdx?_eq_some_iff_getElem, beq_iff_eq, IsFirst, ne_eq]

/-- A search by identifier finds nothing if no element bears it. -/
lemma findIdx?_eq_none_iff {β : Type} {idOf : β → RowId} {xs : List β} {id : RowId} :
    xs.findIdx? (fun x => idOf x == id) = none ↔ ¬ ∃ x ∈ xs, idOf x = id := by
  simp [List.findIdx?_eq_none_iff]

/-- The reference of a classifier leads to the first classifier with the identifier. -/
lemma resolveClassifier_eq_ok_iff {id : RowId} {i : ℕ} :
    resolveClassifier (α := α) s id = .ok i ↔ IsFirst Classifier.id s.classifiers id i := by
  rw [← findIdx?_eq_some_iff]
  change resolveClassifier s id = .ok i ↔ s.classifierPosition id = some i
  unfold resolveClassifier
  cases s.classifierPosition id <;> simp

/-- The reference of a classifier leads nowhere exactly if no classifier bears the identifier. -/
lemma resolveClassifier_eq_error_iff {id : RowId} {e : LayoutError α} :
    resolveClassifier s id = .error e ↔ ¬ s.HasClassifier id ∧ e = .unknownClassifier id := by
  rw [HasClassifier, ← findIdx?_eq_none_iff]
  change _ ↔ s.classifierPosition id = none ∧ _
  unfold resolveClassifier
  cases s.classifierPosition id <;> simp [eq_comm]

/-- The reference of a feature leads to the first feature with the identifier. -/
lemma resolveFeature_eq_ok_iff {id : RowId} {i : ℕ} :
    resolveFeature (α := α) s id = .ok i ↔ IsFirst Feature.id s.features id i := by
  rw [← findIdx?_eq_some_iff]
  change resolveFeature s id = .ok i ↔ s.featurePosition id = some i
  unfold resolveFeature
  cases s.featurePosition id <;> simp

/-- The reference of a feature leads nowhere exactly if no feature bears the identifier. -/
lemma resolveFeature_eq_error_iff {id : RowId} {e : LayoutError α} :
    resolveFeature s id = .error e ↔ ¬ s.HasFeature id ∧ e = .unknownFeature id := by
  rw [HasFeature, ← findIdx?_eq_none_iff]
  change _ ↔ s.featurePosition id = none ∧ _
  unfold resolveFeature
  cases s.featurePosition id <;> simp [eq_comm]

/-- An end at no feature stays at none, any other is resolved. -/
lemma resolveFeature?_eq_ok_iff {id : Option RowId} {i : Option ℕ} :
    resolveFeature? (α := α) s id = .ok i ↔ Option.Rel (IsFirst Feature.id s.features) id i := by
  cases id with
  | none =>
    cases i <;> simp [resolveFeature?]
  | some id =>
    change some <$> resolveFeature s id = .ok i ↔ _
    constructor
    · intro h
      cases hid : resolveFeature (α := α) s id with
      | error e =>
        rw [hid] at h
        cases h
      | ok j =>
        rw [hid] at h
        cases h
        exact Option.Rel.some (resolveFeature_eq_ok_iff.mp hid)
    · rintro (h | _)
      rw [resolveFeature_eq_ok_iff.mpr h]
      rfl

/-- An end fails to resolve exactly if it names a feature that the set does not have. -/
lemma resolveFeature?_eq_error_iff {id : Option RowId} {e : LayoutError α} :
    resolveFeature? s id = .error e ↔
      ∃ x, id = some x ∧ ¬ s.HasFeature x ∧ e = .unknownFeature x := by
  cases id with
  | none => simp [resolveFeature?]
  | some id =>
    simp only [Option.some.injEq, ↓existsAndEq, true_and]
    rw [← resolveFeature_eq_error_iff]
    change some <$> resolveFeature s id = .error e ↔ _
    cases resolveFeature (α := α) s id <;> simp

/-! ## Faults -/

/-- Every reference of a relationship leads somewhere. -/
structure Resolves (s : ElementSet) (r : Relationship) : Prop where
  source : s.HasClassifier r.fromClassifier
  target : s.HasClassifier r.toClassifier
  sourceFeature : ∀ id, r.fromFeature = some id → s.HasFeature id
  targetFeature : ∀ id, r.toFeature = some id → s.HasFeature id

/-- What is told about a relationship whose references do not all lead somewhere: the first of them,
with the classifiers before the features and the start before the end. -/
inductive Dangling (s : ElementSet) (r : Relationship) : LayoutError α → Prop
  | source (h : ¬ s.HasClassifier r.fromClassifier) :
      Dangling s r (.unknownClassifier r.fromClassifier)
  | target (hsource : s.HasClassifier r.fromClassifier) (h : ¬ s.HasClassifier r.toClassifier) :
      Dangling s r (.unknownClassifier r.toClassifier)
  | sourceFeature {id : RowId} (hsource : s.HasClassifier r.fromClassifier)
      (htarget : s.HasClassifier r.toClassifier) (hid : r.fromFeature = some id)
      (h : ¬ s.HasFeature id) : Dangling s r (.unknownFeature id)
  | targetFeature {id : RowId} (hsource : s.HasClassifier r.fromClassifier)
      (htarget : s.HasClassifier r.toClassifier)
      (hstart : ∀ id, r.fromFeature = some id → s.HasFeature id) (hid : r.toFeature = some id)
      (h : ¬ s.HasFeature id) : Dangling s r (.unknownFeature id)

/-- The set keeps to the limits. -/
structure KeepsTo (s : ElementSet) (limits : Limits) : Prop where
  classifiers : s.classifiers.length ≤ limits.classifiers
  features : s.features.length ≤ limits.features
  relationships : s.relationships.length ≤ limits.relationships

/-- What is told about a set that there is no layout of. Each fault is told only in the absence of
those before it. -/
inductive Refused [Scalar α] (config : Config α) (s : ElementSet) : LayoutError α → Prop
  | metric {e : LayoutError α} (h : config.validate = .error e) : Refused config s e
  | classifiers (hvalid : config.validate = .ok ())
      (h : config.limits.classifiers < s.classifiers.length) :
      Refused config s (.capacityExceeded ⟨.classifiers, config.limits.classifiers⟩)
  | features (hvalid : config.validate = .ok ())
      (hclassifiers : s.classifiers.length ≤ config.limits.classifiers)
      (h : config.limits.features < s.features.length) :
      Refused config s (.capacityExceeded ⟨.features, config.limits.features⟩)
  | relationships (hvalid : config.validate = .ok ())
      (hclassifiers : s.classifiers.length ≤ config.limits.classifiers)
      (hfeatures : s.features.length ≤ config.limits.features)
      (h : config.limits.relationships < s.relationships.length) :
      Refused config s (.capacityExceeded ⟨.relationships, config.limits.relationships⟩)
  | owner {before after : List Feature} {f : Feature} (hvalid : config.validate = .ok ())
      (hlimits : s.KeepsTo config.limits) (hsplit : s.features = before ++ f :: after)
      (hbefore : ∀ g ∈ before, s.HasClassifier g.classifierId)
      (h : ¬ s.HasClassifier f.classifierId) :
      Refused config s (.unknownClassifier f.classifierId)
  | ends {before after : List Relationship} {r : Relationship} {e : LayoutError α}
      (hvalid : config.validate = .ok ()) (hlimits : s.KeepsTo config.limits)
      (howners : ∀ f ∈ s.features, s.HasClassifier f.classifierId)
      (hsplit : s.relationships = before ++ r :: after) (hbefore : ∀ r ∈ before, s.Resolves r)
      (h : s.Dangling r e) : Refused config s e

/-- An identifier that some element bears is borne by a first one. -/
lemma exists_isFirst_iff {β : Type} {idOf : β → RowId} {xs : List β} {id : RowId} :
    (∃ i, IsFirst idOf xs id i) ↔ ∃ x ∈ xs, idOf x = id := by
  simp only [← findIdx?_eq_some_iff]
  rw [← not_iff_not, ← findIdx?_eq_none_iff, Option.eq_none_iff_forall_ne_some, not_exists]

/-- An identifier that some classifier bears can be resolved. -/
lemma exists_resolveClassifier_iff {id : RowId} :
    (∃ i, resolveClassifier (α := α) s id = .ok i) ↔ s.HasClassifier id := by
  simp only [resolveClassifier_eq_ok_iff]
  exact exists_isFirst_iff

/-- An end can be resolved unless it names a feature that the set does not have. -/
lemma exists_resolveFeature?_iff {id : Option RowId} :
    (∃ i, resolveFeature? (α := α) s id = .ok i) ↔ ∀ x, id = some x → s.HasFeature x := by
  simp only [resolveFeature?_eq_ok_iff]
  cases id with
  | none =>
    constructor
    · intro _ x h
      cases h
    · intro _
      exact ⟨none, .none⟩
  | some x =>
    constructor
    · rintro ⟨_, hi⟩ y hy
      cases hy
      cases hi with
      | some hi => exact exists_isFirst_iff.mp ⟨_, hi⟩
    · intro hall
      obtain ⟨i, hi⟩ := exists_isFirst_iff.mpr (hall x rfl)
      exact ⟨some i, .some hi⟩

end ElementSet

/-! ## Records -/

/-- The drawing has one record for each element in their order. Owners and ends are the positions of
the first elements with the identifiers that are referred to. -/
structure ElementSet.RecordedIn {α : Type} (s : ElementSet) (d : Drawing α) : Prop where
  classifiers : d.classifiers.map (·.element) = s.classifiers
  features : d.features.map (·.element) = s.features
  relationships : d.relationships.map (·.element) = s.relationships
  owners : ∀ f ∈ d.features, IsFirst Classifier.id s.classifiers f.element.classifierId f.owner
  sources : ∀ r ∈ d.relationships,
    IsFirst Classifier.id s.classifiers r.element.fromClassifier r.source
  targets : ∀ r ∈ d.relationships,
    IsFirst Classifier.id s.classifiers r.element.toClassifier r.target
  sourceFeatures : ∀ r ∈ d.relationships,
    Option.Rel (IsFirst Feature.id s.features) r.element.fromFeature r.sourceFeature
  targetFeatures : ∀ r ∈ d.relationships,
    Option.Rel (IsFirst Feature.id s.features) r.element.toFeature r.targetFeature

/-- There is a record for every classifier. -/
lemma ElementSet.RecordedIn.length_classifiers {α : Type} {s : ElementSet} {d : Drawing α}
    (h : s.RecordedIn d) : d.classifiers.length = s.classifiers.length := by
  simpa using congrArg List.length h.classifiers

/-- Computing anything for the records leaves their references right. -/
lemma ElementSet.RecordedIn.of_keepsRecords {α : Type} {s : ElementSet} {d d' : Drawing α}
    (h : s.RecordedIn d) (hkeeps : d.KeepsRecords d') : s.RecordedIn d' := by
  have hfeature {f : PlacedFeature α} (hf : f ∈ d'.features) :
      ∃ f₀ ∈ d.features, f₀.origin = f.origin := by
    rw [← List.mem_map, ← hkeeps.features]
    exact List.mem_map_of_mem hf
  have hrelationship {r : RoutedRelationship α} (hr : r ∈ d'.relationships) :
      ∃ r₀ ∈ d.relationships, r₀.references = r.references := by
    rw [← List.mem_map, ← hkeeps.relationships]
    exact List.mem_map_of_mem hr
  constructor
  · exact hkeeps.classifiers.trans h.classifiers
  · have hmap := congrArg (List.map Prod.fst) hkeeps.features
    rw [List.map_map, List.map_map] at hmap
    exact hmap.trans h.features
  · have hmap := congrArg (List.map Prod.fst) hkeeps.relationships
    rw [List.map_map, List.map_map] at hmap
    exact hmap.trans h.relationships
  · intro f hf
    obtain ⟨f₀, hf₀, horigin⟩ := hfeature hf
    obtain ⟨helement, howner⟩ := Prod.mk.inj horigin
    rw [← helement, ← howner]
    exact h.owners f₀ hf₀
  all_goals
    intro r hr
    obtain ⟨r₀, hr₀, hreferences⟩ := hrelationship hr
    simp only [RoutedRelationship.references, Prod.mk.injEq] at hreferences
    obtain ⟨helement, ⟨hsource, htarget⟩, hstart, hend⟩ := hreferences
  · rw [← helement, ← hsource]
    exact h.sources r₀ hr₀
  · rw [← helement, ← htarget]
    exact h.targets r₀ hr₀
  · rw [← helement, ← hstart]
    exact h.sourceFeatures r₀ hr₀
  · rw [← helement, ← hend]
    exact h.targetFeatures r₀ hr₀

section Preparing

variable {α : Type} [Scalar α] {s : ElementSet}

/-- A feature is recorded with the position of its owner. -/
lemma PlacedFeature.ofElement_eq_ok_iff {f : Feature} {p : PlacedFeature α} :
    PlacedFeature.ofElement s f = .ok p ↔ ∃ owner,
      IsFirst Classifier.id s.classifiers f.classifierId owner ∧
        p = ⟨f, owner, .empty, .empty, .center⟩ := by
  unfold PlacedFeature.ofElement
  rw [bind_eq_ok_iff]
  simp only [ElementSet.resolveClassifier_eq_ok_iff]
  exact exists_congr fun owner => and_congr_right fun _ =>
    ⟨fun h => (Except.ok.inj h).symm, fun h => congrArg Except.ok h.symm⟩

/-- A feature is refused exactly if it has no owner. -/
lemma PlacedFeature.ofElement_eq_error_iff {f : Feature} {e : LayoutError α} :
    PlacedFeature.ofElement s f = .error e ↔
      ¬ s.HasClassifier f.classifierId ∧ e = .unknownClassifier f.classifierId := by
  unfold PlacedFeature.ofElement
  rw [bind_eq_error_iff, ElementSet.resolveClassifier_eq_error_iff]
  constructor
  · rintro (h | ⟨owner, -, h⟩)
    · exact h
    · cases h
  · exact Or.inl

/-- A relationship is recorded with the positions of its ends. -/
lemma RoutedRelationship.ofElement_eq_ok_iff {r : Relationship} {p : RoutedRelationship α} :
    RoutedRelationship.ofElement s r = .ok p ↔ ∃ source target start stop,
      IsFirst Classifier.id s.classifiers r.fromClassifier source ∧
      IsFirst Classifier.id s.classifiers r.toClassifier target ∧
      Option.Rel (IsFirst Feature.id s.features) r.fromFeature start ∧
      Option.Rel (IsFirst Feature.id s.features) r.toFeature stop ∧
      p = ⟨r, source, target, start, stop, .collapsed, .shown, .empty⟩ := by
  unfold RoutedRelationship.ofElement
  simp only [bind_eq_ok_iff, ElementSet.resolveClassifier_eq_ok_iff,
    ElementSet.resolveFeature?_eq_ok_iff]
  constructor
  · rintro ⟨source, hsource, target, htarget, start, hstart, stop, hstop, h⟩
    exact ⟨source, target, start, stop, hsource, htarget, hstart, hstop, (Except.ok.inj h).symm⟩
  · rintro ⟨source, target, start, stop, hsource, htarget, hstart, hstop, rfl⟩
    exact ⟨source, hsource, target, htarget, start, hstart, stop, hstop, rfl⟩

/-- A relationship is refused for its first reference that leads nowhere. -/
lemma RoutedRelationship.ofElement_eq_error_iff {r : Relationship} {e : LayoutError α} :
    RoutedRelationship.ofElement s r = .error e ↔ s.Dangling r e := by
  unfold RoutedRelationship.ofElement
  simp only [bind_eq_error_iff, ElementSet.resolveClassifier_eq_error_iff,
    ElementSet.resolveFeature?_eq_error_iff]
  constructor
  · rintro (⟨h, rfl⟩ | ⟨source, hsource, ⟨h, rfl⟩ | ⟨target, htarget, hrest⟩⟩)
    · exact .source h
    · exact .target (ElementSet.exists_resolveClassifier_iff.mp ⟨source, hsource⟩) h
    · have hsource := ElementSet.exists_resolveClassifier_iff.mp ⟨source, hsource⟩
      have htarget := ElementSet.exists_resolveClassifier_iff.mp ⟨target, htarget⟩
      rcases hrest with ⟨id, hid, h, rfl⟩ | ⟨start, hstart, ⟨id, hid, h, rfl⟩ | ⟨stop, -, h⟩⟩
      · exact .sourceFeature hsource htarget hid h
      · exact .targetFeature hsource htarget
          (ElementSet.exists_resolveFeature?_iff.mp ⟨start, hstart⟩) hid h
      · cases h
  · intro h
    cases h with
    | source h => exact Or.inl ⟨h, rfl⟩
    | target hsource h =>
      obtain ⟨source, hsource⟩ := ElementSet.exists_resolveClassifier_iff.mpr hsource
      exact Or.inr ⟨source, hsource, Or.inl ⟨h, rfl⟩⟩
    | sourceFeature hsource htarget hid h =>
      obtain ⟨source, hsource⟩ := ElementSet.exists_resolveClassifier_iff.mpr hsource
      obtain ⟨target, htarget⟩ := ElementSet.exists_resolveClassifier_iff.mpr htarget
      exact Or.inr ⟨source, hsource, Or.inr ⟨target, htarget, Or.inl ⟨_, hid, h, rfl⟩⟩⟩
    | targetFeature hsource htarget hstart hid h =>
      obtain ⟨source, hsource⟩ := ElementSet.exists_resolveClassifier_iff.mpr hsource
      obtain ⟨target, htarget⟩ := ElementSet.exists_resolveClassifier_iff.mpr htarget
      obtain ⟨start, hstart⟩ := ElementSet.exists_resolveFeature?_iff.mpr hstart
      exact Or.inr ⟨source, hsource, Or.inr ⟨target, htarget,
        Or.inr ⟨start, hstart, Or.inl ⟨_, hid, h, rfl⟩⟩⟩⟩

/-- A feature with an owner is recorded. -/
lemma PlacedFeature.exists_ofElement_iff {f : Feature} :
    (∃ p, PlacedFeature.ofElement (α := α) s f = .ok p) ↔ s.HasClassifier f.classifierId := by
  cases h : PlacedFeature.ofElement (α := α) s f with
  | error e => simpa using (PlacedFeature.ofElement_eq_error_iff.mp h).1
  | ok p =>
    obtain ⟨owner, howner, -⟩ := PlacedFeature.ofElement_eq_ok_iff.mp h
    exact ⟨fun _ => ElementSet.exists_isFirst_iff.mp ⟨owner, howner⟩, fun _ => ⟨p, rfl⟩⟩

/-- A relationship is recorded exactly if all its references lead somewhere. -/
lemma RoutedRelationship.exists_ofElement_iff {r : Relationship} :
    (∃ p, RoutedRelationship.ofElement (α := α) s r = .ok p) ↔ s.Resolves r := by
  constructor
  · rintro ⟨p, hp⟩
    unfold RoutedRelationship.ofElement at hp
    simp only [bind_eq_ok_iff] at hp
    obtain ⟨source, hsource, target, htarget, start, hstart, stop, hstop, -⟩ := hp
    exact ⟨ElementSet.exists_resolveClassifier_iff.mp ⟨source, hsource⟩,
      ElementSet.exists_resolveClassifier_iff.mp ⟨target, htarget⟩,
      ElementSet.exists_resolveFeature?_iff.mp ⟨start, hstart⟩,
      ElementSet.exists_resolveFeature?_iff.mp ⟨stop, hstop⟩⟩
  · intro h
    obtain ⟨source, hsource⟩ := ElementSet.exists_resolveClassifier_iff (α := α).mpr h.source
    obtain ⟨target, htarget⟩ := ElementSet.exists_resolveClassifier_iff (α := α).mpr h.target
    obtain ⟨start, hstart⟩ := ElementSet.exists_resolveFeature?_iff (α := α).mpr h.sourceFeature
    obtain ⟨stop, hstop⟩ := ElementSet.exists_resolveFeature?_iff (α := α).mpr h.targetFeature
    rw [RoutedRelationship.ofElement, hsource, htarget, hstart, hstop]
    exact ⟨_, rfl⟩

namespace ElementSet

/-- The limits are checked in the order of the lists. -/
lemma checkLimits_eq_error_iff {limits : Limits} {e : CapacityError} :
    s.checkLimits limits = .error e ↔
      (limits.classifiers < s.classifiers.length ∧ e = ⟨.classifiers, limits.classifiers⟩) ∨
      (s.classifiers.length ≤ limits.classifiers ∧ limits.features < s.features.length ∧
        e = ⟨.features, limits.features⟩) ∨
      (s.classifiers.length ≤ limits.classifiers ∧ s.features.length ≤ limits.features ∧
        limits.relationships < s.relationships.length ∧
          e = ⟨.relationships, limits.relationships⟩) := by
  unfold checkLimits loads
  by_cases hclassifiers : limits.classifiers < s.classifiers.length
  · simp [hclassifiers, Nat.not_le.mpr hclassifiers, eq_comm]
  · by_cases hfeatures : limits.features < s.features.length
    · simp [hclassifiers, hfeatures, Nat.not_le.mpr hfeatures, Nat.not_lt.mp hclassifiers, eq_comm]
    · by_cases hrelationships : limits.relationships < s.relationships.length
      · simp [hclassifiers, hfeatures, hrelationships, Nat.not_lt.mp hclassifiers,
          Nat.not_lt.mp hfeatures, eq_comm]
      · simp [hclassifiers, hfeatures, hrelationships]

/-- The check of the limits passes exactly if they are kept. -/
lemma checkLimits_eq_ok_iff {limits : Limits} :
    s.checkLimits limits = .ok () ↔ s.KeepsTo limits := by
  unfold checkLimits loads
  constructor
  · intro h
    have hnone : List.find? (fun x : Resource × ℕ × ℕ => decide (x.2.2 < x.2.1))
        [(.classifiers, s.classifiers.length, limits.classifiers),
          (.features, s.features.length, limits.features),
          (.relationships, s.relationships.length, limits.relationships)] = none := by
      split at h
      · cases h
      · assumption
    simp only [List.find?_eq_none, List.mem_cons, List.not_mem_nil, or_false, forall_eq_or_imp,
      forall_eq, decide_eq_true_eq, not_lt] at hnone
    exact ⟨hnone.1, hnone.2.1, hnone.2.2⟩
  · rintro ⟨hclassifiers, hfeatures, hrelationships⟩
    simp [Nat.not_lt.mpr hclassifiers, Nat.not_lt.mpr hfeatures, Nat.not_lt.mpr hrelationships]

end ElementSet

namespace Drawing

variable {config : Config α} {bounds : Rect α}

/-- A drawing of resolved references records the elements. -/
lemma recordedIn_of_ofElements {d : Drawing α} (h : ofElements s bounds config = .ok d) :
    s.RecordedIn d := by
  unfold ofElements at h
  simp only [bind_eq_ok_iff] at h
  obtain ⟨features, hfeatures, relationships, hrelationships, hd⟩ := h
  cases hd
  have hfeature {f : PlacedFeature α} (hf : f ∈ features) :
      IsFirst Classifier.id s.classifiers f.element.classifierId f.owner := by
    obtain ⟨x, -, hx⟩ := exists_of_mem_mapM hfeatures hf
    obtain ⟨owner, howner, rfl⟩ := PlacedFeature.ofElement_eq_ok_iff.mp hx
    exact howner
  have hrelationship {r : RoutedRelationship α} (hr : r ∈ relationships) :
      IsFirst Classifier.id s.classifiers r.element.fromClassifier r.source ∧
      IsFirst Classifier.id s.classifiers r.element.toClassifier r.target ∧
      Option.Rel (IsFirst Feature.id s.features) r.element.fromFeature r.sourceFeature ∧
      Option.Rel (IsFirst Feature.id s.features) r.element.toFeature r.targetFeature := by
    obtain ⟨x, -, hx⟩ := exists_of_mem_mapM hrelationships hr
    obtain ⟨source, target, start, stop, hsource, htarget, hstart, hstop, rfl⟩ :=
      RoutedRelationship.ofElement_eq_ok_iff.mp hx
    exact ⟨hsource, htarget, hstart, hstop⟩
  constructor
  · simp [Function.comp_def]
  · refine map_of_mapM hfeatures fun f p hp => ?_
    obtain ⟨owner, -, rfl⟩ := PlacedFeature.ofElement_eq_ok_iff.mp hp
    rfl
  · refine map_of_mapM hrelationships fun r p hp => ?_
    obtain ⟨source, target, start, stop, -, -, -, -, rfl⟩ :=
      RoutedRelationship.ofElement_eq_ok_iff.mp hp
    rfl
  · exact fun f hf => hfeature hf
  · exact fun r hr => (hrelationship hr).1
  · exact fun r hr => (hrelationship hr).2.1
  · exact fun r hr => (hrelationship hr).2.2.1
  · exact fun r hr => (hrelationship hr).2.2.2

/-- A drawing of resolved references has the nesting of its set; nothing is named yet, and every
relationship is drawn. -/
lemma fresh_of_ofElements {d : Drawing α} (h : ofElements s bounds config = .ok d) :
    d.nesting = .ofElements s config.containmentPasses ∧ (∀ f ∈ d.features, f.label = .empty) ∧
      ∀ r ∈ d.relationships, r.label = .empty ∧ r.visibility = .shown := by
  unfold ofElements at h
  simp only [bind_eq_ok_iff] at h
  obtain ⟨features, hfeatures, relationships, hrelationships, hd⟩ := h
  cases hd
  refine ⟨rfl, ?_, ?_⟩
  · intro f hf
    obtain ⟨x, -, hx⟩ := exists_of_mem_mapM hfeatures hf
    obtain ⟨owner, -, rfl⟩ := PlacedFeature.ofElement_eq_ok_iff.mp hx
    rfl
  · intro r hr
    obtain ⟨x, -, hx⟩ := exists_of_mem_mapM hrelationships hr
    obtain ⟨source, target, start, stop, -, -, -, -, rfl⟩ :=
      RoutedRelationship.ofElement_eq_ok_iff.mp hx
    exact ⟨rfl, rfl⟩

/-- References fail to resolve at the first feature without an owner, or else at the first
relationship that dangles. -/
lemma ofElements_eq_error_iff {e : LayoutError α} :
    ofElements s bounds config = .error e ↔
      (∃ before f after, s.features = before ++ f :: after ∧
        (∀ g ∈ before, s.HasClassifier g.classifierId) ∧
          ¬ s.HasClassifier f.classifierId ∧ e = .unknownClassifier f.classifierId) ∨
      ((∀ f ∈ s.features, s.HasClassifier f.classifierId) ∧
        ∃ before r after, s.relationships = before ++ r :: after ∧
          (∀ r ∈ before, s.Resolves r) ∧ s.Dangling r e) := by
  have howners : (∀ f ∈ s.features, s.HasClassifier f.classifierId) ↔
      ∃ features, s.features.mapM (PlacedFeature.ofElement (α := α) s) = .ok features := by
    simp only [exists_mapM_iff, PlacedFeature.exists_ofElement_iff]
  rw [howners, ofElements, bind_eq_error_iff, mapM_eq_error_iff]
  simp only [bind_eq_error_iff, mapM_eq_error_iff, PlacedFeature.exists_ofElement_iff,
    PlacedFeature.ofElement_eq_error_iff, RoutedRelationship.exists_ofElement_iff,
    RoutedRelationship.ofElement_eq_error_iff]
  constructor
  · rintro (h | ⟨features, hfeatures, h | ⟨relationships, -, h⟩⟩)
    · exact Or.inl h
    · exact Or.inr ⟨⟨features, hfeatures⟩, h⟩
    · cases h
  · rintro (h | ⟨⟨features, hfeatures⟩, h⟩)
    · exact Or.inl h
    · exact Or.inr ⟨features, hfeatures, Or.inl h⟩

end Drawing

namespace ElementSet

variable {config : Config α} {bounds : Rect α}

/-- A set is refused in front of the layout for its first fault. -/
lemma prepare_eq_error_iff {e : LayoutError α} :
    s.prepare config bounds = .error e ↔ s.Refused config e := by
  unfold prepare
  simp only [bind_eq_error_iff, mapError_eq_error_iff, mapError_eq_ok_iff]
  constructor
  · rintro (h | ⟨⟨⟩, hvalid, ⟨c, hc, rfl⟩ | ⟨⟨⟩, hlimits, h⟩⟩)
    · exact .metric h
    · rcases checkLimits_eq_error_iff.mp hc with
        ⟨h, rfl⟩ | ⟨hclassifiers, h, rfl⟩ | ⟨hclassifiers, hfeatures, h, rfl⟩
      · exact .classifiers hvalid h
      · exact .features hvalid hclassifiers h
      · exact .relationships hvalid hclassifiers hfeatures h
    · rw [checkLimits_eq_ok_iff] at hlimits
      rcases Drawing.ofElements_eq_error_iff.mp h with
        ⟨before, f, after, hsplit, hbefore, hf, rfl⟩ |
        ⟨howners, before, r, after, hsplit, hbefore, h⟩
      · exact .owner hvalid hlimits hsplit hbefore hf
      · exact .ends hvalid hlimits howners hsplit hbefore h
  · intro h
    cases h with
    | metric h => exact Or.inl h
    | classifiers hvalid h =>
      exact Or.inr ⟨(), hvalid, Or.inl ⟨_, checkLimits_eq_error_iff.mpr (Or.inl ⟨h, rfl⟩), rfl⟩⟩
    | features hvalid hclassifiers h =>
      exact Or.inr ⟨(), hvalid, Or.inl ⟨_, checkLimits_eq_error_iff.mpr
        (Or.inr (Or.inl ⟨hclassifiers, h, rfl⟩)), rfl⟩⟩
    | relationships hvalid hclassifiers hfeatures h =>
      exact Or.inr ⟨(), hvalid, Or.inl ⟨_, checkLimits_eq_error_iff.mpr
        (Or.inr (Or.inr ⟨hclassifiers, hfeatures, h, rfl⟩)), rfl⟩⟩
    | owner hvalid hlimits hsplit hbefore h =>
      exact Or.inr ⟨(), hvalid, Or.inr ⟨(), checkLimits_eq_ok_iff.mpr hlimits,
        Drawing.ofElements_eq_error_iff.mpr (Or.inl ⟨_, _, _, hsplit, hbefore, h, rfl⟩)⟩⟩
    | ends hvalid hlimits howners hsplit hbefore h =>
      exact Or.inr ⟨(), hvalid, Or.inr ⟨(), checkLimits_eq_ok_iff.mpr hlimits,
        Drawing.ofElements_eq_error_iff.mpr
          (Or.inr ⟨howners, _, _, _, hsplit, hbefore, h⟩)⟩⟩

/-- What passes the checks is the drawing of the resolved references. -/
lemma ofElements_of_prepare {d : Drawing α} (h : s.prepare config bounds = .ok d) :
    Drawing.ofElements s bounds config = .ok d := by
  unfold prepare at h
  simp only [bind_eq_ok_iff] at h
  obtain ⟨-, -, -, -, h⟩ := h
  exact h

/-- What passes the checks keeps to the limits. -/
lemma keepsTo_of_prepare {d : Drawing α} (h : s.prepare config bounds = .ok d) :
    s.KeepsTo config.limits := by
  unfold prepare at h
  simp only [bind_eq_ok_iff, mapError_eq_ok_iff] at h
  obtain ⟨⟨⟩, -, ⟨⟩, hlimits, -⟩ := h
  exact checkLimits_eq_ok_iff.mp hlimits

/-- Everything that passes the checks is recorded as it was. -/
lemma recordedIn_of_prepare {d : Drawing α} (h : s.prepare config bounds = .ok d) :
    s.RecordedIn d :=
  Drawing.recordedIn_of_ofElements (ofElements_of_prepare h)

/-- After the checks nothing is refused. -/
lemma layout_eq_error_iff (m : Composer α) {e : LayoutError α} :
    s.layout m config bounds = .error e ↔ s.Refused config e := by
  have hprepare : s.prepare config bounds = .error e ↔ s.Refused config e := prepare_eq_error_iff
  rw [← hprepare, layout]
  cases s.prepare config bounds <;> simp

/-- A layout is a completed drawing of the records. -/
lemma recordedIn_of_layout {m : Composer α} {g : Guarded (Drawing α)}
    (h : s.layout m config bounds = .ok g) : s.RecordedIn g.value := by
  obtain ⟨start, hprepare, rfl⟩ := exists_of_layout_eq_ok h
  exact (recordedIn_of_prepare hprepare).of_keepsRecords (start.keepsRecords_complete m config)

end ElementSet

end Preparing

namespace ElementSet

/-- Whatever the coordinates, a set is refused exactly for its first fault, and a set without a
fault has a layout, which records it. Over exact numbers the layout is moreover defined. -/
theorem layout_refusal (s : ElementSet) :
    (∀ (α : Type) [Scalar α] (m : Composer α) (config : Config α) (bounds : Rect α),
      (∀ e, s.layout m config bounds = .error e ↔ s.Refused config e) ∧
        ((∀ e, ¬ s.Refused config e) ↔
          ∃ g, s.layout m config bounds = .ok g ∧ s.RecordedIn g.value)) ∧
    ∀ (m : Composer ℚ) (config : Config ℚ) (bounds : Rect ℚ), (∀ e, ¬ s.Refused config e) ↔
      ∃ g, s.layout m config bounds = .ok g ∧ s.RecordedIn g.value ∧ g.defined = true := by
  have hlayout {α : Type} [Scalar α] (m : Composer α) (config : Config α) (bounds : Rect α) :
      (∀ e, ¬ s.Refused config e) ↔ ∃ g, s.layout m config bounds = .ok g := by
    have hrefused (e : LayoutError α) :
        s.layout m config bounds = .error e ↔ s.Refused config e := layout_eq_error_iff m
    simp only [← hrefused]
    cases s.layout m config bounds <;> simp
  constructor
  · intro α _ m config bounds
    refine ⟨fun e => layout_eq_error_iff m, (hlayout m config bounds).trans ?_⟩
    exact exists_congr fun g => (and_iff_left_of_imp recordedIn_of_layout).symm
  · intro m config bounds
    refine (hlayout m config bounds).trans (exists_congr fun g => ?_)
    refine (and_iff_left_of_imp fun h => ⟨recordedIn_of_layout h, ?_⟩).symm
    obtain ⟨start, -, rfl⟩ := exists_of_layout_eq_ok h
    exact start.defined_complete m

end ElementSet

/-! ## A layout that trips a guard -/

/-- A package in another one. -/
def packageInPackage : ElementSet where
  diagram := ⟨⟨1⟩, .package, ""⟩
  limits := .standard
  classifiers := [⟨⟨1⟩, .package, "", 0, 0, false⟩, ⟨⟨2⟩, .package, "", 0, 0, false⟩]
  features := []
  relationships := [⟨⟨102⟩, .containment, "", ⟨1⟩, ⟨2⟩, none, none, 0⟩]

/-- A sheet whose right edge is too far out for a double. -/
def overflowingBounds : Rect Float := .ofCorner 1e308 0 1e308 600

set_option maxRecDepth 100000 in
/-- The two packages are not refused. Their layout on the sheet without a right edge clamps into
intervals that are none. -/
theorem packageInPackage_layout_undefined :
    (∀ e, ¬ packageInPackage.Refused (Config.standard (α := Float)) e) ∧
      ∃ g, packageInPackage.layout (.ofConfig .standard) .standard overflowingBounds = .ok g ∧
        g.defined = false := by
  have hguards : (match packageInPackage.layout (.ofConfig .standard) .standard
      overflowingBounds with | .ok g => g.defined | .error _ => true) = false := by
    decide +kernel
  split at hguards
  · rename_i g hlayout
    refine ⟨fun e he => ?_, g, hlayout, hguards⟩
    rw [(ElementSet.layout_eq_error_iff _).mpr he] at hlayout
    cases hlayout
  · cases hguards

end DiagramLayout
