import DiagramLayout.Proofs.Refusal
import DiagramLayout.SceneFile

/-!
# Limits on loading and on laying out

There are two checks of the limits. A scene is loaded element by element, and the first element
beyond a limit is refused; a layout compares the lengths of the lists with the limits before it
starts. Elements that are appended one by one are all taken in exactly if their number keeps to the
limit (`foldlM_appendWithin`), and both checks go through the lists in the same order. So they agree
on every scene, also on what they tell (`SceneFile.elements_eq`).

An element that is refused leaves no trace: after any additions a set has what it had and of each
sort the elements that came first, as many as there was room for (`ElementSet.afterAll_eq`).
-/

namespace DiagramLayout

/-! ## Appending one by one -/

section Appending

variable {β : Type} (resource : Resource) (limit : ℕ)

/-- Elements that are appended one by one are taken in if there is room for all of them; otherwise
one of them is refused. -/
lemma foldlM_appendWithin (xs : List β) {taken : List β} (h : taken.length ≤ limit) :
    xs.foldlM (appendWithin resource limit) taken =
      if taken.length + xs.length ≤ limit then .ok (taken ++ xs) else .error ⟨resource, limit⟩ := by
  induction xs generalizing taken with
  | nil =>
    rw [List.length_nil, if_pos (by omega), List.append_nil]
    rfl
  | cons x xs ih =>
    rw [List.foldlM_cons, appendWithin, List.length_cons]
    by_cases hroom : taken.length < limit
    · have hnext : (taken ++ [x]).length ≤ limit := by simpa using hroom
      rw [if_pos hroom]
      change xs.foldlM (appendWithin resource limit) (taken ++ [x]) = _
      rw [ih hnext, List.length_append, List.length_singleton, List.append_assoc,
        List.singleton_append, Nat.add_assoc, Nat.add_comm 1]
    · rw [if_neg hroom, if_neg (by omega)]
      rfl

/-- The same holds of a set to which elements of one sort are added. -/
lemma foldlM_add (add : ElementSet → β → Except CapacityError ElementSet)
    (put : List β → ElementSet)
    (hadd : ∀ taken x, add (put taken) x = do return put (← appendWithin resource limit taken x))
    (xs : List β) :
    xs.foldlM add (put []) =
      if xs.length ≤ limit then .ok (put xs) else .error ⟨resource, limit⟩ := by
  have hmap (taken : List β) (x : β) :
      add (put taken) x = put <$> appendWithin resource limit taken x :=
    (hadd taken x).trans (bind_pure_comp put _)
  have hnone : ([] : List β).length ≤ limit := Nat.zero_le limit
  rw [foldlM_of_commutes hmap, foldlM_appendWithin resource limit xs hnone, List.length_nil,
    Nat.zero_add, List.nil_append]
  split_ifs <;> rfl

end Appending

/-- The limits are checked one list after the other. -/
lemma ElementSet.checkLimits_eq (s : ElementSet) (limits : Limits) :
    s.checkLimits limits =
      if s.classifiers.length ≤ limits.classifiers then
        if s.features.length ≤ limits.features then
          if s.relationships.length ≤ limits.relationships then .ok ()
          else .error ⟨.relationships, limits.relationships⟩
        else .error ⟨.features, limits.features⟩
      else .error ⟨.classifiers, limits.classifiers⟩ := by
  split_ifs with hclassifiers hfeatures hrelationships
  · exact checkLimits_eq_ok_iff.mpr ⟨hclassifiers, hfeatures, hrelationships⟩
  · exact checkLimits_eq_error_iff.mpr
      (Or.inr (Or.inr ⟨hclassifiers, hfeatures, not_le.mp hrelationships, rfl⟩))
  · exact checkLimits_eq_error_iff.mpr (Or.inr (Or.inl ⟨hclassifiers, not_le.mp hfeatures, rfl⟩))
  · exact checkLimits_eq_error_iff.mpr (Or.inl ⟨not_le.mp hclassifiers, rfl⟩)

namespace SceneFile

/-- The set of all elements of a scene, under limits to which it may not keep. -/
def gathered (scene : SceneFile) (limits : Limits) : ElementSet :=
  ⟨scene.diagram, limits, scene.classifiers, scene.features, scene.relationships⟩

/-- A scene is loaded as a whole or refused for the reason for which the set of all its elements is
refused. -/
theorem elements_eq (scene : SceneFile) (limits : Limits) :
    scene.elements limits =
      (fun _ => scene.gathered limits) <$> (scene.gathered limits).checkLimits limits := by
  have hclassifiers := foldlM_add .classifiers limits.classifiers ElementSet.addClassifier
    (⟨scene.diagram, limits, ·, [], []⟩) (fun _ _ => rfl) scene.classifiers
  have hfeatures := foldlM_add .features limits.features ElementSet.addFeature
    (⟨scene.diagram, limits, scene.classifiers, ·, []⟩) (fun _ _ => rfl) scene.features
  have hrelationships := foldlM_add .relationships limits.relationships ElementSet.addRelationship
    (⟨scene.diagram, limits, scene.classifiers, scene.features, ·⟩) (fun _ _ => rfl)
    scene.relationships
  have hgoOn (set : ElementSet) (next : ElementSet → Except CapacityError ElementSet) :
      Except.ok set >>= next = next set := rfl
  rw [ElementSet.checkLimits_eq, elements, ElementSet.empty, gathered]
  dsimp only at hclassifiers hfeatures hrelationships ⊢
  rw [hclassifiers]
  split_ifs with hclassifier hfeature hrelationship
  · rw [hgoOn, hfeatures, if_pos hfeature, hgoOn, hrelationships, if_pos hrelationship]
    rfl
  · rw [hgoOn, hfeatures, if_pos hfeature, hgoOn, hrelationships, if_neg hrelationship]
    rfl
  · rw [hgoOn, hfeatures, if_neg hfeature]
    rfl
  · rfl

end SceneFile

/-- With a valid configuration a layout is refused for a limit exactly if the set does not keep to
it. -/
lemma ElementSet.layout_eq_capacityExceeded_iff {α : Type} [Scalar α] {s : ElementSet}
    {m : Composer α} {config : Config α} {bounds : Rect α} (hvalid : config.validate = .ok ())
    {e : CapacityError} :
    s.layout m config bounds = .error (.capacityExceeded e) ↔
      s.checkLimits config.limits = .error e := by
  rw [layout_eq_error_iff, checkLimits_eq_error_iff]
  constructor
  · intro h
    cases h with
    | metric h =>
      rw [hvalid] at h
      cases h
    | classifiers _ h => exact Or.inl ⟨h, rfl⟩
    | features _ hclassifiers h => exact Or.inr (Or.inl ⟨hclassifiers, h, rfl⟩)
    | relationships _ hclassifiers hfeatures h =>
      exact Or.inr (Or.inr ⟨hclassifiers, hfeatures, h, rfl⟩)
    | ends _ _ _ _ _ h => cases h
  · rintro (⟨h, rfl⟩ | ⟨hclassifiers, h, rfl⟩ | ⟨hclassifiers, hfeatures, h, rfl⟩)
    · exact .classifiers hvalid h
    · exact .features hvalid hclassifiers h
    · exact .relationships hvalid hclassifiers hfeatures h

/-! ## Additions -/

/-- A call that asks for an element to be added to a set. -/
inductive Addition where
  | classifier (c : Classifier)
  | feature (f : Feature)
  | relationship (r : Relationship)
deriving DecidableEq, Repr

namespace Addition

/-- The classifier that an addition is about. -/
def classifier? : Addition → Option Classifier
  | classifier c => some c
  | _ => none

/-- The feature that an addition is about. -/
def feature? : Addition → Option Feature
  | feature f => some f
  | _ => none

/-- The relationship that an addition is about. -/
def relationship? : Addition → Option Relationship
  | relationship r => some r
  | _ => none

end Addition

section Filling

variable {β : Type}

/-- The list with further elements, as many of the first ones as the limit leaves room for. -/
def fillUp (limit : ℕ) (xs ys : List β) : List β := xs ++ ys.take (limit - xs.length)

@[simp] lemma fillUp_nil (limit : ℕ) (xs : List β) : fillUp limit xs [] = xs := by
  simp [fillUp]

/-- A list may be filled up in two goes. -/
lemma fillUp_fillUp (limit : ℕ) (xs ys zs : List β) :
    fillUp limit (fillUp limit xs ys) zs = fillUp limit xs (ys ++ zs) := by
  have hroom : limit - (xs.length + min (limit - xs.length) ys.length) =
      limit - xs.length - ys.length := by
    omega
  simp only [fillUp, List.length_append, List.length_take, List.append_assoc, List.take_append,
    hroom]

/-- One element is taken in if there is room for it. -/
lemma fillUp_singleton (limit : ℕ) (xs : List β) (x : β) :
    fillUp limit xs [x] = if xs.length < limit then xs ++ [x] else xs := by
  unfold fillUp
  split_ifs with hroom
  · rw [List.take_of_length_le]
    rw [List.length_singleton]
    omega
  · have hfull : limit - xs.length = 0 := by omega
    rw [hfull, List.take_zero, List.append_nil]

end Filling

namespace ElementSet

/-- The set with a further element, if there is room for it. -/
def add (s : ElementSet) : Addition → Except CapacityError ElementSet
  | .classifier c => s.addClassifier c
  | .feature f => s.addFeature f
  | .relationship r => s.addRelationship r

/-- The set after a call that adds an element or is refused. -/
def after (s : ElementSet) (a : Addition) : ElementSet :=
  match s.add a with
  | .ok larger => larger
  | .error _ => s

/-- The set after calls that add elements or are refused, one after the other. -/
def afterAll (s : ElementSet) (additions : List Addition) : ElementSet := additions.foldl after s

/-- The set with each of its lists filled up. -/
def fill (s : ElementSet) (additions : List Addition) : ElementSet :=
  { s with
    classifiers := fillUp s.limits.classifiers s.classifiers
      (additions.filterMap Addition.classifier?)
    features := fillUp s.limits.features s.features (additions.filterMap Addition.feature?)
    relationships := fillUp s.limits.relationships s.relationships
      (additions.filterMap Addition.relationship?) }

/-- A set may be filled up in two goes. -/
lemma fill_fill (s : ElementSet) (additions additions' : List Addition) :
    (s.fill additions).fill additions' = s.fill (additions ++ additions') := by
  simp only [fill, List.filterMap_append, fillUp_fillUp]

/-- A single addition fills up one list only. -/
lemma fill_singleton (s : ElementSet) (a : Addition) : s.fill [a] = match a with
    | .classifier c => { s with classifiers := fillUp s.limits.classifiers s.classifiers [c] }
    | .feature f => { s with features := fillUp s.limits.features s.features [f] }
    | .relationship r =>
      { s with relationships := fillUp s.limits.relationships s.relationships [r] } := by
  cases a <;> simp [fill, List.filterMap_cons, Addition.classifier?, Addition.feature?,
    Addition.relationship?]

/-- One call fills up the list that it is about. -/
lemma after_eq_fill (s : ElementSet) (a : Addition) : s.after a = s.fill [a] := by
  rw [fill_singleton]
  cases a with
  | classifier c =>
    dsimp only
    rw [fillUp_singleton, after, add, addClassifier, appendWithin]
    split_ifs <;> rfl
  | feature f =>
    dsimp only
    rw [fillUp_singleton, after, add, addFeature, appendWithin]
    split_ifs <;> rfl
  | relationship r =>
    dsimp only
    rw [fillUp_singleton, after, add, addRelationship, appendWithin]
    split_ifs <;> rfl

/-- A set to which an element was added is another one. -/
lemma add_ne_ok_self (s : ElementSet) (a : Addition) : s.add a ≠ .ok s := by
  have hlonger {β : Type} {resource : Resource} {limit : ℕ} {xs : List β} {x : β} :
      appendWithin resource limit xs x ≠ .ok xs := by
    unfold appendWithin
    split_ifs <;> simp
  intro h
  cases a with
  | classifier c =>
    obtain ⟨classifiers, hadded, hsame⟩ := bind_eq_ok_iff.mp h
    obtain rfl : classifiers = s.classifiers := congrArg ElementSet.classifiers (Except.ok.inj hsame)
    exact hlonger hadded
  | feature f =>
    obtain ⟨features, hadded, hsame⟩ := bind_eq_ok_iff.mp h
    obtain rfl : features = s.features := congrArg ElementSet.features (Except.ok.inj hsame)
    exact hlonger hadded
  | relationship r =>
    obtain ⟨relationships, hadded, hsame⟩ := bind_eq_ok_iff.mp h
    obtain rfl : relationships = s.relationships :=
      congrArg ElementSet.relationships (Except.ok.inj hsame)
    exact hlonger hadded

/-- A call is refused exactly if it leaves the set as it was. -/
lemma after_eq_self_iff (s : ElementSet) (a : Addition) :
    s.after a = s ↔ ∃ e, s.add a = .error e := by
  unfold after
  cases hadd : s.add a with
  | error e => simp
  | ok larger =>
    have hother : larger ≠ s := fun hsame => add_ne_ok_self s a (hsame ▸ hadd)
    simpa using hother

/-- Whatever is added to a set, of each sort it takes in the elements that come first, as many as it
has room for. -/
theorem afterAll_eq (s : ElementSet) (additions : List Addition) :
    s.afterAll additions = s.fill additions := by
  induction additions generalizing s with
  | nil => simp [afterAll, fill]
  | cons a additions ih =>
    have hnext : s.afterAll (a :: additions) = (s.after a).afterAll additions := rfl
    rw [hnext, ih, after_eq_fill, fill_fill, List.singleton_append]

end ElementSet

/-! ## Both checks agree -/

/-- A scene is refused when it is loaded exactly if a layout of all its elements would be refused for
a limit, whatever the limits of the set are that holds them, and the same limit is told. A scene that
is loaded is the set of all its elements in their order, and no layout of it is refused for a limit.
A call that is refused leaves the set as it was, so after any calls a set has its own elements and of
each sort those that came first, as many as there was room for. -/
theorem SceneFile.loading_agrees_with_layout (scene : SceneFile) {config : Config Float}
    (hvalid : config.validate = .ok ()) (m : Composer Float) (bounds : Rect Float) :
    (∀ (limits : Limits) (e : CapacityError), scene.elements config.limits = .error e ↔
        (scene.gathered limits).layout m config bounds = .error (.capacityExceeded e)) ∧
      (∀ s, scene.elements config.limits = .ok s → s = scene.gathered config.limits ∧
        ∀ e, s.layout m config bounds ≠ .error (.capacityExceeded e)) ∧
      (∀ (s : ElementSet) (a : Addition), s.after a = s ↔ ∃ e, s.add a = .error e) ∧
      ∀ (s : ElementSet) (additions : List Addition), s.afterAll additions = s.fill additions := by
  refine ⟨fun limits e => ?_, fun s hs => ?_, ElementSet.after_eq_self_iff, ElementSet.afterAll_eq⟩
  · have hcheck : (scene.gathered limits).checkLimits config.limits =
        (scene.gathered config.limits).checkLimits config.limits := rfl
    rw [ElementSet.layout_eq_capacityExceeded_iff hvalid, hcheck, elements_eq]
    cases (scene.gathered config.limits).checkLimits config.limits <;> simp
  · rw [elements_eq] at hs
    cases hcheck : (scene.gathered config.limits).checkLimits config.limits with
    | error e =>
      rw [hcheck] at hs
      cases hs
    | ok u =>
      rw [hcheck] at hs
      obtain rfl : scene.gathered config.limits = s := Except.ok.inj hs
      refine ⟨rfl, fun e he => ?_⟩
      rw [ElementSet.layout_eq_capacityExceeded_iff hvalid, hcheck] at he
      cases he

/-- A class with two properties. -/
def classScene : SceneFile where
  width := 800
  height := 600
  diagram := ⟨⟨1⟩, .classes, ""⟩
  classifiers := [⟨⟨10⟩, .classType, "Engine", 0, 0, false⟩]
  features := [⟨⟨20⟩, ⟨10⟩, .property, "power", "", 0⟩, ⟨⟨21⟩, ⟨10⟩, .property, "torque", "", 0⟩]
  relationships := []

/-- The standard configuration with room for one classifier and so many features. -/
def narrowConfig (features : ℕ) : Config Float := { Config.standard with limits := ⟨1, features, 0⟩ }

/-- With room for one feature the class is refused twice, and with room for both it is laid out. -/
theorem loading_agrees_with_layout_classScene :
    (narrowConfig 1).validate = .ok () ∧ (narrowConfig 2).validate = .ok () ∧
      classScene.elements (narrowConfig 1).limits = .error ⟨.features, 1⟩ ∧
      (classScene.gathered .standard).layout (.ofConfig .standard) (narrowConfig 1)
        classScene.bounds = .error (.capacityExceeded ⟨.features, 1⟩) ∧
      ∃ s, classScene.elements (narrowConfig 2).limits = .ok s ∧ s.features.length = 2 ∧
        ∀ e, s.layout (.ofConfig .standard) (narrowConfig 2) classScene.bounds ≠
          .error (.capacityExceeded e) := by
  have hone : (narrowConfig 1).validate = .ok () := by decide +kernel
  have htwo : (narrowConfig 2).validate = .ok () := by decide +kernel
  have hrefused : classScene.elements (narrowConfig 1).limits = .error ⟨.features, 1⟩ := by
    decide +kernel
  have hloaded : classScene.elements (narrowConfig 2).limits =
      .ok (classScene.gathered (narrowConfig 2).limits) := by
    decide +kernel
  have hnarrow := classScene.loading_agrees_with_layout hone (.ofConfig .standard) classScene.bounds
  have hwide := classScene.loading_agrees_with_layout htwo (.ofConfig .standard) classScene.bounds
  exact ⟨hone, htwo, hrefused, (hnarrow.1 .standard _).mp hrefused, _, hloaded, rfl,
    (hwide.2.1 _ hloaded).2⟩

end DiagramLayout
