import DiagramLayout.Proofs.Classifiers.Phases

/-!
# No layout of exact numbers trips a guard

Whatever the drawing, the configuration and the composer: over exact numbers every interval into
which the layout pushes a number is one (`Drawing.defined_complete`). So a layout that passes the
checks in front always has an answer, and `Drawing.complete_eq` says which steps lead to it.
-/

namespace DiagramLayout

/-! ## Features -/

/-- The place along a side is defined. -/
lemma Side.defined_along (start stop fraction margin : ℚ) :
    (along start stop fraction margin).defined = true := by
  have hone : (0 : ℚ) ≤ Scalar.num 1 := by simp
  -- the lower and the upper end of the side, in whichever direction the walk takes it
  have hends (low high x : ℚ) : (if Scalar.num 2 * margin < high - low then
      clamp (low + margin) (high - margin) x
      else return (low + high) / Scalar.num 2).defined = true := by
    split_ifs with hroom
    · refine defined_clamp ?_ x
      simp only [Scalar.num_exact] at hroom
      push_cast at hroom
      linarith
    · rfl
  unfold along
  split_ifs <;> simp only [Guarded.defined_bind, defined_clamp hone, hends, Bool.true_and]

/-- The point on a side is defined. -/
lemma Side.defined_point (side : Side) (symbol : Rect ℚ) (fraction margin : ℚ) :
    (side.point symbol fraction margin).defined = true := by
  cases side <;> simp only [point, Guarded.defined_map, defined_along]

/-- A feature is placed beside its classifier without a guard. -/
lemma defined_placeBeside (config : Config ℚ) (diagram : DiagramKind) (drawArea : Rect ℚ)
    (owner : PlacedClassifier ℚ) (f : PlacedFeature ℚ) :
    (placeBeside config diagram drawArea owner f).defined = true := by
  unfold placeBeside
  dsimp only
  split_ifs
  · rfl
  · rfl
  · simp [iconBox, Side.defined_point]

namespace Drawing

variable {config : Config ℚ}

/-- The features of a classifier are placed without a guard. -/
lemma defined_layoutFeaturesOf (m : Composer ℚ) (d : Drawing ℚ) (i : ℕ) :
    (d.layoutFeaturesOf m config i).defined = true := by
  have hbeside : (d.layoutBeside config i).defined = true := by
    unfold layoutBeside
    split
    · rfl
    · rename_i owner _
      rw [Guarded.defined_bind, Guarded.defined_mapM]
      · rfl
      · intro f _
        split_ifs
        · exact defined_placeBeside config _ _ owner f
        · rfl
  simp [layoutFeaturesOf, hbeside]

/-- The features are placed without a guard. -/
theorem defined_layoutFeatures (m : Composer ℚ) (d : Drawing ℚ) :
    (d.layoutFeatures m config).defined = true :=
  Guarded.defined_foldlM (fun d i => d.defined_layoutFeaturesOf m i) d _

end Drawing

/-! ## Messages -/

/-- A message attaches to a bar without a guard. -/
lemma defined_attachAlong (low high time : ℚ) : (attachAlong low high time).defined = true := by
  refine defined_clamp ?_ time
  rw [Scalar.max_exact]
  exact le_max_right high low

/-- The point where a message attaches is defined. -/
lemma defined_attachTo (axis : Axis) (bar : Rect ℚ) (time : ℚ) (toward : Point ℚ)
    (centered : Bool) : (attachTo axis bar time toward centered).defined = true := by
  cases axis <;> simp only [attachTo, Guarded.defined_map, defined_attachAlong]

/-- A message is routed without a guard. -/
lemma defined_message (axis : Axis) (source target : Rect ℚ) (time : ℚ) (centered : Bool) :
    (message axis source target time centered).defined = true := by
  simp [message, defined_attachTo]

/-- A message from a bar to itself is routed without a guard. -/
lemma defined_selfMessage (axis : Axis) (bar : Rect ℚ) (time distance : ℚ) (centered : Bool) :
    (selfMessage axis bar time distance centered).defined = true := by
  cases axis <;> simp [selfMessage, defined_attachAlong]

namespace Drawing

variable {config : Config ℚ}

/-- Messages are routed without a guard. -/
theorem defined_routeInTime (d : Drawing ℚ) : (d.routeInTime config).defined = true := by
  have hmessage (d : Drawing ℚ) (axis : Axis) (r : RoutedRelationship ℚ) :
      (d.routeMessage config axis r).defined = true := by
    have hroute (source target : ℕ) :
        (d.messageRoute config axis r source target).defined = true := by
      unfold messageRoute
      dsimp only
      split_ifs
      · exact defined_selfMessage _ _ _ _ _
      · exact defined_message _ _ _ _ _
    unfold routeMessage
    split
    · simp [hroute]
    · rfl
  unfold routeInTime
  split
  · rfl
  · rw [Guarded.defined_bind, Guarded.defined_mapM fun r _ => hmessage _ _ r]
    rfl

/-! ## All steps -/

/-- The drawing after features have been placed. -/
def furnished (m : Composer ℚ) (config : Config ℚ) (d : Drawing ℚ) : Drawing ℚ :=
  ((d.initVisibility.layoutClassifiers m config).value.layoutFeatures m config).value

/-- Over exact numbers everything is computed without a guard. -/
theorem defined_complete (m : Composer ℚ) (d : Drawing ℚ) :
    (d.complete m config).defined = true := by
  have hroutes (d : Drawing ℚ) : (d.routeAll config).defined = true := by
    unfold routeAll
    split_ifs
    · exact defined_routeInTime d
    · rfl
  unfold complete
  simp only [Guarded.defined_bind, defined_layoutClassifiers, defined_layoutFeatures, hroutes,
    Guarded.defined_pure, Bool.and_self]

/-- Everything is computed by routing the furnished drawing and naming the result. -/
lemma value_complete (m : Composer ℚ) (d : Drawing ℚ) :
    (d.complete m config).value =
      (((d.furnished m config).routeAll config).value.layoutFeatureLabels m
        config).layoutRelationshipLabels m config := by
  unfold complete furnished
  simp only [Guarded.value_bind, Guarded.value_pure]

end Drawing

section Layouts

variable {α : Type} [Scalar α] {config : Config α} {bounds : Rect α} {s : ElementSet}

/-- A set that passes the checks has a layout, which completes its drawing. -/
theorem ElementSet.layout_eq_ok {start : Drawing α} (h : s.prepare config bounds = .ok start)
    (m : Composer α) : s.layout m config bounds = .ok (start.complete m config) := by
  rw [layout, h]
  rfl

/-- A layout of a set completes a drawing that has passed the checks. -/
lemma ElementSet.exists_of_layout_eq_ok {m : Composer α} {g : Guarded (Drawing α)}
    (h : s.layout m config bounds = .ok g) :
    ∃ start, s.prepare config bounds = .ok start ∧ g = start.complete m config := by
  cases hprepare : s.prepare config bounds with
  | error e =>
    rw [layout, hprepare] at h
    cases h
  | ok start =>
    rw [layout_eq_ok hprepare, Except.ok.injEq] at h
    exact ⟨start, rfl, h.symm⟩

end Layouts

/-- A set that passes the checks has a usable configuration and resolved references. -/
lemma ElementSet.prepare_eq_ok {config : Config ℚ} {bounds : Rect ℚ} {s : ElementSet}
    {start : Drawing ℚ} (h : s.prepare config bounds = .ok start) :
    config.Usable ∧ Drawing.ofElements s bounds config = .ok start := by
  unfold prepare at h
  cases hvalid : config.validate with
  | error e =>
    rw [hvalid] at h
    cases h
  | ok _ =>
    cases hlimits : (s.checkLimits config.limits).mapError LayoutError.capacityExceeded with
    | error e =>
      rw [hvalid, hlimits] at h
      cases h
    | ok _ =>
      rw [hvalid, hlimits] at h
      exact ⟨Config.usable_of_validate hvalid, h⟩

/-- A drawing whose references are resolved is of the diagram and on its sheet. -/
lemma Drawing.ofElements_eq_ok {α : Type} [Scalar α] {config : Config α} {bounds : Rect α}
    {s : ElementSet} {start : Drawing α} (h : ofElements s bounds config = .ok start) :
    start.diagram = s.diagram ∧
      start.sheet = .ofBounds bounds config s.diagram.kind.gridKind := by
  unfold ofElements at h
  cases hfeatures : s.features.mapM (PlacedFeature.ofElement (α := α) s) with
  | error e =>
    rw [hfeatures] at h
    cases h
  | ok fs =>
    cases hrelationships : s.relationships.mapM (RoutedRelationship.ofElement (α := α) s) with
    | error e =>
      rw [hfeatures, hrelationships] at h
      cases h
    | ok rs =>
      rw [hfeatures, hrelationships] at h
      cases h
      exact ⟨rfl, rfl⟩

end DiagramLayout
