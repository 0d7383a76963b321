import DiagramLayout.Proofs.Compartments
import DiagramLayout.Proofs.Translation.Gathering

/-!
# Features on a translated sheet

A feature beside its classifier is placed from the symbol and the draw area, and an entry from the
space, so all of them move with the sheet. The run places the features of one classifier after the
other: before its turn a feature is the same in both drawings, and afterwards it is moved
(`Drawing.FurnishedUpTo`).
-/

namespace DiagramLayout

/-- A feature with its boxes moved. A name that has no extent stays where it is. -/
def PlacedFeature.translate (v : Point ℚ) (f : PlacedFeature ℚ) : PlacedFeature ℚ :=
  { f with symbol := f.symbol.translate v, label := f.label.translateArea v }

/-! ## Beside a classifier -/

/-- A place along a side moves with the side. -/
lemma Side.along_add (start stop fraction margin d : ℚ) :
    along (start + d) (stop + d) fraction margin =
      (· + d) <$> along start stop fraction margin := by
  have hends (low high x : ℚ) :
      (if Scalar.num 2 * margin < high + d - (low + d) then
        clamp (low + d + margin) (high + d - margin) (x + d)
      else return (low + d + (high + d)) / Scalar.num 2) =
      (· + d) <$> (if Scalar.num 2 * margin < high - low then clamp (low + margin) (high - margin) x
        else return (low + high) / Scalar.num 2) := by
    have hmiddle : (low + d + (high + d)) / Scalar.num 2 = (low + high) / Scalar.num 2 + d := by
      simp only [Scalar.num_exact]
      push_cast
      ring
    rw [add_sub_add_right_eq_sub, add_right_comm low, add_sub_right_comm high, clamp_add, hmiddle]
    split_ifs
    · rfl
    · rw [map_pure]
  unfold along
  rw [map_bind]
  simp only [add_le_add_iff_right, add_sub_add_right_eq_sub stop, add_right_comm start d]
  by_cases horder : start ≤ stop
  · rw [if_pos horder, if_pos horder]
    exact bind_congr fun share => hends start stop _
  · rw [if_neg horder, if_neg horder]
    exact bind_congr fun share => hends stop start _

/-- A point on a side moves with the symbol. -/
lemma Side.point_translate (side : Side) (symbol : Rect ℚ) (fraction margin : ℚ) (v : Point ℚ) :
    side.point (symbol.translate v) fraction margin =
      (· + v) <$> side.point symbol fraction margin := by
  cases side <;> simp only [point, Rect.translate, along_add, Functor.map_map] <;> rfl

/-- The bar of a lifeline moves with the classifier and the draw area. -/
lemma lifelineBar_translate (config : Config ℚ) (diagram : DiagramKind) (drawArea : Rect ℚ)
    (kind : ClassifierKind) (symbol : Rect ℚ) (v : Point ℚ) :
    lifelineBar config diagram (drawArea.translate v) kind (symbol.translate v) =
      (lifelineBar config diagram drawArea kind symbol).translate v := by
  have hcenter : (symbol.translate v).center = symbol.center + v := Rect.center_translate symbol v
  unfold lifelineBar
  split_ifs
  · rfl
  cases diagram with
  | sequence =>
    dsimp only
    rw [hcenter, ← Rect.spanning_add]
    simp only [Rect.translate_maxY, Scalar.max_exact, add_sub_right_comm, max_add_add_right]
    refine congrArg₂ Rect.spanning ?_ ?_
    · exact congrArg (Point.mk · _) (add_sub_right_comm _ _ _)
    · exact congrArg (Point.mk · _) (add_right_comm _ _ _)
  | timing =>
    dsimp only
    rw [← Rect.spanning_add]
    simp only [Rect.translate_maxX, Rect.translate_minY, Rect.translate_maxY, Scalar.max_exact,
      add_sub_right_comm, max_add_add_right]
    rfl
  | _ => rfl

/-- An icon moves with the symbol of its classifier. -/
lemma iconBox_translate (config : Config ℚ) (owner : ClassifierKind) (f : Feature) (symbol : Rect ℚ)
    (v : Point ℚ) : iconBox config owner f (symbol.translate v) =
      (·.translate v) <$> iconBox config owner f symbol := by
  unfold iconBox
  dsimp only
  rw [Side.point_translate, bind_map_left, map_bind]
  refine bind_congr fun onSide => ?_
  rw [map_pure, Point.add_add_right_comm, Rect.centered_add]

/-- A feature that is no entry and has no name yet moves with its classifier. -/
lemma placeBeside_translate (config : Config ℚ) (diagram : DiagramKind) (drawArea : Rect ℚ)
    {owner owner' : PlacedClassifier ℚ} {v : Point ℚ} (helement : owner'.element = owner.element)
    (hboxes : owner.boxes.MovedBy v owner'.boxes) {f : PlacedFeature ℚ}
    (hkind : f.element.kind.isCompartmentEntry = false) (hlabel : f.label = .empty) :
    placeBeside config diagram (drawArea.translate v) owner' f =
      PlacedFeature.translate v <$> placeBeside config diagram drawArea owner f := by
  have hempty : (Rect.empty : Rect ℚ).translateArea v = .empty := Rect.translateArea_empty v
  unfold placeBeside
  dsimp only
  rw [hkind, helement, hboxes.symbol, lifelineBar_translate, iconBox_translate]
  simp only [Bool.false_eq_true, if_false]
  split_ifs
  · rw [map_pure, PlacedFeature.translate, hlabel, hempty]
  · rw [bind_map_left, map_bind]
    refine bind_congr fun box => ?_
    rw [map_pure, PlacedFeature.translate, hlabel, hempty]

/-- The stack of entries moves with the space. -/
lemma stackEntries_translate (m : Composer ℚ) (border : ℚ) (space : Rect ℚ) (v : Point ℚ)
    (offset : ℚ) (entries : List (ℕ × Feature)) :
    stackEntries m border (space.translate v) offset entries =
      (stackEntries m border space offset entries).map fun line =>
        (line.1, line.2.translate v) := by
  induction entries generalizing offset with
  | nil => rfl
  | cons entry rest ih =>
    simp only [stackEntries, List.map_cons, ih, Rect.width_translate, Rect.translate_minX,
      Rect.translate_minY, add_right_comm _ v.x, add_right_comm _ v.y, Rect.ofCorner_add]

namespace Drawing

variable {v : Point ℚ} {m : Composer ℚ} {config : Config ℚ}

/-! ## Names come later -/

/-- No feature has a name. -/
def Unnamed (d : Drawing ℚ) : Prop := ∀ f ∈ d.features, f.label = .empty

/-- A feature may be changed without giving it a name. -/
lemma Unnamed.modifyFeature {d : Drawing ℚ} (h : d.Unnamed)
    {change : PlacedFeature ℚ → PlacedFeature ℚ} (hchange : ∀ f, f.label = .empty →
      (change f).label = .empty) (i : ℕ) : (d.modifyFeature i change).Unnamed := by
  intro f hf
  obtain ⟨j, hj⟩ := List.mem_iff_getElem?.mp hf
  rw [Drawing.modifyFeature, List.getElem?_modify] at hj
  obtain ⟨f₀, hf₀, rfl⟩ := Option.map_eq_some_iff.mp hj
  have hempty := h f₀ (List.mem_of_getElem? hf₀)
  split_ifs
  · exact hchange f₀ hempty
  · exact hempty

/-- Placing the features of a classifier names none. -/
lemma Unnamed.layoutFeaturesOf {d : Drawing ℚ} (h : d.Unnamed) (i : ℕ) :
    (d.layoutFeaturesOf m config i).value.Unnamed := by
  have hbeside : (d.layoutBeside config i).value.Unnamed := by
    unfold layoutBeside
    split
    · exact h
    · rename_i owner _
      have hlabel (f : PlacedFeature ℚ) :
          (placeBeside config d.diagram.kind d.sheet.drawArea owner f).value.label = f.label := by
        unfold placeBeside
        dsimp only
        split_ifs <;> rfl
      simp only [Guarded.value_bind, Guarded.value_pure, Guarded.value_mapM]
      refine List.forall_mem_map.mpr fun f hf => ?_
      split_ifs
      · rw [hlabel]
        exact h f hf
      · exact h f hf
  unfold Drawing.layoutFeaturesOf
  simp only [Guarded.value_bind, Guarded.value_pure]
  exact List.foldlRecOn _ _ (motive := Unnamed) hbeside fun e he line _ =>
    he.modifyFeature (fun _ _ => rfl) line.1

/-! ## The run -/

/-- The lines of a classifier move with its space. -/
lemma MovedBy.entryLines {d d' : Drawing ℚ} (h : d.MovedBy v d')
    (horigin : d'.features.map PlacedFeature.origin = d.features.map PlacedFeature.origin) {i : ℕ}
    (hi : i < d.classifiers.length) :
    d'.entryLines m config i =
      (d.entryLines m config i).map fun line => (line.1, line.2.translate v) := by
  rw [Drawing.entryLines, Drawing.entryLines, (h.boxes hi).space, entries_congr horigin,
    stackEntries_translate]

/-- A feature that a classifier finds in both drawings is moved by its turn. -/
lemma MovedBy.turn_own {d d' : Drawing ℚ} (h : d.MovedBy v d') (hunnamed : d.Unnamed)
    (horigin : d'.features.map PlacedFeature.origin = d.features.map PlacedFeature.origin) {k : ℕ}
    {f : PlacedFeature ℚ} (hf : d.features[k]? = some f) (hf' : d'.features[k]? = some f)
    (howner : f.owner < d.classifiers.length) :
    (d'.layoutFeaturesOf m config f.owner).value.features[k]? =
      ((d.layoutFeaturesOf m config f.owner).value.features[k]?).map
        (PlacedFeature.translate v) := by
  cases hkind : f.element.kind.isCompartmentEntry with
  | true =>
    obtain ⟨box, hline⟩ := exists_mem_entryLines m config hf hkind
    have hline' : (k, box.translate v) ∈ d'.entryLines m config f.owner := by
      rw [h.entryLines horigin howner]
      exact List.mem_map.mpr ⟨_, hline, rfl⟩
    rw [entry_layoutFeaturesOf hline hf, entry_layoutFeaturesOf hline' hf', Option.map_some,
      PlacedFeature.translate, Rect.translateArea_empty]
  | false =>
    obtain ⟨c, c', hc, hc', helement, hboxes⟩ | ⟨hnone, -⟩ := h.getElem?_classifiers f.owner
    · rw [beside_layoutFeaturesOf m config hf hkind hc, if_pos rfl,
        beside_layoutFeaturesOf m config hf' hkind hc', if_pos rfl, h.diagram, h.drawArea,
        placeBeside_translate config _ _ helement hboxes hkind
          (hunnamed f (List.mem_of_getElem? hf)), Guarded.value_map, Option.map_some]
    · rw [List.getElem?_eq_none_iff] at hnone
      omega

/-- The features of the first classifiers are moved and all others are the same. No feature has a
name yet. -/
structure FurnishedUpTo (v : Point ℚ) (count : ℕ) (d d' : Drawing ℚ) : Prop where
  moved : d.MovedBy v d'
  features : d'.features = d.features.map fun f => if f.owner < count then f.translate v else f
  unnamed : d.Unnamed

/-- The turn of a classifier moves its features. -/
lemma FurnishedUpTo.step {count : ℕ} {d d' : Drawing ℚ} (h : FurnishedUpTo v count d d')
    (hcount : count < d.classifiers.length) :
    FurnishedUpTo v (count + 1) (d.layoutFeaturesOf m config count).value
      (d'.layoutFeaturesOf m config count).value := by
  have hkept := refeatures_layoutFeaturesOf m config d count
  have hkept' := refeatures_layoutFeaturesOf m config d' count
  have horigin : d'.features.map PlacedFeature.origin = d.features.map PlacedFeature.origin := by
    rw [h.features, List.map_map]
    refine List.map_congr_left fun f _ => ?_
    rw [Function.comp_apply]
    split_ifs <;> rfl
  refine ⟨h.moved.of_refeatures hkept hkept', List.ext_getElem? fun k => ?_,
    h.unnamed.layoutFeaturesOf count⟩
  have hf' : d'.features[k]? =
      (d.features[k]?).map fun f => if f.owner < count then f.translate v else f := by
    rw [h.features, List.getElem?_map]
  rw [List.getElem?_map]
  cases hf : d.features[k]? with
  | none =>
    have hnone {e e' : Drawing ℚ} (he : e.Refeatures PlacedFeature.origin e')
        (hk : e.features[k]? = none) : e'.features[k]? = none := by
      rw [List.getElem?_eq_none_iff] at hk ⊢
      rwa [he.keepsRecords.length_features]
    rw [hf, Option.map_none] at hf'
    rw [hnone hkept hf, hnone hkept' hf', Option.map_none]
  | some f =>
    rw [hf, Option.map_some] at hf'
    by_cases hown : f.owner = count
    · subst hown
      rw [if_neg (lt_irrefl _)] at hf'
      rw [h.moved.turn_own h.unnamed horigin hf hf' hcount]
      obtain ⟨g, hg, -, howner⟩ := getElem?_of_refeatures hkept hf
      rw [hg, Option.map_some, Option.map_some, howner, if_pos (Nat.lt_succ_self _)]
    · have howner' : (if f.owner < count then f.translate v else f).owner = f.owner := by
        split_ifs <;> rfl
      have hsame : f.owner < count + 1 ↔ f.owner < count := by omega
      rw [getElem?_layoutFeaturesOf_of_ne hf hown,
        getElem?_layoutFeaturesOf_of_ne hf' (by rwa [howner']), Option.map_some]
      simp only [hsame]

/-- All features move with the sheet. -/
theorem MovedBy.layoutFeatures (m : Composer ℚ) (config : Config ℚ) {d d' : Drawing ℚ}
    (h : d.MovedBy v d') (hfeatures : d'.features = d.features) (hunnamed : d.Unnamed)
    (hin : d.InRange) :
    (d.layoutFeatures m config).value.MovedBy v (d'.layoutFeatures m config).value ∧
      (d'.layoutFeatures m config).value.features =
        (d.layoutFeatures m config).value.features.map (PlacedFeature.translate v) ∧
      (d.layoutFeatures m config).value.Unnamed := by
  have hkept (count : ℕ) : d.Refeatures PlacedFeature.origin
      ((List.range count).foldl (fun d i => (d.layoutFeaturesOf m config i).value) d) :=
    Refeatures.foldl (refeatures_layoutFeaturesOf m config) d _
  have hrun (count : ℕ) (hcount : count ≤ d.classifiers.length) : FurnishedUpTo v count
      ((List.range count).foldl (fun d i => (d.layoutFeaturesOf m config i).value) d)
      ((List.range count).foldl (fun d i => (d.layoutFeaturesOf m config i).value) d') := by
    induction count with
    | zero => exact ⟨h, by simp [hfeatures], hunnamed⟩
    | succ count ih =>
      rw [List.range_succ, List.foldl_concat, List.foldl_concat]
      refine (ih (Nat.le_of_succ_le hcount)).step ?_
      rw [(hkept count).classifiers_eq]
      exact hcount
  have hall := hrun d.classifiers.length le_rfl
  have hin' := hin.of_keepsRecords (hkept d.classifiers.length).keepsRecords
  unfold Drawing.layoutFeatures
  rw [h.length_classifiers, Guarded.value_foldlM, Guarded.value_foldlM]
  refine ⟨hall.moved, ?_, hall.unnamed⟩
  rw [hall.features]
  refine List.map_congr_left fun f hf => if_pos ?_
  have howner := hin'.owners f hf
  rwa [(hkept _).classifiers_eq] at howner

end Drawing

end DiagramLayout
