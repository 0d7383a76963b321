import DiagramLayout.Proofs.Entries
import DiagramLayout.Proofs.Refusal

/-!
# Features may come in any order

Where a feature is placed depends on its classifier, on its own list key and, for an entry, on the
other entries of the classifier in the order of their ranks. If all features have different
identifiers that order is strict, so the entries are the same list whichever way the features are
delivered (`Drawing.Reordered.entries_eq`). Two runs over the same features in different orders then
stay in step: each change of a feature in one drawing is the same change of the same feature in the
other one, at another position (`Drawing.Reordered.modifyFeature`).

The statements hold over any coordinates, floating point included.
-/

namespace DiagramLayout

/-! ## Lists in another order -/

section Lists

variable {β γ ε : Type}

/-- A change of one element of a list and the same change of it in another order of the list. -/
lemma perm_modify {xs ys : List β} (hperm : ys.Perm xs) {i j : ℕ} {x : β} (hi : xs[i]? = some x)
    (hj : ys[j]? = some x) (change : β → β) : (ys.modify j change).Perm (xs.modify i change) := by
  -- the changed list is the changed element in front of all others
  have hfront {zs : List β} {k : ℕ} (hk : zs[k]? = some x) :
      (zs.modify k change).Perm (change x :: zs.eraseIdx k) ∧ (x :: zs.eraseIdx k).Perm zs := by
    obtain ⟨hlt, rfl⟩ := List.getElem?_eq_some_iff.mp hk
    rw [List.modify_eq_take_cons_drop hlt, List.eraseIdx_eq_take_drop_succ]
    refine ⟨List.perm_middle, ?_⟩
    rw [← List.eraseIdx_eq_take_drop_succ]
    exact List.getElem_cons_eraseIdx_perm hlt
  obtain ⟨hxs, hxs'⟩ := hfront hi
  obtain ⟨hys, hys'⟩ := hfront hj
  have hothers : (ys.eraseIdx j).Perm (xs.eraseIdx i) :=
    List.Perm.cons_inv ((hys'.trans hperm).trans hxs'.symm)
  exact (hys.trans (hothers.cons _)).trans hxs.symm

/-- A traversal succeeds in another order too, with the results in that order. -/
lemma exists_mapM_of_perm {f : β → Except ε γ} {xs ys : List β} (hperm : ys.Perm xs)
    {zs : List γ} (h : xs.mapM f = .ok zs) : ∃ zs', ys.mapM f = .ok zs' ∧ zs'.Perm zs := by
  obtain ⟨zs', hall, hzs⟩ := List.perm_comp_forall₂ hperm (mapM_eq_ok_iff.mp h)
  exact ⟨zs', mapM_eq_ok_iff.mpr hall, hzs⟩

end Lists

namespace Drawing

variable {α : Type}

/-- The second drawing has the features of the first one, all with different identifiers, in any
order. What else matters to where they are placed is the same. -/
structure Reordered (d d' : Drawing α) : Prop where
  diagram : d'.diagram = d.diagram
  sheet : d'.sheet = d.sheet
  classifiers : d'.classifiers = d.classifiers
  features : d'.features.Perm d.features
  distinct : (d.features.map (·.element.id)).Nodup

/-- The drawing with the boxes of its classifiers given. -/
def withBoxes (d : Drawing α) (boxes : ℕ → ClassifierBoxes α) : Drawing α :=
  { d with classifiers := d.classifiers.mapIdx fun i c => { c with boxes := boxes i } }

/-- Changing features without changing elements keeps the identifiers. -/
lemma Refeatures.map_id {d d' : Drawing α} (h : Refeatures PlacedFeature.origin d d') :
    d'.features.map (·.element.id) = d.features.map (·.element.id) := by
  have hids := congrArg (List.map fun o : Feature × ℕ => o.1.id) h.map_features
  rwa [List.map_map, List.map_map] at hids

/-- Every entry of the list is in the drawing at the position that is given for it. -/
def Holds (d : Drawing α) (entries : List (ℕ × Feature)) : Prop :=
  ∀ entry ∈ entries, ∃ f, d.features[entry.1]? = some f ∧ f.element = entry.2

/-- A drawing holds the entries of its classifiers. -/
lemma holds_entries (d : Drawing α) (i : ℕ) : d.Holds (d.entries i) := by
  rintro ⟨k, e⟩ hentry
  obtain ⟨f, hf, -, -, helement⟩ := mem_entries.mp hentry
  exact ⟨f, hf, helement⟩

/-- Entries are where they were after a change that keeps the elements. -/
lemma Holds.modifyFeature {d : Drawing α} {entries : List (ℕ × Feature)} (h : d.Holds entries)
    {change : PlacedFeature α → PlacedFeature α} (hchange : ∀ f, (change f).origin = f.origin)
    (k : ℕ) : (d.modifyFeature k change).Holds entries := by
  intro entry hentry
  obtain ⟨f, hf, helement⟩ := h entry hentry
  have hkept := refeatures_modifyFeature hchange d k
  obtain ⟨f', hf', horigin⟩ := getElem?_of_map_eq hkept.map_features hf
  exact ⟨f', hf', (congrArg Prod.fst horigin).trans helement⟩

namespace Reordered

variable {d d' : Drawing α}

/-- Features with the same identifier are the same. -/
lemma eq_of_id_eq (h : d.Reordered d') {f f' : PlacedFeature α} (hf : f ∈ d.features)
    (hf' : f' ∈ d'.features) (hid : f'.element.id = f.element.id) : f' = f :=
  List.inj_on_of_nodup_map h.distinct (h.features.mem_iff.mp hf') hf hid

/-- A classifier lists the same entries, whatever the order of the features. -/
theorem entries_eq (h : d.Reordered d') (i : ℕ) :
    (d'.entries i).map Prod.snd = (d.entries i).map Prod.snd := by
  have hsorted (d : Drawing α) : ((d.entries i).map Prod.snd).Pairwise fun a b =>
      a.entryRank ≤ b.entryRank := List.pairwise_map.mpr (d.pairwise_entryRank i)
  have hperm := ((d'.perm_entries i).trans (h.features.filterMap _)).trans (d.perm_entries i).symm
  refine List.Perm.eq_of_pairwise ?_ (hsorted d') (hsorted d) hperm
  intro a b ha hb hab hba
  obtain ⟨⟨k', _⟩, hentry', rfl⟩ := List.mem_map.mp ha
  obtain ⟨⟨k, _⟩, hentry, rfl⟩ := List.mem_map.mp hb
  obtain ⟨f', hf', -, -, rfl⟩ := mem_entries.mp hentry'
  obtain ⟨f, hf, -, -, rfl⟩ := mem_entries.mp hentry
  have hid := id_eq_of_entryRank_eq (le_antisymm hab hba)
  rw [h.eq_of_id_eq (List.mem_of_getElem? hf) (List.mem_of_getElem? hf') hid]

/-- The classifiers of both drawings may be given the same boxes. -/
lemma withBoxes (h : d.Reordered d') (boxes : ℕ → ClassifierBoxes α) :
    (d.withBoxes boxes).Reordered (d'.withBoxes boxes) where
  diagram := h.diagram
  sheet := h.sheet
  classifiers := by
    rw [Drawing.withBoxes, Drawing.withBoxes, h.classifiers]
  features := h.features
  distinct := h.distinct

/-- The same change of the same feature. -/
lemma modifyFeature (h : d.Reordered d') {k k' : ℕ} {f : PlacedFeature α}
    (hk : d.features[k]? = some f) (hk' : d'.features[k']? = some f)
    {change : PlacedFeature α → PlacedFeature α} (hchange : ∀ f, (change f).origin = f.origin) :
    (d.modifyFeature k change).Reordered (d'.modifyFeature k' change) where
  diagram := h.diagram
  sheet := h.sheet
  classifiers := h.classifiers
  features := perm_modify h.features hk hk' change
  distinct := by
    rw [(refeatures_modifyFeature hchange d k).map_id]
    exact h.distinct

variable [Scalar α]

/-- A classifier asks for the same space, whatever the order of the features. -/
lemma entriesSize_eq (h : d.Reordered d') (m : Composer α) (config : Config α) (i : ℕ) :
    d'.entriesSize m config i = d.entriesSize m config i := by
  have hsizes (d : Drawing α) : ((d.entries i).map fun entry => m.entrySize entry.2) =
      ((d.entries i).map Prod.snd).map m.entrySize := by
    rw [List.map_map]
    rfl
  unfold entriesSize
  rw [hsizes, hsizes, h.entries_eq]

/-- Changing features by the lines of the same entries, each at its position in one drawing and in
the other. -/
lemma foldl_stackEntries (m : Composer α) (border : α) (space : Rect α)
    (change : Rect α → PlacedFeature α → PlacedFeature α)
    (hchange : ∀ box f, (change box f).origin = f.origin) {entries entries' : List (ℕ × Feature)}
    (hsame : entries'.map Prod.snd = entries.map Prod.snd) (h : d.Reordered d')
    (hentries : d.Holds entries) (hentries' : d'.Holds entries') (offset : α) :
    ((stackEntries m border space offset entries).foldl
      (fun d line => d.modifyFeature line.1 (change line.2)) d).Reordered
      ((stackEntries m border space offset entries').foldl
        (fun d line => d.modifyFeature line.1 (change line.2)) d') := by
  induction entries generalizing entries' d d' offset with
  | nil =>
    obtain rfl := List.map_eq_nil_iff.mp hsame
    exact h
  | cons entry rest ih =>
    obtain ⟨entry', rest', rfl, hentry, hrest⟩ := List.map_eq_cons_iff.mp hsame
    obtain ⟨⟨f, hf, helement⟩, hmore⟩ := List.forall_mem_cons.mp hentries
    obtain ⟨⟨f', hf', helement'⟩, hmore'⟩ := List.forall_mem_cons.mp hentries'
    change d.Holds rest at hmore
    change d'.Holds rest' at hmore'
    obtain rfl : f' = f := h.eq_of_id_eq (List.mem_of_getElem? hf) (List.mem_of_getElem? hf')
      (by rw [helement, helement', hentry])
    rw [stackEntries, stackEntries, List.foldl_cons, List.foldl_cons, hentry]
    exact ih hrest (h.modifyFeature hf hf' (hchange _)) (hmore.modifyFeature (hchange _) _)
      (hmore'.modifyFeature (hchange _) _) _

/-- The compartments of a classifier in both drawings. -/
lemma layoutCompartments (h : d.Reordered d') (m : Composer α) (config : Config α) (i : ℕ) :
    (d.layoutCompartments m config i).Reordered (d'.layoutCompartments m config i) := by
  have hboxes : d'.boxes i = d.boxes i := by
    rw [boxes, boxes, h.classifiers]
  unfold Drawing.layoutCompartments
  rw [hboxes]
  exact h.foldl_stackEntries m config.border (d.boxes i).space
    (fun box f => { f with symbol := box, label := .empty, direction := .center })
    (fun _ _ => rfl) (h.entries_eq i) (d.holds_entries i) (d'.holds_entries i) config.border

/-- The features beside a classifier in both drawings. -/
lemma layoutBeside (h : d.Reordered d') (config : Config α) (i : ℕ) :
    (d'.layoutBeside config i).defined = (d.layoutBeside config i).defined ∧
      (d.layoutBeside config i).value.Reordered (d'.layoutBeside config i).value := by
  have hkept := refeatures_layoutBeside config d i
  have hkept' := refeatures_layoutBeside config d' i
  suffices hfeatures : (d'.layoutBeside config i).defined = (d.layoutBeside config i).defined ∧
      (d'.layoutBeside config i).value.features.Perm (d.layoutBeside config i).value.features by
    refine ⟨hfeatures.1, ?_, ?_, ?_, hfeatures.2, ?_⟩
    · rw [hkept.diagram_eq, hkept'.diagram_eq, h.diagram]
    · rw [hkept.sheet_eq, hkept'.sheet_eq, h.sheet]
    · rw [hkept.classifiers_eq, hkept'.classifiers_eq, h.classifiers]
    · rw [hkept.map_id]
      exact h.distinct
  unfold Drawing.layoutBeside
  rw [h.classifiers]
  cases d.classifiers[i]? with
  | none => exact ⟨rfl, h.features⟩
  | some owner =>
    simp only [Guarded.defined_bind, Guarded.defined_pure, Guarded.value_bind, Guarded.value_pure,
      Guarded.value_mapM, Guarded.defined_mapM_eq_all, h.diagram, h.sheet]
    exact ⟨by rw [h.features.all_eq], h.features.map _⟩

/-- The turn of a classifier in both drawings. -/
theorem layoutFeaturesOf (h : d.Reordered d') (m : Composer α) (config : Config α) (i : ℕ) :
    (d'.layoutFeaturesOf m config i).defined = (d.layoutFeaturesOf m config i).defined ∧
      (d.layoutFeaturesOf m config i).value.Reordered (d'.layoutFeaturesOf m config i).value := by
  obtain ⟨hdefined, hbeside⟩ := h.layoutBeside config i
  unfold Drawing.layoutFeaturesOf
  simp only [Guarded.defined_bind, Guarded.defined_pure, Guarded.value_bind, Guarded.value_pure,
    Bool.and_true]
  exact ⟨hdefined, hbeside.layoutCompartments m config i⟩

/-- All turns in both drawings. -/
theorem layoutFeatures (h : d.Reordered d') (m : Composer α) (config : Config α) :
    (d'.layoutFeatures m config).defined = (d.layoutFeatures m config).defined ∧
      (d.layoutFeatures m config).value.Reordered (d'.layoutFeatures m config).value := by
  unfold Drawing.layoutFeatures
  rw [h.classifiers]
  induction List.range d.classifiers.length generalizing d d' with
  | nil => exact ⟨rfl, h⟩
  | cons i rest ih =>
    obtain ⟨hdefined, hturn⟩ := h.layoutFeaturesOf m config i
    obtain ⟨hrest, hrun⟩ := ih hturn
    simp only [List.foldlM_cons, Guarded.defined_bind, Guarded.value_bind]
    rw [hdefined, hrest]
    exact ⟨rfl, hrun⟩

end Reordered

variable [Scalar α]

/-- Features with the same identifiers are placed in the same way in both drawings, and their
classifiers ask for the same space. -/
structure PlacesAlike (m : Composer α) (config : Config α) (d d' : Drawing α) : Prop where
  entriesSize : ∀ i, d'.entriesSize m config i = d.entriesSize m config i
  defined : (d'.layoutFeatures m config).defined = (d.layoutFeatures m config).defined
  /-- Every feature of one drawing is in the other one. -/
  ids : ((d'.layoutFeatures m config).value.features.map (·.element.id)).Perm
    ((d.layoutFeatures m config).value.features.map (·.element.id))
  icon : ∀ f ∈ (d.layoutFeatures m config).value.features,
    ∀ f' ∈ (d'.layoutFeatures m config).value.features, f'.element.id = f.element.id →
      f'.symbol = f.symbol ∧ f'.direction = f.direction

/-- Features are placed in the same way whatever their order. -/
theorem Reordered.placesAlike {d d' : Drawing α} (h : d.Reordered d') (m : Composer α)
    (config : Config α) : PlacesAlike m config d d' := by
  obtain ⟨hdefined, hplaced⟩ := h.layoutFeatures m config
  refine ⟨h.entriesSize_eq m config, hdefined, hplaced.features.map _, ?_⟩
  intro f hf f' hf' hid
  rw [hplaced.eq_of_id_eq hf hf' hid]
  exact ⟨rfl, rfl⟩

end Drawing

section Sets

variable {α : Type} [Scalar α] {config : Config α} {bounds : Rect α} {s : ElementSet}

/-- A set whose features have different identifiers can be drawn with them in any order. -/
lemma ElementSet.exists_reordered {d : Drawing α} (h : Drawing.ofElements s bounds config = .ok d)
    (hids : (s.features.map Feature.id).Nodup) {fs : List Feature} (hfs : fs.Perm s.features) :
    ∃ d', Drawing.ofElements { s with features := fs } bounds config = .ok d' ∧
      d.Reordered d' := by
  obtain ⟨ps, hps, hrest⟩ := bind_eq_ok_iff.mp h
  obtain ⟨rs, hrs, hd⟩ := bind_eq_ok_iff.mp hrest
  obtain ⟨ps', hps', hperm⟩ := exists_mapM_of_perm hfs hps
  have hfeatures (id : RowId) (hid : s.HasFeature id) :
      ElementSet.HasFeature { s with features := fs } id := by
    obtain ⟨f, hf, hid⟩ := hid
    exact ⟨f, hfs.mem_iff.mpr hf, hid⟩
  obtain ⟨rs', hrs'⟩ : ∃ rs', s.relationships.mapM
      (RoutedRelationship.ofElement (α := α) { s with features := fs }) = .ok rs' := by
    refine exists_mapM_iff.mpr fun r hr => RoutedRelationship.exists_ofElement_iff.mpr ?_
    have hresolves := RoutedRelationship.exists_ofElement_iff.mp
      (exists_mapM_iff.mp ⟨rs, hrs⟩ r hr)
    exact ⟨hresolves.source, hresolves.target,
      fun id hid => hfeatures id (hresolves.sourceFeature id hid),
      fun id hid => hfeatures id (hresolves.targetFeature id hid)⟩
  refine ⟨_, bind_eq_ok_iff.mpr ⟨ps', hps', bind_eq_ok_iff.mpr ⟨rs', hrs', rfl⟩⟩, ?_⟩
  rw [← Except.ok.inj hd]
  refine ⟨rfl, rfl, rfl, hperm, ?_⟩
  have helements : ps.map (·.element) = s.features :=
    map_of_mapM hps fun f p hp => by
      obtain ⟨owner, -, rfl⟩ := PlacedFeature.ofElement_eq_ok_iff.mp hp
      rfl
  rw [← helements, List.map_map] at hids
  exact hids

/-- If the features of a set have different identifiers, the order in which they are delivered does
not matter to where they are placed, whatever boxes the classifiers have. -/
theorem ElementSet.layoutFeatures_reordered {d : Drawing α}
    (h : Drawing.ofElements s bounds config = .ok d) (hids : (s.features.map Feature.id).Nodup)
    {fs : List Feature} (hfs : fs.Perm s.features) (m : Composer α) :
    ∃ d', Drawing.ofElements { s with features := fs } bounds config = .ok d' ∧
      ∀ boxes : ℕ → ClassifierBoxes α,
        Drawing.PlacesAlike m config (d.withBoxes boxes) (d'.withBoxes boxes) := by
  obtain ⟨d', hd', hreordered⟩ := ElementSet.exists_reordered h hids hfs
  exact ⟨d', hd', fun boxes => (hreordered.withBoxes boxes).placesAlike m config⟩

end Sets

/-- A component with a port, an interface and two operations of the same list key. -/
def equippedComponent : ElementSet where
  diagram := ⟨⟨1⟩, .component, ""⟩
  limits := .standard
  classifiers := [⟨⟨1⟩, .component, "", 0, 0, false⟩]
  features :=
    [⟨⟨14⟩, ⟨1⟩, .operation, "open", "", 5⟩, ⟨⟨11⟩, ⟨1⟩, .port, "in", "", 0⟩,
      ⟨⟨13⟩, ⟨1⟩, .operation, "close", "", 5⟩, ⟨⟨12⟩, ⟨1⟩, .requiredInterface, "bus", "", -9⟩]
  relationships := []

/-- The drawing of the component before anything is computed. -/
def equippedComponentStart : Drawing ℚ where
  diagram := equippedComponent.diagram
  sheet := .ofBounds (.ofCorner 0 0 800 600) .standard .xy
  nesting := .ofElements equippedComponent 4
  classifiers := equippedComponent.classifiers.map (⟨·, .unplaced⟩)
  features := equippedComponent.features.map (⟨·, 0, .empty, .empty, .center⟩)
  relationships := []

/-- The features of the component may be delivered the other way round. -/
theorem layoutFeatures_reordered_equippedComponent :
    Drawing.ofElements equippedComponent (.ofCorner 0 0 800 600) .standard =
        .ok equippedComponentStart ∧
      ∃ d', Drawing.ofElements
          { equippedComponent with features := equippedComponent.features.reverse }
          (.ofCorner 0 0 800 600) .standard = .ok d' ∧
        ∀ boxes : ℕ → ClassifierBoxes ℚ,
          Drawing.PlacesAlike (.ofConfig .standard) .standard
            (equippedComponentStart.withBoxes boxes) (d'.withBoxes boxes) := by
  have hstart : Drawing.ofElements equippedComponent (.ofCorner 0 0 800 600) .standard =
      .ok equippedComponentStart := by
    decide +kernel
  exact ⟨hstart, ElementSet.layoutFeatures_reordered hstart (by decide) (List.reverse_perm _) _⟩

end DiagramLayout
