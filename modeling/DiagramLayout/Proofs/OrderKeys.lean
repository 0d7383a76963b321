import DiagramLayout.Proofs.Refusal
import DiagramLayout.Proofs.Relabeling.Completion
import DiagramLayout.Proofs.Routing.Timed
import DiagramLayout.Proofs.Scale

/-!
# Order keys matter by their order only

Keys are looked up on a scale only after they have been registered there, so the location of a key
is that of its cell, whose number is the number of smaller keys. Keys that are replaced in such a
way that their order stays therefore have the same locations: in `ElementSet.layout_rekey` the keys
of classifiers and relationships are replaced, those along `x`, along `y` and in the list of
relationships each in their own way, and every record of the layout is the same. An extreme key is
not special, as it is on the scale itself when it is looked up.

All this holds over any coordinates.
-/

namespace DiagramLayout

/-! ## Keys that keep their order -/

/-- The keys of a list are replaced without changing which of two is the smaller one. -/
def KeepsOrder (f : OrderKey → OrderKey) (keys : List OrderKey) : Prop :=
  ∀ a ∈ keys, ∀ b ∈ keys, a < b → f a < f b

/-- The keys of the list are tried, not all keys there are. -/
instance (f : OrderKey → OrderKey) (keys : List OrderKey) : Decidable (KeepsOrder f keys) :=
  have _ (a : OrderKey) : Decidable (∀ b ∈ keys, a < b → f a < f b) :=
    List.decidableBAll (fun b => a < b → f a < f b) keys
  List.decidableBAll (fun a => ∀ b ∈ keys, a < b → f a < f b) keys

namespace KeepsOrder

variable {f : OrderKey → OrderKey} {keys keys' : List OrderKey}

/-- Fewer keys keep their order as well. -/
lemma mono (h : KeepsOrder f keys) (hsub : ∀ k ∈ keys', k ∈ keys) : KeepsOrder f keys' :=
  fun a ha b hb => h a (hsub a ha) b (hsub b hb)

/-- The order of two keys is that of their replacements. -/
lemma lt_iff (h : KeepsOrder f keys) {a b : OrderKey} (ha : a ∈ keys) (hb : b ∈ keys) :
    f a < f b ↔ a < b := by
  refine ⟨fun hlt => ?_, h a ha b hb⟩
  by_contra hge
  rcases Int32.lt_or_eq_of_le (Int32.not_lt.mp hge) with hba | rfl
  · exact Int32.lt_asymm hlt (h b hb a ha hba)
  · exact Int32.lt_irrefl hlt

/-- Different keys have different replacements. -/
lemma eq_iff (h : KeepsOrder f keys) {a b : OrderKey} (ha : a ∈ keys) (hb : b ∈ keys) :
    f a = f b ↔ a = b := by
  constructor
  · intro heq
    by_contra hne
    rcases Int32.lt_or_lt_of_ne hne with hlt | hlt
    · exact Int32.lt_irrefl (heq ▸ h a ha b hb hlt)
    · exact Int32.lt_irrefl (heq ▸ h b hb a ha hlt)
  · rintro rfl
    rfl

end KeepsOrder

namespace Scale

variable {α : Type} [Scalar α]

/-- The scale with its keys replaced. -/
def mapKeys (f : OrderKey → OrderKey) (s : Scale α) : Scale α := { s with keys := s.keys.map f }

omit [Scalar α] in
/-- A key is inserted at the same place after all have been replaced. -/
lemma insertKey_map {f : OrderKey → OrderKey} {key : OrderKey} {keys : List OrderKey}
    (h : KeepsOrder f (key :: keys)) :
    insertKey (f key) (keys.map f) = (insertKey key keys).map f := by
  induction keys with
  | nil => rfl
  | cons k ks ih =>
    have hkey : key ∈ key :: k :: ks := List.mem_cons_self
    have hk : k ∈ key :: k :: ks := List.mem_cons_of_mem key List.mem_cons_self
    have hrest : KeepsOrder f (key :: ks) := h.mono fun a ha => by
      rcases List.mem_cons.mp ha with rfl | ha
      · exact List.mem_cons_self
      · exact List.mem_cons_of_mem _ (List.mem_cons_of_mem k ha)
    simp only [List.map_cons, insertKey, h.lt_iff hkey hk, h.eq_iff hkey hk]
    split_ifs
    · rfl
    · rfl
    · rw [ih hrest, List.map_cons]

/-- There are as many cells after all keys have been replaced. -/
lemma middles_mapKeys (f : OrderKey → OrderKey) (s : Scale α) :
    (s.mapKeys f).middles = s.middles := by
  unfold middles cell mapKeys
  rw [List.length_map]

/-- Anchors are placed alike before and after all keys have been replaced. -/
lemma relocate_mapKeys (f : OrderKey → OrderKey) (s : Scale α) :
    (s.mapKeys f).relocate = s.relocate.mapKeys f := by
  rw [relocate, middles_mapKeys]
  rfl

/-- A key is registered in the same cell after all have been replaced. -/
lemma addKey_mapKeys {f : OrderKey → OrderKey} {key : OrderKey} {s : Scale α}
    (h : KeepsOrder f (key :: s.keys)) :
    (s.mapKeys f).addKey (f key) = (s.addKey key).mapKeys f := by
  have hmem : f key ∈ s.keys.map f ↔ key ∈ s.keys := by
    constructor
    · intro hmap
      obtain ⟨k, hk, heq⟩ := List.mem_map.mp hmap
      have hsame := (h.eq_iff (List.mem_cons_of_mem key hk) List.mem_cons_self).mp heq
      exact hsame ▸ hk
    · exact List.mem_map_of_mem
  have hkeys : (s.mapKeys f).keys = s.keys.map f := rfl
  unfold addKey
  simp only [hkeys, hmem]
  split_ifs
  · rfl
  · have hinsert : { s.mapKeys f with keys := insertKey (f key) (s.keys.map f) } =
        mapKeys f { s with keys := insertKey key s.keys } := by
      rw [insertKey_map h]
      rfl
    rw [hinsert, relocate_mapKeys]

/-- Keys are registered in the same cells after all have been replaced. -/
lemma foldl_addKey_mapKeys {f : OrderKey → OrderKey} {keys : List OrderKey} {s : Scale α}
    (h : KeepsOrder f (keys ++ s.keys)) :
    (keys.map f).foldl addKey (s.mapKeys f) = (keys.foldl addKey s).mapKeys f := by
  induction keys generalizing s with
  | nil => rfl
  | cons k ks ih =>
    have hfirst : (s.mapKeys f).addKey (f k) = (s.addKey k).mapKeys f := by
      refine addKey_mapKeys (h.mono fun a ha => ?_)
      rcases List.mem_cons.mp ha with rfl | ha
      · exact List.mem_cons_self
      · exact List.mem_append_right _ ha
    rw [List.map_cons, List.foldl_cons, List.foldl_cons, hfirst]
    refine ih (h.mono fun a ha => ?_)
    rcases List.mem_append.mp ha with ha | ha
    · exact List.mem_append_left _ (List.mem_cons_of_mem k ha)
    · rcases mem_keys_addKey.mp ha with rfl | ha
      · exact List.mem_append_left _ List.mem_cons_self
      · exact List.mem_append_right _ ha

/-- A range is set alike before and after all keys have been replaced. -/
lemma setRange_mapKeys (f : OrderKey → OrderKey) (s : Scale α) (lower upper : α) :
    (s.mapKeys f).setRange lower upper = (s.setRange lower upper).mapKeys f :=
  relocate_mapKeys f
    { s with lower := (orderedRange lower upper).1, upper := (orderedRange lower upper).2 }

omit [Scalar α] in
/-- A scale without keys has none to replace. -/
lemma mapKeys_of_nil {s : Scale α} (hempty : s.keys = []) (f : OrderKey → OrderKey) :
    s.mapKeys f = s := by
  rw [mapKeys, hempty, List.map_nil, ← hempty]

/-- On a scale without keys the replaced keys of a list are those of the keys replaced. -/
lemma foldl_addKey_map {f : OrderKey → OrderKey} {keys : List OrderKey} {s : Scale α}
    (hempty : s.keys = []) (h : KeepsOrder f keys) :
    (keys.map f).foldl addKey s = (keys.foldl addKey s).mapKeys f := by
  have hkeys : KeepsOrder f (keys ++ s.keys) := by rwa [hempty, List.append_nil]
  rw [← foldl_addKey_mapKeys hkeys, mapKeys_of_nil hempty]

omit [Scalar α] in
/-- Replaced keys ascend if the keys do. -/
lemma Ascending.mapKeys {f : OrderKey → OrderKey} {s : Scale α} (h : s.Ascending)
    (hf : KeepsOrder f s.keys) : (s.mapKeys f).Ascending :=
  List.pairwise_map.mpr (h.imp_of_mem fun {a b} ha hb hab => hf a ha b hb hab)

/-- The anchors of replaced keys are in the middles of their cells if the anchors of the keys are. -/
lemma Centered.mapKeys {s : Scale α} (h : s.Centered) (f : OrderKey → OrderKey) :
    (s.mapKeys f).Centered := by
  rw [Centered, middles_mapKeys]
  exact h

/-- A registered key has the location of its replacement. -/
theorem location_mapKeys {f : OrderKey → OrderKey} {s : Scale α} (h : s.Ascending)
    (hcentered : s.Centered) (hf : KeepsOrder f s.keys) {key : OrderKey} (hkey : key ∈ s.keys) :
    (s.mapKeys f).location (f key) = s.location key := by
  obtain ⟨i, hi⟩ := List.mem_iff_getElem?.mp hkey
  have hi' : (s.mapKeys f).keys[i]? = some (f key) := by
    rw [mapKeys, List.getElem?_map, hi, Option.map_some]
  have hcell : (s.mapKeys f).cell = s.cell := by
    rw [cell, cell, mapKeys, List.length_map]
  rw [location_eq_of_getElem? h hcentered hi,
    location_eq_of_getElem? (h.mapKeys hf) (hcentered.mapKeys f) hi', hcell]
  rfl

end Scale

/-! ## Drawings with other keys -/

/-- The classifier with its keys replaced. -/
def Classifier.rekey (f g : OrderKey → OrderKey) (c : Classifier) : Classifier :=
  { c with xKey := f c.xKey, yKey := g c.yKey }

/-- The relationship with its key replaced. -/
def Relationship.rekey (h : OrderKey → OrderKey) (r : Relationship) : Relationship :=
  { r with listKey := h r.listKey }

/-- The keys of classifiers along either axis and the keys of relationships replaced. -/
def Relabeling.ofKeys (f g h : OrderKey → OrderKey) : Relabeling where
  diagram := id
  classifier := Classifier.rekey f g
  feature := id
  relationship := Relationship.rekey h
  diagram_kind _ := rfl
  classifier_kind _ := rfl
  classifier_name _ := rfl
  classifier_grayOut _ := rfl
  feature_kind _ := rfl
  feature_key _ := rfl
  feature_value _ := rfl
  feature_listKey _ := rfl
  feature_order _ _ := rfl
  relationship_kind _ := rfl
  relationship_name _ := rfl

/-- The relabeling replaces keys in this way, whatever else it replaces. -/
structure Relabeling.Rekeys (ρ : Relabeling) (f g h : OrderKey → OrderKey) : Prop where
  xKey : ∀ c, (ρ.classifier c).xKey = f c.xKey
  yKey : ∀ c, (ρ.classifier c).yKey = g c.yKey
  listKey : ∀ r, (ρ.relationship r).listKey = h r.listKey

lemma Relabeling.rekeys_ofKeys (f g h : OrderKey → OrderKey) :
    (Relabeling.ofKeys f g h).Rekeys f g h :=
  ⟨fun _ => rfl, fun _ => rfl, fun _ => rfl⟩

namespace Drawing

variable {α : Type} [Scalar α]

/-- No key is registered along an axis. -/
def Unregistered (d : Drawing α) : Prop := ∀ axis, (d.sheet.grid.scale axis).keys = []

/-- No key is registered before anything is computed. -/
lemma unregistered_of_ofElements {s : ElementSet} {bounds : Rect α} {config : Config α}
    {d : Drawing α} (h : ofElements s bounds config = .ok d) : d.Unregistered := by
  rw [Unregistered, (ofElements_eq_ok h).2]
  intro axis
  cases axis <;> rfl

variable {d : Drawing α}

/-- The registered keys ascend. -/
lemma Unregistered.ascending (hd : d.Unregistered) (axis : Axis) :
    (d.registerKeys.sheet.grid.scale axis).Ascending := by
  have hempty : (d.sheet.grid.scale axis).Ascending := by
    rw [Scale.Ascending, hd axis]
    exact List.Pairwise.nil
  rw [scale_registerKeys_eq]
  split_ifs
  · exact hempty.foldl_addKey _
  · exact hempty

/-- The registered keys are those of the classifiers, on an axis that places classifiers. -/
lemma Unregistered.mem_keys (hd : d.Unregistered) (axis : Axis) {key : OrderKey} :
    key ∈ (d.registerKeys.sheet.grid.scale axis).keys ↔
      d.sheet.grid.kind.places axis = true ∧ key ∈ d.classifierKeys axis := by
  rw [scale_registerKeys_eq]
  split_ifs with hplaces
  · simp [Scale.mem_keys_foldl_addKey, hd axis, hplaces]
  · simp [hd axis, hplaces]

/-- The anchors of registered keys are in the middles of their cells. -/
lemma Unregistered.centered (hd : d.Unregistered) {axis : Axis} {key : OrderKey}
    (hkey : key ∈ (d.registerKeys.sheet.grid.scale axis).keys) :
    (d.registerKeys.sheet.grid.scale axis).Centered := by
  obtain ⟨hplaces, hmem⟩ := (hd.mem_keys axis).mp hkey
  rw [scale_registerKeys_eq, if_pos hplaces]
  exact Scale.centered_foldl_addKey (hd axis) hmem

variable {ρ : Relabeling} {f g h : OrderKey → OrderKey}

/-- Keys that keep their order are registered in the same cells, on an axis that places
classifiers or not. -/
lemma mapKeys_register {s : Scale α} (hempty : s.keys = []) {keys : List OrderKey}
    (hf : KeepsOrder f keys) (places : Bool) :
    (if places then (keys.map f).foldl Scale.addKey s else s) =
      (if places then keys.foldl Scale.addKey s else s).mapKeys f := by
  split_ifs
  · exact Scale.foldl_addKey_map hempty hf
  · exact (Scale.mapKeys_of_nil hempty f).symm

/-- Registering the replaced keys replaces the registered keys. -/
lemma Unregistered.registerKeys_relabel (hd : d.Unregistered) (hρ : ρ.Rekeys f g h)
    (hf : KeepsOrder f (d.classifierKeys .x)) (hg : KeepsOrder g (d.classifierKeys .y)) :
    (d.relabel ρ d.sheet.grid.x d.sheet.grid.y).registerKeys =
      d.registerKeys.relabel ρ (d.registerKeys.sheet.grid.x.mapKeys f)
        (d.registerKeys.sheet.grid.y.mapKeys g) := by
  have hxKeys : ((d.classifiers.map (PlacedClassifier.relabel ρ)).map
      (·.element.xKey)) = (d.classifierKeys .x).map f := by
    rw [classifierKeys, List.map_map, List.map_map]
    exact List.map_congr_left fun c _ => hρ.xKey c.element
  have hyKeys : ((d.classifiers.map (PlacedClassifier.relabel ρ)).map
      (·.element.yKey)) = (d.classifierKeys .y).map g := by
    rw [classifierKeys, List.map_map, List.map_map]
    exact List.map_congr_left fun c _ => hρ.yKey c.element
  have hx : d.sheet.grid.x.keys = [] := hd .x
  have hy : d.sheet.grid.y.keys = [] := hd .y
  unfold registerKeys modifyGrid
  dsimp only
  rw [Grid.foldl_addKeys_eq, Grid.foldl_addKeys_eq, relabel_classifiers, hxKeys, hyKeys]
  unfold relabel
  dsimp only
  rw [mapKeys_register hx hf, mapKeys_register hy hg]
  rfl

/-- Replaced keys belong at the places of the keys. -/
lemma Unregistered.samePlaces (config : Config α) (hd : d.Unregistered) (hρ : ρ.Rekeys f g h)
    (hf : KeepsOrder f (d.classifierKeys .x)) (hg : KeepsOrder g (d.classifierKeys .y)) :
    d.registerKeys.SamePlaces config ρ (d.registerKeys.sheet.grid.x.mapKeys f)
      (d.registerKeys.sheet.grid.y.mapKeys g) := by
  intro c hc symbol
  have hx : d.sheet.grid.kind.places .x = true →
      (d.registerKeys.sheet.grid.x.mapKeys f).location (f c.element.xKey) =
        d.registerKeys.sheet.grid.x.location c.element.xKey := by
    intro hplaces
    have hkey := (hd.mem_keys .x).mpr ⟨hplaces, List.mem_map_of_mem hc⟩
    exact Scale.location_mapKeys (hd.ascending .x) (hd.centered hkey)
      (hf.mono fun k hk => ((hd.mem_keys .x).mp hk).2) hkey
  have hy : d.sheet.grid.kind.places .y = true →
      (d.registerKeys.sheet.grid.y.mapKeys g).location (g c.element.yKey) =
        d.registerKeys.sheet.grid.y.location c.element.yKey := by
    intro hplaces
    have hkey := (hd.mem_keys .y).mpr ⟨hplaces, List.mem_map_of_mem hc⟩
    exact Scale.location_mapKeys (hd.ascending .y) (hd.centered hkey)
      (hg.mono fun k hk => ((hd.mem_keys .y).mp hk).2) hkey
  unfold gridTarget
  rw [relabel_grid_kind, relabel_drawArea, kind_registerKeys, hρ.xKey, hρ.yKey]
  cases hkind : d.sheet.grid.kind with
  | xy =>
    rw [hkind] at hx hy
    exact congrArg₂ Point.mk (hx rfl) (hy rfl)
  | timeY =>
    rw [hkind] at hx
    exact congrArg (Point.mk · _) (hx rfl)
  | timeX =>
    rw [hkind] at hy
    exact congrArg (Point.mk _) (hy rfl)

/-! ## Times -/

/-- The scale of the messages is what was there before, with their keys and over the time there
is. -/
lemma messageScale_eq (config : Config α) (axis : Axis) (d : Drawing α) :
    d.messageScale config axis =
      (d.showMessages.messageKeys.foldl Scale.addKey (d.sheet.grid.scale axis)).setRange
        (d.showMessages.timeStart config axis)
        (Scalar.max (d.showMessages.timeEnd config axis)
          (d.showMessages.timeStart config axis)) := by
  cases axis <;> rfl

omit [Scalar α] in
/-- Messages have the replaced keys. -/
lemma messageKeys_relabel (hρ : ρ.Rekeys f g h) {x y : Scale α} :
    (d.relabel ρ x y).showMessages.messageKeys = d.showMessages.messageKeys.map h := by
  rw [showMessages_relabel]
  unfold messageKeys
  rw [relabel_relationships, List.filter_map, List.map_map, List.map_map]
  exact List.map_congr_left fun r _ => hρ.listKey r.element

/-- Relabeled classifiers have their heads at the same places. -/
lemma timeStart_relabel (config : Config α) (ρ : Relabeling) {x y : Scale α} (axis : Axis) :
    (d.relabel ρ x y).showMessages.timeStart config axis =
      d.showMessages.timeStart config axis := by
  rw [showMessages_relabel]
  unfold timeStart
  rw [relabel_classifiers, List.map_map, relabel_drawArea]
  rfl

/-- A scale for replaced keys of messages is the scale of the messages with its keys replaced. -/
lemma messageScale_relabel (config : Config α) (hρ : ρ.Rekeys f g h) {axis : Axis} {x y : Scale α}
    (hempty : (d.sheet.grid.scale axis).keys = [])
    (hscale : (d.relabel ρ x y).sheet.grid.scale axis = d.sheet.grid.scale axis)
    (hh : KeepsOrder h d.showMessages.messageKeys) :
    (d.relabel ρ x y).messageScale config axis = (d.messageScale config axis).mapKeys h := by
  have hend : (d.relabel ρ x y).showMessages.timeEnd config axis =
      d.showMessages.timeEnd config axis := rfl
  rw [messageScale_eq, messageScale_eq, messageKeys_relabel hρ, timeStart_relabel, hend, hscale,
    Scale.foldl_addKey_map hempty hh, Scale.setRange_mapKeys]

/-- Messages with replaced keys have the times of the messages. -/
lemma sameTimes_relabel (config : Config α) (hρ : ρ.Rekeys f g h) {x y : Scale α}
    (hempty : ∀ axis, d.sheet.grid.kind.timeAxis = some axis →
      (d.sheet.grid.scale axis).keys = [] ∧
        (d.relabel ρ x y).sheet.grid.scale axis = d.sheet.grid.scale axis)
    (hh : KeepsOrder h (d.relationships.map (·.element.listKey))) :
    d.SameTimes config ρ x y := by
  intro axis haxis r hr hdrawn
  obtain ⟨hnone, hscale⟩ := hempty axis haxis
  have hmessages : KeepsOrder h d.showMessages.messageKeys := by
    refine hh.mono fun k hk => ?_
    obtain ⟨q, hq, rfl⟩ := List.mem_map.mp hk
    obtain ⟨q₀, hq₀, rfl⟩ := List.mem_map.mp (List.mem_filter.mp hq).1
    exact List.mem_map.mpr ⟨q₀, hq₀, rfl⟩
  have hkeys : (d.messageScale config axis).keys =
      (d.showMessages.messageKeys.foldl Scale.addKey (d.sheet.grid.scale axis)).keys := by
    rw [messageScale_eq]
    rfl
  have hascending : (d.messageScale config axis).Ascending := by
    rw [Scale.Ascending, hkeys]
    refine Scale.Ascending.foldl_addKey ?_ _
    rw [Scale.Ascending, hnone]
    exact List.Pairwise.nil
  have hmem {k : OrderKey} :
      k ∈ (d.messageScale config axis).keys ↔ k ∈ d.showMessages.messageKeys := by
    rw [hkeys, Scale.mem_keys_foldl_addKey, hnone]
    simp
  have hcentered : (d.messageScale config axis).Centered := by
    rw [messageScale_eq]
    exact Scale.centered_setRange _ _ _
  rw [messageScale_relabel config hρ hnone hscale hmessages, hρ.listKey]
  refine Scale.location_mapKeys hascending hcentered (hmessages.mono fun k hk => hmem.mp hk) ?_
  exact hmem.mpr (List.mem_map_of_mem (List.mem_filter.mpr ⟨hr, hdrawn⟩))

/-! ## The whole layout -/

/-- Until relationships are routed the sheet is the one that has the keys of the classifiers. -/
lemma sheet_beforeRouting (m : Composer α) (config : Config α) (d : Drawing α) :
    (d.beforeRouting m config).value.sheet = d.initVisibility.registerKeys.sheet := by
  unfold beforeRouting layoutClassifiers
  simp only [Guarded.value_bind, Guarded.value_pure]
  rw [(refeatures_layoutFeatures m config _).sheet_eq, (relates_hideNested _).sheet_eq,
    (reboxes_gatherGroups m config _).sheet_eq, (relates_hideNested _).sheet_eq,
    (reboxes_embraceChildren m config _).sheet_eq, (reboxes_moveApart config _).sheet_eq]
  rfl

/-- Until relationships are routed all records stand for what they stood for. -/
lemma keepsRecords_beforeRouting (m : Composer α) (config : Config α) (d : Drawing α) :
    d.KeepsRecords (d.beforeRouting m config).value := by
  unfold beforeRouting
  simp only [Guarded.value_bind]
  exact ((keepsRecords_initVisibility d).trans (keepsRecords_layoutClassifiers m config _)).trans
    (refeatures_layoutFeatures m config _).keepsRecords

/-- A layout on a sheet without keys is the layout of the relabeled drawing, apart from what is
relabeled, if replaced keys keep their order. -/
theorem Unregistered.complete_relabel (m : Composer α) (config : Config α) (hd : d.Unregistered)
    (hρ : ρ.Rekeys f g h) (hf : KeepsOrder f (d.classifierKeys .x))
    (hg : KeepsOrder g (d.classifierKeys .y))
    (hh : KeepsOrder h (d.relationships.map (·.element.listKey))) :
    ∃ x y, (d.relabel ρ d.sheet.grid.x d.sheet.grid.y).complete m config =
      relabel ρ x y <$> d.complete m config := by
  obtain ⟨rs, hstart, -⟩ := relates_initVisibility d
  set e : Drawing α := { d with relationships := rs }
  have he : e.Unregistered := hd
  have hplaces : (d.initVisibility.relabel ρ d.sheet.grid.x
      d.sheet.grid.y).estimateBounds m config =
      (d.initVisibility.estimateBounds m config).relabel ρ
        (e.registerKeys.sheet.grid.x.mapKeys f) (e.registerKeys.sheet.grid.y.mapKeys g) := by
    rw [hstart]
    exact estimateBounds_relabel m config ρ (he.registerKeys_relabel hρ hf hg)
      (he.samePlaces config hρ hf hg)
  refine Drawing.complete_relabel m config _ _ _ d hplaces fun _ =>
    sameTimes_relabel config hρ ?_ ?_
  · intro axis haxis
    have hsheet : (d.beforeRouting m config).value.sheet = e.registerKeys.sheet := by
      rw [sheet_beforeRouting, hstart]
    rw [hsheet, kind_registerKeys] at haxis
    have hnone : (e.registerKeys.sheet.grid.scale axis).keys = [] := by
      refine List.eq_nil_iff_forall_not_mem.mpr fun k hk => ?_
      have hplace := ((he.mem_keys axis).mp hk).1
      simp [GridKind.places, haxis] at hplace
    rw [hsheet]
    refine ⟨hnone, ?_⟩
    cases axis with
    | x => exact Scale.mapKeys_of_nil hnone f
    | y => exact Scale.mapKeys_of_nil hnone g
  · have hkeys := congrArg (List.map fun r => r.1.listKey)
      (keepsRecords_beforeRouting m config d).relationships
    rw [List.map_map, List.map_map] at hkeys
    have hlistKey : (fun r : Relationship × (ℕ × ℕ) × Option ℕ × Option ℕ => r.1.listKey) ∘
        RoutedRelationship.references =
        fun r : RoutedRelationship α => r.element.listKey := rfl
    rw [hlistKey] at hkeys
    rw [hkeys]
    exact hh

/-- A layout on a sheet without keys is the layout for the replaced keys, apart from these. -/
theorem Unregistered.complete_ofKeys (m : Composer α) (config : Config α) (hd : d.Unregistered)
    (hf : KeepsOrder f (d.classifierKeys .x)) (hg : KeepsOrder g (d.classifierKeys .y))
    (hh : KeepsOrder h (d.relationships.map (·.element.listKey))) :
    ∃ x y, (d.relabel (.ofKeys f g h) d.sheet.grid.x d.sheet.grid.y).complete m config =
      relabel (.ofKeys f g h) x y <$> d.complete m config :=
  hd.complete_relabel m config (Relabeling.rekeys_ofKeys f g h) hf hg hh

end Drawing

/-! ## Sets with other keys -/

namespace ElementSet

variable {α : Type} [Scalar α]

/-- The set with the keys of classifiers along `x` and along `y` and the keys of relationships
replaced. -/
def rekey (f g h : OrderKey → OrderKey) (s : ElementSet) : ElementSet :=
  { s with
    classifiers := s.classifiers.map (Classifier.rekey f g)
    relationships := s.relationships.map (Relationship.rekey h) }

variable (f g h : OrderKey → OrderKey) (s : ElementSet)

lemma classifierPosition_rekey (id : RowId) :
    (s.rekey f g h).classifierPosition id = s.classifierPosition id := by
  unfold classifierPosition rekey
  rw [List.findIdx?_map]
  rfl

/-- A feature is recorded with the same owner. -/
lemma ofElement_feature_rekey (p : Feature) :
    PlacedFeature.ofElement (α := α) (s.rekey f g h) p = PlacedFeature.ofElement s p := by
  unfold PlacedFeature.ofElement resolveClassifier
  rw [classifierPosition_rekey]

/-- A relationship is recorded with the same ends. -/
lemma ofElement_relationship_rekey (r : Relationship) :
    RoutedRelationship.ofElement (α := α) (s.rekey f g h) (r.rekey h) =
      RoutedRelationship.relabel (.ofKeys f g h) <$> RoutedRelationship.ofElement s r := by
  unfold RoutedRelationship.ofElement resolveClassifier
  rw [classifierPosition_rekey, classifierPosition_rekey]
  simp only [map_bind, map_pure]
  rfl

/-- Classifiers enclose each other as before. -/
lemma nesting_rekey (passes : ℕ) : Nesting.ofElements (s.rekey f g h) passes =
    Nesting.ofElements s passes := by
  have hedges : Nesting.edgesOf (s.rekey f g h) = Nesting.edgesOf s := by
    unfold Nesting.edgesOf
    simp only [classifierPosition_rekey]
    rw [rekey, List.filter_map, List.filterMap_map]
    rfl
  rw [Nesting.ofElements, Nesting.ofElements, hedges, rekey, List.length_map]

/-- What is checked and resolved does not depend on the keys. -/
lemma prepare_rekey (config : Config α) (bounds : Rect α) :
    (s.rekey f g h).prepare config bounds =
      (fun d => d.relabel (.ofKeys f g h) d.sheet.grid.x d.sheet.grid.y) <$>
        s.prepare config bounds := by
  have hlimits : (s.rekey f g h).checkLimits config.limits = s.checkLimits config.limits := by
    unfold checkLimits loads rekey
    rw [List.length_map, List.length_map]
  have hfeatures : (s.rekey f g h).features.mapM
      (PlacedFeature.ofElement (α := α) (s.rekey f g h)) =
      s.features.mapM (PlacedFeature.ofElement s) :=
    congrArg (s.features.mapM ·) (funext (ofElement_feature_rekey f g h s))
  have hrelationships : (s.rekey f g h).relationships.mapM
      (RoutedRelationship.ofElement (α := α) (s.rekey f g h)) =
      List.map (RoutedRelationship.relabel (.ofKeys f g h)) <$>
        s.relationships.mapM (RoutedRelationship.ofElement s) :=
    mapM_map_of_commutes fun r _ => ofElement_relationship_rekey f g h s r
  unfold prepare Drawing.ofElements
  rw [hlimits, hfeatures, hrelationships, nesting_rekey, map_bind]
  refine bind_congr fun _ => ?_
  rw [map_bind]
  refine bind_congr fun _ => ?_
  rw [map_bind]
  refine bind_congr fun features => ?_
  rw [bind_map_left, map_bind]
  refine bind_congr fun relationships => ?_
  rw [map_pure]
  have hplaced : (s.rekey f g h).classifiers.map (PlacedClassifier.mk (α := α) · .unplaced) =
      (s.classifiers.map (PlacedClassifier.mk · .unplaced)).map
        (PlacedClassifier.relabel (.ofKeys f g h)) := by
    rw [rekey, List.map_map, List.map_map]
    rfl
  have hkept : features.map (PlacedFeature.relabel (.ofKeys f g h)) = features :=
    List.map_id features
  unfold Drawing.relabel
  rw [hplaced, hkept]
  rfl

end ElementSet

/-- The second drawing has the records of the first one, that is their boxes, routes, visibilities
and positions, for elements with replaced keys. -/
structure Drawing.SameRecords {α : Type} (f g h : OrderKey → OrderKey) (d d' : Drawing α) :
    Prop where
  classifiers : d'.classifiers = d.classifiers.map fun c =>
    { c with element := c.element.rekey f g }
  features : d'.features = d.features
  relationships : d'.relationships = d.relationships.map fun r =>
    { r with element := r.element.rekey h }

/-- Replacing keys replaces nothing else that is recorded. -/
lemma Drawing.sameRecords_relabel {α : Type} (f g h : OrderKey → OrderKey) (x y : Scale α)
    (d : Drawing α) : d.SameRecords f g h (d.relabel (.ofKeys f g h) x y) where
  classifiers := rfl
  features := List.map_id d.features
  relationships := rfl

namespace ElementSet

/-- Keys of classifiers and of relationships matter by their order only: a set with other keys in
the same order is refused for the same reason or has the same layout. -/
theorem layout_rekey {α : Type} [Scalar α] (m : Composer α) (config : Config α) (bounds : Rect α)
    (s : ElementSet) {f g h : OrderKey → OrderKey}
    (hf : KeepsOrder f (s.classifiers.map (·.xKey)))
    (hg : KeepsOrder g (s.classifiers.map (·.yKey)))
    (hh : KeepsOrder h (s.relationships.map (·.listKey))) :
    SameOutcome (fun before after => after.defined = before.defined ∧
        before.value.SameRecords f g h after.value)
      (s.layout m config bounds) ((s.rekey f g h).layout m config bounds) := by
  rw [layout, layout, prepare_rekey]
  cases hprepare : s.prepare config bounds with
  | error e => exact .error e
  | ok d =>
    have hstart := ofElements_of_prepare hprepare
    have hrecords := Drawing.recordedIn_of_ofElements hstart
    have hd := Drawing.unregistered_of_ofElements hstart
    have hx : d.classifierKeys .x = s.classifiers.map (·.xKey) := by
      rw [← hrecords.classifiers, List.map_map]
      rfl
    have hy : d.classifierKeys .y = s.classifiers.map (·.yKey) := by
      rw [← hrecords.classifiers, List.map_map]
      rfl
    have hlist : d.relationships.map (·.element.listKey) = s.relationships.map (·.listKey) := by
      rw [← hrecords.relationships, List.map_map]
      rfl
    obtain ⟨x, y, hcomplete⟩ := hd.complete_ofKeys m config (hx ▸ hf) (hy ▸ hg) (hlist ▸ hh)
    refine .ok ?_
    rw [hcomplete]
    exact ⟨Guarded.defined_map _ _, Drawing.sameRecords_relabel f g h x y _⟩

end ElementSet

/-- Two keys made the least and the greatest of all. -/
def toExtremes (key : OrderKey) : OrderKey := if key ≤ 3 then .least else .greatest

set_option maxRecDepth 100000 in
/-- Two objects and their messages have the same layout with other keys, extreme ones among them. -/
theorem layout_rekey_exchange :
    KeepsOrder (· + 5) (exchange.classifiers.map (·.xKey)) ∧
      KeepsOrder toExtremes (exchange.classifiers.map (·.yKey)) ∧
      KeepsOrder toExtremes (exchange.relationships.map (·.listKey)) ∧
      ∃ before after, exchange.layout (.ofConfig .standard) .standard exchangeBounds = .ok before ∧
        (exchange.rekey (· + 5) toExtremes toExtremes).layout (.ofConfig .standard) .standard
          exchangeBounds = .ok after ∧
        before.value.SameRecords (· + 5) toExtremes toExtremes after.value := by
  have hx : KeepsOrder (· + 5) (exchange.classifiers.map (·.xKey)) := by decide +kernel
  have hy : KeepsOrder toExtremes (exchange.classifiers.map (·.yKey)) := by decide +kernel
  have hlist : KeepsOrder toExtremes (exchange.relationships.map (·.listKey)) := by decide +kernel
  have hprepare : exchange.prepare .standard exchangeBounds = .ok exchangeStart := by
    decide +kernel
  have hbefore := ElementSet.layout_eq_ok hprepare (.ofConfig .standard)
  obtain ⟨after, hafter, -, hsame⟩ := (ElementSet.layout_rekey (.ofConfig .standard) .standard
    exchangeBounds exchange hx hy hlist).exists_of_eq_ok hbefore
  exact ⟨hx, hy, hlist, _, after, hbefore, hafter, hsame⟩

end DiagramLayout
