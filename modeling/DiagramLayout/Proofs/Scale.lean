import DiagramLayout.Classifiers.Estimate
import DiagramLayout.Proofs.Exact

/-!
# Locations of registered keys

The keys of a scale ascend strictly, however they were registered, and its anchors are in the middles
of their cells. A registered key therefore lies in the middle of its own cell
(`Scale.location_eq_of_getElem?`): the search among neighbouring anchors finds it before any other
anchor could take its place. So over a range of some length
registered keys lie strictly within the range, in the order of the keys. A drawing registers the
keys of its classifiers on the axes that place classifiers, and on no other
(`Drawing.scale_registerKeys_eq`).
-/

namespace DiagramLayout

namespace Scale

variable {α : Type}

/-! ## Ascending keys -/

/-- The keys of the scale ascend strictly. -/
def Ascending (s : Scale α) : Prop := s.keys.Pairwise (· < ·)

/-- Inserting a key keeps the list strictly ascending. -/
lemma pairwise_insertKey (key : OrderKey) {ks : List OrderKey} (h : ks.Pairwise (· < ·)) :
    (insertKey key ks).Pairwise (· < ·) := by
  induction ks with
  | nil => exact List.pairwise_singleton _ _
  | cons k ks ih =>
    obtain ⟨hhead, htail⟩ := List.pairwise_cons.mp h
    unfold insertKey
    split_ifs with hlt heq
    · refine List.pairwise_cons.mpr ⟨fun x hx => ?_, h⟩
      rcases List.mem_cons.mp hx with rfl | hmem
      · exact hlt
      · exact Int32.lt_trans hlt (hhead x hmem)
    · exact h
    · refine List.pairwise_cons.mpr ⟨fun x hx => ?_, ih htail⟩
      rcases mem_insertKey.mp hx with rfl | hmem
      · exact Int32.lt_of_le_of_ne (Int32.not_lt.mp hlt) (Ne.symm heq)
      · exact hhead x hmem

section Registering

variable [Scalar α] {s : Scale α}

/-- Placing the anchors changes no key. -/
@[simp] lemma keys_relocate (s : Scale α) : s.relocate.keys = s.keys := rfl

/-- Registering a key keeps the keys ascending. -/
lemma Ascending.addKey (h : s.Ascending) (key : OrderKey) : (s.addKey key).Ascending := by
  unfold Scale.addKey
  split_ifs
  · exact h
  · exact pairwise_insertKey key h

/-- Registering keys one after the other keeps them ascending. -/
lemma Ascending.foldl_addKey (h : s.Ascending) (keys : List OrderKey) :
    (keys.foldl Scale.addKey s).Ascending :=
  List.foldlRecOn keys Scale.addKey (motive := Ascending) h fun _ hs key _ => hs.addKey key

/-- A registered key is the one that is added or one that was there. -/
lemma mem_keys_addKey {key k : OrderKey} : k ∈ (s.addKey key).keys ↔ k = key ∨ k ∈ s.keys := by
  unfold addKey
  split_ifs with hmem
  · refine ⟨Or.inr, ?_⟩
    rintro (rfl | hk)
    · exact hmem
    · exact hk
  · exact mem_insertKey

/-- Registering keys one after the other registers each of them. -/
lemma mem_keys_foldl_addKey {keys : List OrderKey} {key : OrderKey} :
    key ∈ (keys.foldl addKey s).keys ↔ key ∈ keys ∨ key ∈ s.keys := by
  induction keys generalizing s with
  | nil => simp
  | cons k ks ih =>
    rw [List.foldl_cons, ih, mem_keys_addKey, List.mem_cons]
    tauto

/-! ## Anchors in their cells -/

/-- The anchors are in the middles of their cells. -/
def Centered (s : Scale α) : Prop := s.locations = s.middles

/-- There is a location for each key. -/
lemma Centered.length_locations (h : s.Centered) : s.locations.length = s.keys.length := by
  rw [h, length_middles]

/-- Anchors that have just been placed are in the middles of their cells. -/
lemma centered_relocate (s : Scale α) : s.relocate.Centered := rfl

/-- Over a new range the anchors are placed anew. -/
lemma centered_setRange (s : Scale α) (lower upper : α) : (s.setRange lower upper).Centered :=
  centered_relocate _

/-- With a further key the anchors are placed anew, unless they need not be. -/
lemma Centered.addKey (h : s.Centered) (key : OrderKey) : (s.addKey key).Centered := by
  unfold Scale.addKey
  split_ifs
  · exact h
  · exact centered_relocate _

/-- Registering keys one after the other keeps the anchors in the middles of their cells. -/
lemma Centered.foldl_addKey (h : s.Centered) (keys : List OrderKey) :
    (keys.foldl Scale.addKey s).Centered :=
  List.foldlRecOn keys Scale.addKey (motive := Centered) h fun _ hs key _ => hs.addKey key

/-- On a scale without keys the first one to be registered places its anchor. -/
lemma centered_foldl_addKey (hempty : s.keys = []) {keys : List OrderKey} {key : OrderKey}
    (hkey : key ∈ keys) : (keys.foldl Scale.addKey s).Centered := by
  obtain ⟨k, ks, rfl⟩ := List.exists_cons_of_ne_nil (List.ne_nil_of_mem hkey)
  have hfirst : (s.addKey k).Centered := by
    rw [Scale.addKey, if_neg (by simp [hempty])]
    exact centered_relocate _
  exact hfirst.foldl_addKey ks

end Registering

/-! ## Anchors with ends -/

/-- The keys of the anchors with their ends. -/
lemma Centered.map_fst_anchorsWithEnds [Scalar α] {s : Scale α} (h : s.Centered) :
    s.anchorsWithEnds.map Prod.fst =
      (if s.keys.head? = some .least then [] else [.least]) ++ s.keys ++
        (if s.keys.getLast? = some .greatest then [] else [.greatest]) := by
  have hkeys : s.anchors.map Prod.fst = s.keys := by
    rw [anchors, List.map_fst_zip h.length_locations.ge]
  rw [anchorsWithEnds, List.map_append, List.map_append, hkeys]
  split_ifs <;> rfl

/-- Unless the least key is registered, all registered keys are above it. -/
lemma Ascending.least_lt {s : Scale α} (h : s.Ascending) (hhead : s.keys.head? ≠ some .least)
    {k : OrderKey} (hk : k ∈ s.keys) : OrderKey.least < k := by
  obtain ⟨k₀, ks, hks⟩ := List.exists_cons_of_ne_nil (List.ne_nil_of_mem hk)
  have hfirst : OrderKey.least < k₀ := by
    refine Int32.lt_of_le_of_ne (Int32.minValue_le k₀) ?_
    rintro rfl
    exact hhead (by rw [hks]; rfl)
  rw [Ascending, hks] at h
  rw [hks] at hk
  rcases List.mem_cons.mp hk with rfl | hmem
  · exact hfirst
  · exact Int32.lt_trans hfirst ((List.pairwise_cons.mp h).1 k hmem)

/-- Unless the greatest key is registered, all registered keys are below it. -/
lemma Ascending.lt_greatest {s : Scale α} (h : s.Ascending)
    (hlast : s.keys.getLast? ≠ some .greatest) {k : OrderKey} (hk : k ∈ s.keys) :
    k < OrderKey.greatest := by
  have hsome := List.ne_nil_of_mem hk
  have hend : s.keys.getLast hsome < OrderKey.greatest := by
    refine Int32.lt_of_le_of_ne (Int32.le_maxValue _) fun hgreatest => hlast ?_
    rw [List.getLast?_eq_some_getLast hsome, hgreatest]
  have hsplit := List.dropLast_append_getLast hsome
  rw [Ascending, ← hsplit] at h
  rw [← hsplit, List.mem_append, List.mem_singleton] at hk
  rcases hk with hmem | rfl
  · exact Int32.lt_trans
      ((List.pairwise_append.mp h).2.2 k hmem _ (List.mem_singleton.mpr rfl)) hend
  · exact hend

/-- With their ends the anchors ascend strictly as well. -/
lemma Ascending.anchorsWithEnds [Scalar α] {s : Scale α} (h : s.Ascending)
    (hcentered : s.Centered) : (s.anchorsWithEnds.map Prod.fst).Pairwise (· < ·) := by
  have hextremes : OrderKey.least < OrderKey.greatest := by decide
  rw [hcentered.map_fst_anchorsWithEnds]
  refine List.pairwise_append.mpr ⟨List.pairwise_append.mpr ⟨?_, h, ?_⟩, ?_, ?_⟩
  · split_ifs <;> simp
  · intro low hlow k hk
    split_ifs at hlow with hhead
    · cases hlow
    · rw [List.mem_singleton.mp hlow]
      exact h.least_lt hhead hk
  · split_ifs <;> simp
  · intro k hk high hhigh
    split_ifs at hhigh with hlast
    · cases hhigh
    · rw [List.mem_singleton.mp hhigh]
      rcases List.mem_append.mp hk with hlow | hmem
      · split_ifs at hlow
        · cases hlow
        · rw [List.mem_singleton.mp hlow]
          exact hextremes
      · exact h.lt_greatest hlast hmem

/-- There always are two neighbouring anchors. -/
lemma Centered.two_le_length_anchorsWithEnds [Scalar α] {s : Scale α} (h : s.Centered) :
    2 ≤ s.anchorsWithEnds.length := by
  have hlength := congrArg List.length h.map_fst_anchorsWithEnds
  rw [List.length_map, List.length_append, List.length_append] at hlength
  rw [hlength]
  rcases s.keys with _ | ⟨k, _ | ⟨k', ks⟩⟩
  · simp
  · -- a single key cannot be both extremes
    have hextremes : OrderKey.least ≠ OrderKey.greatest := by decide
    by_cases hk : k = OrderKey.least
    · simp [hk, hextremes]
    · simp [hk]
  · simp only [List.length_cons]
    omega

/-- Among ascending anchors an anchor is found at its own location. -/
lemma locate_of_mem [Scalar α] {beyond a : α} {key : OrderKey}
    {anchors : List (OrderKey × α)}
    (hsorted : (anchors.map Prod.fst).Pairwise (· < ·)) (hlength : 2 ≤ anchors.length)
    (hmem : (key, a) ∈ anchors) : locate key beyond anchors = a := by
  induction anchors with
  | nil => cases hmem
  | cons first rest ih =>
    obtain ⟨keyA, locationA⟩ := first
    rcases rest with _ | ⟨⟨keyB, locationB⟩, rest⟩
    · simp at hlength
    · simp only [List.map_cons, List.pairwise_cons] at hsorted
      obtain ⟨hfirst, hsecond, hrest⟩ := hsorted
      have hAB : keyA < keyB := hfirst keyB List.mem_cons_self
      have hne : keyB ≠ keyA := fun heq => Int32.lt_irrefl (heq ▸ hAB)
      unfold locate
      rcases List.mem_cons.mp hmem with heq | hlater
      · obtain ⟨rfl, rfl⟩ := Prod.mk.inj heq
        rw [if_pos (Int32.le_of_lt hAB), if_pos (by simp)]
      · rcases List.mem_cons.mp hlater with heq | hbehind
        · obtain ⟨rfl, rfl⟩ := Prod.mk.inj heq
          have hnot : ¬ key ≤ keyA := Int32.not_le.mpr hAB
          simp [hnot, hne]
        · have hkey : keyB < key := hsecond key (List.mem_map.mpr ⟨_, hbehind, rfl⟩)
          rw [if_neg (Int32.not_le.mpr hkey)]
          refine ih (List.pairwise_cons.mpr ⟨hsecond, hrest⟩) ?_ hlater
          have hsome := List.length_pos_of_mem hbehind
          simp only [List.length_cons]
          omega

/-! ## Locations -/

/-- A registered key lies in the middle of its own cell. -/
theorem location_eq_of_getElem? [Scalar α] {s : Scale α} (h : s.Ascending) (hcentered : s.Centered)
    {i : ℕ} {key : OrderKey} (hi : s.keys[i]? = some key) :
    s.location key = s.lower + (Scalar.num i + Scalar.num 1 / Scalar.num 2) * s.cell := by
  have hlt : i < s.keys.length := (List.getElem?_eq_some_iff.mp hi).1
  have hanchor : (key, s.lower + (Scalar.num i + Scalar.num 1 / Scalar.num 2) * s.cell) ∈
      s.anchors := by
    refine List.mem_of_getElem? (i := i) ?_
    rw [anchors, List.getElem?_zip_eq_some]
    refine ⟨hi, ?_⟩
    rw [hcentered, middles, List.getElem?_map, List.getElem?_range hlt]
    rfl
  refine locate_of_mem (h.anchorsWithEnds hcentered) hcentered.two_le_length_anchorsWithEnds ?_
  exact List.mem_append_left _ (List.mem_append_right _ hanchor)

variable {s : Scale ℚ}

/-- Over exact numbers the middle of a cell is half a cell from its ends. -/
theorem location_of_getElem? (h : s.Ascending) (hcentered : s.Centered) {i : ℕ} {key : OrderKey}
    (hi : s.keys[i]? = some key) : s.location key = s.lower + (i + 1 / 2) * s.cell := by
  rw [location_eq_of_getElem? h hcentered hi]
  simp

/-- Over a range of some length a cell has some length. -/
lemma cell_pos (hrange : s.lower < s.upper) : 0 < s.cell := by
  unfold cell
  refine div_pos (sub_pos.mpr hrange) ?_
  simp only [Scalar.num_exact]
  exact_mod_cast Nat.lt_of_lt_of_le Nat.one_pos (le_max_right _ _)

/-- No cell has a negative length. -/
lemma cell_nonneg (hrange : s.lower ≤ s.upper) : 0 ≤ s.cell := by
  rw [cell, Scalar.num_exact]
  exact div_nonneg (sub_nonneg.mpr hrange) (Nat.cast_nonneg _)

/-- The middle of a cell is half a cell or more away from the ends of the range. -/
lemma middles_within (hrange : s.lower ≤ s.upper) {a : ℚ} (ha : a ∈ s.middles) :
    s.lower + s.cell / 2 ≤ a ∧ a + s.cell / 2 ≤ s.upper := by
  obtain ⟨i, hi, rfl⟩ := List.mem_map.mp ha
  have hlt : i < s.keys.length := List.mem_range.mp hi
  have hsome : max s.keys.length 1 = s.keys.length := max_eq_left (by omega)
  have hlength : (s.keys.length : ℚ) ≠ 0 := by exact_mod_cast (by omega : s.keys.length ≠ 0)
  have hcells : (s.keys.length : ℚ) * s.cell = s.upper - s.lower := by
    rw [cell, hsome, Scalar.num_exact]
    exact mul_div_cancel₀ _ hlength
  have hcell := cell_nonneg hrange
  have hfirst : 0 ≤ (i : ℚ) * s.cell := mul_nonneg (Nat.cast_nonneg i) hcell
  have hlast : ((i : ℚ) + 1) * s.cell ≤ s.keys.length * s.cell :=
    mul_le_mul_of_nonneg_right (by exact_mod_cast hlt) hcell
  simp only [Scalar.num_exact, Nat.cast_one, Nat.cast_ofNat]
  constructor
  · linarith
  · linarith

/-- A registered key lies strictly within the range. -/
theorem location_within (h : s.Ascending) (hcentered : s.Centered) (hrange : s.lower < s.upper)
    {key : OrderKey} (hkey : key ∈ s.keys) : s.lower < s.location key ∧ s.location key < s.upper := by
  obtain ⟨i, hi⟩ := List.mem_iff_getElem?.mp hkey
  have hlt : i < s.keys.length := (List.getElem?_eq_some_iff.mp hi).1
  have hmiddle : s.location key ∈ s.middles := by
    rw [location_eq_of_getElem? h hcentered hi]
    exact List.mem_map.mpr ⟨i, List.mem_range.mpr hlt, rfl⟩
  obtain ⟨hlow, hhigh⟩ := middles_within hrange.le hmiddle
  have hcell := cell_pos hrange
  constructor
  · linarith
  · linarith

/-- Registered keys lie in the order of the keys. -/
theorem location_lt_location (h : s.Ascending) (hcentered : s.Centered) (hrange : s.lower < s.upper)
    {key key' : OrderKey} (hkey : key ∈ s.keys) (hkey' : key' ∈ s.keys) (hlt : key < key') :
    s.location key < s.location key' := by
  obtain ⟨i, hi⟩ := List.mem_iff_getElem?.mp hkey
  obtain ⟨j, hj⟩ := List.mem_iff_getElem?.mp hkey'
  have hij : i < j := by
    obtain ⟨hilt, rfl⟩ := List.getElem?_eq_some_iff.mp hi
    obtain ⟨hjlt, rfl⟩ := List.getElem?_eq_some_iff.mp hj
    rcases lt_trichotomy i j with h' | rfl | h'
    · exact h'
    · exact absurd hlt Int32.lt_irrefl
    · exact absurd (List.pairwise_iff_getElem.mp h j i hjlt hilt h') (Int32.lt_asymm hlt)
  have hindex : (i : ℚ) < j := by exact_mod_cast hij
  rw [location_of_getElem? h hcentered hi, location_of_getElem? h hcentered hj]
  have hstep : ((i : ℚ) + 1 / 2) * s.cell < (j + 1 / 2) * s.cell :=
    mul_lt_mul_of_pos_right (by linarith) (cell_pos hrange)
  linarith

end Scale

/-! ## Registering on a grid -/

namespace Grid

variable {α : Type} [Scalar α]

/-- The keys of a classifier are registered on the axes that place classifiers. -/
lemma addKeys_eq (G : Grid α) (xKey yKey : OrderKey) : G.addKeys xKey yKey =
    ⟨G.kind, if G.kind.places .x then G.x.addKey xKey else G.x,
      if G.kind.places .y then G.y.addKey yKey else G.y⟩ := by
  unfold addKeys
  by_cases hx : G.kind.places .x = true <;> by_cases hy : G.kind.places .y = true <;>
    simp [hx, hy, modifyScale]

/-- The keys of all classifiers are registered on each axis that places classifiers. -/
lemma foldl_addKeys_eq (cs : List (PlacedClassifier α)) (G : Grid α) :
    cs.foldl (fun G c => G.addKeys c.element.xKey c.element.yKey) G =
      ⟨G.kind,
        if G.kind.places .x then (cs.map (·.element.xKey)).foldl Scale.addKey G.x else G.x,
        if G.kind.places .y then (cs.map (·.element.yKey)).foldl Scale.addKey G.y else G.y⟩ := by
  induction cs generalizing G with
  | nil => simp
  | cons c cs ih =>
    rw [List.foldl_cons, ih, addKeys_eq]
    split_ifs <;> rfl

end Grid

namespace Drawing

variable {α : Type} [Scalar α]

/-- The keys of the classifiers along an axis. -/
def classifierKeys (d : Drawing α) : Axis → List OrderKey
  | .x => d.classifiers.map (·.element.xKey)
  | .y => d.classifiers.map (·.element.yKey)

/-- The scale along an axis with the keys of the classifiers. -/
lemma scale_registerKeys_eq (d : Drawing α) (axis : Axis) :
    d.registerKeys.sheet.grid.scale axis =
      if d.sheet.grid.kind.places axis then
        (d.classifierKeys axis).foldl Scale.addKey (d.sheet.grid.scale axis)
      else d.sheet.grid.scale axis := by
  unfold registerKeys modifyGrid
  dsimp only
  rw [Grid.foldl_addKeys_eq]
  cases axis <;> rfl

/-- Registering keys leaves what the grid measures. -/
lemma kind_registerKeys (d : Drawing α) :
    d.registerKeys.sheet.grid.kind = d.sheet.grid.kind := by
  unfold registerKeys modifyGrid
  dsimp only
  rw [Grid.foldl_addKeys_eq]

end Drawing

end DiagramLayout
