import DiagramLayout.Classifiers.Spread
import DiagramLayout.Proofs.Classifiers.Gathering

/-!
# Free slots

The search for a free slot starts in the neighbourhood of a box and narrows it by one obstacle after
the other. `Slot` is the invariant of the search: what is left lies where the search began, has room
for the box, and shares nothing with the obstacles so far. A strip that is cut off keeps the first
two from the rectangle before (`narrow_spec`), so the box, which is pulled into the last rectangle, is
free of all obstacles in the end (`slotOffset_isFree`).
-/

namespace DiagramLayout

variable {size : Size ℚ} {center : Point ℚ}

/-! ## Room -/

/-- A box has room in a rectangle that is not smaller along either axis. -/
lemma fits_iff {free : Rect ℚ} :
    fits size free = true ↔ size.width ≤ free.width ∧ size.height ≤ free.height := by
  simp only [fits, Bool.and_eq_true, decide_eq_true_eq]

/-- Where a box of some size has room is an area. -/
lemma solid_of_fits (hwidth : 0 < size.width) (hheight : 0 < size.height) {free : Rect ℚ}
    (h : fits size free = true) : free.Solid := by
  obtain ⟨hwide, hhigh⟩ := fits_iff.mp h
  exact ⟨sub_pos.mp (hwidth.trans_le hwide), sub_pos.mp (hheight.trans_le hhigh)⟩

/-- A box with room in a rectangle is in it after the way into it. -/
lemma contains_wayInto {free box : Rect ℚ} (h : fits box.size free = true) :
    free.contains (box.translate (wayInto box.size box.center free).value) = true := by
  obtain ⟨hwide, hhigh⟩ := fits_iff.mp h
  simp only [wayInto, Guarded.value_bind, Guarded.value_pure]
  exact contains_translate_nearestPoint hwide hhigh box.center

/-! ## Narrowing -/

/-- The nearest strip is one of the strips. -/
lemma mem_of_nearestStrip {strips : List (Rect ℚ)} {strip : Rect ℚ}
    (h : (nearestStrip size center strips).value = some strip) : strip ∈ strips := by
  rcases strips with _ | ⟨first, _ | ⟨second, rest⟩⟩
  · cases h
  · cases h
    exact List.mem_singleton_self _
  · simp only [nearestStrip, Guarded.value_bind, Guarded.value_pure, Guarded.value_mapM,
      Option.map_eq_some_iff] at h
    obtain ⟨measured, hleast, rfl⟩ := h
    obtain ⟨strip, hstrip, rfl⟩ := List.mem_map.mp (Scalar.mem_of_leastBy hleast)
    exact hstrip

/-- A rectangle with room is narrowed to one with room, apart from the obstacle. -/
lemma narrow_spec (hwidth : 0 < size.width) (hheight : 0 < size.height) {free narrowed o : Rect ℚ}
    (hroom : fits size free = true) (h : (narrow size center (some free) o).value = some narrowed) :
    free.contains narrowed = true ∧ narrowed.overlapArea o = 0 ∧ fits size narrowed = true := by
  unfold narrow at h
  dsimp only at h
  split_ifs at h with hoverlaps
  · obtain ⟨hmem, hfits⟩ := List.mem_filter.mp (mem_of_nearestStrip h)
    rcases Rect.strip_spec hmem with rfl | ⟨-, hin, hapart⟩
    · -- a strip with room is not the empty rectangle
      exact absurd (solid_of_fits hwidth hheight hfits).x (lt_irrefl 0)
    · exact ⟨hin, hapart, hfits⟩
  · cases h
    rw [Rect.overlapArea_comm]
    exact ⟨Rect.contains_self free, Rect.overlapArea_eq_zero (by simpa using hoverlaps), hroom⟩

/-- What is known of the rectangle that the search has come to, past some obstacles. -/
structure Slot (size : Size ℚ) (start : Rect ℚ) (passed : List (Rect ℚ)) (free : Rect ℚ) :
    Prop where
  /-- It lies where the search began. -/
  inside : start.contains free = true
  /-- It shares nothing with the obstacles. -/
  apart : ∀ o ∈ passed, free.overlapArea o = 0
  /-- The box has room in it. -/
  room : fits size free = true

/-- Once there is no free rectangle, there is none in the end. -/
lemma value_foldlM_narrow_none (size : Size ℚ) (center : Point ℚ) (obstacles : List (Rect ℚ)) :
    (obstacles.foldlM (narrow size center) none).value = none := by
  induction obstacles with
  | nil => rfl
  | cons o os ih =>
    rw [List.foldlM_cons, Guarded.value_bind]
    exact ih

/-- A rectangle that is left after narrowing by all obstacles is a slot. -/
theorem slot_of_narrowed (hwidth : 0 < size.width) (hheight : 0 < size.height)
    {obstacles : List (Rect ℚ)} {start free : Rect ℚ} (hroom : fits size start = true)
    (h : (obstacles.foldlM (narrow size center) (some start)).value = some free) :
    Slot size start obstacles free := by
  induction obstacles generalizing start with
  | nil =>
    cases h
    exact ⟨Rect.contains_self _, by simp, hroom⟩
  | cons o os ih =>
    rw [List.foldlM_cons, Guarded.value_bind] at h
    cases hnarrowed : (narrow size center (some start) o).value with
    | none =>
      rw [hnarrowed, value_foldlM_narrow_none] at h
      cases h
    | some narrowed =>
      rw [hnarrowed] at h
      obtain ⟨hin, hapart, hfits⟩ := narrow_spec hwidth hheight hroom hnarrowed
      have hrest := ih hfits h
      refine ⟨Rect.contains_trans hin hrest.inside, ?_, hrest.room⟩
      intro p hp
      rcases List.mem_cons.mp hp with rfl | hp
      · exact Rect.overlapArea_eq_zero_of_contains hrest.inside hapart
      · exact hrest.apart p hp

/-! ## The search -/

/-- The box grown by half its size and a distance on each side. -/
def Rect.neighbourhood (gap : ℚ) (box : Rect ℚ) : Rect ℚ :=
  box.pad ⟨box.height / 2 + gap, box.width / 2 + gap, box.height / 2 + gap, box.width / 2 + gap⟩

/-- The search begins in the neighbourhood of the box. -/
lemma Rect.expand_eq_neighbourhood {gap : ℚ} (hgap : 0 ≤ gap) {box : Rect ℚ} (hbox : box.Solid) :
    box.expand (box.width + 2 * gap) (box.height + 2 * gap) = box.neighbourhood gap := by
  have hwidth : 0 < box.width := sub_pos.mpr hbox.x
  have hheight : 0 < box.height := sub_pos.mpr hbox.y
  unfold expand neighbourhood
  rw [Scalar.max_exact, Scalar.max_exact, max_eq_left (by linarith), max_eq_left (by linarith)]
  simp only [centered, center, pad, width, height, Scalar.num_exact, Rect.mk.injEq]
  push_cast
  refine ⟨?_, ?_, ?_, ?_⟩ <;> ring

/-- What is known of the offset of a box to a free slot. -/
structure IsFree (gap : ℚ) (box : Rect ℚ) (obstacles : List (Rect ℚ)) (drawArea : Rect ℚ)
    (offset : Point ℚ) : Prop where
  /-- After it the box lies in the draw area. -/
  inside : drawArea.contains (box.translate offset) = true
  /-- It leads no farther than half the size of the box and the gap on each side. -/
  near : (box.neighbourhood gap).contains (box.translate offset) = true
  /-- After it the box shares no area with any obstacle. -/
  apart : ∀ o ∈ obstacles, (box.translate offset).overlapArea o = 0

/-- An offset that the search finds leads to a free slot in the neighbourhood. -/
theorem slotOffset_isFree {gap : ℚ} (hgap : 0 ≤ gap) {box : Rect ℚ} (hbox : box.Solid)
    (obstacles : List (Rect ℚ)) (drawArea : Rect ℚ) {offset : Point ℚ}
    (h : (slotOffset gap box obstacles drawArea).value = some offset) :
    IsFree gap box obstacles drawArea offset := by
  have hwidth : 0 < box.size.width := sub_pos.mpr hbox.x
  have hheight : 0 < box.size.height := sub_pos.mpr hbox.y
  have hgrown : box.expand (box.size.width + Scalar.num 2 * gap)
      (box.size.height + Scalar.num 2 * gap) = box.neighbourhood gap :=
    Rect.expand_eq_neighbourhood hgap hbox
  unfold slotOffset at h
  dsimp only at h
  rw [hgrown] at h
  split_ifs at h with hroom
  have hfits : fits box.size ((box.neighbourhood gap).overlap drawArea) = true := by
    simpa using hroom
  obtain ⟨hnear, hinside⟩ := Rect.contains_overlap (solid_of_fits hwidth hheight hfits)
  rw [Guarded.value_bind] at h
  cases hleft : (obstacles.foldlM (narrow box.size box.center)
      (some ((box.neighbourhood gap).overlap drawArea))).value with
  | none =>
    rw [hleft] at h
    cases h
  | some free =>
    rw [hleft, Guarded.value_map, Option.some.injEq] at h
    have hslot := slot_of_narrowed hwidth hheight hfits hleft
    have hin : free.contains (box.translate offset) = true := h ▸ contains_wayInto hslot.room
    have hbegin := Rect.contains_trans hslot.inside hin
    refine ⟨Rect.contains_trans hinside hbegin, Rect.contains_trans hnear hbegin, ?_⟩
    intro o ho
    exact Rect.overlapArea_eq_zero_of_contains hin (hslot.apart o ho)

/-- Right of a first obstacle and below a second one there is a free slot. -/
theorem slotOffset_isFree_inCorner :
    let box : Rect ℚ := ⟨0, 0, 10, 10⟩
    let obstacles : List (Rect ℚ) := [⟨-5, -5, 6, 20⟩, ⟨6, 0, 20, 3⟩]
    let drawArea : Rect ℚ := ⟨-3, -3, 40, 40⟩
    (0 : ℚ) ≤ 2 ∧ box.Solid ∧ (slotOffset 2 box obstacles drawArea).value = some ⟨6, 3⟩ ∧
      IsFree 2 box obstacles drawArea ⟨6, 3⟩ := by
  intro box obstacles drawArea
  have hgap : (0 : ℚ) ≤ 2 := by norm_num
  have hbox : box.Solid := Rect.solid_iff.mpr (by decide +kernel)
  have hfound : (slotOffset 2 box obstacles drawArea).value = some ⟨6, 3⟩ := by decide +kernel
  exact ⟨hgap, hbox, hfound, slotOffset_isFree hgap hbox obstacles drawArea hfound⟩

end DiagramLayout
