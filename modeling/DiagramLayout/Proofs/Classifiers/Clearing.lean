import DiagramLayout.Classifiers.Spread
import DiagramLayout.Proofs.Rect

/-!
# Shifts clear of obstacles

A shift in one of the four directions goes in rounds, and each round passes all obstacles that the
box overlaps at its beginning. The box only ever goes on in the direction, by the distances that
`travel` adds up, so it never comes back to an obstacle that it is past.

A round in which something is overlapped therefore passes an obstacle that was still ahead, and there
are no more such rounds than obstacles. After them the box is clear, and the additional round of
`shiftClear` finds nothing to pass (`shiftClear_clears`).
-/

namespace DiagramLayout

namespace Point

/-- Steps in one direction add up to a longer one. -/
lemma scale_add_scale (p : Point ℚ) (a b : ℚ) : p.scale a + p.scale b = p.scale (a + b) :=
  congrArg₂ Point.mk (mul_add p.x a b).symm (mul_add p.y a b).symm

/-- A step of no length moves nothing. -/
lemma scale_zero (p : Point ℚ) : p.scale 0 = .origin :=
  congrArg₂ Point.mk (mul_zero p.x) (mul_zero p.y)

end Point

/-! ## Past an obstacle -/

/-- In a direction the box is past the obstacle, with the gap between them. -/
def IsPast (gap : ℚ) (direction : Direction) (obstacle box : Rect ℚ) : Prop :=
  match direction with
  | .up => box.maxY + gap ≤ obstacle.minY
  | .down => obstacle.maxY + gap ≤ box.minY
  | .left => box.maxX + gap ≤ obstacle.minX
  | .right => obstacle.maxX + gap ≤ box.minX
  | _ => False

section Obstacle

variable {gap : ℚ} {direction : Direction} {obstacle box : Rect ℚ}

/-- There are four directions to shift in. -/
lemma mem_shiftDirections :
    direction ∈ shiftDirections ↔
      direction = .up ∨ direction = .down ∨ direction = .left ∨ direction = .right := by
  simp [shiftDirections]

/-- A box is past an obstacle if there is no way to go. -/
lemma clearance_nonpos_iff (hdirection : direction ∈ shiftDirections) :
    clearance gap box direction obstacle ≤ 0 ↔ IsPast gap direction obstacle box := by
  rcases mem_shiftDirections.mp hdirection with rfl | rfl | rfl | rfl <;>
    simp only [clearance, IsPast] <;> constructor <;> intro h <;> linarith

/-- A box that is past an obstacle shares nothing with it. -/
lemma IsPast.overlapArea_eq_zero (h : IsPast gap direction obstacle box) (hgap : 0 ≤ gap) :
    box.overlapArea obstacle = 0 := by
  apply Rect.overlapArea_eq_zero_of_beside
  cases direction with
  | up => exact Or.inr (Or.inr (Or.inl ((le_add_of_nonneg_right hgap).trans h)))
  | down => exact Or.inr (Or.inr (Or.inr ((le_add_of_nonneg_right hgap).trans h)))
  | left => exact Or.inl ((le_add_of_nonneg_right hgap).trans h)
  | right => exact Or.inr (Or.inl ((le_add_of_nonneg_right hgap).trans h))
  | center | upLeft | upRight | downRight | downLeft => exact h.elim

/-- An obstacle that is overlapped is ahead. -/
lemma clearance_pos_of_overlaps (hgap : 0 ≤ gap) (hdirection : direction ∈ shiftDirections)
    (h : obstacle.overlaps box = true) : 0 < clearance gap box direction obstacle := by
  rw [Rect.overlaps_exact, Rect.overlapArea_comm] at h
  by_contra hpast
  exact h.ne' (((clearance_nonpos_iff hdirection).mp (not_lt.mp hpast)).overlapArea_eq_zero hgap)

/-- A box that has gone some way has that much less to go. -/
lemma clearance_translate_step (hdirection : direction ∈ shiftDirections) (distance : ℚ) :
    clearance gap (box.translate (direction.step.scale distance)) direction obstacle =
      clearance gap box direction obstacle - distance := by
  rcases mem_shiftDirections.mp hdirection with rfl | rfl | rfl | rfl <;>
    simp only [clearance, Direction.step, Point.scale, Rect.translate, Scalar.num_exact] <;>
    push_cast <;> ring

end Obstacle

/-! ## Rounds -/

section Step

variable (gap : ℚ) (box : Rect ℚ) (obstacles : List (Rect ℚ)) (direction : Direction)

/-- No round goes back. -/
lemma clearingStep_nonneg : 0 ≤ clearingStep gap box obstacles direction :=
  Scalar.le_maxFrom 0 _

variable {box obstacles}

/-- A round passes everything that is overlapped at its beginning. -/
lemma clearance_le_clearingStep {o : Rect ℚ} (ho : o ∈ obstacles)
    (hoverlaps : o.overlaps box = true) :
    clearance gap box direction o ≤ clearingStep gap box obstacles direction := by
  apply Scalar.le_maxFrom_of_mem
  exact List.mem_map.mpr ⟨o, List.mem_filter.mpr ⟨ho, hoverlaps⟩, rfl⟩

/-- A box that overlaps nothing has no step to take. -/
lemma clearingStep_eq_zero (h : ∀ o ∈ obstacles, o.overlaps box = false) :
    clearingStep gap box obstacles direction = 0 := by
  have hnone : obstacles.filter (·.overlaps box) = [] := by
    apply List.filter_eq_nil_iff.mpr
    intro o ho
    rw [h o ho]
    exact Bool.false_ne_true
  rw [clearingStep, hnone, List.map_nil, Scalar.maxFrom_nil]

/-- A shift that has no step to take has ended. -/
lemma shiftFrom_of_clearingStep_nonpos {offset : Point ℚ}
    (h : clearingStep gap (box.translate offset) obstacles direction ≤ 0) (rounds : ℕ) :
    shiftFrom gap box obstacles direction rounds offset = offset := by
  cases rounds with
  | zero => rfl
  | succ rounds => exact if_pos h

end Step

/-- A box to be shifted in one of the four directions, clear of obstacles. -/
structure Shift where
  gap : ℚ
  box : Rect ℚ
  obstacles : List (Rect ℚ)
  direction : Direction
  gap_nonneg : 0 ≤ gap
  mem_directions : direction ∈ shiftDirections

namespace Shift

variable (s : Shift)

/-- The distance that the box has gone after so many rounds. -/
def travel : ℕ → ℚ
  | 0 => 0
  | rounds + 1 =>
    travel rounds + clearingStep s.gap (s.box.translate (s.direction.step.scale (travel rounds)))
      s.obstacles s.direction

/-- The box after so many rounds. -/
def boxAfter (rounds : ℕ) : Rect ℚ :=
  s.box.translate (s.direction.step.scale (s.travel rounds))

/-- The obstacles that the box is not past after so many rounds. -/
def ahead (rounds : ℕ) : List (Rect ℚ) :=
  s.obstacles.filter fun o => 0 < clearance s.gap (s.boxAfter rounds) s.direction o

/-- The box overlaps no obstacle after so many rounds. -/
def IsClear (rounds : ℕ) : Prop :=
  ∀ o ∈ s.obstacles, o.overlaps (s.boxAfter rounds) = false

/-- A round adds its step to the distance. -/
lemma travel_succ (rounds : ℕ) :
    s.travel (rounds + 1) = s.travel rounds +
      clearingStep s.gap (s.boxAfter rounds) s.obstacles s.direction :=
  rfl

/-- Before the first round the box is where it was. -/
@[simp] lemma boxAfter_zero : s.boxAfter 0 = s.box := by
  rw [boxAfter, travel, Point.scale_zero, Rect.translate_origin]

/-- The more rounds, the longer the way. -/
lemma travel_mono : Monotone s.travel := by
  apply monotone_nat_of_le_succ
  intro rounds
  exact le_add_of_nonneg_right (clearingStep_nonneg s.gap _ s.obstacles s.direction)

/-- A shift that goes on after some rounds comes to where all the rounds lead. -/
lemma shiftFrom_travel (before rounds : ℕ) :
    shiftFrom s.gap s.box s.obstacles s.direction rounds
        (s.direction.step.scale (s.travel before)) =
      s.direction.step.scale (s.travel (before + rounds)) := by
  induction rounds generalizing before with
  | zero => rfl
  | succ rounds ih =>
    have hnext := ih (before + 1)
    rw [Nat.add_right_comm, Nat.add_assoc] at hnext
    rw [shiftFrom]
    split_ifs with hstep
    · -- the shift ends early, and the rounds after that add no distance
      have hzero := le_antisymm hstep (clearingStep_nonneg s.gap _ s.obstacles s.direction)
      rwa [travel_succ, boxAfter, hzero, add_zero,
        shiftFrom_of_clearingStep_nonpos s.gap s.direction hstep] at hnext
    · rw [Point.scale_add_scale]
      exact hnext

/-- The shift leads as far as its rounds. -/
lemma shiftFrom_origin (rounds : ℕ) :
    shiftFrom s.gap s.box s.obstacles s.direction rounds .origin =
      s.direction.step.scale (s.travel rounds) := by
  have h := s.shiftFrom_travel 0 rounds
  rwa [travel, Point.scale_zero, Nat.zero_add] at h

/-! ### What is ahead -/

/-- What is left of the way to an obstacle after some rounds. -/
lemma clearance_boxAfter (rounds : ℕ) (o : Rect ℚ) :
    clearance s.gap (s.boxAfter rounds) s.direction o =
      clearance s.gap s.box s.direction o - s.travel rounds :=
  clearance_translate_step s.mem_directions (s.travel rounds)

variable {s} {rounds later : ℕ} {o : Rect ℚ}

/-- Once the box is past an obstacle it stays past it. -/
lemma clearance_nonpos_of_le (hle : rounds ≤ later)
    (h : clearance s.gap (s.boxAfter rounds) s.direction o ≤ 0) :
    clearance s.gap (s.boxAfter later) s.direction o ≤ 0 := by
  rw [clearance_boxAfter] at h ⊢
  exact (sub_le_sub_left (s.travel_mono hle) _).trans h

/-- After a round the box is past everything that it overlapped before. -/
lemma clearance_succ_nonpos (ho : o ∈ s.obstacles)
    (hoverlaps : o.overlaps (s.boxAfter rounds) = true) :
    clearance s.gap (s.boxAfter (rounds + 1)) s.direction o ≤ 0 := by
  have hstep := clearance_le_clearingStep s.gap s.direction ho hoverlaps
  rw [clearance_boxAfter] at hstep ⊢
  rw [travel_succ]
  linarith

/-- What is overlapped is ahead. -/
lemma mem_ahead_of_overlaps (ho : o ∈ s.obstacles)
    (hoverlaps : o.overlaps (s.boxAfter rounds) = true) : o ∈ s.ahead rounds := by
  apply List.mem_filter.mpr
  exact ⟨ho, decide_eq_true
    (clearance_pos_of_overlaps s.gap_nonneg s.mem_directions hoverlaps)⟩

/-- Only what was ahead before a round is ahead after it. -/
lemma ahead_succ (s : Shift) (rounds : ℕ) :
    s.ahead (rounds + 1) = (s.ahead rounds).filter fun o =>
      0 < clearance s.gap (s.boxAfter (rounds + 1)) s.direction o := by
  rw [ahead, ahead, List.filter_filter]
  apply List.filter_congr
  intro o _
  rw [Bool.eq_iff_iff, Bool.and_eq_true, decide_eq_true_eq, decide_eq_true_eq]
  refine ⟨fun hafter => ⟨hafter, ?_⟩, And.left⟩
  by_contra hbefore
  exact not_lt.mpr (clearance_nonpos_of_le rounds.le_succ (not_lt.mp hbefore)) hafter

/-- A round in which something is overlapped leaves less ahead. -/
lemma length_ahead_succ_lt (ho : o ∈ s.obstacles)
    (hoverlaps : o.overlaps (s.boxAfter rounds) = true) :
    (s.ahead (rounds + 1)).length < (s.ahead rounds).length := by
  rw [ahead_succ, List.length_filter_lt_length_iff_exists]
  refine ⟨o, mem_ahead_of_overlaps ho hoverlaps, ?_⟩
  rw [decide_eq_true_eq, not_lt]
  exact clearance_succ_nonpos ho hoverlaps

/-! ### The end of the shift -/

/-- A box that is not clear overlaps something. -/
lemma exists_overlaps (h : ¬ s.IsClear rounds) :
    ∃ o ∈ s.obstacles, o.overlaps (s.boxAfter rounds) = true := by
  by_contra hnone
  apply h
  intro o ho
  rw [← Bool.not_eq_true]
  intro hoverlaps
  exact hnone ⟨o, ho, hoverlaps⟩

/-- A clear box goes no farther. -/
lemma IsClear.travel_eq (h : s.IsClear rounds) (hle : rounds ≤ later) :
    s.travel later = s.travel rounds := by
  induction later, hle using Nat.le_induction with
  | base => rfl
  | succ later _ ih =>
    have hsame : s.boxAfter later = s.boxAfter rounds := by rw [boxAfter, boxAfter, ih]
    rw [travel_succ, hsame, clearingStep_eq_zero s.gap s.direction h, add_zero, ih]

/-- A clear box stays clear. -/
lemma IsClear.of_le (h : s.IsClear rounds) (hle : rounds ≤ later) : s.IsClear later := by
  intro o ho
  rw [boxAfter, h.travel_eq hle]
  exact h o ho

/-- As long as the box is not clear, every round has passed an obstacle. -/
lemma add_length_ahead_le (h : ¬ s.IsClear rounds) :
    rounds + (s.ahead rounds).length ≤ s.obstacles.length := by
  induction rounds with
  | zero =>
    rw [Nat.zero_add]
    exact List.length_filter_le _ _
  | succ rounds ih =>
    have hbefore : ¬ s.IsClear rounds := by
      intro hclear
      exact h (hclear.of_le rounds.le_succ)
    have hcount := ih hbefore
    obtain ⟨o, ho, hoverlaps⟩ := exists_overlaps hbefore
    have hfewer := length_ahead_succ_lt ho hoverlaps
    omega

/-- After as many rounds as there are obstacles the box is clear. -/
theorem isClear_length (s : Shift) : s.IsClear s.obstacles.length := by
  by_contra h
  have hcount := add_length_ahead_le h
  obtain ⟨o, ho, hoverlaps⟩ := exists_overlaps h
  have hahead := List.length_pos_of_mem (mem_ahead_of_overlaps ho hoverlaps)
  omega

end Shift

/-! ## The shift as a whole -/

/-- What an offset does that shifts a box in a direction clear of obstacles. -/
structure ClearsBy (gap : ℚ) (box : Rect ℚ) (obstacles : List (Rect ℚ)) (direction : Direction)
    (offset : Point ℚ) : Prop where
  /-- It goes in the direction and nowhere else. -/
  along : ∃ distance, 0 ≤ distance ∧ offset = direction.step.scale distance
  /-- After it the box shares no area with any obstacle. -/
  apart : ∀ o ∈ obstacles, (box.translate offset).overlapArea o = 0
  /-- As many rounds as there are obstacles are enough, and no further one changes anything. -/
  enough : ∀ rounds, obstacles.length ≤ rounds →
    shiftFrom gap box obstacles direction rounds .origin = offset
  /-- Whatever is overlapped after some rounds, the box is past it in the end. -/
  past : ∀ rounds, ∀ o ∈ obstacles,
    o.overlaps (box.translate (shiftFrom gap box obstacles direction rounds .origin)) = true →
      IsPast gap direction o (box.translate offset)
  /-- The box stays exactly if it overlaps nothing. -/
  stays_iff : offset = .origin ↔ ∀ o ∈ obstacles, o.overlaps box = false

/-- Whatever the obstacles are, the shift in a direction is clear of them. -/
theorem shiftClear_clears {gap : ℚ} (hgap : 0 ≤ gap) (box : Rect ℚ) (obstacles : List (Rect ℚ))
    {direction : Direction} (hdirection : direction ∈ shiftDirections) :
    ClearsBy gap box obstacles direction (shiftClear gap box obstacles direction) := by
  let s : Shift := ⟨gap, box, obstacles, direction, hgap, hdirection⟩
  have hclear : s.IsClear obstacles.length := s.isClear_length
  have hoffset : shiftClear gap box obstacles direction =
      direction.step.scale (s.travel obstacles.length) := by
    rw [← hclear.travel_eq obstacles.length.le_succ]
    exact s.shiftFrom_origin (obstacles.length + 1)
  have hfinal : box.translate (shiftClear gap box obstacles direction) =
      s.boxAfter obstacles.length := congrArg box.translate hoffset
  refine ⟨?_, ?_, ?_, ?_, ?_⟩
  · exact ⟨s.travel obstacles.length, s.travel_mono (Nat.zero_le _), hoffset⟩
  · intro o ho
    rw [hfinal, Rect.overlapArea_comm]
    exact Rect.overlapArea_eq_zero (hclear o ho)
  · intro rounds hrounds
    rw [hoffset, ← hclear.travel_eq hrounds]
    exact s.shiftFrom_origin rounds
  · intro rounds o ho hoverlaps
    have hbox : box.translate (shiftFrom gap box obstacles direction rounds .origin) =
        s.boxAfter rounds := congrArg box.translate (s.shiftFrom_origin rounds)
    rw [hbox] at hoverlaps
    -- what is overlapped is overlapped before the box is clear
    have hearly : rounds + 1 ≤ obstacles.length := by
      by_contra hlate
      rw [hclear.of_le (by omega) o ho] at hoverlaps
      cases hoverlaps
    rw [hfinal, ← clearance_nonpos_iff hdirection]
    exact s.clearance_nonpos_of_le hearly (s.clearance_succ_nonpos ho hoverlaps)
  · constructor
    · intro horigin o ho
      have hstays := hclear o ho
      rwa [← hfinal, horigin, Rect.translate_origin] at hstays
    · intro hfree
      have hstart : s.IsClear 0 := by
        rw [Shift.IsClear, Shift.boxAfter_zero]
        exact hfree
      rw [hoffset, hstart.travel_eq (Nat.zero_le _)]
      exact Point.scale_zero _

/-- Clear of the first obstacle a box runs into a second one, and clear of that into a third. -/
theorem shiftClear_clears_threeInRow :
    let obstacles : List (Rect ℚ) := [⟨38, -10, 50, 5⟩, ⟨16, 4, 30, 20⟩, ⟨5, 0, 12, 10⟩]
    (0 : ℚ) ≤ 2 ∧ Direction.right ∈ shiftDirections ∧
      ClearsBy 2 ⟨0, 0, 10, 10⟩ obstacles .right ⟨52, 0⟩ ∧
      shiftFrom 2 ⟨0, 0, 10, 10⟩ obstacles .right 2 .origin = (⟨32, 0⟩ : Point ℚ) := by
  intro obstacles
  have hgap : (0 : ℚ) ≤ 2 := by norm_num
  have hright : Direction.right ∈ shiftDirections := by decide
  have hshift : shiftClear 2 ⟨0, 0, 10, 10⟩ obstacles .right = (⟨52, 0⟩ : Point ℚ) := by
    decide +kernel
  have hclears := shiftClear_clears hgap ⟨0, 0, 10, 10⟩ obstacles hright
  rw [hshift] at hclears
  exact ⟨hgap, hright, hclears, by decide +kernel⟩

end DiagramLayout
