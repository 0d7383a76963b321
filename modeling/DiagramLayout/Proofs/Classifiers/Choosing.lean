import Mathlib
import DiagramLayout.Proofs.Classifiers.Overlap
import DiagramLayout.Proofs.Ranking

/-!
# What a turn of spreading chooses

The offset of a turn is the cheapest of those to choose from that do not add overlap with strangers
(`Turn.cheapest_choice`). Staying is one of them and moves nothing, so a turn never ends with more
cost than it started from. A classifier that has no area outside the draw area and shares none with
a stranger pays nothing for staying, while every other offset costs at least its length: it stays.

Where this holds of all classifiers, the first turn changes nothing, so the second one finds the
same drawing, and spreading leaves everything in its place (`Drawing.Settled.spreadingAfter_eq`).
-/

namespace DiagramLayout

namespace Point

/-- The length of an offset along the axes. -/
lemma manhattanLength_exact (p : Point ℚ) : p.manhattanLength = |p.x| + |p.y| := by
  rw [manhattanLength, Scalar.abs_exact, Scalar.abs_exact]

/-- Only the offset that moves nothing is the origin. -/
lemma isOrigin_exact {p : Point ℚ} : p.isOrigin = true ↔ p = .origin := by
  obtain ⟨x, y⟩ := p
  simp only [isOrigin, Bool.and_eq_true, Scalar.isZero_exact, origin, Point.mk.injEq]

/-- Only the offset that moves nothing has no length. -/
lemma eq_origin_of_manhattanLength {p : Point ℚ} (h : p.manhattanLength ≤ 0) : p = .origin := by
  rw [manhattanLength_exact] at h
  have hx : |p.x| = 0 := le_antisymm (by linarith [abs_nonneg p.y]) (abs_nonneg _)
  have hy : |p.y| = 0 := le_antisymm (by linarith [abs_nonneg p.x]) (abs_nonneg _)
  obtain ⟨x, y⟩ := p
  rw [abs_eq_zero] at hx hy
  exact congrArg₂ Point.mk hx hy

end Point

namespace GridKind

/-- What has no part along a time axis keeps what it has. -/
lemma project_project (kind : GridKind) (p : Point ℚ) :
    kind.project (kind.project p) = kind.project p := by
  cases kind <;> rfl

/-- The offset that moves nothing has no part along a time axis. -/
lemma project_origin (kind : GridKind) : kind.project (.origin : Point ℚ) = .origin := by
  cases kind <;> rfl

end GridKind

namespace Turn

/-! ## What an offset costs -/

/-- The envelopes of its strangers that have not had their turn. -/
def waiting (t : Turn ℚ) : List (Rect ℚ) :=
  (t.envelopes.zipIdx.filter fun (_, other) =>
    !t.placed.contains other && !t.nesting.related t.index other).map Prod.fst

/-- The area that a box shares with some boxes. -/
def sharedWith (probe : Rect ℚ) (boxes : List (Rect ℚ)) : ℚ := (boxes.map probe.overlapArea).sum

/-- Shared area is not negative. -/
lemma sharedWith_nonneg (probe : Rect ℚ) (boxes : List (Rect ℚ)) : 0 ≤ sharedWith probe boxes := by
  apply List.sum_nonneg
  intro area harea
  obtain ⟨box, -, rfl⟩ := List.mem_map.mp harea
  exact Rect.overlapArea_nonneg probe box

/-- The area shared with chosen envelopes, position by position. -/
lemma sharedWith_filter (probe : Rect ℚ) (xs : List (Rect ℚ × ℕ)) (chooses : Rect ℚ × ℕ → Bool) :
    sharedWith probe ((xs.filter chooses).map Prod.fst) =
      (xs.map fun x => if chooses x then probe.overlapArea x.1 else 0).sum := by
  rw [sharedWith, List.map_map, sum_map_filter]
  rfl

/-- A stranger has had its turn or is waiting for it. -/
lemma strangerOverlap_eq_add (t : Turn ℚ) (probe : Rect ℚ) :
    strangerOverlap t.nesting t.index t.envelopes probe =
      sharedWith probe t.obstacles + sharedWith probe t.waiting := by
  have hall : strangerOverlap t.nesting t.index t.envelopes probe =
      sharedWith probe (DiagramLayout.strangers t.nesting t.index t.envelopes) :=
    Scalar.sum_exact _
  rw [hall, DiagramLayout.strangers, obstacles, waiting, sharedWith_filter, sharedWith_filter,
    sharedWith_filter, ← List.sum_map_add]
  apply congrArg List.sum
  apply List.map_congr_left
  intro x _
  by_cases hplaced : x.2 ∈ t.placed <;> cases hrelated : t.nesting.related t.index x.2 <;>
    simp [hplaced, hrelated]

/-- Shared area with a stranger counts four times if the stranger has had its turn. -/
lemma sum_ofClassifiersWhile (t : Turn ℚ) (probe : Rect ℚ) :
    Scalar.sum ((t.envelopes.zipIdx.filter fun (_, other) => other != t.index).map
        fun (envelope, other) =>
          Debt.ofClassifiersWhile t.nesting t.placed t.index probe other envelope) =
      4 * sharedWith probe t.obstacles + sharedWith probe t.waiting := by
  rw [Scalar.sum_exact, sum_map_filter, obstacles, waiting, sharedWith_filter, sharedWith_filter,
    ← List.sum_map_mul_left, ← List.sum_map_add]
  apply congrArg List.sum
  apply List.map_congr_left
  rintro ⟨envelope, other⟩ -
  by_cases hself : other = t.index
  · -- a classifier is no stranger of itself
    simp [hself]
  · have hother : (other != t.index) = true := by simpa using hself
    simp only [hother, if_true, Debt.ofClassifiersWhile, Debt.ofClassifiers]
    by_cases hplaced : other ∈ t.placed <;> cases hrelated : t.nesting.related t.index other <;>
      simp [hplaced]

/-- The cost of an offset, written out. -/
lemma cost_exact (t : Turn ℚ) (offset : Point ℚ) :
    t.cost offset = |offset.x| + |offset.y| +
      32 * (t.current.translate offset).areaOutside t.drawArea +
      (4 * sharedWith (t.current.translate offset) t.obstacles +
        sharedWith (t.current.translate offset) t.waiting) := by
  rw [cost, sum_ofClassifiersWhile, Point.manhattanLength_exact, Debt.outsideWeight,
    Scalar.num_exact]
  norm_num

/-- An offset costs at least its length. -/
lemma manhattanLength_le_cost (t : Turn ℚ) (offset : Point ℚ) :
    offset.manhattanLength ≤ t.cost offset := by
  have houtside := Rect.areaOutside_nonneg (t.current.translate offset) t.drawArea
  have hplaced := sharedWith_nonneg (t.current.translate offset) t.obstacles
  have hwaiting := sharedWith_nonneg (t.current.translate offset) t.waiting
  rw [cost_exact, Point.manhattanLength_exact]
  linarith

/-- Staying costs nothing in the draw area and apart from all strangers. -/
lemma cost_origin_eq_zero {t : Turn ℚ} (hinside : t.drawArea.contains t.current = true)
    (hapart : strangerOverlap t.nesting t.index t.envelopes t.current = 0) :
    t.cost .origin = 0 := by
  have hplaced := sharedWith_nonneg t.current t.obstacles
  have hwaiting := sharedWith_nonneg t.current t.waiting
  have hshared := (t.strangerOverlap_eq_add t.current).symm.trans hapart
  rw [cost_exact, Rect.translate_origin, Rect.areaOutside_eq_zero hinside]
  change |(0 : ℚ)| + |0| + 32 * 0 + _ = 0
  rw [abs_zero]
  linarith

/-! ## The cheapest offset -/

/-- No offset to choose from has a part along a time axis. -/
lemma project_of_mem_candidates {t : Turn ℚ} {offset : Point ℚ}
    (h : offset ∈ t.candidates.value) : t.kind.project offset = offset := by
  simp only [candidates, Guarded.value_bind, Guarded.value_pure] at h
  obtain ⟨unprojected, -, rfl⟩ := List.mem_map.mp h
  exact t.kind.project_project unprojected

/-- Staying is to choose from. -/
lemma origin_mem_candidates (t : Turn ℚ) : .origin ∈ t.candidates.value := by
  simp only [candidates, Guarded.value_bind, Guarded.value_pure]
  refine List.mem_map.mpr ⟨.origin, ?_, t.kind.project_origin⟩
  simp

/-- Staying does not add overlap. -/
lemma isEligible_origin (t : Turn ℚ) : t.isEligible .origin = true := by
  rw [isEligible_exact, overlapAfter, Rect.translate_origin]

/-- What an offset has over all others that a turn has to choose from. -/
structure Cheapest (t : Turn ℚ) (offset : Point ℚ) : Prop where
  /-- It is one of the offsets to choose from. -/
  candidate : offset ∈ t.candidates.value
  /-- It does not add overlap with strangers. -/
  eligible : t.overlapAfter offset ≤ t.overlapAfter .origin
  /-- None to choose from that does not add overlap costs less. -/
  least : ∀ other ∈ t.candidates.value, t.overlapAfter other ≤ t.overlapAfter .origin →
    t.cost offset ≤ t.cost other

/-- An offset is eligible if there is no more overlap after it than after staying. -/
lemma isEligible_iff {t : Turn ℚ} {offset : Point ℚ} :
    t.isEligible offset = true ↔ t.overlapAfter offset ≤ t.overlapAfter .origin := by
  have hstays : t.overlapAfter .origin =
      strangerOverlap t.nesting t.index t.envelopes t.current := by
    rw [overlapAfter, Rect.translate_origin]
  rw [isEligible_exact, hstays]

/-- The offset that is chosen is the cheapest. -/
theorem cheapest_choice (t : Turn ℚ) : t.Cheapest t.choice.value := by
  have hstays : .origin ∈ t.candidates.value.filter t.isEligible :=
    List.mem_filter.mpr ⟨t.origin_mem_candidates, t.isEligible_origin⟩
  obtain ⟨offset, hmem, hfound, hleast⟩ :=
    Scalar.exists_cheapestBy t.cost (List.ne_nil_of_mem hstays)
  have hchoice : t.choice.value = offset := by
    simp only [choice, Guarded.value_bind, Guarded.value_pure, hfound, Option.getD_some]
  obtain ⟨hcandidate, heligible⟩ := List.mem_filter.mp hmem
  rw [hchoice]
  refine ⟨hcandidate, isEligible_iff.mp heligible, ?_⟩
  intro other hother hno
  exact hleast other (List.mem_filter.mpr ⟨hother, isEligible_iff.mpr hno⟩)

/-- The offset that is chosen costs no more than staying. -/
lemma Cheapest.cost_le {t : Turn ℚ} {offset : Point ℚ} (h : t.Cheapest offset) :
    t.cost offset ≤ t.cost .origin :=
  h.least .origin t.origin_mem_candidates le_rfl

/-- In the draw area and apart from all strangers nothing is cheaper than staying. -/
lemma Cheapest.eq_origin {t : Turn ℚ} {offset : Point ℚ} (h : t.Cheapest offset)
    (hinside : t.drawArea.contains t.current = true)
    (hapart : strangerOverlap t.nesting t.index t.envelopes t.current = 0) : offset = .origin := by
  apply Point.eq_origin_of_manhattanLength
  calc offset.manhattanLength ≤ t.cost offset := t.manhattanLength_le_cost offset
    _ ≤ t.cost .origin := h.cost_le
    _ = 0 := cost_origin_eq_zero hinside hapart

end Turn

namespace Drawing

variable {config : Config ℚ} {d : Drawing ℚ}

/-! ## Turns -/

/-- Moving a classifier by nothing changes nothing. -/
lemma translateClassifier_origin (d : Drawing ℚ) (i : ℕ) : d.translateClassifier i .origin = d := by
  have hsame : d.classifiers.modify i (fun c => { c with boxes := d.boxes i }) =
      d.classifiers := by
    apply List.ext_getElem?
    intro j
    rw [List.getElem?_modify]
    by_cases hij : i = j
    · subst hij
      cases hc : d.classifiers[i]? with
      | none => rfl
      | some c => simp [boxes_of_getElem? hc]
    · simp [hij]
  rw [translateClassifier, ClassifierBoxes.translate_origin, setBoxes, hsame]

/-- In its turn a classifier moves by the offset that is chosen. -/
lemma spreading_step_eq (config : Config ℚ) (s : Spreading ℚ) (i : ℕ) :
    (s.step config i).value =
      ⟨s.drawing.translateClassifier i (s.turn config i).choice.value,
        Debt.markPlaced s.drawing.nesting s.placed i,
        s.offsets.set i (s.turn config i).choice.value⟩ := by
  unfold Spreading.step
  simp only [Guarded.value_bind, Guarded.value_pure]
  split_ifs with hstays
  · rw [Point.isOrigin_exact.mp hstays, translateClassifier_origin]
  · rfl

/-- A classifier has its place when it has had its turn. -/
lemma mem_placed_spreadingAfter (config : Config ℚ) (d : Drawing ℚ) (turns : List ℕ) (i : ℕ) :
    i ∈ (d.spreadingAfter config turns).placed ↔ i ∈ turns ∧ i < d.nesting.size := by
  induction turns using List.reverseRecOn with
  | nil => simp [spreadingAfter]
  | append_singleton turns j ih =>
    have hnesting := (reboxes_spreadingAfter config d turns).nesting_eq
    rw [spreadingAfter_concat, spreading_step_eq, List.mem_append, List.mem_singleton]
    dsimp only
    rw [Debt.markPlaced, hnesting]
    split_ifs with hsize
    · rw [List.mem_cons, ih]
      grind
    · rw [ih]
      grind

/-- The offset of a classifier is recorded in its turn and in no other. -/
lemma getElem?_offsets_spreadingAfter_append (config : Config ℚ) (d : Drawing ℚ)
    (turns : List ℕ) {further : List ℕ} {i : ℕ} (hi : i ∉ further) :
    (d.spreadingAfter config (turns ++ further)).offsets[i]? =
      (d.spreadingAfter config turns).offsets[i]? := by
  induction further using List.reverseRecOn with
  | nil => rw [List.append_nil]
  | append_singleton further j ih =>
    obtain ⟨hfurther, hj⟩ : i ∉ further ∧ i ≠ j := by simpa using hi
    rw [← List.append_assoc, spreadingAfter_concat, spreading_step_eq]
    simp only [List.getElem?_set_ne (Ne.symm hj)]
    exact ih hfurther

/-- There is an offset for every classifier. -/
lemma length_offsets_spreadingAfter (config : Config ℚ) (d : Drawing ℚ) (turns : List ℕ) :
    (d.spreadingAfter config turns).offsets.length = d.classifiers.length := by
  induction turns using List.reverseRecOn with
  | nil => simp [spreadingAfter]
  | append_singleton turns j ih =>
    rw [spreadingAfter_concat, spreading_step_eq]
    simpa using ih

/-- Those that have turns are the positions of the classifiers. -/
lemma map_fst_simpleness (d : Drawing ℚ) :
    ((List.range d.classifiers.length).map fun i => (i, d.simpleness i)).map Prod.fst =
      List.range d.classifiers.length := by
  rw [List.map_map]
  exact List.map_id _

/-- Whatever has a turn is a classifier of the drawing. -/
lemma lt_of_mem_turnRanking {i : ℕ} (hi : i ∈ (d.turnRanking config).order) :
    i < d.classifiers.length := by
  have hranked := Ranking.mem_of_mem_order hi
  rwa [map_fst_simpleness, List.mem_range] at hranked

/-- No classifier has two turns. -/
lemma nodup_turnRanking (config : Config ℚ) (d : Drawing ℚ) :
    (d.turnRanking config).order.Nodup := by
  refine Ranking.nodup_order_ofWeights _ ?_
  rw [map_fst_simpleness]
  exact List.nodup_range

/-- The offset that is told of a classifier is the one that it has chosen in its turn. -/
lemma getElem?_offsets_moveApart {before after : List ℕ} {i : ℕ}
    (horder : (d.turnRanking config).order = before ++ i :: after) :
    (d.moveApart config).value.2[i]? =
      some ((d.spreadingAfter config before).turn config i).choice.value := by
  have hnodup : (before ++ i :: after).Nodup := horder ▸ d.nodup_turnRanking config
  have hmem : i ∈ (d.turnRanking config).order := by simp [horder]
  have hi : i < d.classifiers.length := lt_of_mem_turnRanking hmem
  have hafter : i ∉ after := by
    rw [List.nodup_middle, List.nodup_cons, List.mem_append, not_or] at hnodup
    exact hnodup.1.2
  have hsplit : before ++ i :: after = (before ++ [i]) ++ after := by simp
  rw [value_moveApart, horder, hsplit, getElem?_offsets_spreadingAfter_append config d _ hafter,
    spreadingAfter_concat, spreading_step_eq]
  have hlength := length_offsets_spreadingAfter config d before
  exact List.getElem?_set_self (hlength ▸ hi)

/-! ## Settled drawings -/

/-- All classifiers are in the draw area and no two strangers overlap. -/
structure Settled (d : Drawing ℚ) : Prop where
  inside : ∀ i < d.classifiers.length, d.sheet.drawArea.contains (d.boxes i).envelope = true
  apart : ∀ i < d.classifiers.length, ∀ j < d.classifiers.length, d.nesting.related i j = false →
    (d.boxes i).envelope.overlaps (d.boxes j).envelope = false

/-- Whether a drawing is settled is decided on its classifiers. -/
instance (d : Drawing ℚ) : Decidable d.Settled :=
  decidable_of_iff
    ((∀ i < d.classifiers.length, d.sheet.drawArea.contains (d.boxes i).envelope = true) ∧
      ∀ i < d.classifiers.length, ∀ j < d.classifiers.length, d.nesting.related i j = false →
        (d.boxes i).envelope.overlaps (d.boxes j).envelope = false)
    ⟨fun h => ⟨h.1, h.2⟩, fun h => ⟨h.inside, h.apart⟩⟩

/-- In a settled drawing a classifier shares nothing with its strangers. -/
lemma Settled.strangerOverlap_eq_zero (h : d.Settled) {i : ℕ} (hi : i < d.classifiers.length) :
    strangerOverlap d.nesting i d.envelopes (d.boxes i).envelope = 0 := by
  rw [strangerOverlap_envelopes]
  apply Finset.sum_eq_zero
  intro j hj
  split_ifs with hrelated
  · rfl
  · apply Rect.overlapArea_eq_zero
    exact h.apart i hi j (Finset.mem_range.mp hj) (by simpa using hrelated)

/-- In a settled drawing every classifier chooses to stay. -/
lemma Settled.choice_eq (h : d.Settled) (config : Config ℚ) {s : Spreading ℚ}
    (hs : s.drawing = d) {i : ℕ} (hi : i < d.classifiers.length) :
    (s.turn config i).choice.value = .origin := by
  subst hs
  have hcurrent : (s.turn config i).current = (s.drawing.boxes i).envelope :=
    getD_envelopes s.drawing i
  refine (s.turn config i).cheapest_choice.eq_origin ?_ ?_
  · rw [hcurrent]
    exact h.inside i hi
  · rw [hcurrent]
    exact h.strangerOverlap_eq_zero hi

/-- Turns leave a settled drawing as it is. -/
theorem Settled.spreadingAfter_eq (h : d.Settled) (config : Config ℚ) {turns : List ℕ}
    (hturns : ∀ i ∈ turns, i < d.classifiers.length) :
    (d.spreadingAfter config turns).drawing = d ∧
      (d.spreadingAfter config turns).offsets = d.classifiers.map fun _ => .origin := by
  induction turns using List.reverseRecOn with
  | nil => exact ⟨rfl, rfl⟩
  | append_singleton turns i ih =>
    have hfewer : ∀ j ∈ turns, j < d.classifiers.length := by
      intro j hj
      exact hturns j (List.mem_append_left _ hj)
    obtain ⟨hdrawing, hoffsets⟩ := ih hfewer
    have hi : i < d.classifiers.length := hturns i (by simp)
    have hstays := h.choice_eq config hdrawing hi
    rw [spreadingAfter_concat, spreading_step_eq]
    dsimp only
    rw [hstays, hdrawing, translateClassifier_origin, hoffsets, List.map_const',
      List.set_replicate_self]
    exact ⟨rfl, rfl⟩

/-! ## The whole step -/

/-- What happens when it is the turn of the classifier at a position, after the turns of others: in
the situation that they have left, the classifier moves by the cheapest offset. -/
structure TakesTurn (config : Config ℚ) (d : Drawing ℚ) (before : List ℕ) (i : ℕ) (t : Turn ℚ)
    (offset : Point ℚ) : Prop where
  /-- The situation is the one after the turns before. -/
  turn_eq : t = (d.spreadingAfter config before).turn config i
  /-- The classifiers that have their place are those that have had their turns. -/
  placed : ∀ j, j ∈ t.placed ↔ j ∈ before ∧ j < d.nesting.size
  /-- The classifier moves by the offset, and nothing else moves. -/
  moves : (d.spreadingAfter config (before ++ [i])).drawing =
    (d.spreadingAfter config before).drawing.translateClassifier i offset
  /-- The offset is told in the end. -/
  told : (d.moveApart config).value.2[i]? = some offset
  /-- An offset costs its length, the area outside the draw area and the overlap with strangers. -/
  cost_eq : ∀ other, t.cost other = |other.x| + |other.y| +
    32 * (t.current.translate other).areaOutside t.drawArea +
    (4 * Turn.sharedWith (t.current.translate other) t.obstacles +
      Turn.sharedWith (t.current.translate other) t.waiting)
  /-- In a scenario no offset to choose from leaves the row or the column. -/
  projected : ∀ other ∈ t.candidates.value, t.kind.project other = other
  /-- Staying is to choose from. -/
  staying : .origin ∈ t.candidates.value
  /-- The offset is the cheapest of those that do not add overlap. -/
  cheapest : t.Cheapest offset
  /-- It costs no more than staying. -/
  cost_le : t.cost offset ≤ t.cost .origin
  /-- In the draw area and apart from all strangers the classifier stays. -/
  stays : t.drawArea.contains t.current = true →
    strangerOverlap t.nesting t.index t.envelopes t.current = 0 → offset = .origin

/-- Whatever the drawing is, spreading consists of turns in each of which the classifier moves by
the cheapest offset, and it leaves a settled drawing as it is. -/
theorem moveApart_takesTurns (config : Config ℚ) (d : Drawing ℚ) :
    (d.moveApart config).defined = true ∧
      (d.moveApart config).value.1 =
        (d.spreadingAfter config (d.turnRanking config).order).drawing ∧
      (∀ before i after, (d.turnRanking config).order = before ++ i :: after →
        ∃ t offset, d.TakesTurn config before i t offset) ∧
      (d.Settled → (d.moveApart config).value = (d, d.classifiers.map fun _ => .origin)) := by
  refine ⟨defined_moveApart d, by rw [value_moveApart], ?_, ?_⟩
  · intro before i after horder
    have hcheapest := ((d.spreadingAfter config before).turn config i).cheapest_choice
    exact ⟨_, _,
      { turn_eq := rfl
        placed := mem_placed_spreadingAfter config d before
        moves := by rw [spreadingAfter_concat, spreading_step_eq]
        told := getElem?_offsets_moveApart horder
        cost_eq := Turn.cost_exact _
        projected := fun _ hother => Turn.project_of_mem_candidates hother
        staying := Turn.origin_mem_candidates _
        cheapest := hcheapest
        cost_le := hcheapest.cost_le
        stays := hcheapest.eq_origin }⟩
  · intro hsettled
    have hturns : ∀ i ∈ (d.turnRanking config).order, i < d.classifiers.length := by
      intro i hi
      exact lt_of_mem_turnRanking hi
    obtain ⟨hdrawing, hoffsets⟩ := hsettled.spreadingAfter_eq config hturns
    rw [value_moveApart, hdrawing, hoffsets]

/-- The crowded drawing with its first boxes. -/
def crowdedStart : Drawing ℚ := crowded.estimateBounds (.ofConfig .standard) .standard

/-- In the crowded drawing the inner package has its turn after the actor, and what spreading makes
of the drawing is settled. -/
theorem moveApart_takesTurns_crowdedStart :
    (crowdedStart.turnRanking .standard).order = [2] ++ 1 :: [0] ∧
      (∃ t offset, crowdedStart.TakesTurn .standard [2] 1 t offset) ∧
      (crowdedStart.moveApart .standard).value.1.Settled ∧
      ((crowdedStart.moveApart .standard).value.1.moveApart .standard).value =
        ((crowdedStart.moveApart .standard).value.1,
          (crowdedStart.moveApart .standard).value.1.classifiers.map fun _ => .origin) :=
  have horder : (crowdedStart.turnRanking .standard).order = [2] ++ 1 :: [0] := by decide +kernel
  have hsettled : (crowdedStart.moveApart .standard).value.1.Settled := by decide +kernel
  ⟨horder, (moveApart_takesTurns .standard crowdedStart).2.2.1 [2] 1 [0] horder, hsettled,
    (moveApart_takesTurns .standard (crowdedStart.moveApart .standard).value.1).2.2.2 hsettled⟩

end Drawing

end DiagramLayout
