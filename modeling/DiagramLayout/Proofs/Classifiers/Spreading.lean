import DiagramLayout.Proofs.Classifiers.Soundness

/-!
# Spreading takes turns that add no overlap

Every turn of the second step is defined, whatever slots are looked for, and the offset that is
chosen either moves nothing or is eligible. `Drawing.moveApart_induction` passes both on to whatever
holds of the drawings that the turns lead through.
-/

namespace DiagramLayout

/-! ## Guards -/

/-- There always is a way into a rectangle. -/
lemma defined_wayInto (size : Size ℚ) (center : Point ℚ) (free : Rect ℚ) :
    (wayInto size center free).defined = true := by
  simp [wayInto, Rect.defined_nearestPoint]

/-- The nearest strip is found without a guard. -/
lemma defined_nearestStrip (size : Size ℚ) (center : Point ℚ) (strips : List (Rect ℚ)) :
    (nearestStrip size center strips).defined = true := by
  rcases strips with _ | ⟨s, _ | ⟨t, rest⟩⟩
  · rfl
  · rfl
  · have hmeasured : ((s :: t :: rest).mapM fun strip => do
        let way ← wayInto size center strip
        return (strip, way.manhattanLength)).defined = true :=
      Guarded.defined_mapM fun strip _ => by simp [defined_wayInto]
    simp only [nearestStrip, Guarded.defined_bind, hmeasured]
    rfl

/-- A free rectangle is narrowed without a guard. -/
lemma defined_narrow (size : Size ℚ) (center : Point ℚ) (free : Option (Rect ℚ))
    (obstacle : Rect ℚ) : (narrow size center free obstacle).defined = true := by
  unfold narrow
  split
  · rfl
  · split_ifs
    · exact defined_nearestStrip size center _
    · rfl

/-- A free slot is looked for without a guard. -/
lemma defined_slotOffset (gap : ℚ) (box : Rect ℚ) (obstacles : List (Rect ℚ))
    (drawArea : Rect ℚ) : (slotOffset gap box obstacles drawArea).defined = true := by
  have hnarrowed (start : Option (Rect ℚ)) :
      (obstacles.foldlM (narrow box.size box.center) start).defined = true :=
    Guarded.defined_foldlM (defined_narrow box.size box.center) start obstacles
  unfold slotOffset
  dsimp only
  split_ifs
  · rfl
  · rw [Guarded.defined_bind, hnarrowed, Bool.true_and]
    split
    · rfl
    · rw [Guarded.defined_map]
      exact defined_wayInto _ _ _

namespace Turn

/-- The offsets to choose from are computed without a guard. -/
lemma defined_candidates (t : Turn ℚ) : t.candidates.defined = true := by
  have hslot : t.slotOffset?.defined = true := by
    unfold slotOffset?
    split
    · exact defined_slotOffset _ _ _ _
    · rfl
  simp [candidates, hslot]

/-- An offset is chosen without a guard. -/
lemma defined_choice (t : Turn ℚ) : t.choice.defined = true := by
  simp [choice, defined_candidates]

/-! ## The chosen offset -/

/-- An eligible offset does not add overlap with strangers. -/
lemma isEligible_exact {t : Turn ℚ} {offset : Point ℚ} :
    t.isEligible offset = true ↔
      t.overlapAfter offset ≤ strangerOverlap t.nesting t.index t.envelopes t.current := by
  simp [isEligible]

/-- The offset that is chosen is eligible. -/
theorem isEligible_choice (t : Turn ℚ) : t.isEligible t.choice.value = true := by
  unfold choice
  simp only [Guarded.value_bind, Guarded.value_pure]
  cases hchosen : Scalar.cheapestBy t.cost (t.candidates.value.filter t.isEligible) with
  | none =>
    rw [isEligible_exact, Option.getD_none, overlapAfter, Rect.translate_origin]
  | some offset =>
    have hmem := Scalar.mem_of_cheapestBy hchosen
    exact (List.mem_filter.mp hmem).2

end Turn

namespace Drawing

variable {config : Config ℚ}

/-- Moving the classifiers apart needs no guard. -/
lemma defined_moveApart (d : Drawing ℚ) : (d.moveApart config).defined = true := by
  have hstep (s : Spreading ℚ) (i : ℕ) : (s.step config i).defined = true := by
    simp [Spreading.step, Turn.defined_choice]
  simp [moveApart, Guarded.defined_foldlM hstep]

/-- What is kept when a classifier moves by an eligible offset is kept when all take their turns. -/
theorem moveApart_induction {motive : Drawing ℚ → Prop}
    (hmove : ∀ (s : Spreading ℚ) i offset, motive s.drawing →
      (s.turn config i).isEligible offset = true →
        motive (s.drawing.translateClassifier i offset))
    {d : Drawing ℚ} (hstart : motive d) : motive (d.moveApart config).value.1 := by
  rw [value_moveApart]
  refine List.foldlRecOn _ _ (motive := fun s : Spreading ℚ => motive s.drawing) hstart ?_
  intro s hs i _
  unfold Spreading.step
  simp only [Guarded.value_bind, Guarded.value_pure]
  split_ifs
  · exact hs
  · exact hmove s i _ hs (Turn.isEligible_choice _)

/-- Moving classifiers apart keeps all boxes sound. -/
theorem Sound.moveApart {d : Drawing ℚ} {border : ℚ} (h : d.Sound border) :
    (d.moveApart config).value.1.Sound border :=
  moveApart_induction (motive := Drawing.Sound border)
    (fun _ i offset hs _ => hs.translateClassifier i offset) h

end Drawing

end DiagramLayout
