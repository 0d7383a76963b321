import Mathlib
import DiagramLayout.Proofs.Classifiers.Cycles
import DiagramLayout.Proofs.Classifiers.Overlap
import DiagramLayout.Proofs.Ranking

/-!
# Children stay embraced

A containment that is accepted in its turn leaves its parent with a space that holds the child and
the distance around it (`Drawing.Embraced`). What later turns do to the parent only adds to its
space (`Drawing.Grows`), and nothing happens to the child any more: over a closed nesting a parent
encloses more than any of its children, so whoever has a turn as a parent after it encloses more
than the child and is not the child. That is why the child is still held when all containments have
had their turns (`Drawing.embraceChildren_keepsChildren`).
-/

namespace DiagramLayout

namespace Embracing

variable {α : Type} [Scalar α]

/-- The boxes that the parent of a containment gets in its turn, if there is room for them. -/
def acceptedBoxes? (m : Composer α) (config : Config α) (s : Embracing α) (c : Containment) :
    Option (ClassifierBoxes α) := do
  let parent ← s.drawing.classifiers[c.parent]?
  let grown := s.drawing.grownBoxes m config parent (s.parents.contains c.parent) c.child
  if s.drawing.admitsGrowth c.parent parent.boxes grown then some grown else none

/-- True if the parent of a containment grows in its turn. -/
def accepts (m : Composer α) (config : Config α) (s : Embracing α) (c : Containment) : Bool :=
  (s.acceptedBoxes? m config c).isSome

/-- A turn sets the boxes that are accepted, and changes nothing if none are. -/
theorem step_eq (m : Composer α) (config : Config α) (s : Embracing α) (c : Containment) :
    s.step m config c =
      match s.acceptedBoxes? m config c with
      | some grown => ⟨s.drawing.setBoxes c.parent grown, c.parent :: s.parents⟩
      | none => s := by
  unfold step acceptedBoxes?
  cases hparent : s.drawing.classifiers[c.parent]? with
  | none => rfl
  | some parent =>
    simp only [Option.bind_eq_bind, Option.bind_some]
    split_ifs <;> rfl

/-- Boxes that are accepted are those of the parent grown around the child, and they are
admitted. -/
theorem of_acceptedBoxes? {m : Composer α} {config : Config α} {s : Embracing α} {c : Containment}
    {grown : ClassifierBoxes α} (h : s.acceptedBoxes? m config c = some grown) :
    ∃ parent, s.drawing.classifiers[c.parent]? = some parent ∧
      grown = s.drawing.grownBoxes m config parent (s.parents.contains c.parent) c.child ∧
      s.drawing.admitsGrowth c.parent parent.boxes grown = true := by
  unfold acceptedBoxes? at h
  obtain ⟨parent, hparent, hgrown⟩ := Option.bind_eq_some_iff.mp h
  dsimp only at hgrown
  split_ifs at hgrown with hadmitted
  cases hgrown
  exact ⟨parent, hparent, rfl, hadmitted⟩

end Embracing

namespace Drawing

/-- All classifiers have proper boxes. -/
def Proper (d : Drawing ℚ) : Prop := ∀ i, (d.boxes i).Proper

/-- Whether boxes are proper is decided on the classifiers. -/
instance (d : Drawing ℚ) : Decidable d.Proper :=
  decidable_of_iff (∀ i < d.classifiers.length, (d.boxes i).symbol.Ordered ∧
      (d.boxes i).space.Ordered ∧ (d.boxes i).symbol.contains (d.boxes i).space = true) <| by
    refine ⟨fun h i => ?_, fun h i _ => ⟨(h i).symbol, (h i).space, (h i).inner⟩⟩
    by_cases hi : i < d.classifiers.length
    · obtain ⟨hsymbol, hspace, hinner⟩ := h i hi
      exact ⟨hsymbol, hspace, hinner⟩
    · rw [boxes, List.getElem?_eq_none (not_lt.mp hi)]
      exact (sound_unplaced le_rfl).proper le_rfl

variable {config : Config ℚ} {d d' d'' : Drawing ℚ} {c : Containment}

/-! ## One turn -/

/-- The parent of a containment has grown around its child. -/
structure Embraced (config : Config ℚ) (c : Containment) (d d' : Drawing ℚ) : Prop where
  /-- Nothing but boxes has changed. -/
  reboxes : d.Reboxes d'
  /-- The parent is a classifier of the drawing. -/
  parent_lt : c.parent < d.classifiers.length
  /-- All other boxes are as they were. -/
  stays : ∀ i, i ≠ c.parent → d'.boxes i = d.boxes i
  /-- The boxes of the parent are proper. -/
  proper : (d'.boxes c.parent).Proper
  /-- The parent is in the draw area. -/
  inside : d'.sheet.drawArea.contains (d'.boxes c.parent).envelope = true
  /-- Its space holds the space that it had. -/
  space : (d'.boxes c.parent).space.contains (d.boxes c.parent).space = true
  /-- Its space holds the child and the distance around it. -/
  holds : (d'.boxes c.parent).space.contains
    ((d.boxes c.child).envelope.pad (.uniform config.distance)) = true

/-- A containment that is accepted has its parent grown around its child. -/
lemma embraced_of_accepts (hconfig : config.Usable) {s : Embracing ℚ} (hproper : s.drawing.Proper)
    (h : s.accepts (.ofConfig config) config c = true) :
    Embraced config c s.drawing (s.step (.ofConfig config) config c).drawing := by
  obtain ⟨grown, hgrown⟩ := Option.isSome_iff_exists.mp h
  have hreboxes := reboxes_embracing_step (.ofConfig config) config s c
  rw [Embracing.step_eq, hgrown] at hreboxes ⊢
  obtain ⟨parent, hparent, rfl, hadmitted⟩ := Embracing.of_acceptedBoxes? hgrown
  have hlt : c.parent < s.drawing.classifiers.length := (List.getElem?_eq_some_iff.mp hparent).1
  have hbefore := boxes_of_getElem? hparent
  have hboxes : parent.boxes.Proper := hbefore ▸ hproper c.parent
  obtain ⟨hsound, hspace⟩ :=
    grownBoxes_spec hconfig s.drawing hboxes (s.parents.contains c.parent) c.child
  have hlarger := contains_space_grownBoxes hconfig s.drawing hboxes
    (s.parents.contains c.parent) c.child
  generalize s.drawing.grownBoxes (.ofConfig config) config parent
    (s.parents.contains c.parent) c.child = grown at *
  have hparentBoxes : (s.drawing.setBoxes c.parent grown).boxes c.parent = grown := by
    rw [boxes_setBoxes, if_pos ⟨rfl, hlt⟩]
  refine ⟨hreboxes, hlt, ?_, ?_, ?_, ?_, ?_⟩
  · intro i hi
    rw [boxes_setBoxes, if_neg fun hsame => hi hsame.1.symm]
  · rw [hparentBoxes]
    exact hsound.proper hconfig.border
  · rw [hparentBoxes, hreboxes.sheet_eq]
    exact (Bool.and_eq_true_iff.mp hadmitted).1
  · rw [hparentBoxes, hbefore]
    exact hlarger
  · rw [hparentBoxes, hspace]
    exact Rect.contains_join_right _ _

/-- A containment that is not accepted changes nothing. -/
lemma step_of_refused (m : Composer ℚ) {s : Embracing ℚ} (h : s.accepts m config c = false) :
    s.step m config c = s := by
  rw [Embracing.accepts, Option.isSome_eq_false_iff, Option.isNone_iff_eq_none] at h
  rw [Embracing.step_eq, h]

/-! ## Any number of turns -/

/-- What turns with some parents can do to a drawing. -/
structure Grows (parents : List ℕ) (d d' : Drawing ℚ) : Prop where
  /-- Nothing but boxes has changed. -/
  reboxes : d.Reboxes d'
  /-- All boxes are proper. -/
  proper : d'.Proper
  /-- Boxes that have changed are those of a parent, which is in the draw area. -/
  changed : ∀ i, d'.boxes i ≠ d.boxes i → i ∈ parents ∧ i < d.classifiers.length ∧
    d'.sheet.drawArea.contains (d'.boxes i).envelope = true
  /-- Every space holds the space that was there. -/
  space : ∀ i, (d'.boxes i).space.contains (d.boxes i).space = true
  /-- No pair of strangers has come to share more. -/
  overlap : ∀ i < d.classifiers.length, ∀ j < d.classifiers.length, d.nesting.related i j = false →
    (d'.boxes i).envelope.overlapArea (d'.boxes j).envelope ≤
      (d.boxes i).envelope.overlapArea (d.boxes j).envelope

namespace Grows

variable {parents parents' : List ℕ}

/-- Nothing need change. -/
lemma refl (h : d.Proper) (parents : List ℕ) : d.Grows parents d :=
  ⟨Reboxes.refl d, h, fun _ hi => absurd rfl hi, fun _ => Rect.contains_self _,
    fun _ _ _ _ _ => le_rfl⟩

/-- Turns may follow turns. -/
lemma trans (h : d.Grows parents d') (h' : d'.Grows parents' d'') :
    d.Grows (parents ++ parents') d'' where
  reboxes := h.reboxes.trans h'.reboxes
  proper := h'.proper
  changed i hi := by
    by_cases hlast : d''.boxes i = d'.boxes i
    · obtain ⟨hmem, hlt, hinside⟩ := h.changed i (hlast ▸ hi)
      rw [hlast, h'.reboxes.sheet_eq]
      exact ⟨List.mem_append_left _ hmem, hlt, hinside⟩
    · obtain ⟨hmem, hlt, hinside⟩ := h'.changed i hlast
      exact ⟨List.mem_append_right _ hmem, h.reboxes.length_classifiers ▸ hlt, hinside⟩
  space i := Rect.contains_trans (h'.space i) (h.space i)
  overlap i hi j hj hstranger := by
    refine (h'.overlap i ?_ j ?_ ?_).trans (h.overlap i hi j hj hstranger)
    · rwa [h.reboxes.length_classifiers]
    · rwa [h.reboxes.length_classifiers]
    · rwa [h.reboxes.nesting_eq]

/-- A classifier that is the parent of no turn keeps its boxes. -/
lemma boxes_eq (h : d.Grows parents d') {i : ℕ}
    (hi : i ∈ parents → ¬ i < d.classifiers.length) : d'.boxes i = d.boxes i := by
  by_contra hchanged
  obtain ⟨hmem, hlt, -⟩ := h.changed i hchanged
  exact hi hmem hlt

end Grows

/-- A turn grows the drawing, whether the containment is accepted or not. -/
lemma grows_embracing_step (hconfig : config.Usable) {s : Embracing ℚ} (hproper : s.drawing.Proper)
    (c : Containment) :
    s.drawing.Grows [c.parent] (s.step (.ofConfig config) config c).drawing := by
  cases haccepts : s.accepts (.ofConfig config) config c with
  | false =>
    rw [step_of_refused _ haccepts]
    exact Grows.refl hproper _
  | true =>
    have hembraced := embraced_of_accepts hconfig hproper haccepts
    refine ⟨hembraced.reboxes, ?_, ?_, ?_, ?_⟩
    · intro i
      by_cases hparent : i = c.parent
      · rw [hparent]
        exact hembraced.proper
      · rw [hembraced.stays i hparent]
        exact hproper i
    · intro i hi
      have hparent : i = c.parent := by
        by_contra hne
        exact hi (hembraced.stays i hne)
      rw [hparent]
      exact ⟨List.mem_singleton_self _, hembraced.parent_lt, hembraced.inside⟩
    · intro i
      by_cases hparent : i = c.parent
      · rw [hparent]
        exact hembraced.space
      · rw [hembraced.stays i hparent]
        exact Rect.contains_self _
    · intro i hi j hj hstranger
      exact overlapArea_embracing_step_le _ config s c hi hj hstranger

/-- Any number of turns grow the drawing. -/
lemma grows_foldl_step (hconfig : config.Usable) (turns : List Containment) {s : Embracing ℚ}
    (hproper : s.drawing.Proper) :
    s.drawing.Grows (turns.map (·.parent))
      (turns.foldl (Embracing.step (.ofConfig config) config) s).drawing := by
  induction turns generalizing s with
  | nil => exact Grows.refl hproper _
  | cons c turns ih =>
    have hstep := grows_embracing_step hconfig hproper c
    exact hstep.trans (ih hstep.proper)

/-- Turns from a drawing on grow it. -/
lemma grows_embracingAfter (hconfig : config.Usable) (hproper : d.Proper)
    (turns : List Containment) :
    d.Grows (turns.map (·.parent)) (d.embracingAfter (.ofConfig config) config turns).drawing :=
  grows_foldl_step hconfig turns (s := ⟨d, []⟩) hproper

/-! ## The order of the turns -/

/-- A parent whose turn comes later encloses no less. -/
lemma pairwise_containmentTurns (config : Config ℚ) (d : Drawing ℚ) :
    (d.containmentTurns config).Pairwise fun c c' =>
      d.nesting.descendantCount c.parent ≤ d.nesting.descendantCount c'.parent := by
  -- the weight of a containment, by its position among the usable ones
  let count (i : ℕ) : ℚ := d.usableContainments[i]?.elim 0 fun c =>
    Scalar.num (d.nesting.descendantCount c.parent)
  have hranking : d.containmentRanking config = Ranking.ofWeights config.limits.relationships
      ((List.range d.usableContainments.length).map fun i => (i, count i)) := by
    refine congrArg (Ranking.ofWeights _) (List.ext_getElem (by simp) ?_)
    intro i hi _
    have hlt : i < d.usableContainments.length := by simpa using hi
    simp [count, hlt]
  rw [containmentTurns, hranking]
  refine (Ranking.pairwise_order_ofWeights _ count _).filterMap _ ?_
  intro i j hij c hc c' hc'
  simpa [count, hc, hc'] using hij

/-- Whoever is the parent in a later turn encloses no less than the parent in this one. -/
lemma descendantCount_le_of_later_turn {before after : List Containment}
    (horder : d.containmentTurns config = before ++ c :: after) :
    ∀ c' ∈ after, d.nesting.descendantCount c.parent ≤ d.nesting.descendantCount c'.parent := by
  have hpairs := d.pairwise_containmentTurns config
  rw [horder] at hpairs
  intro c' hc'
  exact List.rel_of_pairwise_cons (List.pairwise_append.mp hpairs).2.1 hc'

/-- Over a closed nesting of the containments, the parent of a usable one encloses more than its
child. -/
lemma descendantCount_child_lt {passes : ℕ} (hnests : d.NestsContainments passes)
    (hclosed : d.nesting.Closed) (hc : c ∈ d.usableContainments)
    (hparent : c.parent < d.classifiers.length) (hchild : c.child < d.classifiers.length) :
    d.nesting.descendantCount c.child < d.nesting.descendantCount c.parent := by
  have hcharts := hnests.charts
  obtain ⟨hmem, husable⟩ := List.mem_filter.mp hc
  obtain ⟨hne, hup⟩ : c.parent ≠ c.child ∧ ¬ d.nesting.encloses c.child c.parent := by
    simpa [Containment.isUsable] using husable
  have hedge : (c.parent, c.child) ∈ d.nestingEdges := mem_nestingEdges.mpr ⟨c, hmem, rfl, rfl⟩
  have hvalid := Nesting.isValidEdge_iff.mpr ⟨hparent, hchild, hne⟩
  have hdown : d.nesting.encloses c.parent c.child :=
    hcharts.encloses_of_path _ _ hne 1 (by omega) (Nesting.Path.single hedge hvalid)
  apply Nesting.descendantCount_lt_of_encloses hdown
  · intro hself
    exact (hcharts.path_of_encloses _ _ hself).1 rfl
  · intro x hx
    apply hclosed _ _ x hdown hx
    rintro rfl
    exact hup hx

/-- A child that has been embraced is held by its parent when all turns after it have been taken. -/
lemma Embraced.holds_after {passes : ℕ} (hconfig : config.Usable) {s s' : Embracing ℚ}
    {after : List Containment} (h : Embraced config c s.drawing s'.drawing)
    (hproper : s'.drawing.Proper) (hnests : s.drawing.NestsContainments passes)
    (hclosed : s.drawing.nesting.Closed) (hc : c ∈ s.drawing.usableContainments)
    (hlater : ∀ c' ∈ after, s.drawing.nesting.descendantCount c.parent ≤
      s.drawing.nesting.descendantCount c'.parent) :
    ((after.foldl (Embracing.step (.ofConfig config) config) s').drawing.boxes
        c.parent).space.contains
      (((after.foldl (Embracing.step (.ofConfig config) config) s').drawing.boxes
        c.child).envelope.pad (.uniform config.distance)) = true := by
  have hgrows := grows_foldl_step hconfig after hproper
  have hne : c.child ≠ c.parent := by
    have husable := (List.mem_filter.mp hc).2
    simp only [Containment.isUsable, Bool.and_eq_true, bne_iff_ne] at husable
    exact husable.1.symm
  -- whoever grows later encloses more than the child
  have hchild := hgrows.boxes_eq (i := c.child) <| by
    intro hmem hlt
    obtain ⟨c', hc', hsame⟩ := List.mem_map.mp hmem
    rw [h.reboxes.length_classifiers] at hlt
    have hless := descendantCount_child_lt hnests hclosed hc h.parent_lt hlt
    have hle := hlater c' hc'
    rw [hsame] at hle
    omega
  rw [hchild, h.stays c.child hne]
  exact Rect.contains_trans (hgrows.space c.parent) h.holds

/-! ## The whole step -/

/-- Embracing children changes only the boxes of parents of usable containments, and these stay in
the draw area and keep the space that they had; no pair of strangers comes to share more. It takes
one turn after the other. A containment that is refused in its turn changes nothing; one that is
accepted has its parent grown around its child, and over a closed nesting of the containments the
parent holds the child, and the distance around it, when all have had their turns. -/
theorem embraceChildren_keepsChildren (hconfig : config.validate = .ok ()) (hproper : d.Proper) :
    d.Reboxes (d.embraceChildren (.ofConfig config) config) ∧
      (∀ i, (d.embraceChildren (.ofConfig config) config).boxes i ≠ d.boxes i →
        (∃ c ∈ d.usableContainments, c.parent = i) ∧
        d.sheet.drawArea.contains
          ((d.embraceChildren (.ofConfig config) config).boxes i).envelope = true ∧
        ((d.embraceChildren (.ofConfig config) config).boxes i).space.contains
          (d.boxes i).space = true) ∧
      (∀ i < d.classifiers.length, ∀ j < d.classifiers.length, d.nesting.related i j = false →
        ((d.embraceChildren (.ofConfig config) config).boxes i).envelope.overlapArea
            ((d.embraceChildren (.ofConfig config) config).boxes j).envelope ≤
          (d.boxes i).envelope.overlapArea (d.boxes j).envelope) ∧
      d.embraceChildren (.ofConfig config) config =
        (d.embracingAfter (.ofConfig config) config (d.containmentTurns config)).drawing ∧
      ∀ before c after, d.containmentTurns config = before ++ c :: after →
        if (d.embracingAfter (.ofConfig config) config before).accepts (.ofConfig config) config
            c then
          Embraced config c (d.embracingAfter (.ofConfig config) config before).drawing
              (d.embracingAfter (.ofConfig config) config (before ++ [c])).drawing ∧
            ∀ passes, d.NestsContainments passes → d.nesting.Closed →
              ((d.embraceChildren (.ofConfig config) config).boxes c.parent).space.contains
                (((d.embraceChildren (.ofConfig config) config).boxes c.child).envelope.pad
                  (.uniform config.distance)) = true
        else
          d.embracingAfter (.ofConfig config) config (before ++ [c]) =
            d.embracingAfter (.ofConfig config) config before := by
  have husable := Config.usable_of_validate hconfig
  have hall : d.Grows ((d.containmentTurns config).map (·.parent))
      (d.embraceChildren (.ofConfig config) config) :=
    grows_embracingAfter husable hproper (d.containmentTurns config)
  refine ⟨hall.reboxes, ?_, hall.overlap, embraceChildren_eq _ config d, ?_⟩
  · intro i hi
    obtain ⟨hmem, -, hinside⟩ := hall.changed i hi
    obtain ⟨c, hc, rfl⟩ := List.mem_map.mp hmem
    rw [hall.reboxes.sheet_eq] at hinside
    exact ⟨⟨c, mem_usableContainments_of_turn hc, rfl⟩, hinside, hall.space c.parent⟩
  intro before c after horder
  have hbefore := grows_embracingAfter husable hproper before
  have hend : d.embraceChildren (.ofConfig config) config =
      (after.foldl (Embracing.step (.ofConfig config) config)
        (d.embracingAfter (.ofConfig config) config (before ++ [c]))).drawing := by
    rw [embraceChildren_eq, horder, List.append_cons, embracingAfter, List.foldl_append]
    rfl
  rw [hend, embracingAfter_concat]
  have hturn : c ∈ d.containmentTurns config := by simp [horder]
  have hc := mem_usableContainments_of_turn hturn
  have hlater := descendantCount_le_of_later_turn horder
  rw [← hbefore.reboxes.usableContainments_eq] at hc
  rw [← hbefore.reboxes.nesting_eq] at hlater
  split_ifs with haccepts
  · have hembraced := embraced_of_accepts husable hbefore.proper haccepts
    have hstep := grows_embracing_step husable hbefore.proper c
    refine ⟨hembraced, ?_⟩
    intro passes hnests hclosed
    rw [← hbefore.reboxes.nesting_eq] at hclosed
    exact hembraced.holds_after husable hstep.proper (hnests.of_reboxes hbefore.reboxes) hclosed hc
      hlater
  · exact step_of_refused _ (Bool.eq_false_iff.mpr haccepts)

/-- Three packages in a row, of which the first contains the second and that one the third. Only the
kernel is to unfold this: comparing statements about it would close its nesting over and over. -/
@[irreducible]
def packagesInRow : Drawing ℚ where
  diagram := ⟨⟨1⟩, .package, ""⟩
  sheet := .ofBounds (.ofCorner 0 0 800 600) .standard .xy
  nesting := .ofEdges 3 [(0, 1), (1, 2)] 4
  classifiers :=
    [⟨⟨⟨1⟩, .package, "Outer", 0, 0, false⟩,
        ⟨⟨100, 200, 200, 260⟩, ⟨104, 204, 196, 256⟩, .empty, .empty⟩⟩,
      ⟨⟨⟨2⟩, .package, "Middle", 1, 0, false⟩,
        ⟨⟨300, 200, 400, 260⟩, ⟨304, 204, 396, 256⟩, .empty, .empty⟩⟩,
      ⟨⟨⟨3⟩, .package, "Inner", 2, 0, false⟩,
        ⟨⟨500, 200, 600, 260⟩, ⟨504, 204, 596, 256⟩, .empty, .empty⟩⟩]
  features := []
  relationships :=
    [⟨⟨⟨101⟩, .containment, "", ⟨1⟩, ⟨2⟩, none, none, 0⟩, 0, 1, none, none, .collapsed, .shown,
        .empty⟩,
      ⟨⟨⟨102⟩, .containment, "", ⟨2⟩, ⟨3⟩, none, none, 0⟩, 1, 2, none, none, .collapsed, .shown,
        .empty⟩]

/-- The middle package grows around the inner one and then the outer one around what the middle one
has become, and in the end both hold what they have embraced. -/
theorem embraceChildren_keepsChildren_packagesInRow :
    (Config.standard : Config ℚ).validate = .ok () ∧ packagesInRow.Proper ∧
      packagesInRow.NestsContainments 4 ∧ packagesInRow.nesting.Closed ∧
      packagesInRow.containmentTurns .standard = [⟨1, 1, 2⟩, ⟨0, 0, 1⟩] ∧
      ((packagesInRow.embraceChildren (.ofConfig .standard) .standard).boxes 1).space.contains
        (((packagesInRow.embraceChildren (.ofConfig .standard) .standard).boxes 2).envelope.pad
          (.uniform (Config.standard : Config ℚ).distance)) = true ∧
      ((packagesInRow.embraceChildren (.ofConfig .standard) .standard).boxes 0).space.contains
        (((packagesInRow.embraceChildren (.ofConfig .standard) .standard).boxes 1).envelope.pad
          (.uniform (Config.standard : Config ℚ).distance)) = true := by
  have hconfig : (Config.standard : Config ℚ).validate = .ok () := by decide +kernel
  have hproper : packagesInRow.Proper := by decide +kernel
  have hnests : packagesInRow.NestsContainments 4 := by decide +kernel
  have hclosed : packagesInRow.nesting.Closed := by decide +kernel
  have horder : packagesInRow.containmentTurns .standard = [⟨1, 1, 2⟩, ⟨0, 0, 1⟩] := by
    decide +kernel
  have hfirst : (packagesInRow.embracingAfter (.ofConfig .standard) .standard []).accepts
      (.ofConfig .standard) .standard ⟨1, 1, 2⟩ = true := by
    decide +kernel
  have hsecond : (packagesInRow.embracingAfter (.ofConfig .standard) .standard
      [⟨1, 1, 2⟩]).accepts (.ofConfig .standard) .standard ⟨0, 0, 1⟩ = true := by
    decide +kernel
  obtain ⟨-, -, -, -, hturns⟩ := embraceChildren_keepsChildren hconfig hproper
  have hmiddle := hturns [] ⟨1, 1, 2⟩ [⟨0, 0, 1⟩] horder
  have houter := hturns [⟨1, 1, 2⟩] ⟨0, 0, 1⟩ [] horder
  rw [if_pos hfirst] at hmiddle
  rw [if_pos hsecond] at houter
  exact ⟨hconfig, hproper, hnests, hclosed, horder, hmiddle.2 4 hnests hclosed,
    houter.2 4 hnests hclosed⟩

end Drawing

end DiagramLayout
