import Mathlib
import DiagramLayout.Proofs.Classifiers.Phases

/-!
# Strangers never come to overlap more

The area that strangers share is a sum over all pairs (`Drawing.strangerOverlapSum_eq`). Spreading
moves one classifier at a time and compares the sum over its own pairs; growing and gathering keep
every single pair from sharing more. The pairs that gathering does not look at are settled by the
nesting: what a container encloses stays within it, and a stranger of something enclosed is a
stranger of the container unless it goes with the group. This is where the nesting has to be closed.
-/

namespace DiagramLayout

namespace Nesting

/-- Whatever encloses a classifier encloses what it encloses, unless that is the same. -/
def Closed (n : Nesting) : Prop :=
  ∀ a b c, n.encloses a b → n.encloses b c → a ≠ c → n.encloses a c

/-- Only positions in the table enclose anything. -/
lemma lt_of_encloses {n : Nesting} {a b : ℕ} (h : n.encloses a b) : a < n.size := by
  simp only [encloses, Bool.and_eq_true, decide_eq_true_eq] at h
  exact h.1.1

/-- Whether a nesting is closed is decided on what is enclosed by each position of its table. -/
instance (n : Nesting) : Decidable n.Closed :=
  decidable_of_iff
    (∀ a < n.size, ∀ b ∈ n.descendants a, ∀ c ∈ n.descendants b, a ≠ c → n.encloses a c)
    ⟨fun h a b c hab hbc =>
      h a (lt_of_encloses hab) b (mem_descendants.mpr hab) c (mem_descendants.mpr hbc),
    fun h a _ b hab c hbc => h a b c (mem_descendants.mp hab) (mem_descendants.mp hbc)⟩

/-- What is enclosed by a classifier is related to it. -/
lemma related_of_encloses {n : Nesting} {a b : ℕ} (h : n.encloses a b) : n.related a b = true := by
  simp [related, h]

/-- What encloses all that another one encloses, and that one as well, encloses more. -/
lemma descendantCount_lt_of_encloses {n : Nesting} {a b : ℕ} (hab : n.encloses a b)
    (hirrefl : ¬ n.encloses b b) (hall : ∀ c, n.encloses b c → n.encloses a c) :
    n.descendantCount b < n.descendantCount a := by
  have hnodup (x : ℕ) : (n.descendants x).Nodup := List.nodup_range.filter _
  have hsubset : (n.descendants b).toFinset ⊂ (n.descendants a).toFinset := by
    refine (Finset.ssubset_iff_of_subset fun c hc => ?_).mpr ⟨b, ?_, ?_⟩
    · rw [List.mem_toFinset, mem_descendants] at hc ⊢
      exact hall c hc
    · rwa [List.mem_toFinset, mem_descendants]
    · rwa [List.mem_toFinset, mem_descendants]
  have hcard := Finset.card_lt_card hsubset
  rwa [List.toFinset_card_of_nodup (hnodup b), List.toFinset_card_of_nodup (hnodup a)] at hcard

/-- In a closed nesting a stranger of something enclosed is enclosed too or is a stranger of the
container. -/
lemma Closed.encloses_or_stranger {n : Nesting} (h : n.Closed) {container inner x : ℕ}
    (hinner : n.encloses container inner) (hx : n.related inner x = false) (hne : x ≠ container) :
    n.encloses container x = true ∨ n.related container x = false := by
  by_cases hdown : n.encloses container x = true
  · exact Or.inl hdown
  · right
    have hxinner : x ≠ inner := by
      rintro rfl
      rw [related_self] at hx
      cases hx
    have hup : ¬ n.encloses x container = true := by
      intro hup
      have hrelated := related_of_encloses (h x container inner hup hinner hxinner)
      rw [related_comm, hx] at hrelated
      cases hrelated
    simp only [related, Bool.or_eq_false_iff, beq_eq_false_iff_ne, Bool.not_eq_true] at hdown hup ⊢
    exact ⟨⟨Ne.symm hne, hdown⟩, hup⟩

end Nesting

/-! ## Sums over positions -/

/-- A sum over a list with positions is a sum over the positions. -/
lemma sum_map_zipIdx {β : Type} (xs : List β) (default : β) (f : β → ℕ → ℚ) :
    (xs.zipIdx.map fun (x, i) => f x i).sum =
      ∑ i ∈ Finset.range xs.length, f (xs.getD i default) i := by
  have hindices : xs.zipIdx = (List.range xs.length).map fun i => (xs.getD i default, i) := by
    refine List.ext_getElem (by simp) fun i hi _ => ?_
    have hlt : i < xs.length := by simpa using hi
    simp [hlt]
  rw [hindices, List.map_map]
  rfl

/-- A sum over the elements that pass a test is a sum over all with zeros for the others. -/
lemma sum_map_filter {β : Type} (xs : List β) (keeps : β → Bool) (f : β → ℚ) :
    ((xs.filter keeps).map f).sum = (xs.map fun x => if keeps x then f x else 0).sum := by
  induction xs with
  | nil => rfl
  | cons x xs ih =>
    by_cases hx : keeps x = true <;> simp [hx, ih]

/-- Twice a symmetric sum over pairs is the sum over the square, if the diagonal is zero. -/
lemma two_mul_sum_pairs {P : ℕ → ℕ → ℚ} (hsymm : ∀ i j, P i j = P j i) (hdiag : ∀ i, P i i = 0)
    (n : ℕ) :
    2 * ∑ i ∈ Finset.range n, ∑ j ∈ Finset.range i, P i j =
      ∑ i ∈ Finset.range n, ∑ j ∈ Finset.range n, P i j := by
  induction n with
  | zero => simp
  | succ n ih =>
    have hcolumn : ∑ i ∈ Finset.range n, P i n = ∑ j ∈ Finset.range n, P n j :=
      Finset.sum_congr rfl fun i _ => hsymm i n
    simp only [Finset.sum_range_succ, Finset.sum_add_distrib, hdiag, mul_add, ih, hcolumn]
    ring

/-- A symmetric sum over pairs with a zero diagonal does not grow if only the pairs of one index
change and their sum does not grow. -/
lemma sum_pairs_le_of_row {P Q : ℕ → ℕ → ℚ} (hP : ∀ i j, P i j = P j i) (hPdiag : ∀ i, P i i = 0)
    (hQ : ∀ i j, Q i j = Q j i) (hQdiag : ∀ i, Q i i = 0) {n k : ℕ} (hk : k < n)
    (hrest : ∀ i j, i ≠ k → j ≠ k → Q i j = P i j)
    (hrow : ∑ j ∈ Finset.range n, Q k j ≤ ∑ j ∈ Finset.range n, P k j) :
    ∑ i ∈ Finset.range n, ∑ j ∈ Finset.range i, Q i j ≤
      ∑ i ∈ Finset.range n, ∑ j ∈ Finset.range i, P i j := by
  have hmem : k ∈ Finset.range n := Finset.mem_range.mpr hk
  -- the row of the index counts once as a row and once as a column
  have hsquare (R : ℕ → ℕ → ℚ) (hR : ∀ i j, R i j = R j i) (hRdiag : ∀ i, R i i = 0)
      (hzero : ∀ i j, i ≠ k → j ≠ k → R i j = 0) :
      ∑ i ∈ Finset.range n, ∑ j ∈ Finset.range n, R i j = 2 * ∑ j ∈ Finset.range n, R k j := by
    have hline (i : ℕ) : ∑ j ∈ Finset.range n, R i j =
        (if i = k then ∑ j ∈ Finset.range n, R k j else 0) + R k i := by
      by_cases hi : i = k
      · simp [hi, hRdiag]
      · rw [if_neg hi, zero_add, hR k i]
        exact Finset.sum_eq_single_of_mem k hmem fun j _ hj => hzero i j hi hj
    rw [Finset.sum_congr rfl fun i _ => hline i, Finset.sum_add_distrib,
      Finset.sum_ite_eq' (Finset.range n) k, if_pos hmem]
    ring
  have hchange := hsquare (fun i j => Q i j - P i j) (by intro i j; rw [hQ, hP])
    (by intro i; simp [hQdiag, hPdiag]) (by intro i j hi hj; simp [hrest i j hi hj])
  simp only [Finset.sum_sub_distrib] at hchange
  rw [← two_mul_sum_pairs hQ hQdiag, ← two_mul_sum_pairs hP hPdiag] at hchange
  linarith

namespace Drawing

/-! ## Pairs of strangers -/

/-- The area that two classifiers share, none if they are related. -/
def strangerArea (d : Drawing ℚ) (i j : ℕ) : ℚ :=
  if d.nesting.related i j then 0 else (d.boxes i).envelope.overlapArea (d.boxes j).envelope

/-- Strangers share area mutually. -/
lemma strangerArea_comm (d : Drawing ℚ) (i j : ℕ) : d.strangerArea i j = d.strangerArea j i := by
  rw [strangerArea, strangerArea, Nesting.related_comm, Rect.overlapArea_comm]

/-- No classifier is a stranger of itself. -/
@[simp] lemma strangerArea_self (d : Drawing ℚ) (i : ℕ) : d.strangerArea i i = 0 := by
  simp [strangerArea]

/-- The overlap of a box with the strangers of a classifier is a sum over all positions. -/
lemma strangerOverlap_eq (nesting : Nesting) (i : ℕ) (envelopes : List (Rect ℚ)) (probe : Rect ℚ) :
    strangerOverlap nesting i envelopes probe =
      ∑ j ∈ Finset.range envelopes.length,
        if nesting.related i j then 0 else probe.overlapArea (envelopes.getD j .empty) := by
  unfold strangerOverlap strangers
  rw [Scalar.sum_exact, List.map_map, sum_map_filter]
  have hsum := sum_map_zipIdx envelopes .empty fun envelope j =>
    if nesting.related i j then 0 else probe.overlapArea envelope
  rw [← hsum]
  refine congrArg List.sum (List.map_congr_left fun x _ => ?_)
  obtain ⟨envelope, j⟩ := x
  cases hrelated : nesting.related i j <;> simp [hrelated]

/-- The area that strangers share is a sum over all pairs. -/
theorem strangerOverlapSum_eq (d : Drawing ℚ) :
    strangerOverlapSum d.nesting d.envelopes =
      ∑ i ∈ Finset.range d.classifiers.length, ∑ j ∈ Finset.range i, d.strangerArea i j := by
  unfold strangerOverlapSum
  rw [Scalar.sum_exact, sum_map_zipIdx d.envelopes .empty fun envelope i =>
    strangerOverlap d.nesting i (d.envelopes.take i) envelope, length_envelopes]
  refine Finset.sum_congr rfl fun i hi => ?_
  have hlength : (d.envelopes.take i).length = i := by
    rw [List.length_take, length_envelopes]
    exact min_eq_left (Finset.mem_range.mp hi).le
  rw [strangerOverlap_eq, hlength]
  refine Finset.sum_congr rfl fun j hj => ?_
  have htake : (d.envelopes.take i).getD j .empty = d.envelopes.getD j .empty := by
    rw [List.getD_eq_getElem?_getD, List.getD_eq_getElem?_getD,
      List.getElem?_take_of_lt (Finset.mem_range.mp hj)]
  rw [htake, getD_envelopes, getD_envelopes, strangerArea]

/-- If no pair of strangers comes to share more, the sum over all pairs does not grow. -/
lemma strangerOverlapSum_le_of_pairs {d d' : Drawing ℚ} (h : d.Reboxes d')
    (hpairs : ∀ i < d.classifiers.length, ∀ j < d.classifiers.length,
      d.nesting.related i j = false →
        (d'.boxes i).envelope.overlapArea (d'.boxes j).envelope ≤
          (d.boxes i).envelope.overlapArea (d.boxes j).envelope) :
    strangerOverlapSum d'.nesting d'.envelopes ≤ strangerOverlapSum d.nesting d.envelopes := by
  rw [strangerOverlapSum_eq, strangerOverlapSum_eq, h.length_classifiers]
  refine Finset.sum_le_sum fun i hi => Finset.sum_le_sum fun j hj => ?_
  unfold strangerArea
  rw [h.nesting_eq]
  have hi := Finset.mem_range.mp hi
  split_ifs with hrelated
  · exact le_rfl
  · exact hpairs i hi j ((Finset.mem_range.mp hj).trans hi) (by simpa using hrelated)

/-! ## Spreading -/

/-- The overlap of a box with the strangers of a classifier of a drawing, position by position. -/
lemma strangerOverlap_envelopes (d : Drawing ℚ) (i : ℕ) (probe : Rect ℚ) :
    strangerOverlap d.nesting i d.envelopes probe =
      ∑ j ∈ Finset.range d.classifiers.length,
        if d.nesting.related i j then 0 else probe.overlapArea (d.boxes j).envelope := by
  rw [strangerOverlap_eq, length_envelopes]
  refine Finset.sum_congr rfl fun j _ => ?_
  rw [getD_envelopes]

/-- A classifier that goes by an eligible offset does not make strangers overlap more. -/
lemma strangerOverlapSum_translateClassifier_le {config : Config ℚ} (s : Spreading ℚ) (i : ℕ)
    {offset : Point ℚ} (h : (s.turn config i).isEligible offset = true) :
    strangerOverlapSum (s.drawing.translateClassifier i offset).nesting
        (s.drawing.translateClassifier i offset).envelopes ≤
      strangerOverlapSum s.drawing.nesting s.drawing.envelopes := by
  set d := s.drawing with hd
  have hreboxes := reboxes_translateClassifier d i offset
  have hboxes := boxes_translateClassifier d i offset
  by_cases hi : i < d.classifiers.length
  · rw [strangerOverlapSum_eq, strangerOverlapSum_eq, hreboxes.length_classifiers]
    refine sum_pairs_le_of_row (strangerArea_comm d) (strangerArea_self d)
      (strangerArea_comm _) (strangerArea_self _) hi ?_ ?_
    · intro a b ha hb
      simp only [strangerArea, hreboxes.nesting_eq, hboxes, Ne.symm ha, Ne.symm hb, false_and,
        if_false]
    · -- the row of the classifier is what the turn has compared
      have hle := Turn.isEligible_exact.mp h
      have hcurrent : (s.turn config i).current = (d.boxes i).envelope := getD_envelopes d i
      rw [Turn.overlapAfter, hcurrent] at hle
      change strangerOverlap d.nesting i d.envelopes _ ≤
        strangerOverlap d.nesting i d.envelopes _ at hle
      rw [strangerOverlap_envelopes, strangerOverlap_envelopes] at hle
      have hmoved : (d.translateClassifier i offset).boxes i = (d.boxes i).translate offset := by
        rw [hboxes, if_pos ⟨rfl, hi⟩]
      refine le_of_eq_of_le (Finset.sum_congr rfl fun j _ => ?_) hle
      rw [strangerArea, hreboxes.nesting_eq, hmoved, ClassifierBoxes.envelope_translate, hboxes]
      by_cases hij : i = j
      · simp [hij]
      · simp [hij]
  · refine strangerOverlapSum_le_of_pairs hreboxes fun a ha b hb _ => ?_
    have hout (j : ℕ) (hj : j < d.classifiers.length) : ¬ (i = j ∧ j < d.classifiers.length) := by
      rintro ⟨rfl, -⟩
      exact hi hj
    rw [hboxes, hboxes, if_neg (hout a ha), if_neg (hout b hb)]

/-- A turn of spreading does not make strangers overlap more. -/
lemma strangerOverlapSum_spreading_step_le (config : Config ℚ) (s : Spreading ℚ) (i : ℕ) :
    strangerOverlapSum (s.step config i).value.drawing.nesting
        (s.step config i).value.drawing.envelopes ≤
      strangerOverlapSum s.drawing.nesting s.drawing.envelopes := by
  unfold Spreading.step
  simp only [Guarded.value_bind, Guarded.value_pure]
  split_ifs
  · exact le_rfl
  · exact strangerOverlapSum_translateClassifier_le s i (Turn.isEligible_choice _)

/-- After one more turn of spreading strangers overlap no more than before it. -/
lemma strangerOverlapSum_spreadingAfter_succ_le (config : Config ℚ) (d : Drawing ℚ)
    (turns : List ℕ) (i : ℕ) :
    strangerOverlapSum d.nesting (d.spreadingAfter config (turns ++ [i])).drawing.envelopes ≤
      strangerOverlapSum d.nesting (d.spreadingAfter config turns).drawing.envelopes := by
  have hstep := strangerOverlapSum_spreading_step_le config (d.spreadingAfter config turns) i
  have hnesting (turns : List ℕ) := (reboxes_spreadingAfter config d turns).nesting_eq
  rwa [← spreadingAfter_concat, hnesting, hnesting] at hstep

/-- After some turns of spreading strangers overlap no more than before. -/
lemma strangerOverlapSum_spreadingAfter_le (config : Config ℚ) (d : Drawing ℚ)
    (turns : List ℕ) :
    strangerOverlapSum d.nesting (d.spreadingAfter config turns).drawing.envelopes ≤
      strangerOverlapSum d.nesting d.envelopes := by
  induction turns using List.reverseRecOn with
  | nil => exact le_rfl
  | append_singleton turns i ih =>
    exact (strangerOverlapSum_spreadingAfter_succ_le config d turns i).trans ih

/-- Moving the classifiers apart does not make strangers overlap more. -/
theorem strangerOverlapSum_moveApart_le (config : Config ℚ) (d : Drawing ℚ) :
    strangerOverlapSum (d.moveApart config).value.1.nesting (d.moveApart config).value.1.envelopes ≤
      strangerOverlapSum d.nesting d.envelopes := by
  rw [(reboxes_moveApart config d).nesting_eq, value_moveApart]
  exact strangerOverlapSum_spreadingAfter_le config d _

/-- Whatever the drawing is, moving its classifiers apart consists of turns of which each one leaves
strangers with no more overlap than they had before it, and so do all of them together. -/
theorem strangerOverlapSum_descends (config : Config ℚ) (d : Drawing ℚ) :
    (d.moveApart config).defined = true ∧
      (d.moveApart config).value.1 =
        (d.spreadingAfter config (d.turnRanking config).order).drawing ∧
      (∀ turns i,
        strangerOverlapSum d.nesting (d.spreadingAfter config (turns ++ [i])).drawing.envelopes ≤
          strangerOverlapSum d.nesting (d.spreadingAfter config turns).drawing.envelopes) ∧
      strangerOverlapSum d.nesting (d.moveApart config).value.1.envelopes ≤
        strangerOverlapSum d.nesting d.envelopes := by
  rw [value_moveApart]
  exact ⟨defined_moveApart d, rfl, strangerOverlapSum_spreadingAfter_succ_le config d,
    strangerOverlapSum_spreadingAfter_le config d _⟩

/-! ## Growing -/

/-- A parent that grows as it is admitted shares no more with any stranger. -/
lemma overlapArea_le_of_admitsGrowth {d : Drawing ℚ} {i j : ℕ} {before after : ClassifierBoxes ℚ}
    (h : d.admitsGrowth i before after = true) (hj : j < d.classifiers.length)
    (hstranger : d.nesting.related i j = false) :
    after.envelope.overlapArea (d.boxes j).envelope ≤
      before.envelope.overlapArea (d.boxes j).envelope := by
  simp only [admitsGrowth, addsOverlap, Bool.and_eq_true, Bool.not_eq_true', List.any_eq_false,
    decide_eq_true_eq, not_lt] at h
  exact h.2 _ (mem_strangers hj hstranger)

/-- Handling one containment does not make a pair of strangers share more. -/
lemma overlapArea_embracing_step_le (m : Composer ℚ) (config : Config ℚ) (s : Embracing ℚ)
    (c : Containment) {i j : ℕ} (hi : i < s.drawing.classifiers.length)
    (hj : j < s.drawing.classifiers.length) (hstranger : s.drawing.nesting.related i j = false) :
    ((s.step m config c).drawing.boxes i).envelope.overlapArea
        ((s.step m config c).drawing.boxes j).envelope ≤
      (s.drawing.boxes i).envelope.overlapArea (s.drawing.boxes j).envelope := by
  unfold Embracing.step
  split
  · exact le_rfl
  · rename_i parent hparent
    dsimp only
    split_ifs with hadmitted
    · rw [← boxes_of_getElem? hparent] at hadmitted
      rw [boxes_setBoxes, boxes_setBoxes]
      split_ifs with hpi hpj hpj
      · -- a classifier is no stranger of itself
        rw [← hpi.1, ← hpj.1, Nesting.related_self] at hstranger
        cases hstranger
      · rw [← hpi.1] at hstranger ⊢
        exact overlapArea_le_of_admitsGrowth hadmitted hj hstranger
      · rw [← hpj.1, Nesting.related_comm] at hstranger
        rw [← hpj.1, Rect.overlapArea_comm, Rect.overlapArea_comm (s.drawing.boxes i).envelope]
        exact overlapArea_le_of_admitsGrowth hadmitted hi hstranger
      · exact le_rfl
    · exact le_rfl

/-- Handling one containment does not make strangers overlap more. -/
lemma strangerOverlapSum_embracing_step_le (m : Composer ℚ) (config : Config ℚ) (s : Embracing ℚ)
    (c : Containment) :
    strangerOverlapSum (s.step m config c).drawing.nesting (s.step m config c).drawing.envelopes ≤
      strangerOverlapSum s.drawing.nesting s.drawing.envelopes :=
  strangerOverlapSum_le_of_pairs (reboxes_embracing_step m config s c) fun _ hi _ hj hstranger =>
    overlapArea_embracing_step_le m config s c hi hj hstranger

/-- Embracing children does not make strangers overlap more. -/
theorem strangerOverlapSum_embraceChildren_le (m : Composer ℚ) (config : Config ℚ)
    (d : Drawing ℚ) :
    strangerOverlapSum (d.embraceChildren m config).nesting (d.embraceChildren m config).envelopes ≤
      strangerOverlapSum d.nesting d.envelopes :=
  List.foldlRecOn _ _ (motive := fun s : Embracing ℚ =>
      strangerOverlapSum s.drawing.nesting s.drawing.envelopes ≤
        strangerOverlapSum d.nesting d.envelopes)
    le_rfl fun s hs c _ => (strangerOverlapSum_embracing_step_le m config s c).trans hs

/-! ## Gathering -/

/-- A gathered group stays within the envelope of its container. -/
lemma Gathered.envelope_contains {config : Config ℚ} (hconfig : config.Usable) {d d' : Drawing ℚ}
    {index : ℕ} {fitted : ClassifierBoxes ℚ} {offset : Point ℚ}
    (h : d.Gathered config index fitted offset d') {other : ℕ}
    (hother : d.nesting.encloses index other) :
    (fitted.translate offset).envelope.contains
      ((d.boxes other).envelope.translate offset) = true := by
  rw [ClassifierBoxes.envelope_translate, Rect.contains_translate]
  have hpadded := Rect.contains_pad (d.boxes other).envelope hconfig.distance.le
  exact Rect.contains_trans (h.sound.envelope_contains_space hconfig.border)
    (Rect.contains_trans (h.holds other hother) hpadded)

/-- What belongs to a gathered group is apart from a stranger that stays. -/
lemma Gathered.overlapArea_eq_zero {config : Config ℚ} (hconfig : config.Usable)
    {d d' : Drawing ℚ} {index : ℕ} {fitted : ClassifierBoxes ℚ} {offset : Point ℚ}
    (h : d.Gathered config index fitted offset d') (hclosed : d.nesting.Closed) {i j : ℕ}
    (hi : i = index ∨ d.nesting.encloses index i) (hilt : i < d.classifiers.length)
    (hj : ¬ (j = index ∨ d.nesting.encloses index j)) (hjlt : j < d.classifiers.length)
    (hstranger : d.nesting.related i j = false) :
    (d'.boxes i).envelope.overlapArea (d'.boxes j).envelope = 0 := by
  obtain ⟨hjindex, hjinner⟩ := not_or.mp hj
  rw [h.boxes j, if_neg hjindex, if_neg (fun hmoved => hjinner hmoved.1), h.boxes i]
  rcases eq_or_ne i index with rfl | hiindex
  · rw [if_pos rfl]
    exact h.apart j hjlt hstranger
  · have hinner := hi.resolve_left hiindex
    have hcontainer : d.nesting.related index j = false :=
      (hclosed.encloses_or_stranger hinner hstranger hjindex).resolve_left hjinner
    rw [if_neg hiindex, if_pos ⟨hinner, hilt⟩, ClassifierBoxes.envelope_translate]
    exact Rect.overlapArea_eq_zero_of_contains (h.envelope_contains hconfig hinner)
      (h.apart j hjlt hcontainer)

/-- After a group has been gathered no pair of strangers shares more than before. -/
lemma Gathered.overlapArea_le {config : Config ℚ} (hconfig : config.Usable) {d d' : Drawing ℚ}
    {index : ℕ} {fitted : ClassifierBoxes ℚ} {offset : Point ℚ}
    (h : d.Gathered config index fitted offset d') (hclosed : d.nesting.Closed) {i j : ℕ}
    (hi : i < d.classifiers.length) (hj : j < d.classifiers.length)
    (hstranger : d.nesting.related i j = false) :
    (d'.boxes i).envelope.overlapArea (d'.boxes j).envelope ≤
      (d.boxes i).envelope.overlapArea (d.boxes j).envelope := by
  by_cases hig : i = index ∨ d.nesting.encloses index i
  · by_cases hjg : j = index ∨ d.nesting.encloses index j
    · -- the container has no stranger within its group, so both are enclosed and move together
      have hiindex : i ≠ index := by
        rintro rfl
        rcases hjg with rfl | hjg
        · simp at hstranger
        · rw [Nesting.related_of_encloses hjg] at hstranger
          cases hstranger
      have hjindex : j ≠ index := by
        rintro rfl
        rw [Nesting.related_comm, Nesting.related_of_encloses (hig.resolve_left hiindex)]
          at hstranger
        cases hstranger
      rw [h.boxes i, h.boxes j, if_neg hiindex, if_neg hjindex,
        if_pos ⟨hig.resolve_left hiindex, hi⟩, if_pos ⟨hjg.resolve_left hjindex, hj⟩,
        ClassifierBoxes.envelope_translate, ClassifierBoxes.envelope_translate,
        Rect.overlapArea_translate]
    · rw [h.overlapArea_eq_zero hconfig hclosed hig hi hjg hj hstranger]
      exact Rect.overlapArea_nonneg _ _
  · by_cases hjg : j = index ∨ d.nesting.encloses index j
    · rw [Nesting.related_comm] at hstranger
      rw [Rect.overlapArea_comm, h.overlapArea_eq_zero hconfig hclosed hjg hj hig hi hstranger]
      exact Rect.overlapArea_nonneg _ _
    · have hstays {k : ℕ} (hk : ¬ (k = index ∨ d.nesting.encloses index k)) :
          d'.boxes k = d.boxes k := by
        rw [h.boxes k, if_neg (not_or.mp hk).1, if_neg fun hmoved => (not_or.mp hk).2 hmoved.1]
      rw [hstays hig, hstays hjg]

/-- Gathering the groups of a closed nesting does not make strangers overlap more. -/
theorem strangerOverlapSum_gatherGroups_le {config : Config ℚ} (hconfig : config.Usable)
    {d : Drawing ℚ} (hsound : d.Sound config.border) (hclosed : d.nesting.Closed) :
    strangerOverlapSum (d.gatherGroups (.ofConfig config) config).value.nesting
        (d.gatherGroups (.ofConfig config) config).value.envelopes ≤
      strangerOverlapSum d.nesting d.envelopes := by
  refine (gatherGroups_induction hconfig (motive := fun d' : Drawing ℚ => d'.nesting.Closed ∧
      strangerOverlapSum d'.nesting d'.envelopes ≤ strangerOverlapSum d.nesting d.envelopes)
    ?_ hsound ⟨hclosed, le_rfl⟩).2
  rintro a b index fitted offset - ⟨hclosed, hle⟩ hreboxes hgathered
  refine ⟨hreboxes.nesting_eq ▸ hclosed, le_trans ?_ hle⟩
  exact strangerOverlapSum_le_of_pairs hreboxes fun i hi j hj hstranger =>
    hgathered.overlapArea_le hconfig hclosed hi hj hstranger

/-! ## All steps -/

/-- Over a closed nesting, placing the classifiers leaves strangers with no more overlap than they
have where they are first put. -/
theorem strangerOverlapSum_layoutClassifiers_le {config : Config ℚ}
    (hconfig : config.validate = .ok ()) (d : Drawing ℚ) (hclosed : d.nesting.Closed) :
    (d.layoutClassifiers (.ofConfig config) config).defined = true ∧
      strangerOverlapSum d.nesting
          (d.layoutClassifiers (.ofConfig config) config).value.envelopes ≤
        strangerOverlapSum d.nesting (d.estimateBounds (.ofConfig config) config).envelopes := by
  have husable := Config.usable_of_validate hconfig
  have hsound := (sound_embraced husable d).hideNested
  have hnesting : (d.embraced (.ofConfig config) config).nesting = d.nesting :=
    (reboxes_embraced (.ofConfig config) d).nesting_eq
  have hgather := strangerOverlapSum_gatherGroups_le husable hsound (by
    rw [nesting_hideNested, hnesting]
    exact hclosed)
  have hembrace := strangerOverlapSum_embraceChildren_le (.ofConfig config) config
    ((d.estimateBounds (.ofConfig config) config).moveApart config).value.1
  have hspread :=
    strangerOverlapSum_moveApart_le config (d.estimateBounds (.ofConfig config) config)
  rw [nesting_hideNested, envelopes_hideNested, ← gathered, nesting_gathered, hnesting] at hgather
  rw [← embraced, hnesting] at hembrace
  refine ⟨defined_layoutClassifiers _ d, ?_⟩
  rw [value_layoutClassifiers, envelopes_hideNested]
  exact hgather.trans (hembrace.trans hspread)

/-- A package that contains another, and an actor, all with the same keys. -/
def crowded : Drawing ℚ where
  diagram := ⟨⟨1⟩, .package, ""⟩
  sheet := .ofBounds (.ofCorner 0 0 600 400) .standard .xy
  nesting := .ofEdges 3 [(0, 1)] 4
  classifiers :=
    [⟨⟨⟨1⟩, .package, "Outer", 0, 0, false⟩, .unplaced⟩,
      ⟨⟨⟨2⟩, .package, "Inner", 0, 0, false⟩, .unplaced⟩,
      ⟨⟨⟨3⟩, .actor, "Other", 0, 0, false⟩, .unplaced⟩]
  features := []
  relationships := []

/-- The crowded drawing starts with an overlap of strangers that placing it does not add to. -/
theorem strangerOverlapSum_layoutClassifiers_le_crowded :
    (Config.standard : Config ℚ).validate = .ok () ∧ crowded.nesting.Closed ∧
      0 < strangerOverlapSum crowded.nesting
        (crowded.estimateBounds (.ofConfig .standard) .standard).envelopes ∧
      (crowded.layoutClassifiers (.ofConfig .standard) .standard).defined = true ∧
      strangerOverlapSum crowded.nesting
          (crowded.layoutClassifiers (.ofConfig .standard) .standard).value.envelopes ≤
        strangerOverlapSum crowded.nesting
          (crowded.estimateBounds (.ofConfig .standard) .standard).envelopes :=
  ⟨by decide +kernel, by decide +kernel, by decide +kernel,
    strangerOverlapSum_layoutClassifiers_le (by decide +kernel) crowded (by decide +kernel)⟩

end Drawing

end DiagramLayout
