import DiagramLayout.Proofs.Classifiers.Overlap
import DiagramLayout.Proofs.Ranking

/-!
# Groups move as one

A container that is accepted in its turn takes along all that it encloses by one offset, and nothing
else in the drawing changes (`Drawing.GroupMoved`). A later turn may move an inner group again, with
the group of a container around it. In a forest that is all that can happen to it: the turns go from
inner containers to outer ones, and a container that is neither around the group nor in it shares
nothing with it. So what a container holds after its turn it holds when all have had theirs
(`Drawing.gatherGroups_keepsGroups`).
-/

namespace DiagramLayout

namespace Nesting

/-- The nesting has no cycles, what is enclosed encloses nothing that is not enclosed too, and of
all that encloses a classifier any two are related. -/
structure Forest (n : Nesting) : Prop where
  acyclic : ∀ a b, n.encloses a b → ¬ n.encloses b a
  transitive : ∀ a b c, n.encloses a b → n.encloses b c → n.encloses a c
  ancestors : ∀ a b c, n.encloses a c → n.encloses b c → n.related a b

/-- Whether a nesting is a forest is decided on the positions of its table. -/
instance (n : Nesting) : Decidable n.Forest :=
  decidable_of_iff
    ((∀ a < n.size, ∀ b ∈ n.descendants a,
        ¬ n.encloses b a ∧ ∀ c ∈ n.descendants b, n.encloses a c) ∧
      ∀ a < n.size, ∀ b < n.size, ∀ c ∈ n.descendants a, n.encloses b c → n.related a b) <| by
    simp only [mem_descendants]
    constructor
    · rintro ⟨hdown, hup⟩
      exact ⟨fun a b hab => (hdown a (lt_of_encloses hab) b hab).1,
        fun a b c hab hbc => (hdown a (lt_of_encloses hab) b hab).2 c hbc,
        fun a b c hac hbc => hup a (lt_of_encloses hac) b (lt_of_encloses hbc) c hac hbc⟩
    · intro h
      exact ⟨fun a _ b hab => ⟨h.acyclic a b hab, fun c hbc => h.transitive a b c hab hbc⟩,
        fun a _ b _ c hac hbc => h.ancestors a b c hac hbc⟩

/-- In a forest a classifier encloses more than any that it encloses. -/
lemma Forest.descendantCount_lt {n : Nesting} (h : n.Forest) {a b : ℕ} (hab : n.encloses a b) :
    n.descendantCount b < n.descendantCount a :=
  descendantCount_lt_of_encloses hab (fun hbb => h.acyclic b b hbb hbb)
    fun c hbc => h.transitive a b c hab hbc

end Nesting

namespace Drawing

variable {config : Config ℚ} {d d' : Drawing ℚ} {index : ℕ}

/-! ## One turn -/

/-- The space of a classifier holds the envelopes of all that it encloses, with the distance around
each. -/
def HoldsGroup (config : Config ℚ) (index : ℕ) (d : Drawing ℚ) : Prop :=
  ∀ other < d.classifiers.length, d.nesting.encloses index other →
    (d.boxes index).space.contains ((d.boxes other).envelope.pad (.uniform config.distance)) = true

/-- A container has been accepted and has moved with its group. -/
structure GroupMoved (config : Config ℚ) (index : ℕ) (d d' : Drawing ℚ) : Prop where
  /-- Nothing but boxes has changed. -/
  reboxes : d.Reboxes d'
  /-- All that the container encloses has moved by the same offset. -/
  moves : ∃ offset, ∀ other < d.classifiers.length, d.nesting.encloses index other →
    d'.boxes other = (d.boxes other).translate offset
  /-- All that it does not enclose has stayed. -/
  stays : ∀ other, other ≠ index → ¬ d.nesting.encloses index other →
    d'.boxes other = d.boxes other
  /-- The container is in the draw area. -/
  inside : d'.sheet.drawArea.contains (d'.boxes index).envelope = true
  /-- The container is apart from its strangers. -/
  apart : ∀ other < d.classifiers.length, d.nesting.related index other = false →
    (d'.boxes index).envelope.overlapArea (d'.boxes other).envelope = 0
  /-- The container holds its group. -/
  holds : d'.HoldsGroup config index

/-- What a container encloses has its envelope in the space of the container, with the distance
around, wherever both have been moved to. -/
lemma contains_pad_translate {space envelope : Rect ℚ} (offset : Point ℚ) (insets : Insets ℚ) :
    (space.translate offset).contains ((envelope.translate offset).pad insets) =
      space.contains (envelope.pad insets) := by
  rw [Rect.pad_translate, Rect.contains_translate]

/-- A gathered group has moved. -/
lemma Gathered.groupMoved {fitted : ClassifierBoxes ℚ} {offset : Point ℚ} (hreboxes : d.Reboxes d')
    (h : d.Gathered config index fitted offset d') : d.GroupMoved config index d' := by
  have hindex : d'.boxes index = fitted.translate offset := by rw [h.boxes, if_pos rfl]
  have hself : ¬ d.nesting.encloses index index := fun hself => h.acyclic index hself hself
  have hmoves (other : ℕ) (hlt : other < d.classifiers.length)
      (hother : d.nesting.encloses index other) :
      d'.boxes other = (d.boxes other).translate offset := by
    have hne : other ≠ index := fun heq => hself (heq ▸ hother)
    rw [h.boxes, if_neg hne, if_pos ⟨hother, hlt⟩]
  have hstays (other : ℕ) (hne : other ≠ index) (hother : ¬ d.nesting.encloses index other) :
      d'.boxes other = d.boxes other := by
    rw [h.boxes, if_neg hne, if_neg fun hmoved => hother hmoved.1]
  refine ⟨hreboxes, ⟨offset, hmoves⟩, hstays, ?_, fun other hlt hstranger => ?_, ?_⟩
  · rw [hreboxes.sheet_eq, hindex]
    exact h.inside
  · have hne : other ≠ index := by
      rintro rfl
      simp at hstranger
    have hother : ¬ d.nesting.encloses index other := by
      intro hother
      rw [Nesting.related_of_encloses hother] at hstranger
      cases hstranger
    rw [hindex, hstays other hne hother]
    exact h.apart other hlt hstranger
  · intro other hlt hother
    rw [hreboxes.nesting_eq] at hother
    rw [hreboxes.length_classifiers] at hlt
    rw [hindex, hmoves other hlt hother, ClassifierBoxes.envelope_translate]
    exact (contains_pad_translate offset _).trans (h.holds other hother)

/-! ## Later turns -/

/-- In a forest a group stays held when the group of another container is gathered that the holder
does not enclose. -/
lemma HoldsGroup.of_gathered {outer : ℕ} {fitted : ClassifierBoxes ℚ} {offset : Point ℚ}
    (hheld : d.HoldsGroup config index) (hindex : index < d.classifiers.length)
    (hforest : d.nesting.Forest) (hne : index ≠ outer) (houter : ¬ d.nesting.encloses index outer)
    (hreboxes : d.Reboxes d') (h : d.Gathered config outer fitted offset d') :
    d'.HoldsGroup config index := by
  intro other hlt hother
  rw [hreboxes.nesting_eq] at hother
  rw [hreboxes.length_classifiers] at hlt
  have hotherne : other ≠ outer := fun heq => houter (heq ▸ hother)
  rw [h.boxes index, h.boxes other, if_neg hne, if_neg hotherne]
  by_cases haround : d.nesting.encloses outer index
  · -- the holder goes with the outer container, and so does all that it holds
    have hwith : d.nesting.encloses outer other :=
      hforest.transitive outer index other haround hother
    rw [if_pos ⟨haround, hindex⟩, if_pos ⟨hwith, hlt⟩, ClassifierBoxes.envelope_translate]
    exact (contains_pad_translate offset _).trans (hheld other hlt hother)
  · -- two containers that are not related enclose nothing in common
    have hwithout : ¬ d.nesting.encloses outer other := by
      intro hwith
      have hrelated := hforest.ancestors index outer other hother hwith
      simp [Nesting.related, hne, houter, haround] at hrelated
    rw [if_neg fun hmoved => haround hmoved.1, if_neg fun hmoved => hwithout hmoved.1]
    exact hheld other hlt hother

/-- Whatever turns are taken, no symbol is reversed. -/
lemma Upright.gatheringAfter (hconfig : config.Usable) (hupright : d.Upright) (turns : List ℕ) :
    (d.gatheringAfter (.ofConfig config) config turns).Upright :=
  List.foldlRecOn _ _ (motive := Drawing.Upright) hupright
    fun _ hd index _ => hd.gatherStep hconfig index

/-- In a forest a group stays held while containers take their turns that the holder does not
enclose. -/
lemma HoldsGroup.gatheringAfter (hconfig : config.Usable) {turns : List ℕ}
    (hheld : d.HoldsGroup config index) (hupright : d.Upright)
    (hindex : index < d.classifiers.length) (hforest : d.nesting.Forest)
    (hturns : ∀ outer ∈ turns, index ≠ outer ∧ ¬ d.nesting.encloses index outer) :
    (d.gatheringAfter (.ofConfig config) config turns).HoldsGroup config index := by
  induction turns generalizing d with
  | nil => exact hheld
  | cons outer turns ih =>
    have hreboxes := reboxes_gatherStep (.ofConfig config) config d outer
    have hnext : (d.gatherStep (.ofConfig config) config outer).value.HoldsGroup config index := by
      obtain ⟨hne, houter⟩ := hturns outer List.mem_cons_self
      have hspec := gatherStep_spec hconfig hupright outer
      split_ifs at hspec
      · obtain ⟨fitted, offset, hgathered⟩ := hspec
        exact hheld.of_gathered hindex hforest hne houter hreboxes hgathered
      · rwa [hspec]
    refine ih hnext (hupright.gatherStep hconfig outer) ?_ ?_ ?_
    · rwa [hreboxes.length_classifiers]
    · rwa [hreboxes.nesting_eq]
    · rw [hreboxes.nesting_eq]
      exact fun other hother => hturns other (List.mem_cons_of_mem outer hother)

/-- A container has its turn before all others that have theirs later, and encloses no more than any
of them. -/
lemma descendantCount_le_of_later {before after : List ℕ}
    (horder : (d.containerRanking config).order = before ++ index :: after) :
    ∀ outer ∈ after, index ≠ outer ∧
      d.nesting.descendantCount index ≤ d.nesting.descendantCount outer := by
  have hnodup : (d.containerRanking config).order.Nodup := by
    refine Ranking.nodup_order_ofWeights _ ?_
    rw [List.map_map]
    exact (List.map_id _).symm ▸ List.nodup_range.filter _
  have hascending : (d.containerRanking config).order.Pairwise fun i j =>
      (Scalar.num (d.nesting.descendantCount i) : ℚ) ≤ Scalar.num (d.nesting.descendantCount j) :=
    Ranking.pairwise_order_ofWeights _ (fun i => Scalar.num (d.nesting.descendantCount i)) _
  rw [horder] at hnodup hascending
  intro outer houter
  have hne := List.rel_of_pairwise_cons (List.pairwise_append.mp hnodup).2.1 houter
  have hle := List.rel_of_pairwise_cons (List.pairwise_append.mp hascending).2.1 houter
  exact ⟨hne, by simpa using hle⟩

/-- Gathering takes one turn after the other. A container that is refused in its turn changes
nothing; one that is accepted moves with its group, and in a forest it holds the group when all
containers have had their turns. -/
theorem gatherGroups_keepsGroups (hconfig : config.validate = .ok ()) (hupright : d.Upright) :
    (d.gatherGroups (.ofConfig config) config).defined = true ∧
      (d.gatherGroups (.ofConfig config) config).value =
        d.gatheringAfter (.ofConfig config) config (d.containerRanking config).order ∧
      ∀ before index after, (d.containerRanking config).order = before ++ index :: after →
        if (d.gatheringAfter (.ofConfig config) config before).accepts (.ofConfig config) config
            index then
          (d.gatheringAfter (.ofConfig config) config before).GroupMoved config index
              (d.gatheringAfter (.ofConfig config) config (before ++ [index])) ∧
            (d.nesting.Forest →
              (d.gatherGroups (.ofConfig config) config).value.HoldsGroup config index)
        else
          d.gatheringAfter (.ofConfig config) config (before ++ [index]) =
            d.gatheringAfter (.ofConfig config) config before := by
  have husable := Config.usable_of_validate hconfig
  refine ⟨defined_gatherGroups _ d, value_gatherGroups _ _ d, fun before index after horder => ?_⟩
  have hend : (d.gatherGroups (.ofConfig config) config).value =
      (d.gatheringAfter (.ofConfig config) config (before ++ [index])).gatheringAfter
        (.ofConfig config) config after := by
    rw [value_gatherGroups, horder, List.append_cons, gatheringAfter_append]
  rw [hend, gatheringAfter_append]
  have hbefore := reboxes_gatheringAfter (.ofConfig config) config d before
  have hnow := hupright.gatheringAfter husable before
  generalize d.gatheringAfter (.ofConfig config) config before = now at hbefore hnow ⊢
  have hstep := reboxes_gatherStep (.ofConfig config) config now index
  have hspec := gatherStep_spec husable hnow index
  split_ifs at hspec ⊢
  · obtain ⟨fitted, offset, hgathered⟩ := hspec
    have hmoved := hgathered.groupMoved hstep
    refine ⟨hmoved, fun hforest => ?_⟩
    -- the turns that are left are those of containers that enclose at least as much
    refine hmoved.holds.gatheringAfter husable (hnow.gatherStep husable index) ?_ ?_ ?_
    · rw [hstep.length_classifiers]
      exact hgathered.exists_container
    · rwa [hstep.nesting_eq, hbefore.nesting_eq]
    · intro outer houter
      obtain ⟨hne, hcount⟩ := descendantCount_le_of_later horder outer houter
      rw [hstep.nesting_eq, hbefore.nesting_eq]
      exact ⟨hne, fun hinner => hcount.not_gt (hforest.descendantCount_lt hinner)⟩
  · exact hspec

/-- Three packages, one in the other, and an actor beside them. Only the kernel is to unfold this:
comparing statements about it would close its nesting over and over. -/
@[irreducible]
def nestedPackages : Drawing ℚ where
  diagram := ⟨⟨1⟩, .package, ""⟩
  sheet := .ofBounds (.ofCorner 0 0 800 600) .standard .xy
  nesting := .ofEdges 4 [(0, 1), (1, 2)] 4
  classifiers :=
    [⟨⟨⟨1⟩, .package, "Outer", 0, 0, false⟩, ⟨⟨90, 90, 310, 310⟩, .empty, .empty, .empty⟩⟩,
      ⟨⟨⟨2⟩, .package, "Middle", 0, 0, false⟩, ⟨⟨100, 100, 300, 300⟩, .empty, .empty, .empty⟩⟩,
      ⟨⟨⟨3⟩, .package, "Inner", 0, 0, false⟩, ⟨⟨150, 150, 250, 250⟩, .empty, .empty, .empty⟩⟩,
      ⟨⟨⟨4⟩, .actor, "Other", 0, 0, false⟩, ⟨⟨600, 100, 640, 180⟩, .empty, .empty, .empty⟩⟩]
  features := []
  relationships := []

/-- Both containers are accepted, the middle one first. It moves again with the group of the outer
one, and in the end both hold their groups. -/
theorem gatherGroups_keepsGroups_nestedPackages :
    (Config.standard : Config ℚ).validate = .ok () ∧ nestedPackages.Upright ∧
      nestedPackages.nesting.Forest ∧ (nestedPackages.containerRanking .standard).order = [1, 0] ∧
      (nestedPackages.gatheringAfter (.ofConfig .standard) .standard []).GroupMoved .standard 1
        (nestedPackages.gatheringAfter (.ofConfig .standard) .standard [1]) ∧
      (nestedPackages.gatheringAfter (.ofConfig .standard) .standard [1]).GroupMoved .standard 0
        (nestedPackages.gatheringAfter (.ofConfig .standard) .standard [1, 0]) ∧
      (nestedPackages.gatherGroups (.ofConfig .standard) .standard).value.HoldsGroup
        .standard 1 ∧
      (nestedPackages.gatherGroups (.ofConfig .standard) .standard).value.HoldsGroup
        .standard 0 := by
  have hconfig : (Config.standard : Config ℚ).validate = .ok () := by decide +kernel
  have hupright : nestedPackages.Upright := by decide +kernel
  have hforest : nestedPackages.nesting.Forest := by decide +kernel
  have horder : (nestedPackages.containerRanking .standard).order = [1, 0] := by decide +kernel
  have hfirst : (nestedPackages.gatheringAfter (.ofConfig .standard) .standard []).accepts
      (.ofConfig .standard) .standard 1 = true := by
    decide +kernel
  have hsecond : (nestedPackages.gatheringAfter (.ofConfig .standard) .standard [1]).accepts
      (.ofConfig .standard) .standard 0 = true := by
    decide +kernel
  obtain ⟨-, -, hturns⟩ := gatherGroups_keepsGroups hconfig hupright
  have hmiddle := hturns [] 1 [0] horder
  have houter := hturns [1] 0 [] horder
  rw [if_pos hfirst] at hmiddle
  rw [if_pos hsecond] at houter
  exact ⟨hconfig, hupright, hforest, horder, hmiddle.1, houter.1, hmiddle.2 hforest,
    houter.2 hforest⟩

end Drawing

end DiagramLayout
