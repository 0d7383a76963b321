import DiagramLayout.Proofs.Ranking
import DiagramLayout.Proofs.Refusal
import DiagramLayout.Proofs.Runs
import DiagramLayout.Proofs.Stages

/-!
# Every element gets its turn

Four steps of a layout take turns: classifiers are spread, containments embraced, groups gathered
and relationships routed in the order of a ranking, which has room for as many entries as the limits
allow elements. An entry beyond that would be dropped without anybody being told.

None ever is. The limits are checked once, in front of the layout, no step adds a record, and each
ranking is made of no more entries than there are classifiers or relationships. So every insertion
succeeds, and each step runs over an order in which everything that takes part in it comes exactly
once (`ElementSet.layout_servesAll`).

All this holds over any coordinates.
-/

namespace DiagramLayout

/-- The positions of a list give the list. -/
lemma filterMap_getElem?_range {β : Type} (xs : List β) :
    (List.range xs.length).filterMap (xs[·]?) = xs := by
  induction xs with
  | nil => rfl
  | cons x xs ih =>
    rw [List.length_cons, List.range_succ_eq_map, List.filterMap_cons, List.filterMap_map]
    simpa [Function.comp_def] using ih

/-- Choosing and mapping at once is choosing and then mapping. -/
lemma filterMap_ite_some {β γ : Type} (chooses : β → Bool) (f : β → γ) (xs : List β) :
    (xs.filterMap fun x => if chooses x then some (f x) else none) =
      (xs.filter chooses).map f := by
  induction xs with
  | nil => rfl
  | cons x xs ih => cases hx : chooses x <;> simp [hx, ih]

/-- The positions in a list of the elements that are chosen are among its positions. -/
lemma positions_sublist {β : Type} (chooses : β × ℕ → Bool) (xs : List β) :
    ((xs.zipIdx.filter chooses).map Prod.snd).Sublist (List.range xs.length) := by
  have hall : xs.zipIdx.map Prod.snd = List.range xs.length := by
    rw [List.zipIdx_map_snd, List.range_eq_range']
  rw [← hall]
  exact List.filter_sublist.map _

section Rankings

variable {α : Type} [Scalar α]

/-- The ranking takes in all weighted indices, and each of the members comes once in its order. -/
structure Ranking.RanksAll (r : Ranking α) (capacity : ℕ) (weights : List (ℕ × α))
    (members : List ℕ) : Prop where
  insertAll_eq : insertAll capacity weights = .ok r
  perm_order : r.order.Perm members
  nodup_order : r.order.Nodup

/-- A ranking with room for all weighted indices ranks all of them. -/
lemma Ranking.ranksAll_ofWeights {capacity : ℕ} {weights : List (ℕ × α)} {members : List ℕ}
    (hmembers : weights.map Prod.fst = members) (hnodup : members.Nodup)
    (hroom : members.length ≤ capacity) :
    (ofWeights capacity weights).RanksAll capacity weights members := by
  have hlength : weights.length ≤ capacity := by
    rw [← hmembers, List.length_map] at hroom
    exact hroom
  have hperm := perm_order_ofWeights hlength
  rw [hmembers] at hperm
  exact ⟨insertAll_of_room hlength, hperm, hperm.nodup_iff.mpr hnodup⟩

end Rankings

namespace Drawing

variable {α : Type}

/-! ## Who takes part -/

/-- The positions of the classifiers that enclose others. -/
def containers (d : Drawing α) : List ℕ :=
  (List.range d.classifiers.length).filter fun i => decide (0 < d.nesting.descendantCount i)

/-- The positions of the relationships that are drawn. -/
def drawnPositions (d : Drawing α) : List ℕ :=
  (d.relationships.zipIdx.filter fun (r, _) => r.isDrawn).map Prod.snd

/-- A relationship is drawn exactly if its position is that of a drawn one. -/
lemma mem_drawnPositions {d : Drawing α} {i : ℕ} :
    i ∈ d.drawnPositions ↔ ∃ r, d.relationships[i]? = some r ∧ r.isDrawn = true := by
  simp [drawnPositions, List.mem_zipIdx_iff_getElem?]

/-- Positions of containments are positions of relationships. -/
lemma usableContainments_sublist (d : Drawing α) :
    (d.usableContainments.map (·.relationship)).Sublist (List.range d.relationships.length) := by
  have hcontainments : d.containments.map (·.relationship) =
      (d.relationships.zipIdx.filter fun x => x.1.element.kind.isContainment).map Prod.snd := by
    unfold containments
    rw [filterMap_ite_some (fun x : RoutedRelationship α × ℕ => x.1.element.kind.isContainment)
      fun x => (⟨x.2, x.1.source, x.1.target⟩ : Containment), List.map_map]
    rfl
  refine (List.filter_sublist.map _).trans ?_
  rw [hcontainments]
  exact positions_sublist _ _

variable [Scalar α] {config : Config α}

/-! ## Who is ranked -/

/-- With room for all classifiers, all of them are spread. -/
lemma ranksAll_turnRanking {d : Drawing α}
    (hroom : d.classifiers.length ≤ config.limits.classifiers) :
    (d.turnRanking config).RanksAll config.limits.classifiers
      ((List.range d.classifiers.length).map fun i => (i, d.simpleness i))
      (List.range d.classifiers.length) := by
  refine Ranking.ranksAll_ofWeights ?_ List.nodup_range (by rwa [List.length_range])
  rw [List.map_map]
  exact List.map_id _

/-- With room for all relationships, all usable containments are embraced. -/
lemma ranksAll_containmentRanking {d : Drawing α}
    (hroom : d.relationships.length ≤ config.limits.relationships) :
    (d.containmentRanking config).RanksAll config.limits.relationships
      (d.usableContainments.zipIdx.map fun (c, i) =>
        (i, Scalar.num (d.nesting.descendantCount c.parent)))
      (List.range d.usableContainments.length) := by
  refine Ranking.ranksAll_ofWeights ?_ List.nodup_range ?_
  · rw [List.map_map, List.range_eq_range', ← List.zipIdx_map_snd]
    rfl
  · have hfew := d.usableContainments_sublist.length_le
    rw [List.length_map, List.length_range] at hfew
    rw [List.length_range]
    exact hfew.trans hroom

/-- With room for all relationships, the turns of embracing are the usable containments, each of
which comes once. -/
lemma perm_containmentTurns {d : Drawing α}
    (hroom : d.relationships.length ≤ config.limits.relationships) :
    ((d.containmentRanking config).order.filterMap (d.usableContainments[·]?)).Perm
      d.usableContainments := by
  have hperm := (ranksAll_containmentRanking hroom).perm_order.filterMap (d.usableContainments[·]?)
  rwa [filterMap_getElem?_range] at hperm

/-- With room for all classifiers, all containers are gathered. -/
lemma ranksAll_containerRanking {d : Drawing α}
    (hroom : d.classifiers.length ≤ config.limits.classifiers) :
    (d.containerRanking config).RanksAll config.limits.classifiers
      (d.containers.map fun i => (i, Scalar.num (d.nesting.descendantCount i))) d.containers := by
  refine Ranking.ranksAll_ofWeights ?_ (List.nodup_range.filter _) ?_
  · rw [List.map_map]
    exact List.map_id _
  · have hfew : d.containers.length ≤ (List.range d.classifiers.length).length :=
      List.length_filter_le _ _
    rw [List.length_range] at hfew
    exact hfew.trans hroom

/-- With room for all relationships, all drawn ones are routed. -/
lemma ranksAll_routeRanking {d : Drawing α}
    (hroom : d.relationships.length ≤ config.limits.relationships) :
    (d.routeRanking config).RanksAll config.limits.relationships
      (d.relationships.zipIdx.filterMap fun (x, i) =>
        if x.isDrawn then some (i, d.endDistance x) else none)
      d.drawnPositions := by
  refine Ranking.ranksAll_ofWeights ?_ ?_ ?_
  · rw [filterMap_ite_some (fun x : RoutedRelationship α × ℕ => x.1.isDrawn)
      fun x => (x.2, d.endDistance x.1), List.map_map]
    rfl
  · exact (positions_sublist _ _).nodup List.nodup_range
  · have hfew := (positions_sublist (fun x : RoutedRelationship α × ℕ => x.1.isDrawn)
      d.relationships).length_le
    rw [List.length_range] at hfew
    exact hfew.trans hroom

/-! ## Routes -/

/-- A relationship gets the route that is chosen in its turn. -/
lemma getElem?_freeRouting_step {config : Config α} {s : FreeRouting α} {i : ℕ}
    {r : RoutedRelationship α} (hr : s.drawing.relationships[i]? = some r) :
    (s.step config i).routed = s.routed ++ [i] ∧
      (s.step config i).drawing.relationships[i]? =
        some { r with route := s.drawing.chosenRoute config r s.routed } := by
  rw [FreeRouting.step, hr]
  simp [modifyRelationship, hr]

/-- In the turn of another one a relationship stays as it is. -/
lemma getElem?_freeRouting_step_of_ne (config : Config α) (s : FreeRouting α) {i j : ℕ}
    (hij : j ≠ i) :
    (s.step config j).drawing.relationships[i]? = s.drawing.relationships[i]? := by
  unfold FreeRouting.step
  split
  · rfl
  · simp [modifyRelationship, hij]

/-- In the turns of other ones a relationship stays as it is. -/
lemma getElem?_routing_of_not_mem (config : Config α) {i : ℕ} {turns : List ℕ} (hi : i ∉ turns)
    (s : FreeRouting α) :
    (turns.foldl (FreeRouting.step config) s).drawing.relationships[i]? =
      s.drawing.relationships[i]? := by
  induction turns generalizing s with
  | nil => rfl
  | cons j js ih =>
    obtain ⟨hij, hjs⟩ := not_or.mp (List.mem_cons.not.mp hi)
    rw [List.foldl_cons, ih hjs, getElem?_freeRouting_step_of_ne config s (Ne.symm hij)]

/-- Relationships are recorded as routed in the order of their turns. -/
lemma routed_routing (config : Config α) {turns : List ℕ} {s : FreeRouting α}
    (hturns : ∀ i ∈ turns, i < s.drawing.relationships.length) :
    (turns.foldl (FreeRouting.step config) s).routed = s.routed ++ turns := by
  induction turns generalizing s with
  | nil => simp
  | cons i is ih =>
    have hr := List.getElem?_eq_getElem (hturns i List.mem_cons_self)
    have hlength : (s.step config i).drawing.relationships.length =
        s.drawing.relationships.length := by
      simpa using congrArg List.length (relates_freeRouting_step config s i).map_relationships
    rw [List.foldl_cons, ih, (getElem?_freeRouting_step hr).1, List.append_assoc]
    · rfl
    · intro j hj
      rw [hlength]
      exact hturns j (List.mem_cons_of_mem i hj)

/-- The relationship at a position has one turn in an order of turns, and ends with the route that
is chosen in that turn. -/
def RoutedOnce (config : Config α) (d : Drawing α) (order : List ℕ) (i : ℕ)
    (r : RoutedRelationship α) : Prop :=
  ∃ before after, order = before ++ i :: after ∧ i ∉ before ∧ i ∉ after ∧
    (d.routingAfter config order).drawing.relationships[i]? =
      some { r with route := (d.routingAfter config before).drawing.chosenRoute config r before }

/-- A relationship that comes once in an order of turns is routed once. -/
lemma routedOnce_of_mem (config : Config α) {d : Drawing α} {order : List ℕ} {i : ℕ}
    {r : RoutedRelationship α} (horder : ∀ j ∈ order, j < d.relationships.length)
    (hnodup : order.Nodup) (hi : i ∈ order) (hr : d.relationships[i]? = some r) :
    RoutedOnce config d order i r := by
  obtain ⟨before, after, rfl⟩ := List.append_of_mem hi
  obtain ⟨hbefore, hafter⟩ : i ∉ before ∧ i ∉ after := by
    rw [List.nodup_middle, List.nodup_cons, List.mem_append, not_or] at hnodup
    exact hnodup.1
  refine ⟨before, after, rfl, hbefore, hafter, ?_⟩
  have hsame : (d.routingAfter config before).drawing.relationships[i]? = some r := by
    rw [routingAfter, getElem?_routing_of_not_mem config hbefore, hr]
  have hrouted : (d.routingAfter config before).routed = before :=
    routed_routing config fun j hj => horder j (List.mem_append_left _ hj)
  rw [routingAfter, List.foldl_append, List.foldl_cons, getElem?_routing_of_not_mem config hafter,
    ← routingAfter, (getElem?_freeRouting_step hsame).2, hrouted]

/-- With room for all relationships, each one that is drawn is routed once, and all others stay as
they are. -/
lemma routedOnce_or_stays {d : Drawing α}
    (hroom : d.relationships.length ≤ config.limits.relationships) {i : ℕ}
    {r : RoutedRelationship α} (hr : d.relationships[i]? = some r) :
    if r.isDrawn then RoutedOnce config d (d.routeRanking config).order i r
    else (d.routingAfter config (d.routeRanking config).order).drawing.relationships[i]? =
      some r := by
  have hranks := ranksAll_routeRanking hroom
  have hdrawn : i ∈ (d.routeRanking config).order ↔ r.isDrawn = true := by
    rw [hranks.perm_order.mem_iff, mem_drawnPositions]
    simp [hr]
  split_ifs with hshown
  · refine routedOnce_of_mem config (fun j hj => ?_) hranks.nodup_order (hdrawn.mpr hshown) hr
    obtain ⟨y, hy, -⟩ := mem_drawnPositions.mp (hranks.perm_order.mem_iff.mp hj)
    exact (List.getElem?_eq_some_iff.mp hy).1
  · rw [routingAfter, getElem?_routing_of_not_mem config (hdrawn.not.mpr hshown), hr]

end Drawing

namespace Stages

variable {α : Type} [Scalar α] {m : Composer α} {config : Config α} {start : Drawing α}

/-- In each of the four steps that take turns, everything that takes part is ranked and has one
turn, and the step is nothing but these turns. -/
structure ServesAll (t : Stages m config start) : Prop where
  /-- All classifiers are spread. -/
  spreading : ∃ r : Ranking α,
    r.RanksAll config.limits.classifiers
      ((List.range t.estimated.classifiers.length).map fun i => (i, t.estimated.simpleness i))
      (List.range t.estimated.classifiers.length) ∧
    t.spread = (t.estimated.spreadingAfter config r.order).drawing
  /-- All usable containments are embraced, or found to have no room. -/
  embracing : ∃ (r : Ranking α) (turns : List Containment),
    r.RanksAll config.limits.relationships
      (t.spread.usableContainments.zipIdx.map fun (c, i) =>
        (i, Scalar.num (t.spread.nesting.descendantCount c.parent)))
      (List.range t.spread.usableContainments.length) ∧
    turns = r.order.filterMap (t.spread.usableContainments[·]?) ∧
    turns.Perm t.spread.usableContainments ∧ (turns.map (·.relationship)).Nodup ∧
    t.grown = (t.spread.embracingAfter m config turns).drawing
  /-- All containers are gathered with their groups, or found to have no room. -/
  gathering : ∃ r : Ranking α,
    r.RanksAll config.limits.classifiers
      (t.hidden.containers.map fun i => (i, Scalar.num (t.hidden.nesting.descendantCount i)))
      t.hidden.containers ∧
    t.gathered = t.hidden.gatheringAfter m config r.order
  /-- On a free grid all drawn relationships are routed, and no other one is. -/
  routing : start.diagram.kind.gridKind = .xy → ∃ r : Ranking α,
    r.RanksAll config.limits.relationships
      (t.furnished.relationships.zipIdx.filterMap fun (x, i) =>
        if x.isDrawn then some (i, t.furnished.endDistance x) else none)
      t.furnished.drawnPositions ∧
    t.routed = (t.furnished.routingAfter config r.order).drawing ∧
    ∀ i x, t.furnished.relationships[i]? = some x →
      if x.isDrawn then t.furnished.RoutedOnce config r.order i x
      else t.routed.relationships[i]? = some x

/-- Where there is room for all classifiers and relationships, everything has its turns. -/
theorem servesAll (t : Stages m config start)
    (hclassifiers : start.classifiers.length ≤ config.limits.classifiers)
    (hrelationships : start.relationships.length ≤ config.limits.relationships)
    (hgrid : start.sheet.grid.kind = start.diagram.kind.gridKind) : t.ServesAll := by
  have hkept (e) (he : e ∈ t.toList) : start.KeepsRecords e := t.keepsRecords e he
  have hestimated := hkept t.estimated (by simp [toList])
  have hspread := hkept t.spread (by simp [toList])
  have hhidden := hkept t.hidden (by simp [toList])
  have hfurnished := hkept t.furnished (by simp [toList])
  constructor
  · have hroom : t.estimated.classifiers.length ≤ config.limits.classifiers :=
      hestimated.length_classifiers.trans_le hclassifiers
    refine ⟨_, Drawing.ranksAll_turnRanking hroom, ?_⟩
    rw [t.spread_eq, Drawing.value_moveApart]
  · have hroom : t.spread.relationships.length ≤ config.limits.relationships :=
      hspread.length_relationships.trans_le hrelationships
    have hperm := Drawing.perm_containmentTurns hroom
    refine ⟨_, _, Drawing.ranksAll_containmentRanking hroom, rfl, hperm, ?_, t.grown_eq⟩
    refine (hperm.map _).nodup_iff.mpr ?_
    exact t.spread.usableContainments_sublist.nodup List.nodup_range
  · have hroom : t.hidden.classifiers.length ≤ config.limits.classifiers :=
      hhidden.length_classifiers.trans_le hclassifiers
    refine ⟨_, Drawing.ranksAll_containerRanking hroom, ?_⟩
    rw [t.gathered_eq, Drawing.value_gatherGroups]
  · intro hfree
    have hroom : t.furnished.relationships.length ≤ config.limits.relationships :=
      hfurnished.length_relationships.trans_le hrelationships
    have hkind : t.furnished.sheet.grid.kind = .xy := by
      rw [t.kind_furnished, hgrid, hfree]
    have huntimed : t.furnished.diagram.kind.hasTimeAxis = false := by
      rw [hfurnished.diagram, DiagramKind.hasTimeAxis_eq, hfree]
      rfl
    have hrouted : t.routed =
        (t.furnished.routingAfter config (t.furnished.routeRanking config).order).drawing := by
      rw [t.routed_eq, Drawing.routeAll, huntimed, if_neg Bool.false_ne_true,
        Guarded.value_pure, Drawing.routeFreely_eq config hkind]
    refine ⟨_, Drawing.ranksAll_routeRanking hroom, hrouted, fun i x hx => ?_⟩
    rw [hrouted]
    exact Drawing.routedOnce_or_stays hroom hx

end Stages

/-- Whatever is laid out, nothing is dropped from the order in which a step takes its turns: the
stages of the layout record every element of the set, and in each step that takes turns everything
that takes part has one. -/
theorem ElementSet.layout_servesAll {α : Type} [Scalar α] {m : Composer α} {config : Config α}
    {bounds : Rect α} {s : ElementSet} {g : Guarded (Drawing α)}
    (h : s.layout m config bounds = .ok g) :
    ∃ (start : Drawing α) (t : Stages m config start), s.prepare config bounds = .ok start ∧
      t.named = g.value ∧ (∀ e ∈ t.toList, s.RecordedIn e) ∧ t.ServesAll := by
  obtain ⟨start, hprepare, rfl⟩ := exists_of_layout_eq_ok h
  have hrecorded := recordedIn_of_prepare hprepare
  have hlimits := keepsTo_of_prepare hprepare
  obtain ⟨hdiagram, hsheet⟩ := Drawing.ofElements_eq_ok (ofElements_of_prepare hprepare)
  have hclassifiers := hrecorded.length_classifiers
  have hrelationships : start.relationships.length = s.relationships.length := by
    simpa using congrArg List.length hrecorded.relationships
  have hgrid : start.sheet.grid.kind = start.diagram.kind.gridKind := by
    rw [hsheet, hdiagram]
    rfl
  refine ⟨start, start.stages m config, hprepare, (Stages.value_complete_eq _).symm, ?_, ?_⟩
  · exact fun e he => hrecorded.of_keepsRecords (Stages.keepsRecords _ e he)
  · exact Stages.servesAll _ (hclassifiers.trans_le hlimits.classifiers)
      (hrelationships.trans_le hlimits.relationships) hgrid

/-- A configuration whose limits are just what the two packages need. -/
def tightConfig : Config ℚ := { Config.standard with limits := ⟨2, 0, 1⟩ }

/-- The two packages before anything is computed. -/
def packageInPackageStart : Drawing ℚ where
  diagram := packageInPackage.diagram
  sheet := .ofBounds (.ofCorner 0 0 800 600) tightConfig .xy
  nesting := .ofElements packageInPackage 4
  classifiers := packageInPackage.classifiers.map (⟨·, .unplaced⟩)
  features := []
  relationships :=
    [⟨⟨⟨102⟩, .containment, "", ⟨1⟩, ⟨2⟩, none, none, 0⟩, 0, 1, none, none, .collapsed, .shown,
      .empty⟩]

/-- Limits that are just met leave nobody without a turn. -/
theorem layout_servesAll_tight :
    ∃ g, packageInPackage.layout (.ofConfig tightConfig) tightConfig (.ofCorner 0 0 800 600) =
        .ok g ∧
      ∃ (start : Drawing ℚ) (t : Stages (.ofConfig tightConfig) tightConfig start),
        packageInPackage.prepare tightConfig (.ofCorner 0 0 800 600) = .ok start ∧
          t.named = g.value ∧ (∀ e ∈ t.toList, packageInPackage.RecordedIn e) ∧ t.ServesAll := by
  have hprepare : packageInPackage.prepare tightConfig (.ofCorner 0 0 800 600) =
      .ok packageInPackageStart := by
    decide +kernel
  have hlayout := ElementSet.layout_eq_ok hprepare (.ofConfig tightConfig)
  exact ⟨_, hlayout, ElementSet.layout_servesAll hlayout⟩

end DiagramLayout
