import DiagramLayout.Proofs.Routing.Free
import DiagramLayout.Proofs.Routing.Timed
import DiagramLayout.Proofs.Translation.Features

/-!
# Routes on a translated sheet

On a free grid the connectors that are tried move with the ends of a relationship, and each costs
what it costs on the sheet: lengths and covered areas stay the same. So the cheapest moves as well
(`Drawing.Furnished.chosenRoute`). Which earlier routes are in the way is a matter of the run:
relationships that have had their turn are routed along with the sheet, and all others are still the
same (`FreeRouting.MovedBy`).

In a scenario the range of time moves along its axis, and with it the time of every message.
-/

namespace DiagramLayout

/-- A relationship with its route and its name moved. What is not drawn has no route, and a name
that has no extent stays where it is. -/
def RoutedRelationship.translate (v : Point ℚ) (r : RoutedRelationship ℚ) : RoutedRelationship ℚ :=
  { r with
    route := if r.isDrawn then r.route.translate v else r.route
    label := r.label.translateArea v }

/-- Of a relationship without a name the route moves alone, and only if it is drawn. -/
lemma RoutedRelationship.translate_of_unnamed {r : RoutedRelationship ℚ} (h : r.label = .empty)
    (v : Point ℚ) :
    r.translate v = if r.isDrawn then { r with route := r.route.translate v } else r := by
  obtain ⟨element, source, target, sourceFeature, targetFeature, route, visibility, label⟩ := r
  obtain rfl : label = .empty := h
  rw [translate, Rect.translateArea_empty]
  split_ifs <;> rfl

/-! ## Ends -/

namespace RouteEnd

/-- An end moved by an offset. -/
def translate (e : RouteEnd ℚ) (v : Point ℚ) : RouteEnd ℚ :=
  ⟨e.symbol.translate v, e.feature.map (· + v)⟩

variable (e : RouteEnd ℚ) (v : Point ℚ)

@[simp] lemma center_translate : (e.translate v).center = e.center + v := by
  obtain ⟨symbol, feature⟩ := e
  cases feature with
  | none => exact Rect.center_translate symbol v
  | some p => rfl

/-- A vertical main line attaches to the moved end where it attached to the end. -/
lemma attachVertical_translate (x : ℚ) (toward : Point ℚ) :
    (e.translate v).attachVertical (x + v.x) (toward + v) = e.attachVertical x toward + v := by
  obtain ⟨symbol, feature⟩ := e
  cases feature with
  | none =>
    simp only [attachVertical, translate, Option.map_none, Option.getD_none, Rect.center_translate,
      Rect.translate_minX, Rect.translate_maxX, Rect.translate_minY, Rect.translate_maxY,
      Point.add_x, Point.add_y, add_le_add_iff_right]
    split_ifs <;> rfl
  | some p => rfl

/-- A horizontal main line attaches to the moved end where it attached to the end. -/
lemma attachHorizontal_translate (y : ℚ) (toward : Point ℚ) :
    (e.translate v).attachHorizontal (y + v.y) (toward + v) = e.attachHorizontal y toward + v := by
  obtain ⟨symbol, feature⟩ := e
  cases feature with
  | none =>
    simp only [attachHorizontal, translate, Option.map_none, Option.getD_none,
      Rect.center_translate, Rect.translate_minX, Rect.translate_maxX, Rect.translate_minY,
      Rect.translate_maxY, Point.add_x, Point.add_y, add_le_add_iff_right]
    split_ifs <;> rfl
  | some p => rfl

end RouteEnd

/-- A loop moves with its end. -/
lemma loopAt_translate (distance : ℚ) (e : RouteEnd ℚ) (v : Point ℚ) :
    loopAt distance (e.translate v) = (loopAt distance e).translate v := by
  have hanchor : (e.translate v).feature.getD
      ⟨(e.translate v).symbol.maxX, (e.translate v).symbol.center.y⟩ =
      e.feature.getD ⟨e.symbol.maxX, e.symbol.center.y⟩ + v := by
    obtain ⟨symbol, feature⟩ := e
    cases feature with
    | none =>
      simp only [RouteEnd.translate, Option.map_none, Option.getD_none, Rect.center_translate,
        Rect.translate_maxX]
      rfl
    | some p => rfl
  unfold loopAt
  dsimp only
  rw [hanchor, Point.add_add_right_comm _ _ v, Point.add_add_right_comm _ _ v, Point.add_x,
    add_right_comm, Connector.vertical_add]

/-- The connectors that are tried move with the ends. -/
lemma connectorsBetween_translate (a b : RouteEnd ℚ) (v : Point ℚ) :
    connectorsBetween (a.translate v) (b.translate v) =
      (connectorsBetween a b).map (·.translate v) := by
  simp only [connectorsBetween, RouteEnd.center_translate, Point.midpoint_add, Point.add_x,
    Point.add_y, List.map_cons, List.map_nil, List.cons_append, List.nil_append,
    RouteEnd.attachVertical_translate, RouteEnd.attachHorizontal_translate, Connector.vertical_add,
    Connector.horizontal_add]

namespace Drawing

/-- The second drawing has the sheet, the classifiers and the features of the first one moved. -/
structure Furnished (v : Point ℚ) (d d' : Drawing ℚ) : Prop extends d.MovedBy v d' where
  features : d'.features = d.features.map (PlacedFeature.translate v)

namespace Furnished

variable {v : Point ℚ} {d d' : Drawing ℚ} {config : Config ℚ}

/-- The symbols of features are moved. -/
lemma featureSymbol (h : d.Furnished v d') {i : ℕ} (hi : i < d.features.length) :
    d'.featureSymbol i = (d.featureSymbol i).translate v := by
  unfold Drawing.featureSymbol
  rw [h.features, List.getElem?_map, List.getElem?_eq_getElem hi]
  rfl

/-! ## Free grids -/

/-- The ends of a relationship are moved. -/
lemma routeEnds (h : d.Furnished v d') (hin : d.InRange) {r : RoutedRelationship ℚ}
    (hr : r ∈ d.relationships) :
    d'.routeEnds r = ((d.routeEnds r).1.translate v, (d.routeEnds r).2.translate v) := by
  have hend {classifier : ℕ} {feature : Option ℕ} (hclassifier : classifier < d.classifiers.length)
      (hfeature : ∀ f ∈ feature, f < d.features.length) :
      d'.routeEnd classifier feature = (d.routeEnd classifier feature).translate v := by
    rw [routeEnd, routeEnd, (h.boxes hclassifier).symbol, RouteEnd.translate, Option.map_map]
    refine congrArg (RouteEnd.mk _) ?_
    cases feature with
    | none => rfl
    | some f =>
      rw [Option.map_some, Option.map_some, h.featureSymbol (hfeature f rfl), Function.comp_apply,
        Rect.center_translate]
  rw [Drawing.routeEnds, hend (hin.sources r hr) (hin.sourceFeatures r hr),
    hend (hin.targets r hr) (hin.targetFeatures r hr), Drawing.routeEnds]

/-- The connectors that are tried for a relationship are moved. -/
lemma routeCandidates (h : d.Furnished v d') (hin : d.InRange) {r : RoutedRelationship ℚ}
    (hr : r ∈ d.relationships) :
    d'.routeCandidates config r = (d.routeCandidates config r).map (·.translate v) := by
  unfold Drawing.routeCandidates
  rw [h.routeEnds hin hr]
  dsimp only
  split_ifs
  · rw [loopAt_translate, List.map_singleton]
  · exact connectorsBetween_translate _ _ v

/-- A moved connector owes as much, if the routes that are there are moved as well. -/
lemma routeDebt (h : d.Furnished v d') (hwidth : 0 < config.lineWidth) (r : RoutedRelationship ℚ)
    {routed : List ℕ} (hrouted : ∀ k ∈ routed, d'.relationships[k]? =
      (d.relationships[k]?).map fun r => { r with route := r.route.translate v })
    (c : Connector ℚ) :
    d'.routeDebt config r routed (c.translate v) = d.routeDebt config r routed c := by
  have hcoverage (box : Rect ℚ) :
      (c.translate v).coverage (box.translate v) config.lineWidth =
        c.coverage box config.lineWidth := c.coverage_translate v hwidth box
  have hclassifiers :
      (d'.classifiers.zipIdx.filter fun p => !d'.isExempt r p.2).map (fun p =>
        Debt.ofConnectorOnClassifier (c.translate v) p.1.boxes config.lineWidth) =
      (d.classifiers.zipIdx.filter fun p => !d.isExempt r p.2).map fun p =>
        Debt.ofConnectorOnClassifier c p.1.boxes config.lineWidth := by
    -- nothing but the symbols of the classifiers is read
    have hsymbols (cs : List (PlacedClassifier ℚ)) (exempt : ℕ → Bool) (c : Connector ℚ) :
        (cs.zipIdx.filter fun p => !exempt p.2).map (fun p =>
          Debt.ofConnectorOnClassifier c p.1.boxes config.lineWidth) =
        ((cs.map (·.boxes.symbol)).zipIdx.filter fun p => !exempt p.2).map fun p =>
          c.coverage p.1 config.lineWidth := by
      simp only [List.zipIdx_map, List.filter_map, List.map_map, Function.comp_def, Prod.map_fst,
        Prod.map_snd, id_eq, Debt.ofConnectorOnClassifier]
    have hexempt : d'.isExempt r = d.isExempt r := by
      funext i
      rw [isExempt, isExempt, h.nesting]
    have hmoved : d'.classifiers.map (·.boxes.symbol) =
        (d.classifiers.map (·.boxes.symbol)).map (·.translate v) := by
      rw [h.map_classifiers (by intro c; rfl), List.map_map]
      rfl
    rw [hsymbols, hsymbols, hexempt, hmoved]
    simp only [List.zipIdx_map, List.filter_map, List.map_map, Function.comp_def, Prod.map_fst,
      Prod.map_snd, id_eq, hcoverage]
  have hfeatures : (d'.features.filter fun f => f.owner != r.source && f.owner != r.target).map
        (fun f => Debt.ofConnectorOnFeature (c.translate v) f config.lineWidth) =
      (d.features.filter fun f => f.owner != r.source && f.owner != r.target).map fun f =>
        Debt.ofConnectorOnFeature c f config.lineWidth := by
    rw [h.features, List.filter_map, List.map_map]
    simp only [Function.comp_def, PlacedFeature.translate, Debt.ofConnectorOnFeature, hcoverage]
  have hconnectors : (routed.filterMap (d'.relationships[·]?)).map (fun other =>
        Debt.ofConnectors (c.translate v) other config.lineWidth) =
      (routed.filterMap (d.relationships[·]?)).map fun other =>
        Debt.ofConnectors c other config.lineWidth := by
    rw [List.map_filterMap, List.map_filterMap]
    refine List.filterMap_congr fun k hk => ?_
    rw [hrouted k hk, Option.map_map]
    refine congrArg (Option.map · d.relationships[k]?) (funext fun other => ?_)
    simp only [Function.comp_apply, Debt.ofConnectors, Connector.crossing_translate c v hwidth]
    rfl
  unfold Drawing.routeDebt
  dsimp only
  rw [hclassifiers, hfeatures, hconnectors, Debt.ofConnector, h.drawArea,
    Connector.areaOutside_translate c v hwidth, Debt.ofConnector]

/-- The connector that is taken is moved. -/
lemma chosenRoute (h : d.Furnished v d') (hin : d.InRange) (hwidth : 0 < config.lineWidth)
    {r : RoutedRelationship ℚ} (hr : r ∈ d.relationships) {routed : List ℕ}
    (hrouted : ∀ k ∈ routed, d'.relationships[k]? =
      (d.relationships[k]?).map fun r => { r with route := r.route.translate v }) :
    d'.chosenRoute config r routed = (d.chosenRoute config r routed).translate v := by
  have hsome : d.routeCandidates config r ≠ [] := by
    unfold Drawing.routeCandidates
    dsimp only
    split_ifs <;> simp [connectorsBetween]
  obtain ⟨c, -, hc, -⟩ := Scalar.exists_cheapestBy (d.routeCost config r routed) hsome
  have hcost (c : Connector ℚ) :
      d'.routeCost config r routed (c.translate v) = d.routeCost config r routed c := by
    rw [routeCost, Connector.length_translate, h.routeDebt hwidth r hrouted, routeCost]
  rw [Drawing.chosenRoute, h.routeCandidates hin hr, Scalar.cheapestBy_map hcost,
    Drawing.chosenRoute, hc]
  rfl

/-- The same relationships are routed in the same order. -/
lemma routeRanking (h : d.Furnished v d') (hin : d.InRange)
    (hrelationships : d'.relationships = d.relationships) :
    d'.routeRanking config = d.routeRanking config := by
  unfold Drawing.routeRanking
  rw [hrelationships]
  refine congrArg _ (List.filterMap_congr ?_)
  rintro ⟨r, i⟩ hr
  have hdistance : d'.endDistance r = d.endDistance r := by
    unfold endDistance
    rw [h.routeEnds hin (List.fst_mem_of_mem_zipIdx hr)]
    dsimp only
    rw [RouteEnd.center_translate, RouteEnd.center_translate, Point.add_sub_add]
  dsimp only
  rw [hdistance]

end Furnished

end Drawing

/-- Both runs have routed the same relationships, and their routes are moved. All others are the
same. -/
structure FreeRouting.MovedBy (v : Point ℚ) (s s' : FreeRouting ℚ) : Prop where
  furnished : s.drawing.Furnished v s'.drawing
  routed : s'.routed = s.routed
  relationships : ∀ k : ℕ, s'.drawing.relationships[k]? = (s.drawing.relationships[k]?).map fun r =>
    if k ∈ s.routed then { r with route := r.route.translate v } else r

namespace FreeRouting

variable {v : Point ℚ} {config : Config ℚ}

/-- A relationship gets a moved route in its turn. -/
lemma MovedBy.step {s s' : FreeRouting ℚ} (h : s.MovedBy v s') (hwidth : 0 < config.lineWidth)
    (hin : s.drawing.InRange) (i : ℕ) : (s.step config i).MovedBy v (s'.step config i) := by
  have hi := h.relationships i
  have hrouted : ∀ k ∈ s.routed, s'.drawing.relationships[k]? =
      (s.drawing.relationships[k]?).map fun r => { r with route := r.route.translate v } := by
    intro k hk
    simpa only [hk, if_true] using h.relationships k
  unfold FreeRouting.step
  cases hr : s.drawing.relationships[i]? with
  | none =>
    rw [hr, Option.map_none] at hi
    rw [hi]
    exact h
  | some r =>
    rw [hr, Option.map_some] at hi
    rw [hi, h.routed]
    dsimp only
    -- no route but those of others matters to the choice
    have hroute : s'.drawing.chosenRoute config
        (if i ∈ s.routed then { r with route := r.route.translate v } else r) s.routed =
        (s.drawing.chosenRoute config r s.routed).translate v := by
      rw [← h.furnished.chosenRoute hin hwidth (List.mem_of_getElem? hr) hrouted]
      split_ifs <;> rfl
    rw [hroute]
    refine ⟨⟨?_, h.furnished.features⟩, rfl, fun k => ?_⟩
    · exact ⟨h.furnished.diagram, h.furnished.sheet, h.furnished.nesting, h.furnished.classifiers⟩
    · simp only [Drawing.modifyRelationship, List.getElem?_modify, h.relationships k,
        List.mem_append, List.mem_singleton, Option.map_eq_map, Option.map_map]
      refine congrArg (Option.map · s.drawing.relationships[k]?) (funext fun other => ?_)
      by_cases hik : i = k
      · subst hik
        simp only [Function.comp_apply, if_true, or_true]
        split_ifs <;> rfl
      · simp [hik, Ne.symm hik]

/-- Relationships are routed in both runs alike. -/
lemma MovedBy.run {s s' : FreeRouting ℚ} (h : s.MovedBy v s') (hwidth : 0 < config.lineWidth)
    (hin : s.drawing.InRange) (order : List ℕ) :
    (order.foldl (FreeRouting.step config) s).MovedBy v
      (order.foldl (FreeRouting.step config) s') := by
  refine (List.foldl_rel (r := fun s s' : FreeRouting ℚ => s.MovedBy v s' ∧ s.drawing.InRange)
    ⟨h, hin⟩ ?_).1
  rintro i - s s' ⟨hmoved, hin⟩
  have hkept : Drawing.Relates RoutedRelationship.references s.drawing (s.step config i).drawing :=
    (Drawing.relates_freeRouting_step config s i).weaken (by intros; rfl)
  exact ⟨hmoved.step hwidth hin i, hin.of_keepsRecords hkept.keepsRecords⟩

/-- In a run exactly those relationships are routed that are in the order. -/
lemma routed_run (config : Config ℚ) (order : List ℕ) (s : FreeRouting ℚ) :
    (order.foldl (FreeRouting.step config) s).routed =
      s.routed ++ order.filter fun i => decide (i < s.drawing.relationships.length) := by
  induction order generalizing s with
  | nil => simp
  | cons i order ih =>
    have hlength : (s.step config i).drawing.relationships.length =
        s.drawing.relationships.length := by
      simpa using congrArg List.length
        (Drawing.relates_freeRouting_step config s i).map_relationships
    rw [List.foldl_cons, ih, hlength, List.filter_cons]
    unfold FreeRouting.step
    cases hr : s.drawing.relationships[i]? with
    | none =>
      rw [List.getElem?_eq_none_iff] at hr
      rw [if_neg (by simpa using hr)]
    | some r =>
      have hi : i < s.drawing.relationships.length := (List.getElem?_eq_some_iff.mp hr).1
      rw [if_pos (by simpa using hi), List.append_assoc]
      rfl

end FreeRouting

namespace Drawing

/-- Everything in the second drawing is that of the first one moved, apart from the icons. -/
structure TranslatedBy (v : Point ℚ) (d d' : Drawing ℚ) : Prop extends d.Furnished v d' where
  relationships : d'.relationships = d.relationships.map (RoutedRelationship.translate v)

variable {v : Point ℚ} {d d' : Drawing ℚ} {config : Config ℚ}

/-- With room for all relationships exactly the drawn ones have a turn. -/
lemma mem_routeRanking_iff (hlimit : d.relationships.length ≤ config.limits.relationships) {i : ℕ}
    {r : RoutedRelationship ℚ} (hr : d.relationships[i]? = some r) :
    i ∈ (d.routeRanking config).order ↔ r.isDrawn = true := by
  constructor
  · intro hi
    obtain ⟨⟨j, w⟩, hmem, rfl⟩ := List.mem_map.mp (Ranking.mem_of_mem_order hi)
    obtain ⟨⟨r', k⟩, hr', hkeep⟩ := List.mem_filterMap.mp hmem
    simp only [Option.ite_none_right_eq_some, Option.some.injEq, Prod.mk.injEq] at hkeep
    obtain ⟨hdrawn, rfl, -⟩ := hkeep
    obtain rfl : r = r' :=
      Option.some.inj (hr.symm.trans (List.mem_zipIdx_iff_getElem?.mp hr'))
    exact hdrawn
  · exact mem_routeRanking hlimit hr

/-- On a free grid the routes move with everything else. -/
theorem Furnished.routeFreely (h : d.Furnished v d') (hin : d.InRange)
    (hwidth : 0 < config.lineWidth) (hrelationships : d'.relationships = d.relationships)
    (hunnamed : ∀ r ∈ d.relationships, r.label = .empty) (hkind : d.sheet.grid.kind = .xy)
    (hlimit : d.relationships.length ≤ config.limits.relationships) :
    (d.routeFreely config).TranslatedBy v (d'.routeFreely config) := by
  have hkept := relates_routeFreely config d
  have hstart : (⟨d, []⟩ : FreeRouting ℚ).MovedBy v ⟨d', []⟩ := by
    refine ⟨h, rfl, fun k => ?_⟩
    simp [hrelationships]
  have hrun := hstart.run hwidth hin (d.routeRanking config).order
  have hrouted := FreeRouting.routed_run config (d.routeRanking config).order ⟨d, []⟩
  unfold Drawing.routeFreely at hkept ⊢
  rw [if_pos hkind] at hkept
  rw [h.kind, if_pos hkind, if_pos hkind, h.routeRanking hin hrelationships]
  refine ⟨hrun.furnished, List.ext_getElem? fun k => ?_⟩
  rw [hrun.relationships k, List.getElem?_map]
  generalize (d.routeRanking config).order.foldl (FreeRouting.step config) ⟨d, []⟩ = s
    at hkept hrouted ⊢
  cases hr : s.drawing.relationships[k]? with
  | none => rfl
  | some r =>
    obtain ⟨r₀, hr₀, hsame⟩ := getElem?_of_map_eq hkept.map_relationships.symm hr
    have hvisibility : r₀.visibility = r.visibility := congrArg (·.visibility) hsame
    have hdrawn : r₀.isDrawn = r.isDrawn := by
      rw [RoutedRelationship.isDrawn, hvisibility, RoutedRelationship.isDrawn]
    have hlabel : r.label = .empty := by
      rw [← hunnamed r₀ (List.mem_of_getElem? hr₀)]
      exact (congrArg (·.label) hsame).symm
    have hturn : k ∈ s.routed ↔ r.isDrawn = true := by
      have hk : k < d.relationships.length := (List.getElem?_eq_some_iff.mp hr₀).1
      rw [hrouted, List.nil_append, List.mem_filter, mem_routeRanking_iff hlimit hr₀, hdrawn]
      exact and_iff_left (by simpa using hk)
    simp only [Option.map_some, hturn, RoutedRelationship.translate_of_unnamed hlabel]

end Drawing

/-! ## Times -/

/-- The largest number moves with the lower bound and the list. -/
lemma Scalar.maxFrom_add (low : ℚ) (xs : List ℚ) (d : ℚ) :
    maxFrom (low + d) (xs.map (· + d)) = maxFrom low xs + d := by
  induction xs generalizing low with
  | nil => rfl
  | cons x xs ih =>
    rw [List.map_cons, maxFrom_cons, maxFrom_cons, max_exact, max_exact, max_add_add_right, ih]

section Messages

variable (axis : Axis) (bar : Rect ℚ) (time : ℚ) (toward : Point ℚ) (centered : Bool) (v : Point ℚ)

/-- The edges of a rectangle along an axis move with it. -/
lemma Rect.along_translate :
    (bar.translate v).startAlong axis = bar.startAlong axis + v.along axis ∧
      (bar.translate v).endAlong axis = bar.endAlong axis + v.along axis := by
  cases axis <;> exact ⟨rfl, rfl⟩

/-- The place of a message along a bar moves with the bar and the time. -/
lemma attachAlong_add (low high d : ℚ) :
    attachAlong (low + d) (high + d) (time + d) = (· + d) <$> attachAlong low high time := by
  unfold attachAlong
  rw [Scalar.max_exact, Scalar.max_exact, max_add_add_right, clamp_add]

/-- The place of a message across a bar moves with the bars. -/
lemma attachAcross_add (low high center toward d : ℚ) :
    attachAcross (low + d) (high + d) (center + d) (toward + d) centered =
      attachAcross low high center toward centered + d := by
  unfold attachAcross
  simp only [add_le_add_iff_right]
  split_ifs <;> rfl

/-- The point where a message attaches moves with the bars and the time. -/
lemma attachTo_translate :
    attachTo axis (bar.translate v) (time + v.along axis) (toward + v) centered =
      (· + v) <$> attachTo axis bar time toward centered := by
  cases axis <;>
    simp only [attachTo, Point.along, Rect.center_translate, Rect.translate_minX,
      Rect.translate_maxX, Rect.translate_minY, Rect.translate_maxY, Point.add_x, Point.add_y,
      attachAlong_add, attachAcross_add, Functor.map_map] <;> rfl

/-- A message moves with its bars and its time. -/
lemma message_translate (source target : Rect ℚ) :
    message axis (source.translate v) (target.translate v) (time + v.along axis) centered =
      (·.translate v) <$> message axis source target time centered := by
  unfold message
  rw [Rect.center_translate, Rect.center_translate, attachTo_translate, attachTo_translate,
    bind_map_left, map_bind]
  refine bind_congr fun start => ?_
  rw [bind_map_left, map_bind]
  refine bind_congr fun stop => ?_
  cases axis <;> rfl

/-- A message from a bar to itself moves with the bar and its time. -/
lemma selfMessage_translate (distance : ℚ) :
    selfMessage axis (bar.translate v) (time + v.along axis) distance centered =
      (·.translate v) <$> selfMessage axis bar time distance centered := by
  cases axis with
  | x =>
    have hacross : (if centered then (bar.translate v).center.y else (bar.translate v).maxY) =
        (if centered then bar.center.y else bar.maxY) + v.y := by
      rw [Rect.center_translate, apply_ite (· + v.y)]
      rfl
    unfold selfMessage
    dsimp only
    rw [hacross, Rect.translate_minX, Rect.translate_maxX, Point.along, attachAlong_add,
      bind_map_left, map_bind]
    refine bind_congr fun start => ?_
    rw [add_right_comm start, add_right_comm _ v.y, map_pure, ← Connector.horizontal_add]
    rfl
  | y =>
    have hacross : (if centered then (bar.translate v).center.x else (bar.translate v).maxX) =
        (if centered then bar.center.x else bar.maxX) + v.x := by
      rw [Rect.center_translate, apply_ite (· + v.x)]
      rfl
    unfold selfMessage
    dsimp only
    rw [hacross, Rect.translate_minY, Rect.translate_maxY, Point.along, attachAlong_add,
      bind_map_left, map_bind]
    refine bind_congr fun start => ?_
    rw [add_right_comm start, add_right_comm _ v.x, map_pure, ← Connector.vertical_add]
    rfl

end Messages

namespace Drawing

namespace Furnished

variable {v : Point ℚ} {d d' : Drawing ℚ} (config : Config ℚ) (axis : Axis)

/-- The same messages are shown. -/
lemma showMessages (h : d.Furnished v d') (hrelationships : d'.relationships = d.relationships) :
    d.showMessages.Furnished v d'.showMessages ∧
      d'.showMessages.relationships = d.showMessages.relationships := by
  have hlifeline (f : Option ℕ) : d'.isLifeline f = d.isLifeline f := by
    unfold isLifeline
    simp only [h.features, List.getElem?_map, Option.any_map]
    rfl
  refine ⟨⟨⟨h.diagram, h.sheet, h.nesting, h.classifiers⟩, h.features⟩, ?_⟩
  unfold Drawing.showMessages
  simp only [hrelationships, hlifeline, h.isGrayedOut]

/-- The range of time moves along its axis. -/
lemma timeRange (h : d.Furnished v d') :
    d'.timeStart config axis = d.timeStart config axis + v.along axis ∧
      d'.timeEnd config axis = d.timeEnd config axis + v.along axis := by
  have hheads : ((d'.classifiers.map (·.boxes.symbol)).filter (!·.isEmpty)).map
      (·.endAlong axis) =
      (((d.classifiers.map (·.boxes.symbol)).filter (!·.isEmpty)).map (·.endAlong axis)).map
        (· + v.along axis) := by
    rw [h.map_classifiers (by intro c; rfl)]
    simp only [PlacedClassifier.translate, ClassifierBoxes.translate, List.filter_map, List.map_map,
      Function.comp_def, Rect.isEmpty_translate, (Rect.along_translate axis _ v).2]
  unfold timeStart timeEnd
  dsimp only
  rw [hheads, h.drawArea, (Rect.along_translate axis _ v).1, (Rect.along_translate axis _ v).2,
    Scalar.maxFrom_add]
  constructor <;> ring

/-- Messages get their time on the moved range as on the range. -/
lemma timed (h : d.Furnished v d') (hrelationships : d'.relationships = d.relationships) :
    (d.timed config axis).Furnished v (d'.timed config axis) ∧
      (d'.timed config axis).relationships = (d.timed config axis).relationships := by
  obtain ⟨hshown, hsame⟩ := h.showMessages hrelationships
  obtain ⟨hstart, hstop⟩ := hshown.timeRange config axis
  refine ⟨⟨⟨hshown.diagram, ?_, hshown.nesting, hshown.classifiers⟩, hshown.features⟩, hsame⟩
  unfold Drawing.timed prepareTime modifyGrid messageKeys
  dsimp only
  rw [hstart, hstop, hshown.sheet, hsame, Scalar.max_exact, Scalar.max_exact, max_add_add_right]
  -- the scale along the axis is set to a range that has moved, the other one has moved before
  cases axis with
  | x =>
    refine congrArg (Sheet.mk _ _) (congrArg (fun x => Grid.mk _ x _) ?_)
    exact (congrArg (Scale.setRange · _ _) (Scale.foldl_addKey_translate _ v.x _)).trans
      (Scale.setRange_translate _ v.x _ _)
  | y =>
    refine congrArg (Sheet.mk _ _) (congrArg (Grid.mk _ _) ?_)
    exact (congrArg (Scale.setRange · _ _) (Scale.foldl_addKey_translate _ v.y _)).trans
      (Scale.setRange_translate _ v.y _ _)

variable {config axis}

/-- A drawn message is routed on the moved sheet as on the sheet. -/
lemma messageRoute (h : d.Furnished v d') (r : RoutedRelationship ℚ) {source target : ℕ}
    (hsource : source < d.features.length) (htarget : target < d.features.length) :
    d'.messageRoute config axis r source target =
      (·.translate v) <$> d.messageRoute config axis r source target := by
  have htime : (d'.sheet.grid.scale axis).location r.element.listKey =
      (d.sheet.grid.scale axis).location r.element.listKey + v.along axis := by
    rw [h.sheet]
    cases axis
    · exact Scale.location_translate _ v.x _
    · exact Scale.location_translate _ v.y _
  unfold Drawing.messageRoute
  dsimp only
  rw [htime, h.featureSymbol hsource, h.featureSymbol htarget]
  split_ifs
  · exact selfMessage_translate axis _ _ _ v _
  · exact message_translate axis _ _ v _ _

/-- A relationship without a name is moved when it gets its route, if the ends of what is drawn are
features. -/
lemma routeMessage (h : d.Furnished v d') {r : RoutedRelationship ℚ} (hlabel : r.label = .empty)
    (hends : r.isDrawn = true → ∃ source target, r.sourceFeature = some source ∧
      r.targetFeature = some target ∧ source < d.features.length ∧ target < d.features.length) :
    (d'.routeMessage config axis r).value = (d.routeMessage config axis r).value.translate v := by
  cases hdrawn : r.isDrawn with
  | false =>
    have hkept (d : Drawing ℚ) : (d.routeMessage config axis r).value = r := by
      unfold Drawing.routeMessage
      rw [hdrawn]
      rfl
    rw [hkept, hkept, RoutedRelationship.translate_of_unnamed hlabel, hdrawn]
    rfl
  | true =>
    obtain ⟨source, target, hsource, htarget, hsourceIn, htargetIn⟩ := hends hdrawn
    have hroute (d : Drawing ℚ) : (d.routeMessage config axis r).value =
        { r with route := (d.messageRoute config axis r source target).value } := by
      unfold Drawing.routeMessage
      rw [hdrawn, hsource, htarget]
      rfl
    rw [hroute, hroute, h.messageRoute r hsourceIn htargetIn, Guarded.value_map,
      RoutedRelationship.translate_of_unnamed]
    · exact (if_pos hdrawn).symm
    · exact hlabel

end Furnished

/-- An end at a lifeline is at a feature. -/
lemma exists_of_isLifeline {d : Drawing ℚ} {feature : Option ℕ} (h : d.isLifeline feature = true) :
    ∃ f, feature = some f ∧ f < d.features.length := by
  unfold isLifeline at h
  cases feature with
  | none => cases h
  | some f =>
    refine ⟨f, rfl, ?_⟩
    by_contra hbeyond
    rw [Option.any_some, List.getElem?_eq_none (not_lt.mp hbeyond)] at h
    cases h

/-- A message that is drawn has features at both ends. -/
lemma ends_of_mem_showMessages {d : Drawing ℚ} {r : RoutedRelationship ℚ}
    (hr : r ∈ d.showMessages.relationships) (hdrawn : r.isDrawn = true) :
    ∃ source target, r.sourceFeature = some source ∧ r.targetFeature = some target ∧
      source < d.features.length ∧ target < d.features.length := by
  obtain ⟨r₀, -, rfl⟩ := List.mem_map.mp hr
  by_cases hlifelines : (d.isLifeline r₀.sourceFeature && d.isLifeline r₀.targetFeature) = true
  · obtain ⟨hsource, htarget⟩ := Bool.and_eq_true_iff.mp hlifelines
    obtain ⟨source, hsource, hsourceIn⟩ := exists_of_isLifeline hsource
    obtain ⟨target, htarget, htargetIn⟩ := exists_of_isLifeline htarget
    exact ⟨source, target, hsource, htarget, hsourceIn, htargetIn⟩
  · simp [RoutedRelationship.isDrawn, hlifelines] at hdrawn

/-- In a scenario the messages move with everything else. -/
theorem Furnished.routeInTime {v : Point ℚ} {d d' : Drawing ℚ} {config : Config ℚ} {axis : Axis}
    (h : d.Furnished v d') (hrelationships : d'.relationships = d.relationships)
    (hunnamed : ∀ r ∈ d.relationships, r.label = .empty)
    (haxis : d.sheet.grid.kind.timeAxis = some axis) :
    (d.routeInTime config).value.TranslatedBy v (d'.routeInTime config).value := by
  obtain ⟨htimed, hsame⟩ := h.timed config axis hrelationships
  have haxis' : d'.sheet.grid.kind.timeAxis = some axis := by
    rw [h.kind]
    exact haxis
  rw [value_routeInTime haxis, value_routeInTime haxis']
  refine ⟨⟨⟨htimed.diagram, htimed.sheet, htimed.nesting, htimed.classifiers⟩, htimed.features⟩, ?_⟩
  dsimp only
  rw [hsame, List.map_map]
  refine List.map_congr_left fun r hr => htimed.routeMessage ?_
    (ends_of_mem_showMessages (d := d) hr)
  obtain ⟨r₀, hr₀, rfl⟩ := List.mem_map.mp hr
  exact hunnamed r₀ hr₀

end Drawing

end DiagramLayout
