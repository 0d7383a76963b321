import DiagramLayout.Proofs.Guards
import DiagramLayout.Proofs.Lifelines
import DiagramLayout.Proofs.Scale

/-!
# Messages run straight across at their time

In a scenario the feature step says how far lifelines reach and the routing step, on its own, over
which range time runs. The two agree: the range begins behind every head, where the lifelines begin,
and ends before all lifelines do. So no message is pushed off its time by the ends of a bar
(`message_runsAt`), and the messages of a layout run straight across, behind the heads and within
both bars, in the order of their list keys (`ElementSet.layout_messagesInTime`).
-/

namespace DiagramLayout

/-! ## Across the time axis -/

/-- The axis that is not the given one. -/
def Axis.other : Axis → Axis
  | .x => .y
  | .y => .x

/-- The coordinate of a point along an axis. -/
def Point.along (p : Point ℚ) : Axis → ℚ
  | .x => p.x
  | .y => p.y

/-- Along an axis a point is where a bar is joined to another: on the center line of the bar if the
joint is centered, otherwise on the border that faces the center of the other bar. -/
structure Rect.JointAt (bar other : Rect ℚ) (axis : Axis) (centered : Bool) (p : Point ℚ) :
    Prop where
  middle : centered = true → p.along axis = bar.center.along axis
  after : centered = false → bar.center.along axis ≤ other.center.along axis →
    p.along axis = bar.endAlong axis
  before : centered = false → other.center.along axis < bar.center.along axis →
    p.along axis = bar.startAlong axis

/-- The connector is a straight line at one time from one bar to another. -/
structure Connector.RunsAt (c : Connector ℚ) (axis : Axis) (time : ℚ) (source target : Rect ℚ)
    (centered : Bool) : Prop where
  straight : ∀ p ∈ c.corners, p.along axis = time
  begins : source.JointAt target axis.other centered c.source
  ends : target.JointAt source axis.other centered c.target

/-- A bar lasts through a time: it starts before and ends after it. -/
def Rect.LastsThrough (bar : Rect ℚ) (axis : Axis) (time : ℚ) : Prop :=
  bar.startAlong axis < time ∧ time < bar.endAlong axis

/-- A message attaches to a bar at its time if the bar lasts through it. -/
lemma value_attachTo {axis : Axis} {bar : Rect ℚ} {time : ℚ} (h : bar.LastsThrough axis time)
    (other : Rect ℚ) (centered : Bool) :
    (attachTo axis bar time other.center centered).value.along axis = time ∧
      bar.JointAt other axis.other centered
        (attachTo axis bar time other.center centered).value := by
  obtain ⟨hstart, hend⟩ := h
  have hacross (low high center toward : ℚ) :
      (centered = true → attachAcross low high center toward centered = center) ∧
      (centered = false → center ≤ toward →
        attachAcross low high center toward centered = high) ∧
      (centered = false → toward < center →
        attachAcross low high center toward centered = low) := by
    unfold attachAcross
    refine ⟨fun hc => if_pos hc, fun hc hle => ?_, fun hc hlt => ?_⟩
    · rw [if_neg (by simp [hc]), if_pos hle]
    · rw [if_neg (by simp [hc]), if_neg (not_le.mpr hlt)]
  cases axis with
  | x =>
    obtain ⟨hcenter, hafter, hbefore⟩ :=
      hacross bar.minY bar.maxY bar.center.y other.center.y
    refine ⟨clamp_of_within hstart.le ?_, hcenter, hafter, hbefore⟩
    rw [Scalar.max_exact]
    exact le_max_of_le_left hend.le
  | y =>
    obtain ⟨hcenter, hafter, hbefore⟩ :=
      hacross bar.minX bar.maxX bar.center.x other.center.x
    refine ⟨clamp_of_within hstart.le ?_, hcenter, hafter, hbefore⟩
    rw [Scalar.max_exact]
    exact le_max_of_le_left hend.le

/-- A message between two bars that last through its time runs straight across. -/
theorem message_runsAt {axis : Axis} {source target : Rect ℚ} {time : ℚ}
    (hsource : source.LastsThrough axis time) (htarget : target.LastsThrough axis time)
    (centered : Bool) :
    (message axis source target time centered).value.RunsAt axis time source target centered := by
  obtain ⟨hstart, hstartJoint⟩ := value_attachTo hsource target centered
  obtain ⟨hstop, hstopJoint⟩ := value_attachTo htarget source centered
  unfold message
  simp only [Guarded.value_bind, Guarded.value_pure]
  cases axis with
  | x =>
    refine ⟨?_, hstartJoint, hstopJoint⟩
    simpa [Connector.corners, Connector.vertical, Point.along] using ⟨hstart, hstop⟩
  | y =>
    refine ⟨?_, hstartJoint, hstopJoint⟩
    simpa [Connector.corners, Connector.horizontal, Point.along] using ⟨hstart, hstop⟩

/-! ## The time scale -/

namespace Drawing

variable {config : Config ℚ} {axis : Axis}

/-- Registering the classifiers leaves the time scale alone. -/
lemma scale_registerKeys {d : Drawing ℚ} (haxis : d.sheet.grid.kind.timeAxis = some axis) :
    d.registerKeys.sheet.grid.kind = d.sheet.grid.kind ∧
      d.registerKeys.sheet.grid.scale axis = d.sheet.grid.scale axis := by
  refine ⟨kind_registerKeys d, ?_⟩
  rw [scale_registerKeys_eq, if_neg]
  simp [GridKind.places, haxis]

/-- The drawing when its messages are about to be routed. -/
def timed (config : Config ℚ) (axis : Axis) (d : Drawing ℚ) : Drawing ℚ :=
  d.showMessages.prepareTime config axis

/-- Over a range of some length the time scale spans it, and has the keys of the messages. -/
lemma scale_timed {d : Drawing ℚ} (htime : d.timeStart config axis < d.timeEnd config axis) :
    (d.timed config axis).sheet.grid.scale axis =
      Scale.relocate
        { d.showMessages.messageKeys.foldl Scale.addKey (d.sheet.grid.scale axis) with
          lower := d.timeStart config axis
          upper := d.timeEnd config axis } := by
  have hscale : (d.timed config axis).sheet.grid.scale axis =
      (d.showMessages.messageKeys.foldl Scale.addKey (d.sheet.grid.scale axis)).setRange
        (d.timeStart config axis)
        (Scalar.max (d.timeEnd config axis) (d.timeStart config axis)) := by
    cases axis <;> rfl
  rw [hscale, Scalar.max_exact, max_eq_left htime.le, Scale.setRange, Scale.orderedRange,
    if_pos htime.le]

/-- The time that belongs to a list key. -/
def timeOf (config : Config ℚ) (axis : Axis) (d : Drawing ℚ) (key : OrderKey) : ℚ :=
  ((d.timed config axis).sheet.grid.scale axis).location key

section Times

variable {d : Drawing ℚ} (htime : d.timeStart config axis < d.timeEnd config axis)

include htime

/-- The keys of the prepared time scale ascend. -/
lemma ascending_timed (hkeys : (d.sheet.grid.scale axis).Ascending) :
    ((d.timed config axis).sheet.grid.scale axis).Ascending := by
  rw [scale_timed htime]
  exact hkeys.foldl_addKey _

/-- The anchors of the prepared time scale are in the middles of their cells. -/
lemma centered_timed : ((d.timed config axis).sheet.grid.scale axis).Centered := by
  rw [scale_timed htime]
  exact Scale.centered_relocate _

/-- The keys of messages are registered on the prepared time scale. -/
lemma mem_keys_timed {key : OrderKey} (hkey : key ∈ d.showMessages.messageKeys) :
    key ∈ ((d.timed config axis).sheet.grid.scale axis).keys := by
  rw [scale_timed htime]
  exact Scale.mem_keys_foldl_addKey.mpr (Or.inl hkey)

/-- The prepared time scale spans the range of time. -/
lemma range_timed : ((d.timed config axis).sheet.grid.scale axis).lower = d.timeStart config axis ∧
    ((d.timed config axis).sheet.grid.scale axis).upper = d.timeEnd config axis := by
  rw [scale_timed htime]
  exact ⟨rfl, rfl⟩

/-- The times of messages are within the range of time. -/
lemma timeOf_within (hkeys : (d.sheet.grid.scale axis).Ascending) {key : OrderKey}
    (hkey : key ∈ d.showMessages.messageKeys) :
    d.timeStart config axis < d.timeOf config axis key ∧
      d.timeOf config axis key < d.timeEnd config axis := by
  obtain ⟨hlower, hupper⟩ := range_timed htime
  have hwithin := Scale.location_within (ascending_timed htime hkeys) (centered_timed htime)
    (by rw [hlower, hupper]; exact htime) (mem_keys_timed htime hkey)
  rw [hlower, hupper] at hwithin
  exact hwithin

/-- The times of messages are in the order of their list keys. -/
lemma timeOf_lt_timeOf (hkeys : (d.sheet.grid.scale axis).Ascending) {key key' : OrderKey}
    (hkey : key ∈ d.showMessages.messageKeys) (hkey' : key' ∈ d.showMessages.messageKeys)
    (hlt : key < key') :
    d.timeOf config axis key < d.timeOf config axis key' := by
  obtain ⟨hlower, hupper⟩ := range_timed htime
  exact Scale.location_lt_location (ascending_timed htime hkeys) (centered_timed htime)
    (by rw [hlower, hupper]; exact htime) (mem_keys_timed htime hkey) (mem_keys_timed htime hkey')
    hlt

end Times

/-- Routing messages gives each relationship its route at the time that was prepared. -/
lemma value_routeInTime {d : Drawing ℚ} (haxis : d.sheet.grid.kind.timeAxis = some axis) :
    (d.routeInTime config).value =
      { d.timed config axis with
        relationships := (d.timed config axis).relationships.map fun r =>
          ((d.timed config axis).routeMessage config axis r).value } := by
  unfold routeInTime
  rw [haxis]
  simp only [Guarded.value_bind, Guarded.value_pure, Guarded.value_mapM]
  rfl

/-- Routing messages keeps all boxes and the draw area. -/
lemma kept_routeInTime (config : Config ℚ) {d : Drawing ℚ}
    (haxis : d.sheet.grid.kind.timeAxis = some axis) :
    (d.routeInTime config).value.classifiers = d.classifiers ∧
      (d.routeInTime config).value.features = d.features ∧
      (d.routeInTime config).value.sheet.drawArea = d.sheet.drawArea := by
  rw [value_routeInTime haxis]
  exact ⟨rfl, rfl, rfl⟩

/-- The range of time depends on the heads and the draw area alone. -/
lemma timeRange_congr (config : Config ℚ) (axis : Axis) {d d' : Drawing ℚ}
    (hclassifiers : d'.classifiers = d.classifiers)
    (harea : d'.sheet.drawArea = d.sheet.drawArea) :
    d'.timeStart config axis = d.timeStart config axis ∧
      d'.timeEnd config axis = d.timeEnd config axis := by
  unfold timeStart timeEnd
  rw [hclassifiers, harea]
  exact ⟨rfl, rfl⟩

/-! ## Messages -/

/-- The feature at a position is a lifeline of a classifier that can have one. -/
def HasLifeline (d : Drawing ℚ) (index : ℕ) : Prop :=
  ∃ f owner, d.features[index]? = some f ∧ f.element.kind = .lifeline ∧
    d.classifiers[f.owner]? = some owner ∧ owner.element.kind.canHaveLifeline = true

/-- A relationship is drawn between two different lifelines of classifiers that can have them. -/
structure HasMessage (d : Drawing ℚ) (r : RoutedRelationship ℚ) (source target : ℕ) : Prop where
  mem : r ∈ d.relationships
  drawn : r.isDrawn = true
  sourceFeature : r.sourceFeature = some source
  targetFeature : r.targetFeature = some target
  distinct : source ≠ target
  hasSource : d.HasLifeline source
  hasTarget : d.HasLifeline target

/-- A message is at a time if it runs straight across at that time, behind all heads and while both
bars last. -/
structure MessageAt (d : Drawing ℚ) (axis : Axis) (r : RoutedRelationship ℚ) (source target : ℕ)
    (time : ℚ) : Prop where
  runs : r.route.RunsAt axis time (d.featureSymbol source) (d.featureSymbol target)
    r.element.kind.isCallOrFlow
  behind : ∀ head ∈ d.classifiers, head.boxes.symbol.endAlong axis < time
  sourceLasts : (d.featureSymbol source).LastsThrough axis time
  targetLasts : (d.featureSymbol target).LastsThrough axis time

/-- Every message is at the time of its list key, and times are in the order of the keys. -/
def MessagesInTime (d : Drawing ℚ) (axis : Axis) : Prop :=
  ∃ time : OrderKey → ℚ,
    (∀ r source target, d.HasMessage r source target →
      d.MessageAt axis r source target (time r.element.listKey)) ∧
    ∀ r source target r' source' target',
      d.HasMessage r source target → d.HasMessage r' source' target' →
        r.element.listKey < r'.element.listKey → time r.element.listKey < time r'.element.listKey

/-- Every lifeline begins at the far edge of a head and reaches the border of the draw area. -/
def LifelinesReach (config : Config ℚ) (axis : Axis) (d : Drawing ℚ) : Prop :=
  ∀ i, d.HasLifeline i →
    (∃ head ∈ d.classifiers,
      (d.featureSymbol i).startAlong axis = head.boxes.symbol.endAlong axis) ∧
    d.sheet.drawArea.endAlong axis - config.border ≤ (d.featureSymbol i).endAlong axis

section Routed

variable {d : Drawing ℚ} (hconfig : config.Usable)
  (hheads : ∀ c ∈ d.classifiers, c.boxes.symbol.isEmpty = false)

include hconfig hheads

/-- The range of time begins behind all heads. -/
lemma endAlong_lt_timeStart {head : PlacedClassifier ℚ} (hhead : head ∈ d.classifiers) :
    head.boxes.symbol.endAlong axis < d.timeStart config axis := by
  have hmem : head.boxes.symbol.endAlong axis ∈
      ((d.classifiers.map (·.boxes.symbol)).filter (!·.isEmpty)).map (·.endAlong axis) := by
    refine List.mem_map.mpr ⟨_, List.mem_filter.mpr ⟨List.mem_map.mpr ⟨_, hhead, rfl⟩, ?_⟩, rfl⟩
    simp [hheads head hhead]
  have hdistance := hconfig.distance
  exact (Scalar.le_maxFrom_of_mem hmem).trans_lt (lt_add_of_pos_right _ hdistance)

/-- A lifeline lasts through all of the range of time. -/
lemma lastsThrough_of_reach (hreach : d.LifelinesReach config axis) {i : ℕ}
    (hi : d.HasLifeline i) {time : ℚ} (hstart : d.timeStart config axis < time)
    (hstop : time < d.timeEnd config axis) : (d.featureSymbol i).LastsThrough axis time := by
  obtain ⟨⟨head, hhead, hbegins⟩, hends⟩ := hreach i hi
  have hbehind : head.boxes.symbol.endAlong axis < d.timeStart config axis :=
    endAlong_lt_timeStart hconfig hheads hhead
  have hdistance := hconfig.distance
  unfold timeEnd at hstop
  constructor
  · rw [hbegins]
    exact hbehind.trans hstart
  · linarith

end Routed

/-- Routing a message changes nothing but its route. -/
lemma unrouted_routeMessage (config : Config ℚ) (axis : Axis) (d : Drawing ℚ)
    (r : RoutedRelationship ℚ) :
    (d.routeMessage config axis r).value.unrouted = r.unrouted := by
  unfold routeMessage
  split <;> rfl

/-- A message between different lifelines is routed at the location of its list key. -/
lemma route_routeMessage (d : Drawing ℚ) {r : RoutedRelationship ℚ} {source target : ℕ}
    (hdrawn : r.isDrawn = true) (hsource : r.sourceFeature = some source)
    (htarget : r.targetFeature = some target) (hne : source ≠ target) :
    (d.routeMessage config axis r).value.route =
      (message axis (d.featureSymbol source) (d.featureSymbol target)
        ((d.sheet.grid.scale axis).location r.element.listKey)
        r.element.kind.isCallOrFlow).value := by
  unfold routeMessage
  rw [hdrawn, hsource, htarget]
  simp only [Guarded.value_bind, Guarded.value_pure, messageRoute, if_neg hne]

/-- A message has its route at the time of its list key, which is registered. -/
lemma HasMessage.routed {d : Drawing ℚ} (haxis : d.sheet.grid.kind.timeAxis = some axis)
    {r : RoutedRelationship ℚ} {source target : ℕ}
    (h : (d.routeInTime config).value.HasMessage r source target) :
    r.route = (message axis (d.featureSymbol source) (d.featureSymbol target)
        (d.timeOf config axis r.element.listKey) r.element.kind.isCallOrFlow).value ∧
      r.element.listKey ∈ d.showMessages.messageKeys := by
  have hmem := h.mem
  rw [value_routeInTime haxis] at hmem
  obtain ⟨r₀, hr₀, rfl⟩ := List.mem_map.mp hmem
  have hkept := unrouted_routeMessage config axis (d.timed config axis) r₀
  have helement := congrArg RoutedRelationship.element hkept
  have hdrawn : r₀.isDrawn = true := by
    rw [← h.drawn]
    exact (congrArg RoutedRelationship.isDrawn hkept).symm
  have hsource := (congrArg RoutedRelationship.sourceFeature hkept).symm.trans h.sourceFeature
  have htarget := (congrArg RoutedRelationship.targetFeature hkept).symm.trans h.targetFeature
  dsimp only [RoutedRelationship.unrouted] at helement
  rw [helement]
  refine ⟨route_routeMessage _ hdrawn hsource htarget h.distinct, ?_⟩
  exact List.mem_map.mpr ⟨r₀, List.mem_filter.mpr ⟨hr₀, hdrawn⟩, rfl⟩

/-- Lifelines that reach from a head to the border of the draw area have their messages in time. -/
theorem messagesInTime_routeInTime {d : Drawing ℚ} (hconfig : config.Usable)
    (haxis : d.sheet.grid.kind.timeAxis = some axis) (hkeys : (d.sheet.grid.scale axis).Ascending)
    (hheads : ∀ c ∈ d.classifiers, c.boxes.symbol.isEmpty = false)
    (hreach : d.LifelinesReach config axis)
    (htime : d.timeStart config axis < d.timeEnd config axis) :
    (d.routeInTime config).value.MessagesInTime axis := by
  obtain ⟨hclassifiers, hfeatures, -⟩ := kept_routeInTime config haxis
  have hsymbol : (d.routeInTime config).value.featureSymbol = d.featureSymbol := by
    funext i
    rw [featureSymbol, featureSymbol, hfeatures]
  refine ⟨d.timeOf config axis, ?_, ?_⟩
  · intro r source target hr
    obtain ⟨hroute, hkey⟩ := hr.routed haxis
    obtain ⟨hafter, hbefore⟩ := timeOf_within htime hkeys hkey
    have hlasts {i : ℕ} (hi : (d.routeInTime config).value.HasLifeline i) :=
      lastsThrough_of_reach hconfig hheads hreach
        (by simpa only [HasLifeline, hclassifiers, hfeatures] using hi) hafter hbefore
    constructor
    · rw [hroute, hsymbol]
      exact message_runsAt (hlasts hr.hasSource) (hlasts hr.hasTarget) _
    · intro head hhead
      rw [hclassifiers] at hhead
      exact (endAlong_lt_timeStart hconfig hheads hhead).trans hafter
    · rw [hsymbol]
      exact hlasts hr.hasSource
    · rw [hsymbol]
      exact hlasts hr.hasTarget
  · intro r source target r' source' target' hr hr' hlt
    exact timeOf_lt_timeOf htime hkeys (hr.routed haxis).2 (hr'.routed haxis).2 hlt

/-! ## To the end of the layout -/

/-- Moving names adds and removes no lifeline. -/
lemma Renames.hasLifeline {d d' : Drawing ℚ} (h : d.Renames d') {i : ℕ} (hi : d'.HasLifeline i) :
    d.HasLifeline i ∧ d'.featureSymbol i = d.featureSymbol i := by
  obtain ⟨f, owner, hf, hkind, howner, hcan⟩ := hi
  obtain ⟨f₀, hf₀, hsame⟩ := h.getElem?_features hf
  have helement := congrArg PlacedFeature.element hsame
  have hfowner := congrArg PlacedFeature.owner hsame
  have hsymbol := congrArg PlacedFeature.symbol hsame
  dsimp only [PlacedFeature.unnamed] at helement hfowner hsymbol
  refine ⟨⟨f₀, owner, hf₀, helement ▸ hkind, ?_, hcan⟩, ?_⟩
  · rw [hfowner, ← h.classifiers_eq]
    exact howner
  · simp only [featureSymbol, hf, hf₀, hsymbol]

/-- Moving names adds no message and moves none. -/
lemma Renames.hasMessage {d d' : Drawing ℚ} (h : d.Renames d') {r : RoutedRelationship ℚ}
    {source target : ℕ} (hr : d'.HasMessage r source target) :
    ∃ r₀, d.HasMessage r₀ source target ∧ r₀.element = r.element ∧ r₀.route = r.route := by
  obtain ⟨i, hi⟩ := List.mem_iff_getElem?.mp hr.mem
  obtain ⟨r₀, hr₀, hsame⟩ := h.getElem?_relationships hi
  have helement := congrArg RoutedRelationship.element hsame
  have hroute := congrArg RoutedRelationship.route hsame
  refine ⟨r₀, ⟨List.mem_of_getElem? hr₀, ?_, ?_, ?_, hr.distinct, (h.hasLifeline hr.hasSource).1,
    (h.hasLifeline hr.hasTarget).1⟩, helement, hroute⟩
  · exact (congrArg RoutedRelationship.isDrawn hsame).trans hr.drawn
  · exact (congrArg RoutedRelationship.sourceFeature hsame).trans hr.sourceFeature
  · exact (congrArg RoutedRelationship.targetFeature hsame).trans hr.targetFeature

/-- Moving names keeps messages in time. -/
lemma Renames.messagesInTime {d d' : Drawing ℚ} (h : d.Renames d') (hd : d.MessagesInTime axis) :
    d'.MessagesInTime axis := by
  obtain ⟨time, hat, horder⟩ := hd
  refine ⟨time, ?_, ?_⟩
  · intro r source target hr
    obtain ⟨r₀, hr₀, helement, hroute⟩ := h.hasMessage hr
    obtain ⟨hruns, hbehind, hsource, htarget⟩ := hat r₀ source target hr₀
    rw [helement, hroute] at hruns
    rw [helement] at hbehind hsource htarget
    have hsourceSymbol := (h.hasLifeline hr.hasSource).2
    have htargetSymbol := (h.hasLifeline hr.hasTarget).2
    refine ⟨?_, ?_, ?_, ?_⟩
    · rw [hsourceSymbol, htargetSymbol]
      exact hruns
    · rw [h.classifiers_eq]
      exact hbehind
    · rw [hsourceSymbol]
      exact hsource
    · rw [htargetSymbol]
      exact htarget
  · intro r source target r' source' target' hr hr' hlt
    obtain ⟨r₀, hr₀, helement, -⟩ := h.hasMessage hr
    obtain ⟨r₀', hr₀', helement', -⟩ := h.hasMessage hr'
    rw [← helement, ← helement'] at hlt ⊢
    exact horder r₀ source target r₀' source' target' hr₀ hr₀' hlt

/-- Lifelines that the feature step has placed reach from their heads to the border. -/
lemma lifelinesReach_layoutFeatures (m : Composer ℚ) {d : Drawing ℚ}
    (haxis : d.diagram.kind.gridKind.timeAxis = some axis) :
    (d.layoutFeatures m config).value.LifelinesReach config axis := by
  have hkept := refeatures_layoutFeatures m config d
  intro i hi
  obtain ⟨f, owner, hf, hkind, howner, hcan⟩ := hi
  obtain ⟨f₀, hf₀, hsame⟩ := getElem?_of_map_eq hkept.map_features.symm hf
  have helement : f₀.element = f.element := congrArg Prod.fst hsame
  have hfowner : f₀.owner = f.owner := congrArg Prod.snd hsame
  rw [hkept.classifiers_eq] at howner
  obtain ⟨f', hf', hbar⟩ := lifeline_layoutFeatures m config hf₀ (helement ▸ hkind)
    (hfowner ▸ howner)
  obtain rfl : f = f' := Option.some.inj (hf.symm.trans hf')
  have hsymbol :
      (d.layoutFeatures m config).value.featureSymbol i = lifelineBox config d owner := by
    rw [featureSymbol, hf]
    exact hbar
  obtain ⟨hbegins, hends⟩ := lifelineBar_along config d.sheet.drawArea
    owner.boxes.symbol haxis hcan
  rw [hsymbol, hkept.classifiers_eq, hkept.sheet_eq]
  exact ⟨⟨owner, List.mem_of_getElem? howner, hbegins⟩, hends⟩

/-- In a scenario features are placed in the drawing whose classifiers have been placed, and the
messages are routed in the drawing that has its features. -/
lemma complete_of_timed (m : Composer ℚ) (config : Config ℚ) {d : Drawing ℚ}
    (haxis : d.diagram.kind.gridKind.timeAxis = some axis) :
    d.furnished m config = ((d.layoutClassifiers m config).value.layoutFeatures m config).value ∧
      (d.complete m config).value =
        (((d.furnished m config).routeInTime config).value.layoutFeatureLabels m
          config).layoutRelationshipLabels m config := by
  have htimed : d.diagram.kind.hasTimeAxis = true := by
    rw [DiagramKind.hasTimeAxis_eq, haxis]
    rfl
  have hinit : d.initVisibility = d := if_pos htimed
  have hfurnished : d.furnished m config =
      ((d.layoutClassifiers m config).value.layoutFeatures m config).value := by
    rw [furnished, hinit]
  have hdiagram : (d.furnished m config).diagram = d.diagram := by
    rw [hfurnished, (refeatures_layoutFeatures m config _).diagram_eq,
      (redraws_layoutClassifiers m config d).diagram_eq]
    rfl
  refine ⟨hfurnished, ?_⟩
  rw [value_complete, routeAll, hdiagram, if_pos htimed]

end Drawing

/-- When messages are about to be routed, nothing is registered on the time scale and all lifelines
reach to the border. -/
lemma ElementSet.furnished_of_timed {m : Composer ℚ} {config : Config ℚ} {bounds : Rect ℚ}
    {s : ElementSet} {start : Drawing ℚ} {axis : Axis}
    (hresolved : Drawing.ofElements s bounds config = .ok start)
    (haxis : s.diagram.kind.gridKind.timeAxis = some axis) :
    (start.furnished m config).sheet.grid.kind.timeAxis = some axis ∧
      ((start.furnished m config).sheet.grid.scale axis).keys = [] ∧
      (start.furnished m config).LifelinesReach config axis := by
  obtain ⟨hdiagram, hsheet⟩ := Drawing.ofElements_eq_ok hresolved
  have haxisStart : start.diagram.kind.gridKind.timeAxis = some axis := by
    rw [hdiagram]
    exact haxis
  have hgrid : start.sheet.grid.kind.timeAxis = some axis := by
    rw [hsheet]
    exact haxis
  obtain ⟨hkind, hscale⟩ := Drawing.scale_registerKeys hgrid
  have hplaced := Drawing.redraws_layoutClassifiers m config start
  rw [(Drawing.complete_of_timed m config haxisStart).1,
    (Drawing.refeatures_layoutFeatures m config _).sheet_eq, hplaced.sheet_eq]
  refine ⟨?_, ?_, ?_⟩
  · rw [hkind]
    exact hgrid
  · rw [hscale, hsheet]
    cases axis <;> rfl
  · refine Drawing.lifelinesReach_layoutFeatures m ?_
    rw [hplaced.diagram_eq]
    exact haxisStart

/-- In every layout of a sequence or timing diagram whose heads have an area and whose range of time
has some length, messages are in time. -/
theorem ElementSet.layout_messagesInTime {m : Composer ℚ} {config : Config ℚ} {bounds : Rect ℚ}
    {s : ElementSet} {g : Guarded (Drawing ℚ)} {axis : Axis}
    (hlayout : s.layout m config bounds = .ok g)
    (haxis : s.diagram.kind.gridKind.timeAxis = some axis)
    (hheads : ∀ c ∈ g.value.classifiers, c.boxes.symbol.isEmpty = false)
    (htime : g.value.timeStart config axis < g.value.timeEnd config axis) :
    g.defined = true ∧ g.value.MessagesInTime axis := by
  obtain ⟨start, hprepare, rfl⟩ := exists_of_layout_eq_ok hlayout
  obtain ⟨hconfig, hresolved⟩ := prepare_eq_ok hprepare
  obtain ⟨hgrid, hkeys, hreach⟩ := furnished_of_timed (m := m) hresolved haxis
  have haxisStart : start.diagram.kind.gridKind.timeAxis = some axis := by
    rw [(Drawing.ofElements_eq_ok hresolved).1]
    exact haxis
  refine ⟨Drawing.defined_complete m start, ?_⟩
  rw [(Drawing.complete_of_timed m config haxisStart).2] at hheads htime ⊢
  generalize start.furnished m config = d at hgrid hkeys hreach hheads htime ⊢
  -- routing moves no head, and naming changes neither boxes nor lines
  obtain ⟨hclassifiers, -, harea⟩ := Drawing.kept_routeInTime config hgrid
  have hrenames := Drawing.renames_layoutLabels m config (d.routeInTime config).value
  obtain ⟨hstart, hstop⟩ := Drawing.timeRange_congr config axis
    (hrenames.classifiers_eq.trans hclassifiers)
    ((congrArg Sheet.drawArea hrenames.sheet_eq).trans harea)
  rw [hstart, hstop] at htime
  rw [hrenames.classifiers_eq, hclassifiers] at hheads
  have hascending : (d.sheet.grid.scale axis).Ascending := by
    rw [Scale.Ascending, hkeys]
    exact List.Pairwise.nil
  exact hrenames.messagesInTime
    (Drawing.messagesInTime_routeInTime hconfig hgrid hascending hheads hreach htime)

/-- Two objects in a sequence diagram, one of which calls the other and gets an answer. -/
def exchange : ElementSet where
  diagram := ⟨⟨1⟩, .sequence, ""⟩
  limits := .standard
  classifiers := [⟨⟨1⟩, .object, "", 0, 0, false⟩, ⟨⟨2⟩, .object, "", 1, 0, false⟩]
  features := [⟨⟨11⟩, ⟨1⟩, .lifeline, "", "", 0⟩, ⟨⟨12⟩, ⟨2⟩, .lifeline, "", "", 0⟩]
  relationships :=
    [⟨⟨22⟩, .returnCall, "", ⟨2⟩, ⟨1⟩, some ⟨12⟩, some ⟨11⟩, 7⟩,
      ⟨⟨21⟩, .dependency, "", ⟨1⟩, ⟨2⟩, some ⟨11⟩, some ⟨12⟩, 3⟩]

/-- The sheet of the two objects. -/
def exchangeBounds : Rect ℚ := .ofCorner 0 0 600 400

/-- The drawing of the two objects before anything is computed. -/
def exchangeStart : Drawing ℚ where
  diagram := exchange.diagram
  sheet := .ofBounds exchangeBounds .standard .timeY
  nesting := .ofElements exchange 4
  classifiers := exchange.classifiers.map (⟨·, .unplaced⟩)
  features :=
    [⟨⟨⟨11⟩, ⟨1⟩, .lifeline, "", "", 0⟩, 0, .empty, .empty, .center⟩,
      ⟨⟨⟨12⟩, ⟨2⟩, .lifeline, "", "", 0⟩, 1, .empty, .empty, .center⟩]
  relationships :=
    [⟨⟨⟨22⟩, .returnCall, "", ⟨2⟩, ⟨1⟩, some ⟨12⟩, some ⟨11⟩, 7⟩, 1, 0, some 1, some 0, .collapsed,
        .shown, .empty⟩,
      ⟨⟨⟨21⟩, .dependency, "", ⟨1⟩, ⟨2⟩, some ⟨11⟩, some ⟨12⟩, 3⟩, 0, 1, some 0, some 1, .collapsed,
        .shown, .empty⟩]

set_option maxRecDepth 100000 in
/-- Both messages of the two objects are drawn, and they are in time. -/
theorem layout_messagesInTime_exchange :
    exchange.diagram.kind.gridKind.timeAxis = some .y ∧
      ∃ g, exchange.layout (.ofConfig .standard) .standard exchangeBounds = .ok g ∧
        (∀ c ∈ g.value.classifiers, c.boxes.symbol.isEmpty = false) ∧
        g.value.timeStart .standard .y < g.value.timeEnd .standard .y ∧
        g.value.relationships.map (·.isDrawn) = [true, true] ∧
        g.defined = true ∧ g.value.MessagesInTime .y := by
  have hprepare : exchange.prepare .standard exchangeBounds = .ok exchangeStart := by
    decide +kernel
  have hlayout := ElementSet.layout_eq_ok hprepare (.ofConfig .standard)
  have hheads : ∀ c ∈ (exchangeStart.complete (.ofConfig .standard) .standard).value.classifiers,
      c.boxes.symbol.isEmpty = false := by decide +kernel
  have htime :
      (exchangeStart.complete (.ofConfig .standard) .standard).value.timeStart .standard .y <
        (exchangeStart.complete (.ofConfig .standard) .standard).value.timeEnd .standard .y := by
    decide +kernel
  exact ⟨rfl, _, hlayout, hheads, htime, by decide +kernel,
    ElementSet.layout_messagesInTime hlayout rfl hheads htime⟩

end DiagramLayout
