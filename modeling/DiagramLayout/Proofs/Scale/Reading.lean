import DiagramLayout.Proofs.Scale.Locating
import Mathlib.Algebra.Order.Round

/-!
# The key at a location

Reading a scale is the reverse of locating keys. Between two neighbours the position of a location
on the line through them is rounded to the nearest key; since the line rises evenly, that is the key
whose location is nearest (`Scale.Sound.interpolatedKey_nearest`). Beyond the first and the last
anchor an extreme key is read, and no other one is nearer. A location that is near enough to an
anchor is read as the nearest anchor instead, which makes two kinds of nearest key
(`Scale.IsBuilt.keyAt_nearest`). The key that is nearest never falls when the location rises, and
neither does the nearest anchor; where the one takes over from the other, the anchor is on the right
side of the location, so that reading never inverts the order of two locations
(`Scale.IsBuilt.keyAt_mono`).
-/

namespace DiagramLayout

/-! ## Rounding to the nearest key -/

namespace OrderKey

/-- No integer is nearer to a number than the one it is rounded to. -/
lemma abs_round_sub_le (x : ℚ) (n : ℤ) : |(Exact.round x : ℚ) - x| ≤ |(n : ℚ) - x| := by
  unfold Exact.round
  split_ifs with hx
  · -- below zero the mirrored number is rounded
    have hmirror : (-x + 1 / 2).floor = round (-x) := (round_eq (-x)).symm
    have hnear := round_le (-x) (-n)
    rw [hmirror]
    push_cast at hnear ⊢
    rw [abs_sub_comm, abs_sub_comm (n : ℚ), ← neg_sub_neg, ← abs_neg, ← abs_neg (x - n)]
    have hleft : -(-(-(round (-x) : ℚ)) - -x) = -x - round (-x) := by ring
    have hright : -(x - (n : ℚ)) = -x - -n := by ring
    rw [hleft, hright]
    exact hnear
  · have hround : (x + 1 / 2).floor = round x := (round_eq x).symm
    have hnear := round_le x n
    rw [hround, abs_sub_comm, abs_sub_comm (n : ℚ)]
    exact hnear

/-- A number is not rounded past an integer below it. -/
lemma le_round {x : ℚ} {n : ℤ} (h : (n : ℚ) ≤ x) : n ≤ Exact.round x := by
  by_contra hlt
  have hbelow : ((Exact.round x : ℤ) : ℚ) + 1 ≤ n := by exact_mod_cast not_le.mp hlt
  have hnear := abs_round_sub_le x n
  rw [abs_of_nonpos (by linarith), abs_of_nonpos (by linarith)] at hnear
  linarith

/-- A number is not rounded past an integer above it. -/
lemma round_le_of_le {x : ℚ} {n : ℤ} (h : x ≤ n) : Exact.round x ≤ n := by
  by_contra hlt
  have habove : (n : ℚ) + 1 ≤ (Exact.round x : ℤ) := by exact_mod_cast not_le.mp hlt
  have hnear := abs_round_sub_le x n
  rw [abs_of_nonneg (by linarith), abs_of_nonneg (by linarith)] at hnear
  linarith

/-- An integer that is the number of some key is the number of the key nearest to it. -/
lemma toInt_nearest {n : ℤ} (hlow : least.toInt ≤ n) (hhigh : n ≤ greatest.toInt) :
    (nearest n).toInt = n := by
  unfold nearest
  rw [if_neg (not_lt.mpr hlow), if_neg (not_lt.mpr hhigh)]
  have hleast : least.toInt = -2 ^ 31 := rfl
  have hgreatest : greatest.toInt = 2 ^ 31 - 1 := rfl
  exact Int32.toInt_ofInt_of_le (hleast ▸ hlow) (by omega)

/-- The key nearest to a number between two keys is between them, and no integer is nearer. -/
lemma nearestKey_between {p q : OrderKey} {position : ℚ} (hleft : (p.toInt : ℚ) ≤ position)
    (hright : position ≤ q.toInt) :
    p ≤ Scalar.nearestKey position ∧ Scalar.nearestKey position ≤ q ∧
      ∀ n : ℤ, |((Scalar.nearestKey position).toInt : ℚ) - position| ≤ |(n : ℚ) - position| := by
  have hlow := le_round hleft
  have hhigh := round_le_of_le hright
  have hinner : (Scalar.nearestKey position).toInt = Exact.round position :=
    toInt_nearest ((Int32.le_iff_toInt_le.mp (Int32.minValue_le p)).trans hlow)
      (hhigh.trans (Int32.le_iff_toInt_le.mp (Int32.le_maxValue q)))
  refine ⟨Int32.le_iff_toInt_le.mpr ?_, Int32.le_iff_toInt_le.mpr ?_, fun n => ?_⟩
  · rwa [hinner]
  · rwa [hinner]
  · rw [hinner]
    exact abs_round_sub_le position n

/-- Numbers up to the least key are rounded to it. -/
lemma nearestKey_of_le_least {position : ℚ} (h : position ≤ least.toInt) :
    Scalar.nearestKey position = least := by
  have hround := round_le_of_le h
  change nearest (Exact.round position) = least
  rcases hround.lt_or_eq with hlt | heq
  · exact if_pos hlt
  · rw [heq]
    rfl

end OrderKey

namespace Scale

/-! ## Reading between neighbours -/

/-- The position of a location on the line through two anchors. -/
def positionOn (p q : OrderKey × ℚ) (location : ℚ) : ℚ :=
  p.1.toInt + (location - p.2) / (q.2 - p.2) * (q.1.toInt - p.1.toInt)

section Line

variable {p q : OrderKey × ℚ} (hkeys : p.1 < q.1) (hlocations : p.2 < q.2)

include hkeys hlocations

/-- A location is the one that belongs to its position. -/
lemma onLine_positionOn (location : ℚ) : onLine p q (positionOn p q location) = location := by
  have hkeysNe : (q.1.toInt : ℚ) - p.1.toInt ≠ 0 := (sub_pos.mpr (OrderKey.cast_lt.mpr hkeys)).ne'
  have hlocationsNe : q.2 - p.2 ≠ 0 := (sub_pos.mpr hlocations).ne'
  unfold onLine positionOn
  rw [add_sub_cancel_left, mul_div_cancel_right₀ _ hkeysNe, div_mul_cancel₀ _ hlocationsNe,
    add_sub_cancel]

/-- A location between two anchors has its position between their keys. -/
lemma positionOn_between {location : ℚ} (hleft : p.2 ≤ location) (hright : location ≤ q.2) :
    (p.1.toInt : ℚ) ≤ positionOn p q location ∧ positionOn p q location ≤ q.1.toInt := by
  have hrises := onLine_strictMono hkeys hlocations
  constructor
  · rwa [← hrises.le_iff_le, onLine_left, onLine_positionOn hkeys hlocations]
  · rwa [← hrises.le_iff_le, onLine_right hkeys, onLine_positionOn hkeys hlocations]

/-- On a line that rises, what is nearer by position is nearer by location. -/
lemma abs_onLine_sub_le {location v w : ℚ}
    (h : |v - positionOn p q location| ≤ |w - positionOn p q location|) :
    |onLine p q v - location| ≤ |onLine p q w - location| := by
  have hdistance (u : ℚ) : |onLine p q u - location| =
      |u - positionOn p q location| * |(q.2 - p.2) / (q.1.toInt - p.1.toInt)| := by
    rw [← abs_mul, ← onLine_sub_onLine, onLine_positionOn hkeys hlocations]
  rw [hdistance, hdistance]
  exact mul_le_mul_of_nonneg_right h (abs_nonneg _)

end Line

/-- A number that is at least as near to the greater of two others is in its half. -/
lemma middle_le_of_nearer {a b x : ℚ} (hab : a < b) (h : |b - x| ≤ |a - x|) : a + b ≤ 2 * x := by
  by_contra hless
  have hnear : |a - x| < b - x := abs_lt.mpr ⟨by linarith, by linarith⟩
  exact absurd (h.trans_lt hnear) (not_lt.mpr (le_abs_self _))

/-- A number that is at least as near to the smaller of two others is in its half. -/
lemma le_middle_of_nearer {a b x : ℚ} (hab : a < b) (h : |a - x| ≤ |b - x|) : 2 * x ≤ a + b := by
  have hmirror := middle_le_of_nearer (x := -x) (neg_lt_neg hab) (by
    rwa [neg_sub_neg, neg_sub_neg, abs_sub_comm, abs_sub_comm x])
  linarith

/-- Reading passes over the anchors in front of a smaller location. -/
lemma keyBetween_append {location : ℚ} {p : OrderKey × ℚ} {before after : List (OrderKey × ℚ)}
    (hclimbing : Climbing (before ++ p :: after)) (hlocation : p.2 < location) :
    keyBetween location (before ++ p :: after) = keyBetween location (p :: after) := by
  induction before with
  | nil => rfl
  | cons r before ih =>
    have htail : Climbing (before ++ p :: after) := (List.pairwise_cons.mp hclimbing).2
    rw [← ih htail]
    rcases before with _ | ⟨t, before⟩
    · exact if_neg (not_le.mpr hlocation)
    · have ht : t.2 < p.2 := ((List.pairwise_append.mp htail).2.2 t List.mem_cons_self p
        List.mem_cons_self).2
      exact if_neg (not_le.mpr (ht.trans hlocation))

/-- Behind the first of two neighbours and up to the second one the position is rounded. -/
lemma keyBetween_of_adjacent {anchors : List (OrderKey × ℚ)} {p q : OrderKey × ℚ}
    (hclimbing : Climbing anchors) (h : Adjacent anchors p q) {location : ℚ}
    (hleft : p.2 < location) (hright : location ≤ q.2) :
    keyBetween location anchors = Scalar.nearestKey (positionOn p q location) := by
  obtain ⟨before, after, rfl⟩ := h
  obtain ⟨keyA, a⟩ := p
  obtain ⟨keyB, b⟩ := q
  rw [keyBetween_append hclimbing hleft, keyBetween, if_pos hright,
    if_neg (not_le.mpr (hleft.trans_le hright))]
  rfl

/-- Behind all anchors the greatest key is read. -/
lemma keyBetween_of_behind {location : ℚ} {anchors : List (OrderKey × ℚ)}
    (h : ∀ p ∈ anchors, p.2 < location) : keyBetween location anchors = .greatest := by
  induction anchors with
  | nil => rfl
  | cons p anchors ih =>
    have hrest : ∀ q ∈ anchors, q.2 < location := fun q hq => h q (List.mem_cons_of_mem p hq)
    rcases anchors with _ | ⟨q, anchors⟩
    · rfl
    · rw [keyBetween, if_neg (not_le.mpr (hrest q List.mem_cons_self))]
      exact ih hrest

/-- Up to the first anchor the least key is read, if the anchor is its. -/
lemma keyBetween_of_before {location a : ℚ} {q : OrderKey × ℚ} {rest : List (OrderKey × ℚ)}
    (hclimbing : Climbing ((.least, a) :: q :: rest)) (hlocation : location ≤ a) :
    keyBetween location ((.least, a) :: q :: rest) = .least := by
  obtain ⟨hkeys, hlocations⟩ := (List.pairwise_cons.mp hclimbing).1 q List.mem_cons_self
  have hposition : positionOn (.least, a) q location ≤ OrderKey.least.toInt := by
    have hrises := onLine_strictMono hkeys hlocations
    rw [← hrises.le_iff_le, onLine_positionOn hkeys hlocations]
    exact hlocation.trans_eq (onLine_left (.least, a) q).symm
  rw [keyBetween, if_pos (hlocation.trans hlocations.le), if_neg (not_le.mpr hlocations)]
  exact OrderKey.nearestKey_of_le_least hposition

/-- Over a range without length the extreme keys are read on its sides. -/
lemma interpolatedKey_of_level {s : Scale ℚ} (hlevel : s.lower = s.upper) (location : ℚ) :
    s.interpolatedKey location = if location ≤ s.upper then .least else .greatest := by
  rw [interpolatedKey, hlevel]
  split_ifs with hlow hhigh
  · rfl
  · rfl
  · exact absurd (not_le.mp hlow).le hhigh

namespace Sound

variable {s : Scale ℚ} (hs : s.Sound)

include hs

/-! ## The nearest of all keys -/

/-- Up to the location of the least key no other key is nearer. -/
lemma least_nearest {location : ℚ} (hlocation : location ≤ s.location .least) (key : OrderKey) :
    |s.location .least - location| ≤ |s.location key - location| := by
  have hmono := hs.location_mono (Int32.minValue_le key)
  exact abs_le_abs_of_nonneg (by linarith) (by linarith)

/-- From the location of the greatest key on no other key is nearer. -/
lemma greatest_nearest {location : ℚ} (hlocation : s.location .greatest ≤ location)
    (key : OrderKey) : |s.location .greatest - location| ≤ |s.location key - location| := by
  have hmono := hs.location_mono (Int32.le_maxValue key)
  exact abs_le_abs_of_nonpos (by linarith) (by linarith)

section Climbing

variable (hrange : s.lower < s.upper)

include hrange

/-- Between two neighbours no key is nearer than the one at the rounded position. -/
lemma nearestKey_nearest {p q : OrderKey × ℚ} (hadjacent : Adjacent s.anchorsWithEnds p q)
    {location : ℚ} (hleft : p.2 ≤ location) (hright : location ≤ q.2) (key : OrderKey) :
    |s.location (Scalar.nearestKey (positionOn p q location)) - location| ≤
      |s.location key - location| := by
  obtain ⟨hkeys, hlocations⟩ := hadjacent.climbs (hs.climbing hrange)
  obtain ⟨hlow, hhigh⟩ := positionOn_between hkeys hlocations hleft hright
  obtain ⟨hafter, hbefore, hnear⟩ := OrderKey.nearestKey_between hlow hhigh
  have hinside {k : OrderKey} (hk : p.1 ≤ k) (hk' : k ≤ q.1) :
      |s.location (Scalar.nearestKey (positionOn p q location)) - location| ≤
        |s.location k - location| := by
    rw [hs.location_eq hrange hadjacent hafter hbefore, hs.location_eq hrange hadjacent hk hk']
    exact abs_onLine_sub_le hkeys hlocations (hnear k.toInt)
  have hpq := Int32.le_of_lt hkeys
  by_cases hk : p.1 ≤ key
  · by_cases hk' : key ≤ q.1
    · exact hinside hk hk'
    · -- the key is behind the second neighbour, which is nearer
      have hmono := hs.location_mono (Int32.le_of_lt (Int32.not_le.mp hk'))
      have hq := hs.location_of_mem hadjacent.right_mem
      exact (hinside hpq (Int32.le_refl _)).trans
        (abs_le_abs_of_nonneg (by linarith) (by linarith))
  · -- the key is in front of the first neighbour, which is nearer
    have hmono := hs.location_mono (Int32.le_of_lt (Int32.not_le.mp hk))
    have hp := hs.location_of_mem hadjacent.left_mem
    exact (hinside (Int32.le_refl _) hpq).trans
      (abs_le_abs_of_nonpos (by linarith) (by linarith))

/-- No key is nearer than the one that is read among the anchors. -/
lemma keyBetween_nearest (location : ℚ) (key : OrderKey) :
    |s.location (keyBetween location s.anchorsWithEnds) - location| ≤
      |s.location key - location| := by
  have hclimbing := hs.climbing hrange
  obtain ⟨a, rest, hanchors, b, hlast⟩ := hs.exists_anchorsWithEnds_cons
  have hfirst : (OrderKey.least, a) ∈ s.anchorsWithEnds := hanchors ▸ List.mem_cons_self
  by_cases hbefore : location ≤ a
  · have hleast : keyBetween location s.anchorsWithEnds = .least := by
      rw [hanchors] at hclimbing ⊢
      obtain ⟨q, rest, rfl⟩ := List.exists_cons_of_ne_nil (List.ne_nil_of_mem hlast)
      exact keyBetween_of_before hclimbing hbefore
    rw [hleast]
    exact hs.least_nearest (hbefore.trans_eq (hs.location_of_mem hfirst).symm) key
  · by_cases hlater : ∃ q ∈ rest, location ≤ q.2
    · obtain ⟨p, q, hadjacent, hp, hq⟩ :=
        exists_adjacent (P := fun p => location ≤ p.2) (.least, a) hbefore hlater
      rw [← hanchors] at hadjacent
      rw [keyBetween_of_adjacent hclimbing hadjacent (not_le.mp hp) hq]
      exact hs.nearestKey_nearest hrange hadjacent (not_le.mp hp).le hq key
    · push Not at hlater
      have hbehind : ∀ p ∈ s.anchorsWithEnds, p.2 < location := by
        rw [hanchors]
        exact List.forall_mem_cons.mpr ⟨not_le.mp hbefore, hlater⟩
      have hmem : (OrderKey.greatest, b) ∈ s.anchorsWithEnds :=
        hanchors ▸ List.mem_cons_of_mem _ hlast
      rw [keyBetween_of_behind hbehind]
      exact hs.greatest_nearest ((hs.location_of_mem hmem).trans_le (hbehind _ hmem).le) key

/-- Over a range of some length no key is nearer than the one that is read where no anchor is near
enough. -/
theorem interpolatedKey_nearest (location : ℚ) (key : OrderKey) :
    |s.location (s.interpolatedKey location) - location| ≤ |s.location key - location| := by
  unfold interpolatedKey
  split_ifs with hlow hhigh
  · exact hs.least_nearest (hlow.trans (hs.location_within_range .least).1) key
  · exact hs.greatest_nearest ((hs.location_within_range .greatest).2.trans hhigh) key
  · exact hs.keyBetween_nearest hrange location key

/-- Different keys have different locations. -/
lemma eq_of_location_eq {key key' : OrderKey} (h : s.location key = s.location key') :
    key = key' := by
  by_contra hne
  rcases Int32.lt_or_lt_of_ne hne with hlt | hlt
  · exact absurd h (hs.location_strictMono hrange hlt).ne
  · exact absurd h (hs.location_strictMono hrange hlt).ne'

/-- If each of two keys is at least as near to a location as the other one, the key of the smaller
location is not the greater one. -/
lemma le_of_nearer {key key' : OrderKey} {x y : ℚ} (hxy : x < y)
    (hx : |s.location key - x| ≤ |s.location key' - x|)
    (hy : |s.location key' - y| ≤ |s.location key - y|) : key ≤ key' := by
  by_contra hnot
  have hlt := hs.location_strictMono hrange (Int32.not_le.mp hnot)
  have hupper := middle_le_of_nearer hlt hx
  have hlower := le_middle_of_nearer hlt hy
  linarith

end Climbing

end Sound

/-! ## The nearest anchor -/

/-- A registered key is the one whose anchor is nearest to a location, the smallest one on a tie. -/
structure IsNearest (s : Scale ℚ) (location : ℚ) (key : OrderKey) : Prop where
  mem : key ∈ s.keys
  nearest : ∀ k ∈ s.keys, |s.location key - location| ≤ |s.location k - location|
  first : ∀ k ∈ s.keys, |s.location k - location| = |s.location key - location| → key ≤ k

/-- Where the keys in front of a registered one are further away and the keys behind it are not
nearer, its anchor is the nearest. -/
lemma isNearest_of_split {s : Scale ℚ} (h : s.Ascending) {location : ℚ} {key : OrderKey}
    {before after : List OrderKey} (hkeys : s.keys = before ++ key :: after)
    (hbefore : ∀ k ∈ before, |s.location key - location| < |s.location k - location|)
    (hafter : ∀ k ∈ after, |s.location key - location| ≤ |s.location k - location|) :
    s.IsNearest location key := by
  rw [Ascending, hkeys] at h
  have hbehind := (List.pairwise_cons.mp (List.pairwise_append.mp h).2.1).1
  refine ⟨?_, fun k hk => ?_, fun k hk htie => ?_⟩
  · rw [hkeys]
    exact List.mem_append_right _ List.mem_cons_self
  · rw [hkeys, List.mem_append, List.mem_cons] at hk
    rcases hk with hk | rfl | hk
    · exact (hbefore k hk).le
    · exact le_rfl
    · exact hafter k hk
  · rw [hkeys, List.mem_append, List.mem_cons] at hk
    rcases hk with hk | rfl | hk
    · exact absurd htie (hbefore k hk).ne'
    · exact Int32.le_refl _
    · exact Int32.le_of_lt (hbehind k hk)

namespace Sound

variable {s : Scale ℚ} (hs : s.Sound)

include hs

/-- Each anchor is that of a key with its location. -/
lemma anchors_eq : s.anchors = s.keys.map fun key => (key, s.location key) := by
  have hkeys : s.anchors.map Prod.fst = s.keys := by
    rw [anchors, List.map_fst_zip hs.centered.length_locations.ge]
  rw [← hkeys, List.map_map]
  refine (List.map_id' _).symm.trans (List.map_congr_left fun p hp => ?_)
  have hmem : p ∈ s.anchorsWithEnds := List.mem_append_left _ (List.mem_append_right _ hp)
  exact Prod.ext rfl (hs.location_of_mem hmem).symm

/-- The search finds the nearest anchor with its distance. -/
lemma exists_nearestAnchor (hsome : s.keys ≠ []) (location : ℚ) :
    ∃ key, s.IsNearest location key ∧
      s.nearestAnchor location = some (key, |s.location key - location|) := by
  have hmeasured : s.nearestAnchor location =
      Scalar.leastBy Prod.snd (s.keys.map fun key => (key, |s.location key - location|)) := by
    rw [nearestAnchor, hs.anchors_eq, List.map_map]
    refine congrArg _ (List.map_congr_left fun key _ => ?_)
    exact Prod.ext rfl (Scalar.abs_exact _)
  have hmap : (s.keys.map fun key => (key, |s.location key - location|)) ≠ [] :=
    fun hnil => hsome (List.map_eq_nil_iff.mp hnil)
  obtain ⟨before, found, after, hsplit, hfound, hbefore, hafter⟩ :=
    Scalar.exists_leastBy Prod.snd hmap
  obtain ⟨keysBefore, rest, hkeys, rfl, hrest⟩ := List.map_eq_append_iff.mp hsplit
  obtain ⟨key, keysAfter, rfl, rfl, rfl⟩ := List.map_eq_cons_iff.mp hrest
  refine ⟨key, isNearest_of_split hs.ascending hkeys (fun k hk => ?_) fun k hk => ?_,
    hmeasured.trans hfound⟩
  · exact hbefore _ (List.mem_map_of_mem hk)
  · exact hafter _ (List.mem_map_of_mem hk)

/-- Near enough to an anchor the key of the nearest anchor is read. -/
lemma keyAt_of_near {location snap : ℚ} (hnear : ∃ k ∈ s.keys, |s.location k - location| ≤ snap) :
    s.IsNearest location (s.keyAt location snap) := by
  obtain ⟨k, hk, hle⟩ := hnear
  obtain ⟨key, hnearest, hfound⟩ := hs.exists_nearestAnchor (List.ne_nil_of_mem hk) location
  have hread : s.keyAt location snap = key := by
    rw [keyAt, hfound]
    exact if_pos ((hnearest.nearest k hk).trans hle)
  rw [hread]
  exact hnearest

/-- Away from all anchors it does not matter which one is the nearest. -/
lemma keyAt_of_far {location snap : ℚ} (hfar : ∀ k ∈ s.keys, snap < |s.location k - location|) :
    s.keyAt location snap = s.interpolatedKey location := by
  by_cases hsome : s.keys = []
  · have hnone : s.nearestAnchor location = none := by
      rw [nearestAnchor, hs.anchors_eq, hsome]
      rfl
    rw [keyAt, hnone]
  · obtain ⟨key, hnearest, hfound⟩ := hs.exists_nearestAnchor hsome location
    rw [keyAt, hfound]
    exact if_neg (not_le.mpr (hfar key hnearest.mem))

/-- Over a range of some length a key that is nearest to the location of another one is that key. -/
lemma eq_of_nearest (hrange : s.lower < s.upper) {key key' : OrderKey}
    (h : |s.location key' - s.location key| ≤ |s.location key - s.location key|) : key' = key := by
  rw [sub_self, abs_zero] at h
  exact hs.eq_of_location_eq hrange (sub_eq_zero.mp (abs_nonpos_iff.mp h))

/-! ## Reading keeps the order -/

/-- A key whose location is smaller is not greater than the one that is read. -/
lemma le_interpolatedKey {key : OrderKey} {y : ℚ} (hy : s.location key < y) :
    key ≤ s.interpolatedKey y := by
  rcases hs.ordered.lt_or_eq with hrange | hlevel
  · by_contra hnot
    -- the greater one of two keys in front of a location is the nearer one
    have hlt := hs.location_strictMono hrange (Int32.not_le.mp hnot)
    have hhalf := le_middle_of_nearer hlt (hs.interpolatedKey_nearest hrange y key)
    linarith
  · rw [hs.location_of_level hlevel] at hy
    rw [interpolatedKey_of_level hlevel, if_neg (not_le.mpr hy)]
    exact Int32.le_maxValue key

/-- A key whose location is greater is not smaller than the one that is read. -/
lemma interpolatedKey_le {key : OrderKey} {x : ℚ} (hx : x < s.location key) :
    s.interpolatedKey x ≤ key := by
  rcases hs.ordered.lt_or_eq with hrange | hlevel
  · by_contra hnot
    have hlt := hs.location_strictMono hrange (Int32.not_le.mp hnot)
    have hhalf := middle_le_of_nearer hlt (hs.interpolatedKey_nearest hrange x key)
    linarith
  · rw [hs.location_of_level hlevel] at hx
    rw [interpolatedKey_of_level hlevel, if_pos hx.le]
    exact Int32.minValue_le key

/-- Away from all anchors reading keeps the order. -/
lemma interpolatedKey_mono {x y : ℚ} (hxy : x < y) : s.interpolatedKey x ≤ s.interpolatedKey y := by
  rcases hs.ordered.lt_or_eq with hrange | hlevel
  · exact hs.le_of_nearer hrange hxy (hs.interpolatedKey_nearest hrange x _)
      (hs.interpolatedKey_nearest hrange y _)
  · rw [interpolatedKey_of_level hlevel, interpolatedKey_of_level hlevel]
    split_ifs with hx hy hy
    · exact Int32.le_refl _
    · exact Int32.minValue_le _
    · exact absurd (hxy.le.trans hy) hx
    · exact Int32.le_refl _

/-- The nearest anchor to a greater location does not have a smaller key. -/
lemma nearest_mono {x y : ℚ} (hxy : x < y) {key key' : OrderKey} (hx : s.IsNearest x key)
    (hy : s.IsNearest y key') : key ≤ key' := by
  rcases hs.ordered.lt_or_eq with hrange | hlevel
  · exact hs.le_of_nearer hrange hxy (hx.nearest key' hy.mem) (hy.nearest key hx.mem)
  · -- all anchors are equally near, so the first one is the nearest to both locations
    refine hx.first key' hy.mem ?_
    rw [hs.location_of_level hlevel, hs.location_of_level hlevel]

/-- Reading keeps the order of locations. -/
theorem keyAt_mono_of_lt (snap : ℚ) {x y : ℚ} (hxy : x < y) : s.keyAt x snap ≤ s.keyAt y snap := by
  by_cases hx : ∃ k ∈ s.keys, |s.location k - x| ≤ snap
  · have hnearX := hs.keyAt_of_near hx
    by_cases hy : ∃ k ∈ s.keys, |s.location k - y| ≤ snap
    · exact hs.nearest_mono hxy hnearX (hs.keyAt_of_near hy)
    · push Not at hy
      obtain ⟨k, hk, hle⟩ := hx
      have hwithin := (hnearX.nearest k hk).trans hle
      have hbeyond := hy _ hnearX.mem
      rw [hs.keyAt_of_far hy]
      -- an anchor behind `y` would be nearer to `y` than to `x`
      refine hs.le_interpolatedKey (not_le.mp fun hbehind => ?_)
      rw [abs_of_nonneg (by linarith)] at hwithin hbeyond
      linarith
  · push Not at hx
    rw [hs.keyAt_of_far hx]
    by_cases hy : ∃ k ∈ s.keys, |s.location k - y| ≤ snap
    · have hnearY := hs.keyAt_of_near hy
      obtain ⟨k, hk, hle⟩ := hy
      have hwithin := (hnearY.nearest k hk).trans hle
      have hbeyond := hx _ hnearY.mem
      -- an anchor in front of `x` would be nearer to `x` than to `y`
      refine hs.interpolatedKey_le (not_le.mp fun hbefore => ?_)
      rw [abs_of_nonpos (by linarith)] at hwithin hbeyond
      linarith
    · push Not at hy
      rw [hs.keyAt_of_far hy]
      exact hs.interpolatedKey_mono hxy

end Sound

/-! ## Reading built scales -/

/-- On a scale that can be built, over a range of some length, a location near enough to an anchor
is read as the nearest anchor, the smallest one on a tie, and any other location as a key such that
no other key is nearer. So registered keys are read at their own locations, and so are keys that no
anchor is near enough to. -/
theorem IsBuilt.keyAt_nearest {s : Scale ℚ} (h : s.IsBuilt) (hrange : s.lower < s.upper)
    (snap : ℚ) :
    s.anchors = s.keys.map (fun key => (key, s.location key)) ∧
      (∀ location, (∃ k ∈ s.keys, |s.location k - location| ≤ snap) →
        s.IsNearest location (s.keyAt location snap)) ∧
      (∀ location, (∀ k ∈ s.keys, snap < |s.location k - location|) →
        ∀ key, |s.location (s.keyAt location snap) - location| ≤ |s.location key - location|) ∧
      (∀ key ∈ s.keys, 0 ≤ snap → s.keyAt (s.location key) snap = key) ∧
      ∀ key, (∀ k ∈ s.keys, snap < |s.location k - s.location key|) →
        s.keyAt (s.location key) snap = key := by
  have hs := h.sound
  have hfree (location : ℚ) (hfar : ∀ k ∈ s.keys, snap < |s.location k - location|)
      (key : OrderKey) :
      |s.location (s.keyAt location snap) - location| ≤ |s.location key - location| := by
    rw [hs.keyAt_of_far hfar]
    exact hs.interpolatedKey_nearest hrange location key
  refine ⟨hs.anchors_eq, fun location hnear => hs.keyAt_of_near hnear, hfree,
    fun key hkey hsnap => ?_, fun key hfar => ?_⟩
  · have hself : ∃ k ∈ s.keys, |s.location k - s.location key| ≤ snap := by
      refine ⟨key, hkey, ?_⟩
      rwa [sub_self, abs_zero]
    exact hs.eq_of_nearest hrange ((hs.keyAt_of_near hself).nearest key hkey)
  · exact hs.eq_of_nearest hrange (hfree _ hfar key)

/-- A scale with three keys, a hundred apart. -/
def threeKeyScale : Scale ℚ := built 0 300 threeKeys

/-- Of two anchors that are equally near the smaller one is read, unless they are too far away. -/
theorem keyAt_nearest_threeKeyScale :
    threeKeyScale.IsBuilt ∧ threeKeyScale.lower < threeKeyScale.upper ∧
      (∃ k ∈ threeKeyScale.keys, |threeKeyScale.location k - 100| ≤ 60) ∧
      threeKeyScale.keyAt 100 60 = -5 ∧ threeKeyScale.IsNearest 100 (-5) ∧
      (∀ k ∈ threeKeyScale.keys, 10 < |threeKeyScale.location k - 100|) ∧
      threeKeyScale.keyAt 100 10 = -3 ∧
      (∀ key, |threeKeyScale.location (-3) - 100| ≤ |threeKeyScale.location key - 100|) ∧
      threeKeyScale.keyAt (threeKeyScale.location 7) 10 = 7 ∧
      threeKeyScale.location (-3) = 90 ∧
      threeKeyScale.keyAt (threeKeyScale.location (-3)) 10 = -3 := by
  have hbuilt : threeKeyScale.IsBuilt := ⟨_, _, _, rfl⟩
  have hrange : threeKeyScale.lower < threeKeyScale.upper := by decide +kernel
  have hnear : ∃ k ∈ threeKeyScale.keys, |threeKeyScale.location k - 100| ≤ 60 := by decide +kernel
  -- decided by a pass over the registered keys, not over all keys there are
  have hfar : ∀ k ∈ threeKeyScale.keys, 10 < |threeKeyScale.location k - 100| := by
    rw [← List.all_iff_forall_prop]
    decide +kernel
  have hsnapped : threeKeyScale.keyAt 100 60 = -5 := by decide +kernel
  have hfree : threeKeyScale.keyAt 100 10 = -3 := by decide +kernel
  have hlocation : threeKeyScale.location (-3) = 90 := by decide +kernel
  have hapart : ∀ k ∈ threeKeyScale.keys,
      10 < |threeKeyScale.location k - threeKeyScale.location (-3)| := by
    rw [hlocation, ← List.all_iff_forall_prop]
    decide +kernel
  obtain ⟨-, hwide, -⟩ := hbuilt.keyAt_nearest hrange 60
  obtain ⟨-, -, hnarrow, hregistered, hother⟩ := hbuilt.keyAt_nearest hrange 10
  have hfirst := hwide 100 hnear
  have hbest := hnarrow 100 hfar
  rw [hsnapped] at hfirst
  rw [hfree] at hbest
  exact ⟨hbuilt, hrange, hnear, hsnapped, hfirst, hfar, hfree, hbest,
    hregistered 7 (by decide +kernel) (by decide +kernel), hlocation, hother (-3) hapart⟩

/-- On a scale that can be built a smaller location is not read as a greater key. -/
theorem IsBuilt.keyAt_mono {s : Scale ℚ} (h : s.IsBuilt) (snap : ℚ) {x y : ℚ} (hxy : x ≤ y) :
    s.keyAt x snap ≤ s.keyAt y snap := by
  rcases hxy.lt_or_eq with hlt | rfl
  · exact h.sound.keyAt_mono_of_lt snap hlt
  · exact Int32.le_refl _

/-- A location near an anchor is read as its key, one further on as a greater key. -/
theorem keyAt_mono_threeKeyScale :
    threeKeyScale.IsBuilt ∧ (155 : ℚ) ≤ 200 ∧ threeKeyScale.keyAt 155 10 = 0 ∧
      threeKeyScale.keyAt 200 10 = 4 ∧
      threeKeyScale.keyAt 155 10 ≤ threeKeyScale.keyAt 200 10 := by
  have hbuilt : threeKeyScale.IsBuilt := ⟨_, _, _, rfl⟩
  have hle : (155 : ℚ) ≤ 200 := by norm_num
  exact ⟨hbuilt, hle, by decide +kernel, by decide +kernel, hbuilt.keyAt_mono 10 hle⟩

end Scale

end DiagramLayout
