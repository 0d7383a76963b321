import DiagramLayout.Proofs.Scale.Building
import Mathlib.Tactic.Ring

/-!
# Locations follow the keys

With its ends, the anchors of a scale over a range of some length climb: a greater key has a greater
location. Every key lies between two neighbouring anchors, and there its location is on the line
through them (`Scale.Sound.location_eq`). So of two keys between the same neighbours the greater
one lies further on, and keys between different neighbours are kept apart by the anchors in
between. Over a range without length all anchors, and therefore all keys, have the same location.
Together this makes locations follow the keys on every scale that can be built
(`Scale.IsBuilt.location_ordered`).
-/

namespace DiagramLayout

/-- The order of keys is that of their numbers. -/
lemma OrderKey.cast_lt {a b : OrderKey} : (a.toInt : ℚ) < b.toInt ↔ a < b := by
  rw [Int.cast_lt]
  exact Int32.lt_iff_toInt_lt.symm

/-- The weak order of keys is that of their numbers. -/
lemma OrderKey.cast_le {a b : OrderKey} : (a.toInt : ℚ) ≤ b.toInt ↔ a ≤ b := by
  rw [Int.cast_le]
  exact Int32.le_iff_toInt_le.symm

/-- The extreme keys differ. -/
lemma OrderKey.least_lt_greatest : OrderKey.least < OrderKey.greatest := by decide

namespace Scale

/-! ## Lines between neighbours -/

/-- The location on the line through two anchors. -/
def onLine (p q : OrderKey × ℚ) (position : ℚ) : ℚ :=
  p.2 + (position - p.1.toInt) / (q.1.toInt - p.1.toInt) * (q.2 - p.2)

section Line

variable {p q : OrderKey × ℚ}

/-- The line goes through its first anchor. -/
@[simp] lemma onLine_left (p q : OrderKey × ℚ) : onLine p q p.1.toInt = p.2 := by
  rw [onLine, sub_self, zero_div, zero_mul, add_zero]

/-- The line goes through its second anchor. -/
lemma onLine_right (hkeys : p.1 < q.1) : onLine p q q.1.toInt = q.2 := by
  have hne : (q.1.toInt : ℚ) - p.1.toInt ≠ 0 := sub_ne_zero.mpr (OrderKey.cast_lt.mpr hkeys).ne'
  rw [onLine, div_self hne, one_mul, add_sub_cancel]

/-- The line rises by its slope. -/
lemma onLine_sub_onLine (p q : OrderKey × ℚ) (v w : ℚ) :
    onLine p q v - onLine p q w = (v - w) * ((q.2 - p.2) / (q.1.toInt - p.1.toInt)) := by
  unfold onLine
  ring

/-- The line through anchors that climb rises. -/
lemma onLine_strictMono (hkeys : p.1 < q.1) (hlocations : p.2 < q.2) : StrictMono (onLine p q) := by
  intro v w hvw
  have hslope : 0 < (q.2 - p.2) / ((q.1.toInt : ℚ) - p.1.toInt) :=
    div_pos (sub_pos.mpr hlocations) (sub_pos.mpr (OrderKey.cast_lt.mpr hkeys))
  have hrise := mul_pos (sub_pos.mpr hvw) hslope
  rw [← onLine_sub_onLine] at hrise
  exact sub_pos.mp hrise

end Line

/-! ## Anchors that climb -/

/-- Of any two anchors the later one has the greater key and the greater location. -/
def Climbing (anchors : List (OrderKey × ℚ)) : Prop :=
  anchors.Pairwise fun p q => p.1 < q.1 ∧ p.2 < q.2

/-- Two anchors with no anchor in between. -/
def Adjacent (anchors : List (OrderKey × ℚ)) (p q : OrderKey × ℚ) : Prop :=
  ∃ before after, anchors = before ++ p :: q :: after

/-- Where the first anchor does not have a property and a later one has it, there are two
neighbours between which it begins. -/
lemma exists_adjacent {P : OrderKey × ℚ → Prop} (first : OrderKey × ℚ)
    {rest : List (OrderKey × ℚ)} (hfirst : ¬ P first) (hlater : ∃ q ∈ rest, P q) :
    ∃ p q, Adjacent (first :: rest) p q ∧ ¬ P p ∧ P q := by
  induction rest generalizing first with
  | nil =>
    obtain ⟨q, hq, -⟩ := hlater
    cases hq
  | cons second rest ih =>
    by_cases hsecond : P second
    · exact ⟨first, second, ⟨[], rest, rfl⟩, hfirst, hsecond⟩
    · have hrest : ∃ q ∈ rest, P q := by
        obtain ⟨q, hq, hPq⟩ := hlater
        rcases List.mem_cons.mp hq with rfl | hq
        · exact absurd hPq hsecond
        · exact ⟨q, hq, hPq⟩
      obtain ⟨p, q, ⟨before, after, heq⟩, hp, hq⟩ := ih second hsecond hrest
      refine ⟨p, q, ⟨first :: before, after, ?_⟩, hp, hq⟩
      rw [heq, List.cons_append]

namespace Adjacent

variable {anchors : List (OrderKey × ℚ)} {p q : OrderKey × ℚ} (h : Adjacent anchors p q)

include h

lemma left_mem : p ∈ anchors := by
  obtain ⟨before, after, rfl⟩ := h
  exact List.mem_append_right _ List.mem_cons_self

lemma right_mem : q ∈ anchors := by
  obtain ⟨before, after, rfl⟩ := h
  exact List.mem_append_right _ (List.mem_cons_of_mem _ List.mem_cons_self)

/-- Neighbours among anchors that climb climb. -/
lemma climbs (hclimbing : Climbing anchors) : p.1 < q.1 ∧ p.2 < q.2 := by
  obtain ⟨before, after, rfl⟩ := h
  have hrest := (List.pairwise_append.mp hclimbing).2.1
  exact (List.pairwise_cons.mp hrest).1 q List.mem_cons_self

/-- An anchor with a greater key than the first of two neighbours is the second one or behind it. -/
lemma right_le_of_lt (hclimbing : Climbing anchors) {r : OrderKey × ℚ} (hr : r ∈ anchors)
    (hlt : p.1 < r.1) : r = q ∨ q.1 < r.1 ∧ q.2 < r.2 := by
  obtain ⟨before, after, rfl⟩ := h
  obtain ⟨-, hrest, hacross⟩ := List.pairwise_append.mp hclimbing
  obtain ⟨-, hbehind⟩ := List.pairwise_cons.mp hrest
  rcases List.mem_append.mp hr with hbefore | hlater
  · have hpast := (hacross r hbefore p List.mem_cons_self).1
    exact absurd hlt (Int32.lt_asymm hpast)
  · rcases List.mem_cons.mp hlater with rfl | hlater
    · exact absurd hlt Int32.lt_irrefl
    · rcases List.mem_cons.mp hlater with rfl | hlater
      · exact Or.inl rfl
      · exact Or.inr ((List.pairwise_cons.mp hbehind).1 r hlater)

end Adjacent

/-- The search for a key passes over the anchors in front of a smaller key. -/
lemma locate_append {key : OrderKey} (beyond : ℚ) {p : OrderKey × ℚ}
    {before after : List (OrderKey × ℚ)} (hclimbing : Climbing (before ++ p :: after))
    (hkey : p.1 < key) :
    locate key beyond (before ++ p :: after) = locate key beyond (p :: after) := by
  induction before with
  | nil => rfl
  | cons r before ih =>
    have htail : Climbing (before ++ p :: after) := (List.pairwise_cons.mp hclimbing).2
    rw [← ih htail]
    -- the anchor behind `r` has a key that is smaller as well
    rcases before with _ | ⟨t, before⟩
    · exact if_neg (Int32.not_le.mpr hkey)
    · have ht : t.1 < p.1 := ((List.pairwise_append.mp htail).2.2 t List.mem_cons_self p
        List.mem_cons_self).1
      exact if_neg (Int32.not_le.mpr (Int32.lt_trans ht hkey))

/-- Between two neighbours a key is located on the line through them. -/
lemma locate_of_adjacent {anchors : List (OrderKey × ℚ)} {p q : OrderKey × ℚ}
    (hclimbing : Climbing anchors) (h : Adjacent anchors p q) {key : OrderKey} (beyond : ℚ)
    (hleft : p.1 ≤ key) (hright : key ≤ q.1) :
    locate key beyond anchors = onLine p q key.toInt := by
  obtain ⟨hkeys, -⟩ := h.climbs hclimbing
  rcases Int32.lt_or_eq_of_le hleft with hlt | rfl
  · obtain ⟨before, after, rfl⟩ := h
    obtain ⟨keyA, a⟩ := p
    obtain ⟨keyB, b⟩ := q
    rw [locate_append beyond hclimbing hlt, locate, if_pos hright]
    have hnot : ¬ (decide (key ≤ keyA) || decide (keyB = keyA)) = true := by
      rw [Bool.or_eq_true, decide_eq_true_eq, decide_eq_true_eq, not_or]
      exact ⟨Int32.not_le.mpr hlt, (Int32.ne_of_lt hkeys).symm⟩
    rw [if_neg hnot]
    split_ifs with heq
    · rw [heq]
      exact (onLine_right hkeys).symm
    · rfl
  · rw [onLine_left]
    have hsorted : (anchors.map Prod.fst).Pairwise (· < ·) :=
      List.pairwise_map.mpr (hclimbing.imp And.left)
    refine locate_of_mem hsorted ?_ h.left_mem
    obtain ⟨before, after, rfl⟩ := h
    rw [List.length_append, List.length_cons, List.length_cons]
    omega

/-- Anchors that all have the same location have every key at that location. -/
lemma locate_of_level {key : OrderKey} {level : ℚ} {anchors : List (OrderKey × ℚ)}
    (h : ∀ p ∈ anchors, p.2 = level) : locate key level anchors = level := by
  induction anchors with
  | nil => rfl
  | cons p anchors ih =>
    have hrest : ∀ q ∈ anchors, q.2 = level := fun q hq => h q (List.mem_cons_of_mem p hq)
    rcases anchors with _ | ⟨q, anchors⟩
    · rfl
    · obtain ⟨keyA, a⟩ := p
      obtain ⟨keyB, b⟩ := q
      obtain rfl : a = level := h _ List.mem_cons_self
      obtain rfl : b = a := hrest _ List.mem_cons_self
      rw [locate, ih hrest]
      simp only [sub_self, mul_zero, add_zero, ite_self]

/-! ## The anchors of a scale -/

/-- What is true of every scale that can be built: the ends of its range are in order, its keys
ascend and its anchors are in the middles of their cells. -/
structure Sound (s : Scale ℚ) : Prop where
  ordered : s.lower ≤ s.upper
  ascending : s.Ascending
  centered : s.Centered

/-- The ends of a range are put in order. -/
lemma orderedRange_ordered (a b : ℚ) : (orderedRange a b).1 ≤ (orderedRange a b).2 := by
  unfold orderedRange
  split_ifs with hab
  · exact hab
  · exact (not_le.mp hab).le

/-- Every scale that can be built is sound. -/
lemma IsBuilt.sound {s : Scale ℚ} (h : s.IsBuilt) : s.Sound := by
  obtain ⟨lower, upper, changes, rfl⟩ := h
  have hends := orderedRange_ordered (lastRange lower upper changes).1
    (lastRange lower upper changes).2
  rw [← range_built] at hends
  exact ⟨hends, ascending_built lower upper changes, centered_built lower upper changes⟩

section Anchors

variable {s : Scale ℚ}

/-- The middles of the cells of a range of some length ascend. -/
lemma pairwise_middles (hrange : s.lower < s.upper) : s.middles.Pairwise (· < ·) := by
  refine List.pairwise_map.mpr (List.pairwise_lt_range.imp fun {i j} hij => ?_)
  have hindex : (i : ℚ) < j := by exact_mod_cast hij
  have hstep := mul_lt_mul_of_pos_right hindex (cell_pos hrange)
  simp only [Scalar.num_exact, Nat.cast_one, Nat.cast_ofNat]
  linarith

/-- The locations of the anchors with their ends. -/
lemma Centered.map_snd_anchorsWithEnds (h : s.Centered) :
    s.anchorsWithEnds.map Prod.snd =
      (if s.keys.head? = some .least then [] else [s.lower]) ++ s.middles ++
        (if s.keys.getLast? = some .greatest then [] else [s.upper]) := by
  have hlocations : s.anchors.map Prod.snd = s.middles := by
    rw [anchors, List.map_snd_zip h.length_locations.le]
    exact h
  rw [anchorsWithEnds, List.map_append, List.map_append, hlocations]
  split_ifs <;> rfl

namespace Sound

variable (hs : s.Sound)

include hs

/-- All anchors are within the range. -/
lemma within_anchorsWithEnds {p : OrderKey × ℚ} (hp : p ∈ s.anchorsWithEnds) :
    s.lower ≤ p.2 ∧ p.2 ≤ s.upper := by
  have hmem : p.2 ∈ s.anchorsWithEnds.map Prod.snd := List.mem_map_of_mem hp
  have hordered := hs.ordered
  have hcell := cell_nonneg hordered
  rw [hs.centered.map_snd_anchorsWithEnds, List.mem_append, List.mem_append] at hmem
  rcases hmem with (hlow | hmiddle) | hhigh
  · split_ifs at hlow
    · cases hlow
    · rw [List.mem_singleton.mp hlow]
      exact ⟨le_rfl, hordered⟩
  · obtain ⟨hlow, hhigh⟩ := middles_within hordered hmiddle
    constructor
    · linarith
    · linarith
  · split_ifs at hhigh
    · cases hhigh
    · rw [List.mem_singleton.mp hhigh]
      exact ⟨hordered, le_rfl⟩

/-- An anchor is where its key is located. -/
lemma location_of_mem {p : OrderKey × ℚ} (hp : p ∈ s.anchorsWithEnds) : s.location p.1 = p.2 :=
  locate_of_mem (hs.ascending.anchorsWithEnds hs.centered)
    hs.centered.two_le_length_anchorsWithEnds hp

/-- The first anchor is that of the least key, and the greatest key has a later one. -/
lemma exists_anchorsWithEnds_cons :
    ∃ a rest, s.anchorsWithEnds = (.least, a) :: rest ∧ ∃ b, (OrderKey.greatest, b) ∈ rest := by
  have hhead : (s.anchorsWithEnds.map Prod.fst).head? = some OrderKey.least := by
    rw [hs.centered.map_fst_anchorsWithEnds]
    split_ifs with hleast <;> simp [hleast]
  have hmem : OrderKey.greatest ∈ s.anchorsWithEnds.map Prod.fst := by
    rw [hs.centered.map_fst_anchorsWithEnds, List.mem_append, List.mem_append]
    split_ifs with hleast hgreatest hgreatest
    · exact Or.inl (Or.inr (List.mem_of_getLast? hgreatest))
    · exact Or.inr (List.mem_singleton.mpr rfl)
    · exact Or.inl (Or.inr (List.mem_of_getLast? hgreatest))
    · exact Or.inr (List.mem_singleton.mpr rfl)
  rw [List.head?_map] at hhead
  obtain ⟨⟨key, a⟩, hfirst, rfl⟩ := Option.map_eq_some_iff.mp hhead
  obtain ⟨rest, hrest⟩ := List.head?_eq_some_iff.mp hfirst
  refine ⟨a, rest, hrest, ?_⟩
  rw [hrest, List.map_cons, List.mem_cons] at hmem
  rcases hmem with heq | hlater
  · exact absurd heq (Int32.ne_of_lt OrderKey.least_lt_greatest).symm
  · obtain ⟨⟨key, b⟩, hlast, rfl⟩ := List.mem_map.mp hlater
    exact ⟨b, hlast⟩

/-- What the greatest key has and the least key does not have begins between two neighbours. -/
lemma exists_adjacent_anchors {P : OrderKey → Prop} (hleast : ¬ P .least)
    (hgreatest : P .greatest) :
    ∃ p q, Adjacent s.anchorsWithEnds p q ∧ ¬ P p.1 ∧ P q.1 := by
  obtain ⟨a, rest, hanchors, b, hlast⟩ := hs.exists_anchorsWithEnds_cons
  rw [hanchors]
  exact exists_adjacent (P := fun p => P p.1) (.least, a) hleast ⟨_, hlast, hgreatest⟩

/-- Around every key but the greatest there are neighbours, the first of which it may be. -/
lemma exists_adjacent_from {key : OrderKey} (hkey : key < .greatest) :
    ∃ p q, Adjacent s.anchorsWithEnds p q ∧ p.1 ≤ key ∧ key < q.1 := by
  obtain ⟨p, q, hadjacent, hp, hq⟩ := hs.exists_adjacent_anchors (P := fun k => key < k)
    (Int32.not_lt.mpr (Int32.minValue_le key)) hkey
  exact ⟨p, q, hadjacent, Int32.not_lt.mp hp, hq⟩

/-- Around every key but the least there are neighbours, the second of which it may be. -/
lemma exists_adjacent_to {key : OrderKey} (hkey : .least < key) :
    ∃ p q, Adjacent s.anchorsWithEnds p q ∧ p.1 < key ∧ key ≤ q.1 := by
  obtain ⟨p, q, hadjacent, hp, hq⟩ := hs.exists_adjacent_anchors (P := fun k => key ≤ k)
    (Int32.not_le.mpr hkey) (Int32.le_maxValue key)
  exact ⟨p, q, hadjacent, Int32.not_le.mp hp, hq⟩

/-- Around every key there are neighbours. -/
lemma exists_adjacent_around (key : OrderKey) :
    ∃ p q, Adjacent s.anchorsWithEnds p q ∧ p.1 ≤ key ∧ key ≤ q.1 := by
  by_cases hkey : key < .greatest
  · obtain ⟨p, q, hadjacent, hp, hq⟩ := hs.exists_adjacent_from hkey
    exact ⟨p, q, hadjacent, hp, Int32.le_of_lt hq⟩
  · have hleast : OrderKey.least < key :=
      Int32.lt_of_lt_of_le OrderKey.least_lt_greatest (Int32.not_lt.mp hkey)
    obtain ⟨p, q, hadjacent, hp, hq⟩ := hs.exists_adjacent_to hleast
    exact ⟨p, q, hadjacent, Int32.le_of_lt hp, hq⟩

/-- Over a range without length all keys are at its ends. -/
lemma location_of_level (hlevel : s.lower = s.upper) (key : OrderKey) :
    s.location key = s.upper := by
  refine locate_of_level fun p hp => ?_
  obtain ⟨hlow, hhigh⟩ := hs.within_anchorsWithEnds hp
  exact le_antisymm hhigh (hlevel ▸ hlow)

section Climbing

variable (hrange : s.lower < s.upper)

include hrange

/-- Over a range of some length the anchors with their ends climb. -/
lemma climbing : Climbing s.anchorsWithEnds := by
  have hkeys : s.anchorsWithEnds.Pairwise fun p q => p.1 < q.1 :=
    List.pairwise_map.mp (hs.ascending.anchorsWithEnds hs.centered)
  have hcell := cell_pos hrange
  have hlocations : (s.anchorsWithEnds.map Prod.snd).Pairwise (· < ·) := by
    rw [hs.centered.map_snd_anchorsWithEnds]
    refine List.pairwise_append.mpr ⟨List.pairwise_append.mpr ⟨?_, pairwise_middles hrange, ?_⟩,
      ?_, ?_⟩
    · split_ifs <;> simp
    · intro low hlow a ha
      split_ifs at hlow
      · cases hlow
      · have hwithin := (middles_within hrange.le ha).1
        rw [List.mem_singleton.mp hlow]
        linarith
    · split_ifs <;> simp
    · intro a ha high hhigh
      split_ifs at hhigh
      · cases hhigh
      · rw [List.mem_singleton.mp hhigh]
        rcases List.mem_append.mp ha with hlow | hmiddle
        · split_ifs at hlow
          · cases hlow
          · rw [List.mem_singleton.mp hlow]
            exact hrange
        · have hwithin := (middles_within hrange.le hmiddle).2
          linarith
  exact hkeys.and (List.pairwise_map.mp hlocations)

/-- Between two neighbours a key is on the line through them. -/
lemma location_eq {p q : OrderKey × ℚ} (hadjacent : Adjacent s.anchorsWithEnds p q)
    {key : OrderKey} (hleft : p.1 ≤ key) (hright : key ≤ q.1) :
    s.location key = onLine p q key.toInt :=
  locate_of_adjacent (hs.climbing hrange) hadjacent s.upper hleft hright

/-- Between two neighbours a key has a location between theirs. -/
lemma location_between {p q : OrderKey × ℚ} (hadjacent : Adjacent s.anchorsWithEnds p q)
    {key : OrderKey} (hleft : p.1 ≤ key) (hright : key ≤ q.1) :
    p.2 ≤ s.location key ∧ s.location key ≤ q.2 := by
  obtain ⟨hkeys, hlocations⟩ := hadjacent.climbs (hs.climbing hrange)
  have hrises := (onLine_strictMono hkeys hlocations).monotone
  rw [hs.location_eq hrange hadjacent hleft hright]
  constructor
  · have hle := hrises (OrderKey.cast_le.mpr hleft)
    rwa [onLine_left] at hle
  · have hle := hrises (OrderKey.cast_le.mpr hright)
    rwa [onLine_right hkeys] at hle

/-- Over a range of some length a greater key lies further on. -/
theorem location_strictMono {key key' : OrderKey} (hlt : key < key') :
    s.location key < s.location key' := by
  have hclimbing := hs.climbing hrange
  obtain ⟨p, q, hpq, hp, hq⟩ :=
    hs.exists_adjacent_from (Int32.lt_of_lt_of_le hlt (Int32.le_maxValue key'))
  obtain ⟨hkeys, hlocations⟩ := hpq.climbs hclimbing
  have hrises := onLine_strictMono hkeys hlocations
  have hkey := hs.location_eq hrange hpq hp (Int32.le_of_lt hq)
  by_cases hsame : key' ≤ q.1
  · -- both keys are between the same neighbours
    rw [hkey, hs.location_eq hrange hpq (Int32.le_of_lt (Int32.lt_of_le_of_lt hp hlt)) hsame]
    exact hrises (OrderKey.cast_lt.mpr hlt)
  · -- the second of the neighbours of the smaller key is at most the first one of the greater key
    obtain ⟨r, t, hrt, hr, ht⟩ :=
      hs.exists_adjacent_to (Int32.lt_of_le_of_lt (Int32.minValue_le key) hlt)
    have hbelow : s.location key < q.2 := by
      have hless := hrises (OrderKey.cast_lt.mpr hq)
      rwa [onLine_right hkeys, ← hkey] at hless
    have habove := (hs.location_between hrange hrt (Int32.le_of_lt hr) ht).1
    have hapart : q.2 ≤ r.2 := by
      have hkeysApart : q.1 ≤ r.1 := by
        refine Int32.not_lt.mp fun hlt' => hsame ?_
        rcases hrt.right_le_of_lt hclimbing hpq.right_mem hlt' with rfl | ⟨hpast, -⟩
        · exact ht
        · exact Int32.le_trans ht (Int32.le_of_lt hpast)
      rcases hpq.right_le_of_lt hclimbing hrt.left_mem (Int32.lt_of_lt_of_le hkeys hkeysApart) with
        rfl | ⟨-, hpast⟩
      · exact le_rfl
      · exact hpast.le
    exact (hbelow.trans_le hapart).trans_le habove

end Climbing

/-- Every key is located within the range. -/
theorem location_within_range (key : OrderKey) :
    s.lower ≤ s.location key ∧ s.location key ≤ s.upper := by
  rcases hs.ordered.lt_or_eq with hrange | hlevel
  · obtain ⟨p, q, hadjacent, hp, hq⟩ := hs.exists_adjacent_around key
    obtain ⟨hleft, hright⟩ := hs.location_between hrange hadjacent hp hq
    exact ⟨(hs.within_anchorsWithEnds hadjacent.left_mem).1.trans hleft,
      hright.trans (hs.within_anchorsWithEnds hadjacent.right_mem).2⟩
  · rw [hs.location_of_level hlevel]
    exact ⟨hs.ordered, le_rfl⟩

/-- A greater key does not lie before a smaller one. -/
theorem location_mono {key key' : OrderKey} (hle : key ≤ key') :
    s.location key ≤ s.location key' := by
  rcases Int32.lt_or_eq_of_le hle with hlt | rfl
  · rcases hs.ordered.lt_or_eq with hrange | hlevel
    · exact (hs.location_strictMono hrange hlt).le
    · rw [hs.location_of_level hlevel, hs.location_of_level hlevel]
  · exact le_rfl

end Sound

end Anchors

/-- On every scale that can be built all keys are located within the range and in their order, and
over a range of some length different keys have different locations. -/
theorem IsBuilt.location_ordered {s : Scale ℚ} (h : s.IsBuilt) {key key' : OrderKey}
    (hlt : key < key') :
    s.location key ≤ s.location key' ∧
      (∀ k, s.lower ≤ s.location k ∧ s.location k ≤ s.upper) ∧
      (s.lower < s.upper → s.location key < s.location key') :=
  ⟨h.sound.location_mono (Int32.le_of_lt hlt), h.sound.location_within_range,
    fun hrange => h.sound.location_strictMono hrange hlt⟩

/-- A scale on which both extreme keys and one in between are registered. -/
def extremeScale : Scale ℚ :=
  built 0 1 [.addKey .greatest, .setRange 300 0, .addKey .least, .addKey 0]

/-- Extreme keys that are registered have locations within the range, in the order of the keys. -/
theorem location_ordered_extremeScale :
    extremeScale.IsBuilt ∧ extremeScale.lower < extremeScale.upper ∧
      OrderKey.least < -1073741824 ∧
      extremeScale.location .least = 50 ∧ extremeScale.location (-1073741824) = 100 ∧
      extremeScale.location .greatest = 250 ∧
      extremeScale.location .least < extremeScale.location (-1073741824) := by
  have hbuilt : extremeScale.IsBuilt := ⟨_, _, _, rfl⟩
  have hrange : extremeScale.lower < extremeScale.upper := by decide +kernel
  have hlt : OrderKey.least < -1073741824 := by decide
  exact ⟨hbuilt, hrange, hlt, by decide +kernel, by decide +kernel, by decide +kernel,
    (hbuilt.location_ordered hlt).2.2 hrange⟩

end Scale

end DiagramLayout
