import Mathlib
import DiagramLayout.Proofs.SideIcons

/-!
# The walk around a symbol

List keys in ascending order walk around a symbol against the clock, from its lower right corner.
At a point of a side the walk has behind it the sides before (`Side.before`) and what it has come
along this one (`Side.progress`). The keys of a side are a range of integers that is rescaled to the
length of the side, so along one side the walk goes forward with the keys. Only the greatest key
reaches the end of its range: from side to side the walk never stands still either, and
`Side.walk_aroundSymbol` says that it comes once around.

A margin pushes a point away from the corners. That keeps the order of the points on a side, but it
may let neighbours coincide.

## Main definitions

* `Side.walked`: how far the walk has come at a list key.
* `Side.KeepsMargin`: a point lies on a side, off the corners as far as there is room.
-/

namespace DiagramLayout

/-- Pushing numbers into an interval keeps their order. -/
lemma clamp_mono {low high : ℚ} (h : low ≤ high) {x y : ℚ} (hxy : x ≤ y) :
    (clamp low high x).value ≤ (clamp low high y).value := by
  unfold clamp
  dsimp only
  split_ifs <;> linarith

namespace Side

/-! ## Keys of a side -/

/-- Some keys belong to every side. -/
lemma span_lt (side : Side) : side.span.1 < side.span.2 := by
  cases side <;> decide

/-- A quarter of the keys belongs to each side. -/
lemma ofKey_cases (key : OrderKey) :
    (ofKey key = right ∧ key.toInt < -0x40000000) ∨
      (ofKey key = top ∧ -0x40000000 ≤ key.toInt ∧ key.toInt < 0) ∨
      (ofKey key = left ∧ 0 ≤ key.toInt ∧ key.toInt < 0x40000000) ∨
      (ofKey key = bottom ∧ 0x40000000 ≤ key.toInt) := by
  have hchoice : ofKey key = if key.toInt < -0x40000000 then right
      else if key.toInt < 0 then top else if key.toInt < 0x40000000 then left else bottom := rfl
  rcases lt_or_ge key.toInt (-0x40000000) with hright | hright
  · exact Or.inl ⟨hchoice.trans (if_pos hright), hright⟩
  rw [if_neg (not_lt.mpr hright)] at hchoice
  rcases lt_or_ge key.toInt 0 with htop | htop
  · exact Or.inr (Or.inl ⟨hchoice.trans (if_pos htop), hright, htop⟩)
  rw [if_neg (not_lt.mpr htop)] at hchoice
  rcases lt_or_ge key.toInt 0x40000000 with hleft | hleft
  · exact Or.inr (Or.inr (Or.inl ⟨hchoice.trans (if_pos hleft), htop, hleft⟩))
  · exact Or.inr (Or.inr (Or.inr ⟨hchoice.trans (if_neg (not_lt.mpr hleft)), hleft⟩))

/-- A key is within the span of its side, and only the greatest key is at the end of one. -/
lemma within_span (key : OrderKey) :
    (ofKey key).span.1 ≤ key.toInt ∧ key.toInt ≤ (ofKey key).span.2 ∧
      (key.toInt = (ofKey key).span.2 → key = .greatest) := by
  have hlow : OrderKey.least.toInt ≤ key.toInt := Int32.le_iff_toInt_le.mp (Int32.minValue_le key)
  have hhigh : key.toInt ≤ OrderKey.greatest.toInt :=
    Int32.le_iff_toInt_le.mp (Int32.le_maxValue key)
  rcases ofKey_cases key with ⟨hside, hkey⟩ | ⟨hside, hkey⟩ | ⟨hside, hkey⟩ | ⟨hside, hkey⟩ <;>
    rw [hside] <;> simp only [span]
  · exact ⟨hlow, by omega, by omega⟩
  · exact ⟨hkey.1, by omega, by omega⟩
  · exact ⟨hkey.1, by omega, by omega⟩
  · exact ⟨hkey, hhigh, Int32.toInt_inj.mp⟩

/-- The number of a side in the order of the walk. -/
def rank (side : Side) : ℕ := all.idxOf side

/-- Sides of the same number are the same. -/
lemma rank_injective : Function.Injective rank := by
  intro side side' h
  revert h
  cases side <;> cases side' <;> decide

/-- The keys of an earlier side end where those of a later one start, or before. -/
lemma span_le_of_rank_lt {side side' : Side} (h : side.rank < side'.rank) :
    side.span.2 ≤ side'.span.1 := by
  revert h
  cases side <;> cases side' <;> decide

/-- A later key is on the same side or on a later one. -/
lemma rank_le_of_lt {key key' : OrderKey} (hlt : key < key') :
    (ofKey key).rank ≤ (ofKey key').rank := by
  by_contra hback
  have hspan := span_le_of_rank_lt (not_le.mp hback)
  have hint := Int32.lt_iff_toInt_lt.mp hlt
  obtain ⟨hlow, -, -⟩ := within_span key
  obtain ⟨-, hhigh, -⟩ := within_span key'
  omega

/-- The fraction of a key is its place within the span of its side. -/
lemma fractionOfKey_exact (key : OrderKey) : (fractionOfKey key : ℚ) =
    ((key.toInt - (ofKey key).span.1 : ℤ) : ℚ) /
      (((ofKey key).span.2 - (ofKey key).span.1 : ℤ) : ℚ) :=
  rfl

/-- The span of a side has an extent. -/
lemma extent_span_pos (side : Side) : (0 : ℚ) < ((side.span.2 - side.span.1 : ℤ) : ℚ) := by
  have hlt := side.span_lt
  exact_mod_cast (by omega : (0 : ℤ) < side.span.2 - side.span.1)

/-- A key is a fraction of the way along its side, and only the greatest key is at the end. -/
lemma fractionOfKey_within (key : OrderKey) :
    0 ≤ (fractionOfKey key : ℚ) ∧ (fractionOfKey key : ℚ) ≤ 1 ∧
      (key ≠ .greatest → (fractionOfKey key : ℚ) < 1) := by
  obtain ⟨hlow, hhigh, hend⟩ := within_span key
  have hextent := extent_span_pos (ofKey key)
  rw [fractionOfKey_exact]
  refine ⟨?_, ?_, fun hkey => ?_⟩
  · refine div_nonneg ?_ hextent.le
    exact_mod_cast (by omega : (0 : ℤ) ≤ key.toInt - (ofKey key).span.1)
  · rw [div_le_one hextent]
    exact_mod_cast (by omega : key.toInt - (ofKey key).span.1 ≤
      (ofKey key).span.2 - (ofKey key).span.1)
  · have hne : key.toInt ≠ (ofKey key).span.2 := fun h => hkey (hend h)
    rw [div_lt_one hextent]
    exact_mod_cast (by omega : key.toInt - (ofKey key).span.1 <
      (ofKey key).span.2 - (ofKey key).span.1)

/-- On one side a greater key is further along. -/
lemma fractionOfKey_lt {key key' : OrderKey} (hlt : key < key') (hside : ofKey key = ofKey key') :
    (fractionOfKey key : ℚ) < fractionOfKey key' := by
  have hint := Int32.lt_iff_toInt_lt.mp hlt
  rw [fractionOfKey_exact, fractionOfKey_exact, hside]
  refine div_lt_div_of_pos_right ?_ (extent_span_pos _)
  exact_mod_cast (by omega : key.toInt - (ofKey key').span.1 < key'.toInt - (ofKey key').span.1)

/-! ## Places along a side -/

/-- Without a margin a fraction of the way is that fraction of the extent away from the start. -/
lemma value_along_zero {low high : ℚ} (horder : low < high) {start stop : ℚ}
    (hends : start = low ∧ stop = high ∨ start = high ∧ stop = low) {fraction : ℚ}
    (hfirst : 0 ≤ fraction) (hlast : fraction ≤ 1) :
    (along start stop fraction 0).value = start + (stop - start) * fraction := by
  have hextent : 0 ≤ high - low := by linarith
  have hleast := mul_nonneg hextent hfirst
  have hmost := mul_le_mul_of_nonneg_left hlast hextent
  rw [value_along horder.le hends, if_pos (by linarith), clamp_of_within hfirst hlast]
  rcases hends with ⟨rfl, rfl⟩ | ⟨rfl, rfl⟩
  · exact clamp_of_within (by linarith) (by linarith)
  · exact clamp_of_within (by linarith) (by linarith)

/-- A larger fraction of the way leads no less far from the start, whatever the margin. -/
lemma along_mono {low high : ℚ} (horder : low ≤ high) {fraction fraction' : ℚ}
    (hle : fraction ≤ fraction') (margin : ℚ) :
    (along low high fraction margin).value ≤ (along low high fraction' margin).value ∧
      (along high low fraction' margin).value ≤ (along high low fraction margin).value := by
  have hforward : low = low ∧ high = high ∨ low = high ∧ high = low := Or.inl ⟨rfl, rfl⟩
  have hbackward : high = low ∧ low = high ∨ high = high ∧ low = low := Or.inr ⟨rfl, rfl⟩
  have hstep := mul_le_mul_of_nonneg_left (clamp_mono zero_le_one hle) (sub_nonneg.mpr horder)
  rw [value_along horder hforward, value_along horder hforward, value_along horder hbackward,
    value_along horder hbackward]
  split_ifs with hroom
  · constructor
    · exact clamp_mono (by linarith) (by linarith)
    · exact clamp_mono (by linarith) (by linarith)
  · exact ⟨le_rfl, le_rfl⟩

/-! ## The way around -/

/-- The length of a side of a symbol. -/
def length (side : Side) (symbol : Rect ℚ) : ℚ := (side.extent symbol).2 - (side.extent symbol).1

/-- The length of the sides that the walk has behind it when it comes to a side. -/
def before (side : Side) (symbol : Rect ℚ) : ℚ := ((all.take side.rank).map (·.length symbol)).sum

/-- What the walk has come along a side when it is at a point there. -/
def progress (side : Side) (symbol : Rect ℚ) (p : Point ℚ) : ℚ :=
  match side with
  | right => symbol.maxY - p.y
  | top => symbol.maxX - p.x
  | left => p.y - symbol.minY
  | bottom => p.x - symbol.minX

/-- The point of a list key, on its side and off the corners by a margin. -/
def pointOfKey (symbol : Rect ℚ) (margin : ℚ) (key : OrderKey) : Guarded (Point ℚ) :=
  (ofKey key).point symbol (fractionOfKey key) margin

/-- How far the walk has come at a list key. -/
def walked (symbol : Rect ℚ) (key : OrderKey) : ℚ :=
  (ofKey key).before symbol + (ofKey key).progress symbol (pointOfKey symbol 0 key).value

section Around

variable {symbol : Rect ℚ}

/-- The sides of a solid symbol have some length. -/
lemma length_pos (hsymbol : symbol.Solid) (side : Side) : 0 < side.length symbol := by
  cases side with
  | right | left => exact sub_pos.mpr hsymbol.y
  | top | bottom => exact sub_pos.mpr hsymbol.x

/-- A side has its number among all sides. -/
lemma getElem?_all_rank (side : Side) : all[side.rank]? = some side := by
  cases side <;> rfl

/-- An earlier side is behind the walk when it comes to a later one. -/
lemma before_add_length_le (hsymbol : symbol.Solid) {side side' : Side}
    (hrank : side.rank < side'.rank) :
    side.before symbol + side.length symbol ≤ side'.before symbol := by
  have hnonneg : ∀ l ∈ (all.take side'.rank).map (·.length symbol), 0 ≤ l := by
    intro l hl
    obtain ⟨other, -, rfl⟩ := List.mem_map.mp hl
    exact (length_pos hsymbol other).le
  calc side.before symbol + side.length symbol
      = ((all.take (side.rank + 1)).map (·.length symbol)).sum := by
        rw [List.take_add_one, getElem?_all_rank, List.map_append, List.sum_append, before]
        simp
    _ ≤ side'.before symbol :=
        ((List.take_sublist_take_left hrank).map _).sum_le_sum hnonneg

/-- Without a margin a key is that fraction of the length along its side. -/
lemma walked_eq (hsymbol : symbol.Solid) (key : OrderKey) :
    walked symbol key =
      (ofKey key).before symbol + (ofKey key).length symbol * fractionOfKey key := by
  obtain ⟨hfirst, hlast, -⟩ := fractionOfKey_within key
  rw [walked, pointOfKey]
  congr 1
  cases ofKey key with
  | right =>
    change symbol.maxY - (along symbol.maxY symbol.minY (fractionOfKey key) 0).value =
      (symbol.maxY - symbol.minY) * _
    rw [value_along_zero hsymbol.y (Or.inr ⟨rfl, rfl⟩) hfirst hlast]
    ring
  | top =>
    change symbol.maxX - (along symbol.maxX symbol.minX (fractionOfKey key) 0).value =
      (symbol.maxX - symbol.minX) * _
    rw [value_along_zero hsymbol.x (Or.inr ⟨rfl, rfl⟩) hfirst hlast]
    ring
  | left =>
    change (along symbol.minY symbol.maxY (fractionOfKey key) 0).value - symbol.minY =
      (symbol.maxY - symbol.minY) * _
    rw [value_along_zero hsymbol.y (Or.inl ⟨rfl, rfl⟩) hfirst hlast]
    ring
  | bottom =>
    change (along symbol.minX symbol.maxX (fractionOfKey key) 0).value - symbol.minX =
      (symbol.maxX - symbol.minX) * _
    rw [value_along_zero hsymbol.x (Or.inl ⟨rfl, rfl⟩) hfirst hlast]
    ring

/-- The walk goes on with every key. -/
theorem walked_lt (hsymbol : symbol.Solid) {key key' : OrderKey} (hlt : key < key') :
    walked symbol key < walked symbol key' := by
  rw [walked_eq hsymbol, walked_eq hsymbol]
  have hlength := length_pos hsymbol (ofKey key)
  rcases (rank_le_of_lt hlt).lt_or_eq with hrank | hrank
  · -- the end of a side is not reached by a key that is not the greatest
    have hne : key ≠ .greatest := by
      rintro rfl
      exact Int32.not_lt.mpr (Int32.le_maxValue key') hlt
    have hshort := mul_lt_mul_of_pos_left ((fractionOfKey_within key).2.2 hne) hlength
    have hnext := before_add_length_le hsymbol hrank
    have hfurther := mul_nonneg (length_pos hsymbol (ofKey key')).le (fractionOfKey_within key').1
    linarith
  · have hside := rank_injective hrank
    have hfurther := mul_lt_mul_of_pos_left (fractionOfKey_lt hlt hside) hlength
    rw [hside] at hfurther ⊢
    linarith

/-- The walk starts with the least key. -/
lemma walked_least (hsymbol : symbol.Solid) : walked symbol .least = 0 := by
  have hside : ofKey .least = right := by decide
  have hfraction : (fractionOfKey .least : ℚ) = 0 := by decide +kernel
  rw [walked_eq hsymbol, hside, hfraction, mul_zero, add_zero]
  rfl

/-- With the greatest key the walk has come around. -/
lemma walked_greatest (hsymbol : symbol.Solid) :
    walked symbol .greatest = 2 * (symbol.width + symbol.height) := by
  have hside : ofKey .greatest = bottom := by decide
  have hfraction : (fractionOfKey .greatest : ℚ) = 1 := by decide +kernel
  have hbefore : before bottom symbol =
      right.length symbol + (top.length symbol + (left.length symbol + 0)) := rfl
  rw [walked_eq hsymbol, hside, hfraction, hbefore]
  simp only [length, extent, Rect.width, Rect.height]
  ring

/-! ## Margins -/

/-- A point lies on a side of a symbol, off both corners by a margin where there is room for the
margins and in the middle where there is not. -/
structure KeepsMargin (side : Side) (symbol : Rect ℚ) (margin : ℚ) (p : Point ℚ) : Prop where
  on : side.outside symbol p = 0
  low : (side.extent symbol).1 ≤ side.place p
  high : side.place p ≤ (side.extent symbol).2
  margins : 2 * margin < side.length symbol →
    (side.extent symbol).1 + margin ≤ side.place p ∧
      side.place p ≤ (side.extent symbol).2 - margin
  middle : side.length symbol ≤ 2 * margin →
    side.place p = ((side.extent symbol).1 + (side.extent symbol).2) / 2

/-- The place of a point along a side is walked to from one corner to the other. -/
lemma exists_place_point (side : Side) (symbol : Rect ℚ) (fraction margin : ℚ) :
    ∃ start stop, (start = (side.extent symbol).1 ∧ stop = (side.extent symbol).2 ∨
        start = (side.extent symbol).2 ∧ stop = (side.extent symbol).1) ∧
      side.place (side.point symbol fraction margin).value =
        (along start stop fraction margin).value := by
  cases side with
  | right | top => exact ⟨_, _, Or.inr ⟨rfl, rfl⟩, rfl⟩
  | left | bottom => exact ⟨_, _, Or.inl ⟨rfl, rfl⟩, rfl⟩

/-- The point of a list key keeps its margin. -/
theorem keepsMargin_pointOfKey (hsymbol : symbol.Solid) {margin : ℚ} (hmargin : 0 ≤ margin)
    (key : OrderKey) :
    (ofKey key).KeepsMargin symbol margin (pointOfKey symbol margin key).value := by
  have hlength := length_pos hsymbol (ofKey key)
  have hmargins : 2 * margin < (ofKey key).length symbol →
      ((ofKey key).extent symbol).1 + margin ≤
          (ofKey key).place (pointOfKey symbol margin key).value ∧
        (ofKey key).place (pointOfKey symbol margin key).value ≤
          ((ofKey key).extent symbol).2 - margin := by
    intro hroom
    exact ((ofKey key).point_within hmargin hroom.le (fractionOfKey key)).2
  have hmiddle : (ofKey key).length symbol ≤ 2 * margin →
      (ofKey key).place (pointOfKey symbol margin key).value =
        (((ofKey key).extent symbol).1 + ((ofKey key).extent symbol).2) / 2 := by
    intro hnone
    obtain ⟨start, stop, hends, hplace⟩ :=
      exists_place_point (ofKey key) symbol (fractionOfKey key) margin
    rw [pointOfKey, hplace, value_along (sub_pos.mp hlength).le hends, ← length,
      if_neg (not_lt.mpr hnone)]
  have hwithin : ((ofKey key).extent symbol).1 ≤
        (ofKey key).place (pointOfKey symbol margin key).value ∧
      (ofKey key).place (pointOfKey symbol margin key).value ≤ ((ofKey key).extent symbol).2 := by
    rcases lt_or_ge (2 * margin) ((ofKey key).length symbol) with hroom | hnone
    · obtain ⟨hlow, hhigh⟩ := hmargins hroom
      constructor <;> linarith
    · rw [hmiddle hnone]
      rw [length] at hlength
      constructor <;> linarith
  refine ⟨?_, hwithin.1, hwithin.2, hmargins, hmiddle⟩
  rw [pointOfKey]
  cases ofKey key <;> exact sub_self _

/-- On one side a greater key is no less far along, whatever the margin. -/
theorem progress_pointOfKey_mono (hsymbol : symbol.Solid) (margin : ℚ) {key key' : OrderKey}
    (hle : key ≤ key') (hside : ofKey key = ofKey key') :
    (ofKey key).progress symbol (pointOfKey symbol margin key).value ≤
      (ofKey key).progress symbol (pointOfKey symbol margin key').value := by
  rcases Int32.lt_or_eq_of_le hle with hlt | rfl
  · have hfraction := (fractionOfKey_lt hlt hside).le
    have hx := along_mono hsymbol.x.le hfraction margin
    have hy := along_mono hsymbol.y.le hfraction margin
    rw [pointOfKey, pointOfKey, ← hside]
    cases ofKey key with
    | right => exact sub_le_sub_left hy.2 symbol.maxY
    | top => exact sub_le_sub_left hx.2 symbol.maxX
    | left => exact sub_le_sub_right hy.1 symbol.minY
    | bottom => exact sub_le_sub_right hx.1 symbol.minX
  · exact le_rfl

end Around

/-- List keys in ascending order walk once around a symbol, further with every key. With a margin
they still walk along their sides, off the corners where there is room and in the middle where there
is not. -/
theorem walk_aroundSymbol {symbol : Rect ℚ} (hsymbol : symbol.Solid) :
    (∀ key key', key < key' → walked symbol key < walked symbol key') ∧
      walked symbol .least = 0 ∧
      walked symbol .greatest = 2 * (symbol.width + symbol.height) ∧
      ∀ margin, 0 ≤ margin → ∀ key,
        (pointOfKey symbol margin key).defined = true ∧
        (ofKey key).KeepsMargin symbol margin (pointOfKey symbol margin key).value ∧
        ∀ key', key ≤ key' → ofKey key = ofKey key' →
          (ofKey key).progress symbol (pointOfKey symbol margin key).value ≤
            (ofKey key).progress symbol (pointOfKey symbol margin key').value := by
  refine ⟨fun _ _ hlt => walked_lt hsymbol hlt, walked_least hsymbol, walked_greatest hsymbol, ?_⟩
  intro margin hmargin key
  exact ⟨defined_point _ _ _ _, keepsMargin_pointOfKey hsymbol hmargin key,
    fun _ hle hside => progress_pointOfKey_mono hsymbol margin hle hside⟩

/-- A symbol that is wider than it is high. -/
def wideSymbol : Rect ℚ := .ofCorner 10 20 120 12

/-- Around the symbol neighbouring keys on both sides of a corner are apart, and a margin of half the
height leaves but the middle of the right side. -/
theorem walk_aroundSymbol_wideSymbol :
    wideSymbol.Solid ∧
      walked wideSymbol (-0x40000001) < walked wideSymbol (-0x40000000) ∧
      walked wideSymbol (-0x40000000) = 12 ∧
      walked wideSymbol .greatest = 264 ∧
      (ofKey (-0x40000001)).KeepsMargin wideSymbol 6
        (pointOfKey wideSymbol 6 (-0x40000001)).value ∧
      (pointOfKey wideSymbol 6 (-0x40000001)).value = ⟨130, 26⟩ := by
  have hsymbol : wideSymbol.Solid := ⟨by decide +kernel, by decide +kernel⟩
  obtain ⟨hlt, -, hgreatest, hmargins⟩ := walk_aroundSymbol hsymbol
  refine ⟨hsymbol, hlt _ _ (by decide), by decide +kernel, ?_, (hmargins 6 (by norm_num) _).2.1,
    by decide +kernel⟩
  rw [hgreatest]
  decide +kernel

end Side

end DiagramLayout
