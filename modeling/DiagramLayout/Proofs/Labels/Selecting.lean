import DiagramLayout.Labels
import DiagramLayout.Proofs.Conflicts
import DiagramLayout.Proofs.Exact

/-!
# The place of a label

A label goes to the place with the least cost, which is the debt of the place and a tenth for every
place that is tried before it. The search keeps the first of the least costs: over exact numbers
every cost is below infinity, so it is the search of `Scalar.leastBy` (`Scalar.cheapestBy_eq_leastBy`).

The debt of a place is summed over lists of any length, but it measures one conflict, namely how
far the place reaches into what is in the way of a label (`Drawing.measures_labelDebt`). So it is
never negative, and zero for the places that are free. A place that is free bounds the cost of the
chosen one by its penalty, and nothing is cheaper than the first place if that is free.

## Main definitions

* `Drawing.HasInWay`: the points of the plane that a label keeps clear of.
-/

namespace DiagramLayout

/-! ## The first of the least costs -/

namespace Scalar

variable {β : Type} (cost : β → ℚ)

/-- Comparing costs keeps the same element as comparing measures. -/
lemma foldl_cheaper (xs : List β) (y : β) :
    (xs.foldl (cheaper cost) (some (y, cost y))).map Prod.fst =
      some (xs.foldl (fun best z => if precedes (cost z) (cost best) then z else best) y) := by
  induction xs generalizing y with
  | nil => rfl
  | cons z zs ih =>
    rw [List.foldl_cons, List.foldl_cons, cheaper_exact, precedes_exact]
    by_cases hzy : cost z < cost y
    · simpa only [if_pos hzy, decide_eq_true hzy, if_true] using ih z
    · simpa only [if_neg hzy, decide_eq_false hzy, Bool.false_eq_true, if_false] using ih y

/-- Since no cost is infinite, the cheapest element is the first one of the least measure. -/
lemma cheapestBy_eq_leastBy (xs : List β) : cheapestBy cost xs = leastBy cost xs := by
  cases xs with
  | nil => rfl
  | cons y ys =>
    rw [cheapestBy, List.foldl_cons, cheaper_exact]
    exact foldl_cheaper cost ys y

end Scalar

namespace Drawing

variable (d : Drawing ℚ) (lineWidth : ℚ)

/-! ## What is in the way -/

/-- What is in the way of a label: everything outside the draw area, an envelope without its space,
the symbol and the label of a feature, and a drawn line with its label. -/
def HasInWay (p : Point ℚ) : Prop :=
  d.sheet.drawArea.HasOutside p ∨
  (∃ c ∈ d.classifiers, c.boxes.envelope.HasInside p ∧ c.boxes.space.HasOutside p) ∨
  (∃ f ∈ d.features, f.symbol.HasInside p ∨ f.label.HasInside p) ∨
  ∃ r ∈ d.relationships, r.isDrawn = true ∧ (r.route.Covers lineWidth p ∨ r.label.HasInside p)

/-- The debt of a label measures how far it reaches into what is in its way. -/
lemma measures_labelDebt : Debt.Measures (d.labelDebt lineWidth) (d.HasInWay lineWidth) := by
  have hclassifier (c : PlacedClassifier ℚ) :
      Debt.Measures (Debt.ofLabelOnClassifier · c.boxes)
        fun p => c.boxes.envelope.HasInside p ∧ c.boxes.space.HasOutside p := by
    simp only [Debt.ofLabelOnClassifier_eq]
    exact (Debt.Measures.areaOutside c.boxes.space).within c.boxes.envelope
  have hfeature (f : PlacedFeature ℚ) :
      Debt.Measures (Debt.ofLabelOnFeature · f)
        fun p => f.symbol.HasInside p ∨ f.label.HasInside p :=
    (Debt.Measures.overlapArea f.symbol).add (Debt.Measures.overlapArea f.label)
  have hrelationship (r : RoutedRelationship ℚ) :
      Debt.Measures (Debt.ofLabelOnConnector · r lineWidth)
        fun p => r.isDrawn = true ∧ (r.route.Covers lineWidth p ∨ r.label.HasInside p) :=
    ((Debt.Measures.coverage r.route lineWidth).add (Debt.Measures.overlapArea r.label)).onlyIf _
  have hall := (((Debt.measures_ofBox d.sheet).add
    (Debt.Measures.sum hclassifier d.classifiers)).add
    (Debt.Measures.sum hfeature d.features)).add
    (Debt.Measures.sum hrelationship d.relationships)
  simp only [or_assoc] at hall
  exact hall

/-! ## The choice -/

/-- The cost of a place is its debt and a tenth of its number. -/
lemma placeCost_exact (place : Rect ℚ) (index : ℕ) :
    d.placeCost lineWidth (place, index) = d.labelDebt lineWidth place + index / 10 := by
  simp only [placeCost, Scalar.num_exact, Nat.cast_one, Nat.cast_ofNat]
  ring

/-- The selected place is the first one of the least cost. -/
lemma exists_selectPlace {places : List (Rect ℚ)} (hplaces : places ≠ []) :
    ∃ place, places[d.selectPlace lineWidth places]? = some place ∧
      ∀ j other, places[j]? = some other →
        d.placeCost lineWidth (place, d.selectPlace lineWidth places) ≤
            d.placeCost lineWidth (other, j) ∧
          (j < d.selectPlace lineWidth places →
            d.placeCost lineWidth (place, d.selectPlace lineWidth places) <
              d.placeCost lineWidth (other, j)) := by
  have hnumbered : places.zipIdx ≠ [] := by simpa using hplaces
  obtain ⟨before, ⟨place, index⟩, after, hsplit, hleast, hbefore, hafter⟩ :=
    Scalar.exists_leastBy (d.placeCost lineWidth) hnumbered
  have hselect : d.selectPlace lineWidth places = index := by
    rw [selectPlace, Scalar.cheapestBy_eq_leastBy, hleast]
  have hnumber {j : ℕ} {entry : Rect ℚ × ℕ} (h : places.zipIdx[j]? = some entry) :
      places[j]? = some entry.1 ∧ entry.2 = j := by
    rw [List.getElem?_zipIdx, zero_add] at h
    obtain ⟨other, hother, rfl⟩ := Option.map_eq_some_iff.mp h
    exact ⟨hother, rfl⟩
  have hplace : places.zipIdx[before.length]? = some (place, index) := by
    rw [hsplit, List.getElem?_append_right le_rfl, Nat.sub_self, List.getElem?_cons_zero]
  obtain ⟨hplace, rfl⟩ := hnumber hplace
  rw [hselect]
  refine ⟨place, hplace, fun j other hother => ?_⟩
  have hentry : (before ++ (place, before.length) :: after)[j]? = some (other, j) := by
    rw [← hsplit, List.getElem?_zipIdx, hother, Option.map_some, zero_add]
  rcases lt_trichotomy j before.length with hj | rfl | hj
  · rw [List.getElem?_append_left hj] at hentry
    have hless := hbefore _ (List.mem_of_getElem? hentry)
    exact ⟨hless.le, fun _ => hless⟩
  · rw [List.getElem?_append_right le_rfl, Nat.sub_self, List.getElem?_cons_zero,
      Option.some.injEq] at hentry
    exact ⟨(congrArg _ hentry).le, fun hlt => absurd hlt (lt_irrefl _)⟩
  · obtain ⟨n, hn⟩ : ∃ n, j - before.length = n + 1 := ⟨j - before.length - 1, by omega⟩
    rw [List.getElem?_append_right hj.le, hn, List.getElem?_cons_succ] at hentry
    exact ⟨hafter _ (List.mem_of_getElem? hentry), fun hlt => absurd hlt hj.asymm⟩

/-- Among places the selected one has the least sum of its debt and a tenth of its number, and is
the first of those. If there is a free place, that sum is at most a tenth of the number of the free
one; and if the first place is free, it is the selected one. -/
theorem selectPlace_least {places : List (Rect ℚ)} (hplaces : places ≠ []) :
    ∃ place, places[d.selectPlace lineWidth places]? = some place ∧
      (∀ (j : ℕ) (other : Rect ℚ), places[j]? = some other →
        d.labelDebt lineWidth place + d.selectPlace lineWidth places / 10 ≤
            d.labelDebt lineWidth other + j / 10 ∧
          (j < d.selectPlace lineWidth places →
            d.labelDebt lineWidth place + d.selectPlace lineWidth places / 10 <
              d.labelDebt lineWidth other + j / 10)) ∧
      (∀ (j : ℕ) (other : Rect ℚ), places[j]? = some other →
        ¬ other.Reaches (d.HasInWay lineWidth) →
        d.labelDebt lineWidth place + d.selectPlace lineWidth places / 10 ≤ j / 10) ∧
      ∀ other, places[0]? = some other → ¬ other.Reaches (d.HasInWay lineWidth) →
        d.selectPlace lineWidth places = 0 := by
  obtain ⟨place, hplace, hleast⟩ := d.exists_selectPlace lineWidth hplaces
  simp only [placeCost_exact] at hleast
  have hdebt := d.measures_labelDebt lineWidth
  have hfree {j : ℕ} {other : Rect ℚ} (hother : places[j]? = some other)
      (hclear : ¬ other.Reaches (d.HasInWay lineWidth)) :
      d.labelDebt lineWidth place + d.selectPlace lineWidth places / 10 ≤ j / 10 := by
    have hle := (hleast j other hother).1
    rwa [(hdebt.eq_zero_iff other).mpr hclear, zero_add] at hle
  refine ⟨place, hplace, hleast, fun j other => hfree, fun other hother hclear => ?_⟩
  have hzero : ((d.selectPlace lineWidth places : ℕ) : ℚ) ≤ 0 := by
    have hle := hfree hother hclear
    have hnonneg := hdebt.nonneg place
    rw [Nat.cast_zero, zero_div] at hle
    linarith
  exact Nat.le_zero.mp (by exact_mod_cast hzero)

/-- Two classes that are joined by a line. -/
def joinedClasses : Drawing ℚ where
  diagram := ⟨⟨1⟩, .classes, "d"⟩
  sheet := .ofBounds (.ofCorner 0 0 408 208) .standard .xy
  nesting := .flat 2
  classifiers :=
    [⟨⟨⟨10⟩, .classType, "A", 0, 0, false⟩, ⟨⟨20, 20, 120, 80⟩, ⟨24, 24, 116, 76⟩, .empty, .empty⟩⟩,
      ⟨⟨⟨11⟩, .classType, "B", 1, 0, false⟩,
        ⟨⟨220, 20, 320, 80⟩, ⟨224, 24, 316, 76⟩, .empty, .empty⟩⟩]
  features := []
  relationships :=
    [⟨⟨⟨30⟩, .association, "uses", ⟨10⟩, ⟨11⟩, none, none, 0⟩, 0, 1, none, none,
      .horizontal ⟨120, 50⟩ ⟨220, 50⟩ 50, .shown, .empty⟩]

/-- A place on the border of a class, a free place and one on the line. -/
def placesToTry : List (Rect ℚ) := [⟨10, 10, 50, 30⟩, ⟨150, 120, 190, 140⟩, ⟨150, 40, 190, 60⟩]

/-- Of three places the free one is selected. -/
theorem selectPlace_least_joinedClasses :
    placesToTry ≠ [] ∧ joinedClasses.selectPlace 2 placesToTry = 1 ∧
      ∃ place, placesToTry[joinedClasses.selectPlace 2 placesToTry]? = some place ∧
        (∀ (j : ℕ) (other : Rect ℚ), placesToTry[j]? = some other →
          joinedClasses.labelDebt 2 place + joinedClasses.selectPlace 2 placesToTry / 10 ≤
              joinedClasses.labelDebt 2 other + j / 10 ∧
            (j < joinedClasses.selectPlace 2 placesToTry →
              joinedClasses.labelDebt 2 place + joinedClasses.selectPlace 2 placesToTry / 10 <
                joinedClasses.labelDebt 2 other + j / 10)) ∧
        (∀ (j : ℕ) (other : Rect ℚ), placesToTry[j]? = some other →
          ¬ other.Reaches (joinedClasses.HasInWay 2) →
          joinedClasses.labelDebt 2 place + joinedClasses.selectPlace 2 placesToTry / 10 ≤
            j / 10) ∧
        ∀ other, placesToTry[0]? = some other → ¬ other.Reaches (joinedClasses.HasInWay 2) →
          joinedClasses.selectPlace 2 placesToTry = 0 := by
  have hsome : placesToTry ≠ [] := by decide
  exact ⟨hsome, by decide +kernel, selectPlace_least joinedClasses 2 hsome⟩

end Drawing

end DiagramLayout
