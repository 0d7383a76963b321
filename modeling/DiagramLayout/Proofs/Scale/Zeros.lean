import DiagramLayout.Proofs.Doubles.Zeros
import DiagramLayout.Proofs.Scale

/-!
# Scales and the signs of zeros

Scales over doubles are *alike* if they have the same keys, and if the ends of their ranges and the
locations of their anchors are alike. This is the equality of scales when numbers are compared: the
sign of a zero does not count. The scales then answer alike. The locations they give to a key are
alike, and the keys they give to a location are the same (`Scale.Alike.location`,
`Scale.Alike.keyAt_eq`): a location is only compared with those of the anchors, and where the scale
divides, it divides by the difference of two locations in strict order.
-/

namespace DiagramLayout

namespace Scale

/-- The scales have the same keys, and what numbers they have are alike. -/
structure Alike (s s' : Scale Float) : Prop where
  lower : Binary64.Alike s.lower s'.lower
  upper : Binary64.Alike s.upper s'.upper
  keys : s.keys = s'.keys
  locations : List.Forall₂ Binary64.Alike s.locations s'.locations

/-- The anchors have one key, and their locations are alike. -/
inductive AlikeAnchor : OrderKey × Float → OrderKey × Float → Prop where
  | mk (key : OrderKey) {a a' : Float} (h : Binary64.Alike a a') : AlikeAnchor (key, a) (key, a')

/-! ## Anchors -/

/-- Over alike ranges the anchors of the same keys have alike locations. -/
lemma Centered.alike {s s' : Scale Float} (h : s.Centered) (h' : s'.Centered)
    (hlower : Binary64.Alike s.lower s'.lower) (hupper : Binary64.Alike s.upper s'.upper)
    (hkeys : s.keys = s'.keys) : s.Alike s' where
  lower := hlower
  upper := hupper
  keys := hkeys
  locations := by
    have hcell : Binary64.Alike s.cell s'.cell := by
      unfold cell
      rw [hkeys]
      exact (hupper.sub hlower).div _
    rw [h, h', middles, middles, hkeys, List.forall₂_map_left_iff, List.forall₂_map_right_iff,
      List.forall₂_same]
    intro i _
    exact hlower.add (Binary64.Alike.mul (.refl _) hcell)

namespace Alike

variable {s s' : Scale Float}

/-- Alike scales have alike anchors. -/
lemma anchors (h : s.Alike s') : List.Forall₂ AlikeAnchor s.anchors s'.anchors := by
  have hzip (keys : List OrderKey) {xs xs' : List Float}
      (hxs : List.Forall₂ Binary64.Alike xs xs') :
      List.Forall₂ AlikeAnchor (keys.zip xs) (keys.zip xs') := by
    induction hxs generalizing keys with
    | nil =>
      rw [List.zip_nil_right]
      exact .nil
    | cons hx _ ih =>
      cases keys with
      | nil => exact .nil
      | cons key keys => exact .cons (.mk key hx) (ih keys)
  rw [Scale.anchors, Scale.anchors, ← h.keys]
  exact hzip s.keys h.locations

/-- The anchors of alike scales with the ends of their ranges are alike. -/
lemma anchorsWithEnds (h : s.Alike s') :
    List.Forall₂ AlikeAnchor s.anchorsWithEnds s'.anchorsWithEnds := by
  unfold Scale.anchorsWithEnds
  rw [← h.keys]
  refine List.rel_append (List.rel_append ?_ h.anchors) ?_
  · split_ifs
    · exact .nil
    · exact .cons (.mk .least h.lower) .nil
  · split_ifs
    · exact .nil
    · exact .cons (.mk .greatest h.upper) .nil

end Alike

/-! ## Searches among anchors -/

/-- Among alike anchors a key is found at alike locations. -/
lemma alike_locate (key : OrderKey) {beyond beyond' : Float}
    (hbeyond : Binary64.Alike beyond beyond') {xs xs' : List (OrderKey × Float)}
    (h : List.Forall₂ AlikeAnchor xs xs') :
    Binary64.Alike (locate key beyond xs) (locate key beyond' xs') := by
  induction h with
  | nil => exact hbeyond
  | cons ha hrest ih =>
    obtain ⟨keyA, hlocA⟩ := ha
    cases hrest with
    | nil => exact hbeyond
    | cons hb _ =>
      obtain ⟨keyB, hlocB⟩ := hb
      unfold locate
      split_ifs
      · exact hlocA
      · exact hlocB
      · exact hlocA.add (Binary64.Alike.mul (.refl _) (hlocB.sub hlocA))
      · exact ih

/-- Among alike anchors a location has the same key. -/
lemma keyBetween_eq (location : Float) {xs xs' : List (OrderKey × Float)}
    (h : List.Forall₂ AlikeAnchor xs xs') : keyBetween location xs = keyBetween location xs' := by
  induction h with
  | nil => rfl
  | cons ha hrest ih =>
    obtain ⟨keyA, hlocA⟩ := ha
    cases hrest with
    | nil => rfl
    | cons hb _ =>
      obtain ⟨keyB, hlocB⟩ := hb
      have hreached := Binary64.Alike.le_iff (.refl location) hlocB
      have hflat := hlocB.le_iff hlocA
      unfold keyBetween
      simp only [hreached, hflat]
      split_ifs with _ hrises
      · rfl
      · -- the anchors are in strict order, so the divisor is the same
        rw [← hflat] at hrises
        rw [← hlocB.sub_eq hlocA hrises]
        apply Binary64.Alike.nearestKey_eq
        exact Binary64.Alike.add (.refl _) (.mul ((Binary64.Alike.sub (.refl _) hlocA).div _) (.refl _))
      · exact ih

/-! ## Answers -/

namespace Alike

variable {s s' : Scale Float} (h : s.Alike s')

include h

/-- Alike scales give a key alike locations. -/
theorem location (key : OrderKey) : Binary64.Alike (s.location key) (s'.location key) :=
  alike_locate key h.upper h.anchorsWithEnds

/-- Alike scales have the same key between their anchors. -/
lemma interpolatedKey_eq (location : Float) :
    s.interpolatedKey location = s'.interpolatedKey location := by
  have hlower : location ≤ s.lower ↔ location ≤ s'.lower :=
    Binary64.Alike.le_iff (.refl location) h.lower
  have hupper : s.upper ≤ location ↔ s'.upper ≤ location := h.upper.le_iff (.refl location)
  unfold interpolatedKey
  simp only [hlower, hupper, keyBetween_eq location h.anchorsWithEnds]

/-- Alike scales have the same anchor nearest to a location, and it is equally near. -/
lemma nearestAnchor_eq (location : Float) :
    s.nearestAnchor location = s'.nearestAnchor location := by
  have hdistances : s.anchors.map (fun (key, a) => (key, Scalar.abs (a - location))) =
      s'.anchors.map fun (key, a) => (key, Scalar.abs (a - location)) := by
    rw [← List.forall₂_eq_eq_eq, List.forall₂_map_left_iff, List.forall₂_map_right_iff]
    refine h.anchors.imp fun a a' ha => ?_
    obtain ⟨key, hloc⟩ := ha
    exact Prod.ext rfl (hloc.sub (.refl location)).abs_eq
  rw [nearestAnchor, nearestAnchor, hdistances]

/-- Alike scales give a location the same key. -/
theorem keyAt_eq (location snap : Float) : s.keyAt location snap = s'.keyAt location snap := by
  unfold keyAt
  rw [h.nearestAnchor_eq, h.interpolatedKey_eq]

end Alike

end Scale

end DiagramLayout
