import DiagramLayout.Proofs.Entries
import DiagramLayout.Proofs.Ranking.Sorting

/-!
# Infinity and what is not a number

A weight that is not a number is ranked as infinity is, and a stable sort leaves the two in the
order in which they came. So what is not a number ranks after every number below infinity, whenever
it came, and after infinity only if it came later (`Ranking.ranksAfter_iff`). A ranking has all
numbers in front exactly if no infinity was inserted after something that is not a number
(`Ranking.numbersFirst_iff`).

Indices may repeat, so they do not tell which entry is which. The entries are told apart by the
numbers of their insertions: `Ranking.turns` has these numbers in the order of the ranks, and the
indices of a ranking are read off it.
-/

namespace DiagramLayout

namespace Ranking

/-! ## Insertions by their numbers -/

/-- A ranking sorts the weights that come first, as many as there is room for. -/
lemma ofWeights_eq (capacity : ℕ) (weights : List (ℕ × Float)) :
    ofWeights capacity weights =
      ⟨capacity, ((weights.take capacity).mergeSort weighsAtMost).map entryOf⟩ := by
  have hserved : ofWeights capacity weights =
      serveAll capacity (weights.map fun w => .insert w.1 w.2) := by
    unfold ofWeights serveAll
    rw [List.foldl_map]
    rfl
  rw [hserved, serveAll_eq, sorted, ← List.map_take, List.map_map]
  congr
  exact List.map_id _

/-- If no insertion is refused, there is room for all. -/
lemma room_of_foldlM_insert {α : Type} [Scalar α] {weights : List (ℕ × α)} {r r' : Ranking α}
    (hroom : r.entries.length ≤ r.capacity)
    (h : weights.foldlM (fun r (index, weight) => r.insert index weight) r = .ok r') :
    r.entries.length + weights.length ≤ r.capacity := by
  induction weights generalizing r with
  | nil => simpa using hroom
  | cons w ws ih =>
    obtain ⟨index, weight⟩ := w
    by_cases hnext : r.entries.length < r.capacity
    · obtain ⟨hinsert, hcapacity, hlength⟩ := insert_of_room hnext index weight
      simp only [List.foldlM_cons, hinsert] at h
      have hrest := ih (by rw [hcapacity, hlength]; omega) h
      rw [hcapacity, hlength] at hrest
      rw [List.length_cons]
      omega
    · have hrefused : r.insert index weight = .error ⟨.rankedEntries, r.capacity⟩ := by
        rw [insert, if_neg hnext]
      simp only [List.foldlM_cons, hrefused] at h
      cases h

/-- If no insertion is refused, the ranking is that of all weights. -/
lemma eq_of_insertAll_eq_ok {α : Type} [Scalar α] {capacity : ℕ} {weights : List (ℕ × α)}
    {r : Ranking α} (h : insertAll capacity weights = .ok r) :
    weights.length ≤ capacity ∧ r = ofWeights capacity weights := by
  have hroom : weights.length ≤ capacity := by
    simpa [empty] using room_of_foldlM_insert (r := empty capacity) (Nat.zero_le _) h
  rw [insertAll_of_room hroom] at h
  exact ⟨hroom, (Except.ok.inj h).symm⟩

/-- The weights with the numbers of their insertions as indices. -/
def numbered (weights : List (ℕ × Float)) : List (ℕ × Float) :=
  weights.zipIdx.map fun w => (w.2, w.1.2)

/-- The numbers of the insertions in the order in which their entries rank. -/
def turns (weights : List (ℕ × Float)) : List ℕ :=
  (ofWeights weights.length (numbered weights)).order

/-- True if the weight of the first insertion does not come after that of the second. -/
def turnAtMost (a b : (ℕ × Float) × ℕ) : Bool := weighsAtMost a.1 b.1

/-- The insertions with their numbers in the order of their weights. -/
def sortedTurns (weights : List (ℕ × Float)) : List ((ℕ × Float) × ℕ) :=
  weights.zipIdx.mergeSort turnAtMost

/-- The sorted insertions bear their numbers. -/
lemma getElem?_of_mem_sortedTurns {weights : List (ℕ × Float)} {w : (ℕ × Float) × ℕ}
    (hw : w ∈ sortedTurns weights) : weights[w.2]? = some w.1 :=
  List.mem_zipIdx_iff_getElem?.mp (List.mem_mergeSort.mp hw)

/-- The entries rank in the order of a stable sort. -/
lemma turns_eq (weights : List (ℕ × Float)) :
    turns weights = (sortedTurns weights).map Prod.snd := by
  have hall : (numbered weights).take weights.length = numbered weights :=
    List.take_of_length_le (by simp [numbered])
  have hsorted : (numbered weights).mergeSort weighsAtMost =
      (sortedTurns weights).map fun w => (w.2, w.1.2) := by
    have horder : ∀ a ∈ weights.zipIdx, ∀ b ∈ weights.zipIdx,
        turnAtMost a b = weighsAtMost (a.2, a.1.2) (b.2, b.1.2) := fun _ _ _ _ => rfl
    exact (List.map_mergeSort horder).symm
  rw [turns, ofWeights_eq, hall, hsorted, order, List.map_map, List.map_map]
  rfl

/-- The indices of a ranking are those of the insertions in the order of their turns. -/
lemma order_ofWeights {capacity : ℕ} {weights : List (ℕ × Float)}
    (hroom : weights.length ≤ capacity) :
    (ofWeights capacity weights).order.map some =
      (turns weights).map fun number => weights[number]?.map Prod.fst := by
  have hsorted : weights.mergeSort weighsAtMost = (sortedTurns weights).map Prod.fst := by
    have horder : ∀ a ∈ weights.zipIdx, ∀ b ∈ weights.zipIdx,
        turnAtMost a b = weighsAtMost a.1 b.1 := fun _ _ _ _ => rfl
    rw [sortedTurns, List.map_mergeSort horder, List.zipIdx_map_fst]
  rw [ofWeights_eq, List.take_of_length_le hroom, hsorted, turns_eq, order]
  simp only [List.map_map]
  refine List.map_congr_left fun w hw => ?_
  simp only [Function.comp_apply, getElem?_of_mem_sortedTurns hw, Option.map_some]
  rfl

/-- Every insertion has one turn. -/
lemma perm_turns (weights : List (ℕ × Float)) :
    (turns weights).Perm (List.range weights.length) := by
  have hperm := (List.mergeSort_perm weights.zipIdx turnAtMost).map Prod.snd
  rw [List.zipIdx_map_snd, ← List.range_eq_range'] at hperm
  rw [turns_eq]
  exact hperm

/-- Entries rank by their weights, and those of equal weight by the numbers of their insertions. -/
lemma pairwise_turns (weights : List (ℕ × Float)) :
    (turns weights).Pairwise fun i j => ∀ a b, weights[i]? = some a → weights[j]? = some b →
      weighsAtMost a b = true ∧ (weighsAtMost b a = true → i < j) := by
  have hnumbers : weights.zipIdx.Pairwise fun a b => a.2 < b.2 := by
    rw [← List.pairwise_map (f := Prod.snd) (R := fun a b => a < b), List.zipIdx_map_snd]
    exact List.pairwise_lt_range'
  have htrans (a b c : (ℕ × Float) × ℕ) : turnAtMost a b = true → turnAtMost b c = true →
      turnAtMost a c = true := weighsAtMost_trans a.1 b.1 c.1
  have htotal (a b : (ℕ × Float) × ℕ) : (turnAtMost a b || turnAtMost b a) = true :=
    weighsAtMost_total a.1 b.1
  have hstable := pairwise_mergeSort_stable htrans htotal Prod.snd hnumbers
  rw [turns_eq]
  refine List.pairwise_map.mpr (hstable.imp_of_mem fun {v w} hv hw hvw a b ha hb => ?_)
  obtain rfl : v.1 = a := Option.some.inj ((getElem?_of_mem_sortedTurns hv).symm.trans ha)
  obtain rfl : w.1 = b := Option.some.inj ((getElem?_of_mem_sortedTurns hw).symm.trans hb)
  exact hvw

/-! ## Numbers and what is none -/

/-- Weights are in the order of their keys. -/
lemma weighsAtMost_iff {a b : ℕ × Float} :
    weighsAtMost a b = true ↔ Binary64.key a.2 ≤ Binary64.key b.2 := by
  rw [weighsAtMost, decide_eq_true_eq, Binary64.counted_le_iff]

/-- What is not a number ranks after a number exactly if the number is below infinity or was
inserted before. -/
theorem ranksAfter_iff {weights : List (ℕ × Float)} {i j : ℕ} {a b : ℕ × Float}
    (hi : weights[i]? = some a) (hj : weights[j]? = some b) (ha : a.2.isNaN = true)
    (hb : b.2.isNaN = false) :
    [j, i].Sublist (turns weights) ↔ Scalar.isBelowInfinity b.2 = true ∨ j < i := by
  have hturn {k : ℕ} {c : ℕ × Float} (hk : weights[k]? = some c) : k ∈ turns weights := by
    obtain ⟨hlt, -⟩ := List.getElem?_eq_some_iff.mp hk
    exact (perm_turns weights).mem_iff.mpr (List.mem_range.mpr hlt)
  have hpairwise {k l : ℕ} (hkl : [k, l].Sublist (turns weights)) :=
    List.pairwise_iff_forall_sublist.mp (pairwise_turns weights) hkl
  have hlast : weighsAtMost b a = true := by
    rw [weighsAtMost_iff, Binary64.key_of_isNaN ha]
    exact Binary64.key_le_lastKey b.2
  have hbelow : weighsAtMost a b = true ↔ ¬ Scalar.isBelowInfinity b.2 = true := by
    rw [weighsAtMost_iff, Binary64.key_of_isNaN ha, Binary64.isBelowInfinity_iff, not_lt]
  constructor
  · intro hbefore
    obtain ⟨-, hstable⟩ := hpairwise hbefore b a hj hi
    by_cases hinfinite : weighsAtMost a b = true
    · exact Or.inr (hstable hinfinite)
    · exact Or.inl (not_not.mp (mt hbelow.mpr hinfinite))
  · intro h
    have hne : j ≠ i := by
      rintro rfl
      rw [Option.some.inj (hi.symm.trans hj), hb] at ha
      cases ha
    refine (sublist_or_sublist_swap (hturn hj) (hturn hi) hne).resolve_right fun hafter => ?_
    obtain ⟨hle, hstable⟩ := hpairwise hafter a b hi hj
    have hearlier := hstable hlast
    rcases h with hfinite | hlater
    · exact hbelow.mp hle hfinite
    · omega

/-- What is not a number ranks after every number. -/
def NumbersFirst (weights : List (ℕ × Float)) : Prop :=
  ∀ (i j : ℕ) (a b : ℕ × Float), weights[i]? = some a → weights[j]? = some b →
    a.2.isNaN = true → b.2.isNaN = false → [j, i].Sublist (turns weights)

/-- After insertions that are all successful the indices are in the order of the turns. What is not
a number has its turn after every number exactly if no infinity was inserted after it. -/
theorem numbersFirst_iff {capacity : ℕ} {weights : List (ℕ × Float)} {r : Ranking Float}
    (h : insertAll capacity weights = .ok r) :
    (turns weights).Perm (List.range weights.length) ∧
      r.order.map some = (turns weights).map (fun number => weights[number]?.map Prod.fst) ∧
      (NumbersFirst weights ↔ weights.Pairwise fun a b =>
        a.2.isNaN = true → b.2.isNaN = false → Scalar.isBelowInfinity b.2 = true) := by
  obtain ⟨hroom, rfl⟩ := eq_of_insertAll_eq_ok h
  refine ⟨perm_turns weights, order_ofWeights hroom, ?_⟩
  rw [List.pairwise_iff_getElem]
  constructor
  · intro hfirst i j hi hj hlt ha hb
    have hi' := List.getElem?_eq_getElem hi
    have hj' := List.getElem?_eq_getElem hj
    have hturns := (ranksAfter_iff hi' hj' ha hb).mp (hfirst i j _ _ hi' hj' ha hb)
    exact hturns.resolve_right (Nat.not_lt.mpr hlt.le)
  · intro hbelow i j a b hi hj ha hb
    refine (ranksAfter_iff hi hj ha hb).mpr ?_
    rcases Nat.lt_trichotomy i j with hlt | rfl | hearlier
    · obtain ⟨hi', rfl⟩ := List.getElem?_eq_some_iff.mp hi
      obtain ⟨hj', rfl⟩ := List.getElem?_eq_some_iff.mp hj
      exact Or.inl (hbelow i j hi' hj' hlt ha hb)
    · rw [Option.some.inj (hi.symm.trans hj), hb] at ha
      cases ha
    · exact Or.inr hearlier

/-- Something that is not a number, and then infinity. -/
def infinityLast : List (ℕ × Float) := [(0, 0 / 0), (1, 1 / 0)]

/-- Infinity ranks after what is not a number if it comes later. -/
theorem infinityLast_not_numbersFirst :
    (insertAll 2 infinityLast).map order = .ok [0, 1] ∧ ¬ NumbersFirst infinityLast := by
  refine ⟨by decide +kernel, fun hfirst => ?_⟩
  have hbefore := hfirst 0 1 _ _ rfl rfl (by decide +kernel) (by decide +kernel)
  have hturns : turns infinityLast = [0, 1] := by decide +kernel
  rw [hturns] at hbefore
  exact absurd hbefore (by decide)

/-- Infinity and something that is not a number, with numbers below and between them. -/
def infinityBetween : List (ℕ × Float) := [(7, 1 / 0), (4, 3), (7, 0 / 0), (2, -1 / 0), (4, 0 / 0)]

/-- If infinity comes before what is not a number, all numbers are in front. -/
theorem infinityBetween_numbersFirst :
    ∃ r, insertAll 5 infinityBetween = .ok r ∧ r.order = [2, 4, 7, 7, 4] ∧
      NumbersFirst infinityBetween := by
  have hroom : insertAll 5 infinityBetween = .ok (ofWeights 5 infinityBetween) :=
    insertAll_of_room (by decide)
  refine ⟨_, hroom, by decide +kernel, (numbersFirst_iff hroom).2.2.mpr ?_⟩
  decide +kernel

end Ranking

end DiagramLayout
