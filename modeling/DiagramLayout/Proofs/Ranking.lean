import DiagramLayout.Proofs.Exact
import DiagramLayout.Ranking

/-!
# What a ranking holds

A ranking holds the entries that came first, as many as it has room for, and it holds them in the
order of their ranks. So a ranking with room for all loses none: its order is a permutation of the
indices that were offered, and over exact numbers their weights ascend.
-/

namespace DiagramLayout

namespace Ranking

section Contents

variable {α : Type} [Scalar α]

/-- The entry that an index with a weight becomes. -/
def entryOf (weighted : ℕ × α) : ℕ × Rank α := (weighted.1, Rank.ofWeight weighted.2)

/-- An index is taken in as long as there is room. -/
lemma offer_eq (r : Ranking α) (index : ℕ) (weight : α) :
    r.offer index weight =
      if r.entries.length < r.capacity then
        { r with entries := place (entryOf (index, weight)) r.entries }
      else r := by
  unfold offer insert
  by_cases hroom : r.entries.length < r.capacity
  · simp only [hroom, if_true]
    rfl
  · simp only [hroom, if_false]

/-- Indices offered one after the other are taken in until there is no room. -/
lemma perm_foldl_offer (weights : List (ℕ × α)) (r : Ranking α) :
    (weights.foldl (fun r (index, weight) => r.offer index weight) r).entries.Perm
      (r.entries ++ (weights.take (r.capacity - r.entries.length)).map entryOf) := by
  induction weights generalizing r with
  | nil => simp
  | cons w ws ih =>
    obtain ⟨index, weight⟩ := w
    rw [List.foldl_cons]
    change (ws.foldl _ (r.offer index weight)).entries.Perm _
    rw [offer_eq]
    by_cases hroom : r.entries.length < r.capacity
    · have hplaced := perm_place (entryOf (index, weight)) r.entries
      obtain ⟨room, hcount⟩ : ∃ room, r.capacity - r.entries.length = room + 1 :=
        ⟨r.capacity - r.entries.length - 1, by omega⟩
      have hleft : r.capacity - (place (entryOf (index, weight)) r.entries).length = room := by
        rw [hplaced.length_eq, List.length_cons]
        omega
      rw [if_pos hroom, hcount, List.take_succ_cons, List.map_cons]
      refine (ih _).trans ?_
      rw [hleft]
      exact (hplaced.append_right _).trans List.perm_middle.symm
    · have hfull : r.capacity - r.entries.length = 0 := by omega
      rw [if_neg hroom, hfull, List.take_zero]
      simpa [hfull] using ih r

/-- A ranking holds what was offered first. -/
theorem perm_ofWeights (capacity : ℕ) (weights : List (ℕ × α)) :
    (ofWeights capacity weights).entries.Perm ((weights.take capacity).map entryOf) := by
  simpa [ofWeights, empty] using perm_foldl_offer weights (empty capacity)

/-- A ranking with room for all loses no index. -/
theorem perm_order_ofWeights {capacity : ℕ} {weights : List (ℕ × α)}
    (hroom : weights.length ≤ capacity) :
    (ofWeights capacity weights).order.Perm (weights.map Prod.fst) := by
  have hperm := (perm_ofWeights capacity weights).map Prod.fst
  rw [List.take_of_length_le hroom, List.map_map] at hperm
  exact hperm

/-- Different indices come once each in the order of their ranking. -/
theorem nodup_order_ofWeights (capacity : ℕ) {weights : List (ℕ × α)}
    (hnodup : (weights.map Prod.fst).Nodup) : (ofWeights capacity weights).order.Nodup := by
  have hperm := (perm_ofWeights capacity weights).map Prod.fst
  rw [List.map_map] at hperm
  exact hperm.nodup_iff.mpr (((List.take_sublist capacity weights).map _).nodup hnodup)

/-- The ranking of weighted indices, or the error of the first one that is refused. -/
def insertAll (capacity : ℕ) (weights : List (ℕ × α)) : Except CapacityError (Ranking α) :=
  weights.foldlM (fun r (index, weight) => r.insert index weight) (empty capacity)

/-- Offering an index takes it in if there is room, and then one place less is left. -/
lemma insert_of_room {r : Ranking α} (hroom : r.entries.length < r.capacity) (index : ℕ)
    (weight : α) :
    r.insert index weight = .ok (r.offer index weight) ∧
      (r.offer index weight).capacity = r.capacity ∧
      (r.offer index weight).entries.length = r.entries.length + 1 := by
  have hplaced := perm_place (entryOf (index, weight)) r.entries
  rw [offer_eq, if_pos hroom, insert, if_pos hroom]
  exact ⟨rfl, rfl, by simpa using hplaced.length_eq⟩

/-- Where there is room for all, nothing is refused, and inserting is the same as offering. -/
lemma foldlM_insert_of_room (weights : List (ℕ × α)) {r : Ranking α}
    (hroom : r.entries.length + weights.length ≤ r.capacity) :
    weights.foldlM (fun r (index, weight) => r.insert index weight) r =
      .ok (weights.foldl (fun r (index, weight) => r.offer index weight) r) := by
  induction weights generalizing r with
  | nil => rfl
  | cons w ws ih =>
    obtain ⟨index, weight⟩ := w
    rw [List.length_cons] at hroom
    have hnext : r.entries.length < r.capacity := by omega
    obtain ⟨hinsert, hcapacity, hlength⟩ := insert_of_room hnext index weight
    simp only [List.foldlM_cons, List.foldl_cons, hinsert]
    exact ih (by rw [hcapacity, hlength]; omega)

/-- A ranking with room for all refuses no index. -/
theorem insertAll_of_room {capacity : ℕ} {weights : List (ℕ × α)}
    (hroom : weights.length ≤ capacity) :
    insertAll capacity weights = .ok (ofWeights capacity weights) :=
  foldlM_insert_of_room weights (by simpa [empty] using hroom)

/-- Whatever is ranked was offered. -/
lemma mem_of_mem_order {capacity : ℕ} {weights : List (ℕ × α)} {index : ℕ}
    (h : index ∈ (ofWeights capacity weights).order) : index ∈ weights.map Prod.fst := by
  have hmem := ((perm_ofWeights capacity weights).map Prod.fst).mem_iff.mp h
  rw [List.map_map] at hmem
  exact List.map_subset _ (List.take_subset _ _) hmem

end Contents

/-! ## Ascending ranks -/

section Ascending

/-- Ranks are ascending if none comes after a later one. -/
def Ascending (entries : List (ℕ × Rank ℚ)) : Prop :=
  entries.Pairwise fun a b => a.2.atMost b.2 = true

/-- Of two ranks one does not come after the other. -/
lemma atMost_total (a b : Rank ℚ) (h : a.atMost b = false) : b.atMost a = true := by
  rcases a with _ | a
  · rcases b with _ | b <;> simp [Rank.atMost] at h ⊢
  · rcases b with _ | b
    · simp [Rank.atMost] at h
    · simp only [Rank.atMost, decide_eq_false_iff_not, decide_eq_true_eq] at h ⊢
      exact (not_le.mp h).le

/-- The order of ranks goes through a rank in between. -/
lemma atMost_trans {a b c : Rank ℚ} (hab : a.atMost b = true) (hbc : b.atMost c = true) :
    a.atMost c = true := by
  rcases c with _ | c
  · cases a <;> rfl
  · rcases b with _ | b
    · cases hbc
    · rcases a with _ | a
      · cases hab
      · simp only [Rank.atMost, decide_eq_true_eq] at hab hbc ⊢
        exact hab.trans hbc

/-- A further entry is put where the ranks stay ascending. -/
lemma Ascending.place {entries : List (ℕ × Rank ℚ)} (h : Ascending entries)
    (entry : ℕ × Rank ℚ) : Ascending (place entry entries) := by
  induction entries with
  | nil => exact List.pairwise_singleton _ _
  | cons e es ih =>
    obtain ⟨hhead, htail⟩ := List.pairwise_cons.mp h
    unfold Ranking.place
    by_cases hle : e.2.atMost entry.2 = true
    · -- the entry goes somewhere behind the first one
      simp only [List.takeWhile_cons, List.dropWhile_cons, hle, if_true, List.cons_append]
      refine List.pairwise_cons.mpr ⟨fun x hx => ?_, ih htail⟩
      rcases List.mem_cons.mp ((perm_place entry es).mem_iff.mp hx) with rfl | hmem
      · exact hle
      · exact hhead x hmem
    · -- the entry goes to the front
      have hlt : e.2.atMost entry.2 = false := by simpa using hle
      simp only [List.takeWhile_cons, List.dropWhile_cons, hlt, Bool.false_eq_true, if_false,
        List.nil_append]
      refine List.pairwise_cons.mpr ⟨fun x hx => ?_, h⟩
      have hfront := atMost_total _ _ hlt
      rcases List.mem_cons.mp hx with rfl | hmem
      · exact hfront
      · exact atMost_trans hfront (hhead x hmem)

/-- The entries of a ranking are in the order of their ranks. -/
theorem ascending_ofWeights (capacity : ℕ) (weights : List (ℕ × ℚ)) :
    Ascending (ofWeights capacity weights).entries := by
  unfold ofWeights
  have hnone : Ascending (empty capacity).entries := List.Pairwise.nil
  refine List.foldlRecOn weights _ (motive := fun r : Ranking ℚ => Ascending r.entries) hnone ?_
  rintro r hr ⟨index, weight⟩ -
  simp only [offer_eq]
  split_ifs
  · exact hr.place _
  · exact hr

/-- Indices ranked by a measure come in the order of that measure. -/
theorem pairwise_order_ofWeights (capacity : ℕ) (measure : ℕ → ℚ) (indices : List ℕ) :
    (ofWeights capacity (indices.map fun i => (i, measure i))).order.Pairwise
      fun i j => measure i ≤ measure j := by
  have hrank (e) (he : e ∈ (ofWeights capacity (indices.map fun i => (i, measure i))).entries) :
      e.2 = some (measure e.1) := by
    have hmem := (perm_ofWeights _ _).mem_iff.mp he
    obtain ⟨w, hw, rfl⟩ := List.mem_map.mp hmem
    obtain ⟨i, -, rfl⟩ := List.mem_map.mp (List.take_subset _ _ hw)
    simp [entryOf, Rank.ofWeight]
  refine List.pairwise_map.mpr ((ascending_ofWeights _ _).imp_of_mem fun {a b} ha hb hab => ?_)
  rw [hrank a ha, hrank b hb] at hab
  simpa [Rank.atMost] using hab

end Ascending

end Ranking

end DiagramLayout
