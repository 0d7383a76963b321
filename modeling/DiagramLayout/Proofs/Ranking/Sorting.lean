import DiagramLayout.Proofs.Doubles
import DiagramLayout.Proofs.Ranking

/-!
# Rankings sort stably

Indices may be ranked in any order and by any doubles, numbers or not. However they come, a ranking
holds those that came first in the order of a stable sort by their weights.

A sorted list stays sorted if a further element is put behind all that are at most as large, and
that is what a stable sort makes of the longer list (`mergeSort_concat`): an element that is put in
at the back and one that is put in at the front do not get in each other's way
(`orderedInsert_insertBehind`). The rest is an induction over the requests.

The place behind all that are at most as large is found by halving. The search looks at few elements
and relies on the list being sorted for the others (`insertBehind_eq_insertIdx`), which is why a
ranking must be sorted before every request.

## Main definitions

* `insertBehind`: a list with an element behind all that are at most as large.
* `partitionPoint`: the end of the elements at the front that pass a test, found by halving.
* `Ranking.Request`: a call that asks for an index to be ranked.
-/

namespace DiagramLayout

/-! ## Stable sorting from the back -/

section Sorting

variable {β : Type} {le : β → β → Bool}

/-- The list with an element behind all that are at most as large. -/
def insertBehind (le : β → β → Bool) (x : β) (xs : List β) : List β :=
  xs.takeWhile (le · x) ++ x :: xs.dropWhile (le · x)

@[simp] lemma insertBehind_nil (x : β) : insertBehind le x [] = [x] := rfl

/-- An element goes behind the head of a list or before it. -/
lemma insertBehind_cons (x y : β) (ys : List β) :
    insertBehind le x (y :: ys) =
      if le y x = true then y :: insertBehind le x ys else x :: y :: ys := by
  unfold insertBehind
  rw [List.takeWhile_cons, List.dropWhile_cons]
  split_ifs <;> rfl

variable (htrans : ∀ a b c, le a b = true → le b c = true → le a c = true)
  (htotal : ∀ a b, (le a b || le b a) = true)

include htrans htotal

/-- An element that is put before all that are at least as large and one that is put behind all that
are at most as large may be put there in either order. -/
lemma orderedInsert_insertBehind (a x : β) (xs : List β) :
    (insertBehind le x xs).orderedInsert (le · · = true) a =
      insertBehind le x (xs.orderedInsert (le · · = true) a) := by
  induction xs with
  | nil => simp [insertBehind_cons]
  | cons b ys ih =>
    by_cases hab : le a b = true
    · by_cases hbx : le b x = true
      · have hax := htrans a b x hab hbx
        simp [insertBehind_cons, hab, hbx, hax]
      · by_cases hax : le a x = true <;> simp [insertBehind_cons, hab, hbx, hax]
    · by_cases hbx : le b x = true
      · simp [insertBehind_cons, hab, hbx, ih]
      · -- the element from the back is below the head and the one from the front is above it
        have hxb : le x b = true := by simpa [hbx] using htotal x b
        have hax : ¬ le a x = true := fun hax => hab (htrans a x b hax hxb)
        simp [insertBehind_cons, hab, hbx, hax]

/-- Sorting puts the head of a list before all that are at least as large. -/
lemma mergeSort_cons_eq_orderedInsert (a : β) (xs : List β) :
    (a :: xs).mergeSort le = (xs.mergeSort le).orderedInsert (le · · = true) a := by
  obtain ⟨before, after, hsorted, hrest, hbefore⟩ := List.mergeSort_cons htrans htotal a xs
  have hpairwise := List.pairwise_mergeSort htrans htotal (a :: xs)
  rw [hsorted] at hpairwise
  have hafter : ∀ b ∈ after, le a b = true :=
    (List.pairwise_cons.mp (List.pairwise_append.mp hpairwise).2.1).1
  rw [hsorted, hrest]
  clear hsorted hrest hpairwise
  induction before with
  | nil =>
    cases after with
    | nil => rfl
    | cons b bs =>
      exact (List.orderedInsert_cons_of_le (le · · = true) bs (hafter b List.mem_cons_self)).symm
  | cons b bs ih =>
    obtain ⟨hb, hbs⟩ := List.forall_mem_cons.mp hbefore
    have hab : ¬ le a b = true := by simpa using hb
    rw [List.cons_append, List.cons_append,
      List.orderedInsert_of_not_le (le · · = true) _ hab, ← ih hbs]

/-- Sorting puts a further element behind all that are at most as large. -/
theorem mergeSort_concat (xs : List β) (x : β) :
    (xs ++ [x]).mergeSort le = insertBehind le x (xs.mergeSort le) := by
  induction xs with
  | nil => simp
  | cons a xs ih =>
    rw [List.cons_append, mergeSort_cons_eq_orderedInsert htrans htotal, ih,
      orderedInsert_insertBehind htrans htotal, ← mergeSort_cons_eq_orderedInsert htrans htotal]

end Sorting

/-! ## Searching by halving -/

section Searching

/-- The end of the numbers from `base` on that pass a test, among `size` numbers of which all that
pass come before all that fail. Of two or more numbers the one in the middle decides in which half
the search goes on. -/
def bisect (test : ℕ → Bool) (base size : ℕ) : ℕ :=
  if size ≤ 1 then if size = 1 ∧ test base = true then base + 1 else base
  else
    bisect test (if test (base + size / 2) = true then base + size / 2 else base) (size - size / 2)
termination_by size

/-- If the numbers that pass the test are those below a bound, the search finds the bound. -/
lemma bisect_eq {test : ℕ → Bool} {bound : ℕ} (htest : ∀ i, test i = true ↔ i < bound)
    (base size : ℕ) (hlow : base ≤ bound) (hhigh : bound ≤ base + size) :
    bisect test base size = bound := by
  induction size using Nat.strong_induction_on generalizing base with
  | h size ih =>
    unfold bisect
    simp only [htest]
    by_cases hsmall : size ≤ 1
    · rw [if_pos hsmall]
      split_ifs <;> omega
    · rw [if_neg hsmall]
      have hhalf : size - size / 2 < size := by omega
      split_ifs with hmiddle
      · exact ih _ hhalf _ hmiddle.le (by omega)
      · exact ih _ hhalf _ hlow (by omega)

variable {β : Type}

/-- The number of elements at the front of a list that pass a test, found by halving. -/
def partitionPoint (test : β → Bool) (xs : List β) : ℕ :=
  bisect (fun i => xs[i]?.any test) 0 xs.length

/-- If elements that pass a test never come after one that fails, all that fail are at the end. -/
lemma forall_mem_dropWhile {test : β → Bool} {xs : List β}
    (h : xs.Pairwise fun a b => test b = true → test a = true) :
    ∀ x ∈ xs.dropWhile test, test x = false := by
  induction xs with
  | nil => simp
  | cons y ys ih =>
    obtain ⟨hy, hys⟩ := List.pairwise_cons.mp h
    by_cases htest : test y = true
    · rw [List.dropWhile_cons, if_pos htest]
      exact ih hys
    · rw [List.dropWhile_cons, if_neg htest]
      intro x hx
      rcases List.mem_cons.mp hx with rfl | hx
      · exact Bool.eq_false_iff.mpr htest
      · exact Bool.eq_false_iff.mpr fun hpass => htest (hy x hx hpass)

/-- The search finds where the elements that pass the test end. -/
lemma partitionPoint_eq {test : β → Bool} {xs : List β}
    (h : xs.Pairwise fun a b => test b = true → test a = true) :
    partitionPoint test xs = (xs.takeWhile test).length := by
  have hsplit : xs.takeWhile test ++ xs.dropWhile test = xs := List.takeWhile_append_dropWhile
  refine bisect_eq (fun i => ?_) 0 xs.length (Nat.zero_le _) ?_
  · constructor
    · intro hpass
      by_contra hafter
      rw [← hsplit, List.getElem?_append_right (not_lt.mp hafter), Option.any_eq_true] at hpass
      obtain ⟨x, hx, hpass⟩ := hpass
      rw [forall_mem_dropWhile h x (List.mem_of_getElem? hx)] at hpass
      cases hpass
    · intro hbefore
      rw [← hsplit, List.getElem?_append_left hbefore, Option.any_eq_true]
      exact ⟨_, List.getElem?_eq_getElem hbefore, List.mem_takeWhile_imp (List.getElem_mem _)⟩
  · rw [zero_add]
    exact (List.takeWhile_prefix test).length_le

/-- The place behind all that are at most as large is where these end. -/
lemma insertBehind_eq_insertIdx {le : β → β → Bool} {x : β} {xs : List β}
    (h : xs.Pairwise fun a b => le b x = true → le a x = true) :
    insertBehind le x xs = xs.insertIdx (partitionPoint (le · x) xs) x := by
  rw [partitionPoint_eq h]
  clear h
  induction xs with
  | nil => rfl
  | cons y ys ih =>
    rw [insertBehind_cons, List.takeWhile_cons]
    split_ifs
    · rw [ih, List.length_cons, List.insertIdx_succ_cons]
    · rfl

end Searching

/-! ## Requests -/

namespace Ranking

/-- A call that asks for an index with a weight to be ranked. One that inserts is told if there is
no room, one that offers is not. -/
inductive Request (α : Type) where
  | insert (index : ℕ) (weight : α)
  | offer (index : ℕ) (weight : α)
deriving DecidableEq, Repr

/-- The index of a request with its weight. -/
def Request.weighted {α : Type} : Request α → ℕ × α
  | insert index weight => (index, weight)
  | offer index weight => (index, weight)

variable {α : Type} [Scalar α]

/-- The ranking after a request. -/
def serve (r : Ranking α) : Request α → Ranking α
  | .insert index weight =>
    match r.insert index weight with
    | .ok larger => larger
    | .error _ => r
  | .offer index weight => r.offer index weight

/-- The ranking after requests that are served one after the other. -/
def serveAll (capacity : ℕ) (requests : List (Request α)) : Ranking α :=
  requests.foldl serve (empty capacity)

/-- Whether a request inserts or offers its index makes no difference to the ranking. -/
lemma serve_eq_offer (r : Ranking α) (q : Request α) :
    r.serve q = r.offer q.weighted.1 q.weighted.2 := by
  cases q <;> rfl

/-- A request is served if there is room, and otherwise changes nothing. -/
lemma serve_eq (r : Ranking α) (q : Request α) :
    r.serve q =
      if r.entries.length < r.capacity then
        { r with entries := place (entryOf q.weighted) r.entries }
      else r := by
  rw [serve_eq_offer, offer_eq]

/-! ## Doubles as weights -/

/-- True if the first weight does not come after the second. What is not a number counts as
infinity. -/
def weighsAtMost (a b : ℕ × Float) : Bool := decide (Binary64.counted a.2 ≤ Binary64.counted b.2)

/-- The order of weights is that of ranks. -/
lemma atMost_entryOf (a b : ℕ × Float) :
    (entryOf a).2.atMost (entryOf b).2 = weighsAtMost a b := by
  rw [weighsAtMost, entryOf, entryOf, Binary64.atMost_ofWeight]
  exact decide_eq_decide.mpr (Binary64.counted_le_iff a.2 b.2).symm

/-- The order of weights goes through a weight in between. -/
lemma weighsAtMost_trans (a b c : ℕ × Float) (hab : weighsAtMost a b = true)
    (hbc : weighsAtMost b c = true) : weighsAtMost a c = true := by
  simp only [weighsAtMost, decide_eq_true_eq, Binary64.counted_le_iff] at hab hbc ⊢
  exact hab.trans hbc

/-- Any two weights are in order. -/
lemma weighsAtMost_total (a b : ℕ × Float) : (weighsAtMost a b || weighsAtMost b a) = true := by
  simp only [weighsAtMost, Bool.or_eq_true, decide_eq_true_eq, Binary64.counted_le_iff]
  exact le_total _ _

/-- An entry is put behind all that rank at most as high. -/
lemma place_eq_insertBehind {α : Type} [Scalar α] (entry : ℕ × Rank α)
    (entries : List (ℕ × Rank α)) :
    place entry entries = insertBehind (fun a b => a.2.atMost b.2) entry entries := rfl

/-- An entry is placed as its weight is. -/
lemma place_map_entryOf (w : ℕ × Float) (ws : List (ℕ × Float)) :
    place (entryOf w) (ws.map entryOf) = (insertBehind weighsAtMost w ws).map entryOf := by
  rw [place_eq_insertBehind]
  unfold insertBehind
  simp only [List.takeWhile_map, List.dropWhile_map, List.map_append, List.map_cons,
    Function.comp_def, atMost_entryOf]

/-- The requests that come first, as many as there is room for, in the order of a stable sort by
their weights. -/
def sorted (capacity : ℕ) (requests : List (Request Float)) : List (ℕ × Float) :=
  ((requests.take capacity).map Request.weighted).mergeSort weighsAtMost

/-- A ranking holds the requests that come first in the order of their weights. -/
theorem serveAll_eq (capacity : ℕ) (requests : List (Request Float)) :
    serveAll capacity requests = ⟨capacity, (sorted capacity requests).map entryOf⟩ := by
  induction requests using List.reverseRecOn with
  | nil => simp [serveAll, sorted, empty]
  | append_singleton requests q ih =>
    have hnext : serveAll capacity (requests ++ [q]) = (serveAll capacity requests).serve q :=
      List.foldl_concat _ _ _ _
    have hlength : (sorted capacity requests).length = min capacity requests.length := by
      simp [sorted]
    rw [hnext, serve_eq, ih]
    dsimp only
    rw [List.length_map, hlength]
    by_cases hroom : requests.length < capacity
    · have hall : (requests ++ [q]).length ≤ capacity := by simpa using hroom
      rw [if_pos (by omega), place_map_entryOf, sorted, sorted, List.take_of_length_le hroom.le,
        List.take_of_length_le hall, List.map_append, List.map_singleton,
        mergeSort_concat weighsAtMost_trans weighsAtMost_total]
    · rw [if_neg (by omega), sorted, sorted, List.take_append_of_le_length (not_lt.mp hroom)]

/-- The entries of a ranking are sorted, whatever has been requested. -/
theorem pairwise_serveAll (capacity : ℕ) (requests : List (Request Float)) :
    (serveAll capacity requests).entries.Pairwise fun a b => a.2.atMost b.2 = true := by
  rw [serveAll_eq]
  refine List.pairwise_map.mpr ?_
  simp only [atMost_entryOf]
  exact List.pairwise_mergeSort weighsAtMost_trans weighsAtMost_total _

/-- A further entry goes where the search by halving ends. -/
lemma place_serveAll (capacity : ℕ) (requests : List (Request Float)) (w : ℕ × Float) :
    place (entryOf w) (serveAll capacity requests).entries =
      (serveAll capacity requests).entries.insertIdx
        (partitionPoint (fun e => e.2.atMost (entryOf w).2) (serveAll capacity requests).entries)
        (entryOf w) := by
  have hsearch : (serveAll capacity requests).entries.Pairwise fun a b =>
      b.2.atMost (entryOf w).2 = true → a.2.atMost (entryOf w).2 = true := by
    rw [serveAll_eq]
    refine List.pairwise_map.mpr ?_
    simp only [atMost_entryOf]
    exact (List.pairwise_mergeSort weighsAtMost_trans weighsAtMost_total _).imp
      fun {a b} hab hb => weighsAtMost_trans a b w hab hb
  rw [place_eq_insertBehind]
  exact insertBehind_eq_insertIdx hsearch

/-- Whatever has been requested, a ranking has the indices that came first, as many as there is room
for, in the order of a stable sort by their weights. Its entries are sorted before every further
request, so the place of the request is found by halving. While there is room the request is served
there; if there is none, it is refused and nothing changes. -/
theorem serveAll_sorts (capacity : ℕ) (requests : List (Request Float)) (q : Request Float) :
    (serveAll capacity requests).order =
        (((requests.take capacity).map Request.weighted).mergeSort weighsAtMost).map Prod.fst ∧
      ((serveAll capacity requests).entries.Pairwise fun a b => a.2.atMost b.2 = true) ∧
      (requests.length < capacity →
        (serveAll capacity requests).insert q.weighted.1 q.weighted.2 =
            .ok (serveAll capacity (requests ++ [q])) ∧
          (serveAll capacity (requests ++ [q])).entries =
            (serveAll capacity requests).entries.insertIdx
              (partitionPoint (fun e => e.2.atMost (entryOf q.weighted).2)
                (serveAll capacity requests).entries)
              (entryOf q.weighted)) ∧
      (capacity ≤ requests.length →
        (serveAll capacity requests).insert q.weighted.1 q.weighted.2 =
            .error ⟨.rankedEntries, capacity⟩ ∧
          serveAll capacity (requests ++ [q]) = serveAll capacity requests) := by
  have hcapacity : (serveAll capacity requests).capacity = capacity := by rw [serveAll_eq]
  have hlength : (serveAll capacity requests).entries.length = min capacity requests.length := by
    simp [serveAll_eq, sorted]
  have hnext : serveAll capacity (requests ++ [q]) = (serveAll capacity requests).serve q :=
    List.foldl_concat _ _ _ _
  refine ⟨?_, pairwise_serveAll capacity requests, fun hroom => ?_, fun hfull => ?_⟩
  · rw [serveAll_eq, order, List.map_map]
    rfl
  · have hroom' : (serveAll capacity requests).entries.length <
        (serveAll capacity requests).capacity := by
      omega
    obtain ⟨hinsert, -⟩ := insert_of_room hroom' q.weighted.1 q.weighted.2
    rw [hnext, hinsert, serve_eq_offer]
    refine ⟨rfl, ?_⟩
    rw [offer_eq, if_pos hroom']
    exact place_serveAll capacity requests q.weighted
  · have hfull' : ¬ (serveAll capacity requests).entries.length <
        (serveAll capacity requests).capacity := by
      omega
    rw [hnext, serve_eq, if_neg hfull', insert, if_neg hfull', hcapacity]
    exact ⟨rfl, rfl⟩

/-- The zeros are equal, and so are infinity and what is not a number. -/
example :
    (serveAll 5 [.insert 0 (0 / 0), .offer 1 0, .insert 2 (-0), .insert 3 (-1), .offer 4 (1 / 0),
      .insert 5 (-2)] : Ranking Float).order = [3, 1, 2, 0, 4] := by
  decide +kernel

end Ranking

end DiagramLayout
