import DiagramLayout.Model.ElementSet
import DiagramLayout.Scalar

/-!
# Rankings

A ranking holds indices in the order of their weights. Indices of equal weight stay in the order in
which they came, so the same input always gives the same order. There is room for a bounded number
of entries.

A weight that is not below infinity, which includes one that is not a number, ranks last. All such
weights are equal, so among themselves their indices stay in the order in which they came.
-/

namespace DiagramLayout

/-- The place that a weight gives in a ranking; `none` is the last. -/
abbrev Rank (α : Type) := Option α

namespace Rank

variable {α : Type} [Scalar α]

/-- The rank of a weight. -/
def ofWeight (weight : α) : Rank α := if Scalar.isBelowInfinity weight then some weight else none

/-- True if the first rank does not come after the second. -/
def atMost : Rank α → Rank α → Bool
  | some a, some b => decide (a ≤ b)
  | _, none => true
  | none, some _ => false

end Rank

/-- Indices in ascending order of their ranks, at most as many as the capacity. -/
structure Ranking (α : Type) where
  capacity : Nat
  entries : List (Nat × Rank α)
deriving DecidableEq, Repr

namespace Ranking

variable {α : Type} [Scalar α]

/-- The ranking without entries. The capacity only bounds how many there may be: reserving memory for
them, which fails for capacities beyond all memory, is not modelled. -/
def empty (capacity : Nat) : Ranking α := ⟨capacity, []⟩

/-- An entry put behind all that rank at most as high. -/
def place (entry : Nat × Rank α) (entries : List (Nat × Rank α)) : List (Nat × Rank α) :=
  entries.takeWhile (fun e => e.2.atMost entry.2) ++
    entry :: entries.dropWhile (fun e => e.2.atMost entry.2)

/-- The ranking with a further index, if there is room. -/
def insert (r : Ranking α) (index : Nat) (weight : α) : Except CapacityError (Ranking α) :=
  if r.entries.length < r.capacity then
    .ok { r with entries := place (index, Rank.ofWeight weight) r.entries }
  else .error ⟨.rankedEntries, r.capacity⟩

/-- The ranking with a further index, or as it was if there is no room. -/
def offer (r : Ranking α) (index : Nat) (weight : α) : Ranking α :=
  match r.insert index weight with
  | .ok larger => larger
  | .error _ => r

/-- The ranking of weighted indices that come one after the other. -/
def ofWeights (capacity : Nat) (weights : List (Nat × α)) : Ranking α :=
  weights.foldl (fun r (index, weight) => r.offer index weight) (empty capacity)

/-- The indices from the first rank to the last. -/
def order (r : Ranking α) : List Nat := r.entries.map Prod.fst

theorem perm_place (entry : Nat × Rank α) (entries : List (Nat × Rank α)) :
    List.Perm (place entry entries) (entry :: entries) := by
  unfold place
  refine List.perm_middle.trans ?_
  rw [List.takeWhile_append_dropWhile]

end Ranking

end DiagramLayout
