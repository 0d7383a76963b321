import DiagramLayout.Model.ElementSet

/-!
# Nesting

Which classifiers enclose which, directly or through others between them. A `Nesting` is a square
table over the positions of the classifiers, and `Nesting.encloses` is its view: what the operations
do is said in terms of it.

The table starts with the edges given and is extended in passes, each of which takes every known
enclosure one edge further. A bounded number of passes closes chains up to a bounded depth, so a
deeper chain may stay open; no classifier ever encloses itself, even on a cycle of edges.
-/

namespace DiagramLayout

/-- Which of `size` classifiers enclose which, as the rows of a square table one after the other. -/
structure Nesting where
  size : Nat
  cells : Array Bool
deriving DecidableEq, Repr

/-- A parent and a child, by position. -/
abbrev NestingEdge := Nat × Nat

namespace Nesting

/-- The table without any enclosure. -/
def flat (size : Nat) : Nesting := ⟨size, Array.replicate (size * size) false⟩

/-- True if `ancestor` is known to enclose `descendant`. -/
def encloses (n : Nesting) (ancestor descendant : Nat) : Bool :=
  decide (ancestor < n.size) && decide (descendant < n.size) &&
    n.cells.getD (ancestor * n.size + descendant) false

/-- The table with one more enclosure. -/
def mark (n : Nesting) (ancestor descendant : Nat) : Nesting :=
  { n with cells := n.cells.setIfInBounds (ancestor * n.size + descendant) true }

/-- An edge counts if it joins two different classifiers that exist. -/
def isValidEdge (size : Nat) (edge : NestingEdge) : Bool :=
  decide (edge.1 < size) && decide (edge.2 < size) && edge.1 != edge.2

/-- The table with the edges themselves. -/
def direct (size : Nat) (edges : List NestingEdge) : Nesting :=
  (edges.filter (isValidEdge size)).foldl (fun n (parent, child) => n.mark parent child) (flat size)

/-- Whatever encloses the parent of an edge encloses its child, unless it is the child itself. -/
def extendAlong (n : Nesting) (edge : NestingEdge) : Nesting :=
  (List.range n.size).foldl (fun n ancestor =>
    if ancestor != edge.2 && n.encloses ancestor edge.1 then n.mark ancestor edge.2 else n) n

/-- One pass takes the edges in their order, each building on those before it. -/
def pass (edges : List NestingEdge) (n : Nesting) : Nesting :=
  (edges.filter (isValidEdge n.size)).foldl extendAlong n

/-- At most so many passes; a pass that adds nothing is the last. -/
def close (edges : List NestingEdge) : Nat → Nesting → Nesting
  | 0, n => n
  | passes + 1, n =>
    let next := pass edges n
    if next = n then n else close edges passes next

/-- The nesting of a list of edges. -/
def ofEdges (size : Nat) (edges : List NestingEdge) (passes : Nat) : Nesting :=
  close edges passes (direct size edges)

/-- The parent and child of every containment relationship between classifiers of the set. -/
def edgesOf (s : ElementSet) : List NestingEdge :=
  (s.relationships.filter (·.kind.isContainment)).filterMap fun r => do
    let parent ← s.classifierPosition r.fromClassifier
    let child ← s.classifierPosition r.toClassifier
    return (parent, child)

/-- The nesting of the classifiers of a set. -/
def ofElements (s : ElementSet) (passes : Nat) : Nesting :=
  ofEdges s.classifiers.length (edgesOf s) passes

/-- True for a classifier and itself, and for two of which one encloses the other. -/
def related (n : Nesting) (a b : Nat) : Bool := a == b || n.encloses a b || n.encloses b a

/-- The classifiers that one encloses, by ascending position. -/
def descendants (n : Nesting) (ancestor : Nat) : List Nat :=
  (List.range n.size).filter (n.encloses ancestor)

/-- How many classifiers one encloses. -/
def descendantCount (n : Nesting) (ancestor : Nat) : Nat := (n.descendants ancestor).length

theorem mem_descendants {n : Nesting} {a d : Nat} : d ∈ n.descendants a ↔ n.encloses a d := by
  simp only [descendants, List.mem_filter, List.mem_range]
  exact ⟨And.right, fun h => ⟨by grind [encloses], h⟩⟩

theorem related_comm (n : Nesting) (a b : Nat) : n.related a b = n.related b a := by
  simp only [related, Bool.beq_comm (a := a)]
  cases n.encloses a b <;> cases n.encloses b a <;> simp

@[simp] theorem related_self (n : Nesting) (a : Nat) : n.related a a = true := by
  simp [related]

end Nesting

end DiagramLayout
