import DiagramLayout.Scalar

/-!
# Scales

A scale turns order keys into locations along one axis. The keys that are registered on it, its
*anchors*, divide the range into cells of equal size and lie in their middles. Unless the extreme
keys are registered themselves, the least key of all lies at the lower end of the range and the
greatest at the upper end. Between neighbouring anchors the mapping is linear.

A scale keeps the locations of its anchors beside their keys. Whoever changes the keys or the range
has to place the anchors anew (`Scale.relocate`); a key that is registered already changes nothing.
-/

namespace DiagramLayout

/-- A range together with the order keys that are anchored on it, in ascending order, and with the
locations at which they are. -/
structure Scale (α : Type) where
  lower : α
  upper : α
  keys : List OrderKey
  locations : List α
deriving DecidableEq, Repr

namespace Scale

variable {α : Type} [Scalar α]

/-- A range as a pair of ends in order. Reversed ends are swapped. -/
def orderedRange (lower upper : α) : α × α :=
  if lower ≤ upper then (lower, upper) else (upper, lower)

/-- The scale without anchors over a range. -/
def spanning (lower upper : α) : Scale α :=
  let range := orderedRange lower upper
  ⟨range.1, range.2, [], []⟩

/-- The extent of one cell. A scale without anchors is a single cell. -/
def cell (s : Scale α) : α := (s.upper - s.lower) / Scalar.num (max s.keys.length 1)

/-- The middles of the cells. -/
def middles (s : Scale α) : List α :=
  (List.range s.keys.length).map fun i =>
    s.lower + (Scalar.num i + Scalar.num 1 / Scalar.num 2) * s.cell

/-- The scale with its anchors in the middles of their cells. -/
def relocate (s : Scale α) : Scale α := { s with locations := s.middles }

/-- A key put into its place in an ascending list, unless it is there already. -/
def insertKey (key : OrderKey) : List OrderKey → List OrderKey
  | [] => [key]
  | k :: ks =>
    if key < k then key :: k :: ks
    else if key = k then k :: ks
    else k :: insertKey key ks

/-- The scale with a further anchor, unless the key is registered already. -/
def addKey (s : Scale α) (key : OrderKey) : Scale α :=
  if key ∈ s.keys then s else relocate { s with keys := insertKey key s.keys }

/-- The scale with the same anchors over another range. -/
def setRange (s : Scale α) (lower upper : α) : Scale α :=
  let range := orderedRange lower upper
  relocate { s with lower := range.1, upper := range.2 }

/-- The registered anchors with their locations. -/
def anchors (s : Scale α) : List (OrderKey × α) := s.keys.zip s.locations

/-- The anchors, with the extreme keys at the ends of the range where these are not registered. -/
def anchorsWithEnds (s : Scale α) : List (OrderKey × α) :=
  (if s.keys.head? = some .least then [] else [(.least, s.lower)]) ++ s.anchors ++
    (if s.keys.getLast? = some .greatest then [] else [(.greatest, s.upper)])

/-- The location of a key among neighbouring anchors: its own, or on the line between the two
around it. -/
def locate (key : OrderKey) (beyond : α) : List (OrderKey × α) → α
  | (keyA, a) :: (keyB, b) :: rest =>
    if key ≤ keyB then
      if key ≤ keyA || keyB = keyA then a
      else if key = keyB then b
      else
        let fraction :=
          (Scalar.ofKey key - Scalar.ofKey keyA) / (Scalar.ofKey keyB - Scalar.ofKey keyA)
        a + fraction * (b - a)
    else locate key beyond ((keyB, b) :: rest)
  | _ => beyond

/-- The location of an order key. -/
def location (s : Scale α) (key : OrderKey) : α := locate key s.upper s.anchorsWithEnds

/-- The key at a location among neighbouring anchors, rounded to the nearest. -/
def keyBetween (location : α) : List (OrderKey × α) → OrderKey
  | (keyA, a) :: (keyB, b) :: rest =>
    if location ≤ b then
      if b ≤ a then keyA
      else
        let fraction := (location - a) / (b - a)
        Scalar.nearestKey
          (Scalar.ofKey keyA + fraction * (Scalar.ofKey keyB - Scalar.ofKey keyA))
    else keyBetween location ((keyB, b) :: rest)
  | _ => .greatest

/-- The key at a location regardless of how near an anchor is. Outside the range it is an extreme
key. -/
def interpolatedKey (s : Scale α) (location : α) : OrderKey :=
  if location ≤ s.lower then .least
  else if s.upper ≤ location then .greatest
  else keyBetween location s.anchorsWithEnds

/-- The anchor nearest to a location with its distance, the first one on a tie. -/
def nearestAnchor (s : Scale α) (location : α) : Option (OrderKey × α) :=
  Scalar.leastBy Prod.snd (s.anchors.map fun (key, a) => (key, Scalar.abs (a - location)))

/-- The key at a location. One that is at most `snap` away from an anchor is that anchor's. -/
def keyAt (s : Scale α) (location snap : α) : OrderKey :=
  match s.nearestAnchor location with
  | some (key, distance) => if distance ≤ snap then key else s.interpolatedKey location
  | none => s.interpolatedKey location

theorem mem_insertKey {key k : OrderKey} {ks : List OrderKey} :
    k ∈ insertKey key ks ↔ k = key ∨ k ∈ ks := by
  induction ks with
  | nil => simp [insertKey]
  | cons x xs ih => grind [insertKey]

@[simp] theorem length_middles (s : Scale α) : s.middles.length = s.keys.length := by
  simp [middles]

end Scale

end DiagramLayout
