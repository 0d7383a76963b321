import DiagramLayout.Model.Element

/-!
# Element sets

The elements that are visible in one diagram. Each of the three lists has a limit, which keeps the
cost of laying them out within bounds: an element beyond the limit is refused and the set stays as
it was. References go by identifier to the first element that bears it.
-/

namespace DiagramLayout

/-- What there can be too much of. -/
inductive Resource where
  | classifiers
  | features
  | relationships
  /-- The entries of a ranking. -/
  | rankedEntries
deriving DecidableEq, Repr

/-- The word for a resource. -/
def Resource.word : Resource → String
  | classifiers => "classifiers"
  | features => "features"
  | relationships => "relationships"
  | rankedEntries => "sorter entries"

/-- There is no room for a further element. -/
structure CapacityError where
  resource : Resource
  capacity : Nat
deriving DecidableEq, Repr

/-- The text of a capacity error. -/
def CapacityError.message (e : CapacityError) : String :=
  "capacity of " ++ toString e.capacity ++ " " ++ e.resource.word ++ " exceeded"

/-- The greatest number of elements of each sort. A limit is a bound and nothing else: no memory is
reserved for as many elements, so any number will do. -/
structure Limits where
  classifiers : Nat
  features : Nat
  relationships : Nat
deriving DecidableEq, Repr

/-- The limits where none are given. -/
def Limits.standard : Limits := ⟨256, 1024, 512⟩

/-- The elements that are visible in one diagram. -/
structure ElementSet where
  diagram : Diagram
  limits : Limits
  classifiers : List Classifier
  features : List Feature
  relationships : List Relationship
deriving DecidableEq, Repr

/-- The list with a further element, if the limit leaves room for it. -/
def appendWithin {β : Type} (resource : Resource) (limit : Nat) (xs : List β) (x : β) :
    Except CapacityError (List β) :=
  if xs.length < limit then .ok (xs ++ [x]) else .error ⟨resource, limit⟩

namespace ElementSet

/-- The set of a diagram without elements. -/
def empty (diagram : Diagram) (limits : Limits) : ElementSet := ⟨diagram, limits, [], [], []⟩

/-- The set with a further classifier. -/
def addClassifier (s : ElementSet) (c : Classifier) : Except CapacityError ElementSet := do
  let classifiers ← appendWithin .classifiers s.limits.classifiers s.classifiers c
  return { s with classifiers }

/-- The set with a further feature. -/
def addFeature (s : ElementSet) (f : Feature) : Except CapacityError ElementSet := do
  let features ← appendWithin .features s.limits.features s.features f
  return { s with features }

/-- The set with a further relationship. -/
def addRelationship (s : ElementSet) (r : Relationship) : Except CapacityError ElementSet := do
  let relationships ← appendWithin .relationships s.limits.relationships s.relationships r
  return { s with relationships }

/-- The position of the first classifier with an identifier. -/
def classifierPosition (s : ElementSet) (id : RowId) : Option Nat :=
  s.classifiers.findIdx? (·.id == id)

/-- The position of the first feature with an identifier. -/
def featurePosition (s : ElementSet) (id : RowId) : Option Nat :=
  s.features.findIdx? (·.id == id)

end ElementSet

end DiagramLayout
