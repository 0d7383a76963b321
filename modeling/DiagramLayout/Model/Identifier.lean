/-!
# Identifiers

A `RowId` names an element as its model does; it is written with a hash sign. A `Handle` is the
position of an element in one of the lists of an element set and means nothing outside that set.
-/

namespace DiagramLayout

/-- The identifier of an element in its model. -/
structure RowId where
  value : Int
deriving DecidableEq, Repr

namespace RowId

/-- The written form of an identifier. -/
def text (id : RowId) : String := "#" ++ toString id.value

/-- The order of identifiers is that of their values. -/
protected def compare (a b : RowId) : Ordering := compare a.value b.value

end RowId

/-- The position of an element in its list. -/
inductive Handle where
  | classifier (index : Nat)
  | feature (index : Nat)
  | relationship (index : Nat)
deriving DecidableEq, Repr

/-- The written form of a handle. -/
def Handle.text : Handle → String
  | classifier index => "classifier[" ++ toString index ++ "]"
  | feature index => "feature[" ++ toString index ++ "]"
  | relationship index => "relationship[" ++ toString index ++ "]"

end DiagramLayout
