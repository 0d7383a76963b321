import DiagramLayout.Proofs.Scale.Zeros
import Mathlib.Data.List.Sort

/-!
# How a scale comes about does not matter

A scale is built by registering keys and setting the range, in any order and any number of times.
Each of these steps keeps the keys ascending and, by placing the anchors anew where it has to, keeps
them in the middles of their cells. A scale of which this is true is given by its range and its
keys; and the keys, since they ascend strictly, are given by which they are. So two runs with the
same keys that end with ranges of the same ends build the same scale, up to the signs of zeros, and
the scales give the same answers (`Scale.built_alike_of_sameKeys`).

The ends may be given the other way round if they are numbers. An end that is not a number cannot be
put into order: whichever end is given first becomes the upper one, and the scales differ
(`Scale.keyAt_built_swappedNaN`).
-/

namespace DiagramLayout

namespace Scale

variable {α : Type}

/-! ## Runs -/

/-- What can be done to a scale. -/
inductive Change (α : Type) where
  /-- A key is registered. -/
  | addKey (key : OrderKey)
  /-- The range is set. -/
  | setRange (lower upper : α)

/-- The key that is registered by a change. -/
def Change.key? : Change α → Option OrderKey
  | addKey key => some key
  | setRange _ _ => none

/-- The ends of the range after a change, in the order in which they were given. -/
def Change.rangeAfter (range : α × α) : Change α → α × α
  | addKey _ => range
  | setRange lower upper => (lower, upper)

/-- The keys that are registered by a run, in the order in which they are registered. -/
def addedKeys (changes : List (Change α)) : List OrderKey := changes.filterMap Change.key?

/-- The ends of the range that is set last, where the scale spans a range to begin with. -/
def lastRange (lower upper : α) (changes : List (Change α)) : α × α :=
  changes.foldl Change.rangeAfter (lower, upper)

variable [Scalar α]

/-- The scale after a change. -/
def change (s : Scale α) : Change α → Scale α
  | .addKey key => s.addKey key
  | .setRange lower upper => s.setRange lower upper

/-- The scale that a run builds. -/
def built (lower upper : α) (changes : List (Change α)) : Scale α :=
  changes.foldl change (spanning lower upper)

/-- Some run builds the scale. -/
def IsBuilt (s : Scale α) : Prop := ∃ lower upper changes, built lower upper changes = s

/-! ## What every run keeps -/

/-- The range of a scale. -/
def range (s : Scale α) : α × α := (s.lower, s.upper)

/-- A change keeps the keys ascending. -/
lemma Ascending.change {s : Scale α} (h : s.Ascending) (c : Change α) :
    (s.change c).Ascending := by
  cases c with
  | addKey key => exact h.addKey key
  | setRange lower upper => exact h

/-- A change keeps the anchors in the middles of their cells. -/
lemma Centered.change {s : Scale α} (h : s.Centered) (c : Change α) : (s.change c).Centered := by
  cases c with
  | addKey key => exact h.addKey key
  | setRange lower upper => exact centered_setRange s lower upper

/-- The registered keys after a change are those before it and the one it registers. -/
lemma mem_keys_change {s : Scale α} {c : Change α} {k : OrderKey} :
    k ∈ (s.change c).keys ↔ c.key? = some k ∨ k ∈ s.keys := by
  cases c with
  | addKey key =>
    rw [Scale.change, mem_keys_addKey, Change.key?, Option.some_inj]
    exact or_congr_left eq_comm
  | setRange lower upper => simp [Scale.change, Change.key?, setRange]

/-- A range that is the one given last in order stays so. -/
lemma range_change {s : Scale α} {given : α × α} (h : s.range = orderedRange given.1 given.2)
    (c : Change α) : (s.change c).range =
      orderedRange (c.rangeAfter given).1 (c.rangeAfter given).2 := by
  cases c with
  | addKey key =>
    rw [Change.rangeAfter, ← h, Scale.change, Scale.addKey]
    split_ifs <;> rfl
  | setRange lower upper => rfl

/-- The registered keys after a run are those before it and the ones it registers. -/
lemma mem_keys_foldl_change {s : Scale α} {changes : List (Change α)} {k : OrderKey} :
    k ∈ (changes.foldl Scale.change s).keys ↔ k ∈ addedKeys changes ∨ k ∈ s.keys := by
  induction changes generalizing s with
  | nil => simp [addedKeys]
  | cons c cs ih =>
    have hadded : k ∈ addedKeys (c :: cs) ↔ c.key? = some k ∨ k ∈ addedKeys cs := by
      simp only [addedKeys, List.mem_filterMap, List.mem_cons, exists_eq_or_imp]
    rw [List.foldl_cons, ih, mem_keys_change, hadded, or_assoc]
    exact or_left_comm

/-- A range that is the one given last in order is so after a run. -/
lemma range_foldl_change {s : Scale α} {given : α × α}
    (h : s.range = orderedRange given.1 given.2) (changes : List (Change α)) :
    (changes.foldl Scale.change s).range =
      orderedRange (changes.foldl Change.rangeAfter given).1
        (changes.foldl Change.rangeAfter given).2 := by
  induction changes generalizing s given with
  | nil => exact h
  | cons c cs ih => exact ih (range_change h c)

section Built

variable (lower upper : α) (changes : List (Change α))

/-- The keys of a built scale ascend. -/
lemma ascending_built : (built lower upper changes).Ascending :=
  List.foldlRecOn changes Scale.change (motive := Ascending) List.Pairwise.nil
    fun _ hs c _ => hs.change c

/-- The anchors of a built scale are in the middles of their cells. -/
lemma centered_built : (built lower upper changes).Centered :=
  List.foldlRecOn changes Scale.change (motive := Centered) rfl fun _ hs c _ => hs.change c

/-- The keys of a built scale are those that the run has registered. -/
lemma mem_keys_built {k : OrderKey} :
    k ∈ (built lower upper changes).keys ↔ k ∈ addedKeys changes := by
  rw [built, mem_keys_foldl_change]
  exact or_iff_left List.not_mem_nil

/-- The range of a built scale is the one that is set last. -/
lemma range_built : (built lower upper changes).range =
    orderedRange (lastRange lower upper changes).1 (lastRange lower upper changes).2 :=
  range_foldl_change rfl changes

end Built

/-! ## Runs that build the same scale -/

omit [Scalar α] in
/-- Ascending keys are given by which they are. -/
lemma Ascending.keys_eq {s s' : Scale α} (h : s.Ascending) (h' : s'.Ascending)
    (hkeys : ∀ k, k ∈ s.keys ↔ k ∈ s'.keys) : s.keys = s'.keys := by
  have _ : Std.Antisymm (fun a b : OrderKey => a < b) :=
    ⟨fun _ _ hab hba => absurd hba (Int32.lt_asymm hab)⟩
  exact List.Pairwise.eq_of_mem_iff h h' hkeys

/-- With its anchors in the middles of their cells a scale is given by its range and its keys. -/
lemma Centered.eq {s s' : Scale α} (h : s.Centered) (h' : s'.Centered)
    (hrange : s.range = s'.range) (hkeys : s.keys = s'.keys) : s = s' := by
  obtain ⟨lower, upper, keys, locations⟩ := s
  obtain ⟨lower', upper', keys', locations'⟩ := s'
  obtain ⟨rfl, rfl⟩ := Prod.mk.inj hrange
  obtain rfl : keys = keys' := hkeys
  obtain rfl : locations = locations' := h.trans h'.symm
  rfl

/-- Runs that register the same keys lead to the same list of keys. -/
lemma keys_built_eq {lower upper lower' upper' : α} {changes changes' : List (Change α)}
    (hkeys : ∀ k, k ∈ addedKeys changes ↔ k ∈ addedKeys changes') :
    (built lower upper changes).keys = (built lower' upper' changes').keys := by
  apply (ascending_built lower upper changes).keys_eq (ascending_built lower' upper' changes')
  intro k
  rw [mem_keys_built, mem_keys_built]
  exact hkeys k

/-- Runs that register the same keys and end with the same range build the same scale. -/
theorem built_congr {lower upper lower' upper' : α} {changes changes' : List (Change α)}
    (hkeys : ∀ k, k ∈ addedKeys changes ↔ k ∈ addedKeys changes')
    (hrange : orderedRange (lastRange lower upper changes).1 (lastRange lower upper changes).2 =
      orderedRange (lastRange lower' upper' changes').1 (lastRange lower' upper' changes').2) :
    built lower upper changes = built lower' upper' changes' := by
  apply (centered_built lower upper changes).eq (centered_built lower' upper' changes')
  · rw [range_built, range_built, hrange]
  · exact keys_built_eq hkeys

/-! ## Ends that are doubles -/

/-- The ranges have the same ends, up to the signs of zeros. Ends that can be compared may be given
the other way round. -/
def SameEnds (range range' : Float × Float) : Prop :=
  Binary64.Alike range.1 range'.1 ∧ Binary64.Alike range.2 range'.2 ∨
    Binary64.Alike range.1 range'.2 ∧ Binary64.Alike range.2 range'.1 ∧
      (range.1 ≤ range.2 ∨ range.2 ≤ range.1)

/-- Ranges with the same ends are alike once the ends are in order. -/
lemma SameEnds.orderedRange {range range' : Float × Float} (h : SameEnds range range') :
    Binary64.Alike (orderedRange range.1 range.2).1 (orderedRange range'.1 range'.2).1 ∧
      Binary64.Alike (orderedRange range.1 range.2).2 (orderedRange range'.1 range'.2).2 := by
  unfold Scale.orderedRange
  rcases h with ⟨hlower, hupper⟩ | ⟨hlower, hupper, hordered⟩
  · have hle := hlower.le_iff hupper
    simp only [hle]
    split_ifs
    · exact ⟨hlower, hupper⟩
    · exact ⟨hupper, hlower⟩
  · have hge := hupper.le_iff hlower
    simp only [← hge]
    split_ifs with hup hdown hdown
    · -- both ways round they are in order, so they are alike
      have hends := Binary64.alike_of_le_of_le hup hdown
      exact ⟨hends.trans hupper, hends.symm.trans hlower⟩
    · exact ⟨hlower, hupper⟩
    · exact ⟨hupper, hlower⟩
    · exact absurd hordered (not_or.mpr ⟨hup, hdown⟩)

/-- Runs that register the same keys and end with ranges of the same ends build scales that are alike,
and the same scale if the ends are the same in order. The keys are the registered ones in strictly
ascending order, each with a location. The scales give a key alike locations, and they give a
location the same key. -/
theorem built_alike_of_sameKeys {lower upper lower' upper' : Float}
    {changes changes' : List (Change Float)}
    (hkeys : ∀ k, k ∈ addedKeys changes ↔ k ∈ addedKeys changes')
    (hrange : SameEnds (lastRange lower upper changes) (lastRange lower' upper' changes')) :
    (built lower upper changes).Alike (built lower' upper' changes') ∧
      (orderedRange (lastRange lower upper changes).1 (lastRange lower upper changes).2 =
          orderedRange (lastRange lower' upper' changes').1 (lastRange lower' upper' changes').2 →
        built lower upper changes = built lower' upper' changes') ∧
      (built lower upper changes).keys.Pairwise (· < ·) ∧
      (∀ k, k ∈ (built lower upper changes).keys ↔ k ∈ addedKeys changes) ∧
      (built lower upper changes).locations.length = (built lower upper changes).keys.length ∧
      (∀ key, Binary64.Alike ((built lower upper changes).location key)
        ((built lower' upper' changes').location key)) ∧
      ∀ location snap, (built lower upper changes).keyAt location snap =
        (built lower' upper' changes').keyAt location snap := by
  have hranges := hrange.orderedRange
  rw [← range_built, ← range_built] at hranges
  have halike : (built lower upper changes).Alike (built lower' upper' changes') :=
    (centered_built lower upper changes).alike (centered_built lower' upper' changes') hranges.1
      hranges.2 (keys_built_eq hkeys)
  exact ⟨halike, built_congr hkeys, ascending_built lower upper changes,
    fun k => mem_keys_built lower upper changes,
    (centered_built lower upper changes).length_locations, halike.location, halike.keyAt_eq⟩

/-- Three keys registered one after the other. -/
def threeKeys {β : Type} : List (Change β) := [.addKey 7, .addKey (-5), .addKey 0]

/-- The same keys in another order, one of them twice, with changes of the range in between. -/
def threeKeysAgain : List (Change Float) :=
  [.addKey 0, .setRange 10 20, .addKey 7, .addKey 0, .setRange 300 (-0), .addKey (-5)]

/-- Both runs register the same keys. They end with the same range, its ends swapped and with another
zero, and they build the same scale up to the sign of the zero. -/
theorem built_alike_of_sameKeys_threeKeys :
    let s : Scale Float := built 0 300 threeKeys
    let s' : Scale Float := built 1 2 threeKeysAgain
    (∀ k, k ∈ addedKeys (threeKeys : List (Change Float)) ↔ k ∈ addedKeys threeKeysAgain) ∧
      SameEnds (lastRange 0 300 threeKeys) (lastRange 1 2 threeKeysAgain) ∧
      s.Alike s' ∧ s.lower = 0 ∧ s'.lower = -0 ∧
      s.keys = [-5, 0, 7] ∧ s.locations = [50, 150, 250] ∧
      s.keyAt 100 60 = -5 ∧ s'.keyAt 100 60 = -5 := by
  intro s s'
  have hkeys (k : OrderKey) :
      k ∈ addedKeys (threeKeys : List (Change Float)) ↔ k ∈ addedKeys threeKeysAgain := by
    have hthree : addedKeys (threeKeys : List (Change Float)) = [7, -5, 0] := rfl
    have hagain : addedKeys threeKeysAgain = [0, 7, 0, -5] := rfl
    rw [hthree, hagain]
    simp only [List.mem_cons, List.not_mem_nil]
    tauto
  have hrange : SameEnds (lastRange 0 300 threeKeys) (lastRange 1 2 threeKeysAgain) :=
    Or.inr ⟨Binary64.alike_iff.mpr (by decide), .refl 300, by decide⟩
  obtain ⟨halike, -, -, -, -, -, hkeyAt⟩ := built_alike_of_sameKeys hkeys hrange
  have hsnapped : s.keyAt 100 60 = -5 := by decide +kernel
  exact ⟨hkeys, hrange, halike, by decide +kernel, by decide +kernel, by decide +kernel,
    by decide +kernel, hsnapped, (hkeyAt 100 60).symm.trans hsnapped⟩

/-- With an end that is not a number it matters which end is given first: the same location is before
the one scale and in the middle of the other. -/
theorem keyAt_built_swappedNaN :
    lastRange Float.nan 5 [] = (lastRange 5 Float.nan []).swap ∧
      (built Float.nan 5 []).keyAt 3 (1 / 2) = .least ∧
      (built 5 Float.nan []).keyAt 3 (1 / 2) = 0 := by
  decide +kernel

end Scale

end DiagramLayout
