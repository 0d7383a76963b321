import DiagramLayout.Layout

/-!
# Runs of turns

Four steps of a layout are runs over a ranking: one element after the other has its turn, and each
turn starts from what the turns before it have made. For each of them there is the state after some
turns, and the step itself is the state after all.

The statements hold over any coordinates.
-/

namespace DiagramLayout

namespace Drawing

variable {α : Type} [Scalar α]

/-- The state of spreading when the classifiers of a list have had their turns. -/
def spreadingAfter (config : Config α) (d : Drawing α) (turns : List Nat) : Spreading α :=
  turns.foldl (fun s i => (s.step config i).value) ⟨d, [], d.classifiers.map fun _ => .origin⟩

/-- The state of embracing when the containments of a list have had their turns. -/
def embracingAfter (m : Composer α) (config : Config α) (d : Drawing α)
    (turns : List Containment) : Embracing α :=
  turns.foldl (Embracing.step m config) ⟨d, []⟩

/-- The drawing when the containers of a list have had their turns to gather their groups. -/
def gatheringAfter (m : Composer α) (config : Config α) (d : Drawing α) (turns : List Nat) :
    Drawing α :=
  turns.foldl (fun d i => (d.gatherStep m config i).value) d

/-- The state of routing when the relationships of a list have had their turns. -/
def routingAfter (config : Config α) (d : Drawing α) (turns : List Nat) : FreeRouting α :=
  turns.foldl (FreeRouting.step config) ⟨d, []⟩

/-- The usable containments in the order of their turns. -/
def containmentTurns (config : Config α) (d : Drawing α) : List Containment :=
  (d.containmentRanking config).order.filterMap (d.usableContainments[·]?)

/-- A further turn of spreading starts from what the turns before it have made. -/
theorem spreadingAfter_concat (config : Config α) (d : Drawing α) (turns : List Nat) (i : Nat) :
    d.spreadingAfter config (turns ++ [i]) =
      ((d.spreadingAfter config turns).step config i).value :=
  List.foldl_append

/-- A further turn of embracing starts from what the turns before it have made. -/
theorem embracingAfter_concat (m : Composer α) (config : Config α) (d : Drawing α)
    (turns : List Containment) (c : Containment) :
    d.embracingAfter m config (turns ++ [c]) = (d.embracingAfter m config turns).step m config c :=
  List.foldl_append

/-- Further turns of gathering start from what the turns before them have made. -/
theorem gatheringAfter_append (m : Composer α) (config : Config α) (d : Drawing α)
    (turns further : List Nat) :
    d.gatheringAfter m config (turns ++ further) =
      (d.gatheringAfter m config turns).gatheringAfter m config further :=
  List.foldl_append

/-- Classifiers have been moved apart when all have had their turns. -/
theorem value_moveApart (config : Config α) (d : Drawing α) :
    (d.moveApart config).value =
      ((d.spreadingAfter config (d.turnRanking config).order).drawing,
        (d.spreadingAfter config (d.turnRanking config).order).offsets) := by
  simp only [moveApart, Guarded.value_bind, Guarded.value_pure, Guarded.value_foldlM]
  rfl

/-- Only usable containments have turns. -/
theorem mem_usableContainments_of_turn {config : Config α} {d : Drawing α} {c : Containment}
    (h : c ∈ d.containmentTurns config) : c ∈ d.usableContainments := by
  obtain ⟨i, -, hi⟩ := List.mem_filterMap.mp h
  exact List.mem_of_getElem? hi

/-- Containers have been grown when all usable containments have had their turns. -/
theorem embraceChildren_eq (m : Composer α) (config : Config α) (d : Drawing α) :
    d.embraceChildren m config =
      (d.embracingAfter m config (d.containmentTurns config)).drawing :=
  rfl

/-- Groups have been gathered when all containers have had their turns. -/
theorem value_gatherGroups (m : Composer α) (config : Config α) (d : Drawing α) :
    (d.gatherGroups m config).value =
      d.gatheringAfter m config (d.containerRanking config).order := by
  simp only [gatherGroups, Guarded.value_foldlM]
  rfl

/-- Relationships on a free grid have been routed when all drawn ones have had their turns. -/
theorem routeFreely_eq (config : Config α) {d : Drawing α} (hkind : d.sheet.grid.kind = .xy) :
    d.routeFreely config = (d.routingAfter config (d.routeRanking config).order).drawing := by
  rw [routeFreely, if_pos hkind]
  rfl

end Drawing

end DiagramLayout
