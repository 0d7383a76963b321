/-!
# Arguments

What a run is asked for on the command line: the scene, the report to write and, optionally, a
configuration.
-/

namespace DiagramLayout

/-- The arguments of a run. -/
structure Arguments where
  scene : String
  output : String
  config : Option String
deriving DecidableEq, Repr

namespace Arguments

/-- How the program is called. -/
def usage : String := "<scene> [-o <report>] [-c <configuration>]"

/-- Arguments while they are read; the scene is still open. -/
structure Draft where
  scene : Option String
  output : String
  config : Option String

/-- Reads arguments one after the other. A later option takes the place of an earlier one, and there
is one scene. -/
def read (d : Draft) : List String → Option Draft
  | [] => some d
  | "-o" :: path :: rest | "--output" :: path :: rest => read { d with output := path } rest
  | "-c" :: path :: rest | "--config" :: path :: rest => read { d with config := some path } rest
  | path :: rest =>
    if path.startsWith "-" || d.scene.isSome then none else read { d with scene := some path } rest

/-- The arguments in a list of words, if they are understood. -/
def ofWords? (words : List String) : Option Arguments := do
  let d ← read ⟨none, "layout.txt", none⟩ words
  let scene ← d.scene
  return { scene, output := d.output, config := d.config }

end Arguments

end DiagramLayout
