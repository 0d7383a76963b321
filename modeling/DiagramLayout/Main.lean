import DiagramLayout.Arguments
import DiagramLayout.Run

/-!
# Command line

Finds the files of a run, writes its report, or tells what is wrong.
-/

namespace DiagramLayout

/-- The text of a file, or nothing if there is no such file. -/
def readIfThere (path : String) : IO (Option String) := do
  try
    return some (← IO.FS.readFile path)
  catch
    | .noFileOrDirectory .. => return none
    | e => throw e

/-- The configuration on the system, in the folder that the user has for configurations. -/
def readSystemConfig : IO (Option String) := do
  let folder := match ← IO.getEnv "XDG_CONFIG_HOME", ← IO.getEnv "HOME" with
    | some folder, _ => some folder
    | none, some home => some (home ++ "/.config")
    | none, none => none
  match folder with
  | some folder => readIfThere (folder ++ "/trellis/config.toml")
  | none => return none

/-- What the system says about an error. -/
def reasonOf : IO.Error → String
  | .noFileOrDirectory .. => "No such file or directory (os error 2)"
  | e => toString e

/-- The scene, or what the system says if it cannot be read. -/
def readSceneSource (path : String) : IO (Except String String) := do
  match ← (IO.FS.readFile path).toBaseIO with
  | .ok source => return .ok source
  | .error e => return .error (reasonOf e)

/-- The files of a run. -/
def RunFiles.find (a : Arguments) : IO RunFiles := do
  let askedConfig ← a.config.mapM fun path => return (path, ← readIfThere path)
  let localConfig ← readIfThere "trellis/config.toml"
  let systemConfig ← readSystemConfig
  let scene ← readSceneSource a.scene
  return { askedConfig, localConfig, systemConfig, scene }

/-- Tells the user about an error. -/
def tell (d : Diagnostic) : IO Unit := do
  IO.eprintln (d.code ++ ": " ++ d.message)
  if let some help := d.help then
    IO.eprintln ("help: " ++ help)

/-- Tells the user that there is no report, and why. -/
def refuse (e : RunError) : IO UInt32 := do
  e.diagnostics.forM tell
  return 1

/-- A run for the given arguments, with its exit code. -/
def run (a : Arguments) : IO UInt32 := do
  try
    match (← RunFiles.find a).report with
    | .ok ⟨report, true⟩ =>
      IO.FS.writeFile a.output report
      return 0
    | .ok ⟨_, false⟩ =>
      IO.eprintln "the sizes in the scene are not finite"
      return 101
    | .error e => refuse e
  catch e => refuse (.io (reasonOf e))

end DiagramLayout

def main (words : List String) : IO UInt32 :=
  match DiagramLayout.Arguments.ofWords? words with
  | some a => DiagramLayout.run a
  | none => do
    IO.eprintln ("usage: " ++ DiagramLayout.Arguments.usage)
    return 2
