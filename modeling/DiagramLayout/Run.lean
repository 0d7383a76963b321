import DiagramLayout.Layout
import DiagramLayout.Report
import DiagramLayout.SceneFile

/-!
# Runs

A run of the program as a function of the files that it finds. The configuration comes from the file
that is asked for, or else from the working directory, or else from the place for configurations on
the system, or else it is the standard one. Then the scene is read and laid out, and the report is
the result. `RunError.diagnostics` is what the user is told if there is none.
-/

namespace DiagramLayout

/-- The files that a run finds. A file that is not there is `none`. -/
structure RunFiles where
  /-- The configuration that is asked for, by its path. -/
  askedConfig : Option (String × Option String)
  /-- The configuration in the working directory. -/
  localConfig : Option String
  /-- The configuration on the system. -/
  systemConfig : Option String
  /-- The scene, or what the system says if it cannot be read. -/
  scene : Except String String

/-- Why a run ends without a report. -/
inductive RunError where
  /-- A file cannot be read or written; the system says why. -/
  | io (reason : String)
  /-- The configuration that is asked for does not exist. -/
  | missingConfig (path : String)
  /-- The configuration is no TOML document or not one of a configuration. -/
  | config (reason : String)
  /-- The scene is no TOML document, or a faulty one with integers that TOML does not have. -/
  | sceneSyntax
  /-- The scene is no document of a scene. -/
  | scene (error : DecodeError)
  /-- There is no layout. -/
  | layout (error : LayoutError Float)

namespace RunError

/-- What is wrong with a text that is no TOML document. -/
def syntaxReason : String := "invalid TOML"

/-- The text of an error. -/
def message : RunError → String
  | io reason => "I/O error: " ++ reason
  | missingConfig path => "Missing configuration file: " ++ path
  | config reason => "Failed to parse TOML configuration: " ++ reason
  | sceneSyntax => syntaxReason
  | scene error => error.message .toml
  | layout error => "Layout error: " ++ error.message Report.number

/-- The code under which an error is documented. -/
def code : RunError → String
  | io _ => "trellis::io"
  | missingConfig _ | config _ => "trellis::config"
  | sceneSyntax | scene _ => "trellis::scene"
  | layout _ => "trellis::layout"

/-- What the user can do about an error. -/
def help : RunError → Option String
  | sceneSyntax | scene _ => some "a scene needs a [diagram] table with `id` and `kind`"
  | layout (.capacityExceeded _) =>
    some "raise the limits in the [layout.limits] section of the configuration"
  | layout (.unknownClassifier _) | layout (.unknownFeature _) =>
    some "every referenced id must be listed in the scene"
  | _ => none

/-- True if an error is about the text of the scene. -/
def isAboutScene : RunError → Bool
  | sceneSyntax | scene _ => true
  | _ => false

end RunError

/-- What the user is told about an error. -/
structure Diagnostic where
  message : String
  code : String
  help : Option String
  /-- Whether the text of the scene is shown along with it. -/
  hasSource : Bool
deriving DecidableEq, Repr

/-- What the user is told about an error. -/
def RunError.diagnostics (e : RunError) : List Diagnostic :=
  let message := if e.isAboutScene then "invalid scene: " ++ e.message else e.message
  [⟨message, e.code, e.help, e.isAboutScene⟩]

/-- The configuration that a document describes. What is not in it has its standard value. -/
def decodeConfigFile : Decoder (Config Float) :=
  Fields.decoder "struct AppConfig" (Fields.withDefault "layout" Config.decode .standard)

/-- The configuration in a file. -/
def readConfig (source : String) : Except RunError (Config Float) := do
  match Toml.parse? source with
  | none => throw (.config RunError.syntaxReason)
  | some document =>
    let config ← (decodeConfigFile .toml document).mapError fun e => .config (e.message .toml)
    config.validate.mapError .layout
    return config

/-- The scene in a file. Large integers do no harm as long as nothing is wrong with the scene;
otherwise they are to blame. -/
def readScene (source : String) : Except RunError SceneFile :=
  match Toml.parse? source with
  | none => .error .sceneSyntax
  | some document => (SceneFile.decode .toml document).mapError fun e =>
    if document.hasSmallIntegers then .scene e else .sceneSyntax

namespace RunFiles

/-- The configuration of a run. -/
def config (files : RunFiles) : Except RunError (Config Float) :=
  match files.askedConfig with
  | some (_, some source) => readConfig source
  | some (path, none) => .error (.missingConfig path)
  | none =>
    match files.localConfig.or files.systemConfig with
    | some source => readConfig source
    | none => .ok .standard

/-- The report of a run. -/
def report (files : RunFiles) : Except RunError (Guarded String) := do
  let config ← files.config
  let source ← files.scene.mapError .io
  let scene ← readScene source
  let elements ← (scene.elements config.limits).mapError fun e => .layout (.capacityExceeded e)
  let drawing ← (elements.layout (.ofConfig config) config scene.bounds).mapError .layout
  return Report.render <$> drawing

end RunFiles

end DiagramLayout
