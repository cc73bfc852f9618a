import Dialogue.Session.State
import Dialogue.Text.Piece
import Dialogue.Toml
import Dialogue.Toml.Quoted

/-!
# Settings

Settings come from a file, in which everything may be left out, and from the environment, which
overrides the file. Numbers that would keep sessions from running are refused.

## Main definitions

* `Config`, `Config.standard`
* `Config.load`, `Config.override`, `Config.check`
* `Config.vocabulary` — the vocabulary with the events of the settings
* `Config.toToml` — settings as a file
-/

namespace Dialogue

/-- The settings of the program. -/
structure Config where
  /-- The bounds of a session. -/
  limits : Limits
  /-- How many seconds an action may take. -/
  actionTimeout : Nat
  /-- How many turns of a session may wait to be shown. -/
  outputCapacity : Nat
  /-- The flow files to be loaded. -/
  flowPaths : List String
  /-- The flows that a session starts with. -/
  mainFlows : List String
  /-- Events beyond the standard ones. -/
  events : List EventDeclaration
  /-- How much is logged. -/
  logLevel : String
  /-- Whether the log consists of documents. -/
  isLogJson : Bool

/-- What can be wrong with settings. -/
inductive ConfigFault where
  /-- A setting is zero that may not be. -/
  | zero (setting : String)
  /-- A main flow has a blank name. -/
  | emptyMainFlow
  /-- An event has a blank name. -/
  | emptyEvent (kind : EventKind)
  /-- The bound in the environment is not a number. -/
  | notANumber (key text : String)
  /-- The events cannot be added to the vocabulary. -/
  | vocabulary (e : DefinitionError)

/-- Why there are no settings. -/
inductive ConfigError where
  | read (path reason : String)
  | parse (path reason : String)
  | invalid (fault : ConfigFault)

namespace ConfigFault

/-- The wording of what is wrong with settings. -/
def message : ConfigFault → String
  | zero setting => s!"runtime.{setting} must be > 0"
  | emptyMainFlow => "flows.main entries cannot be empty"
  | emptyEvent kind => s!"event declaration with empty name (kind {kind.label})"
  | notANumber key text => s!"{key} must be a positive integer, got '{text}'"
  | vocabulary e => e.message

end ConfigFault

namespace ConfigError

/-- The wording of why there are no settings. -/
def message : ConfigError → String
  | read path reason => s!"Failed to read config file at {path}: {reason}"
  | parse path reason => s!"Failed to parse config file at {path}: {reason}"
  | invalid fault => "Configuration validation failed: " ++ fault.message

end ConfigError

namespace Config

/-- The usual settings. -/
def standard : Config where
  limits := .standard
  actionTimeout := 30
  outputCapacity := 128
  flowPaths := []
  mainFlows := ["main"]
  events := []
  logLevel := "info"
  isLogJson := false

/-- Reads a record of settings, a record without fields if it is left out. -/
def section? (f : Format) (fs : Json.Fields) (name : String) (fields : List String) :
    Option Json.Fields :=
  fs.optional? name (Json.record? f fields) []

/-- Reads settings off their document. -/
def ofJson? (f : Format) (j : Json) : Option Config := do
  let fs ← Json.record? f ["runtime", "flows", "events", "logging"] j
  let runtime ← section? f fs "runtime" ["max_cascade_steps", "max_steps_per_activation",
    "archive_limit", "action_timeout_secs", "output_capacity"]
  let flows ← section? f fs "flows" ["paths", "main"]
  let events ← fs.optional? "events" (Json.asList? (EventDeclaration.ofJson? f)) []
  let logging ← section? f fs "logging" ["level", "json"]
  let cascadeSteps ←
    runtime.optional? "max_cascade_steps" Json.asNat? standard.limits.cascadeSteps
  let activationSteps ←
    runtime.optional? "max_steps_per_activation" Json.asNat? standard.limits.activationSteps
  let archiveSize ← runtime.optional? "archive_limit" Json.asNat? standard.limits.archiveSize
  let actionTimeout ← runtime.optional? "action_timeout_secs" Json.asNat? standard.actionTimeout
  let outputCapacity ← runtime.optional? "output_capacity" Json.asNat? standard.outputCapacity
  let flowPaths ← flows.optional? "paths" (Json.asList? Json.asString?) []
  let mainFlows ← flows.optional? "main" (Json.asList? Json.asString?) standard.mainFlows
  let logLevel ← logging.optional? "level" Json.asString? standard.logLevel
  let isLogJson ← logging.optional? "json" Json.asBool? false
  return { limits := ⟨cascadeSteps, activationSteps, archiveSize⟩, actionTimeout, outputCapacity,
           flowPaths, mainFlows, events, logLevel, isLogJson }

/-- The document of settings. -/
def toJson (c : Config) : Json :=
  .object [
    ("runtime", .object [
      ("max_cascade_steps", .nat c.limits.cascadeSteps),
      ("max_steps_per_activation", .nat c.limits.activationSteps),
      ("archive_limit", .nat c.limits.archiveSize),
      ("action_timeout_secs", .nat c.actionTimeout),
      ("output_capacity", .nat c.outputCapacity)]),
    ("flows", .object [("paths", .strings c.flowPaths), ("main", .strings c.mainFlows)]),
    ("events", .array (c.events.map EventDeclaration.toJson)),
    ("logging", .object [("level", .string c.logLevel), ("json", .bool c.isLogJson)])]

/-- What is wrong with settings, if anything is. The first fault counts. -/
def fault? (c : Config) : Option ConfigFault :=
  if c.limits.cascadeSteps = 0 then some (.zero "max_cascade_steps")
  else if c.limits.activationSteps = 0 then some (.zero "max_steps_per_activation")
  else if c.outputCapacity = 0 then some (.zero "output_capacity")
  else if c.actionTimeout = 0 then some (.zero "action_timeout_secs")
  else if c.mainFlows.any Text.isBlankText then some .emptyMainFlow
  else (c.events.find? fun e => Text.isBlankText e.name).map fun e => .emptyEvent e.kind

/-- Refuses settings with which sessions could not run. -/
def check (c : Config) : Except ConfigError Config :=
  match c.fault? with
  | some fault => .error (.invalid fault)
  | none => .ok c

/-- Reads settings from a file, if there is one. -/
def load (path : String) : Option (Except String String) → Except ConfigError Config
  | none => .ok standard
  | some (.error reason) => .error (.read path reason)
  | some (.ok text) =>
    match (Toml.read? text).bind (ofJson? .toml) with
    | none => .error (.parse path "not a settings file")
    | some c => c.check

/-- Reads a natural number of at most sixty-four bits: decimal digits, after which and before which
blanks may stand, and a plus sign at the start. -/
def number? (text : String) : Option Nat :=
  let cs := (Text.trim text).toList
  let ds := match cs with
    | '+' :: ds => ds
    | ds => ds
  if ds.isEmpty || !ds.all Char.isDigit then none
  else
    let n := Decimal.natOfDigits ds
    if n < UInt64.size then some n else none

/-- The variable of the environment that bounds a turn. -/
def cascadeStepsKey : String := "PARLEY_MAX_CASCADE_STEPS"

/-- The variable of the environment that lists flow files, with colons between them. -/
def flowPathsKey : String := "PARLEY_FLOWS"

/-- The variable of the environment that says how much is logged. -/
def logLevelKey : String := "PARLEY_LOG"

/-- What the environment says about settings. -/
structure Overrides where
  /-- The bound of a turn. -/
  cascadeSteps : Option String
  /-- The flow files. -/
  flowPaths : Option String
  /-- How much is logged. -/
  logLevel : Option String

/-- What an environment says about settings. -/
def Overrides.ofEnvironment {m : Type → Type} [Monad m] (look : String → m (Option String)) :
    m Overrides := do
  let cascadeSteps ← look cascadeStepsKey
  let flowPaths ← look flowPathsKey
  let logLevel ← look logLevelKey
  return { cascadeSteps, flowPaths, logLevel }

/-- The settings with what the environment overrides. -/
def override (c : Config) (o : Overrides) : Except ConfigError Config := do
  let cascadeSteps ← match o.cascadeSteps with
    | none => pure c.limits.cascadeSteps
    | some text =>
      match number? text with
      | some n => pure n
      | none => throw (.invalid (.notANumber cascadeStepsKey text))
  let flowPaths := match o.flowPaths with
    | none => c.flowPaths
    | some paths => (Text.split paths ':').filter fun p => !Text.isBlankText p
  return { c with
    limits := { c.limits with cascadeSteps }, flowPaths, logLevel := o.logLevel.getD c.logLevel }

/-- The settings of a file, if there is one, with what the environment overrides. -/
def ofSources (path : String) (content : Option (Except String String)) (o : Overrides) :
    Except ConfigError Config := do
  let c ← load path content
  let c ← c.override o
  c.check

/-- The standard vocabulary with the events of the settings. -/
def vocabulary (c : Config) : Except ConfigError Vocabulary :=
  match Vocabulary.standard.extend c.events with
  | .ok v => .ok v
  | .error e => .error (.invalid (.vocabulary e))

/-- The flows to start with, which may be asked for. -/
def startFlows (c : Config) (requested : List String) : List String :=
  if requested.isEmpty then c.mainFlows else requested

/-! ## Files -/

/-- A list of strings in a settings file. Longer ones take a line for each item. -/
def tomlStrings : List String → String
  | [] => "[]"
  | [s] => "[" ++ Toml.quoted s ++ "]"
  | ss => "[\n" ++ String.join (ss.map fun s => "    " ++ Toml.quoted s ++ ",\n") ++ "]"

/-- The settings as a file, without events. -/
def toToml (c : Config) : String :=
  s!"events = []\n
[runtime]
max_cascade_steps = {c.limits.cascadeSteps}
max_steps_per_activation = {c.limits.activationSteps}
archive_limit = {c.limits.archiveSize}
action_timeout_secs = {c.actionTimeout}
output_capacity = {c.outputCapacity}

[flows]
paths = {tomlStrings c.flowPaths}
main = {tomlStrings c.mainFlows}

[logging]
level = {Toml.quoted c.logLevel}
json = {c.isLogJson}
"

end Config

end Dialogue
