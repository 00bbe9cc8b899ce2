import MetricQuery.Document.Query
import MetricQuery.Settings
import MetricQuery.Text.Character
import MetricQuery.Toml.Reader

/-!
# Settings in files

Settings are two tables, `client` and `logging`. Each of them may be missing, may
lack fields or have unknown ones, and may be a list of its fields in their order.
-/

set_option autoImplicit false

namespace MetricQuery

namespace Toml

/-- A floating-point number with at least one place. -/
def realText (x : Float) : String :=
  writeFloat { plainLayout with wholeMark := ".0" } x

def unfit : Toml → String
  | .string _ value => "string " ++ Text.quoteText value
  | .integer _ n => "integer " ++ ticked (Json.writeInt n)
  | .real _ x => "floating point " ++ ticked (realText x)
  | .bool _ value => "boolean " ++ ticked (if value then "true" else "false")
  | .moment _ | .table _ _ _ => "map"
  | .array _ _ | .tables _ => "sequence"

def wrongKind {α : Type} (value : Toml) (expected : String) : Except Fault α :=
  .error (Fault.because value.span? ("invalid type: " ++ value.unfit ++ ", expected " ++ expected))

def asText : Toml → Except Fault String
  | .string _ value => .ok value
  | other => wrongKind other "a string"

def asNatural : Toml → Except Fault Nat
  | .integer _ (.ofNat n) => .ok n
  | .integer span (.negSucc n) =>
    .error (Fault.because span
      ("invalid value: integer " ++ ticked (Json.writeInt (.negSucc n)) ++ ", expected u64"))
  | other => wrongKind other "u64"

/-- A list or table without contents, which may follow a word. -/
def isHollow : Toml → Bool
  | .array _ [] | .table _ _ [] | .tables [] => true
  | _ => false

def confidenceOf (span : Option Span) (word : String) : Except Fault Confidence :=
  match Confidence.ofWord? word with
  | some confidence => .ok confidence
  | none =>
    .error (Fault.because span ("unknown variant " ++ ticked word ++ ", expected one of " ++
      ", ".intercalate (["off", "on", "aligned"].map ticked)))

/-- A confidence mode: its word, or a table from it to nothing. -/
def asConfidence : Toml → Except Fault Confidence
  | .string span word => confidenceOf span word
  | .table span _ [(word, content)] =>
    match confidenceOf span word with
    | .error fault => .error fault
    | .ok confidence =>
      if content.isHollow then .ok confidence
      else .error (Fault.because content.span? "expected empty table")
  | .table span _ [] =>
    .error (Fault.because span "wanted exactly 1 element, found 0 elements")
  | .table span _ _ =>
    .error (Fault.because span "wanted exactly 1 element, more than 1 element")
  | other => .error (Fault.because other.span? "wanted string or table")

/-- The fields of a structure with known names. A date has none of them. -/
def structureFields (names : List String) (described : String) :
    Toml → Except Fault (List (String × Toml))
  | .table _ _ entries => .ok entries
  | .array _ items => .ok (names.zip items)
  | .tables elements => .ok (names.zip elements)
  | .moment _ => .ok []
  | other => wrongKind other ("struct " ++ described)

end Toml

namespace ClientSettings

def setField (settings : ClientSettings) : String × Toml → Except Toml.Fault ClientSettings
  | ("url", value) => value.asText.map fun given => { settings with url := given }
  | ("accept", value) => value.asText.map fun given => { settings with accept := given }
  | ("timeout_secs", value) =>
    value.asNatural.map fun given => { settings with timeoutSeconds := given }
  | ("confidence", value) =>
    value.asConfidence.map fun given => { settings with confidence := given }
  | _ => .ok settings

def ofToml (value : Toml) : Except Toml.Fault ClientSettings :=
  match value.structureFields ["url", "accept", "timeout_secs", "confidence"] "ClientConfig" with
  | .ok fields => (fields.foldlM setField default).mapError (·.located value.span?)
  | .error fault => .error fault

end ClientSettings

namespace LogSettings

def setField (settings : LogSettings) : String × Toml → Except Toml.Fault LogSettings
  | ("level", value) => value.asText.map fun given => { settings with level := given }
  | ("format", value) => value.asText.map fun given => { settings with format := given }
  | _ => .ok settings

def ofToml (value : Toml) : Except Toml.Fault LogSettings :=
  match value.structureFields ["level", "format"] "LoggingConfig" with
  | .ok fields => (fields.foldlM setField default).mapError (·.located value.span?)
  | .error fault => .error fault

end LogSettings

namespace Settings

def setField (settings : Settings) : String × Toml → Except Toml.Fault Settings
  | ("client", value) =>
    (ClientSettings.ofToml value).map fun given => { settings with client := given }
  | ("logging", value) => (LogSettings.ofToml value).map fun given => { settings with log := given }
  | _ => .ok settings

def ofText (text : String) : Except Toml.Fault Settings :=
  match Toml.read text with
  | .ok entries => entries.foldlM setField default
  | .error fault => .error fault

end Settings

/-! ## Files -/

inductive FileFault where
  | missing
  | denied
  | notDirectory
  | isDirectory
  | notText
  | other (reason : String)
  deriving DecidableEq, Repr

def FileFault.message : FileFault → String
  | .missing => "No such file or directory (os error 2)"
  | .denied => "Permission denied (os error 13)"
  | .notDirectory => "Not a directory (os error 20)"
  | .isDirectory => "Is a directory (os error 21)"
  | .notText => "stream did not contain valid UTF-8"
  | .other reason => reason

inductive SettingsError where
  | unreadable (path : String) (fault : FileFault)
  | malformed (path report : String)
  deriving DecidableEq, Repr

def SettingsError.message : SettingsError → String
  | .unreadable path fault =>
    "Failed to read config file " ++ Text.quoteName path ++ ": " ++ fault.message
  | .malformed path report =>
    "Failed to parse config file " ++ Text.quoteName path ++ ": " ++ report

abbrev Files := String → Except FileFault String

namespace Settings

def load (files : Files) (path : String) : Except SettingsError Settings :=
  match files path with
  | .error fault => .error (.unreadable path fault)
  | .ok text =>
    match ofText text with
    | .error fault => .error (.malformed path (fault.report text))
    | .ok settings => .ok settings

def loadOverridden (files : Files) (environment : String → Option String) (path : String) :
    Except SettingsError Settings :=
  (load files path).map (·.overridden environment)

/-- The settings of the first file that holds any, or else the defaults, changed
by environment variables. -/
def loadFirst (files : Files) (environment : String → Option String) (paths : List String) :
    Settings :=
  let loaded := paths.findSome? fun path => (load files path).toOption
  (loaded.getD default).overridden environment

def pathIn (directory : String) : String :=
  directory ++ "/dalmatiner-query/config.toml"

/-- Where settings are looked for: the directory of the user, that of the system,
and the current one. -/
def standardPaths (userDirectory : Option String) : List String :=
  userDirectory.toList.map pathIn ++ [pathIn "/etc", "./config.toml"]

end Settings

end MetricQuery
