import MetricQuery.Command.Invocation
import MetricQuery.Document.Query
import MetricQuery.Execution
import MetricQuery.Selection
import MetricQuery.Settings.File

/-!
# Running commands

What a run prints, writes or sends. Reading files is given as a function, and
what is to be written or sent is a result, so a run itself changes nothing.
-/

set_option autoImplicit false

namespace MetricQuery.Command

inductive RunError where
  | settings (error : SettingsError)
  | query (error : QueryError)
  | invalidBinding (text : String)
  | invalidConfidence (text : String)
  | unwritable (path : String) (fault : FileFault)
  deriving DecidableEq, Repr

/-- The message of an error; what it is due to follows in a paragraph of its own. -/
def RunError.message : RunError → String
  | .settings error => error.message
  | .query error => error.message
  | .invalidBinding text => "Invalid variable binding: " ++ text ++ ". Use: name=value"
  | .invalidConfidence text =>
    "Invalid confidence mode: " ++ text ++ ". Use: off, on, aligned"
  | .unwritable path fault =>
    "failed to write " ++ Text.quoteName path ++ "\n\nCaused by:\n    " ++ fault.message

inductive Outcome where
  | printed (text : String)
  | failed (error : RunError)
  | writes (path text : String)
  /-- A query is to be executed; its text has been made already. -/
  | executes (query : Query) (options : Options) (timeoutSeconds : Nat)
  | halted (halt : Halt)

/-! ## Building the query -/

def cutAt (mark : Char) (text : String) : String × Option String :=
  match text.toList.span (· != mark) with
  | (front, _ :: rest) => (String.ofList front, some (String.ofList rest))
  | (front, []) => (String.ofList front, none)

def splitAt (mark : Char) : List Char → List (List Char)
  | [] => [[]]
  | c :: rest =>
    if c = mark then [] :: splitAt mark rest
    else
      match splitAt mark rest with
      | [] => [[c]]
      | piece :: pieces => (c :: piece) :: pieces

def pieces (mark : Char) (text : String) : List String :=
  (splitAt mark text.toList).map String.ofList

/-- The metric that a text names: `ALL` in any case, or the segments of a path. -/
def metricOf (text : String) : MetricForm :=
  if Metric.sameWord text Metric.allWord then .metric .all else .segments (pieces '.' text)

def applySpec (selection : Selection) (spec : String) : Selection :=
  match cutAt ':' spec with
  | (function, some arguments) =>
    selection.apply function ((pieces ',' arguments).map Argument.ofText)
  | (function, none) => selection.apply function []

namespace QueryOptions

def decorate (options : QueryOptions) (selection : Selection) : Except QueryError Selection :=
  let applied := options.functions.foldl applySpec selection
  let tagged :=
    if options.tags.isEmpty then .ok applied
    else applied.annotateWith (options.tags.map TagForm.text)
  match tagged with
  | .error error => .error error
  | .ok tagged =>
    match options.label with
    | some label => .ok (tagged.labelBy label)
    | none => .ok tagged

def addSelection (options : QueryOptions) (query : Query) (metric : String) :
    Except QueryError Query :=
  match query.select (metricOf metric) with
  | .error error => .error error
  | .ok selection => (options.decorate selection).map Selection.query

def addRange (options : QueryOptions) (query : Query) : Except QueryError Query := do
  let query ← match options.last with
    | some text => (Duration.parse text).map query.last
    | none => .ok query
  let query ← match options.beginning with
    | some text => (Instant.parse text).map query.beginningAt
    | none => .ok query
  match options.ending with
  | some text => (Instant.parse text).map query.endingAt
  | none => .ok query

def addVariable (query : Query) (binding : String) : Except RunError Query :=
  match cutAt '=' binding with
  | (name, some value) => .ok (query.bind name (.text value))
  | (_, none) => .error (.invalidBinding binding)

def build (options : QueryOptions) : Except RunError Query := do
  let start := Query.empty.fromCollection options.collection
  let query ← (options.selections.foldlM options.addSelection start).mapError .query
  let query ← (options.addRange query).mapError .query
  options.bindings.foldlM addVariable query

end QueryOptions

/-! ## Actions -/

def confidenceOf (text : String) : Except RunError Confidence :=
  match String.ofList (Text.lowercase text.toList) with
  | "off" | "false" => .ok .off
  | "on" | "true" => .ok .on
  | "aligned" => .ok .aligned
  | _ => .error (.invalidConfidence text)

def executionOptions (settings : Settings) (url confidence : Option String) :
    Except RunError Options := do
  let options := settings.client.options
  let options := match url with
    | some url => { options with url := some url }
    | none => options
  match confidence with
  | some text => return { options with confidence := ← confidenceOf text }
  | none => return options

def Action.run (action : Action) (settings : Settings) : Except RunError Outcome :=
  match action with
  | .render options asDocument => do
    let query ← options.build
    if asDocument then return .printed (query.toJson.sorted.indented 0 ++ "\n")
    else
      let text ← query.render.mapError .query
      return .printed (text ++ "\n")
  | .execute options url confidence => do
    let query ← options.build
    let execution ← executionOptions settings url confidence
    let _ ← (query.prepared execution.confidence).render.mapError .query
    return .executes query execution settings.client.timeoutSeconds
  | .writeSettings none => .ok (.printed Settings.defaultText)
  | .writeSettings (some path) => .ok (.writes path Settings.defaultText)

def settingsOf (files : Files) (environment : String → Option String)
    (userDirectory path : Option String) : Except SettingsError Settings :=
  match path with
  | some path => Settings.loadOverridden files environment path
  | none => .ok (Settings.loadFirst files environment (Settings.standardPaths userDirectory))

def settingsPaths (userDirectory : Option String) (arguments : List String) : List String :=
  match Invocation.ofArguments arguments with
  | .error _ => []
  | .ok ⟨_, some path⟩ => [path]
  | .ok ⟨_, none⟩ => Settings.standardPaths userDirectory

def run (files : Files) (environment : String → Option String) (userDirectory : Option String)
    (arguments : List String) : Outcome :=
  match Invocation.ofArguments arguments with
  | .error halt => .halted halt
  | .ok invocation =>
    match settingsOf files environment userDirectory invocation.settingsPath with
    | .error error => .failed (.settings error)
    | .ok settings =>
      match invocation.action.run settings with
      | .ok outcome => outcome
      | .error error => .failed error

/-! ## What is shown -/

structure Shown where
  code : Nat
  output : String
  complaint : String
  deriving DecidableEq, Repr

def versionText : String := "dql 0.1.0\n"

def helpText : String := "\n".intercalate [
  "Build and run DalmatinerDB queries",
  "",
  "Usage: dql [OPTIONS] <COMMAND>",
  "",
  "Commands:",
  "  render  Print the query text",
  "  exec    Execute the query and print the decoded series as JSON",
  "  config  Generate default config file",
  "  help    Print this message or the help of the given subcommand(s)",
  "",
  "Options:",
  "  -c, --config <CONFIG>  Config file (default: search standard locations)",
  "  -h, --help             Print help",
  "  -V, --version          Print version",
  ""]

def Halt.shown : Halt → Shown
  | .help => ⟨0, helpText, ""⟩
  | .version => ⟨0, versionText, ""⟩
  | .usage => ⟨2, "", helpText⟩

def RunError.shown (error : RunError) : Shown :=
  ⟨1, "", "Error: " ++ error.message ++ "\n"⟩

def shownWrite (path : String) : Except FileFault Unit → Shown
  | .ok _ => ⟨0, "Config written to " ++ Text.quoteName path ++ "\n", ""⟩
  | .error fault => (RunError.unwritable path fault).shown

end MetricQuery.Command
