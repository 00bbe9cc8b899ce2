import MetricQuery.Execution

/-!
# Settings

What a client and its log are set up with: the defaults, a text that states
them, the changes that environment variables make, and the execution options
that follow.
-/

set_option autoImplicit false

namespace MetricQuery

structure ClientSettings where
  url : String
  accept : String
  timeoutSeconds : Nat
  confidence : Confidence
  deriving DecidableEq, Repr

structure LogSettings where
  level : String
  format : String
  deriving DecidableEq, Repr

structure Settings where
  client : ClientSettings
  log : LogSettings
  deriving DecidableEq, Repr

namespace ClientSettings

def default : ClientSettings where
  url := Options.defaultUrl
  accept := Options.defaultAccept
  timeoutSeconds := 30
  confidence := .off

/-- The options of an execution. The content type is always given. -/
def options (settings : ClientSettings) : Options where
  url := some settings.url
  headers := (∅ : Bindings String).insert Options.acceptHeader settings.accept
  confidence := settings.confidence

end ClientSettings

def LogSettings.default : LogSettings where
  level := "info"
  format := "pretty"

namespace Settings

def default : Settings := ⟨.default, .default⟩

def variableNames : List String := [
  "DALMATINER_URL", "DALMATINER_ACCEPT", "DALMATINER_TIMEOUT_SECS", "DALMATINER_LOG_LEVEL",
  "DALMATINER_LOG_FORMAT"]

/-- The changes that environment variables make. A timeout that is no number of
64 bits is passed over. -/
def overridden (settings : Settings) (environment : String → Option String) : Settings :=
  let timeout := (environment "DALMATINER_TIMEOUT_SECS").bind fun given =>
    Text.unsigned? Text.maxUnsigned64 given.toList
  { client := {
      url := (environment "DALMATINER_URL").getD settings.client.url
      accept := (environment "DALMATINER_ACCEPT").getD settings.client.accept
      timeoutSeconds := timeout.getD settings.client.timeoutSeconds
      confidence := settings.client.confidence }
    log := {
      level := (environment "DALMATINER_LOG_LEVEL").getD settings.log.level
      format := (environment "DALMATINER_LOG_FORMAT").getD settings.log.format } }

def defaultText : String := "\n".intercalate [
  "# DalmatinerDB Query Configuration",
  "#",
  "# Environment variables override these settings:",
  "# - DALMATINER_URL",
  "# - DALMATINER_ACCEPT",
  "# - DALMATINER_TIMEOUT_SECS",
  "# - DALMATINER_LOG_LEVEL",
  "# - DALMATINER_LOG_FORMAT",
  "",
  "[client]",
  "# DalmatinerDB query endpoint",
  "url = \"http://localhost:8080\"",
  "",
  "# Requested response content type",
  "accept = \"application/json\"",
  "",
  "# Request timeout in seconds",
  "timeout_secs = 30",
  "",
  "# Confidence channels: off, on or aligned",
  "confidence = \"off\"",
  "",
  "[logging]",
  "# Log level: trace, debug, info, warn, error",
  "level = \"info\"",
  "",
  "# Log format: pretty (for development) or json (for production)",
  "format = \"pretty\"",
  ""]

end Settings

end MetricQuery
