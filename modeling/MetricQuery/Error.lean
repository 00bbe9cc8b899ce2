import MetricQuery.Json.Writer

/-!
# Errors

The causes for which building, rendering, executing or decoding a query fails,
and their wording.
-/

set_option autoImplicit false

namespace MetricQuery

inductive MetricFault where
  | emptyPath
  | notAll (word : String)
  deriving DecidableEq, Repr

def MetricFault.message : MetricFault → String
  | .emptyPath => "metric path must not be empty"
  | .notAll word => "expected a metric path or ALL, got '" ++ word ++ "'"

inductive DecodeFault where
  | malformed
  | metric (fault : MetricFault)
  | durationOutOfRange (millis : Int)
  deriving DecidableEq, Repr

def DecodeFault.message : DecodeFault → String
  | .malformed => "malformed document"
  | .metric fault => "Invalid metric: " ++ fault.message
  | .durationOutOfRange millis =>
    "duration out of range: " ++ Json.writeInt millis ++ "ms"

inductive QueryError where
  | missingCollection
  | noSelection
  | partOutOfRange (index count : Nat)
  | invalidMetric (fault : MetricFault)
  | invalidTag (text : String)
  | reservedStaticKey (key : String)
  | invalidTime (text : String)
  | invalidDuration (text : String)
  | undeclaredVariable (name : String)
  /-- A function refers to its selector where none is in scope. -/
  | missingSubject (function : String)
  | renderDepthExceeded (name : String)
  | invalidSeriesName (name : String)
  | invalidChannel (name channel : String)
  | unknownPart (name : String) (index : Nat)
  | missingDataChannel (index : Nat)
  | mismatchedResolution (index : Nat) (value confidence : Int)
  | invalidResolution (index : Nat) (resolution : Int)
  | serialization (fault : DecodeFault)
  | notAbortable
  | transport (reason : String)
  deriving DecidableEq, Repr

def showNat (n : Nat) : String :=
  String.ofList (Text.digits n)

def durationExamples : String := "500ms, 30s, 10m, 2h, 1d, 1w"

def QueryError.message : QueryError → String
  | .missingCollection =>
    "You need to set collection (from statement) before selecting metric"
  | .noSelection => "You need to select something before doing any further operations"
  | .partOutOfRange index count =>
    "Part index " ++ showNat index ++ " out of range (query has " ++ showNat count ++ " parts)"
  | .invalidMetric fault => "Invalid metric: " ++ fault.message
  | .invalidTag text => "Invalid annotations variable: " ++ text
  | .reservedStaticKey key => "Static annotation key is reserved: " ++ key
  | .invalidTime text => "Invalid time: " ++ text
  | .invalidDuration text => "Invalid duration: " ++ text ++ ". Use: " ++ durationExamples
  | .undeclaredVariable name => "Variable " ++ name ++ " was not declared"
  | .missingSubject function =>
    "Function " ++ function ++ " refers to a selector but none is in scope"
  | .renderDepthExceeded name =>
    "Render depth exceeded while expanding variable " ++ name
  | .invalidSeriesName name => "Invalid series name: " ++ name
  | .invalidChannel name channel =>
    "Invalid channel '" ++ channel ++ "' in series " ++ name
  | .unknownPart name index => "Series " ++ name ++ " refers to unknown part " ++ showNat index
  | .missingDataChannel index => "Missing data channel for part " ++ showNat index
  | .mismatchedResolution index value confidence =>
    "Mismatched resolution for part " ++ showNat index ++ ": " ++ Json.writeInt value ++
      " != " ++ Json.writeInt confidence
  | .invalidResolution index resolution =>
    "Invalid resolution " ++ Json.writeInt resolution ++ " for part " ++ showNat index
  | .serialization fault => "Serialization error: " ++ fault.message
  | .notAbortable => "Tried to initialise abort-able execution without abort handler"
  | .transport reason => "Transport error: " ++ reason

end MetricQuery
