import MetricQuery.Series.Decoder

/-!
# Execution

A query is executed through a transport. The query that is sent stands in place of
another one: each part has its index in front of its alias, so that the series of
the response tell where they come from. Where confidence is asked for, a part is
sent twice, the second time for its confidence; this copy has no name, so that
references mean the values. The response is decoded over the parts of the query as
it was before.

A transport takes a request and gives what is then in flight. Polling the response
and aborting the request act on the state of the transport, so what a poll finds
may come of an abort before it.
-/

set_option autoImplicit false

namespace MetricQuery

/-! ## Prepared queries -/

namespace Part

def confidenceFunction : String := "confidence"

def plainCopy (part : Part) (index : Nat) : Part :=
  part.leadWith [showNat index]

/-- The copy of a part that is sent for one of its channels. -/
def channelCopy (part : Part) (index : Nat) (channel : Channel) : Part :=
  let copy := part.leadWith [showNat index, channel.sectionText]
  match channel with
  | .value => copy
  | .confidence => { copy.apply confidenceFunction [] with name := none }

def copies (confidence : Confidence) (part : Part) (index : Nat) : List Part :=
  if confidence.isEnabled then
    [part.channelCopy index .value, part.channelCopy index .confidence]
  else [part.plainCopy index]

end Part

namespace Query

def copiesFrom (confidence : Confidence) (index : Nat) : List Part → List Part
  | [] => []
  | part :: rest => part.copies confidence index ++ copiesFrom confidence (index + 1) rest

def prepared (query : Query) (confidence : Confidence) : Query :=
  { query with parts := copiesFrom confidence 0 query.parts }

end Query

/-! ## Requests -/

structure Request where
  url : String
  query : String
  headers : Bindings String

structure Options where
  url : Option String
  headers : Bindings String
  confidence : Confidence

namespace Options

def defaultUrl : String := "http://localhost:8080"

def defaultAccept : String := "application/json"

def acceptHeader : String := "accept"

def empty : Options := ⟨none, ∅, .off⟩

def withUrl (options : Options) (url : String) : Options :=
  { options with url := some url }

def withHeader (options : Options) (name value : String) : Options :=
  { options with headers := options.headers.insert name value }

def withConfidence (options : Options) (confidence : Confidence) : Options :=
  { options with confidence := confidence }

def endpoint (options : Options) : String :=
  options.url.getD defaultUrl

/-- Whether a header names the accepted content types, in any case of letters. -/
def acceptsGiven (headers : Bindings String) : Bool :=
  headers.entries.any fun header => Metric.sameWord header.1 acceptHeader

/-- The headers of a request, with the default content type where none is given. -/
def requestHeaders (options : Options) : Bindings String :=
  if acceptsGiven options.headers then options.headers
  else options.headers.insert acceptHeader defaultAccept

def request (options : Options) (query : String) : Request :=
  ⟨options.endpoint, query, options.requestHeaders⟩

end Options

/-! ## Executions -/

/-- A poll gives nothing while the response is pending. Not every request can be
aborted. -/
structure InFlight (σ : Type) where
  poll : σ → Option (Except String (Response Float)) × σ
  abort : Option (σ → σ)

abbrev Transport (σ : Type) := Request → σ → InFlight σ × σ

structure Execution (σ : Type) where
  query : String
  response : σ → Option (Except String (Response Float)) × σ
  abort : σ → σ
  decoder : Decoder

variable {σ : Type}

/-- Executes a query. Nothing is sent if its text cannot be made. -/
def Query.execute (query : Query) (transport : Transport σ) (options : Options) (state : σ) :
    Except QueryError (Execution σ) × σ :=
  match (query.prepared options.confidence).render with
  | .error error => (.error error, state)
  | .ok text =>
    let (inFlight, state) := transport (options.request text) state
    match inFlight.abort with
    | none => (.error .notAbortable, state)
    | some abort =>
      (.ok ⟨text, inFlight.poll, abort, query.decoder options.confidence⟩, state)

namespace Execution

/-- Aborts the request also when the execution itself is no longer at hand. -/
def abortHandle (execution : Execution σ) : σ → σ :=
  execution.abort

def settle (execution : Execution σ) :
    Except String (Response Float) → Except QueryError (DecodedResponse Float)
  | .ok response => execution.decoder.decode response
  | .error reason => .error (.transport reason)

def poll (execution : Execution σ) (state : σ) :
    Option (Except QueryError (DecodedResponse Float)) × σ :=
  let (reply, state) := execution.response state
  (reply.map execution.settle, state)

end Execution

end MetricQuery
