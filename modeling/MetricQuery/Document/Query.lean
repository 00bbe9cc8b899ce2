import MetricQuery.Document.Expression
import MetricQuery.Query
import MetricQuery.Series.Response
import MetricQuery.Time.Reader

/-!
# Documents of queries and responses

Variables are not part of the document of a query: they are bound anew where the
query is rendered. Responses have the short field names of the server: `s` for the
start, `d` for the rows, and in a row `n`, `r` and `v` for name, resolution and
values.
-/

set_option autoImplicit false

namespace MetricQuery

/-! ## Queries -/

def Instant.toJson (instant : Instant) : Json :=
  .string instant.documentText

def Instant.ofJson (document : Json) : Decoded Instant :=
  match document.asString with
  | .ok text => required (Instant.ofDocument? text)
  | .error fault => .error fault

def Duration.toJson (duration : Duration) : Json :=
  .number (.integer duration.millis)

def Duration.ofJson (document : Json) : Decoded Duration :=
  match document.asInteger with
  | .error fault => .error fault
  | .ok millis =>
    match Duration.ofMillis? millis with
    | some duration => .ok duration
    | none => .error (.durationOutOfRange millis)

namespace Query

def toJson (query : Query) : Json :=
  .object (Json.optionalField "collection" .string query.collection ++
    ("parts", .array (query.parts.map Part.toJson)) ::
    (Json.optionalField "beginning" Instant.toJson query.beginning ++
      (Json.optionalField "ending" Instant.toJson query.ending ++
        Json.optionalField "duration" Duration.toJson query.duration)))

def fieldNames : List String := ["collection", "parts", "beginning", "ending", "duration"]

def setField (draft : Query) : String → Json → Decoded Query
  | "collection", value =>
    (value.asOptional Json.asString).map fun given => { draft with collection := given }
  | "parts", value => (value.asList Part.ofJson).map fun given => { draft with parts := given }
  | "beginning", value =>
    (value.asOptional Instant.ofJson).map fun given => { draft with beginning := given }
  | "ending", value =>
    (value.asOptional Instant.ofJson).map fun given => { draft with ending := given }
  | "duration", value =>
    (value.asOptional Duration.ofJson).map fun given => { draft with duration := given }
  | _, _ => .ok draft

def ofJson (document : Json) : Decoded Query :=
  document.asStructure fieldNames empty setField

end Query

/-! ## Responses -/

namespace Confidence

def word : Confidence → String
  | .off => "off"
  | .on => "on"
  | .aligned => "aligned"

def ofWord? : String → Option Confidence
  | "off" => some .off
  | "on" => some .on
  | "aligned" => some .aligned
  | _ => none

def toJson (confidence : Confidence) : Json :=
  .string confidence.word

def ofJson (document : Json) : Decoded Confidence :=
  match document.asCaseName with
  | .ok name => required (ofWord? name)
  | .error fault => .error fault

end Confidence

namespace Row

def toJson (row : Row Float) : Json :=
  .object [("n", .string row.name), ("r", .number (.integer row.resolution)),
    ("v", .array (row.values.map Json.ofFloat))]

structure Draft where
  name : Option String := none
  resolution : Option Int := none
  values : List Float := []

def fieldNames : List String := ["n", "r", "v"]

def setField (draft : Draft) : String → Json → Decoded Draft
  | "n", value => value.asString.map fun given => { draft with name := given }
  | "r", value => value.asInteger.map fun given => { draft with resolution := given }
  | "v", value => (value.asList Json.asFloat).map fun given => { draft with values := given }
  | _, _ => .ok draft

def Draft.finish : Draft → Decoded (Row Float)
  | ⟨some name, some resolution, values⟩ => .ok ⟨name, resolution, values⟩
  | _ => malformed

def ofJson (document : Json) : Decoded (Row Float) :=
  match document.asStructure fieldNames {} setField with
  | .ok draft => draft.finish
  | .error fault => .error fault

end Row

namespace Response

def toJson (response : Response Float) : Json :=
  .object [("s", .number (.integer response.start)),
    ("d", .array (response.rows.map Row.toJson))]

structure Draft where
  start : Option Int := none
  rows : List (Row Float) := []

def fieldNames : List String := ["s", "d"]

def setField (draft : Draft) : String → Json → Decoded Draft
  | "s", value => value.asInteger.map fun given => { draft with start := given }
  | "d", value => (value.asList Row.ofJson).map fun given => { draft with rows := given }
  | _, _ => .ok draft

def Draft.finish : Draft → Decoded (Response Float)
  | ⟨some start, rows⟩ => .ok ⟨start, rows⟩
  | _ => malformed

def ofJson (document : Json) : Decoded (Response Float) :=
  match document.asStructure fieldNames {} setField with
  | .ok draft => draft.finish
  | .error fault => .error fault

end Response

end MetricQuery
