import MetricQuery.Query
import MetricQuery.Series.Response
import MetricQuery.Series.Sample

/-!
# Decoding responses

The rows of a response are matched to the parts of a query by their names. A
value row and a confidence row of the same part and metadata belong together,
the first to the first, the second to the second and so on. Each such group
becomes a series.
-/

set_option autoImplicit false

namespace MetricQuery

structure Decoder where
  parts : List Part
  confidence : Confidence

structure RowKey where
  index : Nat
  metadata : List String
  deriving DecidableEq, Repr

/-- The rows of a series. `occurrence` counts the groups of the same key in front
of this one. -/
structure RowGroup (α : Type) where
  key : RowKey
  occurrence : Nat
  value : Option (Row α)
  confidence : Option (Row α)

def Query.decoder (query : Query) (confidence : Confidence) : Decoder :=
  ⟨query.parts, confidence⟩

namespace RowGroup

variable {α : Type}

def row? (group : RowGroup α) : Channel → Option (Row α)
  | .value => group.value
  | .confidence => group.confidence

def fill (group : RowGroup α) (row : Row α) : Channel → RowGroup α
  | .value => { group with value := some row }
  | .confidence => { group with confidence := some row }

def ofRow (key : RowKey) (occurrence : Nat) (channel : Channel) (row : Row α) : RowGroup α :=
  RowGroup.fill ⟨key, occurrence, none, none⟩ row channel

def checked (group : RowGroup α) : Except QueryError (RowGroup α) :=
  match group.value, group.confidence with
  | some value, some confidence =>
    if value.resolution = confidence.resolution then .ok group
    else .error (.mismatchedResolution group.key.index value.resolution confidence.resolution)
  | _, _ => .ok group

end RowGroup

namespace Decoder

/-! ## Names -/

/-- The channel that a section names. Where confidence is off there is one
channel, and no section for it. -/
def splitChannel (decoder : Decoder) (name : String) (sections : List String) :
    Except QueryError (Channel × List String) :=
  if decoder.confidence.isEnabled then
    match sections with
    | [] => .error (.invalidChannel name "")
    | given :: metadata =>
      match Channel.ofSection? given with
      | some channel => .ok (channel, metadata)
      | none => .error (.invalidChannel name given)
  else .ok (.value, sections)

def index? (given : String) : Option Nat :=
  Text.unsigned? Text.maxUnsigned64 given.toList

def parseName (decoder : Decoder) (name : String) : Except QueryError (RowKey × Channel) :=
  match Series.splitName? name with
  | none | some [] => .error (.invalidSeriesName name)
  | some (given :: sections) =>
    match index? given with
    | none => .error (.invalidSeriesName name)
    | some index =>
      if decoder.parts.length ≤ index then .error (.unknownPart name index)
      else
        match decoder.splitChannel name sections with
        | .error error => .error error
        | .ok (channel, metadata) => .ok (⟨index, metadata⟩, channel)

/-! ## Groups -/

variable {α : Type}

/-- Puts a row into the first group of its key where its channel is free, or
into a new group behind all others. `occurrence` counts the groups of the key so
far. -/
def place (key : RowKey) (channel : Channel) (row : Row α) (occurrence : Nat) :
    List (RowGroup α) → Except QueryError (List (RowGroup α))
  | [] => .ok [RowGroup.ofRow key occurrence channel row]
  | group :: rest =>
    if group.key = key then
      match group.row? channel with
      | some _ => (place key channel row (occurrence + 1) rest).map (group :: ·)
      | none => (group.fill row channel).checked.map (· :: rest)
    else (place key channel row occurrence rest).map (group :: ·)

def addRow (decoder : Decoder) (groups : List (RowGroup α)) (row : Row α) :
    Except QueryError (List (RowGroup α)) :=
  match decoder.parseName row.name with
  | .error error => .error error
  | .ok (key, channel) => place key channel row 0 groups

/-- The groups of rows, in the order of their first rows. -/
def groupRows (decoder : Decoder) (rows : List (Row α)) :
    Except QueryError (List (RowGroup α)) :=
  rows.foldlM decoder.addRow []

/-! ## Series -/

def pointsFrom (timestamp resolution : Int) : List α → List (Point α)
  | [] => []
  | value :: rest => ⟨value, timestamp⟩ :: pointsFrom (timestamp + resolution) resolution rest

/-- The milliseconds from the first value of a row to its last. -/
def span (row : Row α) : Int :=
  (row.values.length - 1 : Nat) * row.resolution

/-- Whether the times of a row increase and fit 64 bits. -/
def fits (start : Int) (row : Row α) : Bool :=
  0 < row.resolution && span row ≤ Text.maxSigned64 && start + span row ≤ Text.maxSigned64

def seriesName (part : Part) : String :=
  part.label?.getD part.selector.text

def seriesTags (part : Part) (metadata : List String) : Bindings String :=
  Bindings.ofList ((part.tags.map Tag.key).zip metadata)

variable [Sample α]

/-- The points whose confidence is there and positive. -/
def gate (points : List (Point α)) (confidence : List α) : List (Point α) :=
  ((points.zip confidence).filter fun pair => Sample.positive pair.2).map Prod.fst

/-- The overlay of the groups of the same metadata and occurrence. -/
def overlay (groups : List (RowGroup α)) (group : RowGroup α) : List α :=
  let alike := groups.filter fun other =>
    other.key.metadata == group.key.metadata && other.occurrence == group.occurrence
  Series.overlayOf (alike.filterMap fun other => other.confidence.map Row.values)

def seriesPoints (decoder : Decoder) (start : Int) (groups : List (RowGroup α))
    (group : RowGroup α) (value : Row α) : List (Point α) :=
  match decoder.confidence, group.confidence with
  | .off, _ | _, none => pointsFrom start value.resolution value.values
  | .on, some confidence =>
    gate (pointsFrom start value.resolution value.values) confidence.values
  | .aligned, some confidence =>
    gate (pointsFrom start value.resolution
        (Series.interpolate value.values confidence.values))
      (overlay groups group)

def series (decoder : Decoder) (start : Int) (groups : List (RowGroup α))
    (group : RowGroup α) : Except QueryError (Series α) :=
  match group.value, decoder.parts[group.key.index]? with
  | none, _ => .error (.missingDataChannel group.key.index)
  | some _, none => .error (.missingDataChannel group.key.index)
  | some value, some part =>
    if fits start value then
      .ok ⟨part, seriesName part, seriesTags part group.key.metadata,
        decoder.seriesPoints start groups group value⟩
    else .error (.invalidResolution group.key.index value.resolution)

def decode (decoder : Decoder) (response : Response α) :
    Except QueryError (DecodedResponse α) :=
  let start := 1000 * response.start
  match Instant.ofMillis? start with
  | none => .error (.invalidTime (Json.writeInt response.start))
  | some instant =>
    match decoder.groupRows response.rows with
    | .error error => .error error
    | .ok groups =>
      match groups.mapM (decoder.series start groups) with
      | .error error => .error error
      | .ok series => .ok ⟨instant, series⟩

end Decoder

end MetricQuery
