import MetricQuery.Rendering
import MetricQuery.Time.Range

/-!
# Queries

A query is a list of parts with a time range and variables. Named parts can be
referred to like variables; a variable of the same name takes precedence, and an
override given for one rendering takes precedence over both.
-/

set_option autoImplicit false

namespace MetricQuery

structure Query where
  /-- The collection that the next selected metric belongs to. -/
  collection : Option String
  parts : List Part
  beginning : Option Instant
  ending : Option Instant
  duration : Option Duration
  bindings : Variables

namespace Query

def empty : Query := ⟨none, [], none, none, none, ∅⟩

def fromCollection (query : Query) (collection : String) : Query :=
  { query with collection := some collection }

def beginningAt (query : Query) (instant : Instant) : Query :=
  { query with beginning := some instant }

def endingAt (query : Query) (instant : Instant) : Query :=
  { query with ending := some instant }

/-- Limits the query to the time before now, in place of any other limits. -/
def last (query : Query) (duration : Duration) : Query :=
  { query with duration := some duration, beginning := none, ending := none }

def bind (query : Query) (name : String) (value : Value) : Query :=
  { query with bindings := query.bindings.insert name value }

/-- Replaces the part at an index by what a change makes of it. -/
def updatePart (query : Query) (index : Nat) (change : Part → Except QueryError Part) :
    Except QueryError Query :=
  match query.parts[index]? with
  | none => .error (.partOutOfRange index query.parts.length)
  | some part =>
    match change part with
    | .error error => .error error
    | .ok part => .ok { query with parts := query.parts.set index part }

def range? (query : Query) : Option TimeRange :=
  TimeRange.ofLimits? query.beginning query.ending query.duration

def namedParts (query : Query) : List (String × Value) :=
  query.parts.filterMap fun part => part.name.map fun name => (name, .part part)

/-- What references mean in a query: named parts, above them the variables, and
above them the overrides. -/
def environment (query : Query) (overrides : Variables) : Variables :=
  ((Bindings.ofList query.namedParts).overlaid query.bindings).overlaid overrides

def renderParts (resolve : Resolver) : List Part → Except QueryError (List String)
  | [] => .ok []
  | part :: rest =>
    match part.render resolve with
    | .error error => .error error
    | .ok text =>
      match renderParts resolve rest with
      | .error error => .error error
      | .ok texts => .ok (text :: texts)

def renderWith (query : Query) (overrides : Variables) : Except QueryError String :=
  let shown := query.parts.filter fun part => !part.excluded
  match renderParts (resolver (query.environment overrides)) shown with
  | .error error => .error error
  | .ok texts =>
    let items := "SELECT " ++ ", ".intercalate texts
    match query.range? with
    | none => .ok items
    | some range => .ok (items ++ " " ++ range.text)

def render (query : Query) : Except QueryError String :=
  query.renderWith ∅

end Query

end MetricQuery
