import MetricQuery.Query

/-!
# Selections

A selection is a query together with the index of one of its parts, on which
the operations on parts work. Selecting a metric appends a part and selects it.
-/

set_option autoImplicit false

namespace MetricQuery

structure Selection where
  query : Query
  index : Nat

namespace Query

/-- Appends a part with a metric of the current collection. -/
def select (query : Query) (metric : MetricForm) : Except QueryError Selection :=
  match query.collection with
  | none => .error .missingCollection
  | some collection =>
    match Selector.make collection metric with
    | .error error => .error error
    | .ok selector =>
      .ok ⟨{ query with parts := query.parts ++ [Part.ofSelector selector] },
        query.parts.length⟩

def selectAll (query : Query) : Except QueryError Selection :=
  query.select (.metric .all)

def selectAt (query : Query) (index : Nat) : Except QueryError Selection :=
  if index < query.parts.length then .ok ⟨query, index⟩
  else .error (.partOutOfRange index query.parts.length)

def lastSelection (query : Query) : Except QueryError Selection :=
  match query.parts.length with
  | 0 => .error .noSelection
  | last + 1 => query.selectAt last

end Query

namespace Selection

def part? (selection : Selection) : Option Part :=
  selection.query.parts[selection.index]?

def mapQuery (selection : Selection) (change : Query → Query) : Selection :=
  { selection with query := change selection.query }

def map (selection : Selection) (change : Part → Part) : Selection :=
  selection.mapQuery fun query =>
    { query with parts := query.parts.modify selection.index change }

def tryMap (selection : Selection) (change : Part → Except QueryError Part) :
    Except QueryError Selection :=
  match selection.query.updatePart selection.index change with
  | .error error => .error error
  | .ok query => .ok { selection with query := query }

def filter (selection : Selection) (condition : Condition) : Selection :=
  selection.map (·.filter condition)

def combineFilter (selection : Selection) (condition : Condition)
    (combinator : Combinator) : Selection :=
  selection.map (·.combineFilter condition combinator)

def shiftBy (selection : Selection) (offset : String) : Selection :=
  selection.map (·.shiftBy offset)

def apply (selection : Selection) (function : String) (arguments : List Argument) :
    Selection :=
  selection.map (·.apply function arguments)

def nameBy (selection : Selection) (name : String) : Selection :=
  selection.map (·.nameBy name)

def labelBy (selection : Selection) (label : String) : Selection :=
  selection.map (·.labelBy label)

def leadWith (selection : Selection) (lead : List String) : Selection :=
  selection.map (·.leadWith lead)

def exclude (selection : Selection) : Selection :=
  selection.map Part.exclude

def reinstate (selection : Selection) : Selection :=
  selection.map Part.reinstate

def annotateWith (selection : Selection) (tags : List TagForm) :
    Except QueryError Selection :=
  selection.tryMap (·.annotateWith tags)

def annotateWithStatic (selection : Selection) (key : String) (value : Json) :
    Except QueryError Selection :=
  selection.tryMap (·.annotateWithStatic key value)

def annotateWithStatics (selection : Selection) (fields : Bindings Json) :
    Except QueryError Selection :=
  selection.tryMap (·.annotateWithStatics fields)

end Selection

end MetricQuery
