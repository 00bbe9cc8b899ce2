import MetricQuery.Proofs.Results
import MetricQuery.Selection

/-!
# Runs of builder steps

A query is built by steps taken on a query as a whole or on a handle of one of
its parts. A step that fails leaves what there was. Whatever the steps are, the
handles that a run comes by point at parts that exist, and no part gets lost.
-/

set_option autoImplicit false

namespace MetricQuery

inductive PartStep where
  | filter (condition : Condition)
  | combineFilter (condition : Condition) (combinator : Combinator)
  | shiftBy (offset : String)
  | apply (function : String) (arguments : List Argument)
  | nameBy (name : String)
  | labelBy (label : String)
  | leadWith (lead : List String)
  | annotateWith (tags : List TagForm)
  | annotateWithStatic (key : String) (value : Json)
  | annotateWithStatics (fields : Bindings Json)
  | exclude
  | reinstate

namespace PartStep

def onPart : PartStep → Part → Except QueryError Part
  | .filter condition, part => .ok (part.filter condition)
  | .combineFilter condition combinator, part => .ok (part.combineFilter condition combinator)
  | .shiftBy offset, part => .ok (part.shiftBy offset)
  | .apply function arguments, part => .ok (part.apply function arguments)
  | .nameBy name, part => .ok (part.nameBy name)
  | .labelBy label, part => .ok (part.labelBy label)
  | .leadWith lead, part => .ok (part.leadWith lead)
  | .annotateWith tags, part => part.annotateWith tags
  | .annotateWithStatic key value, part => part.annotateWithStatic key value
  | .annotateWithStatics fields, part => part.annotateWithStatics fields
  | .exclude, part => .ok part.exclude
  | .reinstate, part => .ok part.reinstate

def onSelection : PartStep → Selection → Except QueryError Selection
  | .filter condition, held => .ok (held.filter condition)
  | .combineFilter condition combinator, held => .ok (held.combineFilter condition combinator)
  | .shiftBy offset, held => .ok (held.shiftBy offset)
  | .apply function arguments, held => .ok (held.apply function arguments)
  | .nameBy name, held => .ok (held.nameBy name)
  | .labelBy label, held => .ok (held.labelBy label)
  | .leadWith lead, held => .ok (held.leadWith lead)
  | .annotateWith tags, held => held.annotateWith tags
  | .annotateWithStatic key value, held => held.annotateWithStatic key value
  | .annotateWithStatics fields, held => held.annotateWithStatics fields
  | .exclude, held => .ok held.exclude
  | .reinstate, held => .ok held.reinstate

end PartStep

inductive Builder where
  | whole (query : Query)
  | handle (selection : Selection)

namespace Builder

def query : Builder → Query
  | .whole query => query
  | .handle selection => selection.query

def mapQuery (change : Query → Query) : Builder → Builder
  | .whole query => .whole (change query)
  | .handle selection => .handle (selection.mapQuery change)

@[simp] theorem query_mapQuery (change : Query → Query) (builder : Builder) :
    (builder.mapQuery change).query = change builder.query := by
  cases builder <;> rfl

/-- The handle that operations on parts work on, on a query the last one. -/
def selection : Builder → Except QueryError Selection
  | .whole query => query.lastSelection
  | .handle selection => .ok selection

def Valid : Builder → Prop
  | .whole _ => True
  | .handle selection => selection.index < selection.query.parts.length

end Builder

inductive Step where
  | fromCollection (collection : String)
  | select (metric : MetricForm)
  | selectAll
  | beginningAt (instant : Instant)
  | endingAt (instant : Instant)
  | last (duration : Duration)
  | bind (name : String) (value : Value)
  | selectAt (index : Nat)
  | lastSelection
  | updatePart (index : Nat) (change : Part → Except QueryError Part)
  | part (step : PartStep)
  | intoQuery

namespace Builder

def step (builder : Builder) : Step → Except QueryError Builder
  | .fromCollection collection => .ok (.whole (builder.query.fromCollection collection))
  | .select metric => (builder.query.select metric).map .handle
  | .selectAll => builder.query.selectAll.map .handle
  | .beginningAt instant => .ok (builder.mapQuery (·.beginningAt instant))
  | .endingAt instant => .ok (builder.mapQuery (·.endingAt instant))
  | .last duration => .ok (builder.mapQuery (·.last duration))
  | .bind name value => .ok (builder.mapQuery (·.bind name value))
  | .selectAt index => (builder.query.selectAt index).map .handle
  | .lastSelection => builder.query.lastSelection.map .handle
  | .updatePart index change => (builder.query.updatePart index change).map .whole
  | .part step => (builder.selection.bind step.onSelection).map .handle
  | .intoQuery => .ok (.whole builder.query)

/-- All steps in turn, up to the first one that fails. -/
def through (steps : List Step) (builder : Builder) : Except QueryError Builder :=
  steps.foldlM step builder

/-- What there is after a step, whether or not it fails. -/
def after (builder : Builder) (step : Step) : Builder :=
  match builder.step step with
  | .ok next => next
  | .error _ => builder

def run (steps : List Step) (builder : Builder) : Builder :=
  steps.foldl after builder

/-- What each successful step preserves holds after every run. -/
theorem run_induction (invariant : Builder → Prop) {steps : List Step}
    (preserved : ∀ step ∈ steps, ∀ before next, invariant before →
      before.step step = .ok next → invariant next) :
    ∀ {builder : Builder}, invariant builder → invariant (run steps builder) := by
  induction steps with
  | nil => intro builder holds; exact holds
  | cons step steps ih =>
    intro builder holds
    apply ih fun later member => preserved later (List.mem_cons_of_mem step member)
    cases taken : builder.step step with
    | error error => simpa [after, taken] using holds
    | ok next =>
      simpa [after, taken] using preserved step List.mem_cons_self builder next holds taken

end Builder

/-! ## What one step does -/

namespace Query

theorem select_eq_ok {query : Query} {metric : MetricForm} {selection : Selection}
    (success : query.select metric = .ok selection) :
    ∃ collection selector, query.collection = some collection ∧
      Selector.make collection metric = .ok selector ∧
      selection = ⟨{ query with parts := query.parts ++ [Part.ofSelector selector] },
        query.parts.length⟩ := by
  simp only [select] at success
  cases current : query.collection with
  | none => simp [current] at success
  | some collection =>
    cases made : Selector.make collection metric with
    | error error => simp [current, made] at success
    | ok selector =>
      rw [current] at success
      simp only [made] at success
      exact ⟨collection, selector, rfl, made, (Except.ok.inj success).symm⟩

theorem selectAt_eq_ok {query : Query} {index : Nat} {selection : Selection}
    (success : query.selectAt index = .ok selection) :
    selection = ⟨query, index⟩ ∧ index < query.parts.length := by
  by_cases inside : index < query.parts.length
  · rw [selectAt, if_pos inside] at success
    exact ⟨(Except.ok.inj success).symm, inside⟩
  · rw [selectAt, if_neg inside] at success
    cases success

theorem lastSelection_eq_ok {query : Query} {selection : Selection}
    (success : query.lastSelection = .ok selection) :
    selection = ⟨query, query.parts.length - 1⟩ ∧ selection.index < query.parts.length := by
  cases count : query.parts.length with
  | zero => simp [lastSelection, count] at success
  | succ last =>
    simp only [lastSelection, count] at success
    obtain ⟨rfl, inside⟩ := selectAt_eq_ok success
    exact ⟨rfl, count ▸ inside⟩

theorem updatePart_eq_ok_iff {query changed : Query} {index : Nat}
    {change : Part → Except QueryError Part} :
    query.updatePart index change = .ok changed ↔
      ∃ old new, query.parts[index]? = some old ∧ change old = .ok new ∧
        changed = { query with parts := query.parts.set index new } := by
  simp only [updatePart]
  cases query.parts[index]? with
  | none => simp
  | some old => cases made : change old <;> simp [made, eq_comm]

end Query

namespace Selection

theorem tryMap_eq (selection : Selection) (change : Part → Except QueryError Part) :
    selection.tryMap change = (selection.query.updatePart selection.index change).map
      fun query => ⟨query, selection.index⟩ := by
  simp only [tryMap]
  cases selection.query.updatePart selection.index change <;> rfl

/-- On a handle of an existing part, a change that cannot fail is one that does not. -/
theorem map_eq_tryMap {selection : Selection}
    (valid : selection.index < selection.query.parts.length) (change : Part → Part) :
    .ok (selection.map change) = selection.tryMap fun part => .ok (change part) := by
  have placed := List.modify_eq_set_get change valid
  simp [tryMap, Query.updatePart, map, mapQuery, valid, placed]

end Selection

/-- Every operation on a handle is the same operation on the part behind it. -/
theorem PartStep.onSelection_eq {selection : Selection}
    (valid : selection.index < selection.query.parts.length) (step : PartStep) :
    step.onSelection selection =
      (selection.query.updatePart selection.index step.onPart).map
        fun query => ⟨query, selection.index⟩ := by
  rw [← Selection.tryMap_eq]
  cases step with
  | annotateWith | annotateWithStatic | annotateWithStatics => rfl
  | filter | combineFilter | shiftBy | apply | nameBy | labelBy | leadWith | exclude
      | reinstate => exact Selection.map_eq_tryMap valid _

namespace Builder

theorem selection_eq_ok {builder : Builder} {selection : Selection} (valid : builder.Valid)
    (success : builder.selection = .ok selection) :
    selection.query = builder.query ∧ selection.index < builder.query.parts.length := by
  cases builder with
  | whole query =>
    obtain ⟨rfl, inside⟩ := Query.lastSelection_eq_ok success
    exact ⟨rfl, inside⟩
  | handle held =>
    obtain rfl := Except.ok.inj success
    exact ⟨rfl, valid⟩

end Builder

end MetricQuery
