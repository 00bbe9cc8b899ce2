import MetricQuery.Proofs.OptionTexts
import MetricQuery.Proofs.PartRuns
import MetricQuery.Proofs.Scopes

/-!
# Queries of commands

The options of a command give every selection a part of its own. The parts differ in their
metrics alone: each function, tag and label lands on the part that has just been appended,
and what comes behind the selections, limits in time and variables, leaves parts as they
are.
-/

set_option autoImplicit false

namespace MetricQuery

/-! ## The part appended last -/

namespace Query

def appending (query : Query) (part : Part) : Selection :=
  ⟨{ query with parts := query.parts ++ [part] }, query.parts.length⟩

theorem tryMap_appending (query : Query) (part : Part)
    (change : Part → Except QueryError Part) :
    (query.appending part).tryMap change = (change part).map query.appending := by
  simp only [Selection.tryMap, appending, updatePart, List.getElem?_concat_length]
  cases change part with
  | error error => rfl
  | ok changed => simp [Except.map, appending]

theorem map_appending (query : Query) (part : Part) (change : Part → Part) :
    (query.appending part).map change = query.appending (change part) := by
  have inside : (query.appending part).index < (query.appending part).query.parts.length := by
    simp [appending]
  have changed := Selection.map_eq_tryMap inside change
  rw [tryMap_appending] at changed
  exact Except.ok.inj changed

theorem select_eq {query : Query} {collection : String}
    (current : query.collection = some collection) (metric : MetricForm) :
    query.select metric =
      (Selector.make collection metric).map fun selector =>
        query.appending (Part.ofSelector selector) := by
  simp only [select, current]
  cases Selector.make collection metric with
  | error error => rfl
  | ok selector => simp [Except.map, appending, current]

end Query

/-- Functions change nothing but the call of a part. -/
theorem Part.applyAll_eq_withCall (calls : List (String × List Argument)) :
    ∀ part : Part, part.applyAll calls = part.withCall (part.applyAll calls).call := by
  induction calls with
  | nil => exact fun part => part.withCall_call.symm
  | cons call rest ih => exact fun part => ih (part.apply call.1 call.2)

namespace Command

theorem applyAll_appending (query : Query) (functions : List String) :
    ∀ part : Part, functions.foldl applySpec (query.appending part) =
      query.appending (part.applyAll (functions.map application)) := by
  induction functions with
  | nil => exact fun _ => rfl
  | cons text rest ih =>
    intro part
    rw [List.foldl_cons, applySpec_eq, Selection.apply, Query.map_appending]
    exact ih _

def variablesOf (entries : List (String × String)) : Variables :=
  Bindings.ofList (entries.map fun entry => (entry.1, .text entry.2))

namespace QueryOptions

variable (options : QueryOptions)

/-! ## Parts -/

def annotations (tags : List Tag) : Option Annotations :=
  if options.tags.isEmpty && options.label.isNone then none else some ⟨options.label, tags, [], ∅⟩

def part (tags : List Tag) (metric : Metric) : Part :=
  { (Part.ofSelector ⟨options.collection, metric, none, none⟩).applyAll
      (options.functions.map application) with
    annotations := options.annotations tags }

def parsedTags : Except QueryError (List Tag) :=
  options.tags.mapM Tag.parse

theorem annotateWith_of_none {part : Part} (bare : part.annotations = none) (texts : List String) :
    part.annotateWith (texts.map TagForm.text) =
      (texts.mapM Tag.parse).map fun tags =>
        { part with annotations := some ⟨none, tags, [], ∅⟩ } := by
  have parsed : (texts.map TagForm.text).mapM TagForm.tag = texts.mapM Tag.parse :=
    List.mapM_map
  simp only [Part.annotateWith, Part.tryAnnotations, Annotations.annotateWith, parsed,
    Part.annotated, bare]
  cases texts.mapM Tag.parse <;> rfl

theorem annotateWith_appending (query : Query) {part : Part} (bare : part.annotations = none)
    (texts : List String) :
    (query.appending part).annotateWith (texts.map TagForm.text) =
      (texts.mapM Tag.parse).map fun tags =>
        query.appending { part with annotations := some ⟨none, tags, [], ∅⟩ } := by
  rw [Selection.annotateWith, Query.tryMap_appending, annotateWith_of_none bare]
  cases texts.mapM Tag.parse <;> rfl

theorem decorate_appending (query : Query) {part : Part} (bare : part.annotations = none) :
    options.decorate (query.appending part) =
      options.parsedTags.map fun tags =>
        query.appending { part.applyAll (options.functions.map application) with
          annotations := options.annotations tags } := by
  have alsoBare : (part.applyAll (options.functions.map application)).annotations = none := by
    rw [Part.applyAll_eq_withCall]
    exact bare
  simp only [decorate, applyAll_appending, annotateWith_appending query alsoBare,
    Selection.labelBy]
  generalize part.applyAll (options.functions.map application) = applied at alsoBare
  obtain ⟨selector, call, annotations, name, excluded⟩ := applied
  cases alsoBare
  unfold parsedTags QueryOptions.annotations
  cases options.tags with
  | nil =>
    cases options.label with
    | none => rfl
    | some label => exact congrArg Except.ok (query.map_appending _ (·.labelBy label))
  | cons first others =>
    cases (first :: others).mapM Tag.parse with
    | error error => rfl
    | ok tags =>
      cases options.label with
      | none => rfl
      | some label => exact congrArg Except.ok (query.map_appending _ (·.labelBy label))

/-- A selection appends its part; what fails is a tag. -/
theorem addSelection_eq {query : Query} (current : query.collection = some options.collection)
    (text : String) :
    options.addSelection query text =
      options.parsedTags.map fun tags =>
        { query with parts := query.parts ++ [options.part tags (metricNamed text)] } := by
  rw [addSelection, Query.select_eq current, make_metricOf]
  change (options.decorate (query.appending _)).map _ = _
  rw [options.decorate_appending query rfl]
  cases options.parsedTags <;> rfl

theorem foldlM_addSelection {tags : List Tag} (parsed : options.parsedTags = .ok tags)
    (selections : List String) :
    ∀ query : Query, query.collection = some options.collection →
      selections.foldlM options.addSelection query = .ok { query with
        parts := query.parts ++ selections.map fun text => options.part tags (metricNamed text) } := by
  induction selections with
  | nil => intro query _; simp [pure, Except.pure]
  | cons text rest ih =>
    intro query current
    rw [List.foldlM_cons, options.addSelection_eq current, parsed]
    refine (ih { query with
      parts := query.parts ++ [options.part tags (metricNamed text)] } current).trans ?_
    simp

/-! ## Limits and variables -/

/-- The limits in time that the options name; the first text that is no time fails. -/
def limits : Except QueryError (Option Instant × Option Instant × Option Duration) := do
  let duration ← options.last.mapM Duration.parse
  let beginning ← options.beginning.mapM Instant.parse
  let ending ← options.ending.mapM Instant.parse
  return (beginning, ending, duration)

def limitedBy {α : Type} (parse : String → Except QueryError α) (change : Query → α → Query)
    (given : Option String) (query : Query) : Except QueryError Query :=
  match given with
  | some text => (parse text).map (change query)
  | none => .ok query

theorem limitedBy_eq {α : Type} (parse : String → Except QueryError α)
    (change : Query → α → Query) (given : Option String) (query : Query) :
    limitedBy parse change given query =
      (given.mapM parse).map fun value => value.elim query (change query) := by
  cases given with
  | none => rfl
  | some text =>
    rw [limitedBy, Option.mapM_some]
    cases parse text <;> rfl

theorem addRange_eq_limitedBy (query : Query) :
    options.addRange query =
      (limitedBy Duration.parse Query.last options.last query).bind fun query =>
        (limitedBy Instant.parse Query.beginningAt options.beginning query).bind fun query =>
          limitedBy Instant.parse Query.endingAt options.ending query := by
  unfold addRange
  cases options.last <;> cases options.beginning <;> cases options.ending <;> rfl

theorem addRange_eq {query : Query} (unlimited : query.beginning = none ∧ query.ending = none ∧
    query.duration = none) :
    options.addRange query =
      options.limits.map fun limits =>
        { query with beginning := limits.1, ending := limits.2.1, duration := limits.2.2 } := by
  simp only [addRange_eq_limitedBy, limitedBy_eq, limits]
  obtain ⟨collection, parts, beginning, ending, duration, bindings⟩ := query
  obtain ⟨rfl, rfl, rfl⟩ := unlimited
  cases options.last.mapM Duration.parse with
  | error error => rfl
  | ok duration =>
    cases options.beginning.mapM Instant.parse with
    | error error => rfl
    | ok beginning =>
      cases options.ending.mapM Instant.parse with
      | error error => rfl
      | ok ending =>
        cases duration <;> cases beginning <;> cases ending <;> rfl

theorem foldlM_addVariable (bindings : List String) :
    ∀ query : Query, bindings.foldlM addVariable query =
      (bindings.mapM boundIn).map fun entries =>
        query.bindAll (entries.map fun entry => (entry.1, .text entry.2)) := by
  induction bindings with
  | nil => exact fun _ => rfl
  | cons binding rest ih =>
    intro query
    rw [List.foldlM_cons, mapM_cons_eq, addVariable, boundIn]
    rcases cutAt_cases '=' binding with ⟨_, cut⟩ | ⟨name, value, _, _, cut⟩
    · rw [cut]
      rfl
    · rw [cut]
      refine (ih (query.bind name (.text value))).trans ?_
      cases rest.mapM boundIn <;> rfl

theorem build_eq (present : options.selections ≠ []) :
    options.build = do
      let tags ← options.parsedTags.mapError .query
      let limits ← options.limits.mapError .query
      let entries ← options.bindings.mapM boundIn
      return ⟨some options.collection,
        options.selections.map fun text => options.part tags (metricNamed text),
        limits.1, limits.2.1, limits.2.2, variablesOf entries⟩ := by
  have selected : options.selections.foldlM options.addSelection
      (Query.empty.fromCollection options.collection) =
      options.parsedTags.map fun tags => ⟨some options.collection,
        options.selections.map fun text => options.part tags (metricNamed text),
        none, none, none, ∅⟩ := by
    cases parsed : options.parsedTags with
    | error error =>
      obtain ⟨first, others, some⟩ := List.exists_cons_of_ne_nil present
      rw [some, List.foldlM_cons, options.addSelection_eq rfl, parsed]
      rfl
    | ok tags => exact options.foldlM_addSelection parsed options.selections _ rfl
  rw [build, selected]
  cases options.parsedTags with
  | error error => rfl
  | ok tags =>
    change ((options.addRange _).mapError RunError.query).bind _ = _
    rw [options.addRange_eq ⟨rfl, rfl, rfl⟩]
    cases options.limits with
    | error error => rfl
    | ok limits =>
      change options.bindings.foldlM addVariable _ = _
      rw [foldlM_addVariable]
      cases options.bindings.mapM boundIn with
      | error error => rfl
      | ok entries => exact congrArg Except.ok (Query.bindAll_eq _ _)

end QueryOptions

end Command

end MetricQuery
