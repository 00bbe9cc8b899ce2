import MetricQuery.Proofs.CommandArguments
import MetricQuery.Proofs.CommandQueries

/-!
# Selections of commands

What a command prints is composed of its selections: every one of them adds the item that
it would make alone. For all of them share the functions around their metrics, the alias
behind these and the limits in time, and whatever fails is among what they share.
-/

set_option autoImplicit false

namespace MetricQuery

/-- Without named parts only the variables of a query mean anything. -/
theorem Query.environment_of_unnamed {query : Query}
    (unnamed : ∀ part ∈ query.parts, part.name = none) : query.environment ∅ = query.bindings := by
  have none : query.namedParts = [] := by
    rw [namedParts, List.filterMap_eq_nil_iff]
    intro part member
    rw [unnamed part member]
    rfl
  apply Bindings.ext_get?
  intro name
  rw [get?_environment, none]
  simp

theorem Query.written_eq (query : Query) (items : List String) :
    query.written items = "SELECT " ++ ", ".intercalate items ++
      query.range?.elim "" fun range => " " ++ range.text := by
  rw [written]
  cases query.range? with
  | none => exact String.append_empty.symm
  | some range => exact String.append_assoc

namespace Command

/-! ## Functions with the texts of their arguments -/

section Calls

variable {entries : List (String × String)}

theorem get?_variablesOf (name : String) :
    (variablesOf entries).get? name = (entries.reverse.lookup name).map .text := by
  rw [variablesOf, Bindings.get?_ofList_reverse, ← List.map_reverse]
  induction entries.reverse with
  | nil => rfl
  | cons entry rest ih =>
    obtain ⟨held, value⟩ := entry
    rw [List.map_cons, lookup_entry, ih, lookup_entry]
    by_cases same : name = held <;> simp [same]

/-- An argument is a text, whatever the functions are applied to. -/
theorem render_ofText (subject : Option Selector) (function argument : String) :
    (Argument.ofText argument).render (resolver (variablesOf entries)) subject function =
      argumentText entries argument := by
  by_cases plain : ∀ name, argument ≠ "$" ++ name
  · obtain ⟨itself, text⟩ := ofText_plain plain
    rw [itself, text]
    rfl
  · obtain ⟨name, rfl⟩ := not_forall_not.1 plain
    rw [ofText_reference, argumentText_reference, Argument.render, resolver, maxExpansions,
      resolveWithin, get?_variablesOf]
    cases entries.reverse.lookup name <;> rfl

theorem renderApplications_eq (subject : Selector) (functions : List String) :
    renderApplications (resolver (variablesOf entries)) subject (functions.map application) =
      functions.mapM (callOf entries) := by
  rw [renderApplications, List.mapM_map]
  apply mapM_congr
  intro text _
  have arguments : ∀ given : List String,
      renderArguments (resolver (variablesOf entries)) (some subject) (application text).1
        (given.map Argument.ofText) = given.mapM (argumentText entries) := by
    intro given
    rw [renderArguments_eq_mapM, List.mapM_map]
    exact mapM_congr fun argument _ => render_ofText _ _ argument
  rw [Function.comp_apply]
  unfold callOf
  rcases cutAt_cases ':' text with ⟨_, cut⟩ | ⟨function, given, _, _, cut⟩
  · simp [application, cut, renderArguments, Except.map]
  · have applied : application text = (function, (pieces ',' given).map Argument.ofText) := by
      simp [application, cut]
    have texts := arguments (pieces ',' given)
    rw [applied] at texts ⊢
    rw [texts, cut]

end Calls

/-! ## What selections share -/

structure Shared where
  calls : List (String × List String)
  tags : List Tag
  range : Option TimeRange

def aliasClause (tags : List Tag) (label : Option String) : String :=
  if tags.isEmpty && label.isNone then ""
  else " AS " ++ ".".intercalate (tags.map Tag.aliasSection ++ label.toList.map writeSection)

namespace Shared

def rangeClause (shared : Shared) : String :=
  shared.range.elim "" fun range => " " ++ range.text

/-- The item of a metric: all calls around it, the first one innermost, and the alias. -/
def item (shared : Shared) (options : QueryOptions) (metric : Metric) : String :=
  nestedText (metric.text ++ " FROM '" ++ options.collection ++ "'") shared.calls ++
    aliasClause shared.tags options.label

def text (shared : Shared) (items : List String) : String :=
  "SELECT " ++ ", ".intercalate items ++ shared.rangeClause

structure Describes (shared : Shared) (options : QueryOptions) : Prop where
  calls : List.Forall₂ (Applies options.bindings) options.functions shared.calls
  tags : List.Forall₂ (fun text tag => Tag.parse text = .ok tag) options.tags shared.tags
  range : ∃ beginning ending duration,
    Option.Rel (fun text instant => Instant.parse text = .ok instant) options.beginning beginning ∧
    Option.Rel (fun text instant => Instant.parse text = .ok instant) options.ending ending ∧
    Option.Rel (fun text held => Duration.parse text = .ok held) options.last duration ∧
    shared.range = TimeRange.ofLimits? beginning ending duration

end Shared

namespace QueryOptions

variable (options : QueryOptions)

/-- What the selections share, or what fails for all of them. -/
def shared : Except RunError Shared := do
  let tags ← options.parsedTags.mapError .query
  let limits ← options.limits.mapError .query
  let entries ← options.bindings.mapM boundIn
  let calls ← (options.functions.mapM (callOf entries)).mapError .query
  return ⟨calls, tags, TimeRange.ofLimits? limits.1 limits.2.1 limits.2.2⟩

/-- No selection has a part in what all of them share. -/
theorem shared_select (selections : List String) :
    ({ options with selections := selections } : QueryOptions).shared = options.shared :=
  rfl

def rendered : Except RunError String :=
  options.build.bind fun query => query.render.mapError .query

theorem rel_of_mapM {α : Type} {parse : String → Except QueryError α} {given : Option String}
    {value : Option α} (parsed : given.mapM parse = .ok value) :
    Option.Rel (fun text value => parse text = .ok value) given value := by
  cases given with
  | none =>
    cases parsed
    exact .none
  | some text =>
    rw [Option.mapM_some] at parsed
    obtain ⟨held, success, rfl⟩ := map_eq_ok parsed
    exact .some success

theorem describes_of_shared {shared : Shared} (success : options.shared = .ok shared) :
    shared.Describes options := by
  obtain ⟨tags, parsed, success⟩ := bind_eq_ok success
  obtain ⟨limits, limited, success⟩ := bind_eq_ok success
  obtain ⟨entries, bound, success⟩ := bind_eq_ok success
  obtain ⟨calls, made, success⟩ := bind_eq_ok success
  cases success
  obtain ⟨duration, last, limited⟩ := bind_eq_ok (mapError_eq_ok limited)
  obtain ⟨beginning, first, limited⟩ := bind_eq_ok limited
  obtain ⟨ending, final, limited⟩ := bind_eq_ok limited
  cases limited
  have entriesBound := (mapM_eq_ok_iff _ _ _).1 bound
  have callsMade := (mapM_eq_ok_iff _ _ _).1 (mapError_eq_ok made)
  refine ⟨callsMade.imp fun _ _ => applies_of_callOf entriesBound,
    (mapM_eq_ok_iff _ _ _).1 (mapError_eq_ok parsed), beginning, ending, duration, ?_⟩
  exact ⟨rel_of_mapM first, rel_of_mapM final, rel_of_mapM last, rfl⟩

section Items

variable {options} {tags : List Tag}

theorem isEmpty_of_parsedTags (parsed : options.parsedTags = .ok tags) :
    options.tags.isEmpty = tags.isEmpty := by
  have length := ((mapM_eq_ok_iff _ _ _).1 parsed).length_eq
  rw [Bool.eq_iff_iff, List.isEmpty_iff_length_eq_zero, List.isEmpty_iff_length_eq_zero, length]

theorem item_part (parsed : options.parsedTags = .ok tags) (metric : Metric) (chain : String) :
    (options.part tags metric).item chain = chain ++ aliasClause tags options.label := by
  have annotations : (options.part tags metric).annotations =
      if tags.isEmpty && options.label.isNone then none
      else some ⟨options.label, tags, [], ∅⟩ := by
    rw [part, QueryOptions.annotations, isEmpty_of_parsedTags parsed]
  have unshifted : (options.part tags metric).selector.shiftText = "" := by
    rw [part, Part.applyAll_eq_withCall]
    rfl
  rw [Part.item, annotations, unshifted, aliasClause]
  by_cases bare : (tags.isEmpty && options.label.isNone) = true
  · rw [if_pos bare, if_pos bare]
  · rw [if_neg bare, if_neg bare]
    have aliased : ¬(⟨options.label, tags, [], ∅⟩ : Annotations).isEmpty = true := bare
    simp only [if_neg aliased, Annotations.text, Annotations.aliasText, Annotations.sections]
    have space : " AS " = " " ++ "AS " := by decide
    rw [String.append_empty, String.append_assoc, space, String.append_assoc]
    rfl

theorem chain_part (entries : List (String × String)) (metric : Metric) :
    (options.part tags metric).chain (resolver (variablesOf entries)) =
      (options.functions.mapM (callOf entries)).map
        (nestedText (metric.text ++ " FROM '" ++ options.collection ++ "'")) := by
  have applied : (options.part tags metric).chain (resolver (variablesOf entries)) =
      ((Part.ofSelector ⟨options.collection, metric, none, none⟩).applyAll
        (options.functions.map application)).chain (resolver (variablesOf entries)) :=
    rfl
  rw [applied, Part.chain_applyAll, Part.chain_of_call_eq_none rfl]
  change (renderApplications _ _ _).map _ = _
  rw [renderApplications_eq]
  rfl

theorem render_part (parsed : options.parsedTags = .ok tags) (entries : List (String × String))
    (metric : Metric) (range : Option TimeRange) :
    (options.part tags metric).render (resolver (variablesOf entries)) =
      (options.functions.mapM (callOf entries)).map fun calls =>
        (⟨calls, tags, range⟩ : Shared).item options metric := by
  rw [Part.render_eq, chain_part]
  cases options.functions.mapM (callOf entries) with
  | error error => rfl
  | ok calls => exact congrArg Except.ok (item_part parsed metric _)

theorem part_unnamed (tags : List Tag) (metric : Metric) :
    (options.part tags metric).name = none ∧ (options.part tags metric).excluded = false := by
  rw [part, Part.applyAll_eq_withCall]
  exact ⟨rfl, rfl⟩

/-- All parts fail alike, or none does. -/
theorem render_built (parsed : options.parsedTags = .ok tags) (present : options.selections ≠ [])
    {entries : List (String × String)} {query : Query}
    (parts : query.parts =
      options.selections.map fun text => options.part tags (metricNamed text))
    (bindings : query.bindings = variablesOf entries) :
    query.render = (options.functions.mapM (callOf entries)).map fun calls =>
      let shared : Shared := ⟨calls, tags, query.range?⟩
      shared.text (options.selections.map fun text => shared.item options (metricNamed text)) := by
  have each : ∀ part ∈ query.parts, part.name = none ∧ part.excluded = false := by
    rw [parts, List.forall_mem_map]
    exact fun _ _ => part_unnamed _ _
  have shown : (query.parts.filter fun part => !part.excluded) = query.parts :=
    List.filter_eq_self.2 fun part member => by simp [(each part member).2]
  rw [Query.render, Query.renderWith_eq, shown, Query.environment_of_unnamed fun part member =>
    (each part member).1, bindings, Query.renderParts_eq_mapM, parts, List.mapM_map]
  -- The calls do not depend on the part that they are written for.
  simp only [Function.comp_def, render_part parsed entries _ query.range?]
  rw [mapM_map_of_ne_nil present]
  cases options.functions.mapM (callOf entries) with
  | error error => rfl
  | ok calls => exact congrArg Except.ok (query.written_eq _)

end Items

/-- Every selection adds its own item to the text, and nothing else. -/
theorem rendered_eq (present : options.selections ≠ []) :
    options.rendered = options.shared.map fun shared =>
      shared.text (options.selections.map fun text => shared.item options (metricNamed text)) := by
  rw [rendered, options.build_eq present, shared]
  cases parsed : options.parsedTags with
  | error error => rfl
  | ok tags =>
    cases options.limits with
    | error error => rfl
    | ok limits =>
      cases options.bindings.mapM boundIn with
      | error error => rfl
      | ok entries =>
        change (Query.render _).mapError RunError.query = _
        rw [render_built parsed present rfl rfl]
        change _ = (((options.functions.mapM (callOf entries)).mapError RunError.query).bind _).map _
        cases options.functions.mapM (callOf entries) <;> rfl

end QueryOptions

/-! ## Runs -/

def Outcome.ofText : Except RunError String → Outcome
  | .ok text => .printed (text ++ "\n")
  | .error error => .failed error

theorem Action.run_render (options : QueryOptions) (settings : Settings) :
    (Action.render options false).run settings =
      options.rendered.map fun text => .printed (text ++ "\n") := by
  simp only [Action.run]
  rw [QueryOptions.rendered]
  cases options.build with
  | error error => rfl
  | ok query =>
    change (query.render.mapError RunError.query).bind _ =
      (query.render.mapError RunError.query).map _
    cases query.render <;> rfl

section Runs

variable {arguments : List String} {options : QueryOptions} {path : Option String}

theorem selections_ne_nil {asDocument : Bool}
    (read : Invocation.ofArguments arguments = .ok ⟨.render options asDocument, path⟩) :
    options.selections ≠ [] := by
  obtain ⟨_, _, _, _, _, _, acted, _⟩ := ofArguments_eq_render read
  obtain ⟨_, _, _, described, _⟩ := Action.ofCommand_eq_render.1 acted
  exact (selections_of_ofGiven described).2

variable (files : Files) (environment : String → Option String) (directory : Option String)

def sharedIn (path : Option String) (options : QueryOptions) : Except RunError Shared :=
  ((settingsOf files environment directory path).mapError .settings).bind fun _ => options.shared

theorem run_of_read
    (read : Invocation.ofArguments arguments = .ok ⟨.render options false, path⟩) :
    run files environment directory arguments =
      .ofText (((settingsOf files environment directory path).mapError .settings).bind
        fun _ => options.rendered) := by
  simp only [run, read]
  cases settingsOf files environment directory path with
  | error error => rfl
  | ok settings =>
    simp only [Action.run_render]
    change _ = Outcome.ofText options.rendered
    cases options.rendered <;> rfl

/-- A run prints the items of its selections, or fails for a reason that is none of theirs. -/
theorem run_eq (read : Invocation.ofArguments arguments = .ok ⟨.render options false, path⟩) :
    run files environment directory arguments =
      .ofText ((sharedIn files environment directory path options).map fun shared =>
        shared.text (options.selections.map fun text =>
          shared.item options (metricNamed text))) := by
  rw [run_of_read files environment directory read, options.rendered_eq (selections_ne_nil read),
    sharedIn]
  cases settingsOf files environment directory path <;> rfl

theorem run_onlySelection
    (read : Invocation.ofArguments arguments = .ok ⟨.render options false, path⟩)
    {index : Nat} (inside : index < options.selections.length) :
    run files environment directory (onlySelection index arguments) =
      .ofText ((sharedIn files environment directory path options).map fun shared =>
        shared.text [shared.item options (metricNamed options.selections[index])]) := by
  have alone := run_eq files environment directory (ofArguments_onlySelection read inside)
  rw [sharedIn, QueryOptions.shared_select] at alone
  exact alone

/-- What fails for one selection fails for all of them. -/
theorem run_of_error {error : RunError}
    (read : Invocation.ofArguments arguments = .ok ⟨.render options false, path⟩)
    (fails : sharedIn files environment directory path options = .error error) :
    run files environment directory arguments = .failed error ∧
      ∀ index < options.selections.length,
        run files environment directory (onlySelection index arguments) = .failed error := by
  have whole := run_eq files environment directory read
  rw [fails] at whole
  refine ⟨whole, fun index inside => ?_⟩
  have alone := run_onlySelection files environment directory read inside
  rw [fails] at alone
  exact alone

theorem run_of_shared {shared : Shared}
    (read : Invocation.ofArguments arguments = .ok ⟨.render options false, path⟩)
    (shares : sharedIn files environment directory path options = .ok shared) :
    run files environment directory arguments =
        .printed (shared.text (options.selections.map fun text =>
          shared.item options (metricNamed text)) ++ "\n") ∧
      ∀ {index : Nat} (inside : index < options.selections.length),
        run files environment directory (onlySelection index arguments) =
          .printed (shared.text [shared.item options (metricNamed options.selections[index])] ++
            "\n") := by
  have whole := run_eq files environment directory read
  rw [shares] at whole
  refine ⟨whole, fun inside => ?_⟩
  have alone := run_onlySelection files environment directory read inside
  rw [shares] at alone
  exact alone

theorem prints_or_fails
    (read : Invocation.ofArguments arguments = .ok ⟨.render options false, path⟩) :
    (∃ text, run files environment directory arguments = .printed text) ∨
      ∃ error, run files environment directory arguments = .failed error := by
  cases shares : sharedIn files environment directory path options with
  | error error => exact .inr ⟨error, (run_of_error files environment directory read shares).1⟩
  | ok shared => exact .inl ⟨_, (run_of_shared files environment directory read shares).1⟩

theorem prints_iff
    (read : Invocation.ofArguments arguments = .ok ⟨.render options false, path⟩) :
    (∃ text, run files environment directory arguments = .printed text) ↔
      ∀ index < options.selections.length, ∃ text,
        run files environment directory (onlySelection index arguments) = .printed text := by
  cases shares : sharedIn files environment directory path options with
  | error error =>
    obtain ⟨fails, failsAlone⟩ := run_of_error files environment directory read shares
    have present : 0 < options.selections.length :=
      List.length_pos_iff.2 (selections_ne_nil read)
    constructor
    · rintro ⟨text, printed⟩
      cases fails.symm.trans printed
    · intro printed
      obtain ⟨text, first⟩ := printed 0 present
      cases (failsAlone 0 present).symm.trans first
  | ok shared =>
    obtain ⟨prints, printsAlone⟩ := run_of_shared files environment directory read shares
    exact ⟨fun _ index inside => ⟨_, printsAlone inside⟩, fun _ => ⟨_, prints⟩⟩

/-- What a run prints are the items that its selections print alone. -/
theorem items_of_printed {text : String}
    (read : Invocation.ofArguments arguments = .ok ⟨.render options false, path⟩)
    (printed : run files environment directory arguments = .printed text) :
    ∃ shared : Shared, shared.Describes options ∧
      ∃ metrics, List.Forall₂ Names options.selections metrics ∧
        text = "SELECT " ++ ", ".intercalate (metrics.map (shared.item options)) ++
          shared.rangeClause ++ "\n" ∧
        ∀ index metric, metrics[index]? = some metric →
          run files environment directory (onlySelection index arguments) =
            .printed ("SELECT " ++ shared.item options metric ++ shared.rangeClause ++ "\n") := by
  cases shares : sharedIn files environment directory path options with
  | error error =>
    obtain ⟨fails, _⟩ := run_of_error files environment directory read shares
    cases fails.symm.trans printed
  | ok shared =>
    obtain ⟨prints, printsAlone⟩ := run_of_shared files environment directory read shares
    cases prints.symm.trans printed
    obtain ⟨_, _, described⟩ := bind_eq_ok shares
    refine ⟨shared, options.describes_of_shared described,
      options.selections.map metricNamed, ?_, ?_, ?_⟩
    · rw [List.forall₂_map_right_iff]
      exact List.forall₂_same.2 fun text _ => names_metricNamed text
    · rw [List.map_map]
      rfl
    · intro index metric found
      rw [List.getElem?_map] at found
      obtain ⟨text, selected, rfl⟩ := Option.map_eq_some_iff.1 found
      obtain ⟨inside, rfl⟩ := List.getElem?_eq_some_iff.1 selected
      exact (printsAlone inside).trans (by rw [Shared.text, String.intercalate_singleton])

theorem fails_iff (read : Invocation.ofArguments arguments = .ok ⟨.render options false, path⟩)
    (error : RunError) :
    run files environment directory arguments = .failed error ↔
      ∃ index < options.selections.length,
        run files environment directory (onlySelection index arguments) = .failed error ∧
        ∀ earlier < index, ∃ text,
          run files environment directory (onlySelection earlier arguments) = .printed text := by
  cases shares : sharedIn files environment directory path options with
  | error shown =>
    obtain ⟨fails, failsAlone⟩ := run_of_error files environment directory read shares
    have present : 0 < options.selections.length :=
      List.length_pos_iff.2 (selections_ne_nil read)
    constructor
    · intro failed
      cases fails.symm.trans failed
      exact ⟨0, present, failsAlone 0 present, fun _ before => absurd before (Nat.not_lt_zero _)⟩
    · rintro ⟨index, inside, failed, _⟩
      cases (failsAlone index inside).symm.trans failed
      exact fails
  | ok shared =>
    obtain ⟨prints, printsAlone⟩ := run_of_shared files environment directory read shares
    constructor
    · intro failed
      cases prints.symm.trans failed
    · rintro ⟨index, inside, failed, _⟩
      cases (printsAlone inside).symm.trans failed

/-- A command that prints a query text is composed of its selections. It prints exactly if
it does with every selection alone, and then the items that these runs print, with the
limits in time that they all print: around each metric all functions in their order, behind
it the alias. Otherwise it fails as the first of these runs that fails. -/
theorem run_composes
    (read : Invocation.ofArguments arguments = .ok ⟨.render options false, path⟩) :
    let whole := run files environment directory arguments
    let single := fun index => run files environment directory (onlySelection index arguments)
    (∀ index text, options.selections[index]? = some text →
      Invocation.ofArguments (onlySelection index arguments) =
        .ok ⟨.render { options with selections := [text] } false, path⟩) ∧
    ((∃ text, whole = .printed text) ↔
      ∀ index < options.selections.length, ∃ text, single index = .printed text) ∧
    (∀ text, whole = .printed text → ∃ shared : Shared, shared.Describes options ∧
      ∃ metrics, List.Forall₂ Names options.selections metrics ∧
        text = "SELECT " ++ ", ".intercalate (metrics.map (shared.item options)) ++
          shared.rangeClause ++ "\n" ∧
        ∀ index metric, metrics[index]? = some metric →
          single index =
            .printed ("SELECT " ++ shared.item options metric ++ shared.rangeClause ++ "\n")) ∧
    (∀ error, whole = .failed error ↔ ∃ index < options.selections.length,
      single index = .failed error ∧ ∀ earlier < index, ∃ text, single earlier = .printed text) ∧
    ((∃ text, whole = .printed text) ∨ ∃ error, whole = .failed error) := by
  intro whole single
  refine ⟨?_, prints_iff files environment directory read,
    fun text => items_of_printed files environment directory read,
    fails_iff files environment directory read, prints_or_fails files environment directory read⟩
  intro index text selected
  obtain ⟨inside, rfl⟩ := List.getElem?_eq_some_iff.1 selected
  exact ofArguments_onlySelection read inside

/-- Two selections with two functions, a variable, a tag and a limit in time. -/
theorem run_composes_two :
    let arguments := ["render", "--from=org", "-s", "base.cpu", "-a", "avg:$step", "-sAll",
      "--annotate", "dl:host", "--apply", "sum", "-l10m", "--var", "step=30s"]
    let run := run (fun _ => .error .missing) (fun _ => none) none
    Invocation.ofArguments arguments = .ok ⟨.render ⟨"org", ["base.cpu", "All"],
      ["avg:$step", "sum"], ["dl:host"], none, some "10m", none, none, ["step=30s"]⟩ false, none⟩ ∧
    onlySelection 1 arguments = ["render", "--from=org", "-a", "avg:$step", "-sAll",
      "--annotate", "dl:host", "--apply", "sum", "-l10m", "--var", "step=30s"] ∧
    run arguments = .printed ("SELECT sum(avg('base'.'cpu' FROM 'org', 30s)) AS $dl:'host', " ++
      "sum(avg(ALL FROM 'org', 30s)) AS $dl:'host' LAST 600s" ++ "\n") ∧
    ∀ index < 2, ∃ text, run (onlySelection index arguments) = .printed text := by
  intro arguments run
  have read : Invocation.ofArguments arguments = .ok ⟨.render ⟨"org", ["base.cpu", "All"],
      ["avg:$step", "sum"], ["dl:host"], none, some "10m", none, none, ["step=30s"]⟩ false, none⟩ := by
    decide +kernel
  have reduced : onlySelection 1 arguments = ["render", "--from=org", "-a", "avg:$step", "-sAll",
      "--annotate", "dl:host", "--apply", "sum", "-l10m", "--var", "step=30s"] := by
    decide +kernel
  have printed : run arguments = .printed
      ("SELECT sum(avg('base'.'cpu' FROM 'org', 30s)) AS $dl:'host', " ++
        "sum(avg(ALL FROM 'org', 30s)) AS $dl:'host' LAST 600s" ++ "\n") := by
    have rendered : QueryOptions.rendered ⟨"org", ["base.cpu", "All"], ["avg:$step", "sum"],
        ["dl:host"], none, some "10m", none, none, ["step=30s"]⟩ =
        .ok ("SELECT sum(avg('base'.'cpu' FROM 'org', 30s)) AS $dl:'host', " ++
          "sum(avg(ALL FROM 'org', 30s)) AS $dl:'host' LAST 600s") := by
      decide +kernel
    refine (run_of_read _ _ _ read).trans ?_
    rw [rendered]
    rfl
  exact ⟨read, reduced, printed, (run_composes _ _ _ read).2.1.1 ⟨_, printed⟩⟩

end Runs

end Command

end MetricQuery
