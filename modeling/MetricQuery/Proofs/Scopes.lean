import MetricQuery.Proofs.BuilderRuns
import MetricQuery.Proofs.Unfolding

/-!
# Scopes of names

A name means an override, or else what it was last bound to, or else the last part
that carries it, and it means the same wherever a reference to it stands. So it makes
no difference whether a value is given as an override or bound beforehand, and what
a name means makes none where no reference leads to it.
-/

set_option autoImplicit false

namespace MetricQuery

/-! ## What a name means -/

namespace Query

/-- The last part of a name, whether or not it is excluded. -/
def lastNamed? (query : Query) (name : String) : Option Part :=
  query.parts.reverse.find? fun part => part.name == some name

/-- What a name means when a query is written: the override, or else the variable, or
else the last part of that name. -/
def meaning? (query : Query) (overrides : Variables) (name : String) : Option Value :=
  (overrides.get? name).or
    ((query.bindings.get? name).or ((query.lastNamed? name).map .part))

/-- Binds names to values one after the other. -/
def bindAll (query : Query) (entries : List (String × Value)) : Query :=
  entries.foldl (fun held entry => held.bind entry.1 entry.2) query

end Query

/-- Resolves references by asking anew for each of them what its name means. -/
def resolveBy (meaning : String → Option Value) : Nat → Resolver
  | 0, _, name =>
    match meaning name with
    | none => .error (.undeclaredVariable name)
    | some _ => .error (.renderDepthExceeded name)
  | left + 1, subject, name =>
    match meaning name with
    | none => .error (.undeclaredVariable name)
    | some value => value.render (resolveBy meaning left) subject

theorem resolveWithin_eq_resolveBy {environment : Variables} {meaning : String → Option Value}
    (same : ∀ name, environment.get? name = meaning name) :
    ∀ expansions, resolveWithin environment expansions = resolveBy meaning expansions := by
  intro expansions
  induction expansions with
  | zero =>
    funext subject name
    rw [resolveWithin, same name]
    cases found : meaning name <;> rw [resolveBy, found]
  | succ expansions ih =>
    funext subject name
    rw [resolveWithin, same name, ih]
    cases found : meaning name <;> rw [resolveBy, found]

theorem lookup_namedOf (name : String) (parts : List Part) :
    (namedOf parts).lookup name =
      (parts.find? fun part => part.name == some name).map .part := by
  induction parts with
  | nil => rfl
  | cons part rest ih =>
    rw [namedOf_cons, List.find?_cons]
    cases named : part.name with
    | none => exact ih
    | some held =>
      change ((held, Value.part part) :: namedOf rest).lookup name = _
      rw [lookup_entry, ih]
      by_cases same : name = held
      · simp [same]
      · simp [same, beq_false_of_ne (Ne.symm same)]

namespace Query

theorem get?_environment_eq_meaning? (query : Query) (overrides : Variables) (name : String) :
    (query.environment overrides).get? name = query.meaning? overrides name := by
  have named : query.namedParts.reverse.lookup name = (query.lastNamed? name).map .part := by
    have reversed : query.namedParts.reverse = namedOf query.parts.reverse :=
      List.filterMap_reverse.symm
    rw [reversed, lookup_namedOf, lastNamed?]
  rw [get?_environment, named, meaning?]

/-! ## Overrides are bindings -/

theorem bindAll_eq (entries : List (String × Value)) :
    ∀ query : Query, query.bindAll entries =
      { query with bindings := query.bindings.insertAll entries } := by
  induction entries with
  | nil => intro query; rfl
  | cons entry rest ih => intro query; exact ih (query.bind entry.1 entry.2)

/-- Overrides may be bound beforehand, in any order. -/
theorem environment_bindAll (query : Query) {overrides : Variables}
    {entries : List (String × Value)} (arranged : entries.Perm overrides.entries) :
    (query.bindAll entries).environment ∅ = query.environment overrides := by
  have names : (overrides.entries.map Prod.fst).Nodup := overrides.ordered.names_nodup
  have distinct : (entries.map Prod.fst).Nodup := (arranged.map Prod.fst).nodup_iff.2 names
  apply Bindings.ext_get?
  intro name
  rw [get?_environment, get?_environment, bindAll_eq, Bindings.get?_insertAll distinct,
    lookup_eq_of_perm names arranged, Option.or_assoc]
  rfl

theorem render_bindAll (query : Query) {overrides : Variables}
    {entries : List (String × Value)} (arranged : entries.Perm overrides.entries) :
    (query.bindAll entries).render = query.renderWith overrides := by
  rw [render, renderWith_eq, renderWith_eq, environment_bindAll query arranged, bindAll_eq]
  rfl

theorem bind_comm (query : Query) {one other : String} (different : one ≠ other)
    (value otherValue : Value) :
    (query.bind one value).bind other otherValue =
      (query.bind other otherValue).bind one value := by
  have same : (query.bindings.insert one value).insert other otherValue =
      (query.bindings.insert other otherValue).insert one value := by
    apply Bindings.ext_get?
    intro name
    simp only [Bindings.get?_insert]
    by_cases first : name = one
    · simp [first, different]
    · simp [first]
  simp only [bind, same]

end Query

/-! ## Only names that are met matter -/

/-- Resolvers that answer alike for some names, whatever the subject. -/
def Resolver.AgreeOn (resolve other : Resolver) (names : List String) : Prop :=
  ∀ name ∈ names, ∀ subject, resolve subject name = other subject name

theorem Resolver.AgreeOn.of_subset {resolve other : Resolver} {names fewer : List String}
    (agree : resolve.AgreeOn other names) (among : fewer ⊆ names) :
    resolve.AgreeOn other fewer :=
  fun name member => agree name (among member)

section Agreement

variable {resolve other : Resolver}

mutual

/-- What is written for a value depends on the references in it only. -/
theorem Value.render_agree (value : Value) (agree : resolve.AgreeOn other value.references)
    (subject : Option Selector) : value.render resolve subject = value.render other subject := by
  cases value with
  | text text => rfl
  | number x => rfl
  | selector selector => rfl
  | call call => exact call.render_agree agree subject
  | part part => exact part.renderExpression_agree agree

theorem Argument.render_agree (argument : Argument)
    (agree : resolve.AgreeOn other argument.references) (subject : Option Selector)
    (function : String) :
    argument.render resolve subject function = argument.render other subject function := by
  cases argument with
  | subject => rfl
  | reference name => exact agree name (List.mem_singleton_self name) subject
  | value value => exact value.render_agree agree subject

theorem renderArguments_agree (arguments : List Argument)
    (agree : resolve.AgreeOn other (argumentReferences arguments)) (subject : Option Selector)
    (function : String) :
    renderArguments resolve subject function arguments =
      renderArguments other subject function arguments := by
  cases arguments with
  | nil => rfl
  | cons argument rest =>
    have first := agree.of_subset (List.subset_append_left argument.references _)
    have later := agree.of_subset (List.subset_append_right argument.references _)
    rw [renderArguments_cons, renderArguments_cons, argument.render_agree first subject function,
      renderArguments_agree rest later subject function]

theorem Call.render_agree (call : Call) (agree : resolve.AgreeOn other call.references)
    (subject : Option Selector) : call.render resolve subject = call.render other subject := by
  cases call with
  | mk function arguments =>
    rw [Call.render_eq_map, Call.render_eq_map,
      renderArguments_agree arguments agree subject function]

theorem Part.renderExpression_agree (part : Part)
    (agree : resolve.AgreeOn other part.references) :
    part.renderExpression resolve = part.renderExpression other := by
  cases part with
  | mk selector call annotations name excluded =>
    cases call with
    | none => rfl
    | some call =>
      rw [Part.renderExpression_eq_map, Part.renderExpression_eq_map,
        call.render_agree agree (some selector)]

end

theorem Part.render_agree (part : Part) (agree : resolve.AgreeOn other part.references) :
    part.render resolve = part.render other := by
  rw [Part.render, Part.render, part.renderExpression_agree agree]

end Agreement

/-- Environments that give the names that are met the same values resolve references
alike. The induction is on the expansions left; the names that are met in a value are
met one expansion deeper. -/
theorem resolveWithin_agree {left right : Variables} (expansions : Nat) :
    ∀ {names : List String},
      (∀ depth name, Meets left names depth name → left.get? name = right.get? name) →
      (resolveWithin left expansions).AgreeOn (resolveWithin right expansions) names := by
  induction expansions with
  | zero =>
    intro names same name member subject
    rw [resolveWithin, resolveWithin, same 0 name (.here member)]
  | succ expansions ih =>
    intro names same name member subject
    rw [resolveWithin, resolveWithin, ← same 0 name (.here member)]
    cases bound : left.get? name with
    | none => rfl
    | some value =>
      apply value.render_agree
      exact ih fun depth inner met => same (depth + 1) inner (.within member bound met)

namespace Query

variable {query changed : Query} {overrides : Variables}

/-- A query is written alike after a change that leaves its items and its range, and
the values of all names that its references lead to. -/
theorem renderWith_eq_of_meets
    (items : ∀ resolve, renderParts resolve (changed.parts.filter fun part => !part.excluded) =
      renderParts resolve (query.parts.filter fun part => !part.excluded))
    (range : changed.range? = query.range?)
    (same : ∀ depth name, Meets (query.environment overrides) query.references depth name →
      (query.environment overrides).get? name = (changed.environment overrides).get? name) :
    changed.renderWith overrides = query.renderWith overrides := by
  have agree := resolveWithin_agree maxExpansions same
  have parts : renderParts (resolver (query.environment overrides))
        (query.parts.filter fun part => !part.excluded) =
      renderParts (resolver (changed.environment overrides))
        (query.parts.filter fun part => !part.excluded) := by
    rw [renderParts_eq_mapM, renderParts_eq_mapM]
    apply mapM_congr
    intro part member
    apply part.render_agree (agree.of_subset fun name inside => ?_)
    exact List.mem_flatMap.2 ⟨part, member, inside⟩
  have written : changed.written = query.written := by
    funext texts
    rw [Query.written, Query.written, range]
  rw [renderWith_eq, renderWith_eq, items, ← parts, written]

theorem renderWith_bind {name : String}
    (unmet : ∀ depth, ¬Meets (query.environment overrides) query.references depth name)
    (value : Value) :
    (query.bind name value).renderWith overrides = query.renderWith overrides := by
  apply renderWith_eq_of_meets
  · intro resolve
    rfl
  · rfl
  · intro depth key met
    have apart : key ≠ name := by
      rintro rfl
      exact unmet depth met
    simp only [get?_environment, bind, Bindings.get?_insert, if_neg apart]
    rfl

/-- A name given to a part that had none shows in what that name means alone. -/
theorem lastNamed?_nameBy {index : Nat} {part : Part} (known : query.parts[index]? = some part)
    (unnamed : part.name = none) {name key : String} (apart : key ≠ name) :
    (Selection.nameBy ⟨query, index⟩ name).query.lastNamed? key = query.lastNamed? key := by
  obtain ⟨inside, found⟩ := List.getElem?_eq_some_iff.1 known
  obtain ⟨front, held, back, split, count, changed⟩ :=
    List.exists_of_modify (Part.nameBy · name) inside
  have same : held = part := by
    rw [← found]
    simp [split, ← count]
  change (query.parts.modify index (Part.nameBy · name)).reverse.find? _ =
    query.parts.reverse.find? _
  rw [changed, split, same]
  simp [List.find?_append, Part.nameBy, unnamed, Ne.symm apart]

theorem renderParts_related {resolve : Resolver} {parts others : List Part}
    (related : List.Forall₂ (fun part other => part.excluded = other.excluded ∧
      part.render resolve = other.render resolve) parts others) :
    renderParts resolve (others.filter fun part => !part.excluded) =
      renderParts resolve (parts.filter fun part => !part.excluded) := by
  induction related with
  | nil => rfl
  | @cons part other _ _ alike _ ih =>
    rw [List.filter_cons, List.filter_cons, ← alike.1]
    cases part.excluded with
    | true => exact ih
    | false =>
      change renderParts resolve (other :: _) = renderParts resolve (part :: _)
      rw [renderParts, renderParts, ← alike.2, ih]

theorem render_nameBy (part : Part) (name : String) (resolve : Resolver) :
    (part.nameBy name).render resolve = part.render resolve := by
  rw [Part.render_eq, Part.render_eq]
  rfl

theorem renderWith_nameBy {index : Nat} {part : Part} (known : query.parts[index]? = some part)
    (unnamed : part.name = none) {name : String}
    (unmet : ∀ depth, ¬Meets (query.environment overrides) query.references depth name) :
    (Selection.nameBy ⟨query, index⟩ name).query.renderWith overrides =
      query.renderWith overrides := by
  apply renderWith_eq_of_meets
  · intro resolve
    exact renderParts_related (forall₂_modify (fun part => ⟨rfl, rfl⟩)
      (fun part => ⟨rfl, (render_nameBy part name resolve).symm⟩) query.parts index)
  · rfl
  · intro depth key met
    have apart : key ≠ name := by
      rintro rfl
      exact unmet depth met
    rw [get?_environment_eq_meaning?, get?_environment_eq_meaning?, meaning?, meaning?,
      lastNamed?_nameBy known unnamed apart]
    rfl

end Query

/-! ## Bindings of a run -/

namespace Step

def binding? : Step → Option (String × Value)
  | .bind name value => some (name, value)
  | _ => none

/-- What steps bind a name to, the last one of them that binds it. -/
def lastBound? (steps : List Step) (name : String) : Option Value :=
  (steps.filterMap binding?).reverse.lookup name

end Step

theorem Selection.bindings_tryMap {held next : Selection} {change : Part → Except QueryError Part}
    (success : held.tryMap change = .ok next) : next.query.bindings = held.query.bindings := by
  rw [tryMap_eq] at success
  obtain ⟨changed, updated, rfl⟩ := map_eq_ok success
  obtain ⟨old, new, _, _, rfl⟩ := Query.updatePart_eq_ok_iff.1 updated
  rfl

theorem PartStep.bindings_onSelection {held next : Selection} {step : PartStep}
    (success : step.onSelection held = .ok next) : next.query.bindings = held.query.bindings := by
  cases step with
  | annotateWith | annotateWithStatic | annotateWithStatics =>
    exact Selection.bindings_tryMap success
  | filter | combineFilter | shiftBy | apply | nameBy | labelBy | leadWith | exclude
      | reinstate =>
    obtain rfl := Except.ok.inj success
    rfl

namespace Builder

theorem query_selection {builder : Builder} {held : Selection}
    (success : builder.selection = .ok held) : held.query = builder.query := by
  cases builder with
  | whole query =>
    obtain ⟨rfl, _⟩ := Query.lastSelection_eq_ok success
    rfl
  | handle selection =>
    obtain rfl := Except.ok.inj success
    rfl

/-- A step binds what it says and nothing else. -/
theorem step_bindings {builder next : Builder} {step : Step}
    (success : builder.step step = .ok next) :
    next.query.bindings = builder.query.bindings.insertAll step.binding?.toList := by
  cases step with
  | fromCollection | intoQuery =>
    obtain rfl := Except.ok.inj success
    rfl
  | beginningAt | endingAt | last | bind =>
    obtain rfl := Except.ok.inj success
    rw [query_mapQuery]
    rfl
  | select | selectAll =>
    obtain ⟨selection, selected, rfl⟩ := map_eq_ok success
    obtain ⟨_, _, _, _, rfl⟩ := Query.select_eq_ok selected
    rfl
  | selectAt =>
    obtain ⟨selection, selected, rfl⟩ := map_eq_ok success
    obtain ⟨rfl, _⟩ := Query.selectAt_eq_ok selected
    rfl
  | lastSelection =>
    obtain ⟨selection, selected, rfl⟩ := map_eq_ok success
    obtain ⟨rfl, _⟩ := Query.lastSelection_eq_ok selected
    rfl
  | updatePart =>
    obtain ⟨changed, updated, rfl⟩ := map_eq_ok success
    obtain ⟨old, new, _, _, rfl⟩ := Query.updatePart_eq_ok_iff.1 updated
    rfl
  | part step =>
    obtain ⟨selection, taken, rfl⟩ := map_eq_ok success
    obtain ⟨held, heldBy, done⟩ := bind_eq_ok taken
    exact (step.bindings_onSelection done).trans (congrArg Query.bindings (query_selection heldBy))

theorem after_bindings (builder : Builder) (step : Step) :
    (builder.after step).query.bindings =
      builder.query.bindings.insertAll step.binding?.toList := by
  cases taken : builder.step step with
  | ok next => simpa [after, taken] using step_bindings taken
  | error error =>
    cases step with
    | bind name value => cases taken
    | _ => simp [after, taken, Step.binding?, Bindings.insertAll]

/-- A run binds what its steps bind, in their order. -/
theorem run_bindings (steps : List Step) :
    ∀ builder : Builder, (run steps builder).query.bindings =
      builder.query.bindings.insertAll (steps.filterMap Step.binding?) := by
  induction steps with
  | nil => intro builder; rfl
  | cons step rest ih =>
    intro builder
    change (run rest (builder.after step)).query.bindings = _
    rw [ih, after_bindings, List.filterMap_cons]
    cases step.binding? <;> rfl

end Builder

/-- However a query has been built, a name means the override if there is one, or else
what the last step that binds it has bound it to, or else what the query began with, or
else the last part of that name, excluded or not. A reference is resolved so at every
depth, also within parts and calls that names stand for. Hence overrides may as well be
bound beforehand, in any order; bindings of different names commute; and where no
reference leads to a name, it makes no difference to the result to bind it or to give it
to a part that has none. -/
theorem Query.renderWith_scoped (start : Query) (steps : List Step) (overrides : Variables) :
    let query := (Builder.run steps (.whole start)).query
    let environment := query.environment overrides
    let meaning := query.meaning? overrides
    (∀ name, meaning name = (overrides.get? name).or
      (((Step.lastBound? steps name).or (start.bindings.get? name)).or
        ((query.lastNamed? name).map .part))) ∧
    (∀ expansions, resolveWithin environment expansions = resolveBy meaning expansions) ∧
    query.renderWith overrides =
      (renderParts (resolveBy meaning 32)
        (query.parts.filter fun part => !part.excluded)).map query.written ∧
    (∀ entries, entries.Perm overrides.entries →
      (query.bindAll entries).render = query.renderWith overrides) ∧
    (∀ one other value otherValue, one ≠ other →
      (query.bind one value).bind other otherValue =
        (query.bind other otherValue).bind one value) ∧
    ∀ name, (∀ depth, ¬Meets environment query.references depth name) →
      (∀ value, (query.bind name value).renderWith overrides = query.renderWith overrides) ∧
      ∀ index part, query.parts[index]? = some part → part.name = none →
        (Selection.nameBy ⟨query, index⟩ name).query.renderWith overrides =
          query.renderWith overrides := by
  intro query environment meaning
  have resolved := resolveWithin_eq_resolveBy (query.get?_environment_eq_meaning? overrides)
  refine ⟨?_, resolved, ?_, ?_, ?_, ?_⟩
  · intro name
    have bound : query.bindings.get? name =
        (Step.lastBound? steps name).or (start.bindings.get? name) := by
      rw [Builder.run_bindings, Bindings.get?_insertAll_reverse]
      rfl
    rw [← bound]
    rfl
  · rw [renderWith_eq]
    exact congrArg (fun resolve => (renderParts resolve _).map query.written) (resolved 32)
  · intro entries arranged
    exact query.render_bindAll arranged
  · intro one other value otherValue different
    exact query.bind_comm different value otherValue
  · intro name unmet
    refine ⟨renderWith_bind unmet, fun index part known unnamed => ?_⟩
    exact renderWith_nameBy known unnamed unmet

end MetricQuery
