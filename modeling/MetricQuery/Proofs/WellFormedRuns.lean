import MetricQuery.Proofs.Handles
import MetricQuery.Proofs.QueryDocuments

/-!
# Runs keep queries well-formed

Steps with well-formed conditions, arguments, static fields and limits lead from
a well-formed query to well-formed queries. Tags need no condition, since every
way to give one leads to a well-formed tag.
-/

set_option autoImplicit false

namespace MetricQuery

/-! ## Well-formed steps -/

def MetricForm.WellFormed : MetricForm → Prop
  | .word _ | .segments _ => True
  | .metric given => given.WellFormed

def PartStep.WellFormed : PartStep → Prop
  | .filter condition | .combineFilter condition _ => condition.WellFormed
  | .apply _ arguments => ∀ argument ∈ arguments, argument.WellFormed
  | .annotateWithStatic _ value => value.IsPlain
  | .annotateWithStatics fields => ∀ entry ∈ fields.entries, entry.2.IsPlain
  | .shiftBy _ | .nameBy _ | .labelBy _ | .leadWith _ | .annotateWith _ | .exclude
  | .reinstate => True

def Step.WellFormed : Step → Prop
  | .select metric => metric.WellFormed
  | .beginningAt instant | .endingAt instant => instant.OnClock
  | .last duration => duration.WellFormed
  | .updatePart _ change => ∀ old new, old.WellFormed → change old = .ok new → new.WellFormed
  | .part step => step.WellFormed
  | .fromCollection _ | .selectAll | .bind _ _ | .selectAt _ | .lastSelection | .intoQuery => True

/-! ## Parts -/

theorem Part.wellFormed_iff {part : Part} :
    part.WellFormed ↔ part.selector.WellFormed ∧ callWellFormed part.call ∧
      ∀ held, part.annotations = some held → held.WellFormed := by
  cases part
  rw [Part.WellFormed]

theorem TagForm.wellFormed_of_tag {form : TagForm} {tag : Tag} (success : form.tag = .ok tag) :
    tag.WellFormed := by
  cases form with
  | parts scope name =>
    obtain rfl := Except.ok.inj success
    exact Tag.wellFormed_ofPair scope name
  | text given =>
    change Tag.parse given = .ok tag at success
    unfold Tag.parse at success
    simp only at success
    split at success
    · cases success
    · obtain rfl := Except.ok.inj success
      exact Tag.wellFormed_ofPair _ _

theorem MetricForm.wellFormed_of_resolve {form : MetricForm} {metric : Metric}
    (wellFormed : form.WellFormed) (success : form.resolve = .ok metric) : metric.WellFormed := by
  cases form with
  | word given =>
    by_cases all : Metric.sameWord given Metric.allWord = true
    · simp only [resolve, Metric.ofWord, all, if_true] at success
      obtain rfl := Except.ok.inj success
      trivial
    · simp only [resolve, Metric.ofWord, if_neg all] at success
      cases success
  | segments given =>
    cases given with
    | nil => cases success
    | cons segment rest =>
      obtain rfl := Except.ok.inj success
      exact List.cons_ne_nil segment rest
  | metric given =>
    obtain rfl := Except.ok.inj success
    exact wellFormed

theorem Selector.wellFormed_of_make {collection : String} {metric : MetricForm}
    {selector : Selector} (wellFormed : metric.WellFormed)
    (success : Selector.make collection metric = .ok selector) : selector.WellFormed := by
  rw [Selector.make] at success
  cases resolved : metric.resolve with
  | error error =>
    rw [resolved] at success
    cases success
  | ok found =>
    rw [resolved] at success
    obtain rfl := Except.ok.inj success
    exact ⟨MetricForm.wellFormed_of_resolve wellFormed resolved, by simp⟩

namespace Selector

theorem WellFormed.filter {selector : Selector} (wellFormed : selector.WellFormed)
    {condition : Condition} (given : condition.WellFormed) :
    (selector.filter condition).WellFormed where
  metric := wellFormed.metric
  condition := by
    intro held same
    rwa [← Option.some.inj same]

theorem WellFormed.combineFilter {selector : Selector} (wellFormed : selector.WellFormed)
    {condition : Condition} (given : condition.WellFormed) (combinator : Combinator) :
    (selector.combineFilter condition combinator).WellFormed := by
  cases present : selector.condition with
  | none =>
    simp only [Selector.combineFilter, present]
    exact wellFormed.filter given
  | some held =>
    simp only [Selector.combineFilter, present]
    apply wellFormed.filter
    have own := wellFormed.condition held present
    cases combinator <;> exact ⟨own, given⟩

end Selector

namespace Annotations

theorem wellFormed_empty : empty.WellFormed where
  tags _ member := absurd member List.not_mem_nil
  statics _ member := absurd member List.not_mem_nil

variable {annotations changed : Annotations}

theorem wellFormed_of_annotateWith (wellFormed : annotations.WellFormed) {forms : List TagForm}
    (success : annotations.annotateWith forms = .ok changed) : changed.WellFormed := by
  rw [annotateWith] at success
  cases resolved : forms.mapM TagForm.tag with
  | error error =>
    rw [resolved] at success
    cases success
  | ok tags =>
    rw [resolved] at success
    obtain rfl := Except.ok.inj success
    refine ⟨?_, wellFormed.statics⟩
    intro tag member
    rcases List.mem_append.1 member with old | new
    · exact wellFormed.tags tag old
    · obtain ⟨form, _, given⟩ := forall₂_left ((mapM_eq_ok_iff _ _ _).1 resolved).flip tag new
      exact TagForm.wellFormed_of_tag given

theorem wellFormed_of_annotateWithStatics (wellFormed : annotations.WellFormed)
    {fields : Bindings Json} (plain : ∀ entry ∈ fields.entries, entry.2.IsPlain)
    (success : annotations.annotateWithStatics fields = .ok changed) : changed.WellFormed := by
  by_cases reserved : fields.contains reservedKey = true
  · rw [annotateWithStatics, if_pos reserved] at success
    cases success
  · rw [annotateWithStatics, if_neg reserved] at success
    obtain rfl := Except.ok.inj success
    refine ⟨wellFormed.tags, ?_⟩
    intro entry member
    rcases Bindings.mem_of_mem_insertAll member with old | new
    · exact wellFormed.statics entry old
    · exact plain entry new

end Annotations

namespace Part

variable {part changed : Part}

theorem WellFormed.annotated (wellFormed : part.WellFormed) : part.annotated.WellFormed := by
  rw [Part.annotated]
  cases present : part.annotations with
  | none => exact Annotations.wellFormed_empty
  | some held => exact (wellFormed_iff.1 wellFormed).2.2 held present

theorem WellFormed.setAnnotations (wellFormed : part.WellFormed) {annotations : Annotations}
    (given : annotations.WellFormed) :
    Part.WellFormed { part with annotations := some annotations } := by
  obtain ⟨selector, call, _⟩ := wellFormed_iff.1 wellFormed
  refine ⟨selector, call, ?_⟩
  intro held same
  rwa [← Option.some.inj same]

theorem wellFormed_of_tryAnnotations (wellFormed : part.WellFormed)
    {change : Annotations → Except QueryError Annotations}
    (keeps : ∀ new, change part.annotated = .ok new → new.WellFormed)
    (success : part.tryAnnotations change = .ok changed) : changed.WellFormed := by
  rw [tryAnnotations] at success
  cases made : change part.annotated with
  | error error =>
    rw [made] at success
    cases success
  | ok new =>
    rw [made] at success
    obtain rfl := Except.ok.inj success
    exact wellFormed.setAnnotations (keeps new made)

theorem WellFormed.apply (wellFormed : part.WellFormed) (function : String)
    {arguments : List Argument} (given : ∀ argument ∈ arguments, argument.WellFormed) :
    (part.apply function arguments).WellFormed := by
  obtain ⟨selector, call, annotations⟩ := wellFormed_iff.1 wellFormed
  refine ⟨selector, ?_, annotations⟩
  refine ⟨?_, argumentsWellFormed_iff.2 given⟩
  cases present : part.call with
  | none => trivial
  | some held =>
    rw [present] at call
    exact call

end Part

theorem PartStep.wellFormed_onPart {step : PartStep} {part changed : Part}
    (wellFormed : part.WellFormed) (given : step.WellFormed)
    (success : step.onPart part = .ok changed) : changed.WellFormed := by
  obtain ⟨selector, call, annotations⟩ := Part.wellFormed_iff.1 wellFormed
  cases step with
  | filter condition =>
    obtain rfl := Except.ok.inj success
    exact ⟨selector.filter given, call, annotations⟩
  | combineFilter condition combinator =>
    obtain rfl := Except.ok.inj success
    exact ⟨selector.combineFilter given combinator, call, annotations⟩
  | shiftBy offset =>
    obtain rfl := Except.ok.inj success
    exact ⟨⟨selector.metric, selector.condition⟩, call, annotations⟩
  | apply function arguments =>
    obtain rfl := Except.ok.inj success
    exact wellFormed.apply function given
  | nameBy | exclude | reinstate =>
    obtain rfl := Except.ok.inj success
    exact ⟨selector, call, annotations⟩
  | labelBy | leadWith =>
    obtain rfl := Except.ok.inj success
    exact wellFormed.setAnnotations ⟨wellFormed.annotated.tags, wellFormed.annotated.statics⟩
  | annotateWith tags =>
    change part.tryAnnotations (·.annotateWith tags) = .ok changed at success
    exact Part.wellFormed_of_tryAnnotations wellFormed
      (fun _ => Annotations.wellFormed_of_annotateWith wellFormed.annotated) success
  | annotateWithStatics fields =>
    change part.tryAnnotations (·.annotateWithStatics fields) = .ok changed at success
    exact Part.wellFormed_of_tryAnnotations wellFormed
      (fun _ => Annotations.wellFormed_of_annotateWithStatics wellFormed.annotated given) success
  | annotateWithStatic key value =>
    change part.tryAnnotations (·.annotateWithStatic key value) = .ok changed at success
    refine Part.wellFormed_of_tryAnnotations wellFormed (fun _ => ?_) success
    apply Annotations.wellFormed_of_annotateWithStatics wellFormed.annotated
    intro entry member
    obtain rfl := List.mem_singleton.1 member
    exact given

/-! ## Queries -/

namespace Query

variable {query changed : Query}

theorem wellFormed_of_updatePart (wellFormed : query.WellFormed) {index : Nat}
    {change : Part → Except QueryError Part}
    (keeps : ∀ old new, old.WellFormed → change old = .ok new → new.WellFormed)
    (success : query.updatePart index change = .ok changed) : changed.WellFormed := by
  obtain ⟨old, new, present, made, rfl⟩ := updatePart_eq_ok_iff.1 success
  refine ⟨?_, wellFormed.beginning, wellFormed.ending, wellFormed.duration⟩
  intro part member
  rcases List.mem_or_eq_of_mem_set member with kept | rfl
  · exact wellFormed.parts part kept
  · exact keeps old _ (wellFormed.parts old (List.mem_of_getElem? present)) made

theorem wellFormed_of_select (wellFormed : query.WellFormed) {metric : MetricForm}
    (given : metric.WellFormed) {selection : Selection}
    (success : query.select metric = .ok selection) : selection.query.WellFormed := by
  obtain ⟨_, selector, _, made, rfl⟩ := select_eq_ok success
  refine ⟨?_, wellFormed.beginning, wellFormed.ending, wellFormed.duration⟩
  intro part member
  rcases List.mem_append.1 member with old | new
  · exact wellFormed.parts part old
  · obtain rfl := List.mem_singleton.1 new
    exact ⟨Selector.wellFormed_of_make given made, trivial, by simp⟩

end Query

namespace Builder

theorem step_wellFormed {builder next : Builder} {step : Step} (valid : builder.Valid)
    (wellFormed : builder.query.WellFormed) (given : step.WellFormed)
    (success : builder.step step = .ok next) : next.query.WellFormed := by
  cases step with
  | fromCollection | intoQuery =>
    obtain rfl := Except.ok.inj success
    exact ⟨wellFormed.parts, wellFormed.beginning, wellFormed.ending, wellFormed.duration⟩
  | bind name value =>
    obtain rfl := Except.ok.inj success
    rw [query_mapQuery]
    exact ⟨wellFormed.parts, wellFormed.beginning, wellFormed.ending, wellFormed.duration⟩
  | beginningAt instant =>
    obtain rfl := Except.ok.inj success
    rw [query_mapQuery]
    refine ⟨wellFormed.parts, ?_, wellFormed.ending, wellFormed.duration⟩
    rintro _ ⟨⟩
    exact Instant.ofDocument?_documentText given
  | endingAt instant =>
    obtain rfl := Except.ok.inj success
    rw [query_mapQuery]
    refine ⟨wellFormed.parts, wellFormed.beginning, ?_, wellFormed.duration⟩
    rintro _ ⟨⟩
    exact Instant.ofDocument?_documentText given
  | last duration =>
    obtain rfl := Except.ok.inj success
    rw [query_mapQuery]
    refine ⟨wellFormed.parts, by simp [Query.last], by simp [Query.last], ?_⟩
    rintro _ ⟨⟩
    exact given
  | select metric =>
    obtain ⟨selection, selected, rfl⟩ := map_eq_ok success
    exact Query.wellFormed_of_select wellFormed given selected
  | selectAll =>
    obtain ⟨selection, selected, rfl⟩ := map_eq_ok success
    have all : (MetricForm.metric .all).WellFormed := trivial
    exact Query.wellFormed_of_select wellFormed all selected
  | selectAt index =>
    obtain ⟨selection, selected, rfl⟩ := map_eq_ok success
    obtain ⟨rfl, _⟩ := Query.selectAt_eq_ok selected
    exact wellFormed
  | lastSelection =>
    obtain ⟨selection, selected, rfl⟩ := map_eq_ok success
    obtain ⟨rfl, _⟩ := Query.lastSelection_eq_ok selected
    exact wellFormed
  | updatePart index change =>
    obtain ⟨changed, updated, rfl⟩ := map_eq_ok success
    exact Query.wellFormed_of_updatePart wellFormed given updated
  | part step =>
    obtain ⟨selection, taken, rfl⟩ := map_eq_ok success
    obtain ⟨held, heldBy, done⟩ := bind_eq_ok taken
    obtain ⟨same, inside⟩ := selection_eq_ok valid heldBy
    rw [step.onSelection_eq (same ▸ inside), same] at done
    obtain ⟨changed, updated, rfl⟩ := map_eq_ok done
    exact Query.wellFormed_of_updatePart wellFormed
      (fun _ _ old made => PartStep.wellFormed_onPart old given made) updated

/-- Well-formed steps lead from a well-formed query to well-formed queries. -/
theorem run_wellFormed {steps : List Step} (given : ∀ step ∈ steps, step.WellFormed)
    {builder : Builder} (valid : builder.Valid) (wellFormed : builder.query.WellFormed) :
    (run steps builder).query.WellFormed := by
  have kept : (run steps builder).Valid ∧ (run steps builder).query.WellFormed := by
    apply run_induction fun reached => reached.Valid ∧ reached.query.WellFormed
    · intro step member before next holds success
      exact ⟨(step_handles holds.1 success).1,
        step_wellFormed holds.1 holds.2 (given step member) success⟩
    · exact ⟨valid, wellFormed⟩
  exact kept.2

end Builder

end MetricQuery
