import MetricQuery.Proofs.BuilderRuns

/-!
# Handles of parts

Over any run of builder steps a handle keeps pointing at a part, what is done
through it touches that part only, and what is done through handles of
different parts may be done in either order.
-/

set_option autoImplicit false

namespace MetricQuery

/-! ## The index of a handle and the number of parts -/

namespace Builder

theorem step_handles {builder next : Builder} {step : Step} (valid : builder.Valid)
    (success : builder.step step = .ok next) :
    next.Valid ∧ builder.query.parts.length ≤ next.query.parts.length := by
  cases step with
  | fromCollection | intoQuery =>
    obtain rfl := Except.ok.inj success
    exact ⟨trivial, Nat.le_refl _⟩
  | beginningAt | endingAt | last | bind =>
    obtain rfl := Except.ok.inj success
    cases builder with
    | whole => exact ⟨trivial, Nat.le_refl _⟩
    | handle => exact ⟨valid, Nat.le_refl _⟩
  | select | selectAll =>
    obtain ⟨selection, selected, rfl⟩ := map_eq_ok success
    obtain ⟨_, _, _, _, rfl⟩ := Query.select_eq_ok selected
    simp [Valid, query]
  | selectAt =>
    obtain ⟨selection, selected, rfl⟩ := map_eq_ok success
    obtain ⟨rfl, inside⟩ := Query.selectAt_eq_ok selected
    exact ⟨inside, Nat.le_refl _⟩
  | lastSelection =>
    obtain ⟨selection, selected, rfl⟩ := map_eq_ok success
    obtain ⟨rfl, inside⟩ := Query.lastSelection_eq_ok selected
    exact ⟨inside, Nat.le_refl _⟩
  | updatePart =>
    obtain ⟨changed, updated, rfl⟩ := map_eq_ok success
    obtain ⟨old, new, _, _, rfl⟩ := Query.updatePart_eq_ok_iff.1 updated
    simp [Valid, query]
  | part step =>
    obtain ⟨selection, taken, rfl⟩ := map_eq_ok success
    obtain ⟨held, heldBy, done⟩ := bind_eq_ok taken
    obtain ⟨same, inside⟩ := selection_eq_ok valid heldBy
    rw [step.onSelection_eq (same ▸ inside)] at done
    obtain ⟨changed, updated, rfl⟩ := map_eq_ok done
    obtain ⟨old, new, _, _, rfl⟩ := Query.updatePart_eq_ok_iff.1 updated
    rw [same]
    simpa [Valid, query] using inside

theorem run_handles {steps : List Step} {builder : Builder} (valid : builder.Valid) :
    (run steps builder).Valid ∧
      builder.query.parts.length ≤ (run steps builder).query.parts.length := by
  apply run_induction fun reached =>
    reached.Valid ∧ builder.query.parts.length ≤ reached.query.parts.length
  · intro step _ before next holds success
    obtain ⟨nextValid, grows⟩ := step_handles holds.1 success
    exact ⟨nextValid, Nat.le_trans holds.2 grows⟩
  · exact ⟨valid, Nat.le_refl _⟩

end Builder

/-! ## One slot is touched -/

namespace Query

structure SameApartFrom (index : Nat) (before after : Query) : Prop where
  count : after.parts.length = before.parts.length
  others : ∀ other, other ≠ index → after.parts[other]? = before.parts[other]?
  collection : after.collection = before.collection
  beginning : after.beginning = before.beginning
  ending : after.ending = before.ending
  duration : after.duration = before.duration
  bindings : after.bindings = before.bindings

variable {query changed : Query} {index : Nat} {change : Part → Except QueryError Part}

theorem sameApartFrom_of_updatePart (updated : query.updatePart index change = .ok changed) :
    query.SameApartFrom index changed := by
  obtain ⟨old, new, _, _, rfl⟩ := updatePart_eq_ok_iff.1 updated
  refine ⟨List.length_set .., ?_, rfl, rfl, rfl, rfl, rfl⟩
  intro other different
  exact List.getElem?_set_ne (Ne.symm different)

/-- Two changes of one part in turn are one change of it. -/
theorem updatePart_bind_same (next : Part → Except QueryError Part) :
    (query.updatePart index change).bind (·.updatePart index next) =
      query.updatePart index fun part => (change part).bind next := by
  simp only [updatePart]
  cases present : query.parts[index]? with
  | none => rfl
  | some part =>
    have inside : index < query.parts.length := (List.getElem?_eq_some_iff.1 present).1
    cases made : change part with
    | error error => simp [made, Except.bind]
    | ok new =>
      simp only [made, Except.bind, List.getElem?_set_self inside]
      cases next new <;> simp

theorem updatePart_ok (inside : index < query.parts.length) :
    query.updatePart index .ok = .ok query := by
  simp [updatePart, inside]

/-- Changes of different parts that all succeed do so in either order, with the
same outcome. -/
theorem updatePart_bind_of_ne {other : Nat} {otherChange : Part → Except QueryError Part}
    (different : index ≠ other) {final : Query}
    (success : (query.updatePart index change).bind (·.updatePart other otherChange) =
      .ok final) :
    (query.updatePart other otherChange).bind (·.updatePart index change) = .ok final := by
  obtain ⟨middle, first, second⟩ := bind_eq_ok success
  obtain ⟨old, new, present, made, rfl⟩ := updatePart_eq_ok_iff.1 first
  obtain ⟨otherOld, otherNew, otherPresent, otherMade, rfl⟩ := updatePart_eq_ok_iff.1 second
  rw [List.getElem?_set_ne different] at otherPresent
  have otherFirst := updatePart_eq_ok_iff.2 ⟨otherOld, otherNew, otherPresent, otherMade, rfl⟩
  rw [otherFirst]
  apply updatePart_eq_ok_iff.2
  refine ⟨old, new, ?_, made, ?_⟩
  · rw [List.getElem?_set_ne (Ne.symm different)]
    exact present
  · simp only [List.set_comm _ _ different]

end Query

/-! ## Operations through a handle -/

namespace PartStep

def all (steps : List PartStep) (part : Part) : Except QueryError Part :=
  steps.foldlM (fun part step => step.onPart part) part

end PartStep

namespace Builder

/-- The steps that take a handle of a part and work through it. -/
def onHandle (index : Nat) (steps : List PartStep) : List Step :=
  .selectAt index :: steps.map .part

theorem through_parts (steps : List PartStep) :
    ∀ selection : Selection, selection.index < selection.query.parts.length →
      through (steps.map .part) (.handle selection) =
        (selection.query.updatePart selection.index (PartStep.all steps)).map
          fun query => .handle ⟨query, selection.index⟩ := by
  induction steps with
  | nil =>
    intro selection inside
    change _ = (selection.query.updatePart selection.index .ok).map _
    rw [Query.updatePart_ok inside]
    rfl
  | cons step steps ih =>
    intro selection inside
    have first : (Builder.handle selection).step (.part step) =
        (selection.query.updatePart selection.index step.onPart).map
          fun query => .handle ⟨query, selection.index⟩ := by
      simp only [Builder.step, Builder.selection, Except.bind]
      rw [step.onSelection_eq inside]
      cases selection.query.updatePart selection.index step.onPart <;> rfl
    have later : PartStep.all (step :: steps) =
        fun part => (step.onPart part).bind (PartStep.all steps) := rfl
    rw [later, ← Query.updatePart_bind_same, List.map_cons, through, List.foldlM_cons, first]
    cases updated : selection.query.updatePart selection.index step.onPart with
    | error error => rfl
    | ok query =>
      have kept : selection.index < query.parts.length := by
        rw [(Query.sameApartFrom_of_updatePart updated).count]
        exact inside
      exact ih ⟨query, selection.index⟩ kept

/-- Working through a fresh handle of a part is an update of that part. -/
theorem through_onHandle (builder : Builder) (index : Nat) (steps : List PartStep) :
    through (onHandle index steps) builder =
      (builder.query.updatePart index (PartStep.all steps)).map
        fun query => .handle ⟨query, index⟩ := by
  rw [onHandle, through, List.foldlM_cons]
  simp only [step, Query.selectAt]
  by_cases inside : index < builder.query.parts.length
  · rw [if_pos inside]
    exact through_parts steps ⟨builder.query, index⟩ inside
  · rw [if_neg inside]
    have absent := List.getElem?_eq_none (Nat.le_of_not_lt inside)
    simp only [Query.updatePart, absent]
    rfl

theorem through_append (first second : List Step) (builder : Builder) :
    through (first ++ second) builder = (through first builder).bind (through second) := by
  simp only [through, List.foldlM_append]
  rfl

theorem query_through_onHandles (builder : Builder) (index other : Nat)
    (first second : List PartStep) :
    (through (onHandle index first ++ onHandle other second) builder).map Builder.query =
      (builder.query.updatePart index (PartStep.all first)).bind
        (·.updatePart other (PartStep.all second)) := by
  rw [through_append, through_onHandle]
  cases builder.query.updatePart index (PartStep.all first) with
  | error error => rfl
  | ok query =>
    change (through (onHandle other second) (.handle ⟨query, index⟩)).map Builder.query =
      query.updatePart other (PartStep.all second)
    rw [through_onHandle]
    simp only [Builder.query]
    cases query.updatePart other (PartStep.all second) <;> rfl

theorem onHandles_comm (builder : Builder) {index other : Nat} (different : index ≠ other)
    (first second : List PartStep) :
    ((through (onHandle index first ++ onHandle other second) builder).map
        Builder.query).toOption =
      ((through (onHandle other second ++ onHandle index first) builder).map
        Builder.query).toOption := by
  rw [query_through_onHandles, query_through_onHandles]
  apply Option.ext
  intro final
  rw [toOption_eq_some_iff, toOption_eq_some_iff]
  exact ⟨Query.updatePart_bind_of_ne different, Query.updatePart_bind_of_ne different.symm⟩

end Builder

/-- What a handle promises: there is a part behind it, and every operation
through it is an update of that part which keeps the index and all else. -/
structure Selection.Sound (selection : Selection) : Prop where
  inside : selection.index < selection.query.parts.length
  part : ∃ part, selection.part? = some part
  updates : ∀ step : PartStep, (step.onSelection selection).map Selection.query =
    selection.query.updatePart selection.index step.onPart
  frame : ∀ (step : PartStep) (after : Selection), step.onSelection selection = .ok after →
    after.index = selection.index ∧
      selection.query.SameApartFrom selection.index after.query

theorem Selection.sound {selection : Selection}
    (inside : selection.index < selection.query.parts.length) : selection.Sound := by
  refine ⟨inside, ⟨_, List.getElem?_eq_getElem inside⟩, ?_, ?_⟩
  · intro step
    rw [step.onSelection_eq inside]
    cases selection.query.updatePart selection.index step.onPart <;> rfl
  · intro step after success
    rw [step.onSelection_eq inside] at success
    obtain ⟨changed, updated, rfl⟩ := map_eq_ok success
    exact ⟨rfl, Query.sameApartFrom_of_updatePart updated⟩

/-- After any steps from any query, failing ones included: a handle is sound;
further steps lose no part; selecting a metric appends one part, which the new
handle points at; and operations through handles of different parts commute. -/
theorem Builder.run_sound (query : Query) (steps : List Step) :
    let reached := run steps (.whole query)
    (∀ selection, reached = .handle selection → selection.Sound) ∧
    (∀ later, reached.query.parts.length ≤ (run later reached).query.parts.length) ∧
    (∀ metric next, reached.step (.select metric) = .ok next →
      ∃ part, next = .handle ⟨{ reached.query with parts := reached.query.parts ++ [part] },
        reached.query.parts.length⟩) ∧
    ∀ (index other : Nat), index ≠ other → ∀ first second : List PartStep,
      ((through (onHandle index first ++ onHandle other second) reached).map
          Builder.query).toOption =
        ((through (onHandle other second ++ onHandle index first) reached).map
          Builder.query).toOption := by
  intro reached
  have start : (Builder.whole query).Valid := trivial
  have valid : reached.Valid := (run_handles start).1
  refine ⟨?_, fun later => (run_handles valid).2, ?_, ?_⟩
  · intro selection held
    rw [held] at valid
    exact Selection.sound valid
  · intro metric next success
    obtain ⟨selection, selected, rfl⟩ := map_eq_ok success
    obtain ⟨_, selector, _, _, rfl⟩ := Query.select_eq_ok selected
    exact ⟨Part.ofSelector selector, rfl⟩
  · intro index other different first second
    exact onHandles_comm reached different first second

/-- Two metrics are selected, a handle on a part that is not there fails, and
the handle of the second part stays sound. -/
theorem Builder.run_sound_after_failure :
    let steps : List Step := [.fromCollection "org", .select (.segments ["cpu"]), .selectAll,
      .selectAt 7, .part (.apply "avg" [.value (.text "30s")])]
    ∃ selection, run steps (.whole .empty) = .handle selection ∧ selection.index = 1 ∧
      selection.query.parts.length = 2 ∧ selection.Sound := by
  intro steps
  refine ⟨_, rfl, rfl, rfl, ?_⟩
  exact (Builder.run_sound .empty steps).1 _ rfl

end MetricQuery
