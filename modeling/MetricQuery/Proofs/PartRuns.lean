import MetricQuery.Proofs.Preparation
import MetricQuery.Proofs.QueryTexts

/-!
# Runs of part operations

A part keeps its calls apart from its selector, and both meet only when the part is
written. So functions may be applied before, between and behind all other operations:
what counts is the functions in their order and the other operations in theirs. The
text is the calls around the selector that the other operations alone would make, with
its shift behind the outermost call.
-/

set_option autoImplicit false

namespace MetricQuery

/-! ## Applied functions and other operations -/

namespace PartStep

def application? : PartStep → Option (String × List Argument)
  | .apply function arguments => some (function, arguments)
  | _ => none

def applications (steps : List PartStep) : List (String × List Argument) :=
  steps.filterMap application?

def others (steps : List PartStep) : List PartStep :=
  steps.filter fun step => step.application?.isNone

theorem eq_apply_of_application? {step : PartStep} {function : String} {arguments : List Argument}
    (applied : step.application? = some (function, arguments)) :
    step = .apply function arguments := by
  cases step with
  | apply =>
    cases applied
    rfl
  | _ => cases applied

theorem application?_of_mem_others {steps : List PartStep} :
    ∀ step ∈ others steps, step.application? = none := by
  intro step member
  exact Option.isNone_iff_eq_none.1 (List.mem_filter.1 member).2

variable (steps : List PartStep)

theorem applications_cons_apply (function : String) (arguments : List Argument) :
    applications (.apply function arguments :: steps) =
      (function, arguments) :: applications steps :=
  rfl

theorem others_cons_apply (function : String) (arguments : List Argument) :
    others (.apply function arguments :: steps) = others steps :=
  rfl

theorem applications_cons_of_none {step : PartStep} (other : step.application? = none) :
    applications (step :: steps) = applications steps :=
  List.filterMap_cons_none other

theorem others_cons_of_none {step : PartStep} (other : step.application? = none) :
    others (step :: steps) = step :: others steps :=
  List.filter_cons_of_pos (by simp [other])

end PartStep

namespace Part

open PartStep

def through (steps : List PartStep) (part : Part) : Except QueryError Part :=
  steps.foldlM (fun held step => step.onPart held) part

def after (part : Part) (step : PartStep) : Part :=
  match step.onPart part with
  | .ok next => next
  | .error _ => part

def run (steps : List PartStep) (part : Part) : Part :=
  steps.foldl after part

theorem through_cons (step : PartStep) (steps : List PartStep) (part : Part) :
    through (step :: steps) part = (step.onPart part).bind (through steps) := by
  rw [through, List.foldlM_cons]
  rfl

theorem after_of_ok {part next : Part} {step : PartStep} (taken : step.onPart part = .ok next) :
    part.after step = next := by
  simp [after, taken]

/-- Steps that all succeed lead to the same part when failures are passed over. -/
theorem run_of_through {steps : List PartStep} :
    ∀ {part reached : Part}, part.through steps = .ok reached → part.run steps = reached := by
  induction steps with
  | nil =>
    intro part reached success
    exact Except.ok.inj success
  | cons step rest ih =>
    intro part reached success
    rw [through_cons] at success
    obtain ⟨next, taken, later⟩ := bind_eq_ok success
    rw [run, List.foldl_cons, after_of_ok taken]
    exact ih later

/-! ## Functions pass by other operations -/

def withCall (part : Part) (call : Option Call) : Part :=
  { part with call := call }

theorem withCall_call (part : Part) : part.withCall part.call = part := by
  cases part
  rfl

theorem tryAnnotations_withCall (change : Annotations → Except QueryError Annotations)
    (part : Part) (call : Option Call) :
    (part.withCall call).tryAnnotations change =
      (part.tryAnnotations change).map (·.withCall call) := by
  have same : (part.withCall call).annotated = part.annotated := rfl
  rw [tryAnnotations, tryAnnotations, same]
  cases change part.annotated <;> rfl

/-- An operation that applies no function neither looks at the calls of a part nor
changes them. -/
theorem onPart_withCall {step : PartStep} (other : step.application? = none) (part : Part)
    (call : Option Call) :
    step.onPart (part.withCall call) = (step.onPart part).map (·.withCall call) := by
  cases step with
  | apply => cases other
  | annotateWith tags => exact tryAnnotations_withCall (·.annotateWith tags) part call
  | annotateWithStatic key value =>
    exact tryAnnotations_withCall (·.annotateWithStatic key value) part call
  | annotateWithStatics fields =>
    exact tryAnnotations_withCall (·.annotateWithStatics fields) part call
  | filter | combineFilter | shiftBy | nameBy | labelBy | leadWith | exclude | reinstate => rfl

theorem call_onPart {part next : Part} {step : PartStep} (other : step.application? = none)
    (taken : step.onPart part = .ok next) : next.call = part.call := by
  have kept := onPart_withCall other part part.call
  rw [withCall_call, taken] at kept
  have same : next = next.withCall part.call := Except.ok.inj kept
  rw [same]
  rfl

theorem call_after {step : PartStep} (other : step.application? = none) (part : Part) :
    (part.after step).call = part.call := by
  cases taken : step.onPart part with
  | error error => simp [after, taken]
  | ok next => rw [after_of_ok taken, call_onPart other taken]

theorem call_run {steps : List PartStep} (plain : ∀ step ∈ steps, step.application? = none) :
    ∀ part : Part, (part.run steps).call = part.call := by
  induction steps with
  | nil => intro part; rfl
  | cons step rest ih =>
    intro part
    obtain ⟨other, later⟩ := List.forall_mem_cons.1 plain
    exact (ih later (part.after step)).trans (call_after other part)

section Passing

variable (function : String) (arguments : List Argument)

theorem onPart_apply {step : PartStep} (other : step.application? = none) (part : Part) :
    step.onPart (part.apply function arguments) =
      (step.onPart part).map (·.apply function arguments) := by
  have around : step.onPart (part.apply function arguments) =
      (step.onPart part).map (·.withCall (part.apply function arguments).call) :=
    onPart_withCall other part _
  rw [around]
  cases taken : step.onPart part with
  | error error => rfl
  | ok next =>
    have same := call_onPart other taken
    simp [Except.map, apply, withCall, same]

theorem after_apply {step : PartStep} (other : step.application? = none) (part : Part) :
    (part.apply function arguments).after step = (part.after step).apply function arguments := by
  rw [after, after, onPart_apply function arguments other]
  cases step.onPart part <;> rfl

theorem run_apply {steps : List PartStep} (plain : ∀ step ∈ steps, step.application? = none) :
    ∀ part : Part, (part.apply function arguments).run steps =
      (part.run steps).apply function arguments := by
  induction steps with
  | nil => intro part; rfl
  | cons step rest ih =>
    intro part
    obtain ⟨other, later⟩ := List.forall_mem_cons.1 plain
    rw [run, run, List.foldl_cons, List.foldl_cons, after_apply function arguments other]
    exact ih later _

theorem through_apply {steps : List PartStep}
    (plain : ∀ step ∈ steps, step.application? = none) :
    ∀ part : Part, (part.apply function arguments).through steps =
      (part.through steps).map (·.apply function arguments) := by
  induction steps with
  | nil => intro part; rfl
  | cons step rest ih =>
    intro part
    obtain ⟨other, later⟩ := List.forall_mem_cons.1 plain
    rw [through_cons, through_cons, onPart_apply function arguments other]
    cases step.onPart part with
    | error error => rfl
    | ok next => exact ih later next

end Passing

/-- The part that steps lead to is the one of the other operations, with all functions
applied at the end. -/
theorem run_eq_applyAll (steps : List PartStep) :
    ∀ part : Part, part.run steps = (part.run (others steps)).applyAll (applications steps) := by
  induction steps with
  | nil => intro part; rfl
  | cons step rest ih =>
    intro part
    have first : part.run (step :: rest) = (part.after step).run rest := rfl
    rw [first, ih]
    cases applied : step.application? with
    | none =>
      rw [others_cons_of_none rest applied, applications_cons_of_none rest applied]
      rfl
    | some application =>
      obtain rfl := eq_apply_of_application? applied
      have stepped : part.after (.apply application.1 application.2) =
          part.apply application.1 application.2 := rfl
      rw [stepped, run_apply _ _ application?_of_mem_others, others_cons_apply,
        applications_cons_apply]
      rfl

theorem through_eq_applyAll (steps : List PartStep) :
    ∀ part : Part, part.through steps =
      (part.through (others steps)).map (·.applyAll (applications steps)) := by
  induction steps with
  | nil => intro part; rfl
  | cons step rest ih =>
    intro part
    rw [through_cons]
    cases applied : step.application? with
    | none =>
      rw [others_cons_of_none rest applied, applications_cons_of_none rest applied, through_cons]
      cases step.onPart part with
      | error error => rfl
      | ok next => exact ih next
    | some application =>
      obtain rfl := eq_apply_of_application? applied
      have stepped : (PartStep.apply application.1 application.2).onPart part =
          .ok (part.apply application.1 application.2) := rfl
      rw [stepped]
      change through rest _ = _
      rw [ih, through_apply _ _ application?_of_mem_others, others_cons_apply,
        applications_cons_apply]
      cases part.through (others rest) <;> rfl

end Part

/-! ## The text of applied functions -/

/-- The text of calls, the first one innermost around what they are applied to. -/
def nestedText (source : String) (calls : List (String × List String)) : String :=
  calls.foldl (fun inner call => Part.callText call.1 (inner :: call.2)) source

structure WrittenAs (resolve : Resolver) (subject : Selector)
    (application : String × List Argument) (call : String × List String) : Prop where
  function : call.1 = application.1
  arguments : List.Forall₂ (fun argument text =>
    argument.render resolve (some subject) application.1 = .ok text) application.2 call.2

def renderApplications (resolve : Resolver) (subject : Selector)
    (applications : List (String × List Argument)) :
    Except QueryError (List (String × List String)) :=
  applications.mapM fun application =>
    (renderArguments resolve (some subject) application.1 application.2).map (application.1, ·)

section Rendering

variable {resolve : Resolver} {subject : Selector}

theorem renderArguments_eq_mapM (resolve : Resolver) (subject : Option Selector)
    (function : String) (arguments : List Argument) :
    renderArguments resolve subject function arguments =
      arguments.mapM (·.render resolve subject function) := by
  induction arguments with
  | nil => rfl
  | cons argument rest ih =>
    rw [renderArguments_cons, mapM_cons_eq, ih]
    cases argument.render resolve subject function <;> rfl

theorem writtenAs_iff {application : String × List Argument} {call : String × List String} :
    WrittenAs resolve subject application call ↔
      (renderArguments resolve (some subject) application.1 application.2).map (application.1, ·) =
        .ok call := by
  rw [renderArguments_eq_mapM]
  constructor
  · intro written
    rw [(mapM_eq_ok_iff _ _ _).2 written.arguments, ← written.function]
    rfl
  · intro rendered
    obtain ⟨texts, success, rfl⟩ := map_eq_ok rendered
    exact ⟨rfl, (mapM_eq_ok_iff _ _ _).1 success⟩

theorem renderApplications_eq_ok_iff {applications : List (String × List Argument)}
    {calls : List (String × List String)} :
    renderApplications resolve subject applications = .ok calls ↔
      List.Forall₂ (WrittenAs resolve subject) applications calls := by
  rw [renderApplications, mapM_eq_ok_iff]
  constructor
  · exact fun rendered => rendered.imp fun _ _ => writtenAs_iff.2
  · exact fun written => written.imp fun _ _ => writtenAs_iff.1

/-- An application can be written if each of its arguments can. -/
theorem exists_writtenAs_iff {application : String × List Argument} :
    (∃ call, WrittenAs resolve subject application call) ↔
      ∀ argument ∈ application.2, ∃ text,
        argument.render resolve (some subject) application.1 = .ok text := by
  rw [← exists_forall₂_iff]
  constructor
  · rintro ⟨call, written⟩
    exact ⟨call.2, written.arguments⟩
  · rintro ⟨texts, arguments⟩
    exact ⟨(application.1, texts), rfl, arguments⟩

theorem exists_written_iff {applications : List (String × List Argument)} :
    (∃ calls, List.Forall₂ (WrittenAs resolve subject) applications calls) ↔
      ∀ application ∈ applications, ∀ argument ∈ application.2, ∃ text,
        argument.render resolve (some subject) application.1 = .ok text :=
  exists_forall₂_iff.trans (forall₂_congr fun _ _ => exists_writtenAs_iff)

end Rendering

namespace Part

open PartStep

theorem selector_applyAll (calls : List (String × List Argument)) :
    ∀ part : Part, (part.applyAll calls).selector = part.selector := by
  induction calls with
  | nil => intro part; rfl
  | cons call rest ih => intro part; exact ih (part.apply call.1 call.2)

/-- The chain of a part with more functions is nested around the chain it had. -/
theorem chain_applyAll (resolve : Resolver) (calls : List (String × List Argument)) :
    ∀ part : Part, (part.applyAll calls).chain resolve =
      (part.chain resolve).bind fun inner =>
        (renderApplications resolve part.selector calls).map (nestedText inner) := by
  induction calls with
  | nil =>
    intro part
    cases chained : part.chain resolve <;> simp [applyAll, chained, renderApplications,
      nestedText, Except.bind, Except.map, pure, Except.pure]
  | cons call rest ih =>
    intro part
    have first : part.applyAll (call :: rest) = (part.apply call.1 call.2).applyAll rest := rfl
    have subject : (part.apply call.1 call.2).selector = part.selector := rfl
    rw [first, ih, chain_apply, subject]
    unfold renderApplications
    rw [mapM_cons_eq]
    cases part.chain resolve with
    | error error => rfl
    | ok inner =>
      cases renderArguments resolve (some part.selector) call.1 call.2 with
      | error error => rfl
      | ok texts =>
        cases rest.mapM fun application =>
          (renderArguments resolve (some part.selector) application.1 application.2).map
            (application.1, ·) <;> rfl

theorem chain_of_call_eq_none {part : Part} (uncalled : part.call = none) (resolve : Resolver) :
    part.chain resolve = .ok part.selector.source := by
  simp [chain, uncalled]

/-- The text that steps on a fresh part lead to, and which failure counts. -/
theorem renderExpression_run (selector : Selector) (steps : List PartStep) (resolve : Resolver) :
    let subject := ((ofSelector selector).run (others steps)).selector
    ((ofSelector selector).run steps).renderExpression resolve =
      (renderApplications resolve subject (applications steps)).map fun calls =>
        nestedText subject.source calls ++ subject.shiftText := by
  intro subject
  have uncalled : ((ofSelector selector).run (others steps)).call = none :=
    call_run application?_of_mem_others (ofSelector selector)
  rw [run_eq_applyAll, renderExpression_eq, chain_applyAll, selector_applyAll,
    chain_of_call_eq_none uncalled]
  change ((renderApplications resolve subject _).map _).map _ = _
  cases renderApplications resolve subject (applications steps) <;> rfl

end Part

theorem Selector.text_unshifted (selector : Selector) :
    ({ selector with timeshift := none } : Selector).text = selector.source :=
  String.append_empty

theorem Selector.shiftText_eq (selector : Selector) :
    selector.shiftText = selector.timeshift.elim "" fun shift => " SHIFT BY " ++ shift.offset := by
  cases shift : selector.timeshift with
  | none => simp [shiftText, shift]
  | some shift => simp [shiftText, shift, Timeshift.text, ← String.append_assoc]

namespace Part

open PartStep

theorem renderExpression_run_eq_ok_iff (selector : Selector) (steps : List PartStep)
    (resolve : Resolver) (text : String) :
    let subject := ((ofSelector selector).run (others steps)).selector
    ((ofSelector selector).run steps).renderExpression resolve = .ok text ↔
      ∃ calls, List.Forall₂ (WrittenAs resolve subject) (applications steps) calls ∧
        text = nestedText subject.source calls ++ subject.shiftText := by
  intro subject
  rw [renderExpression_run]
  constructor
  · intro success
    obtain ⟨calls, written, rfl⟩ := map_eq_ok success
    exact ⟨calls, renderApplications_eq_ok_iff.1 written, rfl⟩
  · rintro ⟨calls, written, rfl⟩
    rw [renderApplications_eq_ok_iff.2 written]
    rfl

/-- However functions are applied between the other operations on a fresh part, it can be
written exactly if each of their arguments can be, for the selector that the other
operations alone would make. Its text is then the calls around that selector without its
shift, with the shift once behind them. Without any function it is the text of the
selector. The part reached, and whether it is reached, depends on the functions in their
order and on the other operations in theirs, and on nothing else. -/
theorem run_renders (selector : Selector) (steps : List PartStep) :
    let fresh := ofSelector selector
    let part := fresh.run steps
    let subject := (fresh.run (others steps)).selector
    let source := ({ subject with timeshift := none } : Selector).text
    (∀ resolve,
      ((∃ text, part.renderExpression resolve = .ok text) ↔
        ∀ application ∈ applications steps, ∀ argument ∈ application.2,
          ∃ text, argument.render resolve (some subject) application.1 = .ok text) ∧
      (∀ text, part.renderExpression resolve = .ok text ↔
        ∃ calls, List.Forall₂ (WrittenAs resolve subject) (applications steps) calls ∧
          text = nestedText source calls ++
            subject.timeshift.elim "" fun shift => " SHIFT BY " ++ shift.offset) ∧
      (applications steps = [] → part.renderExpression resolve = .ok subject.text)) ∧
    (∀ reached, fresh.through steps = .ok reached → part = reached) ∧
    ∀ arranged, applications arranged = applications steps → others arranged = others steps →
      fresh.run arranged = part ∧ fresh.through arranged = fresh.through steps := by
  intro fresh part subject source
  have text_iff : ∀ resolve text, part.renderExpression resolve = .ok text ↔
      ∃ calls, List.Forall₂ (WrittenAs resolve subject) (applications steps) calls ∧
        text = nestedText source calls ++
          subject.timeshift.elim "" fun shift => " SHIFT BY " ++ shift.offset := by
    intro resolve text
    have unshifted : source = subject.source := subject.text_unshifted
    rw [unshifted, ← Selector.shiftText_eq]
    exact renderExpression_run_eq_ok_iff selector steps resolve text
  refine ⟨fun resolve => ⟨?_, text_iff resolve, ?_⟩, ?_, ?_⟩
  · rw [← exists_written_iff]
    constructor
    · rintro ⟨text, success⟩
      obtain ⟨calls, written, _⟩ := (text_iff resolve text).1 success
      exact ⟨calls, written⟩
    · rintro ⟨calls, written⟩
      exact ⟨_, (text_iff resolve _).2 ⟨calls, written, rfl⟩⟩
  · intro unapplied
    refine (renderExpression_run_eq_ok_iff selector steps resolve _).2 ⟨[], ?_, rfl⟩
    rw [unapplied]
    exact .nil
  · intro reached success
    exact run_of_through success
  · intro arranged functions operations
    constructor
    · rw [run_eq_applyAll, functions, operations, ← run_eq_applyAll]
    · rw [through_eq_applyAll, functions, operations, ← through_eq_applyAll]

example : ((ofSelector ⟨"org", .all, none, none⟩).run
    [.apply "avg" [.value (.text "10s")], .shiftBy "1h", .apply "sum" []]).renderExpression
      (resolver ∅) = .ok "sum(avg(ALL FROM 'org', 10s)) SHIFT BY 1h" := by
  rfl

end Part

end MetricQuery
