import Mathlib.Control.Monad.Basic
import MetricQuery.Rendering

/-!
# Inlining references

A reference can be replaced by the value that it is bound to: whatever is
rendered for one is rendered for the other. Only the depth differs, because the
value then lies in one expansion less; so an expression that was nested too
deep may cease to be.
-/

set_option autoImplicit false

namespace MetricQuery

/-- A result that is the other one, or that is nested too deep. -/
def SameUnlessTooDeep {α : Type} (result other : Except QueryError α) : Prop :=
  result = other ∨ ∃ name, result = .error (.renderDepthExceeded name)

/-- A resolver that answers like another one as long as it does not go too deep. -/
def Resolver.Shallower (resolve deeper : Resolver) : Prop :=
  ∀ subject name, SameUnlessTooDeep (resolve subject name) (deeper subject name)

/-! ## Rendering with a shallower resolver -/

namespace SameUnlessTooDeep

variable {resolve deeper : Resolver} {subject : Option Selector} {function : String}

theorem refl {α : Type} (result : Except QueryError α) : SameUnlessTooDeep result result :=
  Or.inl rfl

theorem map {α β : Type} {result other : Except QueryError α}
    (alike : SameUnlessTooDeep result other) (f : α → β) :
    SameUnlessTooDeep (result.map f) (other.map f) := by
  rcases alike with same | ⟨name, deep⟩
  · rw [same]
    exact refl _
  · rw [deep]
    exact Or.inr ⟨name, rfl⟩

theorem cons {argument other : Argument} {rest others : List Argument}
    (first : SameUnlessTooDeep (argument.render resolve subject function)
      (other.render deeper subject function))
    (later : SameUnlessTooDeep (renderArguments resolve subject function rest)
      (renderArguments deeper subject function others)) :
    SameUnlessTooDeep (renderArguments resolve subject function (argument :: rest))
      (renderArguments deeper subject function (other :: others)) := by
  rw [renderArguments_cons, renderArguments_cons]
  rcases first with same | ⟨name, deep⟩
  · rw [same]
    cases other.render deeper subject function with
    | error error => exact refl _
    | ok text => exact later.map (text :: ·)
  · rw [deep]
    exact Or.inr ⟨name, rfl⟩

theorem call {arguments others : List Argument}
    (alike : SameUnlessTooDeep (renderArguments resolve subject function arguments)
      (renderArguments deeper subject function others)) :
    SameUnlessTooDeep (Call.render resolve subject ⟨function, arguments⟩)
      (Call.render deeper subject ⟨function, others⟩) := by
  rw [Call.render_eq_map, Call.render_eq_map]
  exact alike.map _

/-- A part applies its calls to its own selector, whatever the subject of its
place. -/
theorem part {selector : Selector} {call other : Call}
    (alike : SameUnlessTooDeep (call.render resolve (some selector))
      (other.render deeper (some selector)))
    (annotations : Option Annotations) (name : Option String) (excluded : Bool) :
    SameUnlessTooDeep
      (Part.renderExpression resolve ⟨selector, some call, annotations, name, excluded⟩)
      (Part.renderExpression deeper ⟨selector, some other, annotations, name, excluded⟩) := by
  rw [Part.renderExpression_eq_map, Part.renderExpression_eq_map]
  exact alike.map _

end SameUnlessTooDeep

section Shallower

variable {resolve deeper : Resolver}

mutual

theorem Value.render_shallower (shallower : resolve.Shallower deeper)
    (subject : Option Selector) (value : Value) :
    SameUnlessTooDeep (value.render resolve subject) (value.render deeper subject) := by
  cases value with
  | text text => exact .refl _
  | number x => exact .refl _
  | selector selector => exact .refl _
  | call call => exact call.render_shallower shallower subject
  | part part => exact part.renderExpression_shallower shallower

theorem Argument.render_shallower (shallower : resolve.Shallower deeper)
    (subject : Option Selector) (function : String) (argument : Argument) :
    SameUnlessTooDeep (argument.render resolve subject function)
      (argument.render deeper subject function) := by
  cases argument with
  | subject => exact .refl _
  | reference name => exact shallower subject name
  | value value => exact value.render_shallower shallower subject

theorem renderArguments_shallower (shallower : resolve.Shallower deeper)
    (subject : Option Selector) (function : String) (arguments : List Argument) :
    SameUnlessTooDeep (renderArguments resolve subject function arguments)
      (renderArguments deeper subject function arguments) := by
  cases arguments with
  | nil => exact .refl _
  | cons argument rest =>
    exact .cons (argument.render_shallower shallower subject function)
      (renderArguments_shallower shallower subject function rest)

theorem Call.render_shallower (shallower : resolve.Shallower deeper)
    (subject : Option Selector) (call : Call) :
    SameUnlessTooDeep (call.render resolve subject) (call.render deeper subject) := by
  cases call with
  | mk function arguments =>
    exact .call (renderArguments_shallower shallower subject function arguments)

theorem Part.renderExpression_shallower (shallower : resolve.Shallower deeper) (part : Part) :
    SameUnlessTooDeep (part.renderExpression resolve) (part.renderExpression deeper) := by
  cases part with
  | mk selector call annotations name excluded =>
    cases call with
    | none => exact .refl _
    | some call =>
      exact .part (call.render_shallower shallower (some selector)) annotations name excluded

end

end Shallower

/-- With one expansion less, references have the same text or are too deep. -/
theorem resolveWithin_shallower (environment : Variables) (expansions : Nat) :
    (resolveWithin environment expansions).Shallower
      (resolveWithin environment (expansions + 1)) := by
  induction expansions with
  | zero =>
    intro subject name
    rw [resolveWithin, resolveWithin]
    cases environment.get? name with
    | none => exact .refl _
    | some value => exact Or.inr ⟨name, rfl⟩
  | succ expansions ih =>
    intro subject name
    rw [resolveWithin, resolveWithin]
    cases environment.get? name with
    | none => exact .refl _
    | some value => exact value.render_shallower ih subject

/-! ## Bound values in the place of references -/

/-- Arguments in which some references, however deep in calls and parts, are
replaced by the values that they are bound to. -/
inductive Inlines (environment : Variables) : List Argument → List Argument → Prop
  | nil : Inlines environment [] []
  | kept (argument : Argument) {rest others : List Argument}
      (later : Inlines environment rest others) :
      Inlines environment (argument :: rest) (argument :: others)
  | replaced {name : String} {value : Value} {rest others : List Argument}
      (bound : environment.get? name = some value) (later : Inlines environment rest others) :
      Inlines environment (.reference name :: rest) (.value value :: others)
  | call (function : String) {arguments inlined rest others : List Argument}
      (inner : Inlines environment arguments inlined) (later : Inlines environment rest others) :
      Inlines environment (.value (.call ⟨function, arguments⟩) :: rest)
        (.value (.call ⟨function, inlined⟩) :: others)
  | part (selector : Selector) (function : String) (annotations : Option Annotations)
      (name : Option String) (excluded : Bool) {arguments inlined rest others : List Argument}
      (inner : Inlines environment arguments inlined) (later : Inlines environment rest others) :
      Inlines environment
        (.value (.part ⟨selector, some ⟨function, arguments⟩, annotations, name, excluded⟩) :: rest)
        (.value (.part ⟨selector, some ⟨function, inlined⟩, annotations, name, excluded⟩) :: others)

/-- A reference has the text of the value that it is bound to, which lies in one
expansion less when it stands there itself. -/
theorem resolveWithin_bound {environment : Variables} {name : String} {value : Value}
    (bound : environment.get? name = some value) (expansions : Nat) (subject : Option Selector) :
    SameUnlessTooDeep (resolveWithin environment expansions subject name)
      (value.render (resolveWithin environment expansions) subject) := by
  cases expansions with
  | zero =>
    rw [resolveWithin, bound]
    exact Or.inr ⟨name, rfl⟩
  | succ expansions =>
    rw [resolveWithin, bound]
    exact value.render_shallower (resolveWithin_shallower environment expansions) subject

theorem Inlines.renderArguments {environment : Variables} {arguments inlined : List Argument}
    (inlines : Inlines environment arguments inlined) (expansions : Nat)
    (subject : Option Selector) (function : String) :
    let resolve := resolveWithin environment expansions
    SameUnlessTooDeep (MetricQuery.renderArguments resolve subject function arguments)
      (MetricQuery.renderArguments resolve subject function inlined) := by
  intro resolve
  induction inlines generalizing subject function with
  | nil => exact .refl _
  | kept argument _ later => exact .cons (.refl _) (later subject function)
  | replaced bound _ later =>
    exact .cons (resolveWithin_bound bound expansions subject) (later subject function)
  | call outer _ _ inner later =>
    exact .cons (.call (inner subject outer)) (later subject function)
  | part selector outer annotations name excluded _ _ inner later =>
    exact .cons (.part (.call (inner (some selector) outer)) annotations name excluded)
      (later subject function)

/-- References can be replaced by the values that they are bound to, for any
subject and any number of expansions left. What a call is written as before, it
is written as afterwards. Conversely it was written so before or nested too
deep, and if it is refused afterwards, it was refused for the same reason before
or nested too deep. -/
theorem Call.render_inlined (environment : Variables) (expansions : Nat)
    (subject : Option Selector) (function : String) (arguments inlined : List Argument)
    (inlines : Inlines environment arguments inlined) :
    let before := Call.render (resolveWithin environment expansions) subject ⟨function, arguments⟩
    let after := Call.render (resolveWithin environment expansions) subject ⟨function, inlined⟩
    (∀ text, before = .ok text → after = .ok text) ∧
    (∀ text, after = .ok text →
      before = .ok text ∨ ∃ name, before = .error (.renderDepthExceeded name)) ∧
    ∀ error, after = .error error →
      before = .error error ∨ ∃ name, before = .error (.renderDepthExceeded name) := by
  intro before after
  have alike : SameUnlessTooDeep before after :=
    .call (inlines.renderArguments expansions subject function)
  refine ⟨?_, ?_, ?_⟩
  · intro text success
    rcases alike with same | ⟨name, deep⟩
    · rw [← same, success]
    · rw [deep] at success
      cases success
  · intro text success
    rcases alike with same | deep
    · exact Or.inl (same.trans success)
    · exact Or.inr deep
  · intro error failure
    rcases alike with same | deep
    · exact Or.inl (same.trans failure)
    · exact Or.inr deep

/-- A bound call that applies to the subject of its place, inlined in the
argument list of a part, and a bound part with an alias and a subject of its own.
With one expansion left, the reference in the bound call is too deep until the
call is inlined. -/
theorem Call.render_inlined_subject :
    let selector : Selector := ⟨"org", .all, none, none⟩
    let other : Selector := ⟨"other", .all, none, some ⟨"1d"⟩⟩
    let mean : Call := ⟨"avg", [.subject, .reference "span"]⟩
    let total : Part :=
      ⟨other, some ⟨"sum", [.subject]⟩, some (Annotations.labeled "x"), none, false⟩
    let environment : Variables := (((∅ : Variables).insert "mean" (.call mean)).insert "span"
      (.text "5m")).insert "total" (.part total)
    let arguments : List Argument :=
      [.value (.part ⟨other, some ⟨"max", [.reference "mean"]⟩, none, none, false⟩),
        .reference "mean", .reference "total"]
    let inlined : List Argument :=
      [.value (.part ⟨other, some ⟨"max", [.value (.call mean)]⟩, none, none, false⟩),
        .value (.call mean), .value (.part total)]
    let render (expansions : Nat) (given : List Argument) :=
      Call.render (resolveWithin environment expansions) (some selector) ⟨"f", given⟩
    let text := "f(max(avg(ALL FROM 'other', 5m)) SHIFT BY 1d, avg(ALL FROM 'org', 5m), " ++
      "sum(ALL FROM 'other') SHIFT BY 1d)"
    Inlines environment arguments inlined ∧
      render 2 arguments = .ok text ∧ render 2 inlined = .ok text ∧
      render 1 arguments = .error (.renderDepthExceeded "span") ∧ render 1 inlined = .ok text ∧
      (render 1 arguments = .ok text ∨
        ∃ name, render 1 arguments = .error (.renderDepthExceeded name)) := by
  intro selector other mean total environment arguments inlined render text
  have inlines : Inlines environment arguments inlined :=
    .part other "max" none none false (.replaced rfl .nil) (.replaced rfl (.replaced rfl .nil))
  have written : render 2 arguments = .ok text := by decide +kernel
  have shallow : render 1 inlined = .ok text := by decide +kernel
  obtain ⟨kept, _, _⟩ :=
    Call.render_inlined environment 2 (some selector) "f" arguments inlined inlines
  obtain ⟨_, converse, _⟩ :=
    Call.render_inlined environment 1 (some selector) "f" arguments inlined inlines
  have deep : render 1 arguments = .error (.renderDepthExceeded "span") := by decide +kernel
  exact ⟨inlines, written, kept text written, deep, shallow, converse text shallow⟩

end MetricQuery
