import MetricQuery.Expression

/-!
# Rendering expressions

The text of an expression. References are expanded where they stand, with the
subject of that place, and at most thirty-two expansions deep; so a variable
that leads back to itself ends in an error.

Rendering recurses on the expression alone, given how a reference is resolved;
resolving recurses on the number of expansions left.
-/

set_option autoImplicit false

namespace MetricQuery

/-- How the text of a reference is found, for the subject of its place. -/
abbrev Resolver := Option Selector → String → Except QueryError String

mutual

/-- The text of a value. A part is written without its alias, and its calls are
applied to its own selector. -/
def Value.render (resolve : Resolver) (subject : Option Selector) :
    Value → Except QueryError String
  | .text text => .ok text
  | .number x => .ok (writeFloat plainLayout x)
  | .selector selector => .ok selector.text
  | .call call => call.render resolve subject
  | .part part => part.renderExpression resolve

def Argument.render (resolve : Resolver) (subject : Option Selector) (function : String) :
    Argument → Except QueryError String
  | .subject =>
    match subject with
    | some selector => .ok selector.source
    | none => .error (.missingSubject function)
  | .reference name => resolve subject name
  | .value value => value.render resolve subject

def renderArguments (resolve : Resolver) (subject : Option Selector) (function : String) :
    List Argument → Except QueryError (List String)
  | [] => .ok []
  | argument :: rest =>
    match argument.render resolve subject function with
    | .error error => .error error
    | .ok text =>
      match renderArguments resolve subject function rest with
      | .error error => .error error
      | .ok texts => .ok (text :: texts)

def Call.render (resolve : Resolver) (subject : Option Selector) :
    Call → Except QueryError String
  | ⟨function, arguments⟩ =>
    match renderArguments resolve subject function arguments with
    | .error error => .error error
    | .ok texts => .ok (function ++ "(" ++ ", ".intercalate texts ++ ")")

/-- The text of a part without its alias. The shift follows the outermost call. -/
def Part.renderExpression (resolve : Resolver) : Part → Except QueryError String
  | ⟨selector, none, _, _, _⟩ => .ok selector.text
  | ⟨selector, some call, _, _, _⟩ =>
    match call.render resolve (some selector) with
    | .error error => .error error
    | .ok text => .ok (text ++ selector.shiftText)

end

theorem renderArguments_cons (resolve : Resolver) (subject : Option Selector) (function : String)
    (argument : Argument) (rest : List Argument) :
    renderArguments resolve subject function (argument :: rest) =
      (argument.render resolve subject function).bind fun text =>
        (renderArguments resolve subject function rest).map (text :: ·) := by
  rw [renderArguments]
  cases argument.render resolve subject function with
  | error error => rfl
  | ok text => cases renderArguments resolve subject function rest <;> rfl

theorem Call.render_eq_map (resolve : Resolver) (subject : Option Selector) (function : String)
    (arguments : List Argument) :
    Call.render resolve subject ⟨function, arguments⟩ =
      (renderArguments resolve subject function arguments).map fun texts =>
        function ++ "(" ++ ", ".intercalate texts ++ ")" := by
  rw [Call.render]
  cases renderArguments resolve subject function arguments <;> rfl

theorem Part.renderExpression_eq_map (resolve : Resolver) (selector : Selector) (call : Call)
    (annotations : Option Annotations) (name : Option String) (excluded : Bool) :
    Part.renderExpression resolve ⟨selector, some call, annotations, name, excluded⟩ =
      (call.render resolve (some selector)).map (· ++ selector.shiftText) := by
  rw [Part.renderExpression]
  cases call.render resolve (some selector) <;> rfl

def maxExpansions : Nat := 32

/-- Resolves references in an environment, with so many expansions left. -/
def resolveWithin (environment : Variables) : Nat → Resolver
  | 0, _, name =>
    match environment.get? name with
    | none => .error (.undeclaredVariable name)
    | some _ => .error (.renderDepthExceeded name)
  | left + 1, subject, name =>
    match environment.get? name with
    | none => .error (.undeclaredVariable name)
    | some value => value.render (resolveWithin environment left) subject

def resolver (environment : Variables) : Resolver :=
  resolveWithin environment maxExpansions

/-- The text of a part with its alias, if the alias has a section. -/
def Part.render (part : Part) (resolve : Resolver) : Except QueryError String :=
  match part.renderExpression resolve with
  | .error error => .error error
  | .ok text =>
    match part.annotations with
    | none => .ok text
    | some annotations =>
      if annotations.isEmpty then .ok text else .ok (text ++ " " ++ annotations.text)

end MetricQuery
