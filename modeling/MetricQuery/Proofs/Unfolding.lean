import MetricQuery.Proofs.Preparation

/-!
# Unfolding references

When a query is written, the references in its calls are unfolded to the values
that they are bound to, the references in these values again, and so on. Whether
this ends well depends on nothing else: every name that is met has to be bound,
and none may be met inside of too many expansions.
-/

set_option autoImplicit false

namespace MetricQuery

/-! ## References of expressions -/

mutual

def Value.references : Value → List String
  | .text _ | .number _ | .selector _ => []
  | .call call => call.references
  | .part part => part.references

def Argument.references : Argument → List String
  | .subject => []
  | .reference name => [name]
  | .value value => value.references

def argumentReferences : List Argument → List String
  | [] => []
  | argument :: rest => argument.references ++ argumentReferences rest

def Call.references : Call → List String
  | ⟨_, arguments⟩ => argumentReferences arguments

def Part.references : Part → List String
  | ⟨_, none, _, _, _⟩ => []
  | ⟨_, some call, _, _, _⟩ => call.references

end

/-- The names that the parts of a query refer to, those that are excluded aside. -/
def Query.references (query : Query) : List String :=
  (query.parts.filter fun part => !part.excluded).flatMap Part.references

/-- A name that is met when others are unfolded, and the number of expansions
that it lies inside. -/
inductive Meets (environment : Variables) : List String → Nat → String → Prop
  | here {names : List String} {name : String} (member : name ∈ names) :
      Meets environment names 0 name
  | within {names : List String} {outer name : String} {value : Value} {depth : Nat}
      (member : outer ∈ names) (bound : environment.get? outer = some value)
      (inner : Meets environment value.references depth name) :
      Meets environment names (depth + 1) name

/-! ## What a rendering asks for -/

/-- A result that comes from references: if it is there, all of them have been
resolved, and if it is missing, so is one of them. -/
structure ComesFrom {α : Type} (resolve : Resolver) (names : List String)
    (result : Except QueryError α) : Prop where
  resolved : ∀ x, result = .ok x →
    ∀ name ∈ names, ∃ selector text, resolve (some selector) name = .ok text
  missing : ∀ error, result = .error error →
    ∃ name ∈ names, ∃ selector, resolve (some selector) name = .error error

namespace ComesFrom

variable {α β : Type} {resolve : Resolver} {names : List String}

theorem ok (x : α) : ComesFrom resolve [] (.ok x) where
  resolved _ _ name member := by cases member
  missing error failure := by cases failure

theorem reference (selector : Selector) (name : String) :
    ComesFrom resolve [name] (resolve (some selector) name) where
  resolved text success other member := by
    obtain rfl := List.mem_singleton.1 member
    exact ⟨selector, text, success⟩
  missing error failure := ⟨name, List.mem_singleton_self name, selector, failure⟩

theorem map {result : Except QueryError α} (comes : ComesFrom resolve names result) (f : α → β) :
    ComesFrom resolve names (result.map f) := by
  cases result with
  | error cause =>
    refine ⟨nofun, fun error failure => ?_⟩
    obtain rfl := Except.error.inj failure
    exact comes.missing _ rfl
  | ok x => exact ⟨fun _ _ => comes.resolved x rfl, nofun⟩

theorem cons {result : Except QueryError α} {rest : Except QueryError (List α)}
    {later : List String} (first : ComesFrom resolve names result)
    (second : ComesFrom resolve later rest) :
    ComesFrom resolve (names ++ later) (result.bind fun x => rest.map (x :: ·)) := by
  cases result with
  | error cause =>
    refine ⟨nofun, fun error failure => ?_⟩
    obtain rfl := Except.error.inj failure
    obtain ⟨name, member, missing⟩ := first.missing _ rfl
    exact ⟨name, List.mem_append_left later member, missing⟩
  | ok x =>
    refine ⟨fun xs success name member => ?_, fun error failure => ?_⟩
    · rcases List.mem_append.1 member with early | late
      · exact first.resolved x rfl name early
      · exact (second.map (x :: ·)).resolved xs success name late
    · obtain ⟨name, member, missing⟩ := (second.map (x :: ·)).missing error failure
      exact ⟨name, List.mem_append_right names member, missing⟩

/-- A result is there exactly if all of its references can be resolved, where
that does not depend on the subject. -/
theorem succeeds_iff {result : Except QueryError α} (comes : ComesFrom resolve names result)
    {resolvable : String → Prop}
    (resolves : ∀ selector name, (∃ text, resolve (some selector) name = .ok text) ↔
      resolvable name) :
    (∃ x, result = .ok x) ↔ ∀ name ∈ names, resolvable name := by
  constructor
  · rintro ⟨x, success⟩ name member
    obtain ⟨selector, text, found⟩ := comes.resolved x success name member
    exact (resolves selector name).1 ⟨text, found⟩
  · intro all
    cases outcome : result with
    | ok x => exact ⟨x, rfl⟩
    | error error =>
      obtain ⟨name, member, selector, missing⟩ := comes.missing error outcome
      obtain ⟨text, found⟩ := (resolves selector name).2 (all name member)
      rw [missing] at found
      cases found

end ComesFrom

section Rendering

variable (resolve : Resolver)

mutual

/-- With a subject in scope, no placeholder is in the way of the text: parts and
bound values find the subject of their place. -/
theorem Value.render_comesFrom (selector : Selector) (value : Value) :
    ComesFrom resolve value.references (value.render resolve (some selector)) := by
  cases value with
  | text text => exact .ok _
  | number x => exact .ok _
  | selector selector => exact .ok _
  | call call => exact call.render_comesFrom selector
  | part part => exact part.renderExpression_comesFrom

theorem Argument.render_comesFrom (selector : Selector) (function : String)
    (argument : Argument) :
    ComesFrom resolve argument.references
      (argument.render resolve (some selector) function) := by
  cases argument with
  | subject => exact .ok _
  | reference name => exact .reference selector name
  | value value => exact value.render_comesFrom selector

theorem renderArguments_comesFrom (selector : Selector) (function : String)
    (arguments : List Argument) :
    ComesFrom resolve (argumentReferences arguments)
      (renderArguments resolve (some selector) function arguments) := by
  cases arguments with
  | nil => exact .ok _
  | cons argument rest =>
    rw [renderArguments_cons, argumentReferences]
    exact .cons (argument.render_comesFrom selector function)
      (renderArguments_comesFrom selector function rest)

theorem Call.render_comesFrom (selector : Selector) (call : Call) :
    ComesFrom resolve call.references (call.render resolve (some selector)) := by
  cases call with
  | mk function arguments =>
    rw [Call.render_eq_map, Call.references]
    exact (renderArguments_comesFrom selector function arguments).map _

theorem Part.renderExpression_comesFrom (part : Part) :
    ComesFrom resolve part.references (part.renderExpression resolve) := by
  cases part with
  | mk selector call annotations name excluded =>
    cases call with
    | none => exact .ok _
    | some call =>
      rw [Part.renderExpression_eq_map, Part.references]
      exact (call.render_comesFrom selector).map _

end

theorem Part.chain_comesFrom (part : Part) :
    ComesFrom resolve part.references (part.chain resolve) := by
  cases part with
  | mk selector call annotations name excluded =>
    cases call with
    | none => exact .ok _
    | some call => exact call.render_comesFrom resolve selector

theorem Query.renderParts_comesFrom (parts : List Part) :
    ComesFrom resolve (parts.flatMap Part.references) (Query.renderParts resolve parts) := by
  induction parts with
  | nil => exact .ok _
  | cons part rest ih =>
    have split : Query.renderParts resolve (part :: rest) =
        ((part.chain resolve).map part.item).bind fun text =>
          (Query.renderParts resolve rest).map (text :: ·) := by
      rw [Query.renderParts, Part.render_eq]
      cases part.chain resolve with
      | error error => rfl
      | ok chain => cases Query.renderParts resolve rest <;> rfl
    rw [split, List.flatMap_cons]
    exact ((part.chain_comesFrom resolve).map part.item).cons ih

end Rendering

theorem Query.renderWith_comesFrom (query : Query) (overrides : Variables) :
    ComesFrom (resolver (query.environment overrides)) query.references
      (query.renderWith overrides) := by
  rw [Query.renderWith_eq]
  exact (Query.renderParts_comesFrom _ _).map query.written

/-! ## Depths -/

section Depths

variable {environment : Variables} {names : List String} {limit : Nat}

/-- Every name that is met when names are unfolded is bound, and lies inside of
fewer expansions than the limit. -/
def Unfolds (environment : Variables) (names : List String) (limit : Nat) : Prop :=
  ∀ depth name, Meets environment names depth name →
    depth < limit ∧ ∃ value, environment.get? name = some value

inductive Blocks (environment : Variables) (names : List String) (limit : Nat) :
    QueryError → Prop
  | undeclared {depth : Nat} {name : String} (met : Meets environment names depth name)
      (shallow : depth ≤ limit) (unbound : environment.get? name = none) :
      Blocks environment names limit (.undeclaredVariable name)
  | tooDeep {name : String} {value : Value} (met : Meets environment names limit name)
      (bound : environment.get? name = some value) :
      Blocks environment names limit (.renderDepthExceeded name)

theorem Meets.of_subset {others : List String} {depth : Nat} {name : String}
    (met : Meets environment names depth name) (among : names ⊆ others) :
    Meets environment others depth name := by
  cases met with
  | here member => exact .here (among member)
  | within member bound inner => exact .within (among member) bound inner

theorem Meets.exists_mem {depth : Nat} {name : String}
    (met : Meets environment names depth name) :
    ∃ first ∈ names, Meets environment [first] depth name := by
  cases met with
  | here member => exact ⟨name, member, .here (List.mem_singleton_self name)⟩
  | within member bound inner =>
    exact ⟨_, member, .within (List.mem_singleton_self _) bound inner⟩

theorem Meets.behind {outer name : String} {value : Value} {depth further : Nat}
    (met : Meets environment names depth outer) (bound : environment.get? outer = some value)
    (inner : Meets environment value.references further name) :
    Meets environment names (depth + 1 + further) name := by
  -- Along the way to the outer name, which the inner one continues.
  induction met with
  | here member =>
    have sum : 0 + 1 + further = further + 1 := by omega
    exact sum ▸ .within member bound inner
  | @within names first _ _ depth member held _ ih =>
    have sum : depth + 1 + 1 + further = depth + 1 + further + 1 := by omega
    exact sum ▸ .within member held (ih bound)

/-- A name that leads back to itself is met at any depth. -/
theorem Meets.deeper {name : String} {value : Value} {depth length : Nat}
    (met : Meets environment names depth name) (bound : environment.get? name = some value)
    (back : Meets environment value.references length name) (bottom : Nat) :
    ∃ further, bottom ≤ further ∧ Meets environment names further name := by
  induction bottom with
  | zero => exact ⟨depth, Nat.zero_le depth, met⟩
  | succ bottom ih =>
    obtain ⟨further, deep, again⟩ := ih
    exact ⟨further + 1 + length, by omega, again.behind bound back⟩

theorem unfolds_iff_forall :
    Unfolds environment names limit ↔ ∀ name ∈ names, Unfolds environment [name] limit := by
  constructor
  · intro unfolds first member depth name met
    exact unfolds depth name (met.of_subset (List.cons_subset.2 ⟨member, List.nil_subset _⟩))
  · intro each depth name met
    obtain ⟨first, member, alone⟩ := met.exists_mem
    exact each first member depth name alone

theorem not_unfolds_zero (name : String) : ¬Unfolds environment [name] 0 := by
  intro unfolds
  exact Nat.not_lt_zero 0 (unfolds 0 name (.here (List.mem_singleton_self name))).1

theorem unfolds_succ {name : String} :
    Unfolds environment [name] (limit + 1) ↔
      ∃ value, environment.get? name = some value ∧ Unfolds environment value.references limit := by
  constructor
  · intro unfolds
    obtain ⟨_, value, bound⟩ := unfolds 0 name (.here (List.mem_singleton_self name))
    refine ⟨value, bound, fun depth inner met => ?_⟩
    obtain ⟨shallow, held⟩ :=
      unfolds (depth + 1) inner (.within (List.mem_singleton_self name) bound met)
    exact ⟨Nat.lt_of_succ_lt_succ shallow, held⟩
  · rintro ⟨value, bound, unfolds⟩ depth inner met
    cases met with
    | here member =>
      obtain rfl := List.mem_singleton.1 member
      exact ⟨Nat.zero_lt_succ limit, value, bound⟩
    | within member held met =>
      obtain rfl := List.mem_singleton.1 member
      obtain rfl := Option.some.inj (bound.symm.trans held)
      obtain ⟨shallow, found⟩ := unfolds _ inner met
      exact ⟨Nat.succ_lt_succ shallow, found⟩

theorem Blocks.of_subset {others : List String} {error : QueryError}
    (blocks : Blocks environment names limit error) (among : names ⊆ others) :
    Blocks environment others limit error := by
  cases blocks with
  | undeclared met shallow unbound => exact .undeclared (met.of_subset among) shallow unbound
  | tooDeep met bound => exact .tooDeep (met.of_subset among) bound

theorem Blocks.within {name : String} {value : Value} {error : QueryError}
    (blocks : Blocks environment value.references limit error)
    (bound : environment.get? name = some value) :
    Blocks environment [name] (limit + 1) error := by
  have member := List.mem_singleton_self name
  cases blocks with
  | undeclared met shallow unbound =>
    exact .undeclared (.within member bound met) (Nat.succ_le_succ shallow) unbound
  | tooDeep met held => exact .tooDeep (.within member bound met) held

/-- A reference is resolved exactly if it can be unfolded, for whatever subject.
The induction is on the expansions left; the references of the value are
resolved with one less. -/
theorem resolveWithin_succeeds_iff (environment : Variables) (expansions : Nat) :
    ∀ selector name,
      (∃ text, resolveWithin environment expansions (some selector) name = .ok text) ↔
        Unfolds environment [name] expansions := by
  induction expansions with
  | zero =>
    intro selector name
    refine iff_of_false ?_ (not_unfolds_zero name)
    rintro ⟨text, success⟩
    rw [resolveWithin] at success
    cases held : environment.get? name with
    | none => rw [held] at success; cases success
    | some value => rw [held] at success; cases success
  | succ expansions ih =>
    intro selector name
    rw [resolveWithin, unfolds_succ]
    cases environment.get? name with
    | none =>
      constructor
      · rintro ⟨text, success⟩
        cases success
      · rintro ⟨value, bound, _⟩
        cases bound
    | some value =>
      have comes := value.render_comesFrom (resolveWithin environment expansions) selector
      have inner := comes.succeeds_iff ih
      rw [← unfolds_iff_forall] at inner
      refine inner.trans ?_
      constructor
      · intro unfolds
        exact ⟨value, rfl, unfolds⟩
      · rintro ⟨_, same, unfolds⟩
        obtain rfl := Option.some.inj same
        exact unfolds

theorem resolveWithin_blocks (environment : Variables) (expansions : Nat) :
    ∀ selector name error,
      resolveWithin environment expansions (some selector) name = .error error →
        Blocks environment [name] expansions error := by
  induction expansions with
  | zero =>
    intro selector name error failure
    have met : Meets environment [name] 0 name := .here (List.mem_singleton_self name)
    rw [resolveWithin] at failure
    cases held : environment.get? name with
    | none =>
      rw [held] at failure
      cases failure
      exact .undeclared met (Nat.le_refl 0) held
    | some value =>
      rw [held] at failure
      cases failure
      exact .tooDeep met held
  | succ expansions ih =>
    intro selector name error failure
    rw [resolveWithin] at failure
    cases held : environment.get? name with
    | none =>
      rw [held] at failure
      cases failure
      exact .undeclared (.here (List.mem_singleton_self name)) (Nat.zero_le _) held
    | some value =>
      rw [held] at failure
      have comes := value.render_comesFrom (resolveWithin environment expansions) selector
      obtain ⟨inner, member, other, missing⟩ := comes.missing error failure
      have blocks := (ih other inner error missing).of_subset
        (List.cons_subset.2 ⟨member, List.nil_subset _⟩)
      exact blocks.within held

end Depths

/-! ## Queries -/

/-- A name means the override, or else the variable, or else the last part of
that name. -/
theorem Query.get?_environment (query : Query) (overrides : Variables) (name : String) :
    (query.environment overrides).get? name =
      (overrides.get? name).or
        ((query.bindings.get? name).or (query.namedParts.reverse.lookup name)) := by
  rw [Query.environment, Bindings.get?_overlaid, Bindings.get?_overlaid,
    Bindings.get?_ofList_reverse]

theorem Query.renderWith_succeeds_iff (query : Query) (overrides : Variables) :
    (∃ text, query.renderWith overrides = .ok text) ↔
      Unfolds (query.environment overrides) query.references maxExpansions := by
  rw [unfolds_iff_forall]
  exact (query.renderWith_comesFrom overrides).succeeds_iff
    (resolveWithin_succeeds_iff (query.environment overrides) maxExpansions)

theorem Query.renderWith_blocks {query : Query} {overrides : Variables} {error : QueryError}
    (failure : query.renderWith overrides = .error error) :
    Blocks (query.environment overrides) query.references maxExpansions error := by
  obtain ⟨name, member, selector, missing⟩ :=
    (query.renderWith_comesFrom overrides).missing error failure
  exact (resolveWithin_blocks _ _ selector name error missing).of_subset
    (List.cons_subset.2 ⟨member, List.nil_subset _⟩)

/-- Every query is written or refused, whatever its references lead to. It is
written exactly if the names that its parts lead to are all bound, to overrides,
variables or named parts, and none lies inside of 32 expansions or more. It is
refused for a name that is met and not bound, or for one that is bound and lies
inside of 32 expansions; so it is refused where a name leads back to itself, and
never for the lack of a subject. -/
theorem Query.renderWith_unfolds (query : Query) (overrides : Variables) :
    let environment := query.environment overrides
    (∀ name, environment.get? name = (overrides.get? name).or
      ((query.bindings.get? name).or (query.namedParts.reverse.lookup name))) ∧
    ((∃ text, query.renderWith overrides = .ok text) ↔
      Unfolds environment query.references 32) ∧
    (∀ error, query.renderWith overrides = .error error →
      Blocks environment query.references 32 error) ∧
    (∀ depth name value length, Meets environment query.references depth name →
      environment.get? name = some value → Meets environment value.references length name →
      ∃ error, query.renderWith overrides = .error error) ∧
    ∀ function, query.renderWith overrides ≠ .error (.missingSubject function) := by
  intro environment
  have succeeds := query.renderWith_succeeds_iff overrides
  refine ⟨query.get?_environment overrides, succeeds, fun _ => renderWith_blocks, ?_, ?_⟩
  · intro depth name value length met bound back
    cases outcome : query.renderWith overrides with
    | error error => exact ⟨error, rfl⟩
    | ok text =>
      obtain ⟨further, deep, again⟩ := met.deeper bound back maxExpansions
      have shallow := (succeeds.1 ⟨text, outcome⟩ further name again).1
      exact absurd deep (Nat.not_le_of_lt shallow)
  · intro function failure
    cases renderWith_blocks failure

/-- A chain of 32 expansions is written, and one of 33 is not. -/
example :
    let chain (links : Nat) : Variables :=
      Bindings.ofList ((List.range links).map fun link => (showNat link,
        .call ⟨"f", if link + 1 < links then [.reference (showNat (link + 1))] else []⟩))
    let query : Query := { Query.empty with
      parts := [⟨⟨"org", .all, none, none⟩, some ⟨"g", [.reference "0"]⟩, none, none, false⟩] }
    (query.renderWith (chain 32)).isOk = true ∧
      query.renderWith (chain 33) = .error (.renderDepthExceeded "32") := by
  decide +kernel

end MetricQuery
