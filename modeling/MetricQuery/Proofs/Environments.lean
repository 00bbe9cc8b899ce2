import Mathlib.Data.List.Forall2
import MetricQuery.Proofs.Copies
import MetricQuery.Proofs.Lookups

/-!
# Environments of prepared queries

References mean the same in a query and in the one that is sent in its place:
the copies that have a name differ from their parts in annotations alone, which
no reference shows.
-/

set_option autoImplicit false

namespace MetricQuery

/-- Values of the same text, wherever they stand. -/
def Value.SameText (left right : Value) : Prop :=
  ∀ resolve subject, left.render resolve subject = right.render resolve subject

theorem Value.SameText.refl (value : Value) : value.SameText value :=
  fun _ _ => rfl

def Variables.SameTexts (left right : Variables) : Prop :=
  ∀ name, Option.Rel Value.SameText (left.get? name) (right.get? name)

theorem Variables.SameTexts.overlaid {left right : Variables} (alike : left.SameTexts right)
    (above : Variables) :
    Variables.SameTexts (Bindings.overlaid left above) (Bindings.overlaid right above) := by
  have same : List.Forall₂ (fun one other => one.1 = other.1 ∧ Value.SameText one.2 other.2)
      above.entries above.entries :=
    List.forall₂_same.2 fun entry _ => ⟨rfl, .refl entry.2⟩
  exact Bindings.rel_get?_insertAll same alike

theorem Variables.SameTexts.get? {left right : Variables} (alike : left.SameTexts right)
    (name : String) :
    (Bindings.get? left name = none ∧ Bindings.get? right name = none) ∨
      ∃ value other, Bindings.get? left name = some value ∧
        Bindings.get? right name = some other ∧ value.SameText other := by
  have related := alike name
  cases one : Bindings.get? left name with
  | none =>
    cases two : Bindings.get? right name with
    | none => exact Or.inl ⟨rfl, rfl⟩
    | some other => rw [one, two] at related; cases related
  | some value =>
    cases two : Bindings.get? right name with
    | none => rw [one, two] at related; cases related
    | some other =>
      rw [one, two] at related
      cases related with
      | some same => exact Or.inr ⟨value, other, rfl, rfl, same⟩

/-- By induction on the expansions left: a value of the same text is rendered
with resolvers that are the same already. -/
theorem resolveWithin_congr {left right : Variables} (alike : left.SameTexts right) :
    ∀ expansions, resolveWithin left expansions = resolveWithin right expansions := by
  intro expansions
  induction expansions with
  | zero =>
    funext subject name
    rw [resolveWithin, resolveWithin]
    rcases alike.get? name with ⟨one, two⟩ | ⟨value, other, one, two, _⟩
    · rw [one, two]
    · rw [one, two]
  | succ expansions ih =>
    funext subject name
    rw [resolveWithin, resolveWithin, ih]
    rcases alike.get? name with ⟨one, two⟩ | ⟨value, other, one, two, same⟩
    · rw [one, two]
    · rw [one, two]
      exact same _ subject

/-! ## Named copies -/

/-- Annotations and names do not show in the expression of a part. -/
theorem Part.renderExpression_congr {part other : Part} (selector : other.selector = part.selector)
    (call : other.call = part.call) (resolve : Resolver) :
    other.renderExpression resolve = part.renderExpression resolve := by
  obtain ⟨_, _, _, _, _⟩ := part
  obtain ⟨_, called, _, _, _⟩ := other
  obtain rfl := selector
  obtain rfl := call
  cases called <;> rfl

theorem Part.sameText_copy (part : Part) (confidence : Confidence) (index : Nat) :
    Value.SameText (.part part) (.part (part.copy confidence index .value)) := by
  intro resolve subject
  rw [Value.render, Value.render]
  exact (Part.renderExpression_congr (part.copy_selector confidence index .value)
    (part.call_copy_value confidence index) resolve).symm

def namedOf (parts : List Part) : List (String × Value) :=
  parts.filterMap fun part => part.name.map fun name => (name, .part part)

theorem namedOf_cons (part : Part) (rest : List Part) :
    namedOf (part :: rest) =
      (part.name.map fun name => (name, Value.part part)).toList ++ namedOf rest := by
  cases named : part.name with
  | none => simp [namedOf, named]
  | some name => simp [namedOf, named]

/-- Of the copies of a part only that for its values has its name. -/
theorem namedOf_copies (confidence : Confidence) (part : Part) (index : Nat) :
    namedOf (part.copies confidence index) =
      (part.name.map fun name => (name, Value.part (part.copy confidence index .value))).toList := by
  cases confidence <;> cases named : part.name <;> simp [namedOf, Part.copies, Part.copy,
    Confidence.isEnabled, Part.channelCopy, Part.plainCopy, Part.leadWith, Part.mapAnnotations,
    named]

theorem namedOf_copiesFrom (confidence : Confidence) (parts : List Part) :
    ∀ index, List.Forall₂ (fun one other => one.1 = other.1 ∧ Value.SameText one.2 other.2)
      (namedOf parts) (namedOf (Query.copiesFrom confidence index parts)) := by
  induction parts with
  | nil => intro index; exact .nil
  | cons part rest ih =>
    intro index
    have later := ih (index + 1)
    have split : namedOf (Query.copiesFrom confidence index (part :: rest)) =
        namedOf (part.copies confidence index) ++
          namedOf (Query.copiesFrom confidence (index + 1) rest) :=
      List.filterMap_append
    rw [split, namedOf_cons, namedOf_copies]
    cases named : part.name with
    | none => exact later
    | some name => exact .cons ⟨rfl, part.sameText_copy confidence index⟩ later

namespace Query

theorem environment_prepared (query : Query) (confidence : Confidence) (overrides : Variables) :
    (query.environment overrides).SameTexts ((query.prepared confidence).environment overrides) := by
  have named : Variables.SameTexts (Bindings.ofList query.namedParts)
      (Bindings.ofList (query.prepared confidence).namedParts) :=
    Bindings.rel_get?_insertAll (namedOf_copiesFrom confidence query.parts 0) fun _ => .none
  exact (named.overlaid query.bindings).overlaid overrides

/-- References are expanded alike in a query and in the one that is sent. -/
theorem resolveWithin_prepared (query : Query) (confidence : Confidence) (overrides : Variables)
    (expansions : Nat) :
    resolveWithin ((query.prepared confidence).environment overrides) expansions =
      resolveWithin (query.environment overrides) expansions :=
  (resolveWithin_congr (query.environment_prepared confidence overrides) expansions).symm

end Query

end MetricQuery
