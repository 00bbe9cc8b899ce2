import MetricQuery.Proofs.DeepDocuments
import MetricQuery.Proofs.WellFormedRuns

/-!
# Texts of queries

A query that is built from well-formed pieces is loaded from its text as it was
saved, without its variables, if its document has no more levels than the reader
of texts opens. A document with more levels is refused, and since each applied
function adds four of them, no chain of 32 functions can be loaded from its text.
-/

set_option autoImplicit false

namespace MetricQuery

/-! ## Written documents are readable -/

theorem Json.allReadable_iff {items : List Json} :
    allReadable items = true ↔ ∀ item ∈ items, item.isReadable = true := by
  induction items with
  | nil => simp [allReadable]
  | cons item rest ih => simp [allReadable, ih]

theorem Json.isReadable_ofFloat (x : Float) : (ofFloat x).isReadable = true := by
  rw [ofFloat]
  split <;> rfl

theorem Metric.isReadable_toJson (metric : Metric) : metric.toJson.isReadable = true := by
  cases metric with
  | all => rfl
  | path segments =>
    rw [toJson, Json.isReadable, Json.allReadable_iff, List.forall_mem_map]
    exact fun _ _ => rfl

theorem Selector.isReadable_toJson (selector : Selector) : selector.toJson.isReadable = true := by
  change Json.allFieldsReadable selector.writtenFields = true
  rw [Json.allFieldsReadable_iff]
  intro field member
  simp only [writtenFields, List.mem_append, List.mem_cons, List.not_mem_nil, or_false,
    Json.mem_optionalField] at member
  rcases member with ((rfl | rfl) | ⟨condition, _, rfl⟩) | ⟨shift, _, rfl⟩
  · rfl
  · exact selector.metric.isReadable_toJson
  · exact condition.isReadable_toJson
  · rfl

theorem Annotations.isReadable_toJson {annotations : Annotations}
    (wellFormed : annotations.WellFormed) : annotations.toJson.isReadable = true := by
  change Json.allFieldsReadable annotations.writtenFields = true
  rw [Json.allFieldsReadable_iff]
  intro field member
  simp only [writtenFields, List.mem_append, Json.mem_optionalField, Json.mem_listField] at member
  rcases member with ((⟨label, _, rfl⟩ | ⟨_, rfl⟩) | ⟨_, rfl⟩) | static
  · rfl
  · rw [Json.isReadable, Json.allReadable_iff, List.forall_mem_map]
    exact fun tag _ => tag.isReadable_toJson
  · rw [Json.isReadable, Json.allReadable_iff, List.forall_mem_map]
    exact fun _ _ => rfl
  · rw [mem_staticsField static, Json.isReadable, Json.allFieldsReadable_iff]
    exact fun entry inside => (wellFormed.statics entry inside).readable

theorem Json.isReadable_single {kind : String} {content : Json}
    (readable : content.isReadable = true) :
    (Json.object [(kind, content)]).isReadable = true := by
  simp [isReadable, allFieldsReadable, readable]

mutual

theorem Value.isReadable_toJson : ∀ value : Value, value.WellFormed →
    value.toJson.isReadable = true
  | .text _ => fun _ => rfl
  | .number x => fun _ => Json.isReadable_single (Json.isReadable_ofFloat x)
  | .selector selector => fun _ => Json.isReadable_single selector.isReadable_toJson
  | .call call => fun wellFormed => Json.isReadable_single (Call.isReadable_toJson call wellFormed)
  | .part part => fun wellFormed => Json.isReadable_single (Part.isReadable_toJson part wellFormed)

theorem Argument.isReadable_toJson : ∀ argument : Argument, argument.WellFormed →
    argument.toJson.isReadable = true
  | .subject | .reference _ => fun _ => rfl
  | .value value => fun wellFormed =>
    Json.isReadable_single (Value.isReadable_toJson value wellFormed)

theorem allReadable_arguments : ∀ arguments : List Argument, argumentsWellFormed arguments →
    Json.allReadable (argumentsToJson arguments) = true
  | [] => fun _ => rfl
  | argument :: rest => by
    intro wellFormed
    rw [argumentsToJson, Json.allReadable, Argument.isReadable_toJson argument wellFormed.1,
      allReadable_arguments rest wellFormed.2]
    rfl

theorem Call.isReadable_toJson : ∀ call : Call, call.WellFormed → call.toJson.isReadable = true
  | ⟨_, arguments⟩ => by
    intro wellFormed
    have read := allReadable_arguments arguments wellFormed
    simp [Call.toJson, Json.isReadable, Json.allFieldsReadable, read]

theorem Part.isReadable_toJson : ∀ part : Part, part.WellFormed → part.toJson.isReadable = true
  | ⟨selector, call, annotations, name, excluded⟩ => by
    intro wellFormed
    have calls := isReadable_callField call wellFormed.2.1
    rw [Part.toJson, Json.isReadable, Json.allFieldsReadable_iff]
    intro field member
    simp only [List.mem_cons, List.mem_append, Json.mem_optionalField,
      Part.mem_excludedField] at member
    rcases member with rfl | called | ⟨held, annotated, rfl⟩ | ⟨_, _, rfl⟩ | ⟨_, rfl⟩
    · exact selector.isReadable_toJson
    · exact calls field called
    · exact Annotations.isReadable_toJson (wellFormed.2.2 held annotated)
    · rfl
    · rfl

theorem isReadable_callField : ∀ call : Option Call, callWellFormed call →
    ∀ field ∈ callField call, field.2.isReadable = true
  | none => fun _ _ member => absurd member List.not_mem_nil
  | some call => by
    intro wellFormed field member
    obtain rfl := List.mem_singleton.1 member
    exact Call.isReadable_toJson call wellFormed

end

theorem Query.isReadable_toJson {query : Query} (wellFormed : query.WellFormed) :
    query.toJson.isReadable = true := by
  rw [toJson_eq, Json.isReadable, Json.allFieldsReadable_iff]
  intro field member
  simp only [writtenFields, List.mem_append, List.mem_singleton, Json.mem_optionalField] at member
  rcases member with (((⟨_, _, rfl⟩ | rfl) | ⟨_, _, rfl⟩) | ⟨_, _, rfl⟩) | ⟨_, _, rfl⟩
  · rfl
  · rw [Json.isReadable, Json.allReadable_iff, List.forall_mem_map]
    exact fun part inside => part.isReadable_toJson (wellFormed.parts part inside)
  · rfl
  · rfl
  · rfl

/-! ## Saving and loading -/

namespace Query

/-- The query that the text of another one describes. -/
def reloaded (query : Query) : Decoded Query :=
  Json.ofText ofJson query.toJson.compact

variable {query : Query}

theorem reloaded_eq (wellFormed : query.WellFormed)
    (numbers : ∀ n ∈ query.toJson.numbers, n.ReadsBack) :
    query.reloaded = ofJson (query.toJson.within Json.textLevels) := by
  have read := Json.readWithin?_compact (isReadable_toJson wellFormed) numbers Json.textLevels
  rw [reloaded, Json.ofText, Json.read?, read]

theorem reloaded_of_levels_le (wellFormed : query.WellFormed)
    (numbers : ∀ n ∈ query.toJson.numbers, n.ReadsBack)
    (enough : query.toJson.levels ≤ Json.textLevels) :
    query.reloaded = .ok query.withoutBindings := by
  rw [reloaded_eq wellFormed numbers, Json.within_of_levels_le _ enough]
  exact ofJson_toJson Json.arranges_id wellFormed

theorem fails_reloaded (wellFormed : query.WellFormed)
    (numbers : ∀ n ∈ query.toJson.numbers, n.ReadsBack)
    (deep : Json.textLevels < query.toJson.levels) : Fails query.reloaded := by
  rw [reloaded_eq wellFormed numbers]
  exact query.needsAll _ deep

end Query

/-! ## Long chains -/

/-- Functions applied to a part, each to what the ones before it made. -/
def Part.applyAll (part : Part) (calls : List (String × List Argument)) : Part :=
  calls.foldl (fun part call => part.apply call.1 call.2) part

def Condition.combineAll (condition : Condition) (joined : List (Condition × Combinator)) :
    Condition :=
  joined.foldl (fun held next => held.combine next.1 next.2) condition

theorem Call.levels_nested (inner : Call) (function : String) (arguments : List Argument) :
    inner.toJson.levels + 4 ≤
      (Call.mk function (.value (.call inner) :: arguments)).toJson.levels := by
  simp only [Call.toJson, argumentsToJson, Argument.toJson, Value.toJson, Json.levels,
    Json.itemsLevels, Json.fieldsLevels]
  omega

/-- Each applied function adds four levels to the call of a part. -/
theorem Part.levels_applyAll (calls : List (String × List Argument)) :
    ∀ (part : Part) (call : Call), part.call = some call →
      ∃ outer, (part.applyAll calls).call = some outer ∧
        call.toJson.levels + 4 * calls.length ≤ outer.toJson.levels := by
  induction calls with
  | nil =>
    intro part call present
    exact ⟨call, present, Nat.le_refl _⟩
  | cons next rest ih =>
    intro part call present
    obtain ⟨function, arguments⟩ := next
    have wrapped : (part.apply function arguments).call =
        some ⟨function, .value (.call call) :: arguments⟩ := by
      simp [Part.apply, present]
    obtain ⟨outer, found, grows⟩ := ih _ _ wrapped
    refine ⟨outer, found, ?_⟩
    have four := Call.levels_nested call function arguments
    rw [List.length_cons]
    omega

theorem Call.two_le_levels (call : Call) : 2 ≤ call.toJson.levels := by
  obtain ⟨function, arguments⟩ := call
  simp only [Call.toJson, Json.levels, Json.fieldsLevels]
  omega

theorem Part.levels_call_lt {part : Part} {call : Call} (present : part.call = some call) :
    call.toJson.levels < part.toJson.levels := by
  have member : ("fn", call.toJson) ∈ part.writtenFields := by
    simp [writtenFields, present, Json.optionalField]
  rw [toJson_eq]
  exact Json.levels_lt_of_mem_fields member

theorem Part.four_mul_le_levels (part : Part) (calls : List (String × List Argument)) :
    4 * calls.length ≤ (part.applyAll calls).toJson.levels + 1 := by
  cases calls with
  | nil => exact Nat.zero_le _
  | cons first rest =>
    obtain ⟨function, arguments⟩ := first
    obtain ⟨call, present⟩ : ∃ call, (part.apply function arguments).call = some call :=
      ⟨_, rfl⟩
    obtain ⟨outer, found, grows⟩ := levels_applyAll rest (part.apply function arguments) call present
    have two := call.two_le_levels
    have inside : outer.toJson.levels <
        (part.applyAll ((function, arguments) :: rest)).toJson.levels := levels_call_lt found
    rw [List.length_cons]
    omega

/-- Each joined condition adds two levels. -/
theorem Condition.levels_combineAll (joined : List (Condition × Combinator)) :
    ∀ condition : Condition, condition.toJson.levels + 2 * joined.length ≤
      (condition.combineAll joined).toJson.levels := by
  induction joined with
  | nil => intro condition; exact Nat.le_refl _
  | cons next rest ih =>
    intro condition
    obtain ⟨given, combinator⟩ := next
    have two : condition.toJson.levels + 2 ≤ (condition.combine given combinator).toJson.levels := by
      cases combinator <;>
        simp only [combine, toJson, node, Json.levels, Json.fieldsLevels, Json.itemsLevels] <;> omega
    have grows := ih (condition.combine given combinator)
    have same : condition.combineAll ((given, combinator) :: rest) =
        (condition.combine given combinator).combineAll rest := rfl
    rw [same, List.length_cons]
    omega

theorem Part.levels_condition_lt {part : Part} {condition : Condition}
    (present : part.selector.condition = some condition) :
    condition.toJson.levels + 1 < part.toJson.levels := by
  have conditionMember : ("condition", condition.toJson) ∈ part.selector.writtenFields := by
    simp [Selector.writtenFields, present, Json.optionalField]
  have selectorMember : ("selector", part.selector.toJson) ∈ part.writtenFields := by
    simp [writtenFields]
  have inner : condition.toJson.levels < part.selector.toJson.levels :=
    Json.levels_lt_of_mem_fields conditionMember
  have outer := Json.levels_lt_of_mem_fields selectorMember
  rw [← toJson_eq] at outer
  omega

theorem Query.levels_part_lt {query : Query} {part : Part} (member : part ∈ query.parts) :
    part.toJson.levels + 1 < query.toJson.levels := by
  have partsMember : ("parts", .array (query.parts.map Part.toJson)) ∈ query.writtenFields := by
    simp [writtenFields]
  have inner : part.toJson.levels < (Json.array (query.parts.map Part.toJson)).levels :=
    Json.levels_lt_of_mem_items (List.mem_map_of_mem member)
  have outer := Json.levels_lt_of_mem_fields partsMember
  rw [← toJson_eq] at outer
  omega

namespace Query

/-- What the steps make of a query in which nothing has been set. -/
def built (steps : List Step) : Query :=
  (Builder.run steps (.whole empty)).query

theorem wellFormed_built {steps : List Step} (given : ∀ step ∈ steps, step.WellFormed) :
    (built steps).WellFormed := by
  have valid : (Builder.whole empty).Valid := trivial
  exact Builder.run_wellFormed given valid wellFormed_empty

/-- A part with 32 functions, each applied to the one before, has too many levels
for a text, and so has one with 62 conditions joined to a condition. -/
theorem textLevels_lt_of_chain {query : Query} {part : Part} (member : part ∈ query.parts)
    (chain : (∃ start calls, part = Part.applyAll start calls ∧ 32 ≤ calls.length) ∨
      ∃ start joined, part.selector.condition = some (Condition.combineAll start joined) ∧
        62 ≤ joined.length) :
    Json.textLevels < query.toJson.levels := by
  have outer := levels_part_lt member
  have limit : Json.textLevels = 127 := rfl
  rcases chain with ⟨start, calls, rfl, long⟩ | ⟨start, joined, present, long⟩
  · have inner := start.four_mul_le_levels calls
    omega
  · have inner := Part.levels_condition_lt present
    have grows := Condition.levels_combineAll joined start
    have object : 1 ≤ start.toJson.levels := by
      cases start <;> exact Nat.succ_le_succ (Nat.zero_le _)
    omega

/-- A query that is built by well-formed steps, whose numbers are read back, is
loaded from its text without its variables if its document has at most the levels
that the reader opens, and refused otherwise: however it is built, a part with a
chain of 32 functions or of 62 joined conditions is not loaded again. -/
theorem built_reloaded (steps : List Step) (given : ∀ step ∈ steps, step.WellFormed)
    (numbers : ∀ n ∈ (built steps).toJson.numbers, n.ReadsBack) :
    ((built steps).toJson.levels ≤ Json.textLevels →
      (built steps).reloaded = .ok (built steps).withoutBindings) ∧
    (Json.textLevels < (built steps).toJson.levels → Fails (built steps).reloaded) ∧
    ∀ part ∈ (built steps).parts,
      ((∃ start calls, part = Part.applyAll start calls ∧ 32 ≤ calls.length) ∨
        ∃ start joined, part.selector.condition = some (Condition.combineAll start joined) ∧
          62 ≤ joined.length) →
      Fails (built steps).reloaded := by
  have wellFormed := wellFormed_built given
  refine ⟨reloaded_of_levels_le wellFormed numbers, fails_reloaded wellFormed numbers, ?_⟩
  intro part member chain
  exact fails_reloaded wellFormed numbers (textLevels_lt_of_chain member chain)

def shortRun : List Step :=
  [.fromCollection "org", .select (.segments ["cpu", "load"]),
    .part (.combineFilter (.equals ⟨some "dl", "host"⟩ "a") .and),
    .part (.combineFilter (.present ⟨none, "rack"⟩) .or),
    .part (.apply "scale" [.value (.number 2.5), .reference "factor"]), .part (.nameBy "load"),
    .part (.annotateWithStatic "unit" (.string "%")), .bind "factor" (.number 2),
    .last ⟨60000⟩]

theorem built_reloaded_shortRun :
    (∀ step ∈ shortRun, step.WellFormed) ∧ (∀ n ∈ (built shortRun).toJson.numbers, n.ReadsBack) ∧
      (built shortRun).toJson.levels = 9 ∧
      (built shortRun).reloaded = .ok (built shortRun).withoutBindings := by
  have given : ∀ step ∈ shortRun, step.WellFormed := by
    simp only [shortRun, List.forall_mem_cons]
    have number : (2.5 : Float).isFinite = true := by decide +kernel
    refine ⟨trivial, trivial, ?_, ?_, ?_, trivial, ⟨rfl, rfl⟩, trivial, ?_, by simp⟩
    · exact (by decide : some "dl" ≠ some "")
    · exact (by decide : none ≠ some "")
    · exact argumentsWellFormed_iff.1 ⟨number, trivial, trivial⟩
    · exact ⟨by decide, by decide⟩
  have numbers : ∀ n ∈ (built shortRun).toJson.numbers, n.ReadsBack := by
    have all : (built shortRun).toJson.numbers = [.real 2.5, .integer 60000] := by decide +kernel
    have text : Json.writeNumber (.real 2.5) = "2.5" := by decide +kernel
    rw [all]
    simp only [List.forall_mem_cons]
    refine ⟨⟨⟨false, ['2'], ['5'], none⟩, ?_, by decide +kernel⟩, ?_, by simp⟩
    · rw [text]
      rfl
    · exact JsonNumber.readsBack_integer (by decide) (by decide)
  have levels : (built shortRun).toJson.levels = 9 := by decide +kernel
  exact ⟨given, numbers, levels, (built_reloaded shortRun given numbers).1 (by decide +kernel)⟩

/-- A query with a chain of 32 functions is built and saved, but not loaded again from
its text, although its document is read back. -/
theorem not_reloaded_of_chain :
    let steps : List Step := [.fromCollection "org", .select (.segments ["cpu"])] ++
      List.replicate 32 (.part (.apply "avg" []))
    (∀ step ∈ steps, step.WellFormed) ∧ (built steps).toJson.numbers = [] ∧
      ofJson (built steps).toJson.sorted = .ok (built steps).withoutBindings ∧
      Fails (built steps).reloaded := by
  intro steps
  have given : ∀ step ∈ steps, step.WellFormed := by
    intro step member
    rcases List.mem_append.1 member with first | chain
    · simp only [List.mem_cons, List.not_mem_nil, or_false] at first
      rcases first with rfl | rfl <;> trivial
    · rw [List.eq_of_mem_replicate chain]
      exact fun _ member => absurd member List.not_mem_nil
  have none : (built steps).toJson.numbers = [] := by decide +kernel
  refine ⟨given, none, ofJson_toJson Json.arranges_sorted (wellFormed_built given), ?_⟩
  apply fails_reloaded (wellFormed_built given)
  · rw [none]
    exact fun _ member => absurd member List.not_mem_nil
  · decide +kernel

end Query

end MetricQuery
