import MetricQuery.Proofs.Structures
import MetricQuery.Proofs.WellFormed

/-!
# Documents of selectors are read back

Tags, metrics, conditions and selectors that are well-formed are read back from
any arrangement of their documents, and whatever is read is well-formed.
-/

set_option autoImplicit false

namespace MetricQuery

open Json (Arranges)

variable {form : Json → Json}

/-! ## Tags and metrics -/

theorem Tag.ofPair_of_wellFormed {tag : Tag} (wellFormed : tag.WellFormed) :
    ofPair tag.scope tag.name = tag := by
  rw [ofPair, if_neg wellFormed]

theorem Tag.ofJson_toJson (arranges : Arranges form) {tag : Tag} (wellFormed : tag.WellFormed) :
    Tag.ofJson (form tag.toJson) = .ok tag := by
  have scope : (form (tag.scope.elim .null .string)).asOptional Json.asString = .ok tag.scope := by
    cases tag.scope with
    | none => rw [Option.elim_none, arranges.null]; rfl
    | some scope => exact Json.asOptional_of_ok rfl (arranges.asString scope)
  rw [toJson, arranges.array, List.map_cons, List.map_singleton, ofJson, scope,
    arranges.asString]
  exact congrArg Except.ok (ofPair_of_wellFormed wellFormed)

theorem Tag.isReadable_toJson (tag : Tag) : tag.toJson.isReadable = true := by
  obtain ⟨scope, name⟩ := tag
  cases scope <;> rfl

theorem Tag.wellFormed_ofPair (scope : Option String) (name : String) :
    (ofPair scope name).WellFormed := by
  unfold WellFormed ofPair
  split
  · simp
  · assumption

theorem Tag.wellFormed_of_ofJson {document : Json} {tag : Tag}
    (success : Tag.ofJson document = .ok tag) : tag.WellFormed := by
  unfold ofJson at success
  split at success
  · split at success
    · obtain rfl := Except.ok.inj success
      exact wellFormed_ofPair _ _
    · cases success
  · cases success

theorem Metric.ofJson_toJson (arranges : Arranges form) {metric : Metric}
    (wellFormed : metric.WellFormed) : Metric.ofJson (form metric.toJson) = .ok metric := by
  cases metric with
  | all =>
    rw [toJson, arranges.string]
    rfl
  | path segments =>
    have read : ((segments.map Json.string).map form).mapM Json.asString = .ok segments := by
      rw [mapM_eq_ok_iff, List.forall₂_map_left_iff, List.forall₂_map_left_iff, List.forall₂_same]
      exact fun segment _ => arranges.asString segment
    obtain ⟨segment, rest, rfl⟩ := List.exists_cons_of_ne_nil wellFormed
    rw [toJson, arranges.array, ofJson, read]
    rfl

theorem Metric.wellFormed_of_ofJson {document : Json} {metric : Metric}
    (success : Metric.ofJson document = .ok metric) : metric.WellFormed := by
  unfold ofJson at success
  split at success
  · unfold ofWord at success
    split at success
    · obtain rfl := Except.ok.inj success
      trivial
    · cases success
  · split at success
    · rename_i segments _
      cases segments with
      | nil => cases success
      | cons segment rest =>
        obtain rfl := Except.ok.inj success
        exact List.cons_ne_nil _ _
    · cases success
  · cases success

/-! ## Conditions -/

namespace Condition

theorem isReadable_pair {first second : Json} (one : first.isReadable = true)
    (other : second.isReadable = true) : (Json.array [first, second]).isReadable = true := by
  simp [Json.isReadable, Json.allReadable, one, other]

theorem isReadable_node (operator : String) {first second : Json}
    (one : first.isReadable = true) (other : second.isReadable = true) :
    (node operator [first, second]).isReadable = true := by
  simp [node, Json.isReadable, Json.allReadable, Json.allFieldsReadable, one, other]

theorem isReadable_toJson (condition : Condition) : condition.toJson.isReadable = true := by
  induction condition with
  | equals tag value | differs tag value => exact isReadable_node _ tag.isReadable_toJson rfl
  | present tag =>
    simp [toJson, Json.isReadable, Json.allFieldsReadable, tag.isReadable_toJson]
  | and left right leftReadable rightReadable | or left right leftReadable rightReadable =>
    exact isReadable_node _ leftReadable rightReadable
  | unknown => rfl

/-- Operator and arguments are found in either order. -/
theorem ofJson_pair (arranges : Arranges form) (operator : String) {arguments : Json}
    (readable : arguments.isReadable = true) :
    ofJson (form (.object [("op", .string operator), ("args", arguments)])) =
      ofArguments (.ofName operator) (form arguments) := by
  have moved := arranges.readable arguments readable
  rcases arranges.pair (by decide : "op" ≠ "args") (.string operator) arguments with same | swapped
  · rw [same, arranges.string, ofJson]
    rfl
  · have found : operatorOf [("args", form arguments), ("op", .string operator)] =
        .ok (.ofName operator) := by
      simp only [operatorOf]
      simp [moved, Json.asCaseName, Except.map]
    rw [swapped, arranges.string, ofJson, found]
    rfl

theorem ofJson_node (arranges : Arranges form) (operator : String) {first second : Json}
    (one : first.isReadable = true) (other : second.isReadable = true) :
    ofJson (form (node operator [first, second])) =
      ofArguments (.ofName operator) (.array [form first, form second]) := by
  rw [node, ofJson_pair arranges operator (isReadable_pair one other), arranges.array]
  rfl

theorem ofJson_toJson (arranges : Arranges form) {condition : Condition}
    (wellFormed : condition.WellFormed) : ofJson (form condition.toJson) = .ok condition := by
  induction condition with
  | equals tag value =>
    rw [toJson, ofJson_node arranges "eq" tag.isReadable_toJson rfl, arranges.string]
    show ofArguments .equals _ = _
    rw [ofArguments, Tag.ofJson_toJson arranges wellFormed]
    rfl
  | differs tag value =>
    rw [toJson, ofJson_node arranges "neq" tag.isReadable_toJson rfl, arranges.string]
    show ofArguments .differs _ = _
    rw [ofArguments, Tag.ofJson_toJson arranges wellFormed]
    rfl
  | present tag =>
    rw [toJson, ofJson_pair arranges "present" tag.isReadable_toJson]
    show ofArguments .present _ = _
    rw [ofArguments, Tag.ofJson_toJson arranges wellFormed]
    rfl
  | and left right leftRead rightRead =>
    rw [toJson, ofJson_node arranges "and" left.isReadable_toJson right.isReadable_toJson]
    show ofArguments .and _ = _
    rw [ofArguments, leftRead wellFormed.1, rightRead wellFormed.2]
  | or left right leftRead rightRead =>
    rw [toJson, ofJson_node arranges "or" left.isReadable_toJson right.isReadable_toJson]
    show ofArguments .or _ = _
    rw [ofArguments, leftRead wellFormed.1, rightRead wellFormed.2]
  | unknown =>
    rw [toJson, arranges.single, arranges.string]
    rfl

/-- What arguments give: a condition of a tag, or of two conditions, or an unknown one. -/
theorem ofArguments_eq_ok {operator : Operator} {arguments : Json} {condition : Condition}
    (success : ofArguments operator arguments = .ok condition) :
    (∃ document tag value, arguments.HasPiece document ∧ Tag.ofJson document = .ok tag ∧
      (condition = .equals tag value ∨ condition = .differs tag value ∨
        condition = .present tag)) ∨
    (∃ first second left right, arguments = .array [first, second] ∧
      ofJson first = .ok left ∧ ofJson second = .ok right ∧
      (condition = .and left right ∨ condition = .or left right)) ∨
    condition = .unknown := by
  unfold ofArguments at success
  split at success
  · split at success
    · rename_i read _
      exact Or.inl ⟨_, _, _, .single List.mem_cons_self, read, Or.inl (Except.ok.inj success).symm⟩
    · cases success
  · split at success
    · rename_i read _
      exact Or.inl ⟨_, _, _, .single List.mem_cons_self, read,
        Or.inr (Or.inl (Except.ok.inj success).symm)⟩
    · cases success
  · obtain ⟨tag, read, same⟩ := map_eq_ok success
    exact Or.inl ⟨_, tag, "", .refl, read, Or.inr (Or.inr same.symm)⟩
  · split at success
    · rename_i left right
      exact Or.inr (Or.inl ⟨_, _, _, _, rfl, left, right, Or.inl (Except.ok.inj success).symm⟩)
    · cases success
  · split at success
    · rename_i left right
      exact Or.inr (Or.inl ⟨_, _, _, _, rfl, left, right, Or.inr (Except.ok.inj success).symm⟩)
    · cases success
  · exact Or.inr (Or.inr (Except.ok.inj success).symm)
  · cases success

theorem ofFields_eq_ok {operator : Operator} {fields : List (String × Json)}
    {condition : Condition} (success : ofFields operator fields = .ok condition) :
    condition = .unknown ∨
      ∃ arguments, ("args", arguments) ∈ fields ∧ ofArguments operator arguments = .ok condition := by
  induction fields with
  | nil =>
    rw [ofFields] at success
    split at success
    · exact Or.inl (Except.ok.inj success).symm
    · cases success
  | cons field rest ih =>
    obtain ⟨name, value⟩ := field
    rw [ofFields] at success
    split at success
    · rename_i same
      subst same
      exact Or.inr ⟨value, List.mem_cons_self, success⟩
    · rcases ih success with unknown | ⟨arguments, member, found⟩
      · exact Or.inl unknown
      · exact Or.inr ⟨arguments, List.mem_cons_of_mem _ member, found⟩

theorem ofJson_eq_ok {document : Json} {condition : Condition}
    (success : ofJson document = .ok condition) :
    condition = .unknown ∨ ∃ operator, ∃ arguments ∈ document.pieces,
      ofArguments operator arguments = .ok condition := by
  unfold ofJson at success
  split at success
  · split at success
    · exact Or.inr ⟨_, _, List.mem_cons_of_mem _ List.mem_cons_self, success⟩
    · cases success
  · split at success
    · rcases ofFields_eq_ok success with unknown | ⟨arguments, member, found⟩
      · exact Or.inl unknown
      · exact Or.inr ⟨_, arguments, Json.mem_pieces_of_mem member (by decide), found⟩
    · cases success
  · cases success

theorem wellFormed_of_ofJson {condition : Condition} :
    ∀ {document : Json}, ofJson document = .ok condition → condition.WellFormed := by
  induction condition with
  | equals tag value | differs tag value | present tag =>
    intro document success
    rcases ofJson_eq_ok success with unknown | ⟨operator, arguments, _, found⟩
    · cases unknown
    · rcases ofArguments_eq_ok found with ⟨_, _, _, _, read, same⟩ | ⟨_, _, _, _, _, _, _, same⟩ | same
      · have own := Tag.wellFormed_of_ofJson read
        rcases same with same | same | same <;> cases same
        exact own
      · rcases same with same | same <;> cases same
      · cases same
  | and left right leftWell rightWell | or left right leftWell rightWell =>
    intro document success
    rcases ofJson_eq_ok success with unknown | ⟨operator, arguments, _, found⟩
    · cases unknown
    · rcases ofArguments_eq_ok found with ⟨_, _, _, _, _, same⟩ | ⟨_, _, _, _, _, one, other, same⟩ | same
      · rcases same with same | same | same <;> cases same
      · rcases same with same | same <;> cases same
        exact ⟨leftWell one, rightWell other⟩
      · cases same
  | unknown => intro document success; trivial

end Condition

/-! ## Selectors -/

theorem Timeshift.ofJson_toJson (arranges : Arranges form) (shift : Timeshift) :
    ofJson (form shift.toJson) = .ok shift := by
  rw [toJson, arranges.single, arranges.string]
  rfl

namespace Selector

def writtenFields (selector : Selector) : List (String × Json) :=
  [("collection", .string selector.collection), ("metric", selector.metric.toJson)] ++
    Json.optionalField "condition" Condition.toJson selector.condition ++
    Json.optionalField "timeshift" Timeshift.toJson selector.timeshift

def draftOf (selector : Selector) (seen : String → Bool) : Draft where
  collection := if seen "collection" then some selector.collection else none
  metric := if seen "metric" then some selector.metric else none
  condition := if seen "condition" then selector.condition else none
  timeshift := if seen "timeshift" then selector.timeshift else none

theorem names_writtenFields (selector : Selector) :
    (selector.writtenFields.map Prod.fst).Nodup := by
  rw [writtenFields, List.map_append, List.map_append]
  exact (((List.Sublist.refl _).append (Json.names_optionalField _ _ _)).append
    (Json.names_optionalField _ _ _)).nodup (by decide : fieldNames.Nodup)

theorem setField_draftOf (arranges : Arranges form) {selector : Selector}
    (wellFormed : selector.WellFormed) (seen : String → Bool) :
    ∀ field ∈ selector.writtenFields,
      setField (selector.draftOf seen) field.1 (form field.2) =
        .ok (selector.draftOf fun name => field.1 == name || seen name) := by
  intro field member
  simp only [writtenFields, List.mem_append, List.mem_cons, List.not_mem_nil, or_false,
    Json.mem_optionalField] at member
  rcases member with ((rfl | rfl) | ⟨condition, held, rfl⟩) | ⟨shift, held, rfl⟩
  · simp [setField, arranges.asString, draftOf, Except.map]
  · simp [setField, Metric.ofJson_toJson arranges wellFormed.metric, draftOf, Except.map]
  · have read := Json.asOptional_of_ok rfl
      (Condition.ofJson_toJson arranges (wellFormed.condition condition held))
    simp [setField, read, draftOf, Except.map, held]
  · have read := Json.asOptional_of_ok rfl (Timeshift.ofJson_toJson arranges shift)
    simp [setField, read, draftOf, Except.map, held]

theorem finish_draftOf (selector : Selector) :
    (selector.draftOf fun name => selector.writtenFields.any fun field => field.1 == name).finish =
      .ok selector := by
  obtain ⟨collection, metric, condition, timeshift⟩ := selector
  cases condition <;> cases timeshift <;>
    simp [draftOf, writtenFields, Json.optionalField, Draft.finish]

theorem ofJson_toJson (arranges : Arranges form) {selector : Selector}
    (wellFormed : selector.WellFormed) : ofJson (form selector.toJson) = .ok selector := by
  have read := arranges.asStructure fieldNames selector.draftOf rfl selector.names_writtenFields
    (setField_draftOf arranges wellFormed)
  have start : (selector.draftOf fun _ => false) = {} := rfl
  rw [ofJson, show selector.toJson = .object selector.writtenFields from rfl, ← start, read]
  exact selector.finish_draftOf

structure Draft.WellFormed (draft : Draft) : Prop where
  metric : ∀ metric, draft.metric = some metric → metric.WellFormed
  condition : ∀ condition, draft.condition = some condition → condition.WellFormed

theorem setField_wellFormed {draft next : Draft} {name : String} {value : Json}
    (wellFormed : draft.WellFormed) (success : setField draft name value = .ok next) :
    next.WellFormed := by
  obtain ⟨metric, condition⟩ := wellFormed
  unfold setField at success
  split at success
  · obtain ⟨given, _, rfl⟩ := map_eq_ok success
    exact ⟨metric, condition⟩
  · obtain ⟨given, read, rfl⟩ := map_eq_ok success
    obtain ⟨found, own, rfl⟩ := bind_some_eq_ok read
    refine ⟨?_, condition⟩
    rintro _ ⟨⟩
    exact Metric.wellFormed_of_ofJson own
  · obtain ⟨given, read, rfl⟩ := map_eq_ok success
    exact ⟨metric, fun held same =>
      Condition.wellFormed_of_ofJson (Json.asOptional_eq_ok read held same)⟩
  · obtain ⟨given, _, rfl⟩ := map_eq_ok success
    exact ⟨metric, condition⟩
  · obtain rfl := Except.ok.inj success
    exact ⟨metric, condition⟩

theorem wellFormed_of_ofJson {document : Json} {selector : Selector}
    (success : ofJson document = .ok selector) : selector.WellFormed := by
  unfold ofJson at success
  split at success
  · rename_i draft read
    have wellFormed : draft.WellFormed :=
      Json.asStructure_invariant Draft.WellFormed
        (fun _ _ _ _ _ wellFormed success => setField_wellFormed wellFormed success)
        ⟨by simp, by simp⟩ read
    unfold Draft.finish at success
    split at success
    · obtain rfl := Except.ok.inj success
      exact ⟨wellFormed.metric _ rfl, wellFormed.condition⟩
    · cases success
  · cases success

end Selector

end MetricQuery
