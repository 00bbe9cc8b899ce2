import MetricQuery.Proofs.AnnotationDocuments
import MetricQuery.Proofs.FiniteNumbers

/-!
# Documents of expressions are read back

Calls and parts are structures like the others, whose fields hold values and
arguments again. Values, arguments, calls and parts are read back together, by
induction on the expression; that they are well-formed when they are read is
shown by induction on the size of the document.
-/

set_option autoImplicit false

namespace MetricQuery

open Json (Arranges)

variable {form : Json → Json}

/-! ## Calls and parts as structures -/

theorem argumentsToJson_eq (arguments : List Argument) :
    argumentsToJson arguments = arguments.map Argument.toJson := by
  induction arguments with
  | nil => rfl
  | cons argument rest ih => rw [argumentsToJson, ih, List.map_cons]

theorem argumentsOfJson_eq (items : List Json) :
    argumentsOfJson items = items.mapM Argument.ofJson := by
  induction items with
  | nil => rfl
  | cons item rest ih =>
    rw [argumentsOfJson, ih, mapM_cons_eq]
    cases Argument.ofJson item <;> rfl

namespace Call

def setDocument (draft : Draft) (name : String) (value : Json) : Decoded Draft :=
  setField draft name value fun _ => value.asList Argument.ofJson

def argumentsIn : Json → Decoded (List Argument)
  | .array items => argumentsOfJson items
  | _ => malformed

theorem argumentsIn_eq (value : Json) : argumentsIn value = value.asList Argument.ofJson := by
  cases value with
  | array items => exact argumentsOfJson_eq items
  | _ => rfl

theorem callOfFields_cons (draft : Draft) (name : String) (value : Json)
    (rest : List (String × Json)) :
    callOfFields draft ((name, value) :: rest) =
      match setDocument draft name value with
      | .ok draft => callOfFields draft rest
      | .error fault => .error fault := by
  rw [setDocument, ← argumentsIn_eq]
  cases value <;> rfl

theorem callOfFields_eq (fields : List (String × Json)) :
    ∀ draft, callOfFields draft fields =
      fields.foldlM (fun draft field => setDocument draft field.1 field.2) draft := by
  induction fields with
  | nil => intro draft; rfl
  | cons field rest ih =>
    intro draft
    rw [callOfFields_cons, List.foldlM_cons]
    cases setDocument draft field.1 field.2 with
    | error fault => rfl
    | ok next => exact ih next

theorem ofJson_object (fields : List (String × Json)) :
    ofJson (.object fields) =
      if Json.repeatsField fieldNames fields then malformed
      else
        match callOfFields {} fields with
        | .ok draft => draft.finish
        | .error fault => .error fault :=
  rfl

theorem ofJson_array (function : String) (arguments : List Json) :
    ofJson (.array [.string function, .array arguments]) =
      match argumentsOfJson arguments with
      | .ok arguments => .ok ⟨function, arguments⟩
      | .error fault => .error fault := by
  rw [ofJson]
  cases argumentsOfJson arguments <;> rfl

theorem ofJson_eq (document : Json) :
    ofJson document =
      match document.asStructure fieldNames {} setDocument with
      | .ok draft => draft.finish
      | .error fault => .error fault := by
  cases document with
  | object fields =>
    rw [ofJson_object, callOfFields_eq, Json.asStructure, Json.structureFields]
    cases Json.repeatsField fieldNames fields <;> rfl
  | array items =>
    rcases items with _ | ⟨function, _ | ⟨arguments, _ | ⟨third, rest⟩⟩⟩
    · rfl
    · cases function <;> rfl
    · cases function with
      | string function =>
        cases arguments with
        | array arguments =>
          have read : (Json.array [.string function, .array arguments]).asStructure fieldNames {}
              setDocument =
                (setDocument ⟨some function, none⟩ "args" (.array arguments)).bind .ok :=
            rfl
          have set : setDocument ⟨some function, none⟩ "args" (.array arguments) =
              (do
                let given ← arguments.mapM Argument.ofJson
                pure (some given)).map fun given => ⟨some function, given⟩ :=
            rfl
          rw [ofJson_array, argumentsOfJson_eq, read, set]
          cases arguments.mapM Argument.ofJson <;> rfl
        | _ => rfl
      | _ => cases arguments <;> rfl
    · have long : fieldNames.length < (function :: arguments :: third :: rest).length := by
        simp [fieldNames]
      have opened : ofJson (.array (function :: arguments :: third :: rest)) = malformed := by
        cases arguments <;> rfl
      rw [opened, Json.asStructure, Json.structureFields, if_pos long]
      rfl
  | _ => rfl

end Call

namespace Part

def setDocument (draft : Draft) (name : String) (value : Json) : Decoded Draft :=
  setField draft name value fun _ => Call.ofJson value

theorem partOfFields_eq (fields : List (String × Json)) :
    ∀ draft, partOfFields draft fields =
      fields.foldlM (fun draft field => setDocument draft field.1 field.2) draft := by
  induction fields with
  | nil => intro draft; rfl
  | cons field rest ih =>
    intro draft
    obtain ⟨name, value⟩ := field
    rw [partOfFields, ← setDocument, List.foldlM_cons]
    cases setDocument draft name value with
    | error fault => rfl
    | ok next => exact ih next

theorem partOfItems_eq (items : List Json) :
    ∀ names draft, partOfItems draft names items =
      (names.zip items).foldlM (fun draft field => setDocument draft field.1 field.2) draft := by
  induction items with
  | nil =>
    intro names draft
    cases names <;> rfl
  | cons item rest ih =>
    intro names draft
    cases names with
    | nil => rfl
    | cons name names =>
      rw [partOfItems, ← setDocument, List.zip_cons_cons, List.foldlM_cons]
      cases setDocument draft name item with
      | error fault => rfl
      | ok next => exact ih names next

theorem ofJson_eq (document : Json) :
    ofJson document =
      match document.asStructure fieldNames {} setDocument with
      | .ok draft => draft.finish
      | .error fault => .error fault := by
  cases document with
  | object fields =>
    rw [ofJson, partOfFields_eq, Json.asStructure, Json.structureFields]
    cases Json.repeatsField fieldNames fields <;> rfl
  | array items =>
    rw [ofJson, partOfItems_eq, Json.asStructure, Json.structureFields]
    split <;> rfl
  | _ => rfl

end Part

/-! ## Writing and reading -/

namespace Call

def writtenFields (call : Call) : List (String × Json) :=
  [("fun", .string call.function), ("args", .array (call.arguments.map Argument.toJson))]

def draftOf (call : Call) (seen : String → Bool) : Draft where
  function := if seen "fun" then some call.function else none
  arguments := if seen "args" then some call.arguments else none

theorem toJson_eq (call : Call) : call.toJson = .object call.writtenFields := by
  obtain ⟨function, arguments⟩ := call
  rw [toJson, argumentsToJson_eq, writtenFields]

theorem setDocument_draftOf (arranges : Arranges form) {call : Call}
    (readBack : ∀ argument ∈ call.arguments,
      Argument.ofJson (form argument.toJson) = .ok argument) (seen : String → Bool) :
    ∀ field ∈ call.writtenFields,
      setDocument (call.draftOf seen) field.1 (form field.2) =
        .ok (call.draftOf fun name => field.1 == name || seen name) := by
  intro field member
  simp only [writtenFields, List.mem_cons, List.not_mem_nil, or_false] at member
  rcases member with rfl | rfl
  · simp [setDocument, setField, arranges.asString, draftOf, Except.map]
  · have read := arranges.asList readBack
    simp [setDocument, setField, read, draftOf, Except.map]

theorem ofJson_toJson_of (arranges : Arranges form) {call : Call}
    (readBack : ∀ argument ∈ call.arguments,
      Argument.ofJson (form argument.toJson) = .ok argument) :
    ofJson (form call.toJson) = .ok call := by
  have names : (call.writtenFields.map Prod.fst).Nodup := (by decide : fieldNames.Nodup)
  have read := arranges.asStructure fieldNames call.draftOf rfl names
    (setDocument_draftOf arranges readBack)
  have start : (call.draftOf fun _ => false) = {} := rfl
  rw [ofJson_eq, toJson_eq, ← start, read]
  obtain ⟨function, arguments⟩ := call
  simp [draftOf, writtenFields, Draft.finish]

end Call

namespace Part

def writtenFields (part : Part) : List (String × Json) :=
  [("selector", part.selector.toJson)] ++ Json.optionalField "fn" Call.toJson part.call ++
    Json.optionalField "annotations" Annotations.toJson part.annotations ++
    Json.optionalField "name" .string part.name ++ excludedField part.excluded

def draftOf (part : Part) (seen : String → Bool) : Draft where
  selector := if seen "selector" then some part.selector else none
  call := if seen "fn" then part.call else none
  annotations := if seen "annotations" then part.annotations else none
  name := if seen "name" then part.name else none
  excluded := if seen "excluded" then part.excluded else false

theorem toJson_eq (part : Part) : part.toJson = .object part.writtenFields := by
  obtain ⟨selector, call, annotations, name, excluded⟩ := part
  have calls : callField call = Json.optionalField "fn" Call.toJson call := by
    cases call <;> rfl
  rw [toJson, calls, writtenFields]
  simp only [List.append_assoc, List.cons_append, List.nil_append]

theorem mem_excludedField {excluded : Bool} {field : String × Json} :
    field ∈ excludedField excluded ↔ excluded = true ∧ field = ("excluded", .bool true) := by
  cases excluded <;> simp [excludedField]

theorem names_writtenFields (part : Part) : (part.writtenFields.map Prod.fst).Nodup := by
  have excluded : ((excludedField part.excluded).map Prod.fst).Sublist ["excluded"] := by
    cases part.excluded with
    | true => exact List.Sublist.refl _
    | false => exact List.nil_sublist _
  rw [writtenFields, List.map_append, List.map_append, List.map_append, List.map_append]
  exact (((((List.Sublist.refl _).append (Json.names_optionalField _ _ _)).append
    (Json.names_optionalField _ _ _)).append (Json.names_optionalField _ _ _)).append
      excluded).nodup (by decide : fieldNames.Nodup)

theorem setDocument_draftOf (arranges : Arranges form) {part : Part}
    (selector : part.selector.WellFormed)
    (call : ∀ call, part.call = some call → Call.ofJson (form call.toJson) = .ok call)
    (annotations : ∀ annotations, part.annotations = some annotations → annotations.WellFormed)
    (seen : String → Bool) :
    ∀ field ∈ part.writtenFields,
      setDocument (part.draftOf seen) field.1 (form field.2) =
        .ok (part.draftOf fun name => field.1 == name || seen name) := by
  intro field member
  simp only [writtenFields, List.mem_append, List.mem_singleton, Json.mem_optionalField,
    mem_excludedField] at member
  rcases member with (((rfl | ⟨held, called, rfl⟩) | ⟨held, annotated, rfl⟩) |
    ⟨held, named, rfl⟩) | ⟨excluded, rfl⟩
  · simp [setDocument, setField, Selector.ofJson_toJson arranges selector, draftOf, Except.map]
  · have read := (Json.asOptional_const _ _).trans
      (Json.asOptional_of_ok (by rfl) (call held called))
    simp [setDocument, setField, read, draftOf, Except.map, called]
  · have read := Json.asOptional_of_ok rfl
      (Annotations.ofJson_toJson arranges (annotations held annotated))
    simp [setDocument, setField, read, draftOf, Except.map, annotated]
  · have read := Json.asOptional_of_ok rfl (arranges.asString held)
    simp [setDocument, setField, read, draftOf, Except.map, named]
  · simp [setDocument, setField, arranges.bool, Json.asBool, draftOf, Except.map, excluded]

theorem finish_draftOf (part : Part) :
    (part.draftOf fun name => part.writtenFields.any fun field => field.1 == name).finish =
      .ok part := by
  obtain ⟨selector, call, annotations, name, excluded⟩ := part
  have any_excluded : ∀ key, (excludedField excluded).any (fun field => field.1 == key) =
      (excluded && "excluded" == key) := by
    intro key
    cases excluded <;> simp [excludedField]
  have marked : (if excluded then excluded else false) = excluded := by
    cases excluded <;> rfl
  simp only [draftOf, writtenFields, List.any_append, Json.any_optionalField, any_excluded]
  simp [Draft.finish, marked]

theorem ofJson_toJson_of (arranges : Arranges form) {part : Part}
    (selector : part.selector.WellFormed)
    (call : ∀ call, part.call = some call → Call.ofJson (form call.toJson) = .ok call)
    (annotations : ∀ annotations, part.annotations = some annotations → annotations.WellFormed) :
    ofJson (form part.toJson) = .ok part := by
  have read := arranges.asStructure fieldNames part.draftOf rfl part.names_writtenFields
    (setDocument_draftOf arranges selector call annotations)
  have start : (part.draftOf fun _ => false) = {} := rfl
  rw [ofJson_eq, toJson_eq, ← start, read]
  exact part.finish_draftOf

end Part

/-! ## Expressions -/

theorem Json.asFloat_ofFloat {x : Float} (finite : x.isFinite = true) (arranges : Arranges form) :
    (form (Json.ofFloat x)).asFloat = .ok x := by
  rw [Json.ofFloat, if_pos finite, arranges.number]
  rfl

mutual

theorem Value.ofJson_toJson (arranges : Arranges form) : ∀ value : Value, value.WellFormed →
    Value.ofJson (form value.toJson) = .ok value
  | .text text => by
    intro _
    rw [Value.toJson, arranges.single, Value.ofJson, arranges.asString]
    rfl
  | .number x => by
    intro finite
    rw [Value.toJson, arranges.single, Value.ofJson, Json.asFloat_ofFloat finite arranges]
    rfl
  | .selector selector => by
    intro wellFormed
    rw [Value.toJson, arranges.single, Value.ofJson, Selector.ofJson_toJson arranges wellFormed]
    rfl
  | .call call => by
    intro wellFormed
    rw [Value.toJson, arranges.single, Value.ofJson, Call.ofJson_toJson arranges call wellFormed]
    rfl
  | .part part => by
    intro wellFormed
    rw [Value.toJson, arranges.single, Value.ofJson, Part.ofJson_toJson arranges part wellFormed]
    rfl

theorem Argument.ofJson_toJson (arranges : Arranges form) : ∀ argument : Argument,
    argument.WellFormed → Argument.ofJson (form argument.toJson) = .ok argument
  | .subject => by
    intro _
    rw [Argument.toJson, arranges.string]
    rfl
  | .reference name => by
    intro _
    rw [Argument.toJson, arranges.single, Argument.ofJson, arranges.asString]
    rfl
  | .value value => by
    intro wellFormed
    rw [Argument.toJson, arranges.single, Argument.ofJson,
      Value.ofJson_toJson arranges value wellFormed]
    rfl

theorem ofJson_toJson_of_mem (arranges : Arranges form) : ∀ arguments : List Argument,
    argumentsWellFormed arguments → ∀ argument ∈ arguments,
      Argument.ofJson (form argument.toJson) = .ok argument
  | [] => fun _ _ member => absurd member List.not_mem_nil
  | first :: rest => by
    intro wellFormed argument member
    rcases List.mem_cons.1 member with same | later
    · rw [same]
      exact Argument.ofJson_toJson arranges first wellFormed.1
    · exact ofJson_toJson_of_mem arranges rest wellFormed.2 argument later

theorem Call.ofJson_toJson (arranges : Arranges form) : ∀ call : Call, call.WellFormed →
    Call.ofJson (form call.toJson) = .ok call
  | ⟨_, arguments⟩ => fun wellFormed =>
    Call.ofJson_toJson_of arranges (ofJson_toJson_of_mem arranges arguments wellFormed)

theorem ofJson_toJson_of_eq_some (arranges : Arranges form) : ∀ call : Option Call,
    callWellFormed call → ∀ held, call = some held → Call.ofJson (form held.toJson) = .ok held
  | none => fun _ _ impossible => absurd impossible (by simp)
  | some call => by
    intro wellFormed held same
    rw [← Option.some.inj same]
    exact Call.ofJson_toJson arranges call wellFormed

theorem Part.ofJson_toJson (arranges : Arranges form) : ∀ part : Part, part.WellFormed →
    Part.ofJson (form part.toJson) = .ok part
  | ⟨_, call, _, _, _⟩ => fun wellFormed =>
    Part.ofJson_toJson_of arranges wellFormed.1
      (ofJson_toJson_of_eq_some arranges call wellFormed.2.1) wellFormed.2.2

end

/-! ## Well-formedness of what is read -/

namespace Call

def Draft.WellFormed (draft : Draft) : Prop :=
  ∀ arguments, draft.arguments = some arguments → argumentsWellFormed arguments

theorem setDocument_wellFormed {draft next : Draft} {name : String} {value : Json}
    (inner : ∀ item ∈ value.children, ∀ argument, Argument.ofJson item = .ok argument →
      argument.WellFormed)
    (wellFormed : draft.WellFormed) (success : setDocument draft name value = .ok next) :
    next.WellFormed := by
  unfold setDocument setField at success
  split at success
  · obtain ⟨given, _, rfl⟩ := map_eq_ok success
    exact wellFormed
  · obtain ⟨given, read, rfl⟩ := map_eq_ok success
    obtain ⟨found, own, rfl⟩ := bind_some_eq_ok read
    rintro _ ⟨⟩
    refine argumentsWellFormed_iff.2 fun argument member => ?_
    obtain ⟨item, inside, readItem⟩ := Json.mem_children_of_asList own argument member
    exact inner item inside argument readItem
  · obtain rfl := Except.ok.inj success
    exact wellFormed

theorem wellFormed_of_ofJson_of {document : Json} {call : Call}
    (inner : ∀ value ∈ document.children, ∀ item ∈ value.children, ∀ argument,
      Argument.ofJson item = .ok argument → argument.WellFormed)
    (success : ofJson document = .ok call) : call.WellFormed := by
  rw [ofJson_eq] at success
  split at success
  · rename_i draft read
    have wellFormed : draft.WellFormed :=
      Json.asStructure_invariant Draft.WellFormed
        (fun _ value inside _ _ wellFormed success =>
          setDocument_wellFormed (inner value inside) wellFormed success)
        (by simp [Draft.WellFormed]) read
    unfold Draft.finish at success
    split at success
    · obtain rfl := Except.ok.inj success
      exact wellFormed _ rfl
    · cases success
  · cases success

end Call

namespace Part

structure Draft.WellFormed (draft : Draft) : Prop where
  selector : ∀ selector, draft.selector = some selector → selector.WellFormed
  call : ∀ call, draft.call = some call → call.WellFormed
  annotations : ∀ annotations, draft.annotations = some annotations → annotations.WellFormed

theorem setDocument_wellFormed {draft next : Draft} {name : String} {value : Json}
    (inner : ∀ call, Call.ofJson value = .ok call → call.WellFormed)
    (wellFormed : draft.WellFormed) (success : setDocument draft name value = .ok next) :
    next.WellFormed := by
  obtain ⟨selector, call, annotations⟩ := wellFormed
  unfold setDocument setField at success
  split at success
  · obtain ⟨given, read, rfl⟩ := map_eq_ok success
    obtain ⟨found, own, rfl⟩ := bind_some_eq_ok read
    refine ⟨?_, call, annotations⟩
    rintro _ ⟨⟩
    exact Selector.wellFormed_of_ofJson own
  · obtain ⟨given, read, rfl⟩ := map_eq_ok success
    rw [Json.asOptional_const] at read
    exact ⟨selector, fun held same => inner held (Json.asOptional_eq_ok read held same),
      annotations⟩
  · obtain ⟨given, read, rfl⟩ := map_eq_ok success
    exact ⟨selector, call, fun held same =>
      Annotations.wellFormed_of_ofJson (Json.asOptional_eq_ok read held same)⟩
  · obtain ⟨given, _, rfl⟩ := map_eq_ok success
    exact ⟨selector, call, annotations⟩
  · obtain ⟨given, _, rfl⟩ := map_eq_ok success
    exact ⟨selector, call, annotations⟩
  · obtain rfl := Except.ok.inj success
    exact ⟨selector, call, annotations⟩

theorem wellFormed_of_ofJson_of {document : Json} {part : Part}
    (inner : ∀ value ∈ document.children, ∀ call, Call.ofJson value = .ok call →
      call.WellFormed)
    (success : ofJson document = .ok part) : part.WellFormed := by
  rw [ofJson_eq] at success
  split at success
  · rename_i draft read
    have wellFormed : draft.WellFormed :=
      Json.asStructure_invariant Draft.WellFormed
        (fun _ value inside _ _ wellFormed success =>
          setDocument_wellFormed (inner value inside) wellFormed success)
        ⟨by simp, by simp, by simp⟩ read
    unfold Draft.finish at success
    split at success
    · rename_i selector call annotations name excluded
      obtain rfl := Except.ok.inj success
      refine ⟨wellFormed.selector selector rfl, ?_, wellFormed.annotations⟩
      cases call with
      | none => trivial
      | some call => exact wellFormed.call call rfl
    · cases success
  · cases success

end Part

structure Json.GivesWellFormed (document : Json) : Prop where
  value : ∀ value, Value.ofJson document = .ok value → value.WellFormed
  argument : ∀ argument, Argument.ofJson document = .ok argument → argument.WellFormed
  call : ∀ call, Call.ofJson document = .ok call → call.WellFormed
  part : ∀ part, Part.ofJson document = .ok part → part.WellFormed

theorem Value.wellFormed_of_ofJson_of {document : Json} {value : Value}
    (finite : document.isFinite = true)
    (inner : ∀ content ∈ document.children, content.GivesWellFormed)
    (success : ofJson document = .ok value) : value.WellFormed := by
  unfold ofJson at success
  split at success
  · rename_i kind content
    have inside : content ∈ (Json.object [(kind, content)]).children := List.mem_singleton_self _
    have known := inner content inside
    split at success
    · obtain ⟨text, _, rfl⟩ := map_eq_ok success
      trivial
    · obtain ⟨x, read, rfl⟩ := map_eq_ok success
      exact Json.isFinite_of_asFloat (Json.isFinite_of_mem_children finite inside) read
    · obtain ⟨selector, read, rfl⟩ := map_eq_ok success
      exact Selector.wellFormed_of_ofJson read
    · obtain ⟨call, read, rfl⟩ := map_eq_ok success
      exact known.call call read
    · obtain ⟨part, read, rfl⟩ := map_eq_ok success
      exact known.part part read
    · cases success
  · cases success

theorem Argument.wellFormed_of_ofJson_of {document : Json} {argument : Argument}
    (inner : ∀ content ∈ document.children, content.GivesWellFormed)
    (success : ofJson document = .ok argument) : argument.WellFormed := by
  unfold ofJson at success
  split at success
  · split at success
    · obtain rfl := Except.ok.inj success
      trivial
    · cases success
  · rename_i kind content
    have known := inner content (List.mem_singleton_self _)
    split at success
    · split at success
      · obtain rfl := Except.ok.inj success
        trivial
      · cases success
    · obtain ⟨name, _, rfl⟩ := map_eq_ok success
      trivial
    · obtain ⟨value, read, rfl⟩ := map_eq_ok success
      exact known.value value read
    · cases success
  · cases success

/-- By induction on the size, as the arguments of a call stand two levels below it. -/
theorem Json.givesWellFormed_of_sizeOf_lt (size : Nat) : ∀ document : Json,
    sizeOf document < size → document.isFinite = true → document.GivesWellFormed := by
  induction size with
  | zero => intro document small; omega
  | succ size ih =>
    intro document small finite
    have inner : ∀ content ∈ document.children, content.GivesWellFormed := by
      intro content inside
      have below := sizeOf_lt_of_mem_children inside
      exact ih content (by omega) (isFinite_of_mem_children finite inside)
    constructor
    · exact fun _ => Value.wellFormed_of_ofJson_of finite inner
    · exact fun _ => Argument.wellFormed_of_ofJson_of inner
    · refine fun _ => Call.wellFormed_of_ofJson_of fun value inside item deeper argument => ?_
      have below := sizeOf_lt_of_mem_children inside
      have further := sizeOf_lt_of_mem_children deeper
      have finiteItem := isFinite_of_mem_children (isFinite_of_mem_children finite inside) deeper
      exact (ih item (by omega) finiteItem).argument argument
    · exact fun _ => Part.wellFormed_of_ofJson_of fun value inside => (inner value inside).call

theorem Part.wellFormed_of_ofJson {document : Json} {part : Part}
    (finite : document.isFinite = true) (success : ofJson document = .ok part) :
    part.WellFormed :=
  (Json.givesWellFormed_of_sizeOf_lt (sizeOf document + 1) document (by omega) finite).part part
    success

end MetricQuery
