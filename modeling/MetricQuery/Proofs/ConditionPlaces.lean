import MetricQuery.Proofs.QueryDocuments

/-!
# Places of conditions in documents

Where a condition stands in the document of a query, at whatever depth, what is read
of the document depends on the condition alone that is read there. So conditions
that are read alike can take each other's place, and one that is refused makes the
whole document be refused.
-/

set_option autoImplicit false

namespace MetricQuery

namespace Json

/-! ## Fields of structures -/

inductive FieldPlace (known : List String) (name : String) : (Json → Json) → Prop where
  | named (front back : List (String × Json)) :
    FieldPlace known name fun value => .object (front ++ (name, value) :: back)
  | listed (front back : List Json) (place : known[front.length]? = some name) :
    FieldPlace known name fun value => .array (front ++ value :: back)

/-- Whether a field is given twice does not depend on the values. -/
theorem repeatsField_congr (known : List String) :
    ∀ {fields others : List (String × Json)}, fields.map Prod.fst = others.map Prod.fst →
      repeatsField known fields = repeatsField known others := by
  intro fields
  induction fields with
  | nil =>
    intro others same
    rw [List.map_eq_nil_iff.1 same.symm]
  | cons field rest ih =>
    intro others same
    obtain ⟨⟨name, value⟩, others, rfl, rfl, later⟩ := List.map_eq_cons_iff.1 same.symm
    have among : rest.any (fun other => other.1 == field.1) =
        others.any fun other => other.1 == field.1 := by
      have names := congrArg (List.any · fun name => name == field.1) later.symm
      simpa only [List.any_map, Function.comp_def] using names
    rw [repeatsField, repeatsField, among, ih later.symm]

/-- The other fields of a document are the same whatever the gap holds; or the document is
none of a structure. -/
theorem FieldPlace.structureFields_eq {known : List String} {name : String} {hole : Json → Json}
    (place : FieldPlace known name hole) :
    (∃ front back, ∀ value, structureFields known (hole value) =
      .ok (front ++ (name, value) :: back)) ∨
    ∀ value, structureFields known (hole value) = malformed := by
  cases place with
  | named front back =>
    have alike : ∀ value, repeatsField known (front ++ (name, value) :: back) =
        repeatsField known (front ++ (name, .null) :: back) := by
      intro value
      apply repeatsField_congr
      simp
    cases repeated : repeatsField known (front ++ (name, .null) :: back) with
    | true =>
      right
      intro value
      rw [structureFields, alike, repeated]
      rfl
    | false =>
      left
      refine ⟨front, back, fun value => ?_⟩
      rw [structureFields, alike, repeated]
      rfl
  | listed front back place =>
    by_cases long : known.length < (front ++ .null :: back).length
    · right
      intro value
      rw [structureFields, if_pos (by simpa using long)]
    · left
      obtain ⟨inside, here⟩ := List.getElem?_eq_some_iff.1 place
      have split : known = known.take front.length ++ name :: known.drop (front.length + 1) := by
        rw [← here, ← List.drop_eq_getElem_cons inside, List.take_append_drop]
      have lengths : (known.take front.length).length = front.length := by
        rw [List.length_take]
        omega
      refine ⟨(known.take front.length).zip front, (known.drop (front.length + 1)).zip back,
        fun value => ?_⟩
      have zipped : known.zip (front ++ value :: back) =
          (known.take front.length).zip front ++
            (name, value) :: (known.drop (front.length + 1)).zip back := by
        conv_lhs => rw [split]
        rw [List.zip_append lengths, List.zip_cons_cons]
      rw [structureFields, if_neg (by simpa using long), zipped]

theorem FieldPlace.ne_null {known : List String} {name : String} {hole : Json → Json}
    (place : FieldPlace known name hole) (value : Json) : hole value ≠ .null := by
  cases place with
  | named front back => simp
  | listed front back place => simp

/-! ## Readers of documents with a gap -/

/-- What a document is read as depends on what the value in its gap is read as, and
it is refused if that value is. -/
structure Through {α β : Type} (inner : Json → Decoded α) (outer : Json → Decoded β)
    (hole : Json → Json) : Prop where
  congr : ∀ one other, one ≠ .null → other ≠ .null → inner one = inner other →
    outer (hole one) = outer (hole other)
  fails : ∀ value, value ≠ .null → Fails (inner value) → Fails (outer (hole value))

namespace Through

variable {α β γ : Type} {inner : Json → Decoded α} {outer : Json → Decoded β}
  {hole : Json → Json}

theorem refl (read : Json → Decoded α) : Through read read id :=
  ⟨fun _ _ _ _ same => same, fun _ _ fails => fails⟩

theorem comp {middle : Json → Decoded γ} {within : Json → Json}
    (through : Through middle outer hole) (deeper : Through inner middle within)
    (present : ∀ value, within value ≠ .null) : Through inner outer (hole ∘ within) where
  congr one other oneThere otherThere same :=
    through.congr _ _ (present one) (present other)
      (deeper.congr one other oneThere otherThere same)
  fails value there failure :=
    through.fails _ (present value) (deeper.fails value there failure)

theorem map (through : Through inner outer hole) (f : β → γ) :
    Through inner (fun document => (outer document).map f) hole where
  congr one other oneThere otherThere same :=
    congrArg (Except.map f) (through.congr one other oneThere otherThere same)
  fails value there failure := (through.fails value there failure).map f

theorem of_map {f : α → β} (opened : ∀ value, outer (hole value) = (inner value).map f) :
    Through inner outer hole where
  congr one other _ _ same := by rw [opened, opened, same]
  fails value _ failure := by
    rw [opened]
    exact failure.map f

/-- The reader of a value that has to be there. -/
theorem some (through : Through inner outer hole) :
    Through inner (fun document => do let given ← outer document; pure (some given)) hole where
  congr one other oneThere otherThere same := by
    rw [through.congr one other oneThere otherThere same]
  fails value there failure := by
    obtain ⟨fault, refused⟩ := through.fails value there failure
    simp only [refused]
    exact ⟨fault, rfl⟩

theorem asOptional_eq (read : Json → Decoded α) {value : Json} (there : value ≠ .null) :
    value.asOptional read = (read value).map Option.some := by
  cases value with
  | null => exact absurd rfl there
  | _ => rfl

theorem asOptional (read : Json → Decoded α) : Through read (Json.asOptional read) id where
  congr one other oneThere otherThere same := by
    rw [id, id, asOptional_eq read oneThere, asOptional_eq read otherThere, same]
  fails value there failure := by
    rw [id, asOptional_eq read there]
    exact failure.map Option.some

theorem asList (read : Json → Decoded α) (front back : List Json) :
    Through read (Json.asList read) fun value => .array (front ++ value :: back) where
  congr one other _ _ same := by
    rw [Json.asList, Json.asList]
    simp only [List.mapM_append, List.mapM_cons, same]
  fails value _ failure :=
    fails_mapM ⟨value, List.mem_append_right _ List.mem_cons_self, failure⟩

/-- A structure is read through each of its fields. -/
theorem ofField {known : List String} {name : String} {draft : γ}
    {set : γ → String → Json → Decoded γ} {finish : γ → Decoded β}
    (opened : ∀ document, outer document = (asStructure known draft set document).bind finish)
    (field : FieldPlace known name hole) (own : ∀ held, Through inner (set held name) id) :
    Through inner outer hole where
  congr one other oneThere otherThere same := by
    rw [opened, opened, asStructure, asStructure]
    rcases field.structureFields_eq with ⟨front, back, fields⟩ | refused
    · have alike : ∀ held, set held name one = set held name other := fun held =>
        (own held).congr one other oneThere otherThere same
      rw [fields, fields]
      simp only [List.foldlM_append, List.foldlM_cons, alike]
    · rw [refused, refused]
  fails value there failure := by
    rw [opened, asStructure]
    rcases field.structureFields_eq with ⟨front, back, fields⟩ | refused
    · have read : Fails ((front ++ (name, value) :: back).foldlM
          (fun draft field => set draft field.1 field.2) draft) :=
        fails_foldlM ⟨(name, value), List.mem_append_right _ List.mem_cons_self,
          fun held => (own held).fails value there failure⟩
      obtain ⟨fault, refused⟩ := read
      rw [fields]
      exact ⟨fault, congrArg (Except.bind · finish) refused⟩
    · rw [refused]
      exact ⟨.malformed, rfl⟩

end Through

end Json

/-! ## Places of conditions -/

open Json (FieldPlace Through)

/-- A document, read by the given reader, with a gap for a condition. -/
inductive ConditionPlace : {α : Type} → (Json → Decoded α) → (Json → Json) → Prop where
  | selector {hole : Json → Json} (field : FieldPlace Selector.fieldNames "condition" hole) :
    ConditionPlace Selector.ofJson hole
  | selectorOfPart {hole inner : Json → Json} (place : ConditionPlace Selector.ofJson inner)
      (field : FieldPlace Part.fieldNames "selector" hole) :
    ConditionPlace Part.ofJson (hole ∘ inner)
  | callOfPart {hole inner : Json → Json} (place : ConditionPlace Call.ofJson inner)
      (field : FieldPlace Part.fieldNames "fn" hole) :
    ConditionPlace Part.ofJson (hole ∘ inner)
  | argumentOfCall {hole inner : Json → Json} (place : ConditionPlace Argument.ofJson inner)
      (field : FieldPlace Call.fieldNames "args" hole) (front back : List Json) :
    ConditionPlace Call.ofJson (hole ∘ (fun item => .array (front ++ item :: back)) ∘ inner)
  | valueOfArgument {inner : Json → Json} (place : ConditionPlace Value.ofJson inner) :
    ConditionPlace Argument.ofJson ((fun value => .object [("value", value)]) ∘ inner)
  | selectorOfValue {inner : Json → Json} (place : ConditionPlace Selector.ofJson inner) :
    ConditionPlace Value.ofJson ((fun own => .object [("selector", own)]) ∘ inner)
  | callOfValue {inner : Json → Json} (place : ConditionPlace Call.ofJson inner) :
    ConditionPlace Value.ofJson ((fun own => .object [("function", own)]) ∘ inner)
  | partOfValue {inner : Json → Json} (place : ConditionPlace Part.ofJson inner) :
    ConditionPlace Value.ofJson ((fun own => .object [("part", own)]) ∘ inner)
  | partOfQuery {hole inner : Json → Json} (place : ConditionPlace Part.ofJson inner)
      (field : FieldPlace Query.fieldNames "parts" hole) (front back : List Json) :
    ConditionPlace Query.ofJson (hole ∘ (fun item => .array (front ++ item :: back)) ∘ inner)

/-! ## Fields that hold a condition -/

theorem Selector.through_condition {hole : Json → Json}
    (field : FieldPlace fieldNames "condition" hole) :
    Through Condition.ofJson ofJson hole := by
  have opened : ∀ document, ofJson document =
      (document.asStructure fieldNames {} setField).bind Draft.finish := by
    intro document
    rw [ofJson]
    cases document.asStructure fieldNames {} setField <;> rfl
  exact .ofField opened field fun _ => (Through.asOptional Condition.ofJson).map _

namespace Part

theorem ofJson_eq_bind (document : Json) :
    ofJson document = (document.asStructure fieldNames {} setDocument).bind Draft.finish := by
  rw [ofJson_eq]
  cases document.asStructure fieldNames {} setDocument <;> rfl

theorem through_selector {hole : Json → Json} (field : FieldPlace fieldNames "selector" hole) :
    Through Selector.ofJson ofJson hole :=
  .ofField ofJson_eq_bind field fun _ => (Through.refl Selector.ofJson).some.map _

theorem through_call {hole : Json → Json} (field : FieldPlace fieldNames "fn" hole) :
    Through Call.ofJson ofJson hole := by
  have own : Through Call.ofJson (fun value => value.asOptional fun _ => Call.ofJson value) id := by
    simp only [Json.asOptional_const]
    exact Through.asOptional Call.ofJson
  exact .ofField ofJson_eq_bind field fun _ => own.map _

end Part

theorem Call.through_argument {hole : Json → Json} (field : FieldPlace fieldNames "args" hole)
    (front back : List Json) :
    Through Argument.ofJson ofJson (hole ∘ fun item => .array (front ++ item :: back)) := by
  have opened : ∀ document, ofJson document =
      (document.asStructure fieldNames {} setDocument).bind Draft.finish := by
    intro document
    rw [ofJson_eq]
    cases document.asStructure fieldNames {} setDocument <;> rfl
  have list : Through (Json.asList Argument.ofJson) ofJson hole :=
    .ofField opened field fun _ => (Through.refl _).some.map _
  exact list.comp (Through.asList Argument.ofJson front back) fun item => by simp

theorem Query.through_part {hole : Json → Json} (field : FieldPlace fieldNames "parts" hole)
    (front back : List Json) :
    Through Part.ofJson ofJson (hole ∘ fun item => .array (front ++ item :: back)) := by
  have opened : ∀ document, ofJson document =
      (document.asStructure fieldNames empty setField).bind .ok := by
    intro document
    rw [ofJson]
    cases document.asStructure fieldNames empty setField <;> rfl
  have list : Through (Json.asList Part.ofJson) ofJson hole :=
    .ofField opened field fun _ => (Through.refl _).map _
  exact list.comp (Through.asList Part.ofJson front back) fun item => by simp

namespace ConditionPlace

variable {α : Type} {read : Json → Decoded α} {hole : Json → Json}

theorem ne_null (place : ConditionPlace read hole) (value : Json) : hole value ≠ .null := by
  cases place with
  | selector field | selectorOfPart _ field | callOfPart _ field | argumentOfCall _ field
  | partOfQuery _ field => exact field.ne_null _
  | valueOfArgument | selectorOfValue | callOfValue | partOfValue => exact nofun

/-- A document is read through each condition in it. -/
theorem through (place : ConditionPlace read hole) : Through Condition.ofJson read hole := by
  induction place with
  | selector field => exact Selector.through_condition field
  | selectorOfPart place field ih => exact (Part.through_selector field).comp ih place.ne_null
  | callOfPart place field ih => exact (Part.through_call field).comp ih place.ne_null
  | argumentOfCall place field front back ih =>
    exact (Call.through_argument field front back).comp ih place.ne_null
  | valueOfArgument place ih =>
    exact (Through.of_map fun value => by rw [Argument.ofJson]).comp ih place.ne_null
  | selectorOfValue place ih =>
    exact (Through.of_map fun own => by rw [Value.ofJson]).comp ih place.ne_null
  | callOfValue place ih =>
    exact (Through.of_map fun own => by rw [Value.ofJson]).comp ih place.ne_null
  | partOfValue place ih =>
    exact (Through.of_map fun own => by rw [Value.ofJson]).comp ih place.ne_null
  | partOfQuery place field front back ih =>
    exact (Query.through_part field front back).comp ih place.ne_null

end ConditionPlace

end MetricQuery
