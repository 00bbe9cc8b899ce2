import MetricQuery.Proofs.DocumentTimes
import MetricQuery.Proofs.ExpressionDocuments

/-!
# Documents of queries are read back

A query is read back from its document without its variables. Whoever renders it
with them bound anew gets the text of the query.
-/

set_option autoImplicit false

namespace MetricQuery

open Json (Arranges)

variable {form : Json → Json}

/-! ## Limits of the time range -/

namespace Instant

theorem ofJson_toJson (arranges : Arranges form) {instant : Instant}
    (readsBack : instant.ReadsBack) : ofJson (form instant.toJson) = .ok instant := by
  have read : ofDocument? instant.documentText = some instant := readsBack
  rw [ofJson, toJson, arranges.asString]
  simp only [read, required]

theorem readsBack_of_ofJson {document : Json} {instant : Instant}
    (success : ofJson document = .ok instant) : instant.ReadsBack := by
  unfold ofJson at success
  split at success
  · rename_i text _
    cases read : ofDocument? text with
    | none =>
      rw [read] at success
      cases success
    | some found =>
      rw [read] at success
      obtain rfl := Except.ok.inj success
      exact ofDocument?_documentText (onClock_of_ofDocument? read)
  · cases success

end Instant

namespace Duration

theorem ofMillis?_eq_some {millis : Int} {duration : Duration} :
    ofMillis? millis = some duration ↔ duration.millis = millis ∧ duration.WellFormed := by
  unfold ofMillis? WellFormed
  obtain ⟨held⟩ := duration
  simp only [Bool.and_eq_true, decide_eq_true_eq, Option.ite_none_right_eq_some,
    Option.some.injEq, mk.injEq]
  constructor
  · rintro ⟨bounds, rfl⟩
    exact ⟨rfl, bounds⟩
  · rintro ⟨rfl, bounds⟩
    exact ⟨bounds, rfl⟩

theorem ofJson_toJson (arranges : Arranges form) {duration : Duration}
    (wellFormed : duration.WellFormed) : ofJson (form duration.toJson) = .ok duration := by
  obtain ⟨low, high⟩ := wellFormed
  have integer : (Json.number (.integer duration.millis)).asInteger = .ok duration.millis := by
    have fits : (Text.minSigned64 ≤ duration.millis && duration.millis ≤ Text.maxSigned64) =
        true := by
      simp only [Bool.and_eq_true, decide_eq_true_eq]
      exact ⟨le_of_lt low, high⟩
    simp only [Json.asInteger, fits, if_true]
  rw [toJson, arranges.number, ofJson, integer]
  simp only [ofMillis?_eq_some.2 ⟨rfl, low, high⟩]

theorem wellFormed_of_ofJson {document : Json} {duration : Duration}
    (success : ofJson document = .ok duration) : duration.WellFormed := by
  unfold ofJson at success
  split at success
  · cases success
  · split at success
    · rename_i found
      obtain rfl := Except.ok.inj success
      exact (ofMillis?_eq_some.1 found).2
    · cases success

end Duration

/-! ## Queries -/

namespace Query

/-- What is left of a query in its document. -/
def withoutBindings (query : Query) : Query :=
  { query with bindings := ∅ }

def writtenFields (query : Query) : List (String × Json) :=
  Json.optionalField "collection" .string query.collection ++
    [("parts", .array (query.parts.map Part.toJson))] ++
    Json.optionalField "beginning" Instant.toJson query.beginning ++
    Json.optionalField "ending" Instant.toJson query.ending ++
    Json.optionalField "duration" Duration.toJson query.duration

def draftOf (query : Query) (seen : String → Bool) : Query where
  collection := if seen "collection" then query.collection else none
  parts := if seen "parts" then query.parts else []
  beginning := if seen "beginning" then query.beginning else none
  ending := if seen "ending" then query.ending else none
  duration := if seen "duration" then query.duration else none
  bindings := ∅

theorem toJson_eq (query : Query) : query.toJson = .object query.writtenFields := by
  rw [toJson, writtenFields]
  simp only [List.append_assoc, List.cons_append, List.nil_append]

theorem names_writtenFields (query : Query) : (query.writtenFields.map Prod.fst).Nodup := by
  rw [writtenFields, List.map_append, List.map_append, List.map_append, List.map_append]
  exact (((((Json.names_optionalField _ _ _).append (List.Sublist.refl _)).append
    (Json.names_optionalField _ _ _)).append (Json.names_optionalField _ _ _)).append
      (Json.names_optionalField _ _ _)).nodup (by decide : fieldNames.Nodup)

theorem setField_draftOf (arranges : Arranges form) {query : Query}
    (wellFormed : query.WellFormed) (seen : String → Bool) :
    ∀ field ∈ query.writtenFields,
      setField (query.draftOf seen) field.1 (form field.2) =
        .ok (query.draftOf fun name => field.1 == name || seen name) := by
  intro field member
  simp only [writtenFields, List.mem_append, List.mem_singleton, Json.mem_optionalField] at member
  rcases member with (((⟨held, given, rfl⟩ | rfl) | ⟨held, given, rfl⟩) | ⟨held, given, rfl⟩) |
    ⟨held, given, rfl⟩
  · have read := Json.asOptional_of_ok rfl (arranges.asString held)
    simp [setField, read, draftOf, Except.map, given]
  · have read := arranges.asList fun part member =>
      Part.ofJson_toJson arranges part (wellFormed.parts part member)
    simp [setField, read, draftOf, Except.map]
  · have read := Json.asOptional_of_ok rfl
      (Instant.ofJson_toJson arranges (wellFormed.beginning held given))
    simp [setField, read, draftOf, Except.map, given]
  · have read := Json.asOptional_of_ok rfl
      (Instant.ofJson_toJson arranges (wellFormed.ending held given))
    simp [setField, read, draftOf, Except.map, given]
  · have read := Json.asOptional_of_ok rfl
      (Duration.ofJson_toJson arranges (wellFormed.duration held given))
    simp [setField, read, draftOf, Except.map, given]

theorem draftOf_writtenFields (query : Query) :
    (query.draftOf fun name => query.writtenFields.any fun field => field.1 == name) =
      query.withoutBindings := by
  obtain ⟨collection, parts, beginning, ending, duration, bindings⟩ := query
  simp only [draftOf, writtenFields, withoutBindings, List.any_append, Json.any_optionalField]
  simp

theorem ofJson_toJson (arranges : Arranges form) {query : Query}
    (wellFormed : query.WellFormed) :
    ofJson (form query.toJson) = .ok query.withoutBindings := by
  have read := arranges.asStructure fieldNames query.draftOf rfl query.names_writtenFields
    (setField_draftOf arranges wellFormed)
  have start : (query.draftOf fun _ => false) = empty := rfl
  rw [ofJson, toJson_eq, ← start, read, draftOf_writtenFields]

/-! ## Queries that are read -/

theorem setField_wellFormed {draft next : Query} {name : String} {value : Json}
    (finite : value.isFinite = true) (wellFormed : draft.WellFormed ∧ draft.bindings = ∅)
    (success : setField draft name value = .ok next) :
    next.WellFormed ∧ next.bindings = ∅ := by
  obtain ⟨⟨parts, beginning, ending, duration⟩, unbound⟩ := wellFormed
  unfold setField at success
  split at success
  · obtain ⟨given, _, rfl⟩ := map_eq_ok success
    exact ⟨⟨parts, beginning, ending, duration⟩, unbound⟩
  · obtain ⟨given, read, rfl⟩ := map_eq_ok success
    refine ⟨⟨fun part member => ?_, beginning, ending, duration⟩, unbound⟩
    obtain ⟨item, inside, readItem⟩ := Json.mem_children_of_asList read part member
    exact Part.wellFormed_of_ofJson (Json.isFinite_of_mem_children finite inside) readItem
  · obtain ⟨given, read, rfl⟩ := map_eq_ok success
    exact ⟨⟨parts, fun held same =>
      Instant.readsBack_of_ofJson (Json.asOptional_eq_ok read held same), ending, duration⟩, unbound⟩
  · obtain ⟨given, read, rfl⟩ := map_eq_ok success
    exact ⟨⟨parts, beginning, fun held same =>
      Instant.readsBack_of_ofJson (Json.asOptional_eq_ok read held same), duration⟩, unbound⟩
  · obtain ⟨given, read, rfl⟩ := map_eq_ok success
    exact ⟨⟨parts, beginning, ending, fun held same =>
      Duration.wellFormed_of_ofJson (Json.asOptional_eq_ok read held same)⟩, unbound⟩
  · obtain rfl := Except.ok.inj success
    exact ⟨⟨parts, beginning, ending, duration⟩, unbound⟩

theorem wellFormed_empty : empty.WellFormed where
  parts _ member := absurd member List.not_mem_nil
  beginning := by simp [empty]
  ending := by simp [empty]
  duration := by simp [empty]

/-- What is read is well-formed and binds no variable. -/
theorem wellFormed_of_ofJson {document : Json} {query : Query}
    (finite : document.isFinite = true) (success : ofJson document = .ok query) :
    query.WellFormed ∧ query.bindings = ∅ :=
  Json.asStructure_invariant (fun query : Query => query.WellFormed ∧ query.bindings = ∅)
    (fun _ _ inside _ _ wellFormed success =>
      setField_wellFormed (Json.isFinite_of_mem_children finite inside) wellFormed success)
    ⟨wellFormed_empty, rfl⟩ success

/-! ## Rendering what is read -/

theorem environment_withoutBindings (query : Query) (overrides : Variables) :
    query.withoutBindings.environment (query.bindings.overlaid overrides) =
      query.environment overrides := by
  refine Bindings.ext_get? fun name => ?_
  have unbound : (∅ : Variables).get? name = none := rfl
  simp only [environment, Bindings.get?_overlaid, withoutBindings, unbound, Option.none_or]
  rw [Option.or_assoc]
  rfl

theorem renderWith_withoutBindings (query : Query) (overrides : Variables) :
    query.withoutBindings.renderWith (query.bindings.overlaid overrides) =
      query.renderWith overrides := by
  unfold renderWith
  rw [environment_withoutBindings]
  rfl

/-- A query is read back from its document except for its variables, and renders
alike when they are given. Whatever query a document gives is read back from its
own document. -/
theorem document_readsBack :
    (∀ query : Query, query.WellFormed →
      ofJson query.toJson.sorted = .ok query.withoutBindings ∧
        ∀ overrides, query.withoutBindings.renderWith (query.bindings.overlaid overrides) =
          query.renderWith overrides) ∧
    (∀ document : Json, document.isFinite = true → ∀ decoded, ofJson document = .ok decoded →
      ofJson decoded.toJson.sorted = .ok decoded) := by
  constructor
  · intro query wellFormed
    exact ⟨ofJson_toJson Json.arranges_sorted wellFormed, renderWith_withoutBindings query⟩
  · intro document finite decoded success
    obtain ⟨wellFormed, unbound⟩ := wellFormed_of_ofJson finite success
    have same : decoded.withoutBindings = decoded := by
      rw [withoutBindings, ← unbound]
    rw [ofJson_toJson Json.arranges_sorted wellFormed, same]

/-- A named part inside of a call of another part, under a condition and a limit. -/
def nested : Query where
  collection := some "db"
  parts := [⟨⟨"db", .path ["cpu", "load"],
      some (.and (.equals ⟨some "ns", "host"⟩ "a") (.or (.present ⟨none, "rack"⟩) .unknown)),
      some ⟨"1d"⟩⟩,
    some ⟨"scale", [.subject, .reference "factor",
      .value (.part ⟨⟨"db", .all, none, none⟩, some ⟨"mean", [.value (.number 3)]⟩, none,
        some "b", false⟩)]⟩,
    some ⟨some "label", [⟨none, "host"⟩], ["p"], ∅⟩, none, true⟩]
  beginning := some ⟨1700000000, 500000000⟩
  ending := none
  duration := some ⟨60000⟩
  bindings := Bindings.ofList [("factor", .number 2)]

/-- A document with fields in lists, an unknown field, an integer and an offset. -/
def laxDocument : Json :=
  .object [("parts", .array [.object [("selector", .array [.string "db", .string "All"]),
      ("fn", .array [.string "scale", .array [.object [("value", .object [("number",
        .number (.integer 3))])]]]), ("color", .string "red")]]),
    ("beginning", .string "2024-01-01T00:00:00+02:00"), ("duration", .number (.integer 60000))]

theorem wellFormed_nested : nested.WellFormed where
  parts := by
    intro part member
    obtain rfl := List.mem_singleton.1 member
    refine ⟨⟨List.cons_ne_nil _ _, ?_⟩, ?_, ?_⟩
    · rintro _ ⟨⟩
      exact ⟨(by decide : some "ns" ≠ some ""), (by decide : none ≠ some ""), trivial⟩
    · have number : (3 : Float).isFinite = true := by decide +kernel
      exact ⟨trivial, trivial, ⟨⟨trivial, by simp⟩, ⟨number, trivial⟩, by simp⟩, trivial⟩
    · rintro _ ⟨⟩
      refine ⟨fun tag member => ?_, fun _ member => absurd member List.not_mem_nil⟩
      obtain rfl := List.mem_singleton.1 member
      exact (by decide : none ≠ some "")
  beginning := by
    rintro _ ⟨⟩
    exact Instant.ofDocument?_documentText ⟨by decide +kernel, by decide⟩
  ending := by
    intro instant impossible
    cases impossible
  duration := by
    rintro _ ⟨⟩
    exact ⟨by decide, by decide⟩

theorem document_readsBack_nested :
    nested.WellFormed ∧ ofJson nested.toJson.sorted = .ok nested.withoutBindings ∧
      laxDocument.isFinite = true ∧ ∃ decoded, ofJson laxDocument = .ok decoded ∧
        decoded.beginning = some ⟨1704060000, 0⟩ ∧ ofJson decoded.toJson.sorted = .ok decoded :=
  ⟨wellFormed_nested, (document_readsBack.1 nested wellFormed_nested).1, by decide +kernel, _, rfl,
    by decide +kernel, document_readsBack.2 laxDocument (by decide +kernel) _ rfl⟩

end Query

end MetricQuery
