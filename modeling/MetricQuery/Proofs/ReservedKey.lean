import MetricQuery.Proofs.StaticKeys

/-!
# The reserved key

No operation sets a static field of the reserved key, but reading a document does not
look at the keys. So the key gets in exactly where a document sets it, and as long as
no document does, nothing that is built, written or read holds it.
-/

set_option autoImplicit false

namespace MetricQuery

open Annotations (reservedKey)

/-! ## Operations that set the key -/

namespace AnnotationStep

variable {step : AnnotationStep}

theorem onAnnotations_reserved (sets : step.statics.contains reservedKey = true)
    (annotations : Annotations) :
    step.onAnnotations annotations = .error (.reservedStaticKey reservedKey) := by
  cases step with
  | annotateWithStatic key value =>
    exact if_pos sets
  | annotateWithStatics fields =>
    exact if_pos sets
  | labelBy | leadWith | annotateWith => cases sets

theorem onPart_reserved (sets : step.statics.contains reservedKey = true) (part : Part) :
    step.partStep.onPart part = .error (.reservedStaticKey reservedKey) := by
  rw [onPart_partStep, Part.tryAnnotations, onAnnotations_reserved sets]

theorem step_reserved (sets : step.statics.contains reservedKey = true) {builder : Builder}
    (valid : builder.Valid) {selection : Selection} (held : builder.selection = .ok selection) :
    builder.step (.part step.partStep) = .error (.reservedStaticKey reservedKey) := by
  obtain ⟨same, inside⟩ := Builder.selection_eq_ok valid held
  have fails : (selection.query.updatePart selection.index step.partStep.onPart) =
      .error (.reservedStaticKey reservedKey) := by
    rw [← same] at inside
    rw [Query.updatePart, List.getElem?_eq_getElem inside]
    simp only [onPart_reserved sets]
  change (builder.selection.bind step.partStep.onSelection).map Builder.handle = _
  rw [held]
  change (step.partStep.onSelection selection).map Builder.handle = _
  rw [PartStep.onSelection_eq (same ▸ inside), fails]
  rfl

/-- Whether there is a part to work on or not, such an operation leaves what there was. -/
theorem after_reserved (sets : step.statics.contains reservedKey = true) {builder : Builder}
    (valid : builder.Valid) : builder.after (.part step.partStep) = builder := by
  have fails : ∃ error, builder.step (.part step.partStep) = .error error := by
    cases held : builder.selection with
    | error error =>
      change ∃ error, (builder.selection.bind step.partStep.onSelection).map Builder.handle =
        .error error
      rw [held]
      exact ⟨error, rfl⟩
    | ok selection => exact ⟨_, step_reserved sets valid held⟩
  obtain ⟨error, failure⟩ := fails
  rw [Builder.after, failure]

end AnnotationStep

/-! ## How the key gets in -/

theorem Demand.unreserved_sound (numbers : Float → Prop) (statics : Json → Prop) :
    Demand.unreserved.Sound ⟨Json.LacksStatic reservedKey, numbers, statics⟩ where
  pieces document lacks piece inside deeper isPiece := lacks deeper (isPiece.head inside)
  read document node lacks read := by
    cases node with
    | annotations own =>
      have free := lacks document .refl
      rw [← Annotations.contains_iff_setsStatic read, Bool.not_eq_true] at free
      exact free
    | value own => cases own <;> trivial
    | tag | metric | duration | condition | selector | argument | call | part | query => trivial
  tag _ _ _ := trivial
  metric _ _ _ _ := trivial
  durationText _ _ _ := trivial
  durationMillis _ _ _ := trivial
  number _ _ := trivial
  noStatics := rfl
  statics below above old new _ := by
    change (below.insertAll above.entries).contains reservedKey = false
    rw [← Bool.not_eq_true, Bindings.contains_insertAll, ← Bindings.contains_iff, old, new]
    simp

namespace Annotations

/-- As long as no document that is read sets the reserved key, nothing that is reached
holds it at any depth, and no document that is written sets it. An operation that sets
it fails and leaves what there was. Annotations that are read hold it exactly if their
document sets it. -/
theorem reservedKey_enters_by_documents {numbers : Float → Prop} {statics : Json → Prop}
    {node : Node}
    (reachable : Reachable ⟨Json.LacksStatic reservedKey, numbers, statics⟩ node) :
    ((∀ annotations, node.Holds (.annotations annotations) →
        annotations.statics.contains reservedKey = false) ∧
      node.document.LacksStatic reservedKey ∧ node.document.sorted.LacksStatic reservedKey) ∧
    (∀ step : AnnotationStep, step.statics.contains reservedKey = true →
      (∀ annotations, step.onAnnotations annotations =
        .error (.reservedStaticKey reservedKey)) ∧
      (∀ part, step.partStep.onPart part = .error (.reservedStaticKey reservedKey)) ∧
      ∀ builder : Builder, builder.Valid → builder.after (.part step.partStep) = builder ∧
        ∀ selection, builder.selection = .ok selection →
          builder.step (.part step.partStep) = .error (.reservedStaticKey reservedKey)) ∧
    ∀ document annotations, ofJson document = .ok annotations →
      (annotations.statics.contains reservedKey = true ↔ document.SetsStatic reservedKey) := by
  refine ⟨?_, ?_, fun document annotations success => contains_iff_setsStatic success reservedKey⟩
  · have unreserved := reachable.satisfies (Demand.unreserved_sound numbers statics)
    have lacks := Node.lacksKey_document unreserved
    refine ⟨?_, lacks.lacksStatic, lacks.sorted.lacksStatic⟩
    exact fun annotations held => unreserved _ held
  · intro step sets
    refine ⟨AnnotationStep.onAnnotations_reserved sets, AnnotationStep.onPart_reserved sets, ?_⟩
    intro builder valid
    exact ⟨AnnotationStep.after_reserved sets valid,
      fun selection held => AnnotationStep.step_reserved sets valid held⟩

def indexed : Part :=
  ⟨⟨"org", .path ["cpu"], none, none⟩, none,
    some ⟨none, [], [], Bindings.ofList [("index", .object [("__prefix", .string "0")])]⟩, none, false⟩

def reserved : Annotations :=
  ⟨none, [], [], Bindings.ofList [("__prefix", .string "0")]⟩

theorem reservedKey_enters_by_documents_indexed :
    (AnnotationStep.annotateWithStatic "__prefix" (.string "0")).statics.contains reservedKey = true ∧
      (∀ annotations : Annotations, annotations.annotateWithStatic "__prefix" (.string "0") =
        .error (.reservedStaticKey reservedKey)) ∧
      Reachable ⟨Json.LacksStatic reservedKey, fun _ => True, fun _ => True⟩ (.part indexed) ∧
      indexed.toJson.sorted.LacksStatic reservedKey ∧
      ofJson (.array [.null, .array [], .array [], .object [("__prefix", .string "0")]]) =
        .ok reserved ∧
      reserved.statics.contains reservedKey = true := by
  have reachable :
      Reachable ⟨Json.LacksStatic reservedKey, fun _ => True, fun _ => True⟩ (.part indexed) := by
    refine @Reachable.onPart _ (.ofSelector ⟨"org", .path ["cpu"], none, none⟩) indexed
      (.annotateWithStatic "index" (.object [("__prefix", .string "0")])) ?_ ?_ ?_ rfl
    · exact .ofSelector (@Reachable.made _ "org" (.segments ["cpu"]) _
        (fun _ none => absurd none List.not_mem_nil) rfl)
    · exact fun _ none => absurd none List.not_mem_nil
    · exact fun _ _ => trivial
  obtain ⟨reached, rejected, readKeys⟩ := reservedKey_enters_by_documents reachable
  have read : ofJson (.array [.null, .array [], .array [], .object [("__prefix", .string "0")]]) =
      .ok reserved := rfl
  refine ⟨rfl, (rejected (.annotateWithStatic "__prefix" (.string "0")) rfl).1, reachable,
    reached.2.2, read, (readKeys _ reserved read).2 ?_⟩
  exact ⟨fieldNames.zip [.null, .array [], .array [], .object [("__prefix", .string "0")]],
    [("__prefix", .string "0")], rfl, by simp [fieldNames], by decide⟩

/-- A part with the reserved key in a part that is the argument of its call. -/
def carrying : Part :=
  ⟨⟨"org", .all, none, none⟩,
    some ⟨"avg", [.value (.part ⟨⟨"org", .all, none, none⟩, none, some reserved, none, false⟩)]⟩,
    none, none, false⟩

/-- Documents let the key in, at any depth. -/
theorem reservedKey_enters :
    ofJson (.object [("static", .object [("__prefix", .string "0")])]) = .ok reserved ∧
      Part.ofJson carrying.toJson = .ok carrying ∧
      (Node.part carrying).Holds (.annotations reserved) ∧
      reserved.statics.contains reservedKey = true := by
  refine ⟨rfl, rfl, ?_, rfl⟩
  refine .head (List.mem_cons_of_mem _ List.mem_cons_self) ?_
  refine .head List.mem_cons_self (.head List.mem_cons_self (.head List.mem_cons_self ?_))
  exact .single (List.mem_cons_of_mem _ List.mem_cons_self)

end Annotations

end MetricQuery
