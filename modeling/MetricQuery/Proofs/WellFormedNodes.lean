import MetricQuery.Proofs.FiniteTexts
import MetricQuery.Proofs.StaticKeys
import MetricQuery.Proofs.WellFormedRuns

/-!
# Well-formed nodes

Metrics, tags and durations are checked wherever they come in: by the conversions and
by each of the readers. So whatever is held by a reachable query is well-formed, its
variables and the arguments of its functions included.
-/

set_option autoImplicit false

namespace MetricQuery

/-! ## Sorted documents -/

namespace Json

/-- By induction on the size, as the values inside of a document are sorted first. -/
theorem isFinite_sorted_of_sizeOf_lt (size : Nat) : ∀ document : Json,
    sizeOf document < size → document.isFinite = true → document.sorted.isFinite = true := by
  induction size with
  | zero => intro document small; omega
  | succ size ih =>
    intro document small finite
    have below : ∀ child ∈ document.children, child.sorted.isFinite = true := by
      intro child inside
      have smaller := sizeOf_lt_of_mem_children inside
      exact ih child (by omega) (isFinite_of_mem_children finite inside)
    cases document with
    | array items =>
      rw [sorted, sortedItems_eq, isFinite, allFinite_iff]
      exact List.forall_mem_map.2 below
    | object fields =>
      rw [sorted, isFinite, allFieldsFinite_iff]
      intro entry member
      obtain ⟨field, there, rfl⟩ := sorted_of_mem_sortedFields member
      exact below field.2 (List.mem_map_of_mem there)
    | null | bool | number | string | unreadable => exact finite

theorem isFinite_sorted {document : Json} (finite : document.isFinite = true) :
    document.sorted.isFinite = true :=
  isFinite_sorted_of_sizeOf_lt (sizeOf document + 1) document (by omega) finite

theorem isFinite_of_asFields {document : Json} {statics : Bindings Json}
    (finite : document.isFinite = true) (success : document.asFields = .ok statics) :
    ∀ entry ∈ statics.entries, entry.2.isFinite = true := by
  unfold asFields at success
  split at success
  · rename_i fields
    split at success
    · obtain rfl := Except.ok.inj success
      intro entry member
      obtain ⟨field, inside, rfl⟩ := sorted_of_mem_sortedFields member
      exact isFinite_sorted (isFinite_of_mem_children finite (List.mem_map_of_mem inside))
    · cases success
  · cases success

/-! ## Documents that are given -/

/-- A JSON value, which has finite numbers only, or what a text holds. -/
def IsGiven (document : Json) : Prop :=
  document.isFinite = true ∨ ∃ text, read? text = some document

theorem IsGiven.isFinite {document : Json} (given : document.IsGiven) :
    document.isFinite = true := by
  rcases given with finite | ⟨text, read⟩
  · exact finite
  · exact isFinite_of_read? read

theorem mem_children_of_mem_pieces {document piece : Json} (isPiece : piece ∈ document.pieces) :
    piece ∈ document.children := by
  cases document with
  | array items => exact isPiece
  | object fields =>
    obtain ⟨field, kept, rfl⟩ := List.mem_map.1 isPiece
    exact List.mem_map_of_mem (List.mem_filter.1 kept).1
  | null | bool | number | string | unreadable => cases isPiece

end Json

/-- JSON values and texts to read, JSON values as static fields, and the given numbers. -/
def Supply.json (numbers : Float → Prop) : Supply :=
  ⟨Json.IsGiven, numbers, fun value => value.isFinite = true⟩

/-! ## What is checked where it comes in -/

theorem Duration.wellFormed_of_parse {text : String} {duration : Duration}
    (success : parse text = .ok duration) : duration.WellFormed := by
  unfold parse at success
  dsimp only at success
  split at success
  · rename_i own found
    obtain rfl := Except.ok.inj success
    unfold ofAmount? at found
    obtain ⟨amount, _, found⟩ := Option.bind_eq_some_iff.1 found
    obtain ⟨unit, _, found⟩ := Option.bind_eq_some_iff.1 found
    by_cases fits : ((amount : Int) ≤ Text.maxSigned64 &&
        ((amount * unit : Nat) : Int) ≤ Text.maxSigned64) = true
    · rw [if_pos fits] at found
      obtain rfl := Option.some.inj found
      rw [Bool.and_eq_true, decide_eq_true_eq, decide_eq_true_eq] at fits
      have least : Text.minSigned64 < 0 := by decide
      exact ⟨least.trans_le (Int.natCast_nonneg _), fits.2⟩
    · rw [if_neg fits] at found
      cases found
  · cases success

theorem Value.isFinite_of_ofJson {document : Json} {x : Float} (finite : document.isFinite = true)
    (success : ofJson document = .ok (.number x)) : x.isFinite = true := by
  unfold ofJson at success
  split at success
  · rename_i kind content
    split at success
    · obtain ⟨text, _, impossible⟩ := map_eq_ok success
      cases impossible
    · obtain ⟨own, read, same⟩ := map_eq_ok success
      cases same
      exact Json.isFinite_of_asFloat (Json.isFinite_of_mem_children finite List.mem_cons_self) read
    · obtain ⟨selector, _, impossible⟩ := map_eq_ok success
      cases impossible
    · obtain ⟨call, _, impossible⟩ := map_eq_ok success
      cases impossible
    · obtain ⟨part, _, impossible⟩ := map_eq_ok success
      cases impossible
    · cases success
  · cases success

theorem Annotations.isFinite_of_ofJson {document : Json} {annotations : Annotations}
    (finite : document.isFinite = true) (success : ofJson document = .ok annotations) :
    ∀ entry ∈ annotations.statics.entries, entry.2.isFinite = true := by
  refine Json.asStructure_invariant (fun draft : Annotations =>
    ∀ entry ∈ draft.statics.entries, entry.2.isFinite = true) ?_ ?_ success
  · intro name value inside before after old setField
    rcases statics_of_setField setField with ⟨_, same⟩ | ⟨_, own⟩
    · rwa [same]
    · exact Json.isFinite_of_asFields (Json.isFinite_of_mem_children finite inside) own
  · intro entry member
    cases member

/-! ## Everything that is reached -/

/-- What the conversions and the readers check; numbers may also be of the given ones. -/
def Demand.wellFormed (numbers : Float → Prop) : Demand where
  tag := Tag.WellFormed
  metric := Metric.WellFormed
  number x := x.isFinite = true ∨ numbers x
  duration := Duration.WellFormed
  statics statics := ∀ entry ∈ statics.entries, entry.2.isFinite = true

theorem Demand.wellFormed_sound (numbers : Float → Prop) :
    (Demand.wellFormed numbers).Sound (.json numbers) where
  pieces document given piece isPiece :=
    Or.inl (Json.isFinite_of_mem_children given.isFinite (Json.mem_children_of_mem_pieces isPiece))
  read document node given read := by
    cases node with
    | tag own => exact Tag.wellFormed_of_ofJson read
    | metric own => exact Metric.wellFormed_of_ofJson read
    | duration own => exact Duration.wellFormed_of_ofJson read
    | annotations own => exact Annotations.isFinite_of_ofJson given.isFinite read
    | value own =>
      cases own with
      | number x => exact Or.inl (Value.isFinite_of_ofJson given.isFinite read)
      | text | selector | call | part => trivial
    | condition | selector | argument | call | part | query => trivial
  tag form tag success := TagForm.wellFormed_of_tag success
  metric form metric success given := by
    refine MetricForm.wellFormed_of_resolve ?_ success
    cases form with
    | word | segments => trivial
    | metric own => exact given own rfl
  durationText text duration success := Duration.wellFormed_of_parse success
  durationMillis millis duration success := (Duration.ofMillis?_eq_some.1 success).2
  number x supplied := Or.inr supplied
  noStatics _ member := absurd member List.not_mem_nil
  statics below above old _ new entry member := by
    rcases Bindings.mem_of_mem_insertAll member with kept | added
    · exact old entry kept
    · exact new entry added

namespace Node

/-- Whatever is held by a reachable node, at any depth: a metric is the one for all or a
path of some segments, no tag has an empty scope, numbers are finite unless they were
given otherwise, those of static fields always, and durations are in range and read back
from what is written of them. -/
theorem reachable_wellFormed {numbers : Float → Prop} {node : Node}
    (reachable : Reachable (.json numbers) node) :
    (∀ metric, node.Holds (.metric metric) →
      metric = .all ∨ ∃ first rest, metric = .path (first :: rest)) ∧
    (∀ tag, node.Holds (.tag tag) → tag.scope ≠ some "") ∧
    (∀ x, node.Holds (.value (.number x)) → x.isFinite = true ∨ numbers x) ∧
    (∀ annotations, node.Holds (.annotations annotations) →
      ∀ entry ∈ annotations.statics.entries, entry.2.isFinite = true) ∧
    ∀ duration, node.Holds (.duration duration) →
      duration.WellFormed ∧ Duration.ofJson duration.toJson = .ok duration := by
  have wellFormed := reachable.satisfies (Demand.wellFormed_sound numbers)
  refine ⟨?_, fun _ held => wellFormed _ held, fun _ held => wellFormed _ held,
    fun _ held => wellFormed _ held, ?_⟩
  · intro metric held
    have checked : metric.WellFormed := wellFormed _ held
    cases metric with
    | all => exact Or.inl rfl
    | path segments =>
      obtain ⟨first, rest, rfl⟩ := List.exists_cons_of_ne_nil checked
      exact Or.inr ⟨first, rest, rfl⟩
  · intro duration held
    have inRange : duration.WellFormed := wellFormed _ held
    exact ⟨inRange, Duration.ofJson_toJson Json.arranges_id inRange⟩

def templateDocument : Json :=
  .object [("parts", .array [.object [("selector", .array [.string "db", .string "all"]),
    ("fn", .array [.string "scale", .array [.object [("value", .object [("part",
      .object [("selector", .array [.string "db", .array [.string "cpu"]]),
        ("fn", .array [.string "mean", .array [.object [("value", .object [("number",
          .number (.real 2.5))])]]])])])]]])]])]

def factor : Call := ⟨"mean", [.value (.number 2.5)]⟩

def scaled : Part :=
  ⟨⟨"db", .all, none, none⟩, some ⟨"scale", [.value (.part
    ⟨⟨"db", .path ["cpu"], none, none⟩, some factor, none, none, false⟩)]⟩, none, none, false⟩

def template : Query := { Query.empty with parts := [scaled] }

def limited : Query :=
  (template.bind "memory" (.selector ⟨"db", .path ["mem"], none, none⟩)).last ⟨1800000⟩

theorem reachable_wellFormed_limited :
    Reachable (.json fun _ => False) (.query limited) ∧
      (Node.query limited).Holds (.value (.number 2.5)) ∧
      ((2.5 : Float).isFinite = true ∨ False) ∧
      (Node.query limited).Holds (.metric (.path ["mem"])) ∧
      Duration.ofJson (Duration.toJson ⟨1800000⟩) = .ok ⟨1800000⟩ := by
  have finite : templateDocument.isFinite = true := by decide +kernel
  have read : Query.ofJson templateDocument = .ok template := rfl
  have start : Reachable (.json fun _ => False) (.query template) := .read (Or.inl finite) read
  have nothing : ∀ entry ∈ (∅ : Bindings Json).entries, entry.2.isFinite = true :=
    fun _ member => absurd member List.not_mem_nil
  have memory : Reachable (.json fun _ => False)
      (.value (.selector ⟨"db", .path ["mem"], none, none⟩)) := by
    refine .assembled trivial (List.forall_mem_singleton.2 ?_)
    exact @Reachable.made _ "db" (.segments ["mem"]) _
      (fun _ none => absurd none List.not_mem_nil) rfl
  have bound : Reachable (.json fun _ => False) (.query
      (template.bind "memory" (.selector ⟨"db", .path ["mem"], none, none⟩))) := by
    refine @Reachable.onBuilder _ (.whole template) (.whole _) (.bind "memory" _) start trivial ?_
      nothing rfl
    rintro _ rfl
    exact memory
  have reachable : Reachable (.json fun _ => False) (.query limited) := by
    refine @Reachable.onBuilder _ (.whole _) (.whole limited) (.last ⟨1800000⟩) bound trivial ?_
      nothing rfl
    rintro _ rfl
    exact @Reachable.durationText _ "30m" _ (by decide +kernel)
  have number : (Node.query limited).Holds (.value (.number 2.5)) := by
    have inCall : (Node.call factor).Holds (.value (.number 2.5)) :=
      .head List.mem_cons_self (.single List.mem_cons_self)
    have inPart : (Node.part scaled).Holds (.call factor) := by
      refine .head (List.mem_cons_of_mem _ List.mem_cons_self) ?_
      refine .head List.mem_cons_self (.head List.mem_cons_self (.head List.mem_cons_self ?_))
      exact .single (List.mem_cons_of_mem _ List.mem_cons_self)
    exact .head List.mem_cons_self (inPart.trans inCall)
  have metric : (Node.query limited).Holds (.metric (.path ["mem"])) := by
    refine .head (List.mem_cons_of_mem _ List.mem_cons_self) ?_
    exact .head List.mem_cons_self (.single List.mem_cons_self)
  have limit : (Node.query limited).Holds (.duration ⟨1800000⟩) :=
    .single (List.mem_cons_of_mem _ (List.mem_cons_of_mem _ List.mem_cons_self))
  obtain ⟨_, _, numbers, _, durations⟩ := reachable_wellFormed reachable
  exact ⟨reachable, number, numbers _ number, metric, (durations _ limit).2⟩

end Node

end MetricQuery
