import MetricQuery.Proofs.ConditionPlaces

/-!
# Unknown operators of conditions

A condition may name operators that are not known here. It is read with an unknown
condition, which has no text, in their places, as long as none of them has
arguments; otherwise it is refused, and with it whatever document it stands in.
-/

set_option autoImplicit false

namespace MetricQuery

namespace Condition

def operatorNames : List String := ["eq", "neq", "present", "and", "or"]

theorem ofName_eq_other_iff {operator : String} :
    Operator.ofName operator = .other ↔ operator ∉ operatorNames := by
  unfold Operator.ofName operatorNames
  split <;> simp_all

/-- The document of an operator and its arguments if any: an object of them in either
order, which may have fields of other names. -/
def IsNode (document : Json) (operator : String) (arguments : Option Json) : Prop :=
  ∃ fields, document = .object fields ∧
    (fields.filter fun field => field.1 == "op" || field.1 == "args").Perm
      (("op", .string operator) :: arguments.toList.map ("args", ·))

inductive Sketch where
  | equals (tag : Tag) (value : String)
  | differs (tag : Tag) (value : String)
  | present (tag : Tag)
  | and (left right : Sketch)
  | or (left right : Sketch)
  | foreign (operator : String) (arguments : Option Json)

namespace Sketch

def IsDocument : Sketch → Json → Prop
  | .equals tag value, document =>
    IsNode document "eq" (some (.array [tag.toJson, .string value]))
  | .differs tag value, document =>
    IsNode document "neq" (some (.array [tag.toJson, .string value]))
  | .present tag, document => IsNode document "present" (some tag.toJson)
  | .and left right, document =>
    ∃ one other, left.IsDocument one ∧ right.IsDocument other ∧
      IsNode document "and" (some (.array [one, other]))
  | .or left right, document =>
    ∃ one other, left.IsDocument one ∧ right.IsDocument other ∧
      IsNode document "or" (some (.array [one, other]))
  | .foreign operator arguments, document =>
    operator ∉ operatorNames ∧ IsNode document operator arguments

/-- The condition with an unknown one for each unknown operator. -/
def condition : Sketch → Condition
  | .equals tag value => .equals (.ofPair tag.scope tag.name) value
  | .differs tag value => .differs (.ofPair tag.scope tag.name) value
  | .present tag => .present (.ofPair tag.scope tag.name)
  | .and left right => .and left.condition right.condition
  | .or left right => .or left.condition right.condition
  | .foreign _ _ => .unknown

/-- The text of a condition in which unknown operators have none. -/
def text : Sketch → String
  | .equals tag value => (Tag.ofPair tag.scope tag.name).text ++ " = '" ++ value ++ "'"
  | .differs tag value => (Tag.ofPair tag.scope tag.name).text ++ " != '" ++ value ++ "'"
  | .present tag => (Tag.ofPair tag.scope tag.name).text
  | .and left right => left.text ++ " AND " ++ right.text
  | .or left right => left.text ++ " OR " ++ right.text
  | .foreign _ _ => ""

/-- Whether no unknown operator has arguments other than `null`. -/
def isAbsorbed : Sketch → Bool
  | .and left right | .or left right => left.isAbsorbed && right.isAbsorbed
  | .foreign _ (some .null) | .foreign _ none => true
  | .foreign _ (some _) => false
  | _ => true

end Sketch

/-! ## Nodes -/

theorem lookup_filter_args (fields : List (String × Json)) :
    (fields.filter fun field => field.1 == "op" || field.1 == "args").lookup "args" =
      fields.lookup "args" := by
  induction fields with
  | nil => rfl
  | cons field rest ih =>
    obtain ⟨name, value⟩ := field
    by_cases kept : (name == "op" || name == "args") = true
    · simp only [List.filter_cons, kept, if_true, lookup_entry, ih]
    · have apart : ¬ "args" = name := by
        rintro rfl
        simp at kept
      simp only [List.filter_cons, kept, Bool.false_eq_true, if_false, lookup_entry, apart, ih]

theorem ofFields_eq (operator : Operator) (fields : List (String × Json)) :
    ofFields operator fields =
      (fields.lookup "args").elim (if operator = .other then .ok .unknown else malformed)
        (ofArguments operator) := by
  induction fields with
  | nil => rw [ofFields]; rfl
  | cons field rest ih =>
    obtain ⟨name, value⟩ := field
    rw [ofFields, lookup_entry]
    by_cases named : name = "args"
    · simp [named]
    · simp [named, Ne.symm named, ih]

/-- A node is read as its operator with its arguments. -/
theorem ofJson_of_isNode {document : Json} {operator : String} {arguments : Option Json}
    (readable : document.isReadable = true) (node : IsNode document operator arguments) :
    ofJson document =
      arguments.elim (if operator ∈ operatorNames then malformed else .ok .unknown)
        (ofArguments (.ofName operator)) := by
  obtain ⟨fields, rfl, perm⟩ := node
  have inside : ∀ field ∈ fields, field.2.isReadable = true :=
    Json.allFieldsReadable_iff.1 (by rwa [Json.isReadable] at readable)
  cases arguments with
  | none =>
    have found := List.perm_singleton.1 perm
    have named : operatorOf fields = .ok (.ofName operator) := by
      rw [operatorOf, found]
      rfl
    have missing : fields.lookup "args" = none := by
      rw [← lookup_filter_args, found]
      rfl
    rw [ofJson, named]
    simp only [ofFields_eq, missing, Option.elim_none, ofName_eq_other_iff]
    by_cases known : operator ∈ operatorNames <;> simp [known]
  | some arguments =>
    have given : ("args", arguments) ∈ fields :=
      (List.mem_filter.1 (perm.mem_iff.2 (List.mem_cons_of_mem _ List.mem_cons_self))).1
    have named : operatorOf fields = .ok (.ofName operator) := by
      rcases List.perm_pair.1 perm with found | found
      · rw [operatorOf, found]
        rfl
      · rw [operatorOf, found]
        simp [inside _ given, Json.asCaseName, Except.map]
    have held : fields.lookup "args" = some arguments := by
      rw [← lookup_filter_args]
      rcases List.perm_pair.1 perm with found | found <;> rw [found] <;> rfl
    rw [ofJson, named]
    simp only [ofFields_eq, held, Option.elim_some]

theorem isReadable_of_isNode {document arguments : Json} {operator : String}
    (readable : document.isReadable = true) (node : IsNode document operator (some arguments)) :
    arguments.isReadable = true := by
  obtain ⟨fields, rfl, perm⟩ := node
  rw [Json.isReadable, Json.allFieldsReadable_iff] at readable
  have given : ("args", arguments) ∈ fields :=
    (List.mem_filter.1 (perm.mem_iff.2 (List.mem_cons_of_mem _ List.mem_cons_self))).1
  exact readable _ given

theorem toJson_ne_null (condition : Condition) : condition.toJson ≠ .null := by
  cases condition <;> nofun

/-! ## Sketches -/

namespace Sketch

theorem wellFormed_condition (sketch : Sketch) : sketch.condition.WellFormed := by
  induction sketch with
  | equals tag value | differs tag value | present tag => exact Tag.wellFormed_ofPair _ _
  | and left right leftWell rightWell | or left right leftWell rightWell =>
    exact ⟨leftWell, rightWell⟩
  | foreign operator arguments => trivial

theorem text_condition (sketch : Sketch) : sketch.condition.text = sketch.text := by
  induction sketch with
  | equals tag value | differs tag value | present tag | foreign operator arguments => rfl
  | and left right leftText rightText | or left right leftText rightText =>
    rw [condition, Condition.text, leftText, rightText, text]

/-- The operands of a node are readable. -/
theorem isReadable_operands {document one other : Json} {operator : String}
    (readable : document.isReadable = true)
    (node : IsNode document operator (some (.array [one, other]))) :
    one.isReadable = true ∧ other.isReadable = true := by
  have inside := isReadable_of_isNode readable node
  simpa [Json.isReadable, Json.allReadable] using inside

theorem ofJson_eq (sketch : Sketch) : ∀ {document : Json}, document.isReadable = true →
    sketch.IsDocument document →
    ofJson document = if sketch.isAbsorbed then .ok sketch.condition else malformed := by
  induction sketch with
  | equals tag value | differs tag value | present tag =>
    intro document readable written
    rw [ofJson_of_isNode readable written]
    obtain ⟨scope, name⟩ := tag
    cases scope <;> rfl
  | and left right leftRead rightRead | or left right leftRead rightRead =>
    intro document readable written
    obtain ⟨_, _, leftWritten, rightWritten, node⟩ := written
    obtain ⟨oneReadable, otherReadable⟩ := isReadable_operands readable node
    have one := leftRead oneReadable leftWritten
    have other := rightRead otherReadable rightWritten
    rw [ofJson_of_isNode readable node]
    cases leftAbsorbed : left.isAbsorbed <;> cases rightAbsorbed : right.isAbsorbed <;>
      simp [Operator.ofName, ofArguments, one, other, leftAbsorbed, rightAbsorbed, isAbsorbed,
        condition, malformed]
  | foreign operator arguments =>
    intro document readable written
    obtain ⟨unknown, node⟩ := written
    rw [ofJson_of_isNode readable node, ofName_eq_other_iff.2 unknown]
    cases arguments with
    | none => simp [unknown, isAbsorbed, condition]
    | some arguments => cases arguments <;> rfl

theorem IsDocument.ne_null {sketch : Sketch} {document : Json}
    (written : sketch.IsDocument document) : document ≠ .null := by
  have isObject : ∃ fields, document = .object fields := by
    cases sketch with
    | equals | differs | present => exact written.imp fun _ => And.left
    | and | or =>
      obtain ⟨_, _, _, _, node⟩ := written
      exact node.imp fun _ => And.left
    | foreign => exact written.2.imp fun _ => And.left
  obtain ⟨fields, rfl⟩ := isObject
  nofun

/-- A condition with unknown operators is read exactly if none of them has arguments, and
then with an unknown condition in place of each, which has no text. What holds such a
condition at any depth is then read as if it held that reading of it, and refused
otherwise. -/
theorem ofJson_absorbs (sketch : Sketch) (document : Json)
    (readable : document.isReadable = true) (written : sketch.IsDocument document) :
    ofJson document = (if sketch.isAbsorbed then .ok sketch.condition else malformed) ∧
    sketch.condition.text = sketch.text ∧
    ∀ {α : Type} (read : Json → Decoded α) (hole : Json → Json), ConditionPlace read hole →
      (sketch.isAbsorbed = true →
        read (hole document) = read (hole sketch.condition.toJson)) ∧
      (sketch.isAbsorbed = false → Fails (read (hole document))) := by
  have own := sketch.ofJson_eq readable written
  refine ⟨own, sketch.text_condition, ?_⟩
  intro α read hole place
  have present := written.ne_null
  constructor
  · intro absorbed
    apply place.through.congr _ _ present (toJson_ne_null sketch.condition)
    rw [own, if_pos absorbed]
    exact (ofJson_toJson Json.arranges_id sketch.wellFormed_condition).symm
  · intro refused
    refine place.through.fails _ present ⟨.malformed, ?_⟩
    rw [own, refused]
    rfl

/-- A condition of an unknown operator inside of a function argument of a query. -/
theorem ofJson_absorbs_argument :
    let sketch : Sketch := .and (.equals ⟨some "dl", "source"⟩ "a") (.foreign "near" (some .null))
    let document : Json := .object [("args", .array [
      .object [("args", .array [.array [.string "dl", .string "source"], .string "a"]),
        ("op", .string "eq")],
      .object [("op", .string "near"), ("args", .null)]]), ("op", .string "and")]
    let hole : Json → Json := fun condition => .object [("parts", .array [.object [
      ("fn", .object [("args", .array [.string "subject", .object [("value", .object [("selector",
        .object [("collection", .string "org"), ("condition", condition),
          ("metric", .string "ALL")])])]]), ("fun", .string "sum")]),
      ("selector", .object [("collection", .string "org"), ("metric", .array [.string "cpu"])])]])]
    document.isReadable = true ∧ sketch.IsDocument document ∧
      ofJson document = .ok (.and (.equals ⟨some "dl", "source"⟩ "a") .unknown) ∧
      sketch.condition.text = "dl:'source' = 'a' AND " ∧
      ∃ query, Query.ofJson (hole document) = .ok query ∧ query.render =
        .ok "SELECT sum('cpu' FROM 'org', ALL FROM 'org' WHERE dl:'source' = 'a' AND )" := by
  intro sketch document hole
  have readable : document.isReadable = true := by decide
  have eq : IsNode (.object [("args", .array [.array [.string "dl", .string "source"],
      .string "a"]), ("op", .string "eq")]) "eq" (some (.array [.array [.string "dl",
        .string "source"], .string "a"])) := ⟨_, rfl, .swap _ _ _⟩
  have near : IsNode (.object [("op", .string "near"), ("args", .null)]) "near" (some .null) :=
    ⟨_, rfl, .refl _⟩
  have written : sketch.IsDocument document :=
    ⟨_, _, eq, ⟨by decide, near⟩, _, rfl, .swap _ _ _⟩
  have place : ConditionPlace Query.ofJson hole :=
    .partOfQuery (.callOfPart (.argumentOfCall (.valueOfArgument (.selectorOfValue (.selector
      (.named [("collection", .string "org")] [("metric", .string "ALL")]))))
      (.named [] [("fun", .string "sum")]) [.string "subject"] [])
      (.named [] [("selector", .object [("collection", .string "org"),
        ("metric", .array [.string "cpu"])])])) (.named [] []) [] []
  obtain ⟨own, text, placed⟩ := ofJson_absorbs sketch document readable written
  have read : ∃ query, Query.ofJson (hole sketch.condition.toJson) = .ok query ∧ query.render =
      .ok "SELECT sum('cpu' FROM 'org', ALL FROM 'org' WHERE dl:'source' = 'a' AND )" :=
    ⟨_, rfl, by decide +kernel⟩
  refine ⟨readable, written, own, text, ?_⟩
  rwa [(placed Query.ofJson hole place).1 rfl]

/-- An unknown operator with arguments is refused. -/
theorem ofJson_absorbs_not_arguments :
    let arguments : Json := .array [.array [.string "dl", .string "load"], .string "1"]
    let sketch : Sketch := .foreign "between" (some arguments)
    let document : Json := .object [("args", arguments), ("op", .string "between")]
    document.isReadable = true ∧ sketch.IsDocument document ∧
      ofJson document = .error .malformed := by
  intro arguments sketch document
  exact ⟨by decide, ⟨by decide, _, rfl, .swap _ _ _⟩, rfl⟩

end Sketch

end Condition

end MetricQuery
