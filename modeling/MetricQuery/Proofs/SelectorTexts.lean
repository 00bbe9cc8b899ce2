import MetricQuery.Selector

/-!
# Texts of selectors

No parentheses are written in a condition, so its text shows its leaves and the
operators between them in their order, and nothing of their grouping. It shows all
else: where no name holds a quote, each quote opens or closes a name, and what stands
between two names tells operators, scopes and clauses apart.
-/

set_option autoImplicit false

namespace MetricQuery

/-! ## Names between quotes -/

/-- A text that ends at the next quote, wherever it stands between quotes. -/
def IsUnquoted (text : String) : Prop :=
  '\'' ∉ text.toList

instance (text : String) : Decidable (IsUnquoted text) :=
  inferInstanceAs (Decidable (_ ∉ _))

/-- The first quote ends what stands in front of it. -/
theorem append_quote_inj {one : List Char} :
    ∀ {other rest others : List Char}, '\'' ∉ one → '\'' ∉ other →
      one ++ '\'' :: rest = other ++ '\'' :: others → one = other ∧ rest = others := by
  induction one with
  | nil =>
    intro other rest others _ otherFree same
    cases other with
    | nil => exact ⟨rfl, (List.cons.inj same).2⟩
    | cons c other => exact absurd (List.cons.inj same).1 (List.ne_of_not_mem_cons otherFree)
  | cons c one ih =>
    intro other rest others oneFree otherFree same
    cases other with
    | nil => exact absurd (List.cons.inj same).1.symm (List.ne_of_not_mem_cons oneFree)
    | cons d other =>
      obtain ⟨rfl, later⟩ := List.cons.inj same
      obtain ⟨rfl, behind⟩ := ih (List.not_mem_of_not_mem_cons oneFree)
        (List.not_mem_of_not_mem_cons otherFree) later
      exact ⟨rfl, behind⟩

theorem name_quote_inj {one other : String} (oneFree : IsUnquoted one)
    (otherFree : IsUnquoted other) {rest others : List Char}
    (same : one.toList ++ '\'' :: rest = other.toList ++ '\'' :: others) :
    one = other ∧ rest = others := by
  obtain ⟨chars, behind⟩ := append_quote_inj oneFree otherFree same
  exact ⟨String.toList_inj.1 chars, behind⟩

structure Tag.Legible (tag : Tag) : Prop where
  scope : ∀ scope, tag.scope = some scope → IsUnquoted scope
  name : IsUnquoted tag.name

namespace Tag

def scopeText (tag : Tag) : String :=
  tag.scope.elim "" (· ++ ":")

theorem text_eq (tag : Tag) : tag.text = tag.scopeText ++ "'" ++ tag.name ++ "'" := by
  obtain ⟨scope, name⟩ := tag
  cases scope <;> simp [text, scopeText, String.append_assoc]

theorem Legible.scopeText {tag : Tag} (legible : tag.Legible) : IsUnquoted tag.scopeText := by
  have free := legible.scope
  unfold IsUnquoted Tag.scopeText
  cases within : tag.scope with
  | none => simp
  | some scope => simpa [IsUnquoted] using free scope within

theorem scope_eq_of_scopeText {one other : Tag} (same : one.scopeText = other.scopeText) :
    one.scope = other.scope := by
  have chars := congrArg String.toList same
  unfold scopeText at chars
  cases left : one.scope <;> cases right : other.scope <;>
    simp_all [String.toList_inj]

theorem text_append_inj {one other : Tag} (oneLegible : one.Legible) (otherLegible : other.Legible)
    {rest others : List Char} (same : one.text.toList ++ rest = other.text.toList ++ others) :
    one = other ∧ rest = others := by
  simp only [text_eq, String.toList_append, List.append_assoc] at same
  obtain ⟨scopes, behind⟩ := name_quote_inj oneLegible.scopeText otherLegible.scopeText same
  obtain ⟨name, later⟩ := name_quote_inj oneLegible.name otherLegible.name behind
  have scope := scope_eq_of_scopeText scopes
  obtain ⟨oneScope, oneName⟩ := one
  obtain ⟨otherScope, otherName⟩ := other
  cases scope
  cases name
  exact ⟨rfl, later⟩

end Tag

/-! ## Conditions without their grouping -/

def Combinator.word : Combinator → String
  | .and => " AND "
  | .or => " OR "

namespace Condition

inductive Test where
  | equals (value : String)
  | differs (value : String)
  | present
  deriving DecidableEq

inductive Leaf where
  | ofTag (tag : Tag) (test : Test)
  | unknown
  deriving DecidableEq

def Test.text : Test → String
  | .equals value => " = '" ++ value ++ "'"
  | .differs value => " != '" ++ value ++ "'"
  | .present => ""

def Leaf.text : Leaf → String
  | .ofTag tag test => tag.text ++ test.text
  | .unknown => ""

/-- Leaves in their order, each but the first one behind its operator. -/
structure Sequence where
  first : Leaf
  rest : List (Combinator × Leaf)
  deriving DecidableEq

namespace Sequence

def join (left : Sequence) (combinator : Combinator) (right : Sequence) : Sequence :=
  ⟨left.first, left.rest ++ (combinator, right.first) :: right.rest⟩

end Sequence

/-- The leaves of a condition and the operators between them. -/
def flatten : Condition → Sequence
  | .equals tag value => ⟨.ofTag tag (.equals value), []⟩
  | .differs tag value => ⟨.ofTag tag (.differs value), []⟩
  | .present tag => ⟨.ofTag tag .present, []⟩
  | .and left right => left.flatten.join .and right.flatten
  | .or left right => left.flatten.join .or right.flatten
  | .unknown => ⟨.unknown, []⟩

def stepsText (steps : List (Combinator × Leaf)) : String :=
  String.join (steps.map fun step => step.1.word ++ step.2.text)

def Sequence.text (sequence : Sequence) : String :=
  sequence.first.text ++ stepsText sequence.rest

theorem stepsText_nil : stepsText [] = "" := rfl

theorem stepsText_cons (combinator : Combinator) (leaf : Leaf)
    (rest : List (Combinator × Leaf)) :
    stepsText ((combinator, leaf) :: rest) = combinator.word ++ leaf.text ++ stepsText rest := by
  simp [stepsText, String.join_cons]

theorem stepsText_append (front back : List (Combinator × Leaf)) :
    stepsText (front ++ back) = stepsText front ++ stepsText back := by
  simp [stepsText, String.join_append]

theorem text_join (left : Sequence) (combinator : Combinator) (right : Sequence) :
    (left.join combinator right).text = left.text ++ combinator.word ++ right.text := by
  simp [Sequence.join, Sequence.text, stepsText_append, stepsText_cons, String.append_assoc]

/-- The text of a condition is that of its leaves and operators. -/
theorem text_flatten (condition : Condition) : condition.flatten.text = condition.text := by
  induction condition with
  | equals tag value | differs tag value | present tag | unknown =>
    simp [flatten, Sequence.text, stepsText_nil, Leaf.text, Test.text, text, String.append_assoc]
  | and left right leftText rightText | or left right leftText rightText =>
    rw [flatten, text_join, leftText, rightText]
    rfl

/-! ## Leaves -/

/-- A condition of known operators, whose names and values hold no quote. -/
def Legible : Condition → Prop
  | .equals tag value | .differs tag value => tag.Legible ∧ IsUnquoted value
  | .present tag => tag.Legible
  | .and left right | .or left right => left.Legible ∧ right.Legible
  | .unknown => False

def Test.Legible : Test → Prop
  | .equals value | .differs value => IsUnquoted value
  | .present => True

def Leaf.Legible : Leaf → Prop
  | .ofTag tag test => tag.Legible ∧ test.Legible
  | .unknown => False

structure Sequence.Legible (sequence : Sequence) : Prop where
  first : sequence.first.Legible
  rest : ∀ step ∈ sequence.rest, step.2.Legible

theorem Legible.flatten {condition : Condition} (legible : condition.Legible) :
    condition.flatten.Legible := by
  induction condition with
  | equals tag value | differs tag value => exact ⟨legible, List.forall_mem_nil _⟩
  | present tag => exact ⟨⟨legible, trivial⟩, List.forall_mem_nil _⟩
  | and left right leftLegible rightLegible | or left right leftLegible rightLegible =>
    have one := leftLegible legible.1
    have other := rightLegible legible.2
    exact ⟨one.first, List.forall_mem_append.2
      ⟨one.rest, List.forall_mem_cons.2 ⟨other.first, other.rest⟩⟩⟩
  | unknown => exact legible.elim

/-- No test stands here: an operator or a clause follows, or nothing does. -/
def IsBehindLeaf (text : List Char) : Prop :=
  text[1]? ≠ some '=' ∧ text[1]? ≠ some '!'

theorem Test.text_append_inj {one other : Test} (oneLegible : one.Legible)
    (otherLegible : other.Legible) {rest others : List Char} (oneBehind : IsBehindLeaf rest)
    (otherBehind : IsBehindLeaf others)
    (same : one.text.toList ++ rest = other.text.toList ++ others) :
    one = other ∧ rest = others := by
  cases one with
  | equals value =>
    cases other with
    | equals value' =>
      obtain ⟨rfl, behind⟩ := name_quote_inj oneLegible otherLegible (by simpa [text] using same)
      exact ⟨rfl, behind⟩
    | differs value' => simp [text] at same
    | present =>
      obtain rfl : _ = others := same
      simp [text, IsBehindLeaf] at otherBehind
  | differs value =>
    cases other with
    | equals value' => simp [text] at same
    | differs value' =>
      obtain ⟨rfl, behind⟩ := name_quote_inj oneLegible otherLegible (by simpa [text] using same)
      exact ⟨rfl, behind⟩
    | present =>
      obtain rfl : _ = others := same
      simp [text, IsBehindLeaf] at otherBehind
  | present =>
    cases other with
    | equals value' | differs value' =>
      obtain rfl : rest = _ := same
      simp [text, IsBehindLeaf] at oneBehind
    | present => exact ⟨rfl, same⟩

theorem Leaf.text_append_inj {one other : Leaf} (oneLegible : one.Legible)
    (otherLegible : other.Legible) {rest others : List Char} (oneBehind : IsBehindLeaf rest)
    (otherBehind : IsBehindLeaf others)
    (same : one.text.toList ++ rest = other.text.toList ++ others) :
    one = other ∧ rest = others := by
  cases one with
  | unknown => exact oneLegible.elim
  | ofTag tag test =>
    cases other with
    | unknown => exact otherLegible.elim
    | ofTag tag' test' =>
      simp only [text, String.toList_append, List.append_assoc] at same
      obtain ⟨rfl, later⟩ := Tag.text_append_inj oneLegible.1 otherLegible.1 same
      obtain ⟨rfl, behind⟩ :=
        Test.text_append_inj oneLegible.2 otherLegible.2 oneBehind otherBehind later
      exact ⟨rfl, behind⟩

/-! ## Sequences -/

/-- The end of a condition: a shift in time follows, or nothing does. -/
def IsBehindCondition (text : List Char) : Prop :=
  text[1]? = none ∨ text[1]? = some 'S'

theorem isBehindLeaf_steps (steps : List (Combinator × Leaf)) {rest : List Char}
    (behind : IsBehindCondition rest) : IsBehindLeaf ((stepsText steps).toList ++ rest) := by
  cases steps with
  | nil => rcases behind with ended | shifted <;> simp_all [IsBehindLeaf, stepsText_nil]
  | cons step steps =>
    obtain ⟨combinator, leaf⟩ := step
    cases combinator <;> simp [IsBehindLeaf, stepsText_cons, Combinator.word]

theorem not_isBehindCondition_steps (combinator : Combinator) (leaf : Leaf)
    (steps : List (Combinator × Leaf)) (rest : List Char) :
    ¬ IsBehindCondition ((stepsText ((combinator, leaf) :: steps)).toList ++ rest) := by
  cases combinator <;> simp [IsBehindCondition, stepsText_cons, Combinator.word]

theorem word_append_inj {one other : Combinator} {rest others : List Char}
    (same : one.word.toList ++ rest = other.word.toList ++ others) :
    one = other ∧ rest = others := by
  cases one <;> cases other <;> simp_all [Combinator.word]

theorem stepsText_append_inj {steps : List (Combinator × Leaf)} :
    ∀ {others : List (Combinator × Leaf)} {rest rest' : List Char},
      (∀ step ∈ steps, step.2.Legible) → (∀ step ∈ others, step.2.Legible) →
      IsBehindCondition rest → IsBehindCondition rest' →
      (stepsText steps).toList ++ rest = (stepsText others).toList ++ rest' →
      steps = others ∧ rest = rest' := by
  induction steps with
  | nil =>
    intro others rest rest' _ _ behind _ same
    cases others with
    | nil => exact ⟨rfl, same⟩
    | cons other others =>
      obtain rfl : rest = _ := same
      exact absurd behind (not_isBehindCondition_steps _ _ _ _)
  | cons step steps ih =>
    intro others rest rest' legible legible' behind behind' same
    cases others with
    | nil =>
      obtain rfl : _ = rest' := same
      exact absurd behind' (not_isBehindCondition_steps _ _ _ _)
    | cons other others =>
      obtain ⟨combinator, leaf⟩ := step
      obtain ⟨combinator', leaf'⟩ := other
      obtain ⟨own, later⟩ := List.forall_mem_cons.1 legible
      obtain ⟨own', later'⟩ := List.forall_mem_cons.1 legible'
      simp only [stepsText_cons, String.toList_append, List.append_assoc] at same
      obtain ⟨rfl, more⟩ := word_append_inj same
      obtain ⟨rfl, further⟩ := Leaf.text_append_inj own own' (isBehindLeaf_steps steps behind)
        (isBehindLeaf_steps others behind') more
      obtain ⟨rfl, ending⟩ := ih later later' behind behind' further
      exact ⟨rfl, ending⟩

theorem Sequence.text_append_inj {one other : Sequence} (oneLegible : one.Legible)
    (otherLegible : other.Legible) {rest others : List Char} (oneBehind : IsBehindCondition rest)
    (otherBehind : IsBehindCondition others)
    (same : one.text.toList ++ rest = other.text.toList ++ others) :
    one = other ∧ rest = others := by
  obtain ⟨first, steps⟩ := one
  obtain ⟨first', steps'⟩ := other
  simp only [text, String.toList_append, List.append_assoc] at same
  obtain ⟨rfl, later⟩ := Leaf.text_append_inj oneLegible.first otherLegible.first
    (isBehindLeaf_steps steps oneBehind) (isBehindLeaf_steps steps' otherBehind) same
  obtain ⟨rfl, behind⟩ :=
    stepsText_append_inj oneLegible.rest otherLegible.rest oneBehind otherBehind later
  exact ⟨rfl, behind⟩

end Condition

/-! ## Metrics -/

namespace Metric

def Legible : Metric → Prop
  | .all => True
  | .path segments => ∀ segment ∈ segments, IsUnquoted segment

def laterText : List String → List Char
  | [] => []
  | segment :: rest => '.' :: '\'' :: (segment.toList ++ '\'' :: laterText rest)

theorem text_path_cons (segment : String) (rest : List String) :
    (Metric.path (segment :: rest)).text.toList =
      '\'' :: (segment.toList ++ '\'' :: laterText rest) := by
  induction rest generalizing segment with
  | nil => simp [text, laterText]
  | cons next rest ih =>
    have later := ih next
    simp only [text, String.toList_intercalate, List.map_cons] at later ⊢
    rw [List.intercalate_cons_cons, later]
    simp [laterText]

theorem laterText_append_inj {segments : List String} :
    ∀ {others : List String} {rest rest' : List Char}, (∀ segment ∈ segments, IsUnquoted segment) →
      (∀ segment ∈ others, IsUnquoted segment) →
      laterText segments ++ ' ' :: rest = laterText others ++ ' ' :: rest' →
      segments = others ∧ rest = rest' := by
  induction segments with
  | nil =>
    intro others rest rest' _ _ same
    cases others with
    | nil => exact ⟨rfl, (List.cons.inj same).2⟩
    | cons other others => simp [laterText] at same
  | cons segment segments ih =>
    intro others rest rest' free free' same
    cases others with
    | nil => simp [laterText] at same
    | cons other others =>
      obtain ⟨own, later⟩ := List.forall_mem_cons.1 free
      obtain ⟨own', later'⟩ := List.forall_mem_cons.1 free'
      obtain ⟨rfl, more⟩ := name_quote_inj own own' (by simpa [laterText] using same)
      obtain ⟨rfl, behind⟩ := ih later later' more
      exact ⟨rfl, behind⟩

theorem text_append_inj {one other : Metric} (oneLegible : one.Legible)
    (otherLegible : other.Legible) {rest others : List Char}
    (same : one.text.toList ++ ' ' :: rest = other.text.toList ++ ' ' :: others) :
    one = other ∧ rest = others := by
  have word : Metric.all.text.toList = ['A', 'L', 'L'] := rfl
  have none : (Metric.path []).text.toList = [] := rfl
  rcases one with _ | _ | ⟨segment, segments⟩ <;> rcases other with _ | _ | ⟨segment', segments'⟩
  case path.cons.path.cons =>
    obtain ⟨own, later⟩ := List.forall_mem_cons.1 oneLegible
    obtain ⟨own', later'⟩ := List.forall_mem_cons.1 otherLegible
    simp only [text_path_cons, List.cons_append, List.cons.injEq, true_and, List.append_assoc]
      at same
    obtain ⟨rfl, more⟩ := name_quote_inj own own' same
    obtain ⟨rfl, behind⟩ := laterText_append_inj later later' more
    exact ⟨rfl, behind⟩
  -- any other two metrics of one text are equal, as the word, a path and the empty one
  -- begin with different characters
  all_goals simp_all [text_path_cons]

end Metric

/-! ## Selectors -/

structure Selector.Legible (selector : Selector) : Prop where
  collection : IsUnquoted selector.collection
  metric : selector.metric.Legible
  condition : ∀ condition, selector.condition = some condition → condition.Legible

namespace Selector

def filterText (selector : Selector) : String :=
  selector.condition.elim "" fun condition => " WHERE " ++ condition.text

theorem text_eq (selector : Selector) :
    selector.text = selector.metric.text ++ " FROM '" ++ selector.collection ++ "'" ++
      selector.filterText ++ selector.shiftText := by
  obtain ⟨collection, metric, condition, timeshift⟩ := selector
  cases condition with
  | none => simp only [text, source, filterText, Option.elim_none, String.append_empty]
  | some condition =>
    simp only [text, source, filterText, Option.elim_some, String.append_assoc]

/-- The grouping of a condition does not show. -/
theorem filterText_eq (selector : Selector) :
    selector.filterText = (selector.condition.map Condition.flatten).elim ""
      fun sequence => " WHERE " ++ sequence.text := by
  unfold filterText
  cases selector.condition with
  | none => rfl
  | some condition =>
    rw [Option.map_some, Option.elim_some, Option.elim_some, condition.text_flatten]

theorem isBehindCondition_shiftText (selector : Selector) :
    Condition.IsBehindCondition selector.shiftText.toList := by
  unfold shiftText
  cases selector.timeshift <;> simp [Condition.IsBehindCondition, Timeshift.text]

theorem timeshift_eq_of_shiftText {one other : Selector}
    (same : one.shiftText.toList = other.shiftText.toList) : one.timeshift = other.timeshift := by
  unfold shiftText at same
  cases left : one.timeshift with
  | none => cases right : other.timeshift <;> simp_all [Timeshift.text]
  | some shift =>
    cases right : other.timeshift with
    | none => simp_all [Timeshift.text]
    | some shift' =>
      have offsets : shift.offset = shift'.offset := by
        simpa [left, right, Timeshift.text, String.toList_inj] using same
      obtain ⟨offset⟩ := shift
      cases offsets
      rfl

/-- A filter is told apart from a shift, and ends where the shift begins. -/
theorem clauses_inj {one other : Selector} (oneLegible : one.Legible)
    (otherLegible : other.Legible)
    (same : one.filterText.toList ++ one.shiftText.toList =
      other.filterText.toList ++ other.shiftText.toList) :
    one.condition.map Condition.flatten = other.condition.map Condition.flatten ∧
      one.shiftText.toList = other.shiftText.toList := by
  have behind := one.isBehindCondition_shiftText
  have behind' := other.isBehindCondition_shiftText
  unfold filterText at same
  cases left : one.condition with
  | none =>
    cases right : other.condition with
    | none => simpa [left, right] using same
    | some condition' =>
      simp only [left, right, Option.elim_none, Option.elim_some, String.toList_empty,
        List.nil_append] at same
      rw [same] at behind
      simp [Condition.IsBehindCondition] at behind
  | some condition =>
    cases right : other.condition with
    | none =>
      simp only [left, right, Option.elim_none, Option.elim_some, String.toList_empty,
        List.nil_append] at same
      rw [← same] at behind'
      simp [Condition.IsBehindCondition] at behind'
    | some condition' =>
      simp only [left, right, Option.elim_some, String.toList_append, List.append_assoc] at same
      have texts := List.append_cancel_left same
      rw [← condition.text_flatten, ← condition'.text_flatten] at texts
      obtain ⟨flat, shifts⟩ := Condition.Sequence.text_append_inj
        (oneLegible.condition _ left).flatten (otherLegible.condition _ right).flatten
        behind behind' texts
      exact ⟨congrArg some flat, shifts⟩

/-- Conditions that differ only in the grouping of their leaves have the same text. Two
selectors whose names hold no quote have the same text exactly if they agree in all
but that grouping. -/
theorem text_eq_iff_flatten_eq (one other : Selector) (oneLegible : one.Legible)
    (otherLegible : other.Legible) :
    (∀ left right : Condition, left.flatten = right.flatten → left.text = right.text) ∧
    (one.text = other.text ↔
      one.collection = other.collection ∧ one.metric = other.metric ∧
        one.timeshift = other.timeshift ∧
        one.condition.map Condition.flatten = other.condition.map Condition.flatten) := by
  refine ⟨?_, ?_, ?_⟩
  · intro left right same
    rw [← left.text_flatten, same, right.text_flatten]
  · intro same
    have chars := congrArg String.toList same
    simp only [text_eq, String.toList_append, List.append_assoc] at chars
    obtain ⟨metrics, more⟩ := Metric.text_append_inj oneLegible.metric otherLegible.metric chars
    have named := List.append_cancel_left
      (show "FROM '".toList ++ _ = "FROM '".toList ++ _ from more)
    obtain ⟨collections, clauses⟩ :=
      name_quote_inj oneLegible.collection otherLegible.collection named
    obtain ⟨conditions, shifts⟩ := clauses_inj oneLegible otherLegible clauses
    exact ⟨collections, metrics, timeshift_eq_of_shiftText shifts, conditions⟩
  · rintro ⟨collections, metrics, shifts, conditions⟩
    have shiftTexts : one.shiftText = other.shiftText := by rw [shiftText, shiftText, shifts]
    rw [text_eq, text_eq, collections, metrics, filterText_eq, filterText_eq, conditions,
      shiftTexts]

/-- Words of the language inside of names, and an offset with quotes. -/
theorem text_eq_iff_flatten_eq_regrouped :
    let first : Condition := .present ⟨some "x AND y", "dc"⟩
    let second : Condition := .equals ⟨none, "host"⟩ " OR "
    let third : Condition := .differs ⟨none, "SHIFT BY 1h"⟩ ""
    let one : Selector :=
      ⟨"org", .path ["cpu", "ALL"], some (.or (.and first second) third), some ⟨"'1h'"⟩⟩
    let other : Selector := { one with condition := some (.and first (.or second third)) }
    one.Legible ∧ other.Legible ∧ one.condition ≠ other.condition ∧ one.text = other.text ∧
      one.text = "'cpu'.'ALL' FROM 'org' WHERE x AND y:'dc' AND 'host' = ' OR ' OR " ++
        "'SHIFT BY 1h' != '' SHIFT BY '1h'" := by
  intro first second third one other
  have firstLegible : first.Legible := ⟨by decide, by decide⟩
  have secondLegible : second.Legible := ⟨⟨by decide, by decide⟩, by decide⟩
  have thirdLegible : third.Legible := ⟨⟨by decide, by decide⟩, by decide⟩
  have metric : one.metric.Legible := by
    change ∀ segment ∈ ["cpu", "ALL"], IsUnquoted segment
    decide
  have oneLegible : one.Legible := by
    refine ⟨by decide, metric, ?_⟩
    rintro condition ⟨⟩
    exact ⟨⟨firstLegible, secondLegible⟩, thirdLegible⟩
  have otherLegible : other.Legible := by
    refine ⟨by decide, metric, ?_⟩
    rintro condition ⟨⟩
    exact ⟨firstLegible, secondLegible, thirdLegible⟩
  have same := (text_eq_iff_flatten_eq one other oneLegible otherLegible).2.2 ⟨rfl, rfl, rfl, rfl⟩
  exact ⟨oneLegible, otherLegible, by decide, same, by decide +kernel⟩

-- a quote inside of a name may pass for an operator
example : (Condition.present ⟨none, "a' AND 'b"⟩).text =
    (Condition.and (.present ⟨none, "a"⟩) (.present ⟨none, "b"⟩)).text := by
  decide +kernel

end Selector

end MetricQuery
