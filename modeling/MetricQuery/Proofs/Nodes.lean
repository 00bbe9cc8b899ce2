import Mathlib.Logic.Relation
import MetricQuery.Query

/-!
# Nodes of queries

A query is a tree whose nodes are of several kinds. What is demanded of some kinds
of nodes, at whatever depth they stand, is stated once for all kinds: a node
satisfies a demand if each node that it holds meets it.
-/

set_option autoImplicit false

namespace MetricQuery

inductive Node where
  | tag (tag : Tag)
  | metric (metric : Metric)
  | duration (duration : Duration)
  | condition (condition : Condition)
  | selector (selector : Selector)
  | annotations (annotations : Annotations)
  | value (value : Value)
  | argument (argument : Argument)
  | call (call : Call)
  | part (part : Part)
  | query (query : Query)

namespace Node

/-- The nodes directly below a node. The variables of a query are below it, too. -/
@[simp] def children : Node → List Node
  | .condition (.equals own _) | .condition (.differs own _) | .condition (.present own) =>
    [.tag own]
  | .condition (.and left right) | .condition (.or left right) =>
    [.condition left, .condition right]
  | .selector own => .metric own.metric :: own.condition.toList.map .condition
  | .annotations own => own.tags.map .tag
  | .value (.selector own) => [.selector own]
  | .value (.call own) => [.call own]
  | .value (.part own) => [.part own]
  | .argument (.value own) => [.value own]
  | .call own => own.arguments.map .argument
  | .part own =>
    .selector own.selector :: (own.call.toList.map .call ++ own.annotations.toList.map .annotations)
  | .query own =>
    own.parts.map .part ++ own.bindings.entries.map (fun entry => .value entry.2) ++
      own.duration.toList.map .duration
  | _ => []

def Holds : Node → Node → Prop :=
  Relation.ReflTransGen fun outer inner => inner ∈ outer.children

end Node

structure Demand where
  tag : Tag → Prop
  metric : Metric → Prop
  number : Float → Prop
  duration : Duration → Prop
  statics : Bindings Json → Prop

/-- What is demanded of one node; nothing of most kinds. -/
@[simp] def Demand.At (demand : Demand) : Node → Prop
  | .tag tag => demand.tag tag
  | .metric metric => demand.metric metric
  | .duration duration => demand.duration duration
  | .annotations annotations => demand.statics annotations.statics
  | .value (.number x) => demand.number x
  | _ => True

namespace Node

/-- Each node that is held, at whatever depth, meets the demand. -/
def Satisfies (demand : Demand) (node : Node) : Prop :=
  ∀ inner, node.Holds inner → demand.At inner

variable {demand : Demand}

theorem satisfies_iff {node : Node} :
    node.Satisfies demand ↔ demand.At node ∧ ∀ child ∈ node.children, child.Satisfies demand := by
  constructor
  · intro satisfies
    refine ⟨satisfies node .refl, ?_⟩
    intro child below inner held
    exact satisfies inner (.head below held)
  · rintro ⟨own, below⟩ inner held
    rcases held.cases_head with rfl | ⟨child, isChild, later⟩
    · exact own
    · exact below child isChild inner later

theorem Satisfies.of_mem_children {node child : Node} (satisfies : node.Satisfies demand)
    (below : child ∈ node.children) : child.Satisfies demand :=
  (satisfies_iff.1 satisfies).2 child below

/-! ## The kinds of nodes -/

@[simp] theorem satisfies_tag {tag : Tag} :
    (Node.tag tag).Satisfies demand ↔ demand.tag tag := by
  rw [satisfies_iff]
  simp

@[simp] theorem satisfies_metric {metric : Metric} :
    (Node.metric metric).Satisfies demand ↔ demand.metric metric := by
  rw [satisfies_iff]
  simp

@[simp] theorem satisfies_duration {duration : Duration} :
    (Node.duration duration).Satisfies demand ↔ demand.duration duration := by
  rw [satisfies_iff]
  simp

theorem satisfies_combine {left right : Condition} (combinator : Combinator) :
    (Node.condition (left.combine right combinator)).Satisfies demand ↔
      (Node.condition left).Satisfies demand ∧ (Node.condition right).Satisfies demand := by
  rw [satisfies_iff]
  cases combinator <;> simp [Condition.combine]

theorem satisfies_selector {selector : Selector} :
    (Node.selector selector).Satisfies demand ↔ demand.metric selector.metric ∧
      ∀ condition, selector.condition = some condition →
        (Node.condition condition).Satisfies demand := by
  rw [satisfies_iff]
  simp

theorem satisfies_annotations {annotations : Annotations} :
    (Node.annotations annotations).Satisfies demand ↔
      demand.statics annotations.statics ∧ ∀ tag ∈ annotations.tags, demand.tag tag := by
  rw [satisfies_iff]
  simp

theorem satisfies_argument {value : Value} :
    (Node.argument (.value value)).Satisfies demand ↔ (Node.value value).Satisfies demand := by
  rw [satisfies_iff]
  simp

theorem satisfies_callValue {call : Call} :
    (Node.value (.call call)).Satisfies demand ↔ (Node.call call).Satisfies demand := by
  rw [satisfies_iff]
  simp

theorem satisfies_call {call : Call} :
    (Node.call call).Satisfies demand ↔
      ∀ argument ∈ call.arguments, (Node.argument argument).Satisfies demand := by
  rw [satisfies_iff]
  simp

theorem satisfies_part {part : Part} :
    (Node.part part).Satisfies demand ↔ (Node.selector part.selector).Satisfies demand ∧
      (∀ call, part.call = some call → (Node.call call).Satisfies demand) ∧
      ∀ annotations, part.annotations = some annotations →
        (Node.annotations annotations).Satisfies demand := by
  rw [satisfies_iff]
  simp [or_imp, forall_and]

theorem satisfies_query {query : Query} :
    (Node.query query).Satisfies demand ↔
      (∀ part ∈ query.parts, (Node.part part).Satisfies demand) ∧
      (∀ entry ∈ query.bindings.entries, (Node.value entry.2).Satisfies demand) ∧
      ∀ duration, query.duration = some duration → demand.duration duration := by
  rw [satisfies_iff]
  simp only [Demand.At, children, List.forall_mem_append, List.forall_mem_map, Option.mem_toList,
    satisfies_duration, true_and, and_assoc]

end Node

end MetricQuery
