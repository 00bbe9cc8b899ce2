import MetricQuery.Proofs.Handles
import MetricQuery.Proofs.NodeDocuments

/-!
# Reachable nodes

Nodes are given by the conversions, changed by builder steps, read from documents
and taken out of other nodes. A demand that each of these ways keeps holds of
everything that is held by a reachable node.
-/

set_option autoImplicit false

namespace MetricQuery

/-! ## Operations and what they are given -/

inductive AnnotationStep where
  | labelBy (label : String)
  | leadWith (lead : List String)
  | annotateWith (tags : List TagForm)
  | annotateWithStatic (key : String) (value : Json)
  | annotateWithStatics (fields : Bindings Json)

namespace AnnotationStep

def onAnnotations : AnnotationStep → Annotations → Except QueryError Annotations
  | .labelBy label, annotations => .ok (annotations.labelBy label)
  | .leadWith lead, annotations => .ok (annotations.leadWith lead)
  | .annotateWith tags, annotations => annotations.annotateWith tags
  | .annotateWithStatic key value, annotations => annotations.annotateWithStatic key value
  | .annotateWithStatics fields, annotations => annotations.annotateWithStatics fields

def statics : AnnotationStep → Bindings Json
  | .annotateWithStatic key value => Bindings.empty.insert key value
  | .annotateWithStatics fields => fields
  | .labelBy _ | .leadWith _ | .annotateWith _ => ∅

def partStep : AnnotationStep → PartStep
  | .labelBy label => .labelBy label
  | .leadWith lead => .leadWith lead
  | .annotateWith tags => .annotateWith tags
  | .annotateWithStatic key value => .annotateWithStatic key value
  | .annotateWithStatics fields => .annotateWithStatics fields

theorem onPart_partStep (step : AnnotationStep) (part : Part) :
    step.partStep.onPart part = part.tryAnnotations step.onAnnotations := by
  cases step <;> rfl

end AnnotationStep

inductive SelectorStep where
  | filter (condition : Condition)
  | combineFilter (condition : Condition) (combinator : Combinator)
  | shiftBy (offset : String)

namespace SelectorStep

def onSelector : SelectorStep → Selector → Selector
  | .filter condition, selector => selector.filter condition
  | .combineFilter condition combinator, selector => selector.combineFilter condition combinator
  | .shiftBy offset, selector => selector.shiftBy offset

def nodes : SelectorStep → List Node
  | .filter condition | .combineFilter condition _ => [.condition condition]
  | .shiftBy _ => []

def partStep : SelectorStep → PartStep
  | .filter condition => .filter condition
  | .combineFilter condition combinator => .combineFilter condition combinator
  | .shiftBy offset => .shiftBy offset

theorem onPart_partStep (step : SelectorStep) (part : Part) :
    step.partStep.onPart part = .ok (part.mapSelector step.onSelector) := by
  cases step <;> rfl

end SelectorStep

def MetricForm.nodes : MetricForm → List Node
  | .metric given => [.metric given]
  | .word _ | .segments _ => []

def PartStep.nodes : PartStep → List Node
  | .filter condition | .combineFilter condition _ => [.condition condition]
  | .apply _ arguments => arguments.map .argument
  | _ => []

def PartStep.statics : PartStep → Bindings Json
  | .annotateWithStatic key value => Bindings.empty.insert key value
  | .annotateWithStatics fields => fields
  | _ => ∅

/-- The nodes that a step on a query is given; a change of a part gives the new part. -/
def Step.Gives (query : Query) : Step → Node → Prop
  | .select metric, node => node ∈ metric.nodes
  | .last duration, node => node = .duration duration
  | .bind _ value, node => node = .value value
  | .updatePart index change, node =>
    ∃ old new, query.parts[index]? = some old ∧ change old = .ok new ∧ node = .part new
  | .part step, node => node ∈ step.nodes
  | _, _ => False

def Step.statics : Step → Bindings Json
  | .part step => step.statics
  | _ => ∅

/-- Conditions, values, arguments and calls are put together freely. -/
def Node.IsAssembled : Node → Prop
  | .condition _ | .argument _ | .call _ => True
  | .value (.number _) => False
  | .value _ => True
  | _ => False

structure Supply where
  documents : Json → Prop
  numbers : Float → Prop
  statics : Json → Prop

inductive Reachable (supply : Supply) : Node → Prop
  | read {document : Json} {node : Node} :
    supply.documents document → node.ReadFrom document → Reachable supply node
  | inside {outer inner : Node} :
    Reachable supply outer → inner ∈ outer.children → Reachable supply inner
  | tag {form : TagForm} {tag : Tag} :
    form.tag = .ok tag → Reachable supply (.tag tag)
  | metric {form : MetricForm} {metric : Metric} :
    (∀ node ∈ form.nodes, Reachable supply node) → form.resolve = .ok metric →
      Reachable supply (.metric metric)
  | durationText {text : String} {duration : Duration} :
    Duration.parse text = .ok duration → Reachable supply (.duration duration)
  | durationMillis {millis : Int} {duration : Duration} :
    Duration.ofMillis? millis = some duration → Reachable supply (.duration duration)
  | number {x : Float} : supply.numbers x → Reachable supply (.value (.number x))
  | assembled {node : Node} :
    node.IsAssembled → (∀ child ∈ node.children, Reachable supply child) →
      Reachable supply node
  | made {collection : String} {form : MetricForm} {selector : Selector} :
    (∀ node ∈ form.nodes, Reachable supply node) →
      Selector.make collection form = .ok selector →
      Reachable supply (.selector selector)
  | onSelector {selector : Selector} {step : SelectorStep} :
    Reachable supply (.selector selector) →
      (∀ node ∈ step.nodes, Reachable supply node) →
      Reachable supply (.selector (step.onSelector selector))
  | unannotated : Reachable supply (.annotations .empty)
  | onAnnotations {annotations changed : Annotations} {step : AnnotationStep} :
    Reachable supply (.annotations annotations) →
      (∀ entry ∈ step.statics.entries, supply.statics entry.2) →
      step.onAnnotations annotations = .ok changed →
      Reachable supply (.annotations changed)
  | ofSelector {selector : Selector} :
    Reachable supply (.selector selector) →
      Reachable supply (.part (.ofSelector selector))
  | onPart {part changed : Part} {step : PartStep} :
    Reachable supply (.part part) →
      (∀ node ∈ step.nodes, Reachable supply node) →
      (∀ entry ∈ step.statics.entries, supply.statics entry.2) →
      step.onPart part = .ok changed → Reachable supply (.part changed)
  | emptyQuery : Reachable supply (.query .empty)
  /-- A step on a query, or on a handle of one of its parts. -/
  | onBuilder {builder next : Builder} {step : Step} :
    Reachable supply (.query builder.query) → builder.Valid →
      (∀ node, step.Gives builder.query node → Reachable supply node) →
      (∀ entry ∈ step.statics.entries, supply.statics entry.2) →
      builder.step step = .ok next → Reachable supply (.query next.query)

structure Demand.Sound (demand : Demand) (supply : Supply) : Prop where
  pieces : ∀ document, supply.documents document →
    ∀ piece ∈ document.pieces, supply.documents piece
  read : ∀ document node, supply.documents document → node.ReadFrom document → demand.At node
  tag : ∀ form tag, TagForm.tag form = .ok tag → demand.tag tag
  metric : ∀ form metric, MetricForm.resolve form = .ok metric →
    (∀ given, form = .metric given → demand.metric given) → demand.metric metric
  durationText : ∀ text duration, Duration.parse text = .ok duration → demand.duration duration
  durationMillis : ∀ millis duration, Duration.ofMillis? millis = some duration →
    demand.duration duration
  number : ∀ x, supply.numbers x → demand.number x
  noStatics : demand.statics ∅
  statics : ∀ below above, demand.statics below → above.contains Annotations.reservedKey = false →
    (∀ entry ∈ above.entries, supply.statics entry.2) → demand.statics (below.overlaid above)

namespace Node

variable {demand : Demand}

/-- Nothing is demanded of the kinds of nodes that are put together freely. -/
theorem IsAssembled.at {node : Node} (assembled : node.IsAssembled) : demand.At node := by
  cases node with
  | condition | argument | call => trivial
  | value own =>
    cases own with
    | number => exact absurd assembled id
    | text | selector | call | part => trivial
  | tag | metric | duration | selector | annotations | part | query => exact absurd assembled id

/-! ## Operations keep demands -/

theorem satisfies_filter {selector : Selector} {condition : Condition}
    (old : (Node.selector selector).Satisfies demand)
    (given : (Node.condition condition).Satisfies demand) :
    (Node.selector (selector.filter condition)).Satisfies demand := by
  rw [satisfies_selector] at old ⊢
  refine ⟨old.1, ?_⟩
  rintro _ ⟨⟩
  exact given

theorem satisfies_onSelector {selector : Selector} {step : SelectorStep}
    (old : (Node.selector selector).Satisfies demand)
    (given : ∀ node ∈ step.nodes, node.Satisfies demand) :
    (Node.selector (step.onSelector selector)).Satisfies demand := by
  cases step with
  | filter condition => exact satisfies_filter old (List.forall_mem_singleton.1 given)
  | combineFilter condition combinator =>
    have new := List.forall_mem_singleton.1 given
    cases present : selector.condition with
    | none =>
      simp only [SelectorStep.onSelector, Selector.combineFilter, present]
      exact satisfies_filter old new
    | some held =>
      simp only [SelectorStep.onSelector, Selector.combineFilter, present]
      have own := (satisfies_selector.1 old).2 held present
      exact satisfies_filter old ((satisfies_combine combinator).2 ⟨own, new⟩)
  | shiftBy offset =>
    rw [satisfies_selector] at old ⊢
    exact old

variable {supply : Supply} (sound : demand.Sound supply)

include sound

theorem satisfies_unannotated : (Node.annotations .empty).Satisfies demand :=
  satisfies_annotations.2 ⟨sound.noStatics, fun _ member => absurd member List.not_mem_nil⟩

theorem satisfies_onAnnotations {annotations changed : Annotations}
    {step : AnnotationStep} (old : (Node.annotations annotations).Satisfies demand)
    (given : ∀ entry ∈ step.statics.entries, supply.statics entry.2)
    (success : step.onAnnotations annotations = .ok changed) :
    (Node.annotations changed).Satisfies demand := by
  rw [satisfies_annotations] at old ⊢
  obtain ⟨statics, tags⟩ := old
  have setStatics : ∀ fields, (∀ entry ∈ fields.entries, supply.statics entry.2) →
      annotations.annotateWithStatics fields = .ok changed →
      demand.statics changed.statics ∧ ∀ tag ∈ changed.tags, demand.tag tag := by
    intro fields given success
    by_cases reserved : fields.contains Annotations.reservedKey = true
    · rw [Annotations.annotateWithStatics, if_pos reserved] at success
      cases success
    · rw [Annotations.annotateWithStatics, if_neg reserved] at success
      obtain rfl := Except.ok.inj success
      exact ⟨sound.statics _ _ statics (Bool.eq_false_of_not_eq_true reserved) given, tags⟩
  cases step with
  | labelBy | leadWith =>
    obtain rfl := Except.ok.inj success
    exact ⟨statics, tags⟩
  | annotateWith forms =>
    change annotations.annotateWith forms = .ok changed at success
    rw [Annotations.annotateWith] at success
    cases resolved : forms.mapM TagForm.tag with
    | error error =>
      rw [resolved] at success
      cases success
    | ok added =>
      rw [resolved] at success
      obtain rfl := Except.ok.inj success
      refine ⟨statics, ?_⟩
      intro tag member
      rcases List.mem_append.1 member with own | new
      · exact tags tag own
      · obtain ⟨form, _, given⟩ := forall₂_left ((mapM_eq_ok_iff _ _ _).1 resolved).flip tag new
        exact sound.tag form tag given
  | annotateWithStatic key value => exact setStatics _ given success
  | annotateWithStatics fields => exact setStatics fields given success

theorem satisfies_annotated {part : Part}
    (old : (Node.part part).Satisfies demand) :
    (Node.annotations part.annotated).Satisfies demand := by
  rw [Part.annotated]
  cases present : part.annotations with
  | none => exact satisfies_unannotated sound
  | some held => exact (satisfies_part.1 old).2.2 held present

theorem satisfies_onPart {part changed : Part} {step : PartStep}
    (old : (Node.part part).Satisfies demand) (given : ∀ node ∈ step.nodes, node.Satisfies demand)
    (statics : ∀ entry ∈ step.statics.entries, supply.statics entry.2)
    (success : step.onPart part = .ok changed) : (Node.part changed).Satisfies demand := by
  obtain ⟨selector, call, annotations⟩ := satisfies_part.1 old
  have selected : ∀ change : SelectorStep, change.partStep = step → change.nodes = step.nodes →
      (Node.part changed).Satisfies demand := by
    rintro change rfl same
    rw [change.onPart_partStep] at success
    obtain rfl := Except.ok.inj success
    exact satisfies_part.2 ⟨satisfies_onSelector selector (same ▸ given), call, annotations⟩
  have annotated : ∀ change : AnnotationStep, change.partStep = step →
      change.statics = step.statics → (Node.part changed).Satisfies demand := by
    rintro change rfl same
    rw [change.onPart_partStep, Part.tryAnnotations] at success
    cases made : change.onAnnotations part.annotated with
    | error error =>
      rw [made] at success
      cases success
    | ok new =>
      rw [made] at success
      obtain rfl := Except.ok.inj success
      refine satisfies_part.2 ⟨selector, call, ?_⟩
      rintro _ ⟨⟩
      exact satisfies_onAnnotations sound (satisfies_annotated sound old) (same ▸ statics) made
  cases step with
  | filter condition => exact selected (.filter condition) rfl rfl
  | combineFilter condition combinator =>
    exact selected (.combineFilter condition combinator) rfl rfl
  | shiftBy offset => exact selected (.shiftBy offset) rfl rfl
  | labelBy label => exact annotated (.labelBy label) rfl rfl
  | leadWith lead => exact annotated (.leadWith lead) rfl rfl
  | annotateWith tags => exact annotated (.annotateWith tags) rfl rfl
  | annotateWithStatic key value => exact annotated (.annotateWithStatic key value) rfl rfl
  | annotateWithStatics fields => exact annotated (.annotateWithStatics fields) rfl rfl
  | nameBy | exclude | reinstate =>
    obtain rfl := Except.ok.inj success
    exact satisfies_part.2 ⟨selector, call, annotations⟩
  | apply function arguments =>
    obtain rfl := Except.ok.inj success
    refine satisfies_part.2 ⟨selector, ?_, annotations⟩
    rintro _ ⟨⟩
    have supplied : ∀ argument ∈ arguments, (Node.argument argument).Satisfies demand :=
      List.forall_mem_map.1 given
    refine satisfies_call.2 (List.forall_mem_cons.2 ⟨?_, supplied⟩)
    cases present : part.call with
    | none => exact satisfies_iff.2 ⟨trivial, fun _ below => absurd below List.not_mem_nil⟩
    | some held => exact satisfies_argument.2 (satisfies_callValue.2 (call held present))

theorem satisfies_made {collection : String} {form : MetricForm} {selector : Selector}
    (given : ∀ node ∈ form.nodes, node.Satisfies demand)
    (success : Selector.make collection form = .ok selector) :
    (Node.selector selector).Satisfies demand := by
  rw [Selector.make] at success
  cases resolved : form.resolve with
  | error error =>
    rw [resolved] at success
    cases success
  | ok metric =>
    rw [resolved] at success
    obtain rfl := Except.ok.inj success
    refine satisfies_selector.2 ⟨sound.metric form metric resolved ?_, by simp⟩
    rintro own rfl
    exact satisfies_metric.1 (List.forall_mem_singleton.1 given)

omit sound in
theorem satisfies_ofSelector {selector : Selector}
    (given : (Node.selector selector).Satisfies demand) :
    (Node.part (.ofSelector selector)).Satisfies demand :=
  satisfies_part.2 ⟨given, by simp [Part.ofSelector]⟩

theorem satisfies_select {query : Query} {form : MetricForm} {selection : Selection}
    (old : (Node.query query).Satisfies demand)
    (given : ∀ node ∈ form.nodes, node.Satisfies demand)
    (success : query.select form = .ok selection) :
    (Node.query selection.query).Satisfies demand := by
  obtain ⟨collection, selector, _, made, rfl⟩ := Query.select_eq_ok success
  obtain ⟨parts, bindings, duration⟩ := satisfies_query.1 old
  refine satisfies_query.2 ⟨List.forall_mem_append.2 ⟨parts, ?_⟩, bindings, duration⟩
  exact List.forall_mem_singleton.2 (satisfies_ofSelector (satisfies_made sound given made))

omit sound in
theorem satisfies_updatePart {query changed : Query} {index : Nat}
    {change : Part → Except QueryError Part} (old : (Node.query query).Satisfies demand)
    (keeps : ∀ part new, query.parts[index]? = some part → change part = .ok new →
      (Node.part new).Satisfies demand)
    (success : query.updatePart index change = .ok changed) :
    (Node.query changed).Satisfies demand := by
  obtain ⟨part, new, present, made, rfl⟩ := Query.updatePart_eq_ok_iff.1 success
  obtain ⟨parts, bindings, duration⟩ := satisfies_query.1 old
  refine satisfies_query.2 ⟨?_, bindings, duration⟩
  intro held member
  rcases List.mem_or_eq_of_mem_set member with kept | rfl
  · exact parts held kept
  · exact keeps part _ present made

theorem satisfies_onBuilder {builder next : Builder} {step : Step} (valid : builder.Valid)
    (old : (Node.query builder.query).Satisfies demand)
    (given : ∀ node, step.Gives builder.query node → node.Satisfies demand)
    (statics : ∀ entry ∈ step.statics.entries, supply.statics entry.2)
    (success : builder.step step = .ok next) : (Node.query next.query).Satisfies demand := by
  obtain ⟨parts, bindings, duration⟩ := satisfies_query.1 old
  cases step with
  | fromCollection | intoQuery =>
    obtain rfl := Except.ok.inj success
    exact satisfies_query.2 ⟨parts, bindings, duration⟩
  | beginningAt | endingAt =>
    obtain rfl := Except.ok.inj success
    rw [Builder.query_mapQuery]
    exact satisfies_query.2 ⟨parts, bindings, duration⟩
  | last own =>
    obtain rfl := Except.ok.inj success
    rw [Builder.query_mapQuery]
    refine satisfies_query.2 ⟨parts, bindings, ?_⟩
    rintro _ ⟨⟩
    exact satisfies_duration.1 (given _ rfl)
  | bind name value =>
    obtain rfl := Except.ok.inj success
    rw [Builder.query_mapQuery]
    refine satisfies_query.2 ⟨parts, ?_, duration⟩
    intro entry member
    rcases mem_of_mem_insertEntry member with rfl | kept
    · exact given _ rfl
    · exact bindings entry kept
  | select form =>
    obtain ⟨selection, selected, rfl⟩ := map_eq_ok success
    exact satisfies_select sound old given selected
  | selectAll =>
    obtain ⟨selection, selected, rfl⟩ := map_eq_ok success
    -- The word for all metrics is one that `sound` knows of.
    have all : demand.metric .all := sound.metric (.word Metric.allWord) .all rfl (by simp)
    have given : ∀ node ∈ (MetricForm.metric .all).nodes, node.Satisfies demand :=
      List.forall_mem_singleton.2 (satisfies_metric.2 all)
    exact satisfies_select sound old given selected
  | selectAt index =>
    obtain ⟨selection, selected, rfl⟩ := map_eq_ok success
    obtain ⟨rfl, _⟩ := Query.selectAt_eq_ok selected
    exact old
  | lastSelection =>
    obtain ⟨selection, selected, rfl⟩ := map_eq_ok success
    obtain ⟨rfl, _⟩ := Query.lastSelection_eq_ok selected
    exact old
  | updatePart index change =>
    obtain ⟨changed, updated, rfl⟩ := map_eq_ok success
    exact satisfies_updatePart old
      (fun part new present made => given _ ⟨part, new, present, made, rfl⟩) updated
  | part step =>
    obtain ⟨selection, taken, rfl⟩ := map_eq_ok success
    obtain ⟨held, heldBy, done⟩ := bind_eq_ok taken
    obtain ⟨same, inside⟩ := Builder.selection_eq_ok valid heldBy
    rw [step.onSelection_eq (same ▸ inside), same] at done
    obtain ⟨changed, updated, rfl⟩ := map_eq_ok done
    refine satisfies_updatePart old ?_ updated
    intro part new present made
    exact satisfies_onPart sound (parts part (List.mem_of_getElem? present)) given statics made

end Node

/-! ## Reachable nodes -/

/-- What a sound demand asks for holds of everything that a reachable node holds. -/
theorem Reachable.satisfies {demand : Demand} {supply : Supply} (sound : demand.Sound supply)
    {node : Node} (reachable : Reachable supply node) : node.Satisfies demand := by
  induction reachable with
  | read given read => exact Node.satisfies_of_readFrom sound.pieces sound.read given read
  | inside _ below outer => exact outer.of_mem_children below
  | tag given => exact Node.satisfies_tag.2 (sound.tag _ _ given)
  | metric _ resolved given =>
    refine Node.satisfies_metric.2 (sound.metric _ _ resolved ?_)
    rintro own rfl
    exact Node.satisfies_metric.1 (List.forall_mem_singleton.1 given)
  | durationText given => exact Node.satisfies_duration.2 (sound.durationText _ _ given)
  | durationMillis given => exact Node.satisfies_duration.2 (sound.durationMillis _ _ given)
  | number given =>
    exact Node.satisfies_iff.2 ⟨sound.number _ given, fun _ below => absurd below List.not_mem_nil⟩
  | assembled assembled _ given => exact Node.satisfies_iff.2 ⟨assembled.at, given⟩
  | made _ success given => exact Node.satisfies_made sound given success
  | onSelector _ _ old given => exact Node.satisfies_onSelector old given
  | unannotated => exact Node.satisfies_unannotated sound
  | onAnnotations _ statics success old =>
    exact Node.satisfies_onAnnotations sound old statics success
  | ofSelector _ given => exact Node.satisfies_ofSelector given
  | onPart _ _ statics success old given =>
    exact Node.satisfies_onPart sound old given statics success
  | emptyQuery =>
    refine Node.satisfies_query.2 ⟨?_, ?_, by simp [Query.empty]⟩
    · exact fun _ member => absurd member List.not_mem_nil
    · exact fun _ member => absurd member List.not_mem_nil
  | onBuilder _ valid _ statics success old given =>
    exact Node.satisfies_onBuilder sound valid old given statics success

end MetricQuery
