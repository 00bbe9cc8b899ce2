import MetricQuery.Proofs.Environments
import MetricQuery.Proofs.Results

/-!
# Texts of prepared queries

The query that is sent has the items of the query it stands for, with other
aliases and with a confidence copy behind each where confidence is asked for. It
fails to be written exactly if that query does.
-/

set_option autoImplicit false

namespace MetricQuery

namespace Part

/-- The calls of a part applied to its selector, without the shift. -/
def chain (resolve : Resolver) (part : Part) : Except QueryError String :=
  match part.call with
  | none => .ok part.selector.source
  | some call => call.render resolve (some part.selector)

def item (part : Part) (chain : String) : String :=
  let text := chain ++ part.selector.shiftText
  match part.annotations with
  | none => text
  | some annotations =>
    if annotations.isEmpty then text else text ++ " " ++ annotations.text

/-- The item of a part under the alias with the given leading sections. -/
def itemUnder (lead : List String) (part : Part) (chain : String) : String :=
  chain ++ part.selector.shiftText ++ " " ++ (part.annotated.leadWith lead).text

/-- The items that are sent for the part at an index. -/
def sentItems (confidence : Confidence) (index : Nat) (part : Part) (chain : String) :
    List String :=
  match confidence with
  | .off => [part.itemUnder [showNat index] chain]
  | .on | .aligned =>
    [part.itemUnder [showNat index, "v"] chain,
      part.itemUnder [showNat index, "c"] ("confidence(" ++ chain ++ ")")]

theorem renderExpression_eq (part : Part) (resolve : Resolver) :
    part.renderExpression resolve = (part.chain resolve).map (· ++ part.selector.shiftText) := by
  obtain ⟨selector, call, annotations, name, excluded⟩ := part
  cases call with
  | none => rfl
  | some call =>
    simp only [renderExpression, chain]
    cases call.render resolve (some selector) <;> rfl

theorem render_eq (part : Part) (resolve : Resolver) :
    part.render resolve = (part.chain resolve).map part.item := by
  rw [render, renderExpression_eq]
  cases part.chain resolve with
  | error error => rfl
  | ok chain =>
    simp only [Except.map, item]
    cases part.annotations with
    | none => rfl
    | some annotations => exact (apply_ite Except.ok _ _ _).symm

def callText (function : String) (arguments : List String) : String :=
  function ++ "(" ++ ", ".intercalate arguments ++ ")"

/-- Applying a function puts a call around the chain of a part. -/
theorem chain_apply (part : Part) (resolve : Resolver) (function : String)
    (arguments : List Argument) :
    (part.apply function arguments).chain resolve =
      (part.chain resolve).bind fun inner =>
        (renderArguments resolve (some part.selector) function arguments).map fun texts =>
          callText function (inner :: texts) := by
  obtain ⟨selector, call, annotations, name, excluded⟩ := part
  cases call with
  | none =>
    simp only [chain, apply, Call.render_eq_map, renderArguments_cons, Argument.render]
    cases renderArguments resolve (some selector) function arguments <;> rfl
  | some call =>
    simp only [chain, apply, Call.render_eq_map _ _ function, renderArguments_cons,
      Argument.render, Value.render]
    cases call.render resolve (some selector) with
    | error error => rfl
    | ok inner => cases renderArguments resolve (some selector) function arguments <;> rfl

/-- The chain of a confidence copy is the one of its part within one more call. -/
theorem chain_apply_nil (part : Part) (resolve : Resolver) (function : String) :
    (part.apply function []).chain resolve =
      (part.chain resolve).map fun chain => function ++ "(" ++ chain ++ ")" := by
  rw [chain_apply]
  cases part.chain resolve with
  | error error => rfl
  | ok chain => simp [renderArguments, callText, Except.bind, Except.map,
      String.intercalate_singleton]

theorem render_leadWith (part : Part) (resolve : Resolver) {lead : List String}
    (some : lead ≠ []) :
    (part.leadWith lead).render resolve = (part.chain resolve).map (part.itemUnder lead) := by
  have shown : (part.annotated.leadWith lead).isEmpty = false := by
    simp [Annotations.isEmpty, Annotations.leadWith, some]
  have item : (part.leadWith lead).item = part.itemUnder lead := by
    funext chain
    simp [Part.item, itemUnder, leadWith, mapAnnotations, shown]
  rw [render_eq, item]
  rfl

theorem render_confidenceCopy (part : Part) (resolve : Resolver) (index : Nat) :
    (part.channelCopy index .confidence).render resolve =
      (part.chain resolve).map fun chain =>
        part.itemUnder [showNat index, "c"] ("confidence(" ++ chain ++ ")") := by
  have item : (part.channelCopy index .confidence).item = part.itemUnder [showNat index, "c"] := by
    funext chain
    rfl
  have applied : (part.channelCopy index .confidence).chain resolve =
      (part.apply confidenceFunction []).chain resolve :=
    rfl
  rw [render_eq, item, applied, chain_apply_nil]
  cases part.chain resolve <;> rfl

end Part

/-! ## Items -/

namespace Query

/-- The parts that are written, with their indices. -/
def shown (query : Query) : List (Part × Nat) :=
  query.parts.zipIdx.filter fun part => !part.1.excluded

def written (query : Query) (items : List String) : String :=
  match query.range? with
  | none => "SELECT " ++ ", ".intercalate items
  | some range => "SELECT " ++ ", ".intercalate items ++ " " ++ range.text

def chainsOf (resolve : Resolver) (shown : List (Part × Nat)) : Except QueryError (List String) :=
  shown.mapM fun part => part.1.chain resolve

def itemsOf (shown : List (Part × Nat)) (chains : List String) : List String :=
  List.zipWith (fun part chain => part.1.item chain) shown chains

def sentItemsOf (confidence : Confidence) (shown : List (Part × Nat)) (chains : List String) :
    List String :=
  (List.zipWith (fun part chain => part.1.sentItems confidence part.2 chain) shown chains).flatten

theorem renderWith_eq (query : Query) (overrides : Variables) :
    query.renderWith overrides =
      (renderParts (resolver (query.environment overrides))
        (query.parts.filter fun part => !part.excluded)).map query.written := by
  rw [renderWith]
  cases renderParts (resolver (query.environment overrides))
      (query.parts.filter fun part => !part.excluded) with
  | error error => rfl
  | ok texts =>
    simp only [Except.map, written]
    cases query.range? <;> rfl

theorem renderParts_eq_mapM (resolve : Resolver) (parts : List Part) :
    renderParts resolve parts = parts.mapM (·.render resolve) := by
  induction parts with
  | nil => rfl
  | cons part rest ih =>
    rw [renderParts, mapM_cons_eq, ih]
    cases part.render resolve with
    | error error => rfl
    | ok text => cases rest.mapM (·.render resolve) <;> rfl

theorem map_fst_shown (query : Query) :
    query.shown.map Prod.fst = query.parts.filter fun part => !part.excluded := by
  have parts : query.parts = query.parts.zipIdx.map Prod.fst := (List.zipIdx_map_fst 0 query.parts).symm
  conv_rhs => rw [parts, List.filter_map]
  rfl

theorem filter_copies (confidence : Confidence) (part : Part) (index : Nat) :
    (part.copies confidence index).filter (fun copy => !copy.excluded) =
      if part.excluded then [] else part.copies confidence index := by
  have alike : ∀ copy ∈ part.copies confidence index, copy.excluded = part.excluded := by
    intro copy member
    rw [Part.copies_eq_map] at member
    obtain ⟨channel, _, rfl⟩ := List.mem_map.1 member
    exact part.copy_excluded confidence index channel
  cases excluded : part.excluded with
  | true =>
    rw [if_pos rfl, List.filter_eq_nil_iff]
    intro copy member
    simp [alike copy member, excluded]
  | false =>
    rw [if_neg (by simp), List.filter_eq_self]
    intro copy member
    simp [alike copy member, excluded]

theorem filter_copiesFrom (confidence : Confidence) (parts : List Part) :
    ∀ start, (copiesFrom confidence start parts).filter (fun copy => !copy.excluded) =
      ((parts.zipIdx start).filter fun part => !part.1.excluded).flatMap fun part =>
        part.1.copies confidence part.2 := by
  induction parts with
  | nil => intro start; rfl
  | cons part rest ih =>
    intro start
    rw [copiesFrom, List.filter_append, ih, filter_copies, List.zipIdx_cons, List.filter_cons]
    cases excluded : part.excluded with
    | true => simp
    | false => simp

theorem chainsOf_cons (resolve : Resolver) (part : Part × Nat) (rest : List (Part × Nat)) :
    chainsOf resolve (part :: rest) =
      match part.1.chain resolve with
      | .error error => .error error
      | .ok chain => (chainsOf resolve rest).map (chain :: ·) := by
  rw [chainsOf, mapM_cons_eq]
  cases part.1.chain resolve <;> rfl

theorem renderParts_shown (resolve : Resolver) (shown : List (Part × Nat)) :
    renderParts resolve (shown.map Prod.fst) = (chainsOf resolve shown).map (itemsOf shown) := by
  induction shown with
  | nil => rfl
  | cons part rest ih =>
    rw [List.map_cons, renderParts, ih, chainsOf_cons, Part.render_eq]
    cases part.1.chain resolve with
    | error error => rfl
    | ok chain => cases chainsOf resolve rest <;> rfl

theorem renderParts_copies (resolve : Resolver) (confidence : Confidence) (part : Part)
    (index : Nat) (rest : List Part) :
    renderParts resolve (part.copies confidence index ++ rest) =
      match part.chain resolve with
      | .error error => .error error
      | .ok chain => (renderParts resolve rest).map (part.sentItems confidence index chain ++ ·) := by
  have plain : (part.plainCopy index).render resolve =
      (part.chain resolve).map (part.itemUnder [showNat index]) :=
    part.render_leadWith resolve (List.cons_ne_nil _ _)
  have value : (part.channelCopy index .value).render resolve =
      (part.chain resolve).map (part.itemUnder [showNat index, "v"]) :=
    part.render_leadWith resolve (List.cons_ne_nil _ _)
  have confident := part.render_confidenceCopy resolve index
  cases confidence <;>
    simp only [Part.copies, Confidence.isEnabled, if_true, List.cons_append, List.nil_append,
      renderParts, plain, value, confident, Part.sentItems, Bool.false_eq_true, if_false] <;>
    cases part.chain resolve <;> cases renderParts resolve rest <;> rfl

theorem renderParts_sent (resolve : Resolver) (confidence : Confidence)
    (shown : List (Part × Nat)) :
    renderParts resolve (shown.flatMap fun part => part.1.copies confidence part.2) =
      (chainsOf resolve shown).map (sentItemsOf confidence shown) := by
  induction shown with
  | nil => rfl
  | cons part rest ih =>
    rw [List.flatMap_cons, renderParts_copies, ih, chainsOf_cons]
    cases part.1.chain resolve with
    | error error => rfl
    | ok chain => cases chainsOf resolve rest <;> rfl

theorem renderWith_eq_chainsOf (query : Query) (overrides : Variables) :
    query.renderWith overrides =
      (chainsOf (resolver (query.environment overrides)) query.shown).map fun chains =>
        query.written (itemsOf query.shown chains) := by
  rw [renderWith_eq, ← map_fst_shown, renderParts_shown]
  cases chainsOf (resolver (query.environment overrides)) query.shown <;> rfl

theorem renderWith_prepared (query : Query) (confidence : Confidence) (overrides : Variables) :
    (query.prepared confidence).renderWith overrides =
      (chainsOf (resolver (query.environment overrides)) query.shown).map fun chains =>
        query.written (sentItemsOf confidence query.shown chains) := by
  have expanded : resolver ((query.prepared confidence).environment overrides) =
      resolver (query.environment overrides) :=
    query.resolveWithin_prepared confidence overrides maxExpansions
  have copies : (query.prepared confidence).parts.filter (fun part => !part.excluded) =
      query.shown.flatMap fun part => part.1.copies confidence part.2 :=
    filter_copiesFrom confidence query.parts 0
  rw [renderWith_eq, expanded, copies, renderParts_sent]
  cases chainsOf (resolver (query.environment overrides)) query.shown <;> rfl

/-- The query that is sent fails to be written exactly if the query does, with
the same error. Otherwise both consist of the same calls and the same range: the
one of an item for each part that is not excluded, and the other of an item under
the index of the part, followed where confidence is asked for by one for the
confidence of the same calls. References are expanded alike in both. -/
theorem prepared_renders_alike (query : Query) (confidence : Confidence)
    (overrides : Variables) :
    (∀ error, (query.prepared confidence).renderWith overrides = .error error ↔
      query.renderWith overrides = .error error) ∧
    (∀ text, query.renderWith overrides = .ok text → ∃ chains,
      List.Forall₂ (fun part chain =>
        Part.chain (resolver (query.environment overrides)) part.1 = .ok chain)
        query.shown chains ∧
      text = query.written (itemsOf query.shown chains) ∧
      (query.prepared confidence).renderWith overrides =
        .ok (query.written (sentItemsOf confidence query.shown chains))) ∧
    ∀ expansions subject name,
      resolveWithin ((query.prepared confidence).environment overrides) expansions subject name =
        resolveWithin (query.environment overrides) expansions subject name := by
  refine ⟨?_, ?_, ?_⟩
  · intro error
    rw [renderWith_prepared, renderWith_eq_chainsOf]
    cases chainsOf (resolver (query.environment overrides)) query.shown with
    | error failure => simp [Except.map]
    | ok chains => simp [Except.map]
  · intro text success
    rw [renderWith_eq_chainsOf] at success
    rw [renderWith_prepared]
    cases chained : chainsOf (resolver (query.environment overrides)) query.shown with
    | error failure =>
      rw [chained] at success
      cases success
    | ok chains =>
      rw [chained] at success
      exact ⟨chains, (mapM_eq_ok_iff _ _ _).1 chained, (Except.ok.inj success).symm, rfl⟩
  · intro expansions subject name
    rw [resolveWithin_prepared]

/-- A part with a label, which refers to an excluded one. -/
theorem prepared_renders_alike_reference :
    let selector : Selector := ⟨"org", .all, none, some ⟨"1d"⟩⟩
    let total : Part := ⟨selector, some ⟨"sum", [.subject]⟩, none, some "total", true⟩
    let mean : Part := ⟨selector, some ⟨"avg", [.reference "total"]⟩,
      some (Annotations.labeled "x"), none, false⟩
    let query : Query := { Query.empty with parts := [total, mean] }
    query.renderWith ∅ =
      .ok "SELECT avg(sum(ALL FROM 'org') SHIFT BY 1d) SHIFT BY 1d AS 'x'" ∧
    ∃ chains, List.Forall₂ (fun part chain =>
        Part.chain (resolver (query.environment ∅)) part.1 = .ok chain) query.shown chains ∧
      (query.prepared .on).renderWith ∅ =
        .ok (query.written (sentItemsOf .on query.shown chains)) := by
  intro selector total mean query
  have success : query.renderWith ∅ =
      .ok "SELECT avg(sum(ALL FROM 'org') SHIFT BY 1d) SHIFT BY 1d AS 'x'" := by rfl
  obtain ⟨_, sent, _⟩ := prepared_renders_alike query .on ∅
  obtain ⟨chains, chained, _, rendered⟩ := sent _ success
  exact ⟨success, chains, chained, rendered⟩

end Query

end MetricQuery
