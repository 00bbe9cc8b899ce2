import MetricQuery.Proofs.Nodes
import MetricQuery.Proofs.QueryDocuments

/-!
# Nodes that are read from documents

Each reader makes the nodes below a node from values inside of its document, so that
whatever is held by a node that is read is read itself, from a piece of the
document. Hence what is demanded of everything that is read is shown for one reader
at a time.
-/

set_option autoImplicit false

namespace MetricQuery

theorem Json.HasPiece.kept {documents : Json → Prop} {document piece : Json}
    (isPiece : document.HasPiece piece)
    (pieces : ∀ document, documents document → ∀ piece ∈ document.pieces, documents piece)
    (given : documents document) : documents piece := by
  induction isPiece with
  | refl => exact given
  | tail _ below ih => exact pieces _ ih _ below

namespace Node

/-- What a document is read as. -/
def ReadFrom (document : Json) : Node → Prop
  | .tag own => Tag.ofJson document = .ok own
  | .metric own => Metric.ofJson document = .ok own
  | .duration own => Duration.ofJson document = .ok own
  | .condition own => Condition.ofJson document = .ok own
  | .selector own => Selector.ofJson document = .ok own
  | .annotations own => Annotations.ofJson document = .ok own
  | .value own => Value.ofJson document = .ok own
  | .argument own => Argument.ofJson document = .ok own
  | .call own => Call.ofJson document = .ok own
  | .part own => Part.ofJson document = .ok own
  | .query own => Query.ofJson document = .ok own

/-- A node that a piece of a document is read as. -/
def Inside (document : Json) (node : Node) : Prop :=
  ∃ piece, document.HasPiece piece ∧ node.ReadFrom piece

variable {document : Json}

theorem ReadFrom.inside {node : Node} (read : node.ReadFrom document) : node.Inside document :=
  ⟨document, .refl, read⟩

theorem Inside.of_hasPiece {piece : Json} {node : Node} (inside : node.Inside piece)
    (isPiece : document.HasPiece piece) : node.Inside document := by
  obtain ⟨inner, deeper, read⟩ := inside
  exact ⟨inner, isPiece.trans deeper, read⟩

/-! ## Combinators of readers -/

section

variable {α : Type} (kind : α → Node)

theorem inside_of_asOptional {read : Json → Decoded α} {given : Option α}
    (each : ∀ own, read document = .ok own → (kind own).ReadFrom document)
    (success : document.asOptional read = .ok given) :
    ∀ node ∈ given.toList.map kind, node.Inside document := by
  intro node member
  obtain ⟨own, present, rfl⟩ := List.mem_map.1 member
  exact (each own (Json.asOptional_eq_ok success own (Option.mem_toList.1 present))).inside

theorem inside_of_asList {read : Json → Decoded α} {given : List α}
    (each : ∀ item own, read item = .ok own → (kind own).ReadFrom item)
    (success : document.asList read = .ok given) :
    ∀ node ∈ given.map kind, node.Inside document := by
  intro node member
  obtain ⟨own, listed, rfl⟩ := List.mem_map.1 member
  obtain ⟨items, rfl, readItems⟩ := Json.asList_eq_ok success
  obtain ⟨item, isItem, found⟩ := readItems own listed
  exact ⟨item, .single isItem, each item own found⟩

/-- The nodes of a structure are inside of its document if each field adds only nodes
that are inside of its value. -/
theorem inside_of_asStructure {known : List String} {draft final : α}
    {set : α → String → Json → Decoded α} (nodes : α → List Node)
    (step : ∀ name value before after, set before name value = .ok after →
      ∀ node ∈ nodes after, node ∈ nodes before ∨ name ≠ "static" ∧ node.Inside value)
    (start : nodes draft = []) (success : document.asStructure known draft set = .ok final) :
    ∀ node ∈ nodes final, node.Inside document := by
  obtain ⟨fields, found, read⟩ := Json.asStructure_eq_ok success
  refine foldlM_invariant (fun draft => ∀ node ∈ nodes draft, node.Inside document) ?_ ?_ read
  · intro field member before after inside setField node isNode
    rcases step field.1 field.2 before after setField node isNode with old | ⟨notStatic, new⟩
    · exact inside node old
    · have isPiece := Json.mem_pieces_of_structureFields found field member notStatic
      exact new.of_hasPiece (.single isPiece)
  · simp [start]

end

end Node

/-! ## What each reader makes -/

namespace Condition

theorem children_inside {document : Json} {condition : Condition}
    (success : ofJson document = .ok condition) :
    ∀ child ∈ (Node.condition condition).children, child.Inside document := by
  rcases ofJson_eq_ok success with rfl | ⟨operator, arguments, isPiece, found⟩
  · intro child below
    cases below
  · suffices inside : ∀ child ∈ (Node.condition condition).children, child.Inside arguments from
      fun child below => (inside child below).of_hasPiece (.single isPiece)
    rcases ofArguments_eq_ok found with
      ⟨given, tag, value, own, read, same⟩ | ⟨one, other, left, right, rfl, first, second, same⟩ | rfl
    · have below : (Node.condition condition).children = [.tag tag] := by
        rcases same with rfl | rfl | rfl <;> rfl
      rw [below, List.forall_mem_singleton]
      exact ⟨given, own, read⟩
    · have below : (Node.condition condition).children = [.condition left, .condition right] := by
        rcases same with rfl | rfl <;> rfl
      rw [below, List.forall_mem_cons, List.forall_mem_singleton]
      constructor
      · exact ⟨one, .single List.mem_cons_self, first⟩
      · exact ⟨other, .single (List.mem_cons_of_mem _ List.mem_cons_self), second⟩
    · intro child below
      cases below

end Condition

namespace Selector

def Draft.nodes (draft : Draft) : List Node :=
  draft.metric.toList.map .metric ++ draft.condition.toList.map .condition

theorem setField_nodes {draft next : Draft} {name : String} {value : Json}
    (success : setField draft name value = .ok next) :
    ∀ node ∈ next.nodes, node ∈ draft.nodes ∨ name ≠ "static" ∧ node.Inside value := by
  intro node isNode
  unfold setField at success
  split at success
  · obtain ⟨given, _, rfl⟩ := map_eq_ok success
    exact Or.inl isNode
  · obtain ⟨given, read, rfl⟩ := map_eq_ok success
    obtain ⟨found, own, rfl⟩ := bind_some_eq_ok read
    rcases List.mem_append.1 isNode with new | old
    · obtain rfl := List.mem_singleton.1 new
      exact Or.inr ⟨by decide, Node.ReadFrom.inside own⟩
    · exact Or.inl (List.mem_append_right _ old)
  · obtain ⟨given, read, rfl⟩ := map_eq_ok success
    rcases List.mem_append.1 isNode with old | new
    · exact Or.inl (List.mem_append_left _ old)
    · exact Or.inr ⟨by decide, Node.inside_of_asOptional .condition (fun _ own => own) read node new⟩
  · obtain ⟨given, _, rfl⟩ := map_eq_ok success
    exact Or.inl isNode
  · obtain rfl := Except.ok.inj success
    exact Or.inl isNode

theorem children_inside {document : Json} {selector : Selector}
    (success : ofJson document = .ok selector) :
    ∀ child ∈ (Node.selector selector).children, child.Inside document := by
  unfold ofJson at success
  split at success
  · rename_i draft read
    have inside := Node.inside_of_asStructure Draft.nodes
      (fun _ _ _ _ set => setField_nodes set) rfl read
    unfold Draft.finish at success
    split at success
    · obtain rfl := Except.ok.inj success
      exact inside
    · cases success
  · cases success

end Selector

namespace Annotations

theorem setField_nodes {draft next : Annotations} {name : String} {value : Json}
    (success : setField draft name value = .ok next) :
    ∀ node ∈ (Node.annotations next).children,
      node ∈ (Node.annotations draft).children ∨ name ≠ "static" ∧ node.Inside value := by
  intro node isNode
  unfold setField at success
  split at success
  · obtain ⟨given, _, rfl⟩ := map_eq_ok success
    exact Or.inl isNode
  · obtain ⟨given, read, rfl⟩ := map_eq_ok success
    exact Or.inr ⟨by decide, Node.inside_of_asList .tag (fun _ _ own => own) read node isNode⟩
  · obtain ⟨given, _, rfl⟩ := map_eq_ok success
    exact Or.inl isNode
  · obtain ⟨given, _, rfl⟩ := map_eq_ok success
    exact Or.inl isNode
  · obtain rfl := Except.ok.inj success
    exact Or.inl isNode

theorem children_inside {document : Json} {annotations : Annotations}
    (success : ofJson document = .ok annotations) :
    ∀ child ∈ (Node.annotations annotations).children, child.Inside document :=
  Node.inside_of_asStructure (fun draft => (Node.annotations draft).children)
    (fun _ _ _ _ set => setField_nodes set) rfl success

end Annotations

namespace Call

def Draft.nodes (draft : Draft) : List Node :=
  (draft.arguments.getD []).map .argument

theorem setDocument_nodes {draft next : Draft} {name : String} {value : Json}
    (success : setDocument draft name value = .ok next) :
    ∀ node ∈ next.nodes, node ∈ draft.nodes ∨ name ≠ "static" ∧ node.Inside value := by
  intro node isNode
  unfold setDocument setField at success
  split at success
  · obtain ⟨given, _, rfl⟩ := map_eq_ok success
    exact Or.inl isNode
  · obtain ⟨given, read, rfl⟩ := map_eq_ok success
    obtain ⟨found, own, rfl⟩ := bind_some_eq_ok read
    exact Or.inr ⟨by decide, Node.inside_of_asList .argument (fun _ _ own => own) own node isNode⟩
  · obtain rfl := Except.ok.inj success
    exact Or.inl isNode

theorem children_inside {document : Json} {call : Call} (success : ofJson document = .ok call) :
    ∀ child ∈ (Node.call call).children, child.Inside document := by
  rw [ofJson_eq] at success
  split at success
  · rename_i draft read
    have inside := Node.inside_of_asStructure Draft.nodes
      (fun _ _ _ _ set => setDocument_nodes set) rfl read
    unfold Draft.finish at success
    split at success
    · obtain rfl := Except.ok.inj success
      exact inside
    · cases success
  · cases success

end Call

namespace Part

def Draft.nodes (draft : Draft) : List Node :=
  draft.selector.toList.map .selector ++
    (draft.call.toList.map .call ++ draft.annotations.toList.map .annotations)

theorem setDocument_nodes {draft next : Draft} {name : String} {value : Json}
    (success : setDocument draft name value = .ok next) :
    ∀ node ∈ next.nodes, node ∈ draft.nodes ∨ name ≠ "static" ∧ node.Inside value := by
  intro node isNode
  unfold setDocument setField at success
  split at success
  · obtain ⟨given, read, rfl⟩ := map_eq_ok success
    obtain ⟨found, own, rfl⟩ := bind_some_eq_ok read
    rcases List.mem_append.1 isNode with new | old
    · obtain rfl := List.mem_singleton.1 new
      exact Or.inr ⟨by decide, Node.ReadFrom.inside own⟩
    · exact Or.inl (List.mem_append_right _ old)
  · obtain ⟨given, read, rfl⟩ := map_eq_ok success
    rw [Json.asOptional_const] at read
    simp only [Draft.nodes, List.mem_append] at isNode ⊢
    rcases isNode with old | new | old
    · exact Or.inl (Or.inl old)
    · exact Or.inr ⟨by decide, Node.inside_of_asOptional .call (fun _ own => own) read node new⟩
    · exact Or.inl (Or.inr (Or.inr old))
  · obtain ⟨given, read, rfl⟩ := map_eq_ok success
    simp only [Draft.nodes, List.mem_append] at isNode ⊢
    rcases isNode with old | old | new
    · exact Or.inl (Or.inl old)
    · exact Or.inl (Or.inr (Or.inl old))
    · exact Or.inr ⟨by decide, Node.inside_of_asOptional .annotations (fun _ own => own) read node new⟩
  · obtain ⟨given, _, rfl⟩ := map_eq_ok success
    exact Or.inl isNode
  · obtain ⟨given, _, rfl⟩ := map_eq_ok success
    exact Or.inl isNode
  · obtain rfl := Except.ok.inj success
    exact Or.inl isNode

theorem children_inside {document : Json} {part : Part} (success : ofJson document = .ok part) :
    ∀ child ∈ (Node.part part).children, child.Inside document := by
  rw [ofJson_eq] at success
  split at success
  · rename_i draft read
    have inside := Node.inside_of_asStructure Draft.nodes
      (fun _ _ _ _ set => setDocument_nodes set) rfl read
    unfold Draft.finish at success
    split at success
    · obtain rfl := Except.ok.inj success
      exact inside
    · cases success
  · cases success

end Part

theorem Value.children_inside {document : Json} {value : Value}
    (success : ofJson document = .ok value) :
    ∀ child ∈ (Node.value value).children, child.Inside document := by
  unfold ofJson at success
  split at success
  · rename_i kind content
    have isPiece : kind ≠ "static" → content ∈ (Json.object [(kind, content)]).pieces :=
      Json.mem_pieces_of_mem List.mem_cons_self
    split at success
    · obtain ⟨text, _, rfl⟩ := map_eq_ok success
      simp [Node.children]
    · obtain ⟨x, _, rfl⟩ := map_eq_ok success
      simp [Node.children]
    · obtain ⟨selector, read, rfl⟩ := map_eq_ok success
      exact List.forall_mem_singleton.2 ⟨content, .single (isPiece (by decide)), read⟩
    · obtain ⟨call, read, rfl⟩ := map_eq_ok success
      exact List.forall_mem_singleton.2 ⟨content, .single (isPiece (by decide)), read⟩
    · obtain ⟨part, read, rfl⟩ := map_eq_ok success
      exact List.forall_mem_singleton.2 ⟨content, .single (isPiece (by decide)), read⟩
    · cases success
  · cases success

theorem Argument.children_inside {document : Json} {argument : Argument}
    (success : ofJson document = .ok argument) :
    ∀ child ∈ (Node.argument argument).children, child.Inside document := by
  unfold ofJson at success
  split at success
  · split at success
    · obtain rfl := Except.ok.inj success
      simp [Node.children]
    · cases success
  · rename_i kind content
    split at success
    · split at success
      · obtain rfl := Except.ok.inj success
        simp [Node.children]
      · cases success
    · obtain ⟨name, _, rfl⟩ := map_eq_ok success
      simp [Node.children]
    · obtain ⟨value, read, rfl⟩ := map_eq_ok success
      have isPiece : content ∈ (Json.object [("value", content)]).pieces :=
        Json.mem_pieces_of_mem List.mem_cons_self (by decide)
      exact List.forall_mem_singleton.2 ⟨content, .single isPiece, read⟩
    · cases success
  · cases success

namespace Query

/-- No document binds a variable. -/
theorem setField_nodes {draft next : Query} {name : String} {value : Json}
    (success : setField draft name value = .ok next) :
    ∀ node ∈ (Node.query next).children,
      node ∈ (Node.query draft).children ∨ name ≠ "static" ∧ node.Inside value := by
  intro node isNode
  unfold setField at success
  split at success
  · obtain ⟨given, _, rfl⟩ := map_eq_ok success
    exact Or.inl isNode
  · obtain ⟨given, read, rfl⟩ := map_eq_ok success
    simp only [Node.children, List.append_assoc, List.mem_append] at isNode ⊢
    rcases isNode with new | old
    · exact Or.inr ⟨by decide, Node.inside_of_asList .part (fun _ _ own => own) read node new⟩
    · exact Or.inl (Or.inr old)
  · obtain ⟨given, _, rfl⟩ := map_eq_ok success
    exact Or.inl isNode
  · obtain ⟨given, _, rfl⟩ := map_eq_ok success
    exact Or.inl isNode
  · obtain ⟨given, read, rfl⟩ := map_eq_ok success
    simp only [Node.children, List.mem_append] at isNode ⊢
    rcases isNode with old | new
    · exact Or.inl (Or.inl old)
    · exact Or.inr ⟨by decide, Node.inside_of_asOptional .duration (fun _ own => own) read node new⟩
  · obtain rfl := Except.ok.inj success
    exact Or.inl isNode

theorem children_inside {document : Json} {query : Query} (success : ofJson document = .ok query) :
    ∀ child ∈ (Node.query query).children, child.Inside document :=
  Node.inside_of_asStructure (fun draft => (Node.query draft).children)
    (fun _ _ _ _ set => setField_nodes set) rfl success

end Query

/-! ## What is held by what is read -/

namespace Node

variable {document : Json}

theorem ReadFrom.children_inside {node : Node} (read : node.ReadFrom document) :
    ∀ child ∈ node.children, child.Inside document := by
  cases node with
  | tag | metric | duration =>
    intro child below
    cases below
  | condition => exact Condition.children_inside read
  | selector => exact Selector.children_inside read
  | annotations => exact Annotations.children_inside read
  | value => exact Value.children_inside read
  | argument => exact Argument.children_inside read
  | call => exact Call.children_inside read
  | part => exact Part.children_inside read
  | query => exact Query.children_inside read

/-- Whatever a node holds that is read is read from a piece of its document. -/
theorem ReadFrom.inside_of_holds {node inner : Node} (read : node.ReadFrom document)
    (held : node.Holds inner) : inner.Inside document := by
  induction held with
  | refl => exact read.inside
  | tail _ below ih =>
    obtain ⟨piece, isPiece, readPiece⟩ := ih
    exact (readPiece.children_inside _ below).of_hasPiece isPiece

/-- What is demanded of each reader by itself holds of all that is held by what is
read. -/
theorem satisfies_of_readFrom {demand : Demand} {documents : Json → Prop}
    (pieces : ∀ document, documents document → ∀ piece ∈ document.pieces, documents piece)
    (each : ∀ document node, documents document → node.ReadFrom document → demand.At node)
    (given : documents document) {node : Node} (read : node.ReadFrom document) :
    node.Satisfies demand := by
  intro inner held
  obtain ⟨piece, isPiece, readPiece⟩ := read.inside_of_holds held
  exact each piece inner (isPiece.kept pieces given) readPiece

end Node

end MetricQuery
