import MetricQuery.Proofs.Preparation
import MetricQuery.Selection

/-!
# Excluded parts

A part that is excluded loses its item and nothing else. It keeps its place, so that
the copies of the other parts are sent under the indices that they had, and it keeps
its name, so that references to it are written as before.
-/

set_option autoImplicit false

namespace MetricQuery

/-- The parts that are written. -/
def shownParts (parts : List Part) : List Part :=
  parts.filter fun part => !part.excluded

theorem shownParts_cons (part : Part) (rest : List Part) :
    shownParts (part :: rest) =
      if part.excluded then shownParts rest else part :: shownParts rest := by
  rw [shownParts, List.filter_cons]
  cases part.excluded <;> rfl

theorem shownParts_append (front back : List Part) :
    shownParts (front ++ back) = shownParts front ++ shownParts back :=
  List.filter_append front back

theorem shownParts_exclude (parts : List Part) (index : Nat) :
    shownParts (parts.modify index Part.exclude) = shownParts (parts.eraseIdx index) := by
  rcases Nat.lt_or_ge index parts.length with inside | outside
  · rw [List.modify_eq_take_cons_drop inside, List.eraseIdx_eq_take_drop_succ, shownParts_append,
      shownParts_append, shownParts_cons]
    rfl
  · rw [List.modify_eq_self outside, List.eraseIdx_of_length_le outside]

def excludeAt (index : Nat) (entry : Part × Nat) : Part × Nat :=
  (if entry.2 = index then entry.1.exclude else entry.1, entry.2)

theorem zipIdx_exclude (parts : List Part) (index : Nat) :
    (parts.modify index Part.exclude).zipIdx = parts.zipIdx.map (excludeAt index) := by
  apply List.ext_getElem?
  intro place
  rw [List.getElem?_zipIdx, List.getElem?_modify, List.getElem?_map, List.getElem?_zipIdx,
    Nat.zero_add]
  cases parts[place]? with
  | none => rfl
  | some part =>
    by_cases here : place = index
    · simp [excludeAt, here]
    · simp [excludeAt, here, Ne.symm here]

theorem filter_zipIdx_exclude (parts : List Part) (index : Nat) :
    (parts.modify index Part.exclude).zipIdx.filter (fun entry => !entry.1.excluded) =
      (parts.zipIdx.filter fun entry => !entry.1.excluded).filter fun entry => entry.2 ≠ index := by
  have left : ((fun entry => !entry.1.excluded) ∘ excludeAt index) =
      fun entry => decide (entry.2 ≠ index) && !entry.1.excluded := by
    funext entry
    by_cases here : entry.2 = index
    · simp [excludeAt, here, Part.exclude]
    · simp [excludeAt, here]
  have kept : ∀ entry ∈ parts.zipIdx.filter fun entry =>
      decide (entry.2 ≠ index) && !entry.1.excluded, excludeAt index entry = entry := by
    intro entry member
    have apart := (Bool.and_eq_true_iff.1 (List.mem_filter.1 member).2).1
    rw [excludeAt, if_neg (of_decide_eq_true apart)]
  rw [zipIdx_exclude, List.filter_map, left, List.filter_filter, List.map_congr_left kept,
    List.map_id']

/-! ## References to an excluded part -/

theorem Part.sameText_exclude (part : Part) : Value.SameText (.part part) (.part part.exclude) := by
  intro resolve subject
  have selector : part.exclude.selector = part.selector := rfl
  have call : part.exclude.call = part.call := rfl
  rw [Value.render, Value.render, Part.renderExpression_congr selector call]

theorem namedOf_related {parts others : List Part}
    (related : List.Forall₂ (fun part other => part.name = other.name ∧
      Value.SameText (.part part) (.part other)) parts others) :
    List.Forall₂ (fun one other => one.1 = other.1 ∧ Value.SameText one.2 other.2)
      (namedOf parts) (namedOf others) := by
  induction related with
  | nil => exact .nil
  | @cons part other _ _ alike _ ih =>
    rw [namedOf_cons, namedOf_cons, ← alike.1]
    cases part.name with
    | none => exact ih
    | some name => exact .cons ⟨rfl, alike.2⟩ ih

namespace Query

theorem environment_exclude (query : Query) (index : Nat) (overrides : Variables) :
    (query.environment overrides).SameTexts
      ((Selection.exclude ⟨query, index⟩).query.environment overrides) := by
  have related : List.Forall₂ (fun part other => part.name = other.name ∧
      Value.SameText (.part part) (.part other)) query.parts
      (query.parts.modify index Part.exclude) :=
    forall₂_modify (fun part => ⟨rfl, .refl _⟩) (fun part => ⟨rfl, part.sameText_exclude⟩)
      query.parts index
  have named : Variables.SameTexts (Bindings.ofList query.namedParts)
      (Bindings.ofList (Selection.exclude ⟨query, index⟩).query.namedParts) :=
    Bindings.rel_get?_insertAll (namedOf_related related) fun _ => .none
  exact (named.overlaid query.bindings).overlaid overrides

/-- References are expanded alike whether or not a part is excluded. -/
theorem resolver_exclude (query : Query) (index : Nat) (overrides : Variables) :
    resolver ((Selection.exclude ⟨query, index⟩).query.environment overrides) =
      resolver (query.environment overrides) :=
  (resolveWithin_congr (query.environment_exclude index overrides) maxExpansions).symm

/-! ## The items that are left -/

def Items (resolve : Resolver) : List Part → List String → Prop :=
  List.Forall₂ fun part item => part.render resolve = .ok item

section Items

variable {resolve : Resolver} {parts : List Part}

theorem renderParts_eq_ok_iff {items : List String} :
    renderParts resolve parts = .ok items ↔ Items resolve parts items := by
  rw [renderParts_eq_mapM, mapM_eq_ok_iff]
  rfl

theorem renderParts_eq_error_iff {error : QueryError} :
    renderParts resolve parts = .error error ↔
      ∃ front failing back, parts = front ++ failing :: back ∧
        (∀ part ∈ front, ∃ item, part.render resolve = .ok item) ∧
        failing.render resolve = .error error := by
  rw [renderParts_eq_mapM, mapM_eq_error_iff]

theorem Items.split {front back : List Part} {part : Part} {items : List String}
    (written : Items resolve (front ++ part :: back) items) :
    ∃ before item behind, items = before ++ item :: behind ∧ Items resolve front before ∧
      part.render resolve = .ok item ∧ Items resolve back behind := by
  induction front generalizing items with
  | nil =>
    cases written with
    | cons own later => exact ⟨[], _, _, rfl, .nil, own, later⟩
  | cons first rest ih =>
    cases written with
    | cons own later =>
      obtain ⟨before, item, behind, rfl, front, here, back⟩ := ih later
      exact ⟨_ :: before, item, behind, rfl, .cons own front, here, back⟩

end Items

theorem renderWith_eq_of_shown (query : Query) (overrides : Variables) :
    query.renderWith overrides =
      (renderParts (resolver (query.environment overrides)) (shownParts query.parts)).map
        query.written :=
  query.renderWith_eq overrides

theorem renderWith_exclude_eq (query : Query) (index : Nat) (overrides : Variables) :
    (Selection.exclude ⟨query, index⟩).query.renderWith overrides =
      (renderParts (resolver (query.environment overrides))
        (shownParts (query.parts.eraseIdx index))).map query.written := by
  rw [renderWith_eq_of_shown, resolver_exclude, ← shownParts_exclude]
  rfl

theorem shown_exclude (query : Query) (index : Nat) :
    (Selection.exclude ⟨query, index⟩).query.shown =
      query.shown.filter fun part => part.2 ≠ index :=
  filter_zipIdx_exclude query.parts index

/-- The items that are sent for the parts that are left, under their own indices. -/
theorem renderWith_prepared_exclude (query : Query) (index : Nat) (confidence : Confidence)
    (overrides : Variables) :
    let left := query.shown.filter fun part => part.2 ≠ index
    ((Selection.exclude ⟨query, index⟩).query.prepared confidence).renderWith overrides =
      (chainsOf (resolver (query.environment overrides)) left).map fun chains =>
        query.written (sentItemsOf confidence left chains) := by
  intro left
  rw [renderWith_prepared, resolver_exclude, shown_exclude]
  rfl

theorem lead_of_prepared {query : Query} {confidence : Confidence} {channel : Channel}
    (sent : channel ∈ confidence.channels) {index : Nat} {copy : Part}
    (known : (query.prepared confidence).parts[confidence.place index channel]? = some copy) :
    copy.lead = Part.copyLead confidence index channel := by
  rw [getElem?_prepared query confidence sent] at known
  obtain ⟨part, _, rfl⟩ := Option.map_eq_some_iff.1 known
  rw [Part.lead, Part.copy_annotated]
  rfl

structure LosesItem (before after : Query) (index : Nat) (part : Part) (overrides : Variables) :
    Prop where
  succeeds : (∃ text, after.renderWith overrides = .ok text) ↔
    ∀ other ∈ shownParts (before.parts.eraseIdx index), ∃ item,
      other.render (resolver (before.environment overrides)) = .ok item
  written : ∀ text, after.renderWith overrides = .ok text ↔
    ∃ items, Items (resolver (before.environment overrides))
      (shownParts (before.parts.eraseIdx index)) items ∧ text = before.written items
  refused : ∀ error, after.renderWith overrides = .error error ↔
    ∃ front failing back, shownParts (before.parts.eraseIdx index) = front ++ failing :: back ∧
      (∀ other ∈ front, ∃ item,
        Part.render other (resolver (before.environment overrides)) = .ok item) ∧
      failing.render (resolver (before.environment overrides)) = .error error
  /-- Of the items of the text as it was, that of the part is missing. -/
  shortened : ∀ text, before.renderWith overrides = .ok text → ∃ front item back,
    Items (resolver (before.environment overrides)) (shownParts (before.parts.take index)) front ∧
    part.render (resolver (before.environment overrides)) = .ok item ∧
    Items (resolver (before.environment overrides)) (shownParts (before.parts.drop (index + 1)))
      back ∧
    text = before.written (front ++ item :: back) ∧
    after.renderWith overrides = .ok (before.written (front ++ back))
  /-- Whatever it refers to, a part is written as before. -/
  items : ∀ other : Part, other.render (resolver (after.environment overrides)) =
    other.render (resolver (before.environment overrides))
  copies : ∀ confidence other channel, channel ∈ Confidence.channels confidence →
    (∀ copy, (after.prepared confidence).parts[confidence.place other channel]? = some copy →
      copy.lead = Part.copyLead confidence other channel) ∧
    (other ≠ index →
      (after.prepared confidence).parts[confidence.place other channel]? =
        (before.prepared confidence).parts[confidence.place other channel]?)
  /-- What is sent are the items of the other parts, under the indices they had. -/
  sent : ∀ confidence, (after.prepared confidence).renderWith overrides =
    (chainsOf (resolver (before.environment overrides))
      (before.shown.filter fun other => other.2 ≠ index)).map fun chains =>
        before.written (sentItemsOf confidence
          (before.shown.filter fun other => other.2 ≠ index) chains)

theorem modify_reinstate_exclude {parts : List Part} {index : Nat} {part : Part}
    (known : parts[index]? = some part) (included : part.excluded = false) :
    (parts.modify index Part.exclude).modify index Part.reinstate = parts := by
  have same : part.exclude.reinstate = part := by
    cases part
    simp only [Part.exclude, Part.reinstate, ← included]
  apply List.ext_getElem?
  intro other
  rw [List.modify_modify_eq, List.getElem?_modify]
  by_cases here : index = other
  · rw [← here, known]
    simp [same]
  · simp [here]

section Excluding

variable {query : Query} {index : Nat} {part : Part} (overrides : Variables)

theorem renderWith_exclude_eq_ok_iff (text : String) :
    (Selection.exclude ⟨query, index⟩).query.renderWith overrides = .ok text ↔
      ∃ items, Items (resolver (query.environment overrides))
        (shownParts (query.parts.eraseIdx index)) items ∧ text = query.written items := by
  rw [renderWith_exclude_eq]
  constructor
  · intro success
    obtain ⟨items, rendered, rfl⟩ := map_eq_ok success
    exact ⟨items, renderParts_eq_ok_iff.1 rendered, rfl⟩
  · rintro ⟨items, rendered, rfl⟩
    rw [renderParts_eq_ok_iff.2 rendered]
    rfl

theorem renderWith_exclude_succeeds_iff :
    (∃ text, (Selection.exclude ⟨query, index⟩).query.renderWith overrides = .ok text) ↔
      ∀ other ∈ shownParts (query.parts.eraseIdx index), ∃ item,
        other.render (resolver (query.environment overrides)) = .ok item := by
  rw [← exists_forall₂_iff]
  constructor
  · rintro ⟨text, success⟩
    obtain ⟨items, written, _⟩ := (renderWith_exclude_eq_ok_iff overrides text).1 success
    exact ⟨items, written⟩
  · rintro ⟨items, written⟩
    exact ⟨_, (renderWith_exclude_eq_ok_iff overrides _).2 ⟨items, written, rfl⟩⟩

theorem renderWith_exclude_eq_error_iff (error : QueryError) :
    (Selection.exclude ⟨query, index⟩).query.renderWith overrides = .error error ↔
      ∃ front failing back, shownParts (query.parts.eraseIdx index) = front ++ failing :: back ∧
        (∀ other ∈ front, ∃ item,
          Part.render other (resolver (query.environment overrides)) = .ok item) ∧
        failing.render (resolver (query.environment overrides)) = .error error := by
  rw [renderWith_exclude_eq, ← renderParts_eq_error_iff]
  cases renderParts (resolver (query.environment overrides))
      (shownParts (query.parts.eraseIdx index)) <;> simp [Except.map]

theorem shortened_by_exclude (known : query.parts[index]? = some part)
    (included : part.excluded = false) {text : String}
    (success : query.renderWith overrides = .ok text) :
    let resolve := resolver (query.environment overrides)
    ∃ front item back, Items resolve (shownParts (query.parts.take index)) front ∧
      part.render resolve = .ok item ∧
      Items resolve (shownParts (query.parts.drop (index + 1))) back ∧
      text = query.written (front ++ item :: back) ∧
      (Selection.exclude ⟨query, index⟩).query.renderWith overrides =
        .ok (query.written (front ++ back)) := by
  intro resolve
  obtain ⟨inside, found⟩ := List.getElem?_eq_some_iff.1 known
  have split : shownParts query.parts = shownParts (query.parts.take index) ++
      part :: shownParts (query.parts.drop (index + 1)) := by
    have cut : query.parts = query.parts.take index ++ part :: query.parts.drop (index + 1) := by
      rw [← found, List.getElem_cons_drop, List.take_append_drop]
    have own : shownParts (part :: query.parts.drop (index + 1)) =
        part :: shownParts (query.parts.drop (index + 1)) := by
      rw [shownParts_cons, included]
      rfl
    conv_lhs => rw [cut, shownParts_append, own]
  have left : shownParts (query.parts.eraseIdx index) = shownParts (query.parts.take index) ++
      shownParts (query.parts.drop (index + 1)) := by
    rw [List.eraseIdx_eq_take_drop_succ, shownParts_append]
  rw [renderWith_eq_of_shown, split] at success
  obtain ⟨items, rendered, rfl⟩ := map_eq_ok success
  obtain ⟨front, item, back, rfl, before, own, behind⟩ := (renderParts_eq_ok_iff.1 rendered).split
  refine ⟨front, item, back, before, own, behind, rfl, ?_⟩
  rw [renderWith_exclude_eq_ok_iff, left]
  exact ⟨front ++ back, List.rel_append before behind, rfl⟩

theorem losesItem_exclude (known : query.parts[index]? = some part)
    (included : part.excluded = false) :
    query.LosesItem (Selection.exclude ⟨query, index⟩).query index part overrides where
  succeeds := renderWith_exclude_succeeds_iff overrides
  written := renderWith_exclude_eq_ok_iff overrides
  refused := renderWith_exclude_eq_error_iff overrides
  shortened _ := shortened_by_exclude overrides known included
  items other := by rw [resolver_exclude]
  copies confidence other channel sent := by
    refine ⟨fun copy => lead_of_prepared sent, fun apart => ?_⟩
    rw [getElem?_prepared _ confidence sent, getElem?_prepared _ confidence sent]
    have kept : (Selection.exclude ⟨query, index⟩).query.parts[other]? = query.parts[other]? :=
      List.getElem?_modify_ne Part.exclude query.parts (Ne.symm apart)
    rw [kept]
  sent confidence := renderWith_prepared_exclude query index confidence overrides

end Excluding

/-- Excluding a part that is written takes its item out of the text and changes nothing
else: the text is there exactly if all other parts can be written, and otherwise the
first of them that fails counts; no part is written in another way, however it refers to
the one that is excluded; and the copies of the other parts are sent under the indices
that they had. Including the part again gives back the query. -/
theorem exclude_losesItem (query : Query) (index : Nat) (part : Part)
    (known : query.parts[index]? = some part) (included : part.excluded = false)
    (overrides : Variables) :
    let selection : Selection := ⟨query, index⟩
    let after := selection.exclude.query
    query.selectAt index = .ok selection ∧
      query.LosesItem after index part overrides ∧
      after.selectAt index = .ok selection.exclude ∧
      selection.exclude.reinstate.query = query := by
  intro selection after
  obtain ⟨inside, found⟩ := List.getElem?_eq_some_iff.1 known
  have still : index < after.parts.length := by
    change index < (query.parts.modify index Part.exclude).length
    rwa [List.length_modify]
  refine ⟨if_pos inside, losesItem_exclude overrides known included, if_pos still, ?_⟩
  have restored := modify_reinstate_exclude known included
  simp only [selection, Selection.reinstate, Selection.exclude, Selection.map,
    Selection.mapQuery, restored]

/-- A named part, excluded while another one refers to it. -/
theorem exclude_losesItem_referenced :
    let selector : Selector := ⟨"org", .all, none, none⟩
    let total : Part := ⟨selector, some ⟨"sum", [.subject]⟩, none, some "total", false⟩
    let mean : Part := ⟨selector, some ⟨"avg", [.reference "total"]⟩, none, none, false⟩
    let query : Query := { Query.empty with parts := [total, mean] }
    let after := (Selection.exclude ⟨query, 0⟩).query
    query.parts[0]? = some total ∧ total.excluded = false ∧
      query.renderWith ∅ = .ok "SELECT sum(ALL FROM 'org'), avg(sum(ALL FROM 'org'))" ∧
      after.renderWith ∅ = .ok "SELECT avg(sum(ALL FROM 'org'))" ∧
      (after.prepared .off).renderWith ∅ = .ok "SELECT avg(sum(ALL FROM 'org')) AS '1'" ∧
      query.LosesItem after 0 total ∅ := by
  intro selector total mean query after
  obtain ⟨_, loses, _, _⟩ := exclude_losesItem query 0 total rfl rfl ∅
  exact ⟨rfl, rfl, by rfl, by rfl, by rfl, loses⟩

end Query

end MetricQuery
