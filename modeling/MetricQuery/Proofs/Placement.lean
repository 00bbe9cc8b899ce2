import MetricQuery.Proofs.Slots

/-!
# Placing a row

Placing a row searches the occurrences of its key for the first free slot, and
either fills it or adds a group. Here is all that one step can do.
-/

set_option autoImplicit false

namespace MetricQuery

variable {α : Type}

namespace RowGroup

def place (group : RowGroup α) : RowKey × Nat :=
  (group.key, group.occurrence)

@[simp] theorem fill_key (group : RowGroup α) (row : Row α) (channel : Channel) :
    (group.fill row channel).key = group.key := by
  cases channel <;> rfl

@[simp] theorem fill_place (group : RowGroup α) (row : Row α) (channel : Channel) :
    (group.fill row channel).place = group.place := by
  cases channel <;> rfl

@[simp] theorem ofRow_key (key : RowKey) (occurrence : Nat) (channel : Channel) (row : Row α) :
    (ofRow key occurrence channel row).key = key := by
  cases channel <;> rfl

@[simp] theorem ofRow_place (key : RowKey) (occurrence : Nat) (channel : Channel)
    (row : Row α) : (ofRow key occurrence channel row).place = (key, occurrence) := by
  cases channel <;> rfl

theorem row?_fill (group : RowGroup α) (row : Row α) (channel other : Channel) :
    (group.fill row channel).row? other =
      if other = channel then some row else group.row? other := by
  cases channel <;> cases other <;> rfl

theorem row?_ofRow (key : RowKey) (occurrence : Nat) (channel other : Channel) (row : Row α) :
    (ofRow key occurrence channel row).row? other =
      if other = channel then some row else none := by
  cases channel <;> cases other <;> rfl

/-- Groups are determined by their place and their rows. -/
theorem eq_of_rows {left right : RowGroup α} (places : left.place = right.place)
    (rows : ∀ channel, left.row? channel = right.row? channel) : left = right := by
  cases left
  cases right
  simp only [place, Prod.mk.injEq] at places
  have values := rows .value
  have confidences := rows .confidence
  simp only [row?] at values confidences
  simp [places, values, confidences]

theorem checked_eq_ok {group after : RowGroup α} (success : group.checked = .ok after) :
    after = group := by
  unfold checked at success
  split at success
  · split at success
    · exact (Except.ok.inj success).symm
    · cases success
  · exact (Except.ok.inj success).symm

theorem checked_error {group : RowGroup α} {error : QueryError}
    (failure : group.checked = .error error) :
    ∃ index value confidence, error = .mismatchedResolution index value confidence := by
  unfold checked at failure
  split at failure
  · split at failure
    · cases failure
    · exact ⟨_, _, _, (Except.error.inj failure).symm⟩
  · cases failure

end RowGroup

/-! ## The search for a free slot -/

def Taken (groups : List (RowGroup α)) (slot : Slot) : Prop :=
  ∃ group ∈ groups, group.place = slot.place ∧ (group.row? slot.channel).isSome

/-- The search among the occurrences of a key for a free slot, from one of them
on: it goes on behind a slot that is taken, and ends at any other, whether its
group is there already or not. -/
inductive Search (groups : List (RowGroup α)) (key : RowKey) (channel : Channel) :
    (start final : Nat) → Prop
  | found (occurrence : Nat) (free : ¬Taken groups ⟨key, occurrence, channel⟩) :
      Search groups key channel occurrence occurrence
  | next {occurrence final : Nat} (taken : Taken groups ⟨key, occurrence, channel⟩)
      (rest : Search groups key channel (occurrence + 1) final) :
      Search groups key channel occurrence final

theorem Search.of_taken {groups : List (RowGroup α)} {key : RowKey} {channel : Channel}
    {start final : Nat} (reached : start ≤ final)
    (taken : ∀ occurrence, start ≤ occurrence → occurrence < final →
      Taken groups ⟨key, occurrence, channel⟩)
    (free : ¬Taken groups ⟨key, final, channel⟩) :
    Search groups key channel start final := by
  obtain ⟨gap, rfl⟩ := Nat.exists_eq_add_of_le reached
  induction gap generalizing start with
  | zero => exact .found start free
  | succ gap ih =>
    refine .next (taken start (Nat.le_refl start) (by omega)) ?_
    have further : start + (gap + 1) = start + 1 + gap := by omega
    rw [further] at taken free ⊢
    refine ih (by omega) (fun occurrence later before => ?_) free
    exact taken occurrence (by omega) before

/-- The search has one end. -/
theorem Search.final_unique {groups : List (RowGroup α)} {key : RowKey} {channel : Channel}
    {start final other : Nat} (search : Search groups key channel start final)
    (again : Search groups key channel start other) : other = final := by
  induction search with
  | found occurrence free =>
    cases again with
    | found => rfl
    | next taken _ => exact absurd taken free
  | next taken _ ih =>
    cases again with
    | found _ free => exact absurd taken free
    | next _ rest => exact ih rest

/-- What a row does to the groups: its slot is free before and holds the row
after, in a group that was there or in a new one behind all others. All other
slots stay as they are. -/
inductive Puts (row : Row α) (slot : Slot) :
    (before after : List (RowGroup α)) → Prop
  | added {groups : List (RowGroup α)} (absent : slot.place ∉ groups.map RowGroup.place) :
      Puts row slot groups
        (groups ++ [RowGroup.ofRow slot.key slot.occurrence slot.channel row])
  | filled {front back : List (RowGroup α)} {group : RowGroup α}
      (here : group.place = slot.place) (free : group.row? slot.channel = none) :
      Puts row slot (front ++ group :: back)
        (front ++ group.fill row slot.channel :: back)

namespace Decoder

/-- The groups of a key among others. -/
def ofKey (key : RowKey) (groups : List (RowGroup α)) : List (RowGroup α) :=
  groups.filter fun group => group.key = key

/-- Placing a row adds a group where all groups of the key hold a row in its
channel, and otherwise fills the first one that does not. -/
theorem place_cases (key : RowKey) (channel : Channel) (row : Row α)
    (groups : List (RowGroup α)) (occurrence : Nat) :
    ((∀ group ∈ ofKey key groups, (group.row? channel).isSome) ∧
      place key channel row occurrence groups =
        .ok (groups ++
          [RowGroup.ofRow key (occurrence + (ofKey key groups).length) channel row])) ∨
    ∃ front group back, groups = front ++ group :: back ∧ group.key = key ∧
      group.row? channel = none ∧
      (∀ other ∈ ofKey key front, (other.row? channel).isSome) ∧
      place key channel row occurrence groups =
        (group.fill row channel).checked.map fun filled => front ++ filled :: back := by
  induction groups generalizing occurrence with
  | nil => exact Or.inl ⟨by simp [ofKey], by simp [place, ofKey]⟩
  | cons head rest ih =>
    by_cases same : head.key = key
    · cases held : head.row? channel with
      | none =>
        refine Or.inr ⟨[], head, rest, rfl, same, held, by simp [ofKey], ?_⟩
        simp [place, same, held]
      | some _ =>
        rcases ih (occurrence + 1) with ⟨full, placed⟩ | ⟨front, group, back, split, at_key,
          free, full, placed⟩
        · refine Or.inl ⟨?_, ?_⟩
          · intro group member
            rw [ofKey, List.filter_cons_of_pos (by simpa using same)] at member
            rcases List.mem_cons.1 member with rfl | member
            · simp [held]
            · exact full group member
          · have count : occurrence + 1 + (ofKey key rest).length =
                occurrence + (ofKey key (head :: rest)).length := by
              simp [ofKey, same]
              omega
            simp only [place, same, held, placed, if_true, count]
            rfl
        · refine Or.inr ⟨head :: front, group, back, by simp [split], at_key, free, ?_, ?_⟩
          · intro other member
            rw [ofKey, List.filter_cons_of_pos (by simpa using same)] at member
            rcases List.mem_cons.1 member with rfl | member
            · simp [held]
            · exact full other member
          · simp only [place, same, held, placed, if_true]
            cases (group.fill row channel).checked <;> rfl
    · rcases ih occurrence with ⟨full, placed⟩ | ⟨front, group, back, split, at_key, free,
        full, placed⟩
      · refine Or.inl ⟨?_, ?_⟩
        · intro group member
          rw [ofKey, List.filter_cons_of_neg (by simpa using same)] at member
          exact full group member
        · simp [place, same, placed, ofKey, Except.map]
      · refine Or.inr ⟨head :: front, group, back, by simp [split], at_key, free, ?_, ?_⟩
        · intro other member
          rw [ofKey, List.filter_cons_of_neg (by simpa using same)] at member
          exact full other member
        · simp only [place, same, placed, if_false]
          cases (group.fill row channel).checked <;> rfl

theorem addRow_eq_ok {decoder : Decoder} {groups after : List (RowGroup α)} {row : Row α}
    (success : decoder.addRow groups row = .ok after) :
    ∃ key channel, decoder.parseName row.name = .ok (key, channel) ∧
      place key channel row 0 groups = .ok after := by
  unfold addRow at success
  split at success
  · cases success
  · rename_i key channel parsed
    exact ⟨key, channel, parsed, success⟩

theorem addRow_error {decoder : Decoder} {groups : List (RowGroup α)} {row : Row α}
    {error : QueryError} (failure : decoder.addRow groups row = .error error) :
    decoder.parseName row.name = .error error ∨
      ∃ index value confidence, error = .mismatchedResolution index value confidence := by
  unfold addRow at failure
  split at failure
  · rename_i cause
    exact Or.inl (by rw [cause, Except.error.inj failure])
  · rename_i key channel parsed
    refine Or.inr ?_
    rcases Decoder.place_cases key channel row groups 0 with ⟨_, result⟩ |
      ⟨front, group, back, _, _, _, _, result⟩
    · rw [failure] at result
      cases result
    · rw [failure] at result
      cases check : (group.fill row channel).checked with
      | ok filled => rw [check] at result; cases result
      | error cause =>
        rw [check] at result
        obtain rfl : error = cause := Except.error.inj result
        exact RowGroup.checked_error check

end Decoder

end MetricQuery
