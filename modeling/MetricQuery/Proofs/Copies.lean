import MetricQuery.Execution

/-!
# Copies

Each part of a query is sent in one copy for each of its channels, at a place
that follows from the index of the part and the channel.
-/

set_option autoImplicit false

namespace MetricQuery

namespace Confidence

/-- The channels that each part is sent for. -/
def channels (confidence : Confidence) : List Channel :=
  if confidence.isEnabled then [.value, .confidence] else [.value]

def place (confidence : Confidence) (index : Nat) (channel : Channel) : Nat :=
  confidence.channels.length * index + confidence.channels.idxOf channel

end Confidence

namespace Part

/-- The copy of a part for one of the channels. -/
def copy (part : Part) (confidence : Confidence) (index : Nat) (channel : Channel) : Part :=
  if confidence.isEnabled then part.channelCopy index channel else part.plainCopy index

theorem copies_eq_map (confidence : Confidence) (part : Part) (index : Nat) :
    part.copies confidence index = confidence.channels.map (part.copy confidence index) := by
  cases confidence <;> rfl

theorem copy_selector (part : Part) (confidence : Confidence) (index : Nat)
    (channel : Channel) : (part.copy confidence index channel).selector = part.selector := by
  cases confidence <;> cases channel <;> rfl

theorem copy_excluded (part : Part) (confidence : Confidence) (index : Nat)
    (channel : Channel) : (part.copy confidence index channel).excluded = part.excluded := by
  cases confidence <;> cases channel <;> rfl

theorem call_copy_value (part : Part) (confidence : Confidence) (index : Nat) :
    (part.copy confidence index .value).call = part.call := by
  cases confidence <;> rfl

def copyLead (confidence : Confidence) (index : Nat) (channel : Channel) : List String :=
  if confidence.isEnabled then [showNat index, channel.sectionText] else [showNat index]

/-- A copy differs from its part in the leading sections, and in the call and the
name. -/
theorem copy_annotated (part : Part) (confidence : Confidence) (index : Nat)
    (channel : Channel) : (part.copy confidence index channel).annotated =
      part.annotated.leadWith (copyLead confidence index channel) := by
  cases confidence <;> cases channel <;> rfl

end Part

namespace Query

theorem getElem?_copiesFrom (confidence : Confidence) {channel : Channel}
    (sent : channel ∈ confidence.channels) (parts : List Part) :
    ∀ start index, (copiesFrom confidence start parts)[confidence.place index channel]? =
      parts[index]?.map fun part => part.copy confidence (start + index) channel := by
  induction parts with
  | nil =>
    intro start index
    simp [copiesFrom]
  | cons part rest ih =>
    intro start index
    rw [copiesFrom, Part.copies_eq_map]
    cases index with
    | zero =>
      have bound := List.idxOf_lt_length_of_mem sent
      have own : confidence.channels[confidence.channels.idxOf channel]? = some channel := by
        rw [List.getElem?_eq_getElem bound, List.getElem_idxOf]
      rw [Confidence.place, Nat.mul_zero, Nat.zero_add,
        List.getElem?_append_left (by rwa [List.length_map]), List.getElem?_map, own]
      rfl
    | succ index =>
      have later : confidence.place (index + 1) channel =
          confidence.channels.length + confidence.place index channel := by
        rw [Confidence.place, Confidence.place, Nat.mul_succ]
        omega
      rw [later, List.getElem?_append_right (by simp), List.length_map, Nat.add_sub_cancel_left,
        ih, List.getElem?_cons_succ, Nat.add_right_comm, Nat.add_assoc]

theorem exists_of_mem_copiesFrom {confidence : Confidence} {copy : Part} {parts : List Part} :
    ∀ {start : Nat}, copy ∈ copiesFrom confidence start parts →
      ∃ (index : Nat) (part : Part) (channel : Channel), parts[index]? = some part ∧
        channel ∈ confidence.channels ∧ copy = part.copy confidence (start + index) channel := by
  induction parts with
  | nil =>
    intro start member
    cases member
  | cons part rest ih =>
    intro start member
    rw [copiesFrom, Part.copies_eq_map] at member
    rcases List.mem_append.1 member with own | later
    · obtain ⟨channel, sent, rfl⟩ := List.mem_map.1 own
      exact ⟨0, part, channel, rfl, sent, rfl⟩
    · obtain ⟨index, other, channel, known, sent, rfl⟩ := ih later
      refine ⟨index + 1, other, channel, known, sent, ?_⟩
      rw [Nat.add_right_comm, Nat.add_assoc]

theorem exists_of_mem_prepared {query : Query} {confidence : Confidence} {copy : Part}
    (member : copy ∈ (query.prepared confidence).parts) :
    ∃ (index : Nat) (part : Part) (channel : Channel), query.parts[index]? = some part ∧
      channel ∈ confidence.channels ∧ copy = part.copy confidence index channel := by
  obtain ⟨index, part, channel, known, sent, rfl⟩ := exists_of_mem_copiesFrom member
  exact ⟨index, part, channel, known, sent, by rw [Nat.zero_add]⟩

/-- The copy of a part that is sent for a channel, and where it stands. -/
theorem getElem?_prepared (query : Query) (confidence : Confidence) {channel : Channel}
    (sent : channel ∈ confidence.channels) (index : Nat) :
    (query.prepared confidence).parts[confidence.place index channel]? =
      query.parts[index]?.map fun part => part.copy confidence index channel := by
  have found := getElem?_copiesFrom confidence sent query.parts 0 index
  rwa [Nat.zero_add] at found

end Query

end MetricQuery
