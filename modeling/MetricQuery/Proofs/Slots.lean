import Mathlib.Data.List.Basic
import Mathlib.Data.List.Induction
import MetricQuery.Series.Decoder

/-!
# The slots of rows

A row belongs to a slot: the channel of a group, which is named by its key and
by the number of groups of that key in front of it. The slot of a row follows
from the rows in front of it alone, as the number of those of the same key and
channel, so that no two rows have the same one.
-/

set_option autoImplicit false

namespace MetricQuery

structure Slot where
  key : RowKey
  occurrence : Nat
  channel : Channel
  deriving DecidableEq, Repr

def Slot.place (slot : Slot) : RowKey × Nat :=
  (slot.key, slot.occurrence)

variable {α : Type}

namespace Decoder

/-- Whether the name of a row encodes a key and a channel. -/
def encodes (decoder : Decoder) (key : RowKey) (channel : Channel) (row : Row α) : Bool :=
  (decoder.parseName row.name).toOption == some (key, channel)

/-- The rows of a key and a channel. -/
def rowsOf (decoder : Decoder) (key : RowKey) (channel : Channel) (rows : List (Row α)) :
    List (Row α) :=
  rows.filter (decoder.encodes key channel)

/-- The slot of a row behind others: its occurrence is the number of rows of its
key and channel among them. -/
def slotAfter (decoder : Decoder) (seen : List (Row α)) (row : Row α) : Option Slot :=
  match decoder.parseName row.name with
  | .error _ => none
  | .ok (key, channel) => some ⟨key, (decoder.rowsOf key channel seen).length, channel⟩

/-- The slot of the row at a position. -/
def slotAt (decoder : Decoder) (rows : List (Row α)) (position : Nat) : Option Slot :=
  rows[position]?.bind (decoder.slotAfter (rows.take position))

/-- The groups that the rows reach, one after the other. -/
def reached (decoder : Decoder) (rows : List (Row α)) : List (RowKey × Nat) :=
  (List.range rows.length).filterMap fun position =>
    (decoder.slotAt rows position).map Slot.place

def inChannel (decoder : Decoder) (channel : Channel) (row : Row α) : Bool :=
  (decoder.parseName row.name).toOption.any fun name => name.2 = channel

section Slots

variable {decoder : Decoder} {key : RowKey} {channel : Channel} {row : Row α}

theorem slotAfter_eq (parsed : decoder.parseName row.name = .ok (key, channel))
    (seen : List (Row α)) :
    decoder.slotAfter seen row = some ⟨key, (decoder.rowsOf key channel seen).length, channel⟩ := by
  simp [slotAfter, parsed]

theorem encodes_eq_true_iff :
    decoder.encodes key channel row = true ↔ decoder.parseName row.name = .ok (key, channel) := by
  cases name : decoder.parseName row.name <;> simp [encodes, name, Except.toOption]

theorem encodes_iff (parsed : decoder.parseName row.name = .ok (key, channel))
    (other : RowKey) (otherChannel : Channel) :
    decoder.encodes other otherChannel row = true ↔ other = key ∧ otherChannel = channel := by
  simp only [encodes, parsed, Except.toOption, beq_iff_eq, Option.some.injEq, Prod.mk.injEq]
  exact and_congr eq_comm eq_comm

theorem rowsOf_concat_self (parsed : decoder.parseName row.name = .ok (key, channel))
    (rows : List (Row α)) :
    decoder.rowsOf key channel (rows ++ [row]) = decoder.rowsOf key channel rows ++ [row] := by
  have here : decoder.encodes key channel row = true := (encodes_iff parsed _ _).2 ⟨rfl, rfl⟩
  simp [rowsOf, here]

theorem rowsOf_concat_other (parsed : decoder.parseName row.name = .ok (key, channel))
    {other : RowKey} {otherChannel : Channel} (apart : ¬(other = key ∧ otherChannel = channel))
    (rows : List (Row α)) :
    decoder.rowsOf other otherChannel (rows ++ [row]) =
      decoder.rowsOf other otherChannel rows := by
  have elsewhere : decoder.encodes other otherChannel row = false :=
    Bool.eq_false_iff.2 fun here => apart ((encodes_iff parsed _ _).1 here)
  simp [rowsOf, elsewhere]

theorem slotAt_append (decoder : Decoder) {rows : List (Row α)} (more : List (Row α))
    {position : Nat} (inside : position < rows.length) :
    decoder.slotAt (rows ++ more) position = decoder.slotAt rows position := by
  simp [slotAt, List.getElem?_append_left inside,
    List.take_append_of_le_length (Nat.le_of_lt inside)]

theorem slotAt_concat (decoder : Decoder) (rows : List (Row α)) (row : Row α) :
    decoder.slotAt (rows ++ [row]) rows.length = decoder.slotAfter rows row := by
  simp [slotAt]

theorem reached_concat (decoder : Decoder) (rows : List (Row α)) (row : Row α) :
    decoder.reached (rows ++ [row]) =
      decoder.reached rows ++ ((decoder.slotAfter rows row).map Slot.place).toList := by
  have earlier : ∀ position ∈ List.range rows.length,
      (decoder.slotAt (rows ++ [row]) position).map Slot.place =
        (decoder.slotAt rows position).map Slot.place := by
    intro position inside
    rw [slotAt_append decoder [row] (List.mem_range.1 inside)]
  rw [reached, List.length_append, List.length_singleton, List.range_succ,
    List.filterMap_append, List.filterMap_congr earlier, reached]
  congr 1
  cases last : (decoder.slotAfter rows row).map Slot.place with
  | none => simp [slotAt_concat, last]
  | some place => simp [slotAt_concat, last]

/-- The row that a slot belongs to, by its count among the rows of its key and
channel. -/
theorem rowsOf_of_slotAt {rows : List (Row α)} {position : Nat} {slot : Slot}
    (here : decoder.slotAt rows position = some slot) :
    ∃ row, rows[position]? = some row ∧
      decoder.parseName row.name = .ok (slot.key, slot.channel) ∧
      (decoder.rowsOf slot.key slot.channel rows)[slot.occurrence]? = some row := by
  obtain ⟨row, found, after⟩ := Option.bind_eq_some_iff.1 here
  refine ⟨row, found, ?_⟩
  unfold slotAfter at after
  split at after
  · cases after
  · rename_i key channel parsed
    obtain rfl := Option.some.inj after
    refine ⟨parsed, ?_⟩
    obtain ⟨inside, rfl⟩ := List.getElem?_eq_some_iff.1 found
    have split : rows = rows.take position ++ [rows[position]] ++ rows.drop (position + 1) := by
      simp
    have filtered : decoder.rowsOf key channel rows =
        decoder.rowsOf key channel (rows.take position ++ [rows[position]]) ++
          decoder.rowsOf key channel (rows.drop (position + 1)) := by
      conv_lhs => rw [split]
      simp only [rowsOf, List.filter_append]
    rw [filtered, rowsOf_concat_self parsed]
    simp

theorem slotAt_of_rowsOf (rows : List (Row α)) {occurrence : Nat}
    (held : (decoder.rowsOf key channel rows)[occurrence]? = some row) :
    ∃ position, rows[position]? = some row ∧
      decoder.slotAt rows position = some ⟨key, occurrence, channel⟩ := by
  induction rows using List.reverseRecOn with
  | nil => simp [rowsOf] at held
  | append_singleton rows last ih =>
    by_cases here : decoder.encodes key channel last = true
    · have parsed := encodes_eq_true_iff.1 here
      rw [rowsOf_concat_self parsed] at held
      by_cases old : occurrence < (decoder.rowsOf key channel rows).length
      · rw [List.getElem?_append_left old] at held
        obtain ⟨position, found, slot⟩ := ih held
        obtain ⟨inside, _⟩ := List.getElem?_eq_some_iff.1 found
        exact ⟨position, by rw [List.getElem?_append_left inside, found],
          by rw [slotAt_append decoder _ inside, slot]⟩
      · obtain ⟨bound, same⟩ := List.getElem?_eq_some_iff.1 held
        have count : occurrence = (decoder.rowsOf key channel rows).length := by
          simp only [List.length_append, List.length_singleton] at bound
          omega
        subst count
        obtain rfl : last = row := by simpa using held
        exact ⟨rows.length, by simp, by rw [slotAt_concat, slotAfter_eq parsed]⟩
    · have skipped : decoder.rowsOf key channel (rows ++ [last]) =
          decoder.rowsOf key channel rows := by
        simp [rowsOf, here]
      rw [skipped] at held
      obtain ⟨position, found, slot⟩ := ih held
      obtain ⟨inside, _⟩ := List.getElem?_eq_some_iff.1 found
      exact ⟨position, by rw [List.getElem?_append_left inside, found],
        by rw [slotAt_append decoder _ inside, slot]⟩

/-- No two rows have the same slot. -/
theorem slotAt_injective {rows : List (Row α)} {first second : Nat} {slot : Slot}
    (left : decoder.slotAt rows first = some slot)
    (right : decoder.slotAt rows second = some slot) : first = second := by
  -- The later of two rows of one slot would count the earlier one in front of it.
  have later : ∀ {low high : Nat}, low < high → decoder.slotAt rows low = some slot →
      decoder.slotAt rows high = some slot → False := by
    intro low high less lower upper
    obtain ⟨row, found, parsed, _⟩ := rowsOf_of_slotAt upper
    obtain ⟨inside, _⟩ := List.getElem?_eq_some_iff.1 found
    have prefixed : decoder.slotAt (rows.take high) low = some slot := by
      have bound : low < (rows.take high).length := by
        rw [List.length_take]
        omega
      have whole := slotAt_append decoder (rows.drop high) bound
      rwa [List.take_append_drop, lower, eq_comm] at whole
    obtain ⟨_, _, _, counted⟩ := rowsOf_of_slotAt prefixed
    obtain ⟨bound, _⟩ := List.getElem?_eq_some_iff.1 counted
    have own : decoder.slotAt rows high =
        some ⟨slot.key, (decoder.rowsOf slot.key slot.channel (rows.take high)).length,
          slot.channel⟩ := by
      rw [slotAt, found, Option.bind_some, slotAfter_eq parsed]
    have occurrence := congrArg Slot.occurrence (Option.some.inj (upper.symm.trans own))
    simp only at occurrence
    omega
  rcases Nat.lt_trichotomy first second with less | same | more
  · exact (later less left right).elim
  · exact same
  · exact (later more right left).elim

end Slots

end Decoder

end MetricQuery
