import MetricQuery.Proofs.JsonTokens

/-!
# Compact texts are read back as far as there is room

The text of a value is read as that value where its lists and objects are nested
no deeper than the reader allows. Where they are, what is too deep is unreadable
and all else is as it was written.
-/

set_option autoImplicit false

namespace MetricQuery.Json

/-! ## Nesting -/

mutual

def levels : Json → Nat
  | .array items => itemsLevels items + 1
  | .object fields => fieldsLevels fields + 1
  | .null | .bool _ | .number _ | .string _ | .unreadable => 0

def itemsLevels : List Json → Nat
  | [] => 0
  | item :: rest => max item.levels (itemsLevels rest)

def fieldsLevels : List (String × Json) → Nat
  | [] => 0
  | (_, value) :: rest => max value.levels (fieldsLevels rest)

end

mutual

/-- What is seen of a value where only so many levels may be opened. -/
def within : Nat → Json → Json
  | room, .array items => ifRoom room (.array (itemsWithin (room - 1) items))
  | room, .object fields => ifRoom room (.object (fieldsWithin (room - 1) fields))
  | _, .null => .null
  | _, .bool value => .bool value
  | _, .number value => .number value
  | _, .string value => .string value
  | _, .unreadable => .unreadable

def itemsWithin : Nat → List Json → List Json
  | _, [] => []
  | room, item :: rest => within room item :: itemsWithin room rest

def fieldsWithin : Nat → List (String × Json) → List (String × Json)
  | _, [] => []
  | room, (name, value) :: rest => (name, within room value) :: fieldsWithin room rest

end

mutual

/-- The numbers in a value. -/
def numbers : Json → List JsonNumber
  | .number value => [value]
  | .array items => itemsNumbers items
  | .object fields => fieldsNumbers fields
  | .null | .bool _ | .string _ | .unreadable => []

def itemsNumbers : List Json → List JsonNumber
  | [] => []
  | item :: rest => item.numbers ++ itemsNumbers rest

def fieldsNumbers : List (String × Json) → List JsonNumber
  | [] => []
  | (_, value) :: rest => value.numbers ++ fieldsNumbers rest

end

/-! ## What the reader does at the first character -/

theorem skipSpace_cons {first : Char} (space : isSpace first = false) (rest : List Char) :
    skipSpace (first :: rest) = first :: rest := by
  simp [skipSpace, space]

section Reader

variable (fuel room : Nat)

theorem readValue_string (rest : List Char) :
    readValue (fuel + 1) room ('"' :: rest) =
      (readUnits rest).map fun read => (ofUnits read.1, read.2) := by
  simp only [readValue, skipSpace_cons (by decide : isSpace '"' = false)]
  cases readUnits rest <;> rfl

theorem readValue_array {first : Char} (space : isSpace first = false) (inside : first ≠ ']')
    (rest : List Char) :
    readValue (fuel + 1) room ('[' :: first :: rest) =
      (readItems fuel (room - 1) (first :: rest)).map
        fun read => (ifRoom room (.array read.1), read.2) := by
  simp only [readValue, skipSpace_cons (by decide : isSpace '[' = false), skipSpace_cons space]
  split
  · rename_i same
    exact absurd (List.cons.inj same).1 inside
  · cases readItems fuel (room - 1) (first :: rest) <;> rfl

theorem readValue_object {rest more : List Char} {fields : List (String × Json)}
    (read : readFields fuel (room - 1) ('"' :: rest) = some (some fields, more)) :
    readValue (fuel + 1) room ('\x7b' :: '"' :: rest) = some (ifRoom room (.object fields), more) := by
  simp only [readValue, skipSpace_cons (by decide : isSpace '\x7b' = false),
    skipSpace_cons (by decide : isSpace '"' = false)]
  split
  · rename_i same
    exact absurd (List.cons.inj same).1 (by decide)
  · rw [read]

theorem ne_of_number {first : Char} (number : first = '-' ∨ first.isDigit = true) (c : Char)
    (noDigit : c.isDigit = false) (noMinus : c ≠ '-') : first ≠ c := by
  rintro rfl
  rcases number with minus | digit
  · exact noMinus minus
  · simp [noDigit] at digit

theorem isSpace_of_number {first : Char} (number : first = '-' ∨ first.isDigit = true) :
    isSpace first = false := by
  simp [isSpace, ne_of_number number]

theorem readValue_literal {first : Char} (number : first = '-' ∨ first.isDigit = true)
    (rest : List Char) :
    readValue (fuel + 1) room (first :: rest) =
      (readLiteral (first :: rest)).map fun read => (ofLiteral read.1, read.2) := by
  rw [readValue, skipSpace_cons (isSpace_of_number number)]
  split
  case h_1 impossible => cases impossible
  case h_8 => cases readLiteral (first :: rest) <;> rfl
  all_goals
    rename_i same
    exact absurd (List.cons.inj same).1 (ne_of_number number _ (by decide) (by decide))

theorem readItems_last {text more : List Char} {item : Json}
    (read : readValue fuel room text = some (item, ']' :: more)) :
    readItems (fuel + 1) room text = some ([item], more) := by
  simp only [readItems, read, skipSpace_cons (by decide : isSpace ']' = false)]

theorem readItems_next {text rest more : List Char} {item : Json} {items : List Json}
    (read : readValue fuel room text = some (item, ',' :: rest))
    (others : readItems fuel room rest = some (items, more)) :
    readItems (fuel + 1) room text = some (item :: items, more) := by
  simp only [readItems, read, skipSpace_cons (by decide : isSpace ',' = false), others]

section Field

variable {text rest more : List Char} {units : List StringUnit} {name : List Char} {value : Json}

theorem readFields_last (key : readUnits text = some (units, ':' :: rest))
    (joined : joinUnits units = some name)
    (read : readValue fuel room rest = some (value, '\x7d' :: more)) :
    readFields (fuel + 1) room ('"' :: text) =
      some (some [(String.ofList name, value)], more) := by
  simp only [readFields, skipSpace_cons (by decide : isSpace '"' = false), key,
    skipSpace_cons (by decide : isSpace ':' = false), read,
    skipSpace_cons (by decide : isSpace '\x7d' = false), joined]

theorem readFields_next {later : List Char} {fields : List (String × Json)}
    (key : readUnits text = some (units, ':' :: rest)) (joined : joinUnits units = some name)
    (read : readValue fuel room rest = some (value, ',' :: later))
    (others : readFields fuel room later = some (some fields, more)) :
    readFields (fuel + 1) room ('"' :: text) =
      some (some ((String.ofList name, value) :: fields), more) := by
  simp only [readFields, skipSpace_cons (by decide : isSpace '"' = false), key,
    skipSpace_cons (by decide : isSpace ':' = false), read,
    skipSpace_cons (by decide : isSpace ',' = false), others, joined]

end Field

end Reader

/-! ## Values in their texts -/

theorem follows_cons {c : Char} (ends : c = ',' ∨ c = ']' ∨ c = '\x7d') (rest : List Char) :
    Follows (c :: rest) := by
  intro first same
  obtain rfl := Option.some.inj same
  exact ends

/-- A value whose compact text, wherever it stands, is read as what there is room
for; the fuel that takes is twice the length of the text. -/
structure ReadBack (value : Json) : Prop where
  head : ∃ first rest, value.compact.toList = first :: rest ∧ isSpace first = false ∧ first ≠ ']'
  read : ∀ fuel room more, 2 * value.compact.toList.length ≤ fuel → Follows more →
    readValue fuel room (value.compact.toList ++ more) = some (value.within room, more)

theorem readItems_compact (room : Nat) (more : List Char) (items : List Json) :
    ∀ item : Json, ReadBack item → (∀ other ∈ items, ReadBack other) → ∀ fuel : Nat,
      2 * (item.compact.toList.length + (compactItems items).toList.length + 1) ≤ fuel →
      readItems fuel room (item.compact.toList ++ ((compactItems items).toList ++ ']' :: more)) =
        some (itemsWithin room (item :: items), more) := by
  induction items with
  | nil =>
    intro item readBack _ fuel enough
    obtain ⟨fuel, rfl⟩ : ∃ less, fuel = less + 1 := ⟨fuel - 1, by omega⟩
    apply readItems_last
    exact readBack.read fuel room _ (by omega) (follows_cons (by simp) more)
  | cons next items ih =>
    intro item readBack others fuel enough
    obtain ⟨fuel, rfl⟩ : ∃ less, fuel = less + 1 := ⟨fuel - 1, by omega⟩
    have shown : (compactItems (next :: items)).toList =
        ',' :: (next.compact.toList ++ (compactItems items).toList) := by
      simp [compactItems]
    rw [shown] at enough ⊢
    simp only [List.length_cons, List.length_append] at enough
    rw [List.cons_append, List.append_assoc]
    apply readItems_next
    · exact readBack.read fuel room _ (by omega) (follows_cons (by simp) _)
    · exact ih next (others next List.mem_cons_self)
        (fun other member => others other (List.mem_cons_of_mem next member)) fuel (by omega)

theorem readFields_compact (room : Nat) (more : List Char) (fields : List (String × Json)) :
    ∀ (name : String) (value : Json), ReadBack value → (∀ other ∈ fields, ReadBack other.2) →
      ∀ fuel : Nat,
      2 * (value.compact.toList.length + (compactFields fields).toList.length + 1) ≤ fuel →
      readFields fuel room ('"' :: (name.toList.flatMap escapeChar ++
          '"' :: ':' :: (value.compact.toList ++ ((compactFields fields).toList ++
            '\x7d' :: more)))) =
        some (some (fieldsWithin room ((name, value) :: fields)), more) := by
  induction fields with
  | nil =>
    intro name value readBack _ fuel enough
    obtain ⟨fuel, rfl⟩ : ∃ less, fuel = less + 1 := ⟨fuel - 1, by omega⟩
    obtain ⟨units, key, joined⟩ := readUnits_escaped name.toList
      (':' :: (value.compact.toList ++ '\x7d' :: more))
    have read := readBack.read fuel room ('\x7d' :: more) (by omega) (follows_cons (by simp) more)
    have all := readFields_last fuel room key joined read
    rw [String.ofList_toList] at all
    exact all
  | cons next fields ih =>
    intro name value readBack others fuel enough
    obtain ⟨nextName, nextValue⟩ := next
    obtain ⟨fuel, rfl⟩ : ∃ less, fuel = less + 1 := ⟨fuel - 1, by omega⟩
    have shown : (compactFields ((nextName, nextValue) :: fields)).toList =
        ',' :: '"' :: (nextName.toList.flatMap escapeChar ++
          '"' :: ':' :: (nextValue.compact.toList ++ (compactFields fields).toList)) := by
      simp [compactFields, writeString]
    rw [shown] at enough ⊢
    simp only [List.length_cons, List.length_append] at enough
    simp only [List.cons_append, List.append_assoc]
    have later := ih nextName nextValue (others _ List.mem_cons_self)
      (fun other member => others other (List.mem_cons_of_mem _ member)) fuel (by omega)
    generalize '"' :: (nextName.toList.flatMap escapeChar ++ '"' :: ':' ::
      (nextValue.compact.toList ++ ((compactFields fields).toList ++ '\x7d' :: more))) = rest
      at later ⊢
    obtain ⟨units, key, joined⟩ := readUnits_escaped name.toList
      (':' :: (value.compact.toList ++ ',' :: rest))
    have read := readBack.read fuel room (',' :: rest) (by omega) (follows_cons (by simp) rest)
    have all := readFields_next fuel room key joined read later
    rw [String.ofList_toList] at all
    exact all

/-- It is enough to follow the reader from the first character on, where it has
taken one unit of fuel. -/
theorem ReadBack.of_cons {value : Json} {first : Char} {rest : List Char}
    (shown : value.compact.toList = first :: rest) (space : isSpace first = false)
    (inside : first ≠ ']')
    (read : ∀ fuel room more, 2 * rest.length < fuel → Follows more →
      readValue (fuel + 1) room (first :: (rest ++ more)) = some (value.within room, more)) :
    ReadBack value where
  head := ⟨first, rest, shown, space, inside⟩
  read := by
    intro fuel room more enough follows
    rw [shown, List.length_cons] at enough
    obtain ⟨fuel, rfl⟩ : ∃ less, fuel = less + 1 := ⟨fuel - 1, by omega⟩
    rw [shown, List.cons_append]
    exact read fuel room more (by omega) follows

theorem readBack_null : ReadBack .null :=
  .of_cons rfl (by decide) (by decide) fun _ _ _ _ _ => rfl

theorem readBack_bool (value : Bool) : ReadBack (.bool value) := by
  cases value with
  | true =>
    exact .of_cons rfl (by decide) (by decide) fun _ _ _ _ _ => rfl
  | false =>
    exact .of_cons rfl (by decide) (by decide) fun _ _ _ _ _ => rfl

theorem readBack_string (text : String) : ReadBack (.string text) := by
  have shown : (Json.string text).compact.toList =
      '"' :: (text.toList.flatMap escapeChar ++ ['"']) := by
    simp [compact, writeString]
  refine .of_cons shown (by decide) (by decide) ?_
  intro fuel room more _ _
  obtain ⟨units, read, joined⟩ := readUnits_escaped text.toList more
  rw [readValue_string, List.append_assoc, List.singleton_append, read, Option.map_some, ofUnits,
    joined]
  simp [within]

theorem readBack_number {n : JsonNumber} (readsBack : n.ReadsBack) : ReadBack (.number n) := by
  obtain ⟨literal, read, denotes⟩ := readsBack
  cases shown : (writeNumber n).toList with
  | nil =>
    rw [shown] at read
    cases read
  | cons first rest =>
    rw [shown] at read
    have number := readLiteral_head read
    have whole : (Json.number n).compact.toList = first :: rest := shown
    refine .of_cons whole (isSpace_of_number number)
      (ne_of_number number ']' (by decide) (by decide)) ?_
    intro fuel room more _ follows
    rw [readValue_literal fuel room number, ← List.cons_append, readLiteral_append follows, read]
    simp [before, ofLiteral, denotes, within]

theorem readBack_array {items : List Json} (readBack : ∀ item ∈ items, ReadBack item) :
    ReadBack (.array items) := by
  cases items with
  | nil => exact .of_cons rfl (by decide) (by decide) fun _ _ _ _ _ => rfl
  | cons item rest =>
    have shown : (Json.array (item :: rest)).compact.toList =
        '[' :: (item.compact.toList ++ ((compactItems rest).toList ++ [']'])) := by
      simp [compact]
    refine .of_cons shown (by decide) (by decide) ?_
    intro fuel room more enough _
    have own := readBack item List.mem_cons_self
    have read := readItems_compact (room - 1) more rest item own
      (fun other member => readBack other (List.mem_cons_of_mem item member)) fuel
      (by simp only [List.length_append, List.length_cons, List.length_nil] at enough; omega)
    obtain ⟨first, tail, starts, space, inside⟩ := own.head
    simp only [List.cons_append, List.append_assoc, List.nil_append, starts] at read ⊢
    rw [readValue_array fuel room space inside, read]
    rfl

theorem readBack_object {fields : List (String × Json)}
    (readBack : ∀ field ∈ fields, ReadBack field.2) : ReadBack (.object fields) := by
  cases fields with
  | nil =>
    exact .of_cons rfl (by decide) (by decide) fun _ _ _ _ _ => rfl
  | cons field rest =>
    obtain ⟨name, value⟩ := field
    have shown : (Json.object ((name, value) :: rest)).compact.toList =
        '\x7b' :: '"' :: (name.toList.flatMap escapeChar ++ '"' :: ':' ::
          (value.compact.toList ++ ((compactFields rest).toList ++ ['\x7d']))) := by
      simp [compact, writeString]
    refine .of_cons shown (by decide) (by decide) ?_
    intro fuel room more enough _
    have read := readFields_compact (room - 1) more rest name value
      (readBack _ List.mem_cons_self)
      (fun other member => readBack other (List.mem_cons_of_mem _ member)) fuel
      (by simp only [List.length_append, List.length_cons, List.length_nil] at enough; omega)
    simp only [List.cons_append, List.append_assoc, List.nil_append]
    rw [readValue_object fuel room read]
    rfl

mutual

/-- A readable value whose numbers are read back is read as far as there is room. -/
theorem readBack : ∀ value : Json, value.isReadable = true →
    (∀ n ∈ value.numbers, n.ReadsBack) → ReadBack value
  | .null => fun _ _ => readBack_null
  | .bool value => fun _ _ => readBack_bool value
  | .unreadable => fun readable => absurd readable (by decide)
  | .number n => fun _ numbers => readBack_number (numbers n List.mem_cons_self)
  | .string text => fun _ _ => readBack_string text
  | .array items => fun readable numbers =>
    readBack_array (readBack_of_mem items readable numbers)
  | .object fields => fun readable numbers =>
    readBack_object (readBack_of_mem_fields fields readable numbers)

theorem readBack_of_mem : ∀ items : List Json, allReadable items = true →
    (∀ n ∈ itemsNumbers items, n.ReadsBack) → ∀ item ∈ items, ReadBack item
  | [] => fun _ _ _ member => absurd member List.not_mem_nil
  | item :: rest => by
    intro readable numbers other member
    rw [allReadable, Bool.and_eq_true] at readable
    rcases List.mem_cons.1 member with same | later
    · rw [same]
      exact readBack item readable.1 fun n inside => numbers n (List.mem_append_left _ inside)
    · exact readBack_of_mem rest readable.2
        (fun n inside => numbers n (List.mem_append_right _ inside)) other later

theorem readBack_of_mem_fields : ∀ fields : List (String × Json), allFieldsReadable fields = true →
    (∀ n ∈ fieldsNumbers fields, n.ReadsBack) → ∀ field ∈ fields, ReadBack field.2
  | [] => fun _ _ _ member => absurd member List.not_mem_nil
  | (name, value) :: rest => by
    intro readable numbers other member
    rw [allFieldsReadable, Bool.and_eq_true] at readable
    rcases List.mem_cons.1 member with same | later
    · rw [same]
      exact readBack value readable.1 fun n inside => numbers n (List.mem_append_left _ inside)
    · exact readBack_of_mem_fields rest readable.2
        (fun n inside => numbers n (List.mem_append_right _ inside)) other later

end

theorem readWithin?_compact {value : Json} (readable : value.isReadable = true)
    (numbers : ∀ n ∈ value.numbers, n.ReadsBack) (room : Nat) :
    readWithin? room value.compact = some (value.within room) := by
  have read := (readBack value readable numbers).read (2 * value.compact.toList.length + 2) room []
    (by omega) (by simp [Follows])
  rw [List.append_nil] at read
  simp [readWithin?, read, skipSpace]

/-! ## Enough room, and too little -/

mutual

theorem within_of_levels_le : ∀ (value : Json) {room : Nat}, value.levels ≤ room →
    value.within room = value
  | .null, _, _ | .bool _, _, _ | .number _, _, _ | .string _, _, _ | .unreadable, _, _ => rfl
  | .array items, room, enough => by
    rw [levels] at enough
    rw [within, itemsWithin_of_levels_le items (by omega), ifRoom, if_neg (by omega)]
  | .object fields, room, enough => by
    rw [levels] at enough
    rw [within, fieldsWithin_of_levels_le fields (by omega), ifRoom, if_neg (by omega)]

theorem itemsWithin_of_levels_le : ∀ (items : List Json) {room : Nat}, itemsLevels items ≤ room →
    itemsWithin room items = items
  | [], _, _ => rfl
  | item :: rest, room, enough => by
    rw [itemsLevels] at enough
    rw [itemsWithin, within_of_levels_le item (by omega),
      itemsWithin_of_levels_le rest (by omega)]

theorem fieldsWithin_of_levels_le : ∀ (fields : List (String × Json)) {room : Nat},
    fieldsLevels fields ≤ room → fieldsWithin room fields = fields
  | [], _, _ => rfl
  | (name, value) :: rest, room, enough => by
    rw [fieldsLevels] at enough
    rw [fieldsWithin, within_of_levels_le value (by omega),
      fieldsWithin_of_levels_le rest (by omega)]

end

end MetricQuery.Json
