import MetricQuery.Proofs.Blanks
import MetricQuery.Proofs.DocumentTimes

/-!
# Times in queries

An instant is written to the second, and the text is read as that second. It is no
Internet timestamp, whatever the year, because nothing stands where the offset would;
so it is read as a plain time. The calendar is inverted as for documents.
-/

set_option autoImplicit false

namespace MetricQuery

namespace TimeReader

/-! ## Internet timestamps -/

theorem readFixed_length {width n : Nat} {text rest : List Char}
    (read : readFixed width text = some (n, rest)) : text.length = width + rest.length := by
  simp only [readFixed, readNumber, Option.ite_none_left_eq_some, Option.some.injEq,
    Prod.mk.injEq] at read
  obtain ⟨enough, _, rfl⟩ := read
  have within : ((text.takeWhile Char.isDigit).take width).length ≤ text.length :=
    (List.length_take_le' _ _).trans (List.takeWhile_sublist _).length_le
  have most : ((text.takeWhile Char.isDigit).take width).length ≤ width :=
    List.length_take_le _ _
  rw [List.length_drop]
  omega

theorem readChar_length {expected : Char} {text rest : List Char}
    (read : readChar expected text = some rest) : text.length = 1 + rest.length := by
  cases text with
  | nil => cases read
  | cons c others =>
    obtain ⟨_, same⟩ := Option.ite_none_right_eq_some.1 read
    obtain rfl := Option.some.inj same
    exact Nat.add_comm _ _

theorem readSeparator_length {text rest : List Char} (read : readSeparator text = some rest) :
    text.length = 1 + rest.length := by
  unfold readSeparator at read
  split at read
  · cases read
    exact Nat.add_comm _ _
  · cases read
    exact Nat.add_comm _ _
  · cases read
    exact Nat.add_comm _ _
  · cases read

theorem readFraction_length {text rest : List Char} {nanos : Nat}
    (read : readFraction text = some (nanos, rest)) : rest.length ≤ text.length := by
  unfold readFraction at read
  split at read
  · simp only [readNanos, Option.ite_none_left_eq_some, Option.some.injEq,
      Prod.mk.injEq] at read
    obtain ⟨_, _, rfl⟩ := read
    rw [List.length_drop, List.length_cons]
    omega
  · cases read
    exact Nat.le_refl _

/-- The shortest timestamps end with a Z. -/
theorem length_of_timestamp? {text : List Char} {instant : Instant}
    (read : timestamp? text = some instant) : 20 ≤ text.length := by
  obtain ⟨⟨_, _⟩, year, read⟩ := Option.bind_eq_some_iff.1 read
  obtain ⟨_, hyphen, read⟩ := Option.bind_eq_some_iff.1 read
  obtain ⟨⟨_, _⟩, month, read⟩ := Option.bind_eq_some_iff.1 read
  obtain ⟨_, nextHyphen, read⟩ := Option.bind_eq_some_iff.1 read
  obtain ⟨⟨_, _⟩, day, read⟩ := Option.bind_eq_some_iff.1 read
  obtain ⟨_, separator, read⟩ := Option.bind_eq_some_iff.1 read
  obtain ⟨⟨_, _⟩, hour, read⟩ := Option.bind_eq_some_iff.1 read
  obtain ⟨_, colon, read⟩ := Option.bind_eq_some_iff.1 read
  obtain ⟨⟨_, _⟩, minute, read⟩ := Option.bind_eq_some_iff.1 read
  obtain ⟨_, nextColon, read⟩ := Option.bind_eq_some_iff.1 read
  obtain ⟨⟨_, _⟩, second, read⟩ := Option.bind_eq_some_iff.1 read
  obtain ⟨⟨_, _⟩, fraction, read⟩ := Option.bind_eq_some_iff.1 read
  obtain ⟨⟨_, _⟩, offset, _⟩ := Option.bind_eq_some_iff.1 read
  have present : ∀ {gap text result}, readOffset gap text = some result → 1 ≤ text.length := by
    intro gap text result read
    cases text with
    | nil => cases read
    | cons c rest => exact Nat.le_add_left _ _
  have lengths := And.intro (readFixed_length year) (readFixed_length month)
  have days := And.intro (readFixed_length day) (readFixed_length hour)
  have minutes := And.intro (readFixed_length minute) (readFixed_length second)
  have hyphens := And.intro (readChar_length hyphen) (readChar_length nextHyphen)
  have colons := And.intro (readChar_length colon) (readChar_length nextColon)
  have parted := readSeparator_length separator
  have behind := readFraction_length fraction
  have ending := present offset
  omega

theorem timestamp?_of_sign {c : Char} (sign : c.isDigit = false) (rest : List Char) :
    timestamp? (c :: rest) = none := by
  have year : readFixed 4 (c :: rest) = none := by simp [readFixed, readNumber, sign]
  rw [timestamp?, year]
  rfl

/-- A time without an offset is no Internet timestamp: a year of four digits leaves it too
short, and any other has a sign. -/
theorem timestamp?_text {clock : ClockTime} (month : clock.date.month < 100)
    (day : clock.date.day < 100) (hour : clock.hour < 100) (minute : clock.minute < 100)
    (second : clock.second < 100) :
    timestamp? (clock.date.text ++ ' ' :: clock.timeText) = none := by
  have two : ∀ {n : Nat}, n < 100 → (Text.paddedDigits 2 n).length = 2 :=
    fun bound => Text.length_paddedDigits (by omega) bound
  unfold Date.text yearText
  by_cases negative : clock.date.year < 0
  · rw [if_pos negative]
    exact timestamp?_of_sign rfl _
  · by_cases long : 9999 < clock.date.year
    · rw [if_neg negative, if_pos long]
      exact timestamp?_of_sign rfl _
    · have year : (Text.paddedDigits 4 clock.date.year.natAbs).length = 4 :=
        Text.length_paddedDigits (by omega) (by omega)
      rw [if_neg negative, if_neg long]
      refine Option.eq_none_iff_forall_not_mem.2 fun instant read => ?_
      have enough := length_of_timestamp? read
      simp [ClockTime.timeText, year, two month, two day, two hour, two minute, two second]
        at enough

/-! ## Plain times -/

theorem plainSeconds?_text {clock : ClockTime} (month : clock.date.month < 100)
    (day : clock.date.day < 100) (hour : clock.hour < 100) (minute : clock.minute < 100)
    (second : clock.second < 100) :
    plainSeconds? (clock.date.text ++ ' ' :: clock.timeText) =
      Instant.ofClock? { clock with nanos := 0 } 0 := by
  have time : readSeconds id clock.timeText =
      some ((clock.hour, clock.minute, clock.second), []) := by
    have keeps : ∀ text : List Char, id (':' :: text) = ':' :: text := fun _ => rfl
    have ends : ([] : List Char).takeWhile Char.isDigit = [] := rfl
    have read := readSeconds_timeText keeps hour minute second ends
    rwa [List.append_nil] at read
  have blank : Text.dropBlanks (' ' :: clock.timeText) = clock.timeText := by
    have digits := Text.dropBlanks_paddedDigits 2 clock.hour
    change Text.dropBlanks clock.timeText = clock.timeText
    simp only [ClockTime.timeText, List.append_assoc, digits]
  have keeps : ∀ text : List Char, id ('-' :: text) = '-' :: text := fun _ => rfl
  have ends : (' ' :: clock.timeText).takeWhile Char.isDigit = [] := rfl
  simp only [plainSeconds?, readDate_text keeps month day ends, blank, time,
    Option.bind_eq_bind, Option.bind_some]
  rfl

end TimeReader

namespace Instant

structure InCalendar (instant : Instant) : Prop where
  valid : instant.isValid = true
  nanos : instant.nanos < 2 * nanosInSecond

/-- An instant without its fraction of a second. The leap second 60 of a minute stays one;
a leap second behind any other second of a minute is shown as the second that follows. -/
def whole (instant : Instant) : Instant :=
  if instant.nanos < nanosInSecond then ⟨instant.seconds, 0⟩
  else if instant.seconds % 60 = 59 then ⟨instant.seconds, nanosInSecond⟩
  else ⟨instant.seconds + 1, 0⟩

/-- Where leap seconds end a minute, only the fraction is lost. -/
theorem OnClock.whole_eq {instant : Instant} (onClock : instant.OnClock) :
    instant.whole = ⟨instant.seconds, instant.nanos / nanosInSecond * nanosInSecond⟩ := by
  have nanos := onClock.nanos
  unfold whole
  by_cases leap : instant.nanos < nanosInSecond
  · rw [if_pos leap, Nat.div_eq_of_lt leap, Nat.zero_mul]
  · have one : instant.nanos / nanosInSecond = 1 := by
      unfold nanosInSecond at *
      omega
    rw [if_neg leap, if_pos (by omega), one, Nat.one_mul]

theorem InCalendar.onClock_whole {instant : Instant} (known : instant.InCalendar) :
    instant.whole.OnClock := by
  have valid := (isValid_iff _).1 known.valid
  have some : 0 < nanosInSecond := by decide
  unfold whole
  split
  · exact ⟨known.valid, Or.inl some⟩
  · split
    · rename_i ending
      have twice : nanosInSecond < 2 * nanosInSecond := by omega
      exact ⟨known.valid, Or.inr ⟨twice, ending⟩⟩
    · refine ⟨(isValid_iff _).2 ?_, Or.inl some⟩
      -- A day ends with the last second of a minute, so the next second is of the same day.
      have day : (instant.seconds + 1) / secondsInDay = instant.seconds / secondsInDay := by
        unfold secondsInDay
        omega
      rwa [day]

/-- The clock shows the same second without the fraction. -/
theorem InCalendar.toClock_whole {instant : Instant} (known : instant.InCalendar) :
    instant.whole.toClock = { instant.toClock with nanos := 0 } := by
  have nanos := known.nanos
  have some : ¬nanosInSecond ≤ 0 := by decide
  unfold whole
  by_cases leap : instant.nanos < nanosInSecond
  · simp only [toClock, if_pos leap, if_neg (Nat.not_le.2 leap), if_neg some, Nat.zero_sub]
  · by_cases ending : instant.seconds % 60 = 59
    · simp only [toClock, if_neg leap, if_pos (Nat.not_lt.1 leap), if_pos ending, if_true,
        Nat.le_refl, Nat.one_mul, Nat.sub_self]
    · have day : (instant.seconds + 1) / secondsInDay = instant.seconds / secondsInDay := by
        unfold secondsInDay
        omega
      simp only [toClock, if_neg leap, if_pos (Nat.not_lt.1 leap), if_neg ending, if_neg some, day,
        Nat.zero_sub, ClockTime.mk.injEq, true_and, and_true]
      unfold secondsInDay
      omega

theorem InCalendar.text_whole {instant : Instant} (known : instant.InCalendar) :
    instant.whole.text = instant.text := by
  simp only [text, known.toClock_whole, ClockTime.timeText]

theorem InCalendar.quoted_whole {instant : Instant} (known : instant.InCalendar) :
    instant.whole.quoted = instant.quoted := by
  rw [quoted, quoted, known.text_whole]

/-- A date starts with a digit or with the sign of its year. -/
theorem exists_head_text (date : Date) :
    ∃ c rest, date.text = c :: rest ∧ Text.isBlank c = false := by
  unfold Date.text yearText
  by_cases negative : date.year < 0
  · rw [if_pos negative]
    exact ⟨'-', _, rfl, rfl⟩
  · by_cases long : 9999 < date.year
    · rw [if_neg negative, if_pos long]
      exact ⟨'+', _, rfl, rfl⟩
    · obtain ⟨c, rest, shown, digit⟩ := Text.paddedDigits_cases 4 date.year.natAbs
      rw [if_neg negative, if_neg long, shown]
      exact ⟨c, _, rfl, Text.isBlank_of_isDigit digit⟩

theorem isTrimmed_text (clock : ClockTime) :
    Text.IsTrimmed (clock.date.text ++ ' ' :: clock.timeText) := by
  constructor
  · intro c found
    obtain ⟨d, rest, shown, other⟩ := exists_head_text clock.date
    rw [shown] at found
    obtain rfl := Option.some.inj found
    exact other
  · intro c found
    have ends : ∃ front, clock.date.text ++ ' ' :: clock.timeText =
        front ++ Text.paddedDigits 2 clock.second :=
      ⟨clock.date.text ++ ' ' :: (Text.paddedDigits 2 clock.hour ++
        ':' :: Text.paddedDigits 2 clock.minute ++ [':']), by simp [ClockTime.timeText]⟩
    obtain ⟨front, split⟩ := ends
    have last := List.getLast?_eq_some_getLast (Text.paddedDigits_ne_nil 2 clock.second)
    rw [split, List.getLast?_append, last, Option.some_or, ← last] at found
    exact Text.isBlank_of_isDigit
      (Text.isDigit_of_mem_paddedDigits c (List.mem_of_getLast? found))

/-- An instant that a clock shows is read from its text, without its fraction. -/
theorem parse_text {instant : Instant} (onClock : instant.OnClock)
    (entire : instant.toClock.nanos = 0) : parse instant.text = .ok instant := by
  obtain ⟨_, hour, minute, second, _⟩ := toClock_bounds onClock
  obtain ⟨month, day⟩ := date_toClock_bounds onClock
  have same : { instant.toClock with nanos := 0 } = instant.toClock := by
    rw [← entire]
  simp only [parse, text, String.toList_ofList, (isTrimmed_text _).trim_eq]
  rw [TimeReader.timestamp?_text month day (by omega) (by omega) (by omega),
    TimeReader.plainSeconds?_text month day (by omega) (by omega) (by omega), same,
    ofClock?_toClock onClock]
  rfl

def unquoted (text : String) : String :=
  String.ofList text.toList.tail.dropLast

theorem unquoted_quoted (instant : Instant) : unquoted instant.quoted = instant.text := by
  have inside : instant.quoted.toList = '"' :: (instant.text.toList ++ ['"']) := by
    simp [quoted]
  rw [unquoted, inside, List.tail_cons, List.dropLast_concat, String.ofList_toList]

theorem parse_unquoted {instant : Instant} (known : instant.InCalendar) :
    parse (unquoted instant.quoted) = .ok instant.whole := by
  have entire : instant.whole.toClock.nanos = 0 := by rw [known.toClock_whole]
  rw [unquoted_quoted, ← known.text_whole]
  exact parse_text known.onClock_whole entire

/-- What is written for an instant of the calendar is read back as the instant without its
fraction of a second, which is written alike; so the texts of two instants are equal
exactly if the instants are, up to their fractions. -/
theorem quoted_readsBack {instant : Instant} (known : instant.InCalendar) :
    parse (unquoted instant.quoted) = .ok instant.whole ∧
    instant.whole.quoted = instant.quoted ∧
    (∀ other : Instant, other.InCalendar →
      (other.quoted = instant.quoted ↔ other.whole = instant.whole)) ∧
    (instant.OnClock →
      instant.whole = ⟨instant.seconds, instant.nanos / nanosInSecond * nanosInSecond⟩) := by
  refine ⟨parse_unquoted known, known.quoted_whole, fun other alsoKnown => ⟨?_, ?_⟩,
    OnClock.whole_eq⟩
  · intro same
    have read := parse_unquoted alsoKnown
    rw [same, parse_unquoted known] at read
    exact (Except.ok.inj read).symm
  · intro same
    rw [← alsoKnown.quoted_whole, same, known.quoted_whole]

/-- Two moments of a leap second at the end of the year before the year 0. -/
theorem quoted_readsBack_leapSecond :
    let instant : Instant := ⟨-62167219201, 1500000000⟩
    let other : Instant := ⟨-62167219201, 1000000007⟩
    instant.InCalendar ∧ other.InCalendar ∧ instant.OnClock ∧
    instant.quoted = "\"-0001-12-31 23:59:60\"" ∧ other.quoted = instant.quoted ∧
    parse (unquoted instant.quoted) = .ok ⟨-62167219201, 1000000000⟩ ∧
    instant.whole = ⟨instant.seconds, instant.nanos / nanosInSecond * nanosInSecond⟩ := by
  intro instant other
  have known : instant.InCalendar := ⟨by decide +kernel, by decide +kernel⟩
  have alsoKnown : other.InCalendar := ⟨by decide +kernel, by decide +kernel⟩
  have onClock : instant.OnClock := ⟨by decide +kernel, by decide +kernel⟩
  have leap : instant.whole = ⟨-62167219201, 1000000000⟩ := by decide +kernel
  have alsoLeap : other.whole = instant.whole := by decide +kernel
  obtain ⟨read, _, alike, fraction⟩ := quoted_readsBack known
  rw [leap] at read
  exact ⟨known, alsoKnown, onClock, by decide +kernel, (alike other alsoKnown).2 alsoLeap, read,
    fraction onClock⟩

end Instant

end MetricQuery
