import Mathlib.Tactic.Ring
import MetricQuery.Proofs.Blanks
import MetricQuery.Proofs.Calendar
import MetricQuery.Proofs.Digits
import MetricQuery.Time.Reader

/-!
# Times in documents

The text of an instant in a document is read as that instant. This needs the
instant to be one of a clock: it lies in the calendar, and a leap second follows
the last second of a minute. Instants that are read from documents are of this
kind.
-/

set_option autoImplicit false

namespace MetricQuery

structure Instant.OnClock (instant : Instant) : Prop where
  valid : instant.isValid = true
  nanos : instant.nanos < Instant.nanosInSecond ∨
    instant.nanos < 2 * Instant.nanosInSecond ∧ instant.seconds % 60 = 59

namespace Text

theorem dropBlanks_cons {c : Char} (notBlank : isBlank c = false) (rest : List Char) :
    dropBlanks (c :: rest) = c :: rest := by
  rw [dropBlanks, List.dropWhile_cons, notBlank]
  rfl

theorem dropBlanks_paddedDigits (width n : Nat) (rest : List Char) :
    dropBlanks (paddedDigits width n ++ rest) = paddedDigits width n ++ rest := by
  obtain ⟨c, digits, shown, digit⟩ := paddedDigits_cases width n
  rw [shown, List.cons_append, dropBlanks_cons (isBlank_of_isDigit digit)]

end Text

namespace TimeReader

/-! ## Fields -/

theorem readNumber_append (least : Nat) (most : Option Nat) {run rest : List Char}
    (allDigits : ∀ c ∈ run, c.isDigit = true) (ends : rest.takeWhile Char.isDigit = [])
    (enough : least ≤ run.length) (fits : ∀ limit, most = some limit → run.length ≤ limit) :
    readNumber least most (run ++ rest) = some (Text.readDigits 0 run, rest) := by
  have whole : (run ++ rest).takeWhile Char.isDigit = run := by
    rw [List.takeWhile_append_of_pos allDigits, ends, List.append_nil]
  cases most with
  | none =>
    simp only [readNumber, whole]
    rw [if_neg (Nat.not_lt.2 enough), List.drop_left]
  | some limit =>
    simp only [readNumber, whole, List.take_of_length_le (fits limit rfl)]
    rw [if_neg (Nat.not_lt.2 enough), List.drop_left]

theorem readNumber_paddedDigits (most : Option Nat) (width n : Nat) {rest : List Char}
    (ends : rest.takeWhile Char.isDigit = [])
    (fits : ∀ limit, most = some limit → (Text.paddedDigits width n).length ≤ limit) :
    readNumber 1 most (Text.paddedDigits width n ++ rest) = some (n, rest) := by
  have enough : 1 ≤ (Text.paddedDigits width n).length :=
    List.length_pos_iff.2 (Text.paddedDigits_ne_nil width n)
  rw [readNumber_append 1 most Text.isDigit_of_mem_paddedDigits ends enough fits,
    Text.readDigits_paddedDigits]

theorem readShort_paddedDigits {n : Nat} (bound : n < 100) {rest : List Char}
    (ends : rest.takeWhile Char.isDigit = []) :
    readShort (Text.paddedDigits 2 n ++ rest) = some (n, rest) := by
  have length : (Text.paddedDigits 2 n).length = 2 := Text.length_paddedDigits (by omega) bound
  rw [readShort, Text.dropBlanks_paddedDigits]
  exact readNumber_paddedDigits (some 2) 2 n ends (by simp [length])

theorem readYear_yearText (year : Int) {rest : List Char}
    (ends : rest.takeWhile Char.isDigit = []) :
    readYear (yearText year ++ rest) = some (year, rest) := by
  have unlimited := readNumber_paddedDigits none 4 year.natAbs ends (by simp)
  unfold yearText
  by_cases negative : year < 0
  · have sign : -(year.natAbs : Int) = year := by omega
    simp only [if_pos negative, List.cons_append]
    rw [readYear, Text.dropBlanks_cons rfl]
    simp only [unlimited, Option.bind_eq_bind, Option.bind_some, sign]
  · have sign : (year.natAbs : Int) = year := by omega
    by_cases long : 9999 < year
    · simp only [if_neg negative, if_pos long, List.cons_append]
      rw [readYear, Text.dropBlanks_cons rfl]
      simp only [unlimited, Option.bind_eq_bind, Option.bind_some, sign]
    · have length : (Text.paddedDigits 4 year.natAbs).length = 4 :=
        Text.length_paddedDigits (by omega) (by omega)
      have limited := readNumber_paddedDigits (some 4) 4 year.natAbs ends (by simp [length])
      obtain ⟨c, others, shown, digit⟩ := Text.paddedDigits_cases 4 year.natAbs
      simp only [if_neg negative, if_neg long]
      rw [readYear, Text.dropBlanks_paddedDigits]
      rw [shown, List.cons_append] at limited ⊢
      have notMinus : c ≠ '-' := by
        rintro rfl
        exact absurd digit (by decide)
      have notPlus : c ≠ '+' := by
        rintro rfl
        exact absurd digit (by decide)
      split
      · rename_i starts
        exact absurd (List.cons.inj starts).1 notMinus
      · rename_i starts
        exact absurd (List.cons.inj starts).1 notPlus
      · simp only [limited, Option.bind_eq_bind, Option.bind_some, sign]

theorem readDate_text {gap : List Char → List Char}
    (keeps : ∀ text, gap ('-' :: text) = '-' :: text) {date : Date} (month : date.month < 100)
    (day : date.day < 100) {rest : List Char} (ends : rest.takeWhile Char.isDigit = []) :
    readDate gap (date.text ++ rest) = some (date, rest) := by
  have hyphen : ∀ text : List Char, ('-' :: text).takeWhile Char.isDigit = [] := fun _ => rfl
  simp only [readDate, Date.text, List.append_assoc, List.cons_append,
    readYear_yearText date.year (hyphen _), keeps, readChar, if_true,
    readShort_paddedDigits month (hyphen _), readShort_paddedDigits day ends,
    Option.bind_eq_bind, Option.bind_some]

theorem readSeconds_timeText {gap : List Char → List Char}
    (keeps : ∀ text, gap (':' :: text) = ':' :: text) {clock : ClockTime}
    (hour : clock.hour < 100) (minute : clock.minute < 100) (second : clock.second < 100)
    {rest : List Char} (ends : rest.takeWhile Char.isDigit = []) :
    readSeconds gap (clock.timeText ++ rest) =
      some ((clock.hour, clock.minute, clock.second), rest) := by
  have colon : ∀ text : List Char, (':' :: text).takeWhile Char.isDigit = [] := fun _ => rfl
  simp only [readSeconds, readMinutes, ClockTime.timeText, List.append_assoc, List.cons_append,
    readShort_paddedDigits hour (colon _), keeps, readChar, if_true,
    readShort_paddedDigits minute (colon _), readShort_paddedDigits second ends,
    Option.bind_eq_bind, Option.bind_some]

/-- A fraction of so many digits counts in units of the last one. -/
theorem readNanos_paddedDigits {width n : Nat} (some : 0 < width) (atMost : width ≤ 9)
    (bound : n < 10 ^ width) {rest : List Char} (ends : rest.takeWhile Char.isDigit = []) :
    readNanos (Text.paddedDigits width n ++ rest) = Option.some (n * 10 ^ (9 - width), rest) := by
  have length : (Text.paddedDigits width n).length = width := Text.length_paddedDigits some bound
  have whole : (Text.paddedDigits width n ++ rest).takeWhile Char.isDigit =
      Text.paddedDigits width n := by
    rw [List.takeWhile_append_of_pos Text.isDigit_of_mem_paddedDigits, ends, List.append_nil]
  have shown : (Text.paddedDigits width n).take 9 = Text.paddedDigits width n :=
    List.take_of_length_le (by omega)
  have present : (Text.paddedDigits width n).isEmpty = false := by
    simpa using Text.paddedDigits_ne_nil width n
  have behind : (Text.paddedDigits width n ++ rest).drop width = rest := List.drop_left' length
  simp only [readNanos, whole, shown, present, length, Text.readDigits_paddedDigits, behind,
    Bool.false_eq_true, if_false, Nat.pow_eq]

theorem readFraction_fractionText {nanos : Nat} (bound : nanos < 1000000000)
    {rest : List Char} (ends : ('.' :: rest).head? ≠ rest.head?)
    (stops : rest.takeWhile Char.isDigit = []) :
    readFraction (fractionText nanos ++ rest) = some (nanos, rest) := by
  unfold fractionText
  by_cases none : nanos = 0
  · rw [if_pos none, List.nil_append, none, readFraction]
    intro others starts
    exact ends (by rw [starts]; rfl)
  · rw [if_neg none]
    by_cases milli : nanos % 1000000 = 0
    · rw [if_pos milli, List.cons_append, readFraction,
        readNanos_paddedDigits (by omega) (by omega) (by omega) stops]
      congr 2
      omega
    · rw [if_neg milli]
      by_cases micro : nanos % 1000 = 0
      · rw [if_pos micro, List.cons_append, readFraction,
          readNanos_paddedDigits (by omega) (by omega) (by omega) stops]
        congr 2
        omega
      · rw [if_neg micro, List.cons_append, readFraction,
          readNanos_paddedDigits (by omega) (by omega) (by omega) stops]
        congr 2
        omega

/-- The texts of documents, for the fields of a clock. -/
theorem documentTime?_text {clock : ClockTime} (month : clock.date.month < 100)
    (day : clock.date.day < 100) (hour : clock.hour < 100) (minute : clock.minute < 100)
    (second : clock.second < 100) (nanos : clock.nanos < 1000000000) :
    documentTime? (clock.date.text ++ 'T' :: clock.timeText ++ fractionText clock.nanos ++ ['Z']) =
      Instant.ofClock? clock 0 := by
  have fraction : (fractionText clock.nanos ++ ['Z']).takeWhile Char.isDigit = [] := by
    unfold fractionText
    split
    · rfl
    · split
      · rfl
      · split <;> rfl
  have separator : ∀ text : List Char, ('T' :: text).takeWhile Char.isDigit = [] := fun _ => rfl
  have zone : readNamedOffset (Text.dropBlanks ['Z']) = some (0, []) := rfl
  have ending : ('.' :: ['Z']).head? ≠ ['Z'].head? := by decide
  simp only [documentTime?, List.append_assoc, List.cons_append,
    readDate_text (Text.dropBlanks_cons rfl) month day (separator _), readSeparator,
    readSeconds_timeText (Text.dropBlanks_cons rfl) hour minute second fraction,
    readFraction_fractionText nanos ending rfl, zone, Option.bind_eq_bind, Option.bind_some]
  rfl

end TimeReader

namespace Instant

theorem isValid_iff (instant : Instant) :
    instant.isValid = true ↔
      (Date.mk Date.firstYear 1 1).toDays ≤ instant.seconds / secondsInDay ∧
        instant.seconds / secondsInDay ≤ (Date.mk Date.lastYear 12 31).toDays := by
  unfold isValid secondsInDay
  simp only [Bool.and_eq_true, decide_eq_true_eq]
  omega

theorem toClock_bounds {instant : Instant} (onClock : instant.OnClock) :
    instant.toClock.date.isValid = true ∧ instant.toClock.hour ≤ 23 ∧
      instant.toClock.minute ≤ 59 ∧ instant.toClock.second ≤ 60 ∧
      instant.toClock.nanos < 1000000000 := by
  obtain ⟨low, high⟩ := (isValid_iff instant).1 onClock.valid
  have nanos := onClock.nanos
  refine ⟨Date.isValid_ofDays low high, ?_⟩
  simp only [toClock]
  unfold nanosInSecond at nanos ⊢
  unfold secondsInDay
  split <;> omega

/-- The instant of the clock time of an instant. -/
theorem ofClock?_toClock {instant : Instant} (onClock : instant.OnClock) :
    ofClock? instant.toClock 0 = some instant := by
  obtain ⟨date, hour, minute, second, _⟩ := toClock_bounds onClock
  have nanos := onClock.nanos
  have number : instant.toClock.date.toDays = instant.seconds / secondsInDay :=
    Date.toDays_ofDays _
  have seconds : instant.seconds / secondsInDay * secondsInDay + instant.toClock.hour * 3600 +
      instant.toClock.minute * 60 + (min instant.toClock.second 59 : Nat) - 0 =
        instant.seconds := by
    simp only [toClock]
    unfold nanosInSecond at nanos ⊢
    unfold secondsInDay
    split <;> omega
  have fraction : instant.toClock.nanos +
      (instant.toClock.second - min instant.toClock.second 59) * nanosInSecond =
        instant.nanos := by
    simp only [toClock]
    unfold nanosInSecond at nanos ⊢
    unfold secondsInDay
    split <;> omega
  have fields : (instant.toClock.date.isValid && decide (instant.toClock.hour ≤ 23) &&
      decide (instant.toClock.minute ≤ 59) && decide (instant.toClock.second ≤ 60)) = true := by
    simp only [Bool.and_eq_true, decide_eq_true_eq]
    exact ⟨⟨⟨date, hour⟩, minute⟩, second⟩
  simp only [ofClock?, fields, number, seconds, fraction, if_true, onClock.valid]

/-- Month and day take two digits. -/
theorem date_toClock_bounds {instant : Instant} (onClock : instant.OnClock) :
    instant.toClock.date.month < 100 ∧ instant.toClock.date.day < 100 := by
  have date := (toClock_bounds onClock).1
  simp only [Date.isValid, Bool.and_eq_true, decide_eq_true_eq] at date
  have most : Date.daysInMonth instant.toClock.date.year instant.toClock.date.month ≤ 31 := by
    unfold Date.daysInMonth
    split
    · split <;> omega
    all_goals omega
  omega

/-- The text of an instant in a document is read as that instant. -/
theorem ofDocument?_documentText {instant : Instant} (onClock : instant.OnClock) :
    ofDocument? instant.documentText = some instant := by
  obtain ⟨_, hour, minute, second, nanos⟩ := toClock_bounds onClock
  obtain ⟨month, day⟩ := date_toClock_bounds onClock
  rw [ofDocument?, documentText, String.toList_ofList,
    TimeReader.documentTime?_text month day (by omega) (by omega) (by omega) nanos,
    ofClock?_toClock onClock]

end Instant

/-! ## Instants that are read -/

namespace TimeReader

theorem readNanos_lt {text rest : List Char} {nanos : Nat}
    (read : readNanos text = some (nanos, rest)) : nanos < 1000000000 := by
  unfold readNanos at read
  simp only at read
  split at read
  · cases read
  · obtain ⟨rfl, _⟩ := Prod.mk.inj (Option.some.inj read)
    have digits : ∀ c ∈ (text.takeWhile Char.isDigit).take 9, c.isDigit = true :=
      fun c member => List.all_eq_true.1 List.all_takeWhile c (List.mem_of_mem_take member)
    have most : ((text.takeWhile Char.isDigit).take 9).length ≤ 9 := by simp
    have value := Text.readDigits_lt digits 0
    rw [Nat.zero_add, Nat.one_mul] at value
    have power : 10 ^ ((text.takeWhile Char.isDigit).take 9).length *
        10 ^ (9 - ((text.takeWhile Char.isDigit).take 9).length) = 1000000000 := by
      rw [← Nat.pow_add, Nat.add_sub_cancel' most]
    rw [← power]
    exact Nat.mul_lt_mul_of_pos_right value (Nat.pow_pos (by omega))

theorem readFraction_lt {text rest : List Char} {nanos : Nat}
    (read : readFraction text = some (nanos, rest)) : nanos < 1000000000 := by
  unfold readFraction at read
  split at read
  · exact readNanos_lt read
  · obtain ⟨rfl, _⟩ := Prod.mk.inj (Option.some.inj read)
    omega

/-- An offset is one of whole minutes. -/
theorem readOffset_minutes {gap : List Char → Option (List Char)} {text rest : List Char}
    {offset : Int} (read : readOffset gap text = some (offset, rest)) : offset % 60 = 0 := by
  unfold readOffset at read
  split at read
  · obtain ⟨rfl, _⟩ := Prod.mk.inj (Option.some.inj read)
    rfl
  · obtain ⟨rfl, _⟩ := Prod.mk.inj (Option.some.inj read)
    rfl
  · simp only [Option.bind_eq_bind, Option.bind_eq_some_iff, Option.ite_none_left_eq_some,
      Option.some.injEq, Prod.mk.injEq, Prod.exists] at read
    obtain ⟨sign, _, _, hours, _, _, _, _, minutes, _, _, _, rfl, _⟩ := read
    have split : sign * ((hours * 3600 + minutes * 60 : Nat) : Int) =
        60 * (sign * (hours * 60 + minutes)) := by
      push_cast
      ring
    rw [split]
    exact Int.mul_emod_right _ _

theorem readNamedOffset_minutes {text rest : List Char} {offset : Int}
    (read : readNamedOffset text = some (offset, rest)) : offset % 60 = 0 := by
  unfold readNamedOffset at read
  split at read
  · split at read
    · obtain ⟨rfl, _⟩ := Prod.mk.inj (Option.some.inj read)
      rfl
    · exact readOffset_minutes read
  · exact readOffset_minutes read

end TimeReader

namespace Instant

theorem onClock_of_ofClock? {clock : ClockTime} {offset : Int} {instant : Instant}
    (nanos : clock.nanos < 1000000000) (minutes : offset % 60 = 0)
    (read : ofClock? clock offset = some instant) : instant.OnClock := by
  unfold ofClock? at read
  split at read
  · rename_i fields
    simp only [Bool.and_eq_true, decide_eq_true_eq] at fields
    simp only [Option.ite_none_right_eq_some, Option.some.injEq] at read
    obtain ⟨valid, rfl⟩ := read
    refine ⟨valid, ?_⟩
    unfold nanosInSecond secondsInDay
    simp only
    omega
  · cases read

/-- Instants that are read from documents are those of a clock. -/
theorem onClock_of_ofDocument? {text : String} {instant : Instant}
    (read : ofDocument? text = some instant) : instant.OnClock := by
  simp only [ofDocument?, TimeReader.documentTime?, Option.bind_eq_bind, Option.bind_eq_some_iff,
    Option.ite_none_left_eq_some, Prod.exists] at read
  obtain ⟨date, _, _, _, _, hour, minute, second, _, _, nanos, _, fraction, offset, _, zone, _,
    clock⟩ := read
  exact onClock_of_ofClock? (TimeReader.readFraction_lt fraction)
    (TimeReader.readNamedOffset_minutes zone) clock

end Instant

end MetricQuery
