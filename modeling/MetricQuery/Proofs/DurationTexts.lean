import Mathlib.Data.List.TakeDrop
import Mathlib.Data.List.TakeWhile
import MetricQuery.Proofs.Blanks
import MetricQuery.Proofs.Digits
import MetricQuery.Proofs.LowerCase
import MetricQuery.Time.Range

/-!
# Texts of durations

Which texts denote a duration: blanks, digits, right behind them a unit in any case, and
blanks again. The amount and what it comes to in milliseconds have to be numbers of 64
bits; the duration is then exactly the amount times the unit.
-/

set_option autoImplicit false

namespace MetricQuery

inductive DurationUnit where
  | milliseconds
  | seconds
  | minutes
  | hours
  | days
  | weeks
  deriving DecidableEq, Repr

namespace DurationUnit

def letters : DurationUnit → List Char
  | .milliseconds => ['m', 's']
  | .seconds => ['s']
  | .minutes => ['m']
  | .hours => ['h']
  | .days => ['d']
  | .weeks => ['w']

def millis : DurationUnit → Nat
  | .milliseconds => 1
  | .seconds => 1000
  | .minutes => 60 * 1000
  | .hours => 60 * 60 * 1000
  | .days => 24 * 60 * 60 * 1000
  | .weeks => 7 * 24 * 60 * 60 * 1000

theorem unitMillis?_eq_some_iff {text : List Char} {worth : Nat} :
    Duration.unitMillis? text = some worth ↔
      ∃ unit : DurationUnit, text = unit.letters ∧ worth = unit.millis := by
  constructor
  · intro known
    unfold Duration.unitMillis? at known
    split at known
    · exact ⟨.milliseconds, rfl, (Option.some.inj known).symm⟩
    · exact ⟨.seconds, rfl, (Option.some.inj known).symm⟩
    · exact ⟨.minutes, rfl, (Option.some.inj known).symm⟩
    · exact ⟨.hours, rfl, (Option.some.inj known).symm⟩
    · exact ⟨.days, rfl, (Option.some.inj known).symm⟩
    · exact ⟨.weeks, rfl, (Option.some.inj known).symm⟩
    · cases known
  · rintro ⟨unit, rfl, rfl⟩
    cases unit <;> rfl

theorem letters_plain (unit : DurationUnit) :
    ∀ c ∈ unit.letters, Text.IsPlainLower c ∧ Text.isBlank c = false := by
  cases unit <;> simp only [letters, List.forall_mem_cons, List.not_mem_nil, false_imp_iff,
    implies_true, and_true] <;> decide

end DurationUnit

namespace Duration

structure Spells (text amount : List Char) (unit : DurationUnit) : Prop where
  cut : text = amount ++ unit.letters
  present : amount ≠ []
  digits : ∀ c ∈ amount, c.isDigit = true

structure Fits (amount : List Char) (unit : DurationUnit) : Prop where
  number : (Nat.ofDigitChars 10 amount 0 : Int) ≤ Text.maxSigned64
  millis : (Nat.ofDigitChars 10 amount 0 * unit.millis : Int) ≤ Text.maxSigned64

/-- A text spells an amount that fits its unit, and the duration is the two multiplied. -/
def Denotes (text : List Char) (duration : Duration) : Prop :=
  ∃ amount unit, Spells text amount unit ∧ Fits amount unit ∧
    duration.millis = Nat.ofDigitChars 10 amount 0 * unit.millis

/-! ## Amounts and units -/

theorem natural?_eq_some_iff {text : List Char} {n : Nat} :
    Text.natural? text = some n ↔
      text ≠ [] ∧ (∀ c ∈ text, c.isDigit = true) ∧ n = Nat.ofDigitChars 10 text 0 := by
  have value : Text.readDigits 0 text = Nat.ofDigitChars 10 text 0 := rfl
  simp only [Text.natural?, value, Bool.or_eq_true, List.isEmpty_iff, Bool.not_eq_true',
    Option.ite_none_left_eq_some, not_or, Bool.not_eq_false, List.all_eq_true, Option.some.injEq,
    and_assoc, eq_comm (a := n)]

theorem ofAmount?_eq_some_iff {amount letters : List Char} {duration : Duration} :
    ofAmount? amount letters = some duration ↔
      amount ≠ [] ∧ (∀ c ∈ amount, c.isDigit = true) ∧ ∃ unit : DurationUnit,
        letters = unit.letters ∧ Fits amount unit ∧
          duration.millis = Nat.ofDigitChars 10 amount 0 * unit.millis := by
  constructor
  · intro found
    obtain ⟨n, number, found⟩ := Option.bind_eq_some_iff.1 found
    obtain ⟨worth, known, found⟩ := Option.bind_eq_some_iff.1 found
    obtain ⟨present, digits, rfl⟩ := natural?_eq_some_iff.1 number
    obtain ⟨unit, rfl, rfl⟩ := DurationUnit.unitMillis?_eq_some_iff.1 known
    simp only [Option.ite_none_right_eq_some, Bool.and_eq_true, decide_eq_true_eq,
      Option.some.injEq] at found
    obtain ⟨⟨number, millis⟩, rfl⟩ := found
    exact ⟨present, digits, unit, rfl, ⟨number, by exact_mod_cast millis⟩, by push_cast; rfl⟩
  · rintro ⟨present, digits, unit, rfl, fits, same⟩
    have number := natural?_eq_some_iff.2 ⟨present, digits, rfl⟩
    have worth := DurationUnit.unitMillis?_eq_some_iff.2 ⟨unit, rfl, rfl⟩
    have millis : ((Nat.ofDigitChars 10 amount 0 * unit.millis : Nat) : Int) ≤
        Text.maxSigned64 := by
      push_cast
      exact fits.millis
    have within : (decide ((Nat.ofDigitChars 10 amount 0 : Int) ≤ Text.maxSigned64) &&
        decide (((Nat.ofDigitChars 10 amount 0 * unit.millis : Nat) : Int) ≤
          Text.maxSigned64)) = true := by
      rw [decide_eq_true fits.number, decide_eq_true millis]
      rfl
    rw [ofAmount?, number, worth]
    refine (if_pos within).trans (congrArg some ?_)
    obtain ⟨own⟩ := duration
    obtain rfl : own = _ := same
    push_cast
    rfl

/-- The digits at the beginning of a text that goes on with the letters of a unit. -/
theorem span_spells {text amount : List Char} {unit : DurationUnit}
    (spells : Spells text amount unit) : text.span Char.isDigit = (amount, unit.letters) := by
  have ends : unit.letters.takeWhile Char.isDigit = [] ∧
      unit.letters.dropWhile Char.isDigit = unit.letters := by
    cases unit <;> exact ⟨rfl, rfl⟩
  rw [spells.cut, List.span_eq_takeWhile_dropWhile,
    List.takeWhile_append_of_pos spells.digits, List.dropWhile_append_of_pos spells.digits,
    ends.1, ends.2, List.append_nil]

theorem denotes_iff {text : List Char} {duration : Duration} :
    Denotes text duration ↔
      ofAmount? (text.span Char.isDigit).1 (text.span Char.isDigit).2 = some duration := by
  constructor
  · rintro ⟨amount, unit, spells, fits, same⟩
    rw [span_spells spells]
    exact ofAmount?_eq_some_iff.2 ⟨spells.present, spells.digits, unit, rfl, fits, same⟩
  · intro found
    obtain ⟨present, digits, unit, letters, fits, same⟩ := ofAmount?_eq_some_iff.1 found
    refine ⟨_, unit, ⟨?_, present, digits⟩, fits, same⟩
    rw [← letters, List.span_eq_takeWhile_dropWhile, List.takeWhile_append_dropWhile]

theorem parse_eq (given : String) :
    parse given =
      let text := Text.lowercase (Text.trim given.toList)
      match ofAmount? (text.span Char.isDigit).1 (text.span Char.isDigit).2 with
      | some duration => .ok duration
      | none => .error (.invalidDuration (String.ofList text)) :=
  rfl

theorem parse_eq_ok_iff {given : String} {duration : Duration} :
    parse given = .ok duration ↔
      Denotes (Text.lowercase (Text.trim given.toList)) duration := by
  rw [denotes_iff, parse_eq]
  dsimp only
  split
  · rename_i found
    rw [found, Except.ok.injEq, Option.some.injEq]
  · rename_i found
    simp only [found, reduceCtorEq]

theorem parse_eq_error {given : String}
    (unknown : ∀ duration, ¬Denotes (Text.lowercase (Text.trim given.toList)) duration) :
    parse given =
      .error (.invalidDuration (String.ofList (Text.lowercase (Text.trim given.toList)))) := by
  rw [parse_eq]
  dsimp only
  split
  · rename_i duration found
    exact absurd (denotes_iff.2 found) (unknown duration)
  · rfl

/-! ## Blanks and case -/

structure SpelledWithin (text front amount letters back : List Char) (unit : DurationUnit) :
    Prop where
  cut : text = front ++ (amount ++ letters) ++ back
  front : ∀ c ∈ front, Text.isBlank c = true
  back : ∀ c ∈ back, Text.isBlank c = true
  present : amount ≠ []
  digits : ∀ c ∈ amount, c.isDigit = true
  letters : letters.map Char.toLower = unit.letters

theorem map_toLower_eq_iff {shown amount : List Char}
    (digits : ∀ c ∈ amount, c.isDigit = true) :
    shown.map Char.toLower = amount ↔ shown = amount := by
  constructor
  · intro lowered
    rw [← lowered]
    refine ((List.map_congr_left fun c member => ?_).trans (List.map_id shown)).symm
    have digit : c.toLower.isDigit = true := digits _ (lowered ▸ List.mem_map_of_mem member)
    exact Text.toLower_of_isDigit (Text.isDigit_toLower c ▸ digit)
  · rintro rfl
    exact (List.map_congr_left fun c member =>
      Text.toLower_of_isDigit (digits c member)).trans (List.map_id shown)

/-- Digits and small letters are the lower case of the same digits and of the letters in any
case. -/
theorem spells_lowercase_iff {text amount : List Char} {unit : DurationUnit} :
    Spells (Text.lowercase text) amount unit ↔
      amount ≠ [] ∧ (∀ c ∈ amount, c.isDigit = true) ∧ ∃ letters,
        text = amount ++ letters ∧ letters.map Char.toLower = unit.letters := by
  have plain : (∀ c ∈ amount, c.isDigit = true) →
      ∀ c ∈ amount ++ unit.letters, Text.IsPlainLower c := by
    intro digits c member
    rcases List.mem_append.1 member with digit | letter
    · exact Text.isPlainLower_of_isDigit (digits c digit)
    · exact (unit.letters_plain c letter).1
  constructor
  · rintro ⟨cut, present, digits⟩
    rw [Text.lowercase_eq_iff (plain digits)] at cut
    obtain ⟨shown, letters, rfl, same, spelled⟩ := List.map_eq_append_iff.1 cut
    obtain rfl := (map_toLower_eq_iff digits).1 same
    exact ⟨present, digits, letters, rfl, spelled⟩
  · rintro ⟨present, digits, letters, rfl, spelled⟩
    refine ⟨(Text.lowercase_eq_iff (plain digits)).2 ?_, present, digits⟩
    rw [List.map_append, spelled, (map_toLower_eq_iff digits).2 rfl]

/-- What spells an amount neither starts nor ends with a blank. -/
theorem isTrimmed_spelled {amount letters : List Char} {unit : DurationUnit}
    (digits : ∀ c ∈ amount, c.isDigit = true)
    (spelled : letters.map Char.toLower = unit.letters) : Text.IsTrimmed (amount ++ letters) := by
  have visible : ∀ c ∈ amount ++ letters, Text.isBlank c = false := by
    intro c member
    rcases List.mem_append.1 member with digit | letter
    · exact Text.isBlank_of_isDigit (digits c digit)
    · refine Text.isBlank_eq_false_of_toLower ?_
      exact (unit.letters_plain _ (spelled ▸ List.mem_map_of_mem letter)).2
  exact ⟨fun c found => visible c (List.mem_of_head? found),
    fun c found => visible c (List.mem_of_getLast? found)⟩

theorem spells_trimmed_iff {given amount : List Char} {unit : DurationUnit} :
    Spells (Text.lowercase (Text.trim given)) amount unit ↔
      ∃ front letters back, SpelledWithin given front amount letters back unit := by
  rw [spells_lowercase_iff]
  constructor
  · rintro ⟨present, digits, letters, rest, spelled⟩
    obtain ⟨front, back, trims⟩ := Text.trim_eq_iff.1 rest
    exact ⟨front, letters, back, trims.cut, trims.front, trims.back, present, digits, spelled⟩
  · rintro ⟨front, letters, back, within⟩
    have trimmed := isTrimmed_spelled within.digits within.letters
    exact ⟨within.present, within.digits, letters,
      Text.trim_eq_iff.2 ⟨front, back, within.cut, within.front, within.back, trimmed⟩,
      within.letters⟩

/-- A text denotes a duration exactly if without the blanks at its ends and in small letters
it spells an amount in a unit, of which neither the number nor the milliseconds take more
than 63 bits. The duration is then the number times the unit, and every other text fails as
an invalid duration. What spells an amount there are digits with the letters of the unit in
any case right behind them. -/
theorem parse_spelled (given : String) :
    let text := Text.lowercase (Text.trim given.toList)
    (∀ duration, parse given = .ok duration ↔ ∃ amount unit, Spells text amount unit ∧
      Fits amount unit ∧ duration.millis = Nat.ofDigitChars 10 amount 0 * unit.millis) ∧
    ((¬∃ amount unit, Spells text amount unit ∧ Fits amount unit) ↔
      parse given = .error (.invalidDuration (String.ofList text))) ∧
    ∀ amount unit, Spells text amount unit ↔
      ∃ front letters back, SpelledWithin given.toList front amount letters back unit := by
  intro text
  refine ⟨fun duration => parse_eq_ok_iff, ⟨fun unknown => ?_, ?_⟩,
    fun amount unit => spells_trimmed_iff⟩
  · refine parse_eq_error fun duration => ?_
    rintro ⟨amount, unit, spells, fits, _⟩
    exact unknown ⟨amount, unit, spells, fits⟩
  · rintro refused ⟨amount, unit, spells, fits⟩
    have known : parse given = .ok ⟨Nat.ofDigitChars 10 amount 0 * unit.millis⟩ :=
      parse_eq_ok_iff.2 ⟨amount, unit, spells, fits, rfl⟩
    rw [refused] at known
    cases known

example : parse " 15H\n" = .ok ⟨54000000⟩ := by decide +kernel

end Duration

end MetricQuery
