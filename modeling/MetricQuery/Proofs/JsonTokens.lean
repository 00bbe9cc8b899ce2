import Mathlib.Data.List.TakeDrop
import Mathlib.Data.List.TakeWhile
import MetricQuery.Json.Reader
import MetricQuery.Json.Writer
import MetricQuery.Proofs.Digits

/-!
# String and number literals are read back

The reader takes the escapes of a written string for the characters they were
written for, and a number literal ends where no character of a number follows.
-/

set_option autoImplicit false

namespace MetricQuery

namespace Json

/-! ## Strings -/

def Holds (unit : StringUnit) (c : Char) : Prop :=
  unit = .char c ∨ unit = .code c.toNat ∧ c.toNat < 0x20

theorem hexValue?_hexDigit : ∀ n < 16, hexValue? (hexDigit n) = some n := by
  decide

theorem hexCode?_hexDigit {n : Nat} (small : n < 0x20) :
    hexCode? '0' '0' (hexDigit (n / 16)) (hexDigit (n % 16)) = some n := by
  have zero : hexValue? '0' = some 0 := rfl
  have high := hexValue?_hexDigit (n / 16) (by omega)
  have low := hexValue?_hexDigit (n % 16) (by omega)
  have whole : n / 16 * 16 + n % 16 = n := by omega
  simp [hexCode?, zero, high, low, whole]

theorem readUnits_backslash {c held : Char} (short : escaped? c = some held) (other : c ≠ 'u')
    (rest : List Char) :
    readUnits ('\\' :: c :: rest) =
      (readUnits rest).map fun read => (.char held :: read.1, read.2) := by
  rw [readUnits, short]
  · cases readUnits rest <;> rfl
  · rintro _ _ _ _ _ rfl
    exact absurd rfl other

/-- What is written for a character is read as one place that holds it. -/
theorem readUnits_escapeChar (c : Char) (rest : List Char) :
    ∃ unit, Holds unit c ∧ readUnits (escapeChar c ++ rest) =
      (readUnits rest).map fun read => (unit :: read.1, read.2) := by
  unfold escapeChar
  split
  case h_8 quote backslash _ _ _ _ _ =>
    by_cases control : c.toNat < 0x20
    · refine ⟨.code c.toNat, Or.inr ⟨rfl, control⟩, ?_⟩
      rw [if_pos control]
      simp only [List.cons_append, List.nil_append, readUnits, hexCode?_hexDigit control]
      cases readUnits rest <;> rfl
    · refine ⟨.char c, Or.inl rfl, ?_⟩
      rw [if_neg control, List.singleton_append, readUnits, if_neg control]
      · cases readUnits rest <;> rfl
      · exact quote
      · rintro _ _ _ _ _ rfl
        exact absurd rfl backslash
      · rintro _ _ rfl
        exact absurd rfl backslash
  all_goals exact ⟨.char _, Or.inl rfl, readUnits_backslash rfl (by decide) rest⟩

theorem joinUnits_cons {unit : StringUnit} {c : Char} (holds : Holds unit c)
    (units : List StringUnit) :
    joinUnits (unit :: units) = (joinUnits units).map (c :: ·) := by
  rcases holds with rfl | ⟨rfl, control⟩
  · rw [joinUnits]
    cases joinUnits units <;> rfl
  · have whole : isHighHalf c.toNat = false ∧ isLowHalf c.toNat = false := by
      simp only [isHighHalf, isLowHalf, Bool.and_eq_false_iff, decide_eq_false_iff_not]
      omega
    cases units with
    | nil => simp [joinUnits, whole]
    | cons next rest =>
      cases next with
      | char d =>
        simp only [joinUnits, whole]
        cases joinUnits rest <;> simp
      | code n =>
        rw [joinUnits]
        simp only [whole]
        cases joinUnits (.code n :: rest) <;> simp

/-- A written string is read as its text, and what follows it is left. -/
theorem readUnits_escaped (text rest : List Char) :
    ∃ units, readUnits (text.flatMap escapeChar ++ '"' :: rest) = some (units, rest) ∧
      joinUnits units = some text := by
  induction text with
  | nil => exact ⟨[], by rw [List.flatMap_nil, List.nil_append, readUnits], rfl⟩
  | cons c text ih =>
    obtain ⟨units, read, joined⟩ := ih
    obtain ⟨unit, holds, first⟩ := readUnits_escapeChar c (text.flatMap escapeChar ++ '"' :: rest)
    refine ⟨unit :: units, ?_, ?_⟩
    · rw [List.flatMap_cons, List.append_assoc, first, read]
      rfl
    · rw [joinUnits_cons holds, joined]
      rfl

/-! ## Numbers -/

/-- What may stand behind a value in a compact text: nothing, or the end or next
item of a list or object. -/
def Follows (rest : List Char) : Prop :=
  ∀ c ∈ rest.head?, c = ',' ∨ c = ']' ∨ c = '\x7d'

/-- The text behind what is read, with more text behind it. -/
def before {α : Type} (rest : List Char) (read : α × List Char) : α × List Char :=
  (read.1, read.2 ++ rest)

theorem isDigit_eq_false_of_follows {rest : List Char} (follows : Follows rest) :
    ∀ c ∈ rest.head?, c.isDigit = false := by
  intro c member
  rcases follows c member with rfl | rfl | rfl <;> rfl

theorem span_isDigit_append {rest : List Char} (follows : Follows rest) (text : List Char) :
    (text ++ rest).span Char.isDigit = before rest (text.span Char.isDigit) := by
  simp only [List.span_eq_takeWhile_dropWhile, before]
  induction text with
  | nil =>
    have stops := isDigit_eq_false_of_follows follows
    cases rest with
    | nil => rfl
    | cons c rest => simp [stops c rfl]
  | cons c text ih =>
    by_cases digit : c.isDigit = true
    · simpa [digit] using ih
    · simp [digit]

theorem readRun_append {rest : List Char} (follows : Follows rest) (text : List Char) :
    readRun (text ++ rest) = (readRun text).map (before rest) := by
  rw [readRun, readRun, span_isDigit_append follows]
  obtain ⟨digits, left⟩ := text.span Char.isDigit
  cases digits <;> rfl

theorem readWhole_append {rest : List Char} (follows : Follows rest) (text : List Char) :
    readWhole (text ++ rest) = (readWhole text).map (before rest) := by
  rw [readWhole, readWhole, readRun_append follows]
  cases readRun text with
  | none => rfl
  | some read =>
    obtain ⟨digits, left⟩ := read
    rcases digits with _ | ⟨first, _ | ⟨second, others⟩⟩
    · rfl
    · simp [before]
    · by_cases zero : first = '0'
      · subst zero
        rfl
      · simp [zero, before]

/-- A character that is part of a number does not stand in front of what follows
the number. -/
theorem ne_cons_append {rest text : List Char} (follows : Follows rest) {c : Char}
    (inside : c ≠ ',' ∧ c ≠ ']' ∧ c ≠ '\x7d') (absent : ∀ tail, text ≠ c :: tail) :
    ∀ tail, text ++ rest ≠ c :: tail := by
  intro tail found
  cases text with
  | nil =>
    rw [List.nil_append] at found
    have ends := follows c (by rw [found]; rfl)
    simp [inside] at ends
  | cons first text =>
    obtain ⟨rfl, _⟩ := List.cons.inj found
    exact absent text rfl

theorem readFraction_append {rest : List Char} (follows : Follows rest) (text : List Char) :
    readFraction (text ++ rest) = (readFraction text).map (before rest) := by
  by_cases point : ∃ tail, text = '.' :: tail
  · obtain ⟨tail, rfl⟩ := point
    exact readRun_append follows tail
  · have absent : ∀ tail, text ≠ '.' :: tail := fun tail found => point ⟨tail, found⟩
    rw [readFraction, readFraction]
    · rfl
    · exact absent
    · exact ne_cons_append follows (by decide) absent

theorem readSignedPower_minus (tail : List Char) :
    readSignedPower ('-' :: tail) =
      (readRun tail).map fun read => (-(Text.readDigits 0 read.1 : Int), read.2) := by
  rw [readSignedPower]
  cases readRun tail <;> rfl

theorem readSignedPower_plus (tail : List Char) :
    readSignedPower ('+' :: tail) =
      (readRun tail).map fun read => ((Text.readDigits 0 read.1 : Int), read.2) := by
  rw [readSignedPower]
  cases readRun tail <;> rfl

theorem readSignedPower_plain {text : List Char} (noMinus : ∀ tail, text ≠ '-' :: tail)
    (noPlus : ∀ tail, text ≠ '+' :: tail) :
    readSignedPower text =
      (readRun text).map fun read => ((Text.readDigits 0 read.1 : Int), read.2) := by
  cases text with
  | nil => rfl
  | cons c tail =>
    simp only [readSignedPower]
    cases readRun (c :: tail) <;> rfl

theorem readSignedPower_append {rest : List Char} (follows : Follows rest) (text : List Char) :
    readSignedPower (text ++ rest) = (readSignedPower text).map (before rest) := by
  by_cases minus : ∃ tail, text = '-' :: tail
  · obtain ⟨tail, rfl⟩ := minus
    rw [List.cons_append, readSignedPower_minus, readSignedPower_minus, readRun_append follows]
    cases readRun tail <;> rfl
  · by_cases plus : ∃ tail, text = '+' :: tail
    · obtain ⟨tail, rfl⟩ := plus
      rw [List.cons_append, readSignedPower_plus, readSignedPower_plus, readRun_append follows]
      cases readRun tail <;> rfl
    · have noMinus : ∀ tail, text ≠ '-' :: tail := fun tail found => minus ⟨tail, found⟩
      have noPlus : ∀ tail, text ≠ '+' :: tail := fun tail found => plus ⟨tail, found⟩
      rw [readSignedPower_plain noMinus noPlus,
        readSignedPower_plain (ne_cons_append follows (by decide) noMinus)
          (ne_cons_append follows (by decide) noPlus), readRun_append follows]
      cases readRun text <;> rfl

theorem readPower_append {rest : List Char} (follows : Follows rest) (text : List Char) :
    readPower (text ++ rest) = (readPower text).map (before rest) := by
  by_cases mark : ∃ tail, text = 'e' :: tail ∨ text = 'E' :: tail
  · obtain ⟨tail, rfl | rfl⟩ := mark
    all_goals
      simp only [List.cons_append, readPower, readSignedPower_append follows]
      cases readSignedPower tail <;> rfl
  · have small : ∀ tail, text ≠ 'e' :: tail := fun tail found => mark ⟨tail, Or.inl found⟩
    have capital : ∀ tail, text ≠ 'E' :: tail := fun tail found => mark ⟨tail, Or.inr found⟩
    rw [readPower, readPower]
    · rfl
    · exact small
    · exact capital
    · exact ne_cons_append follows (by decide) small
    · exact ne_cons_append follows (by decide) capital

def readUnsigned (negative : Bool) (text : List Char) : Option (NumberLiteral × List Char) := do
  let (whole, text) ← readWhole text
  let (fraction, text) ← readFraction text
  let (power, text) ← readPower text
  some (⟨negative, whole, fraction, power⟩, text)

theorem readUnsigned_append {rest : List Char} (follows : Follows rest) (negative : Bool)
    (text : List Char) :
    readUnsigned negative (text ++ rest) = (readUnsigned negative text).map (before rest) := by
  simp only [readUnsigned, readWhole_append follows]
  cases readWhole text with
  | none => rfl
  | some whole =>
    simp only [Option.map_some, before, Option.bind_eq_bind, Option.bind_some,
      readFraction_append follows]
    cases readFraction whole.2 with
    | none => rfl
    | some fraction =>
      simp only [Option.map_some, before, Option.bind_some, readPower_append follows]
      cases readPower fraction.2 <;> rfl

theorem readLiteral_plain {text : List Char} (noMinus : ∀ tail, text ≠ '-' :: tail) :
    readLiteral text = readUnsigned false text := by
  cases text with
  | nil => rfl
  | cons c tail =>
    simp only [readLiteral, readUnsigned]

/-- What follows a number is no part of it. -/
theorem readLiteral_append {rest : List Char} (follows : Follows rest) (text : List Char) :
    readLiteral (text ++ rest) = (readLiteral text).map (before rest) := by
  by_cases minus : ∃ tail, text = '-' :: tail
  · obtain ⟨tail, rfl⟩ := minus
    exact readUnsigned_append follows true tail
  · have absent : ∀ tail, text ≠ '-' :: tail := fun tail found => minus ⟨tail, found⟩
    rw [readLiteral_plain absent, readLiteral_plain (ne_cons_append follows (by decide) absent),
      readUnsigned_append follows]

/-- A number starts with a digit or a minus sign. -/
theorem readLiteral_head {c : Char} {text : List Char} {read : NumberLiteral × List Char}
    (success : readLiteral (c :: text) = some read) : c = '-' ∨ c.isDigit = true := by
  by_cases minus : c = '-'
  · exact Or.inl minus
  · right
    by_cases digit : c.isDigit = true
    · exact digit
    · have absent : ∀ tail, c :: text ≠ '-' :: tail := by
        intro tail same
        exact minus (List.cons.inj same).1
      rw [readLiteral_plain absent] at success
      simp [readUnsigned, readWhole, readRun, List.span_eq_takeWhile_dropWhile, digit] at success

/-! ## Numbers that are read back -/

theorem digits_head {n : Nat} (positive : 0 < n) :
    ∃ first rest, Text.digits n = first :: rest ∧ first ≠ '0' := by
  induction n using Nat.strongRecOn with
  | ind n ih =>
    rw [Text.digits, Nat.toDigits_eq_if (by decide)]
    by_cases small : n < 10
    · have nonzero : ∀ digit < 10, 0 < digit → Nat.digitChar digit ≠ '0' := by decide
      exact ⟨_, _, if_pos small, nonzero n small positive⟩
    · obtain ⟨first, rest, shown, nonzero⟩ := ih (n / 10) (by omega) (by omega)
      rw [if_neg small, ← Text.digits, shown]
      exact ⟨first, _, List.cons_append, nonzero⟩

theorem readRun_digits (n : Nat) : readRun (Text.digits n) = some (Text.digits n, []) := by
  have all := @Text.isDigit_of_mem_digits n
  have present := Text.digits_ne_nil n
  rw [readRun, List.span_eq_takeWhile_dropWhile, List.takeWhile_eq_self_iff.2 all,
    List.dropWhile_eq_nil_iff.2 all]
  cases shown : Text.digits n with
  | nil => exact absurd shown present
  | cons => rfl

theorem readWhole_digits (n : Nat) : readWhole (Text.digits n) = some (Text.digits n, []) := by
  rw [readWhole, readRun_digits]
  by_cases positive : 0 < n
  · obtain ⟨first, rest, shown, nonzero⟩ := digits_head positive
    simp [shown, nonzero]
  · obtain rfl : n = 0 := by omega
    rfl

theorem readUnsigned_digits (negative : Bool) (n : Nat) :
    readUnsigned negative (Text.digits n) = some (⟨negative, Text.digits n, [], none⟩, []) := by
  simp [readUnsigned, readWhole_digits, readFraction, readPower]

end Json

def JsonNumber.ReadsBack (n : JsonNumber) : Prop :=
  ∃ literal, Json.readLiteral (Json.writeNumber n).toList = some (literal, []) ∧
    literal.number? = some n

/-- Integers of 64 bits, with or without sign, are read back. -/
theorem JsonNumber.readsBack_integer {n : Int} (low : Text.minSigned64 ≤ n)
    (high : n ≤ Text.maxUnsigned64) : (JsonNumber.integer n).ReadsBack := by
  cases n with
  | ofNat n =>
    refine ⟨⟨false, Text.digits n, [], none⟩, ?_, ?_⟩
    · have noMinus : ∀ tail, Text.digits n ≠ '-' :: tail := by
        intro tail found
        have digit := Text.isDigit_of_mem_digits '-' (found ▸ List.mem_cons_self)
        exact absurd digit (by decide)
      rw [Json.writeNumber, Json.writeInt, String.toList_ofList, Json.readLiteral_plain noMinus]
      exact Json.readUnsigned_digits false n
    · have fits : n ≤ Text.maxUnsigned64 := by simpa using high
      simp [NumberLiteral.number?, Text.readDigits_digits, fits]
  | negSucc n =>
    refine ⟨⟨true, Text.digits (n + 1), [], none⟩, ?_, ?_⟩
    · have shown : (Json.writeNumber (.integer (.negSucc n))).toList =
          '-' :: Text.digits (n + 1) := by
        simp [Json.writeNumber, Json.writeInt]
      rw [shown]
      exact Json.readUnsigned_digits true (n + 1)
    · have same : -((n : Int) + 1) = .negSucc n := by omega
      simp [NumberLiteral.number?, Text.readDigits_digits, same, low]

end MetricQuery
