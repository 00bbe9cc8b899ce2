import Mathlib.Algebra.Group.Nat.Defs
import MetricQuery.Text.Character

/-!
# Reading digits back

The digits of a number, with or without zeros in front, are read as that number.
-/

set_option autoImplicit false

namespace MetricQuery.Text

theorem isDigit_iff {c : Char} : c.isDigit = true ↔ 48 ≤ c.toNat ∧ c.toNat ≤ 57 := by
  simp [Char.isDigit, UInt32.le_iff_toNat_le]

theorem exists_digit_of_all {text : List Char} (present : text ≠ [])
    (allDigits : ∀ c ∈ text, c.isDigit = true) :
    ∃ c rest, text = c :: rest ∧ c.isDigit = true := by
  obtain ⟨c, rest, rfl⟩ := List.exists_cons_of_ne_nil present
  exact ⟨c, rest, rfl, allDigits c List.mem_cons_self⟩

theorem digits_ne_nil (n : Nat) : digits n ≠ [] :=
  Nat.toDigits_ne_nil

theorem isDigit_of_mem_digits {n : Nat} : ∀ c ∈ digits n, c.isDigit = true :=
  fun _ member => Nat.isDigit_of_mem_toDigits (by omega) (by omega) member

/-- The first character of a number is a digit. -/
theorem digits_cases (n : Nat) : ∃ c rest, digits n = c :: rest ∧ c.isDigit = true :=
  exists_digit_of_all (digits_ne_nil n) isDigit_of_mem_digits

theorem readDigits_digits (n : Nat) : readDigits 0 (digits n) = n :=
  Nat.ofDigitChars_ten_toDigits

theorem natural?_digits (n : Nat) : natural? (digits n) = some n := by
  have present : (digits n).isEmpty = false := by simpa using digits_ne_nil n
  rw [natural?, present, List.all_eq_true.2 isDigit_of_mem_digits]
  exact congrArg some (readDigits_digits n)

theorem unsigned?_digits (limit n : Nat) :
    unsigned? limit (digits n) = if n ≤ limit then some n else none := by
  obtain ⟨c, rest, shown, digit⟩ := digits_cases n
  have noSign : c ≠ '+' := by
    rintro rfl
    exact absurd digit (by decide)
  have read := natural?_digits n
  rw [shown] at read ⊢
  simp [unsigned?, noSign, read]

theorem length_digits_le {n width : Nat} (some : 0 < width) (bound : n < 10 ^ width) :
    (digits n).length ≤ width :=
  (Nat.length_toDigits_le_iff (by omega) some).2 bound

/-! ## Zeros in front -/

theorem isDigit_of_mem_paddedDigits {width n : Nat} :
    ∀ c ∈ paddedDigits width n, c.isDigit = true := by
  intro c member
  rcases List.mem_append.1 member with zero | shown
  · rw [List.eq_of_mem_replicate zero]
    rfl
  · exact isDigit_of_mem_digits c shown

theorem paddedDigits_ne_nil (width n : Nat) : paddedDigits width n ≠ [] := by
  simp [paddedDigits, digits_ne_nil]

theorem paddedDigits_cases (width n : Nat) :
    ∃ c rest, paddedDigits width n = c :: rest ∧ c.isDigit = true :=
  exists_digit_of_all (paddedDigits_ne_nil width n) isDigit_of_mem_paddedDigits

theorem readDigits_append (start : Nat) (front back : List Char) :
    readDigits start (front ++ back) = readDigits (readDigits start front) back :=
  List.foldl_append

theorem readDigits_zeros (count : Nat) : readDigits 0 (List.replicate count '0') = 0 := by
  induction count with
  | zero => rfl
  | succ count ih => rw [List.replicate_succ, readDigits, List.foldl_cons]; exact ih

theorem readDigits_paddedDigits (width n : Nat) : readDigits 0 (paddedDigits width n) = n := by
  rw [paddedDigits, readDigits_append, readDigits_zeros, readDigits_digits]

theorem length_paddedDigits {width n : Nat} (some : 0 < width) (bound : n < 10 ^ width) :
    (paddedDigits width n).length = width := by
  have shown := length_digits_le some bound
  simp only [paddedDigits, List.length_append, List.length_replicate]
  omega

/-! ## Bounds -/

theorem digitValue_le {c : Char} (digit : c.isDigit = true) : digitValue c ≤ 9 := by
  have bounds := isDigit_iff.1 digit
  have zero : '0'.toNat = 48 := rfl
  unfold digitValue
  omega

theorem readDigits_lt {text : List Char} (allDigits : ∀ c ∈ text, c.isDigit = true) :
    ∀ start, readDigits start text < (start + 1) * 10 ^ text.length := by
  induction text with
  | nil => intro start; simp [readDigits]
  | cons c rest ih =>
    intro start
    have value := digitValue_le (allDigits c List.mem_cons_self)
    have later := ih (fun c member => allDigits c (List.mem_cons_of_mem _ member))
      (10 * start + digitValue c)
    have step : 10 * start + digitValue c + 1 ≤ (start + 1) * 10 := by omega
    calc readDigits start (c :: rest)
        = readDigits (10 * start + digitValue c) rest := rfl
      _ < (10 * start + digitValue c + 1) * 10 ^ rest.length := later
      _ ≤ (start + 1) * 10 * 10 ^ rest.length := Nat.mul_le_mul_right _ step
      _ = (start + 1) * 10 ^ (c :: rest).length := by
        rw [List.length_cons, Nat.pow_succ, Nat.mul_assoc, Nat.mul_comm 10]

end MetricQuery.Text
