import MetricQuery.Proofs.DurationTexts
import MetricQuery.Proofs.Rounding
import MetricQuery.Proofs.WellFormed

/-!
# Seconds of durations

A duration is written as its nearest number of whole seconds, and at least one. This is
exact for some hundred thousand years. Beyond them the milliseconds no longer take 53 bits:
half a second less a millisecond is then rounded up, and in the end whole seconds are one or
two off. The order of durations is kept throughout.
-/

set_option autoImplicit false

namespace MetricQuery.Duration

open Precision

/-- The nearest whole number of seconds, a half counted away from zero. -/
def nearestSeconds (millis : Int) : Int :=
  millis.sign * ((millis.natAbs + 500) / 1000)

/-- The nearest whole number of seconds, but at least one. -/
def exactSeconds (duration : Duration) : Nat :=
  (max 1 (nearestSeconds duration.millis)).toNat

theorem exactSeconds_eq (duration : Duration) :
    duration.exactSeconds = max 1 ((duration.millis.toNat + 500) / 1000) := by
  unfold exactSeconds nearestSeconds
  rcases Int.lt_trichotomy duration.millis 0 with negative | zero | positive
  · rw [Int.sign_eq_neg_one_of_neg negative, Int.toNat_of_nonpos negative.le]
    omega
  · rw [zero]
    rfl
  · rw [Int.sign_eq_one_of_pos positive]
    omega

/-- The seconds that numbers with 53 bits come to, without the least one. -/
def roundedSeconds (millis : Nat) : Nat :=
  quotientRound53 (wholeRound53 millis) 1000

theorem seconds_eq (duration : Duration) :
    duration.seconds = max 1 (roundedSeconds duration.millis.toNat) :=
  rfl

section Rounded

variable {millis : Nat}

theorem log2_seconds_lt {millis bits : Nat} (present : 0 < bits)
    (bound : millis < 1000 * 2 ^ bits) : (millis / 1000).log2 < bits :=
  log2_lt present ((Nat.div_lt_iff_lt_mul (by omega)).2 (by omega))

/-- The quotient of a number by a thousand, with so many bits behind the point that they tell
the distance to the next half. -/
theorem quotient_thousand {number n : Nat} (slack bits : Nat)
    (bound : number < 1000 * 2 ^ bits) (few : bits ≤ 52) (present : 0 < bits) (low : 1000 * n ≤ number + 500)
    (high : number + slack ≤ 1000 * n + 500) (fine : 500 < slack * 2 ^ (53 - bits)) :
    quotientRound53 number 1000 = n := by
  have level : (number / (2 * 500)).log2 < bits := log2_seconds_lt present bound
  have more : 2 ^ (53 - bits) ≤ 2 ^ (52 - (number / (2 * 500)).log2) :=
    Nat.pow_le_pow_right (by omega) (by omega)
  exact quotientRound53_eq (by omega) (level.trans_le few) low high
    (fine.trans_le (Nat.mul_le_mul_left slack more))

theorem roundedSeconds_of_lt (small : millis < 2 ^ 53) :
    roundedSeconds millis = (millis + 500) / 1000 := by
  rw [roundedSeconds, wholeRound53_of_lt small]
  exact quotient_thousand 1 44 (by omega) (by omega) (by omega) (by omega)
    (by omega) (by omega)

/-- With 54 bits the last one is rounded, up where the one in front of it is set. -/
theorem wholeRound53_of_bits (low : 2 ^ 53 ≤ millis) (high : millis < 2 ^ 54) :
    wholeRound53 millis = if millis % 4 = 3 then millis + 1 else millis - millis % 2 := by
  have level : millis.log2 = 53 := (Nat.log2_eq_iff (by omega)).2 ⟨low, high⟩
  have last : 2 ^ (53 - 52) = 2 := rfl
  rw [wholeRound53_of_le low, level, last, roundEven]
  by_cases even : millis % 2 = 0
  · rw [if_pos (by omega), if_neg (by omega)]
    omega
  · rw [if_neg (by omega), if_neg (by omega)]
    by_cases above : millis % 4 = 3
    · rw [if_pos above]
      omega
    · rw [if_neg above]
      omega

/-- Half a second less a millisecond is odd, and rounded to a multiple of four. -/
theorem roundedSeconds_of_bits (low : 2 ^ 53 ≤ millis) (high : millis < 2 ^ 54) :
    roundedSeconds millis = (millis + 500) / 1000 + if millis % 1000 = 499 then 1 else 0 := by
  have whole : ∀ {n number : Nat}, wholeRound53 millis = number → number % 2 = 0 →
      number ≤ 2 ^ 54 → 1000 * n ≤ number + 500 → number < 1000 * n + 500 →
      roundedSeconds millis = n := by
    intro n number shown even bound least most
    rw [roundedSeconds, shown]
    exact quotient_thousand 2 45 (by omega) (by omega) (by omega) least
      (by omega) (by omega)
  have shown := wholeRound53_of_bits low high
  by_cases up : millis % 4 = 3
  · rw [if_pos up] at shown
    by_cases reached : millis % 1000 = 499
    · rw [if_pos reached]
      exact whole shown (by omega) (by omega) (by omega) (by omega)
    · rw [if_neg reached]
      exact whole shown (by omega) (by omega) (by omega) (by omega)
  · have other : millis % 1000 ≠ 499 := by omega
    rw [if_neg up] at shown
    rw [if_neg other]
    exact whole shown (by omega) (by omega) (by omega) (by omega)

/-- Whole seconds are near enough to what is rounded up to 61 bits of milliseconds. -/
theorem roundedSeconds_of_seconds {n : Nat} (bound : n * 1000 < 2 ^ 61) :
    roundedSeconds (n * 1000) = n := by
  have near := wholeRound53_near 8 bound
  exact quotient_thousand 372 52 (by omega) (by omega) (by omega) (by omega)
    (by omega) (by omega)

theorem roundedSeconds_near (bound : millis < 2 ^ 63) :
    millis ≤ roundedSeconds millis * 1000 + 1512 ∧ roundedSeconds millis * 1000 ≤ millis + 1512 := by
  have near := wholeRound53_near 10 bound
  have level : (wholeRound53 millis / 1000).log2 < 54 :=
    log2_seconds_lt (by omega) (by omega)
  have quotient := quotientRound53_near (wholeRound53 millis) (by omega : 0 < 1000)
    (by omega)
  unfold roundedSeconds
  omega

theorem roundedSeconds_mono {greater : Nat} (order : millis ≤ greater) :
    roundedSeconds millis ≤ roundedSeconds greater :=
  quotientRound53_mono (by omega) (wholeRound53_mono order)

end Rounded

/-! ## Durations and their texts -/

theorem seconds_of_lt {duration : Duration} (small : duration.millis < 2 ^ 53) :
    duration.seconds = duration.exactSeconds := by
  rw [seconds_eq, exactSeconds_eq, roundedSeconds_of_lt (by omega)]

theorem seconds_of_bits {duration : Duration} (low : 2 ^ 53 ≤ duration.millis)
    (high : duration.millis < 2 ^ 54) :
    duration.seconds =
      duration.exactSeconds + if duration.millis % 1000 = 499 then 1 else 0 := by
  have rest : duration.millis % 1000 = 499 ↔ duration.millis.toNat % 1000 = 499 := by omega
  rw [seconds_eq, exactSeconds_eq, roundedSeconds_of_bits (by omega) (by omega)]
  simp only [rest]
  split <;> omega

theorem seconds_near {duration : Duration} (wellFormed : duration.WellFormed) :
    duration.seconds ≤ duration.exactSeconds + 2 ∧
      duration.exactSeconds ≤ duration.seconds + 2 := by
  have bound : duration.millis.toNat < 2 ^ 63 := by
    have most := wellFormed.2
    unfold Text.maxSigned64 at most
    omega
  have near := roundedSeconds_near bound
  rw [seconds_eq, exactSeconds_eq]
  omega

theorem seconds_mono {duration longer : Duration} (order : duration.millis ≤ longer.millis) :
    duration.seconds ≤ longer.seconds := by
  have rounded : roundedSeconds duration.millis.toNat ≤ roundedSeconds longer.millis.toNat :=
    roundedSeconds_mono (Int.toNat_le_toNat order)
  rw [seconds_eq, seconds_eq]
  omega

/-- Digits with an `s` behind them denote that many seconds. -/
theorem millis_of_parse_seconds {amount : List Char} {duration : Duration}
    (digits : ∀ c ∈ amount, c.isDigit = true)
    (denoted : parse (String.ofList (amount ++ ['s'])) = .ok duration) :
    duration.millis = Nat.ofDigitChars 10 amount 0 * 1000 := by
  obtain ⟨other, unit, spells, _, same⟩ := parse_eq_ok_iff.1 denoted
  have present : amount ≠ [] := by
    rintro rfl
    rw [String.toList_ofList] at spells
    have cut := span_spells spells
    obtain rfl : [] = other := congrArg Prod.fst cut
    exact spells.present rfl
  have within : SpelledWithin (amount ++ ['s']) [] amount ['s'] [] .seconds :=
    ⟨by simp, by simp, by simp, present, digits, rfl⟩
  have alike := span_spells (spells_trimmed_iff.2 ⟨[], ['s'], [], within⟩)
  rw [String.toList_ofList] at spells
  obtain ⟨rfl, letters⟩ := Prod.mk.inj ((span_spells spells).symm.trans alike)
  rw [same]
  cases unit with
  | seconds => rfl
  | milliseconds | minutes | hours | days | weeks => cases letters

theorem text_eq (duration : Duration) :
    duration.text = String.ofList (Text.digits duration.seconds) ++ "s" :=
  rfl

/-- A duration is written in whole seconds. They are the nearest ones, at least one, as long
as its milliseconds take 53 bits, and with 54 bits except for half a second less a
millisecond, which is rounded up. They are never more than two away from the nearest ones,
and never fewer for a longer duration. A number of seconds is read and written as itself as
long as its milliseconds take 61 bits. -/
theorem text_nearest {duration : Duration} (wellFormed : duration.WellFormed) :
    duration.text = String.ofList (Text.digits duration.seconds) ++ "s" ∧
    (duration.millis < 2 ^ 53 → duration.seconds = duration.exactSeconds) ∧
    (2 ^ 53 ≤ duration.millis → duration.millis < 2 ^ 54 → duration.seconds =
      duration.exactSeconds + if duration.millis % 1000 = 499 then 1 else 0) ∧
    (duration.seconds ≤ duration.exactSeconds + 2 ∧
      duration.exactSeconds ≤ duration.seconds + 2) ∧
    (∀ longer : Duration, duration.millis ≤ longer.millis → duration.seconds ≤ longer.seconds) ∧
    ∀ (amount : List Char) (n : Nat), (∀ c ∈ amount, c.isDigit = true) →
      Nat.ofDigitChars 10 amount 0 = n →
      parse (String.ofList (amount ++ ['s'])) = .ok duration → 1 ≤ n → n * 1000 < 2 ^ 61 →
        duration.text = String.ofList (Text.digits n) ++ "s" := by
  refine ⟨text_eq duration, seconds_of_lt, seconds_of_bits, seconds_near wellFormed,
    fun longer => seconds_mono, ?_⟩
  intro amount n digits number denoted positive bound
  have millis : duration.millis.toNat = n * 1000 := by
    have product := millis_of_parse_seconds digits denoted
    omega
  rw [text_eq, seconds_eq, millis, roundedSeconds_of_seconds bound, Nat.max_eq_right positive]

/-- Half a second less a millisecond with 54 bits, and a longer duration of whole seconds. -/
theorem text_nearest_half :
    let half : Duration := ⟨9007199254741499⟩
    let longer : Duration := ⟨9007199254742000⟩
    half.WellFormed ∧ longer.WellFormed ∧ half.seconds = half.exactSeconds + 1 ∧
    half.seconds ≤ longer.seconds ∧ longer.seconds = longer.exactSeconds ∧
    parse (String.ofList ("009007199254742".toList ++ ['s'])) = .ok longer ∧
    longer.text = String.ofList (Text.digits 9007199254742) ++ "s" := by
  intro half longer
  have wellFormed : half.WellFormed := ⟨by decide, by decide⟩
  have alsoWellFormed : longer.WellFormed := ⟨by decide, by decide⟩
  have denoted : parse (String.ofList ("009007199254742".toList ++ ['s'])) = .ok longer := by
    decide +kernel
  obtain ⟨_, _, bits, _, order, _⟩ := text_nearest wellFormed
  obtain ⟨_, _, alsoBits, _, _, readsBack⟩ := text_nearest alsoWellFormed
  have up : half.seconds = half.exactSeconds + 1 := by
    have shown := bits (by decide) (by decide)
    rwa [if_pos (by decide)] at shown
  have whole : longer.seconds = longer.exactSeconds := by
    have shown := alsoBits (by decide) (by decide)
    rwa [if_neg (by decide), Nat.add_zero] at shown
  exact ⟨wellFormed, alsoWellFormed, up, order longer (by decide), whole, denoted,
    readsBack "009007199254742".toList 9007199254742 (List.all_eq_true.1 (by decide +kernel))
      (by decide +kernel) denoted (by decide) (by decide)⟩

/-- The seconds of a duration are not always the nearest ones. -/
theorem text_nearest_not_exact :
    ¬∀ duration : Duration, duration.WellFormed →
      duration.text = String.ofList (Text.digits duration.exactSeconds) ++ "s" := by
  intro exact
  have shown := exact ⟨9007199254741499⟩ ⟨by decide, by decide⟩
  exact absurd shown (by decide +kernel)

end MetricQuery.Duration
