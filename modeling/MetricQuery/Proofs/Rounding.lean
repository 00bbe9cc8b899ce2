import Mathlib.Algebra.Group.Nat.Defs
import Mathlib.Tactic.Ring
import MetricQuery.Decimal.Rounding

/-!
# Rounding

Rounding with 53 bits of precision goes to a nearest number, keeps the order, and stays
between the powers of two that enclose what is rounded. So it can be told without its
tables of cases, by bounds alone.
-/

set_option autoImplicit false

namespace MetricQuery.Precision

/-! ## Powers of two -/

theorem two_pow_mul {front back whole : Nat} (sum : front + back = whole) :
    2 ^ front * 2 ^ back = 2 ^ whole := by
  rw [← Nat.pow_add, sum]

theorem log2_mono {number greater : Nat} (order : number ≤ greater) :
    number.log2 ≤ greater.log2 := by
  rcases Nat.eq_zero_or_pos number with rfl | some
  · exact Nat.zero_le _
  · exact (Nat.le_log2 (by omega)).2 ((Nat.log2_self_le (by omega)).trans order)

theorem log2_lt {number bits : Nat} (some : 0 < bits) (bound : number < 2 ^ bits) :
    number.log2 < bits := by
  rcases Nat.eq_zero_or_pos number with rfl | present
  · exact some
  · exact (Nat.log2_lt (by omega)).2 bound

/-! ## To the nearest whole number -/

section Whole

variable {number greater unit : Nat}

/-- The distance to what is rounded is at most half a unit. -/
theorem roundEven_near (number : Nat) (some : 0 < unit) :
    2 * number ≤ 2 * (roundEven number unit * unit) + unit ∧
      2 * (roundEven number unit * unit) ≤ 2 * number + unit := by
  have split : number / unit * unit + number % unit = number := Nat.div_add_mod' number unit
  have rest : number % unit < unit := Nat.mod_lt number some
  have next : (number / unit + 1) * unit = number / unit * unit + unit := Nat.succ_mul _ _
  unfold roundEven
  dsimp only
  split
  · omega
  · split
    · omega
    · rcases Nat.mod_two_eq_zero_or_one (number / unit) with even | odd
      · rw [even, Nat.add_zero]
        omega
      · rw [odd]
        omega

theorem roundEven_mono (some : 0 < unit) (order : number ≤ greater) :
    roundEven number unit ≤ roundEven greater unit := by
  refine Nat.not_lt.1 fun crossed => ?_
  have least : (roundEven greater unit + 1) * unit ≤ roundEven number unit * unit :=
    Nat.mul_le_mul_right unit crossed
  rw [Nat.succ_mul] at least
  obtain ⟨_, high⟩ := roundEven_near number some
  obtain ⟨low, _⟩ := roundEven_near greater some
  -- Two numbers on either side of one half are the same half.
  have same : number = greater := by omega
  subst same
  omega

theorem roundEven_mul (n : Nat) (some : 0 < unit) : roundEven (n * unit) unit = n := by
  simp [roundEven, Nat.mul_div_cancel n some, some]

theorem le_roundEven {n : Nat} (some : 0 < unit) (low : n * unit ≤ number) :
    n ≤ roundEven number unit :=
  roundEven_mul n some ▸ roundEven_mono some low

theorem roundEven_le {n : Nat} (some : 0 < unit) (high : number ≤ n * unit) :
    roundEven number unit ≤ n :=
  roundEven_mul n some ▸ roundEven_mono some high

theorem roundUp_mono (order : number ≤ greater) (unit : Nat) :
    roundUp number unit ≤ roundUp greater unit :=
  Nat.div_le_div_right (by omega)

theorem roundUp_mul (n : Nat) (some : 0 < unit) : roundUp (n * unit) unit = n := by
  have split : 2 * (n * unit) + unit = unit + 2 * unit * n := by ring
  rw [roundUp, split, Nat.add_mul_div_left _ _ (by omega), Nat.div_eq_of_lt (by omega),
    Nat.zero_add]

theorem le_roundUp {n : Nat} (some : 0 < unit) (low : n * unit ≤ number) :
    n ≤ roundUp number unit :=
  roundUp_mul n some ▸ roundUp_mono low unit

theorem roundUp_le {n : Nat} (some : 0 < unit) (high : number ≤ n * unit) :
    roundUp number unit ≤ n :=
  roundUp_mul n some ▸ roundUp_mono high unit

end Whole

/-! ## Rounding twice -/

section Twice

variable {number unit : Nat}

theorem roundUp_near (number : Nat) (some : 0 < unit) :
    2 * number < 2 * (roundUp number unit * unit) + unit ∧
      2 * (roundUp number unit * unit) ≤ 2 * number + unit := by
  have split : (2 * number + unit) / (2 * unit) * (2 * unit) + (2 * number + unit) % (2 * unit) =
      2 * number + unit :=
    Nat.div_add_mod' _ _
  have rest : (2 * number + unit) % (2 * unit) < 2 * unit := Nat.mod_lt _ (by omega)
  have double : (2 * number + unit) / (2 * unit) * (2 * unit) =
      2 * ((2 * number + unit) / (2 * unit) * unit) := by ring
  unfold roundUp
  omega

/-- A quotient that is rounded to fractions first is at most one off. -/
theorem roundUp_roundEven_near (number : Nat) {scale : Nat} (some : 0 < unit)
    (positive : 0 < scale) :
    number ≤ roundUp (roundEven (number * scale) unit) scale * unit + unit ∧
      roundUp (roundEven (number * scale) unit) scale * unit ≤ number + unit := by
  obtain ⟨low, high⟩ := roundEven_near (number * scale) some
  generalize roundEven (number * scale) unit = significand at low high
  obtain ⟨below, above⟩ := roundUp_near significand positive
  generalize roundUp significand scale = rounded at below above
  have one : unit ≤ unit * scale := Nat.le_mul_of_pos_right unit positive
  constructor
  · refine Nat.le_of_mul_le_mul_right ?_ positive
    have scaled : 2 * significand * unit ≤ (2 * (rounded * scale) + scale) * unit :=
      Nat.mul_le_mul_right _ below.le
    have left : 2 * significand * unit = 2 * (significand * unit) := by ring
    have right : (2 * (rounded * scale) + scale) * unit =
        2 * (rounded * unit * scale) + unit * scale := by ring
    rw [Nat.add_mul]
    omega
  · refine Nat.le_of_mul_le_mul_right ?_ positive
    have scaled : 2 * (rounded * scale) * unit ≤ (2 * significand + scale) * unit :=
      Nat.mul_le_mul_right _ above
    have left : 2 * (rounded * scale) * unit = 2 * (rounded * unit * scale) := by ring
    have right : (2 * significand + scale) * unit =
        2 * (significand * unit) + unit * scale := by ring
    rw [Nat.add_mul]
    omega

section Halves

variable {half step n slack : Nat}

/-- The fractions of a quotient reach the half below `n` if the quotient does. -/
theorem le_roundEven_halves (some : 0 < half) (low : 2 * half * n ≤ number + half) :
    2 * step * n ≤ roundEven (number * (2 * step)) (2 * half) + step := by
  cases n with
  | zero => simp
  | succ n =>
    have odd : (2 * n + 1) * half ≤ number := by
      have split : 2 * half * (n + 1) = (2 * n + 1) * half + half := by ring
      omega
    have below : (2 * n + 1) * step ≤ roundEven (number * (2 * step)) (2 * half) := by
      refine le_roundEven (by omega) ?_
      calc (2 * n + 1) * step * (2 * half) = (2 * n + 1) * half * (2 * step) := by ring
        _ ≤ number * (2 * step) := Nat.mul_le_mul_right _ odd
    have split : 2 * step * (n + 1) = (2 * n + 1) * step + step := by ring
    omega

/-- They stay below the half above `n` if the quotient is so far away from it that half a
fraction does not matter. -/
theorem roundEven_halves_lt (some : 0 < half) (high : number + slack ≤ 2 * half * n + half)
    (fine : half < slack * (2 * step)) :
    roundEven (number * (2 * step)) (2 * half) < (2 * n + 1) * step := by
  have near := (roundEven_near (number * (2 * step)) (by omega : 0 < 2 * half)).2
  have room : number * (2 * step) + slack * (2 * step) ≤ (2 * n + 1) * step * (2 * half) := by
    calc number * (2 * step) + slack * (2 * step) = (number + slack) * (2 * step) := by ring
      _ ≤ (2 * half * n + half) * (2 * step) := Nat.mul_le_mul_right _ high
      _ = (2 * n + 1) * step * (2 * half) := by ring
  have scaled : roundEven (number * (2 * step)) (2 * half) * (2 * half) <
      (2 * n + 1) * step * (2 * half) := by
    omega
  exact Nat.lt_of_mul_lt_mul_right scaled

theorem roundUp_roundEven_eq (some : 0 < half) (low : 2 * half * n ≤ number + half)
    (high : number + slack ≤ 2 * half * n + half) (fine : half < slack * (2 * step)) :
    roundUp (roundEven (number * (2 * step)) (2 * half)) (2 * step) = n := by
  have least : 2 * step * n ≤ roundEven (number * (2 * step)) (2 * half) + step :=
    le_roundEven_halves some low
  have most := roundEven_halves_lt some high fine
  refine Nat.div_eq_of_lt_le ?_ ?_
  · have split : n * (2 * (2 * step)) = 2 * (2 * step * n) := by ring
    omega
  · have split : (n + 1) * (2 * (2 * step)) = 2 * ((2 * n + 1) * step) + 2 * step := by ring
    omega

end Halves

end Twice

/-! ## Whole numbers with 53 bits -/

section Numbers

variable {number greater : Nat}

theorem wholeRound53_of_lt (small : number < 2 ^ 53) : wholeRound53 number = number :=
  if_pos small

theorem wholeRound53_of_le (large : 2 ^ 53 ≤ number) :
    wholeRound53 number =
      roundEven number (2 ^ (number.log2 - 52)) * 2 ^ (number.log2 - 52) :=
  if_neg (Nat.not_lt.2 large)

theorem log2_of_large (large : 2 ^ 53 ≤ number) : 53 ≤ number.log2 :=
  (Nat.le_log2 (by omega)).2 large

/-- A number as it lies between powers of two, in units of the last of its 53 bits. -/
theorem bounds_of_large (large : 2 ^ 53 ≤ number) :
    2 ^ 52 * 2 ^ (number.log2 - 52) = 2 ^ number.log2 ∧
      2 ^ 53 * 2 ^ (number.log2 - 52) = 2 ^ (number.log2 + 1) := by
  have power := log2_of_large large
  exact ⟨two_pow_mul (by omega), two_pow_mul (by omega)⟩

theorem wholeRound53_bounds (large : 2 ^ 53 ≤ number) :
    2 ^ number.log2 ≤ wholeRound53 number ∧ wholeRound53 number ≤ 2 ^ (number.log2 + 1) := by
  obtain ⟨least, most⟩ := bounds_of_large large
  have unit : 0 < 2 ^ (number.log2 - 52) := Nat.two_pow_pos _
  rw [wholeRound53_of_le large]
  constructor
  · rw [← least]
    exact Nat.mul_le_mul_right _ (le_roundEven unit (least ▸ Nat.log2_self_le (by omega)))
  · rw [← most]
    exact Nat.mul_le_mul_right _ (roundEven_le unit (most ▸ Nat.lt_log2_self.le))

theorem wholeRound53_mono (order : number ≤ greater) :
    wholeRound53 number ≤ wholeRound53 greater := by
  rcases Nat.lt_or_ge greater (2 ^ 53) with small | large
  · rw [wholeRound53_of_lt small, wholeRound53_of_lt (order.trans_lt small)]
    exact order
  · have least := (wholeRound53_bounds large).1
    have powers : 2 ^ 53 ≤ 2 ^ greater.log2 :=
      Nat.pow_le_pow_right (by omega) (log2_of_large large)
    rcases Nat.lt_or_ge number (2 ^ 53) with small | alsoLarge
    · rw [wholeRound53_of_lt small]
      omega
    · rcases Nat.lt_or_eq_of_le (log2_mono order) with below | same
      · have most := (wholeRound53_bounds alsoLarge).2
        have between : 2 ^ (number.log2 + 1) ≤ 2 ^ greater.log2 :=
          Nat.pow_le_pow_right (by omega) below
        omega
      · rw [wholeRound53_of_le large, wholeRound53_of_le alsoLarge, same]
        exact Nat.mul_le_mul_right _ (roundEven_mono (Nat.two_pow_pos _) order)

/-- Of a number with `bits` bits more than 53 these are rounded. -/
theorem wholeRound53_near (bits : Nat) (fits : number < 2 ^ (53 + bits)) :
    2 * number ≤ 2 * wholeRound53 number + 2 ^ bits ∧
      2 * wholeRound53 number ≤ 2 * number + 2 ^ bits := by
  rcases Nat.lt_or_ge number (2 ^ 53) with small | large
  · rw [wholeRound53_of_lt small]
    exact ⟨Nat.le_add_right _ _, Nat.le_add_right _ _⟩
  · have power : number.log2 < 53 + bits := (Nat.log2_lt (by omega)).2 fits
    have unit : 2 ^ (number.log2 - 52) ≤ 2 ^ bits := Nat.pow_le_pow_right (by omega) (by omega)
    have near := roundEven_near number (Nat.two_pow_pos (number.log2 - 52))
    rw [wholeRound53_of_le large]
    omega

end Numbers

/-! ## Quotients with 53 bits -/

section Quotients

variable {number greater unit : Nat}

theorem quotientRound53_of_lt (small : (number / unit).log2 < 52) :
    quotientRound53 number unit =
      roundUp (roundEven (number * 2 ^ (52 - (number / unit).log2)) unit)
        (2 ^ (52 - (number / unit).log2)) := by
  have power : ((number / unit).log2 : Int) - 52 = .negSucc (51 - (number / unit).log2) := by
    omega
  have places : 51 - (number / unit).log2 + 1 = 52 - (number / unit).log2 := by omega
  simp only [quotientRound53, round53, power, places, Nat.pow_eq]

theorem quotientRound53_of_le (large : 52 ≤ (number / unit).log2) :
    quotientRound53 number unit =
      roundEven number (unit * 2 ^ ((number / unit).log2 - 52)) *
        2 ^ ((number / unit).log2 - 52) := by
  have power : ((number / unit).log2 : Int) - 52 = .ofNat ((number / unit).log2 - 52) := by
    rw [Int.ofNat_eq_natCast]
    omega
  simp only [quotientRound53, round53, power, Nat.pow_eq]

theorem quotientRound53_le (some : 0 < unit) :
    quotientRound53 number unit ≤ 2 ^ ((number / unit).log2 + 1) := by
  have high : number ≤ 2 ^ ((number / unit).log2 + 1) * unit :=
    ((Nat.div_lt_iff_lt_mul some).1 Nat.lt_log2_self).le
  generalize level : (number / unit).log2 = power at high
  rcases Nat.lt_or_ge power 52 with small | large
  · have whole : 2 ^ (power + 1) * 2 ^ (52 - power) = 2 ^ 53 := two_pow_mul (by omega)
    rw [quotientRound53_of_lt (level ▸ small), level]
    refine roundUp_le (Nat.two_pow_pos _) ?_
    rw [whole]
    refine roundEven_le some ?_
    calc number * 2 ^ (52 - power)
        ≤ 2 ^ (power + 1) * unit * 2 ^ (52 - power) := Nat.mul_le_mul_right _ high
      _ = 2 ^ (power + 1) * 2 ^ (52 - power) * unit := by ring
      _ = 2 ^ 53 * unit := by rw [whole]
  · have whole : 2 ^ 53 * 2 ^ (power - 52) = 2 ^ (power + 1) := two_pow_mul (by omega)
    rw [quotientRound53_of_le (level ▸ large), level, ← whole]
    refine Nat.mul_le_mul_right _ (roundEven_le (Nat.mul_pos some (Nat.two_pow_pos _)) ?_)
    calc number ≤ 2 ^ (power + 1) * unit := high
      _ = 2 ^ 53 * (unit * 2 ^ (power - 52)) := by rw [← whole]; ring

theorem le_quotientRound53 (some : 0 < unit) (present : unit ≤ number) :
    2 ^ (number / unit).log2 ≤ quotientRound53 number unit := by
  have one : number / unit ≠ 0 := by
    have positive : 0 < number / unit := Nat.div_pos present some
    omega
  have low : 2 ^ (number / unit).log2 * unit ≤ number :=
    (Nat.le_div_iff_mul_le some).1 (Nat.log2_self_le one)
  generalize level : (number / unit).log2 = power at low
  rcases Nat.lt_or_ge power 52 with small | large
  · have whole : 2 ^ power * 2 ^ (52 - power) = 2 ^ 52 := two_pow_mul (by omega)
    rw [quotientRound53_of_lt (level ▸ small), level]
    refine le_roundUp (Nat.two_pow_pos _) ?_
    rw [whole]
    refine le_roundEven some ?_
    calc 2 ^ 52 * unit = 2 ^ power * 2 ^ (52 - power) * unit := by rw [whole]
      _ = 2 ^ power * unit * 2 ^ (52 - power) := by ring
      _ ≤ number * 2 ^ (52 - power) := Nat.mul_le_mul_right _ low
  · have whole : 2 ^ 52 * 2 ^ (power - 52) = 2 ^ power := two_pow_mul (by omega)
    rw [quotientRound53_of_le (level ▸ large), level, ← whole]
    refine Nat.mul_le_mul_right _ (le_roundEven (Nat.mul_pos some (Nat.two_pow_pos _)) ?_)
    calc 2 ^ 52 * (unit * 2 ^ (power - 52)) = 2 ^ power * unit := by rw [← whole]; ring
      _ ≤ number := low

theorem quotientRound53_mono (some : 0 < unit) (order : number ≤ greater) :
    quotientRound53 number unit ≤ quotientRound53 greater unit := by
  have levels : (number / unit).log2 ≤ (greater / unit).log2 :=
    log2_mono (Nat.div_le_div_right order)
  rcases Nat.lt_or_eq_of_le levels with below | same
  · have present : unit ≤ greater := by
      refine Nat.not_lt.1 fun less => ?_
      rw [Nat.div_eq_of_lt less] at below
      exact Nat.not_lt_zero _ below
    calc quotientRound53 number unit ≤ 2 ^ ((number / unit).log2 + 1) := quotientRound53_le some
      _ ≤ 2 ^ (greater / unit).log2 := Nat.pow_le_pow_right (by omega) below
      _ ≤ quotientRound53 greater unit := le_quotientRound53 some present
  · rcases Nat.lt_or_ge (greater / unit).log2 52 with small | large
    · rw [quotientRound53_of_lt small, quotientRound53_of_lt (same ▸ small), same]
      exact roundUp_mono (roundEven_mono some (Nat.mul_le_mul_right _ order)) _
    · rw [quotientRound53_of_le large, quotientRound53_of_le (same ▸ large), same]
      exact Nat.mul_le_mul_right _
        (roundEven_mono (Nat.mul_pos some (Nat.two_pow_pos _)) order)

/-- A quotient that is nearest to a whole number is rounded to it, unless it lies so close
below a half that its last bit reaches it. -/
theorem quotientRound53_eq {half n slack : Nat} (some : 0 < half)
    (small : (number / (2 * half)).log2 < 52) (low : 2 * half * n ≤ number + half)
    (high : number + slack ≤ 2 * half * n + half)
    (fine : half < slack * 2 ^ (52 - (number / (2 * half)).log2)) :
    quotientRound53 number (2 * half) = n := by
  have places : 2 * 2 ^ (51 - (number / (2 * half)).log2) =
      2 ^ (52 - (number / (2 * half)).log2) := by
    rw [← Nat.pow_succ']
    exact congrArg (2 ^ ·) (by omega)
  rw [quotientRound53_of_lt small]
  rw [← places] at fine ⊢
  exact roundUp_roundEven_eq some low high fine

/-- As long as whole numbers are at most two apart, a quotient is at most one off. -/
theorem quotientRound53_near (number : Nat) (some : 0 < unit)
    (bound : (number / unit).log2 ≤ 53) :
    number ≤ quotientRound53 number unit * unit + unit ∧
      quotientRound53 number unit * unit ≤ number + unit := by
  rcases Nat.lt_or_ge (number / unit).log2 52 with small | large
  · rw [quotientRound53_of_lt small]
    exact roundUp_roundEven_near number some (Nat.two_pow_pos _)
  · rw [quotientRound53_of_le large]
    have most : 2 ^ ((number / unit).log2 - 52) ≤ 2 ^ 1 :=
      Nat.pow_le_pow_right (by omega) (by omega)
    have positive := Nat.two_pow_pos ((number / unit).log2 - 52)
    generalize 2 ^ ((number / unit).log2 - 52) = scale at most positive
    have near := roundEven_near number (Nat.mul_pos some positive)
    generalize roundEven number (unit * scale) = significand at near
    have product : significand * (unit * scale) = significand * scale * unit := by ring
    have two : unit * scale ≤ unit * 2 := Nat.mul_le_mul_left unit most
    omega

end Quotients

end MetricQuery.Precision
