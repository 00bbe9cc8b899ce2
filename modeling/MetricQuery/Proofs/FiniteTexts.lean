import MetricQuery.Proofs.FiniteNumbers

/-!
# Finite numbers of texts

A number literal that is read stands for a finite number. A product is given up where
it is infinite, and a quotient by a power of ten is smaller than its dividend. Hence
every document that is read from a text holds finite numbers only.
-/

set_option autoImplicit false

namespace MetricQuery

open Float.Model (Format UnpackedFloat totalExponent)
open Float.Model.UnpackedFloat

namespace JsonNumber

/-! ## Numbers of full precision -/

theorem le_roundedMantissa (extended : ExtendedMantissa) :
    extended.mantissa ≤ extended.roundedMantissa := by
  obtain ⟨mantissa, roundBit, stickyBit⟩ := extended
  cases roundBit <;> cases stickyBit <;>
    simp [ExtendedMantissa.roundedMantissa, ExtendedMantissa.accuracy,
      Accuracy.roundToNearestEven]

/-- A wide mantissa is shifted to 53 bits. -/
theorem shiftToTargetExponent_wide {mantissa : Nat} {exponent : Int} (accuracy : Accuracy)
    (wide : 2 ^ 52 ≤ mantissa) (normal : -1074 ≤ exponent) :
    let shifted := shiftToTargetExponent Format.binary64 mantissa exponent accuracy
    shifted.2 = exponent + mantissa.log2 - 52 ∧ 2 ^ 52 ≤ shifted.1.mantissa ∧
      shifted.1.mantissa < 2 ^ 53 := by
  have positive : mantissa ≠ 0 := by omega
  have bits : 52 ≤ mantissa.log2 := (Nat.le_log2 positive).2 wide
  have own : 2 ^ mantissa.log2 ≤ mantissa := Nat.log2_self_le positive
  have above : mantissa < 2 ^ (mantissa.log2 + 1) := Nat.lt_log2_self
  have places : (max ((mantissa.log2 : Int) + 1 + exponent - 53) (-1074) - exponent).toNat =
      mantissa.log2 - 52 := by
    omega
  have value := mantissa_shiftToTargetExponent mantissa exponent accuracy
  rw [places] at value
  refine ⟨?_, ?_, ?_⟩
  · show exponent +
      ((max ((mantissa.log2 : Int) + 1 + exponent - 53) (-1074) - exponent).toNat : Int) = _
    omega
  · rw [value, Nat.le_div_iff_mul_le (Nat.two_pow_pos _), ← Nat.pow_add]
    rwa [show 52 + (mantissa.log2 - 52) = mantissa.log2 by omega]
  · rw [value, Nat.div_lt_iff_lt_mul (Nat.two_pow_pos _), ← Nat.pow_add]
    rwa [show 53 + (mantissa.log2 - 52) = mantissa.log2 + 1 by omega]

/-- Rounding a wide mantissa gives one of 53 bits; a carry raises the exponent by one. -/
theorem roundWithAccuracy_wide {mantissa : Nat} {exponent : Int} (sign : Sign)
    (accuracy : Accuracy) (wide : 2 ^ 52 ≤ mantissa) (normal : -1074 ≤ exponent) :
    ∃ rounded raised positive,
      roundWithAccuracy Format.binary64 sign mantissa exponent accuracy =
        .finite sign rounded raised positive ∧
      rounded.log2 = 52 ∧ exponent + mantissa.log2 - 52 ≤ raised ∧
      raised ≤ exponent + mantissa.log2 - 51 := by
  let shifted := shiftToTargetExponent Format.binary64 mantissa exponent accuracy
  obtain ⟨first, low, high⟩ : shifted.2 = exponent + mantissa.log2 - 52 ∧
      2 ^ 52 ≤ shifted.1.mantissa ∧ shifted.1.mantissa < 2 ^ 53 :=
    shiftToTargetExponent_wide accuracy wide normal
  have bits : 52 ≤ mantissa.log2 := (Nat.le_log2 (by omega)).2 wide
  have kept := le_roundedMantissa shifted.1
  have carried := roundedMantissa_le shifted.1
  have normalShifted : -1074 ≤ shifted.2 := by omega
  let again := shiftedTwice mantissa exponent accuracy
  obtain ⟨second, againLow, againHigh⟩ : again.2 = shifted.2 + shifted.1.roundedMantissa.log2 - 52 ∧
      2 ^ 52 ≤ again.1.mantissa ∧ again.1.mantissa < 2 ^ 53 :=
    shiftToTargetExponent_wide .exact (low.trans kept) normalShifted
  have top : shifted.1.roundedMantissa.log2 ≤ 53 := log2_le (by omega)
  have bottom : 52 ≤ shifted.1.roundedMantissa.log2 := (Nat.le_log2 (by omega)).2 (low.trans kept)
  have positive : again.1.mantissa ≠ 0 := by omega
  refine ⟨again.1.mantissa, again.2, Nat.pos_of_ne_zero positive, ?_, ?_, ?_, ?_⟩
  · rw [roundWithAccuracy_eq, dif_neg positive]
  · exact Nat.le_antisymm (log2_le againHigh) ((Nat.le_log2 positive).2 againLow)
  · show _ ≤ again.2
    omega
  · show again.2 ≤ _
    omega

/-! ## Packed numbers -/

theorem two_pow_le_append (mantissa : BitVec 52) : 2 ^ 52 ≤ (1#1 ++ mantissa).toNat := by
  rw [BitVec.toNat_append, Nat.shiftLeft_eq]
  exact (Nat.le_of_eq (by simp)).trans Nat.left_le_or

/-- Between the least and the greatest exponent, a number has 53 bits. -/
theorem unpack_normal {bits : BitVec Format.binary64.numBits} (notTop : unpackExponent bits ≠ -1#_)
    (notBottom : unpackExponent bits ≠ 0#_) :
    ∃ sign mantissa positive, unpack Format.binary64 bits =
      .finite sign mantissa (((unpackExponent bits).toNat : Int) - 1075) positive ∧
        2 ^ 52 ≤ mantissa ∧ mantissa < 2 ^ 53 := by
  unfold unpack
  rw [if_neg notTop, if_neg notBottom]
  have wide := two_pow_le_append (unpackMantissa bits)
  have below : (1#1 ++ unpackMantissa bits).toNat < 2 ^ 53 := (1#1 ++ unpackMantissa bits).isLt
  exact ⟨_, _, Nat.lt_of_lt_of_le (by decide) wide, rfl, wide, below⟩

/-- A number of 53 bits keeps its exponent when it is packed. -/
theorem unpack_pack_wide (sign : Sign) {mantissa : Nat} {exponent : Int}
    (positive : 0 < mantissa) (wide : mantissa.log2 = 52) (normal : -1074 ≤ exponent)
    (small : exponent ≤ 971) :
    ∃ own kept above, (Float.Model.pack (.finite sign mantissa exponent positive)).unpack =
      .finite own kept exponent above ∧ 2 ^ 52 ≤ kept := by
  let biased := (exponent + (1023 : Nat) + (52 : Nat)).toNat
  have room : ¬ 2 ^ 11 ≤ biased + 1 := by omega
  have packed : pack Format.binary64 (.finite sign mantissa exponent positive) =
      packComponents Format.binary64 sign (BitVec.ofNat 11 biased) (BitVec.ofNat 52 mantissa) := by
    have full : mantissa.log2 + 1 = Format.binary64.mantissaBits := by rw [wide]; rfl
    unfold pack
    exact (if_neg room).trans (if_pos full)
  have biasedBits : (BitVec.ofNat 11 biased).toNat = biased := by
    rw [BitVec.toNat_ofNat, Nat.mod_eq_of_lt (by omega)]
  have exponentBits :
      unpackExponent (pack Format.binary64 (.finite sign mantissa exponent positive)) =
        BitVec.ofNat 11 biased := by
    rw [packed]
    exact unpackExponent_packComponents
  have notTop : BitVec.ofNat 11 biased ≠ -1#_ := by
    rw [ne_eq, ← BitVec.toNat_inj, biasedBits]
    show biased ≠ 2047
    omega
  have notBottom : BitVec.ofNat 11 biased ≠ 0#_ := by
    rw [ne_eq, ← BitVec.toNat_inj, biasedBits]
    show biased ≠ 0
    omega
  obtain ⟨own, kept, above, unpacked, keptWide, _⟩ :=
    unpack_normal (exponentBits.trans_ne notTop) (exponentBits.trans_ne notBottom)
  have same : (biased : Int) - 1075 = exponent := by omega
  rw [exponentBits, biasedBits, same] at unpacked
  exact ⟨own, kept, above, unpacked, keptWide⟩

theorem mantissa_lt_of_unpack {bits : BitVec Format.binary64.numBits} {sign : Sign} {mantissa : Nat}
    {exponent : Int} {positive : 0 < mantissa}
    (unpacked : unpack Format.binary64 bits = .finite sign mantissa exponent positive) :
    mantissa < 2 ^ 53 := by
  by_cases top : unpackExponent bits = -1#_
  · unfold unpack at unpacked
    rw [if_pos top] at unpacked
    by_cases infinite : unpackMantissa bits = 0#_
    · rw [if_pos infinite] at unpacked
      cases unpacked
    · rw [if_neg infinite] at unpacked
      cases unpacked
  · by_cases bottom : unpackExponent bits = 0#_
    · unfold unpack at unpacked
      rw [if_neg top, if_pos bottom] at unpacked
      by_cases none : unpackMantissa bits = 0#_
      · rw [dif_pos none] at unpacked
        cases unpacked
      · rw [dif_neg none] at unpacked
        obtain ⟨_, same, _⟩ := UnpackedFloat.finite.inj unpacked
        have below : (unpackMantissa bits).toNat < 2 ^ 52 := (unpackMantissa bits).isLt
        omega
    · obtain ⟨own, kept, above, normal, _, below⟩ := unpack_normal top bottom
      obtain ⟨_, same, _⟩ := UnpackedFloat.finite.inj (normal.symm.trans unpacked)
      rwa [← same]

/-- What a finite number is unpacked as. -/
theorem unpack_of_isFinite {x : Float} (finite : x.isFinite = true) :
    (∃ sign, x.toModel.unpack = .zero sign) ∨
      ∃ sign mantissa exponent positive,
        x.toModel.unpack = .finite sign mantissa exponent positive ∧ mantissa < 2 ^ 53 ∧
          exponent ≤ 971 := by
  have moderate : IsModerate x.toModel.unpack := isModerate_of_isFinite finite
  cases unpacked : x.toModel.unpack with
  | zero sign => exact Or.inl ⟨sign, rfl⟩
  | finite sign mantissa exponent positive =>
    rw [unpacked] at moderate
    exact Or.inr ⟨sign, mantissa, exponent, positive, rfl, mantissa_lt_of_unpack unpacked, moderate⟩
  | infinity sign =>
    rw [unpacked] at moderate
    exact absurd moderate id
  | notANumber =>
    rw [unpacked] at moderate
    exact absurd moderate id

/-! ## Products and quotients -/

/-- A finite product is packed to a finite number or to an infinite one. -/
theorem isFinite_pack_of_not_isInf {number : UnpackedFloat} (finite : number.isFinite = true)
    (notInf : (Float.Model.pack number).isInf = false) :
    (Float.Model.pack number).isFinite = true := by
  cases number with
  | zero sign => exact isFinite_pack (show IsModerate (.zero sign) from trivial)
  | infinity sign => cases finite
  | notANumber => cases finite
  | finite sign mantissa exponent positive =>
    by_cases small : exponent ≤ 971
    · exact isFinite_pack (show IsModerate (.finite sign mantissa exponent positive) from small)
    · have overflow : 2 ^ 11 ≤ (exponent + (1023 : Nat) + (52 : Nat)).toNat + 1 := by omega
      have packed : pack Format.binary64 (.finite sign mantissa exponent positive) =
          packedInfinity Format.binary64 sign := by
        unfold pack
        exact if_pos overflow
      have infinite :
          (unpack Format.binary64 (packedInfinity Format.binary64 sign)).isInf = true := by
        cases sign <;> decide
      rw [← packed] at infinite
      exact absurd infinite (ne_true_of_eq_false notInf)

theorem isFinite_roundWithAccuracy (sign : Sign) (mantissa : Nat) (exponent : Int)
    (accuracy : Accuracy) :
    (roundWithAccuracy Format.binary64 sign mantissa exponent accuracy).isFinite = true := by
  rw [roundWithAccuracy_eq]
  by_cases none : (shiftedTwice mantissa exponent accuracy).1.mantissa = 0
  · rw [dif_pos none]
    rfl
  · rw [dif_neg none]
    rfl

theorem isFinite_mul {x y : Float} (finiteX : x.isFinite = true) (finiteY : y.isFinite = true)
    (notInf : (x * y).isInf = false) : (x * y).isFinite = true := by
  change (Float.Model.pack (mul Format.binary64 x.toModel.unpack y.toModel.unpack)).isInf = false
    at notInf
  show (Float.Model.pack (mul Format.binary64 x.toModel.unpack y.toModel.unpack)).isFinite = true
  refine isFinite_pack_of_not_isInf ?_ notInf
  rcases unpack_of_isFinite finiteX with ⟨_, first⟩ | ⟨_, _, _, _, first, _⟩ <;>
    rcases unpack_of_isFinite finiteY with ⟨_, second⟩ | ⟨_, _, _, _, second, _⟩ <;>
    rw [first, second]
  · rfl
  · rfl
  · rfl
  · exact isFinite_roundWithAccuracy _ _ _ _

def IsEightOrMore (y : Float) : Prop :=
  ∃ sign mantissa exponent positive, y.toModel.unpack = .finite sign mantissa exponent positive ∧
    4 ≤ totalExponent mantissa exponent

/-- The dividend is shifted so far that the quotient has at most 54 bits. -/
theorem quotient_lt {m₁ m₂ : Nat} {e₁ e₂ : Int} (positive : 0 < m₂) (narrow : m₁ < 2 ^ 53) :
    (divCore Format.binary64 m₁ e₁ m₂ e₂).1 < 2 ^ 54 := by
  let places := (e₁ - e₂ - min (e₁ - e₂)
    (max (((m₁.log2 : Int) + 1 + e₁) - ((m₂.log2 : Int) + 1 + e₂) - 53) (-1074))).toNat
  show m₁ <<< places / m₂ < 2 ^ 54
  rw [Nat.shiftLeft_eq, Nat.div_lt_iff_lt_mul positive]
  by_cases shifted : places = 0
  · rw [shifted]
    omega
  · have bound : m₁.log2 + 1 + places ≤ 54 + m₂.log2 := by omega
    calc m₁ * 2 ^ places < 2 ^ (m₁.log2 + 1) * 2 ^ places :=
          Nat.mul_lt_mul_of_pos_right Nat.lt_log2_self (Nat.two_pow_pos _)
      _ = 2 ^ (m₁.log2 + 1 + places) := (Nat.pow_add ..).symm
      _ ≤ 2 ^ (54 + m₂.log2) := Nat.pow_le_pow_right (by decide) bound
      _ = 2 ^ 54 * 2 ^ m₂.log2 := Nat.pow_add ..
      _ ≤ 2 ^ 54 * m₂ := Nat.mul_le_mul_left _ (Nat.log2_self_le positive.ne')

theorem isFinite_div {x y : Float} (finite : x.isFinite = true) (large : IsEightOrMore y) :
    (x / y).isFinite = true := by
  show (Float.Model.pack (div Format.binary64 x.toModel.unpack y.toModel.unpack)).isFinite = true
  refine isFinite_pack ?_
  obtain ⟨s₂, m₂, e₂, positive, second, total⟩ := large
  rcases unpack_of_isFinite finite with ⟨_, first⟩ | ⟨s₁, m₁, e₁, _, first, narrow, small⟩
  · rw [first, second]
    trivial
  · rw [first, second]
    have below : (divCore Format.binary64 m₁ e₁ m₂ e₂).1 < 2 ^ 54 := quotient_lt positive narrow
    have bits : m₁.log2 ≤ 52 := log2_le narrow
    have low : (divCore Format.binary64 m₁ e₁ m₂ e₂).2.1 ≤ 967 := by
      show min (e₁ - e₂)
        (max (((m₁.log2 : Int) + 1 + e₁) - ((m₂.log2 : Int) + 1 + e₂) - 53) (-1074)) ≤ 967
      change 4 ≤ (m₂.log2 : Int) + 1 + e₂ at total
      omega
    have rounded : IsModerate (roundWithAccuracy Format.binary64 (s₁ / s₂)
        (divCore Format.binary64 m₁ e₁ m₂ e₂).1 (divCore Format.binary64 m₁ e₁ m₂ e₂).2.1
        (divCore Format.binary64 m₁ e₁ m₂ e₂).2.2) :=
      isModerate_roundWithAccuracy 968 _ _ below (by omega) (by omega) (by decide) (by decide)
        (by decide)
    exact rounded

end JsonNumber

namespace NumberLiteral

open JsonNumber

/-! ## Powers of ten -/

/-- Whether a number is finite and has at least so many bits in front of its point. -/
def hasBits (bits : Int) : UnpackedFloat → Bool
  | .finite _ mantissa exponent _ => bits ≤ totalExponent mantissa exponent
  | _ => false

theorem log2_shifted_le {n bits : Nat} (below : n < 2 ^ bits) :
    ((1 <<< 53) * n).log2 ≤ bits + 52 := by
  refine log2_le ?_
  calc (1 <<< 53) * n < (1 <<< 53) * 2 ^ bits := Nat.mul_lt_mul_of_pos_left below (by decide)
    _ = 2 ^ (bits + 53) := by rw [Nat.one_shiftLeft, ← Nat.pow_add, Nat.add_comm]

theorem hasBits_tenTo_wide {power : Nat} (low : 22 < power) (high : power < 308) :
    hasBits 4 (tenTo power).toModel.unpack = true := by
  have opened : (tenTo power).toModel =
      Float.Model.pack (ofScientific Format.binary64 1 power) := by
    show (Float.ofScientific 1 false power).toModel = _
    rw [Float.ofScientific, dif_neg (by omega)]
    rfl
  have product : ofScientific Format.binary64 1 power =
      roundWithAccuracy Format.binary64 (.positive * .positive) ((1 <<< 53) * 10 ^ power) (-53 + 0)
        .exact := by
    have range : (2 : Int) ^ Format.binary64.exponentBits = 2048 := by decide
    unfold ofScientific
    rw [dif_neg (by decide), if_neg (by omega), if_neg (by omega), if_pos (by omega)]
    rfl
  have least : 8 ≤ 10 ^ power :=
    (by decide : 8 ≤ 10 ^ 1).trans (Nat.pow_le_pow_right (by decide) (by omega))
  have greatest : 10 ^ power < 2 ^ 1023 :=
    (Nat.pow_le_pow_right (by decide) (by omega)).trans_lt
      (by decide +kernel : 10 ^ 307 < 2 ^ 1023)
  have wide : 2 ^ 56 ≤ (1 <<< 53) * 10 ^ power := Nat.mul_le_mul_left (1 <<< 53) least
  have low : 56 ≤ ((1 <<< 53) * 10 ^ power).log2 := (Nat.le_log2 (by omega)).2 wide
  have high : ((1 <<< 53) * 10 ^ power).log2 ≤ 1023 + 52 := log2_shifted_le greatest
  obtain ⟨rounded, raised, positive, same, bits, above, below⟩ :=
    roundWithAccuracy_wide (.positive * .positive) .exact
      ((by decide : 2 ^ 52 ≤ 2 ^ 56).trans wide) (by decide : (-1074 : Int) ≤ -53 + 0)
  obtain ⟨own, kept, keptPositive, unpacked, keptWide⟩ :=
    unpack_pack_wide (.positive * .positive) positive bits (by omega : -1074 ≤ raised) (by omega)
  have keptBits : 52 ≤ kept.log2 := (Nat.le_log2 (by omega)).2 keptWide
  rw [opened, product, same, unpacked]
  show decide (4 ≤ (kept.log2 : Int) + 1 + raised) = true
  rw [decide_eq_true_eq]
  omega

/-- The powers of ten that numbers are scaled by are finite, and from ten on at least
eight. -/
theorem hasBits_tenTo {power : Nat} (small : power ≤ 308) :
    hasBits (if power = 0 then 1 else 4) (tenTo power).toModel.unpack = true := by
  have table : ∀ power ∈ List.range 23,
      hasBits (if power = 0 then 1 else 4) (tenTo power).toModel.unpack = true := by
    decide +kernel
  have greatest : hasBits 4 (tenTo 308).toModel.unpack = true := by decide +kernel
  by_cases exact : power ≤ 22
  · exact table power (List.mem_range.2 (by omega))
  · rw [if_neg (by omega)]
    by_cases top : power = 308
    · rw [top]
      exact greatest
    · exact hasBits_tenTo_wide (by omega) (by omega)

theorem isFinite_tenTo {power : Nat} (small : power ≤ 308) : (tenTo power).isFinite = true := by
  have bits := hasBits_tenTo small
  show (tenTo power).toModel.unpack.isFinite = true
  cases unpacked : (tenTo power).toModel.unpack with
  | zero => rfl
  | finite => rfl
  | infinity =>
    rw [unpacked] at bits
    cases bits
  | notANumber =>
    rw [unpacked] at bits
    cases bits

theorem isEightOrMore_tenTo {power : Nat} (positive : power ≠ 0) (small : power ≤ 308) :
    IsEightOrMore (tenTo power) := by
  have bits := hasBits_tenTo small
  rw [if_neg positive] at bits
  cases unpacked : (tenTo power).toModel.unpack with
  | finite sign mantissa exponent above =>
    rw [unpacked] at bits
    exact ⟨sign, mantissa, exponent, above, unpacked, of_decide_eq_true bits⟩
  | zero =>
    rw [unpacked] at bits
    cases bits
  | infinity =>
    rw [unpacked] at bits
    cases bits
  | notANumber =>
    rw [unpacked] at bits
    cases bits

/-! ## Literals -/

theorem isFinite_dividedByTens {fuel power : Nat} {x : Float} (finite : x.isFinite = true)
    (positive : power ≠ 0) : (dividedByTens fuel x power).isFinite = true := by
  induction fuel generalizing x power with
  | zero => exact finite
  | succ fuel ih =>
    rw [dividedByTens]
    by_cases small : power ≤ 308
    · rw [if_pos small]
      exact isFinite_div finite (isEightOrMore_tenTo positive small)
    · rw [if_neg small]
      by_cases zero : (x == 0) = true
      · rw [if_pos zero]
        exact finite
      · rw [if_neg zero]
        exact ih (isFinite_div finite (isEightOrMore_tenTo (by decide) (by decide))) (by omega)

theorem isFinite_of_scaled? {significand : Nat} {power : Int} {x : Float}
    (scaled : scaled? significand power = some x) : x.isFinite = true := by
  have start := isFinite_nearest significand
  cases power with
  | ofNat power =>
    rw [scaled?] at scaled
    dsimp only at scaled
    by_cases zero : significand = 0
    · rw [if_pos zero] at scaled
      rwa [← Option.some.inj scaled]
    · rw [if_neg zero] at scaled
      by_cases large : 308 < power
      · rw [if_pos large] at scaled
        cases scaled
      · rw [if_neg large] at scaled
        by_cases infinite : (nearest significand * tenTo power).isInf = true
        · rw [if_pos infinite] at scaled
          cases scaled
        · rw [if_neg infinite] at scaled
          rw [← Option.some.inj scaled]
          exact isFinite_mul start (isFinite_tenTo (Nat.le_of_not_lt large))
            (Bool.eq_false_of_not_eq_true infinite)
  | negSucc power =>
    rw [scaled?] at scaled
    rw [← Option.some.inj scaled]
    exact isFinite_dividedByTens start (Nat.succ_ne_zero power)

theorem isFinite_of_number? {literal : NumberLiteral} {number : JsonNumber}
    (read : literal.number? = some number) : number.isFinite = true := by
  unfold number? at read
  dsimp only at read
  split at read
  · rw [← Option.some.inj read]
    rfl
  · split at read
    · rw [← Option.some.inj read]
      rfl
    · cases scaled : literal.magnitude? with
      | none =>
        rw [scaled] at read
        cases read
      | some x =>
        rw [scaled] at read
        rw [← Option.some.inj read]
        have finite : x.isFinite = true := isFinite_of_scaled? scaled
        show (if literal.negative = true then -x else x).isFinite = true
        by_cases negative : literal.negative = true
        · rw [if_pos negative]
          exact isFinite_neg finite
        · rw [if_neg negative]
          exact finite

end NumberLiteral

namespace Json

/-! ## Texts -/

theorem isFinite_ofUnits (units : List StringUnit) : (ofUnits units).isFinite = true := by
  unfold ofUnits
  cases joinUnits units <;> rfl

theorem isFinite_ofLiteral (literal : NumberLiteral) : (ofLiteral literal).isFinite = true := by
  unfold ofLiteral
  cases read : literal.number? with
  | none => rfl
  | some number => exact NumberLiteral.isFinite_of_number? read

theorem isFinite_ifRoom (room : Nat) {value : Json} (finite : value.isFinite = true) :
    (ifRoom room value).isFinite = true := by
  unfold ifRoom
  by_cases full : room = 0
  · rw [if_pos full]
    rfl
  · rwa [if_neg full]

structure ReadsFinite (fuel : Nat) : Prop where
  value : ∀ room text document rest, readValue fuel room text = some (document, rest) →
    document.isFinite = true
  items : ∀ room text items rest, readItems fuel room text = some (items, rest) →
    allFinite items = true
  fields : ∀ room text fields rest, readFields fuel room text = some (some fields, rest) →
    allFieldsFinite fields = true

theorem isFinite_of_readValue {fuel : Nat} (less : ReadsFinite fuel) {room : Nat}
    {text rest : List Char} {document : Json}
    (read : readValue (fuel + 1) room text = some (document, rest)) :
    document.isFinite = true := by
  unfold readValue at read
  split at read
  · cases read
  · cases read
    rfl
  · cases read
    rfl
  · cases read
    rfl
  · split at read
    · cases read
      exact isFinite_ofUnits _
    · cases read
  · split at read
    · cases read
      exact isFinite_ifRoom room rfl
    · split at read
      · rename_i found
        cases read
        exact isFinite_ifRoom room (less.items _ _ _ _ found)
      · cases read
  · split at read
    · cases read
      exact isFinite_ifRoom room rfl
    · split at read
      · rename_i found
        cases read
        exact isFinite_ifRoom room (less.fields _ _ _ _ found)
      · cases read
        rfl
      · cases read
  · split at read
    · cases read
      exact isFinite_ofLiteral _
    · cases read

theorem allFinite_of_readItems {fuel : Nat} (less : ReadsFinite fuel) {room : Nat}
    {text rest : List Char} {items : List Json}
    (read : readItems (fuel + 1) room text = some (items, rest)) : allFinite items = true := by
  unfold readItems at read
  split at read
  · cases read
  · rename_i item first found
    have own : item.isFinite = true := less.value _ _ _ _ found
    split at read
    · cases read
      exact Bool.and_eq_true_iff.2 ⟨own, rfl⟩
    · split at read
      · rename_i others last later
        cases read
        exact Bool.and_eq_true_iff.2 ⟨own, less.items _ _ _ _ later⟩
      · cases read
    · cases read

theorem allFieldsFinite_of_readFields {fuel : Nat} (less : ReadsFinite fuel) {room : Nat}
    {text rest : List Char} {fields : List (String × Json)}
    (read : readFields (fuel + 1) room text = some (some fields, rest)) :
    allFieldsFinite fields = true := by
  unfold readFields at read
  split at read
  · split at read
    · cases read
    · split at read
      · split at read
        · cases read
        · rename_i value next found
          have own : value.isFinite = true := less.value _ _ _ _ found
          split at read
          · split at read
            · cases read
              exact Bool.and_eq_true_iff.2 ⟨own, rfl⟩
            · cases read
          · split at read
            · rename_i others last name later joined
              cases read
              exact Bool.and_eq_true_iff.2 ⟨own, less.fields _ _ _ _ later⟩
            · cases read
            · cases read
          · cases read
      · cases read
  · cases read

theorem readsFinite (fuel : Nat) : ReadsFinite fuel := by
  induction fuel with
  | zero =>
    constructor
    · intro _ _ _ _ read
      cases read
    · intro _ _ _ _ read
      cases read
    · intro _ _ _ _ read
      cases read
  | succ fuel less =>
    exact ⟨fun _ _ _ _ => isFinite_of_readValue less, fun _ _ _ _ => allFinite_of_readItems less,
      fun _ _ _ _ => allFieldsFinite_of_readFields less⟩

/-- A document that is read from a text holds finite numbers only. -/
theorem isFinite_of_read? {text : String} {document : Json} (read : read? text = some document) :
    document.isFinite = true := by
  unfold read? readWithin? at read
  dsimp only at read
  split at read
  · rename_i value rest found
    by_cases done : (skipSpace rest).isEmpty = true
    · rw [if_pos done] at read
      obtain rfl := Option.some.inj read
      exact (readsFinite _).value _ _ _ _ found
    · rw [if_neg done] at read
      cases read
  · cases read

end Json
end MetricQuery
