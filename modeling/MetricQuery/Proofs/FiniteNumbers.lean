import Mathlib.Algebra.Group.Nat.Defs
import MetricQuery.Proofs.Structures

/-!
# Finite numbers

A number of a document is a finite one: a 64-bit integer, which stays finite as
a floating-point number, or a floating-point number that is finite itself.
-/

set_option autoImplicit false

namespace MetricQuery

open Float.Model (Format UnpackedFloat totalExponent)
open Float.Model.UnpackedFloat

namespace JsonNumber

/-! ## Numbers of moderate size -/

/-- A number that is packed without an overflow. -/
def IsModerate : UnpackedFloat → Prop
  | .zero _ => True
  | .finite _ _ exponent _ => exponent ≤ 971
  | .infinity _ | .notANumber => False

theorem isFinite_of_isModerate {number : UnpackedFloat} (moderate : IsModerate number) :
    number.isFinite = true := by
  cases number with
  | zero sign => rfl
  | finite sign mantissa exponent positive => rfl
  | infinity sign => exact absurd moderate id
  | notANumber => exact absurd moderate id

theorem isModerate_unpack {bits : BitVec Format.binary64.numBits}
    (below : unpackExponent bits ≠ -1#_) : IsModerate (unpack Format.binary64 bits) := by
  have bound : (unpackExponent bits).toNat < 2048 := (unpackExponent bits).isLt
  have small : (unpackExponent bits).toNat ≠ 2047 := fun same => below (BitVec.toNat_inj.1 same)
  unfold unpack
  rw [if_neg below]
  by_cases bottom : unpackExponent bits = 0#_
  · rw [if_pos bottom]
    by_cases none : unpackMantissa bits = 0#_
    · rw [dif_pos none]
      trivial
    · rw [dif_neg none]
      show ((unpackExponent bits).toNat : Int) - ((1023 : Nat) + (52 : Nat)) + 1 ≤ 971
      rw [bottom]
      decide
  · rw [if_neg bottom]
    show ((unpackExponent bits).toNat : Int) - ((1023 : Nat) + (52 : Nat)) ≤ 971
    omega

theorem isModerate_of_isFinite {bits : BitVec Format.binary64.numBits}
    (finite : (unpack Format.binary64 bits).isFinite = true) :
    IsModerate (unpack Format.binary64 bits) := by
  refine isModerate_unpack fun top => ?_
  unfold unpack at finite
  rw [if_pos top] at finite
  split at finite <;> cases finite

theorem isFinite_pack {number : UnpackedFloat} (moderate : IsModerate number) :
    (Float.Model.pack number).isFinite = true := by
  refine isFinite_of_isModerate (isModerate_unpack ?_)
  show unpackExponent (pack Format.binary64 number) ≠ -1#_
  cases number with
  | zero sign =>
    show unpackExponent (packComponents Format.binary64 sign 0 0) ≠ -1#_
    rw [unpackExponent_packComponents]
    decide
  | finite sign mantissa exponent positive =>
    have small : exponent ≤ 971 := moderate
    have room : ¬ 2 ^ 11 ≤ (exponent + (1023 : Nat) + (52 : Nat)).toNat + 1 := by omega
    unfold pack
    dsimp only
    split
    · rename_i overflow
      exact absurd overflow room
    · split
      · rw [unpackExponent_packComponents, ne_eq, ← BitVec.toNat_inj, BitVec.toNat_ofNat]
        show ¬ (exponent + (1023 : Nat) + (52 : Nat)).toNat % 2 ^ 11 = 2047
        rw [Nat.mod_eq_of_lt (by omega)]
        omega
      · rw [unpackExponent_packComponents]
        decide
  | infinity sign => exact absurd moderate id
  | notANumber => exact absurd moderate id

/-- Only the sign of a number is changed. -/
theorem isFinite_neg {x : Float} (finite : x.isFinite = true) : (-x).isFinite = true := by
  have moderate : IsModerate x.toModel.unpack := isModerate_of_isFinite finite
  show (Float.Model.pack x.toModel.unpack.neg).isFinite = true
  refine isFinite_pack ?_
  cases unpacked : x.toModel.unpack <;> rw [unpacked] at moderate <;> exact moderate

/-! ## Rounded integers -/

theorem mantissa_shiftRight (extended : ExtendedMantissa) (places : Nat) :
    (extended >>> places).mantissa = extended.mantissa / 2 ^ places := by
  induction places with
  | zero => exact (Nat.div_one _).symm
  | succ places ih =>
    show (extended >>> places).mantissa / 2 = extended.mantissa / 2 ^ (places + 1)
    rw [ih, Nat.div_div_eq_div_mul, Nat.pow_succ]

theorem roundedMantissa_le (extended : ExtendedMantissa) :
    extended.roundedMantissa ≤ extended.mantissa + 1 := by
  obtain ⟨mantissa, roundBit, stickyBit⟩ := extended
  have parity : mantissa % 2 ≤ 1 := by omega
  cases roundBit <;> cases stickyBit <;>
    simp [ExtendedMantissa.roundedMantissa, ExtendedMantissa.accuracy,
      Accuracy.roundToNearestEven, parity]

/-- How far a shift may raise the exponent. -/
theorem exponent_shiftToTargetExponent_le {mantissa bits : Nat} {exponent limit : Int}
    (accuracy : Accuracy) (wide : mantissa.log2 ≤ bits) (below : exponent ≤ limit)
    (room : bits + exponent ≤ limit + 52) (normal : -1074 ≤ limit) :
    (shiftToTargetExponent Format.binary64 mantissa exponent accuracy).2 ≤ limit := by
  show exponent + ((max (mantissa.log2 + 1 + exponent - 53) (-1074) - exponent).toNat : Int) ≤ limit
  omega

theorem mantissa_shiftToTargetExponent (mantissa : Nat) (exponent : Int) (accuracy : Accuracy) :
    (shiftToTargetExponent Format.binary64 mantissa exponent accuracy).1.mantissa =
      mantissa / 2 ^ (max ((mantissa.log2 : Int) + 1 + exponent - 53) (-1074) - exponent).toNat := by
  have start : (ExtendedMantissa.ofMantissaAndAccuracy mantissa accuracy).mantissa = mantissa := by
    unfold ExtendedMantissa.ofMantissaAndAccuracy
    split <;> rfl
  show (ExtendedMantissa.ofMantissaAndAccuracy mantissa accuracy >>>
    (max ((mantissa.log2 : Int) + 1 + exponent - 53) (-1074) - exponent).toNat).mantissa = _
  rw [mantissa_shiftRight, start]

theorem log2_le {n bits : Nat} (below : n < 2 ^ (bits + 1)) : n.log2 ≤ bits := by
  by_cases zero : n = 0
  · subst zero
    exact Nat.zero_le _
  · exact Nat.le_of_lt_succ ((Nat.log2_lt zero).2 below)

/-- The mantissa and the exponent of a rounded number. Rounding may carry into one more
bit, for which there is a second shift. -/
def shiftedTwice (mantissa : Nat) (exponent : Int) (accuracy : Accuracy) :
    ExtendedMantissa × Int :=
  let shifted := shiftToTargetExponent Format.binary64 mantissa exponent accuracy
  shiftToTargetExponent Format.binary64 shifted.1.roundedMantissa shifted.2 .exact

theorem roundWithAccuracy_eq (sign : Sign) (mantissa : Nat) (exponent : Int)
    (accuracy : Accuracy) :
    roundWithAccuracy Format.binary64 sign mantissa exponent accuracy =
      if none : (shiftedTwice mantissa exponent accuracy).1.mantissa = 0 then .zero sign
      else .finite sign (shiftedTwice mantissa exponent accuracy).1.mantissa
        (shiftedTwice mantissa exponent accuracy).2 (Nat.pos_of_ne_zero none) :=
  rfl

/-- Rounding does not overflow while there is room for the bits above the greatest
exponent. -/
theorem isModerate_roundWithAccuracy {mantissa bits : Nat} {exponent : Int} (limit : Int)
    (sign : Sign) (accuracy : Accuracy) (below : mantissa < 2 ^ (bits + 1))
    (low : exponent ≤ limit) (room : bits + exponent ≤ limit + 52) (normal : -1074 ≤ limit)
    (top : limit ≤ 971) (carry : bits + 1 + limit ≤ 971 + 52) :
    IsModerate (roundWithAccuracy Format.binary64 sign mantissa exponent accuracy) := by
  let shifted := shiftToTargetExponent Format.binary64 mantissa exponent accuracy
  have raised : shifted.2 ≤ limit :=
    exponent_shiftToTargetExponent_le accuracy (log2_le below) low room normal
  have kept : shifted.1.mantissa ≤ mantissa :=
    (mantissa_shiftToTargetExponent _ _ _).trans_le (Nat.div_le_self _ _)
  have rounded := roundedMantissa_le shifted.1
  have doubled : 2 ^ (bits + 1 + 1) = 2 * 2 ^ (bits + 1) := by rw [Nat.pow_succ, Nat.mul_comm]
  have carried : shifted.1.roundedMantissa.log2 ≤ bits + 1 := log2_le (by omega)
  have small : (shiftedTwice mantissa exponent accuracy).2 ≤ 971 := by
    show (shiftToTargetExponent Format.binary64 shifted.1.roundedMantissa shifted.2 .exact).2 ≤ 971
    exact exponent_shiftToTargetExponent_le .exact carried (by omega) (by omega) (by omega)
  rw [roundWithAccuracy_eq]
  by_cases none : (shiftedTwice mantissa exponent accuracy).1.mantissa = 0
  · rw [dif_pos none]
    trivial
  · rw [dif_neg none]
    exact small

theorem isModerate_round {n : Nat} (sign : Sign) (below : n < 2 ^ 64) :
    IsModerate (round Format.binary64 sign n 0) := by
  have places : (0 - Format.binary64.targetExponent (totalExponent n 0)).toNat ≤ 52 := by
    show (0 - max ((n.log2 : Int) + 1 + 0 - 53) (-1074)).toNat ≤ 52
    omega
  have below : n <<< (0 - Format.binary64.targetExponent (totalExponent n 0)).toNat < 2 ^ 116 := by
    rw [Nat.shiftLeft_eq]
    calc n * 2 ^ (0 - Format.binary64.targetExponent (totalExponent n 0)).toNat
        ≤ n * 2 ^ 52 := Nat.mul_le_mul_left n (Nat.pow_le_pow_right (by decide) places)
      _ < 2 ^ 64 * 2 ^ 52 := Nat.mul_lt_mul_of_pos_right below (by decide)
      _ = 2 ^ 116 := by decide
  have low : 0 - ((0 - Format.binary64.targetExponent (totalExponent n 0)).toNat : Int) ≤ 0 := by
    omega
  exact isModerate_roundWithAccuracy 64 sign .exact below (by omega) (by omega) (by decide)
    (by decide) (by decide)

/-- Integers of 64 bits are far below the largest floating-point number. -/
theorem isFinite_nearest (n : Nat) : (nearest n).isFinite = true := by
  show (Float.Model.pack (ofInt Format.binary64 ((UInt64.ofNat n).toNat : Int))).isFinite = true
  refine isFinite_pack ?_
  unfold ofInt UnpackedFloat.normalize
  split
  · exact isModerate_round _ (by omega)
  · trivial
  · exact isModerate_round _ (UInt64.ofNat n).toNat_lt

def isFinite : JsonNumber → Bool
  | .integer _ => true
  | .real x => x.isFinite

theorem isFinite_toFloat {number : JsonNumber} (finite : number.isFinite = true) :
    number.toFloat.isFinite = true := by
  cases number with
  | integer n =>
    cases n with
    | ofNat n => exact isFinite_nearest n
    | negSucc n => exact isFinite_neg (isFinite_nearest (n + 1))
  | real x => exact finite

end JsonNumber

/-! ## Documents of finite numbers -/

namespace Json

mutual

def isFinite : Json → Bool
  | .null | .bool _ | .string _ | .unreadable => true
  | .number value => value.isFinite
  | .array items => allFinite items
  | .object fields => allFieldsFinite fields

def allFinite : List Json → Bool
  | [] => true
  | item :: rest => item.isFinite && allFinite rest

def allFieldsFinite : List (String × Json) → Bool
  | [] => true
  | (_, value) :: rest => value.isFinite && allFieldsFinite rest

end

theorem allFinite_iff {items : List Json} :
    allFinite items = true ↔ ∀ item ∈ items, item.isFinite = true := by
  induction items with
  | nil => simp [allFinite]
  | cons item rest ih => simp [allFinite, ih]

theorem allFieldsFinite_iff {fields : List (String × Json)} :
    allFieldsFinite fields = true ↔ ∀ field ∈ fields, field.2.isFinite = true := by
  induction fields with
  | nil => simp [allFieldsFinite]
  | cons field rest ih => simp [allFieldsFinite, ih]

theorem isFinite_of_mem_children {document child : Json} (finite : document.isFinite = true)
    (inside : child ∈ document.children) : child.isFinite = true := by
  unfold children at inside
  split at inside
  · rw [isFinite] at finite
    exact allFinite_iff.1 finite child inside
  · rw [isFinite] at finite
    obtain ⟨field, member, rfl⟩ := List.mem_map.1 inside
    exact allFieldsFinite_iff.1 finite field member
  · cases inside

theorem isFinite_of_asFloat {document : Json} {x : Float} (finite : document.isFinite = true)
    (success : document.asFloat = .ok x) : x.isFinite = true := by
  unfold asFloat at success
  split at success
  · rw [isFinite] at finite
    obtain rfl := Except.ok.inj success
    exact JsonNumber.isFinite_toFloat finite
  · cases success

end Json

end MetricQuery
