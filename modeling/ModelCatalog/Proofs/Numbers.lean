import Mathlib.Algebra.Group.Int.Defs
import Mathlib.Algebra.Group.Nat.Defs
import Mathlib.Order.Nat
import ModelCatalog.Json.Numeral

/-! Numbers of JSON texts: rounding keeps to the power of two that bounds a ratio, so that what is
read is finite, and whole numbers have at most 64 bits. -/

namespace ModelCatalog

namespace Binary64

/-! ## Rounding -/

/-- Rounding goes up by one at most. -/
theorem roundHalfEven_le {numerator denominator bound : Nat}
    (below : numerator < bound * denominator) : roundHalfEven numerator denominator ≤ bound := by
  -- The quotient is below the bound, and only the remainder can add one to it.
  have quotient : numerator / denominator < bound := Nat.div_lt_of_lt_mul (by rwa [Nat.mul_comm])
  unfold roundHalfEven
  dsimp only
  split
  · exact quotient.le
  · split
    · exact quotient
    · omega

/-- The scale of a ratio, by one comparison for both orders of the logarithms. -/
theorem scaleOf_eq (numerator denominator : Nat) :
    scaleOf numerator denominator =
      if numerator * 2 ^ denominator.log2 < denominator * 2 ^ numerator.log2 then
        1074 + numerator.log2 - (52 + denominator.log2) - 1
      else 1074 + numerator.log2 - (52 + denominator.log2) := by
  -- Either comparison becomes the same one when both sides are multiplied by the smaller power.
  have short : (if denominator.log2 ≤ numerator.log2 then
      numerator < denominator * Nat.pow 2 (numerator.log2 - denominator.log2)
      else numerator * Nat.pow 2 (denominator.log2 - numerator.log2) < denominator) ↔
      numerator * 2 ^ denominator.log2 < denominator * 2 ^ numerator.log2 := by
    -- The power on the right is the greater one.
    split
    · rename_i up
      have whole : denominator * 2 ^ numerator.log2 =
          denominator * 2 ^ (numerator.log2 - denominator.log2) * 2 ^ denominator.log2 := by
        rw [Nat.mul_assoc, ← Nat.pow_add, Nat.sub_add_cancel up]
      rw [whole]
      exact (Nat.mul_lt_mul_right (Nat.two_pow_pos _)).symm
    · -- The power on the left is the greater one.
      rename_i down
      have whole : numerator * 2 ^ denominator.log2 =
          numerator * 2 ^ (denominator.log2 - numerator.log2) * 2 ^ numerator.log2 := by
        rw [Nat.mul_assoc, ← Nat.pow_add, Nat.sub_add_cancel (by omega)]
      rw [whole]
      exact (Nat.mul_lt_mul_right (Nat.two_pow_pos _)).symm
  unfold scaleOf
  simp only [short]

/-- The scale of a ratio is the least at which its significand has 53 bits at most. -/
theorem scaleOf_spec {numerator denominator : Nat} (nonzero : 0 < numerator)
    (positive : 0 < denominator) :
    numerator * 2 ^ 1074 < denominator * 2 ^ (scaleOf numerator denominator + 53) ∧
      (scaleOf numerator denominator = 0 ∨
        denominator * 2 ^ (scaleOf numerator denominator + 52) ≤ numerator * 2 ^ 1074) := by
  -- The logarithms enclose numerator and denominator between powers of two, and the comparison of
  -- `scaleOf` says on which side of the power between them the ratio lies.
  have above : numerator < 2 ^ (numerator.log2 + 1) := Nat.lt_log2_self
  have below : 2 ^ numerator.log2 ≤ numerator := Nat.log2_self_le nonzero.ne'
  have denominatorAbove : denominator < 2 ^ (denominator.log2 + 1) := Nat.lt_log2_self
  have denominatorBelow : 2 ^ denominator.log2 ≤ denominator := Nat.log2_self_le positive.ne'
  -- Powers of two are in the order of their exponents.
  have power : ∀ {least greatest : Nat}, least ≤ greatest → 2 ^ least ≤ 2 ^ greatest :=
    Nat.pow_le_pow_right (by decide)
  rw [scaleOf_eq]
  generalize numerator.log2 = upper at *
  generalize denominator.log2 = lower at *
  generalize least : 1074 = shift
  split
  · -- The ratio is below the power, so the scale is one less than the logarithms say.
    rename_i short
    refine ⟨Nat.lt_of_mul_lt_mul_right (a := 2 ^ lower) ?_,
      or_iff_not_imp_left.mpr fun scaled => ?_⟩
    · calc numerator * 2 ^ shift * 2 ^ lower
          = numerator * 2 ^ lower * 2 ^ shift := Nat.mul_right_comm _ _ _
        _ < denominator * 2 ^ upper * 2 ^ shift :=
            Nat.mul_lt_mul_of_pos_right short (Nat.two_pow_pos _)
        _ = denominator * 2 ^ (upper + shift) := by rw [Nat.mul_assoc, Nat.pow_add]
        _ ≤ denominator * 2 ^ (shift + upper - (52 + lower) - 1 + 53 + lower) :=
            Nat.mul_le_mul_left _ (power (by omega))
        _ = denominator * 2 ^ (shift + upper - (52 + lower) - 1 + 53) * 2 ^ lower := by
            rw [Nat.mul_assoc, ← Nat.pow_add]
    · calc denominator * 2 ^ (shift + upper - (52 + lower) - 1 + 52)
          ≤ 2 ^ (lower + 1) * 2 ^ (shift + upper - (52 + lower) - 1 + 52) :=
            Nat.mul_le_mul_right _ denominatorAbove.le
        _ = 2 ^ (upper + shift) := by rw [← Nat.pow_add]; congr 1; omega
        _ ≤ numerator * 2 ^ shift := by
            rw [Nat.pow_add]
            exact Nat.mul_le_mul_right _ below
  · -- The ratio has reached the power, and the scale is the difference of the logarithms.
    rename_i long
    refine ⟨?_, or_iff_not_imp_left.mpr fun scaled =>
      Nat.le_of_mul_le_mul_right (c := 2 ^ lower) ?_ (Nat.two_pow_pos _)⟩
    · calc numerator * 2 ^ shift
          < 2 ^ (upper + 1) * 2 ^ shift := Nat.mul_lt_mul_of_pos_right above (Nat.two_pow_pos _)
        _ = 2 ^ (upper + 1 + shift) := (Nat.pow_add _ _ _).symm
        _ ≤ 2 ^ (lower + (shift + upper - (52 + lower) + 53)) := power (by omega)
        _ = 2 ^ lower * 2 ^ (shift + upper - (52 + lower) + 53) := Nat.pow_add _ _ _
        _ ≤ denominator * 2 ^ (shift + upper - (52 + lower) + 53) :=
            Nat.mul_le_mul_right _ denominatorBelow
    · calc denominator * 2 ^ (shift + upper - (52 + lower) + 52) * 2 ^ lower
          = denominator * 2 ^ (upper + shift) := by
            rw [Nat.mul_assoc, ← Nat.pow_add]
            congr 2
            omega
        _ = denominator * 2 ^ upper * 2 ^ shift := by rw [Nat.pow_add, Nat.mul_assoc]
        _ ≤ numerator * 2 ^ lower * 2 ^ shift := Nat.mul_le_mul_right _ (Nat.le_of_not_lt long)
        _ = numerator * 2 ^ shift * 2 ^ lower := Nat.mul_right_comm _ _ _

/-- Rounding keeps a ratio to a power of two that is above it. -/
theorem nearestMagnitude_le {numerator denominator power : Nat} (positive : 0 < denominator)
    (below : numerator < denominator * 2 ^ power) :
    nearestMagnitude numerator denominator ≤ (1023 + power) * 2 ^ 52 := by
  unfold nearestMagnitude
  split
  · exact Nat.zero_le _
  rename_i nonzero
  -- The scale is the least that leaves 53 bits, so it cannot exceed what the power asks for.
  obtain ⟨bits, least⟩ := scaleOf_spec (Nat.pos_of_ne_zero nonzero) positive
  dsimp only
  generalize scaleOf numerator denominator = scale at bits least ⊢
  generalize isShift : 1074 = shift at bits least ⊢
  have scaleBelow : scale ≤ 1021 + power := by
    -- A scale of nothing is small enough.
    rcases least with none | least
    · omega
    · have powers : denominator * 2 ^ (scale + 52) < denominator * 2 ^ (power + shift) :=
        calc denominator * 2 ^ (scale + 52)
            ≤ numerator * 2 ^ shift := least
          _ < denominator * 2 ^ power * 2 ^ shift :=
              Nat.mul_lt_mul_of_pos_right below (Nat.two_pow_pos _)
          _ = denominator * 2 ^ (power + shift) := by rw [Nat.mul_assoc, Nat.pow_add]
      have := (Nat.pow_lt_pow_iff_right (by decide)).mp (Nat.lt_of_mul_lt_mul_left powers)
      omega
  -- The significand may reach the next power of two when it is rounded up.
  have significand : (if shift ≤ scale then
      roundHalfEven numerator (denominator * Nat.pow 2 (scale - shift))
      else roundHalfEven (numerator * Nat.pow 2 (shift - scale)) denominator) ≤ 2 ^ 53 := by
    split
    · -- A small shift is made up by the denominator.
      refine roundHalfEven_le (Nat.lt_of_mul_lt_mul_right (a := 2 ^ shift) (bits.trans_eq ?_))
      calc denominator * 2 ^ (scale + 53)
          = denominator * 2 ^ (53 + (scale - shift) + shift) := by congr 2; omega
        _ = 2 ^ 53 * (denominator * 2 ^ (scale - shift)) * 2 ^ shift := by
            rw [Nat.pow_add, Nat.pow_add, ← Nat.mul_assoc, Nat.mul_left_comm]
    · -- A larger one is made up by the numerator.
      refine roundHalfEven_le (Nat.lt_of_mul_lt_mul_right (a := 2 ^ scale) ?_)
      calc numerator * 2 ^ (shift - scale) * 2 ^ scale
          = numerator * 2 ^ shift := by
            rw [Nat.mul_assoc, ← Nat.pow_add, Nat.sub_add_cancel (by omega)]
        _ < denominator * 2 ^ (scale + 53) := bits
        _ = 2 ^ 53 * denominator * 2 ^ scale := by
            rw [Nat.pow_add, Nat.mul_comm (2 ^ 53), Nat.mul_assoc, Nat.mul_comm (2 ^ scale)]
  refine (Nat.min_le_right _ _).trans ?_
  have two : Nat.pow 2 52 = 2 ^ 52 := rfl
  rw [two]
  omega

/-! ## Bounds -/

/-- The magnitude of a pattern that is put together from one. -/
theorem magnitude_ofMagnitude {negative : Bool} {magnitude : Nat} (small : magnitude < 2 ^ 63) :
    (ofMagnitude negative magnitude).magnitude = magnitude := by
  -- The sign adds a bit above the magnitude, which is taken off again.
  have power : Nat.pow 2 63 = 2 ^ 63 := rfl
  cases negative <;> simp only [ofMagnitude, Binary64.magnitude, UInt64.toNat_ofNat', power,
    Bool.false_eq_true, reduceIte] <;> omega

/-- The number is at most a power of two: its magnitude is at most that of the power. -/
def Within (power : Nat) (number : Binary64) : Prop := number.magnitude ≤ (1023 + power) * 2 ^ 52

namespace Within

variable {power : Nat} {number left right : Binary64}

/-- What is within a power of two is within the greater ones. -/
theorem mono {more : Nat} (within : number.Within power) (order : power ≤ more) :
    number.Within more :=
  -- The bound grows with the power.
  within.trans (Nat.mul_le_mul_right _ (Nat.add_le_add_left order _))

/-- What is within a power of two that is a number is finite. -/
theorem isFinite (within : number.Within power) (small : power ≤ 1023) :
    number.isFinite = true := by
  -- The bound stays below the layout of infinity, so the comparison is one of numbers.
  unfold Within at within
  have two : Nat.pow 2 52 = 2 ^ 52 := rfl
  rw [Binary64.isFinite, decide_eq_true_eq, infinite, two]
  omega

/-- A ratio below a power of two becomes a number within it. -/
theorem ofRatio {negative : Bool} {numerator denominator : Nat} (positive : 0 < denominator)
    (below : numerator < denominator * 2 ^ power) (small : power ≤ 1023) :
    (Binary64.ofRatio negative numerator denominator).Within power := by
  -- The magnitude has room below the sign, since the power is small.
  have nearest := nearestMagnitude_le positive below
  unfold Within Binary64.ofRatio
  rwa [magnitude_ofMagnitude (by omega)]

/-- A number within a power of two has a ratio below the next one. -/
theorem ratio_lt (within : number.Within power) :
    0 < number.ratio.2 ∧ number.ratio.1 < number.ratio.2 * 2 ^ (power + 1) := by
  have two : Nat.pow 2 52 = 2 ^ 52 := rfl
  -- A significand has 53 bits with the hidden one, and the scale is as the magnitude says.
  have significand : number.significand < 2 ^ 53 := by
    unfold Binary64.significand
    dsimp only
    rw [two]
    split <;> omega
  have scale : number.scale ≤ 1022 + power := by
    unfold Within at within
    unfold Binary64.scale
    rw [two]
    omega
  unfold ratio
  -- A scale above the point multiplies the significand, and one below it divides.
  split
  · refine ⟨Nat.one_pos, ?_⟩
    calc number.significand * 2 ^ (number.scale - 1074)
        < 2 ^ 53 * 2 ^ (number.scale - 1074) :=
          Nat.mul_lt_mul_of_pos_right significand (Nat.two_pow_pos _)
      _ = 2 ^ (53 + (number.scale - 1074)) := (Nat.pow_add _ _ _).symm
      _ ≤ 2 ^ (power + 1) := Nat.pow_le_pow_right (by decide) (by omega)
      _ = 1 * 2 ^ (power + 1) := (Nat.one_mul _).symm
  · refine ⟨Nat.two_pow_pos _, significand.trans_le ?_⟩
    calc 2 ^ 53
        ≤ 2 ^ (1074 - number.scale + (power + 1)) := Nat.pow_le_pow_right (by decide) (by omega)
      _ = 2 ^ (1074 - number.scale) * 2 ^ (power + 1) := Nat.pow_add _ _ _

/-- Dividing by one or more needs one more place for rounding at most. -/
theorem quotient (within : left.Within power) (small : power ≤ 1022)
    (nonzero : 0 < right.ratio.2)
    (atLeastOne : right.ratio.2 ≤ right.ratio.1) :
    (Numeral.quotient left right).Within (power + 1) := by
  obtain ⟨positive, below⟩ := within.ratio_lt
  refine ofRatio (Nat.mul_pos positive (nonzero.trans_le atLeastOne)) ?_ (by omega)
  -- Dividing by one or more makes the ratio no greater.
  calc left.ratio.1 * right.ratio.2
      < left.ratio.2 * 2 ^ (power + 1) * right.ratio.2 := Nat.mul_lt_mul_of_pos_right below nonzero
    _ = left.ratio.2 * right.ratio.2 * 2 ^ (power + 1) := Nat.mul_right_comm _ _ _
    _ ≤ left.ratio.2 * right.ratio.1 * 2 ^ (power + 1) :=
        Nat.mul_le_mul_right _ (Nat.mul_le_mul_left _ atLeastOne)

end Within

/-- A natural number below a power of two is within it. -/
theorem within_ofNat {value power : Nat} (below : value < 2 ^ power) (small : power ≤ 1023) :
    (ofNat value).Within power :=
  -- A natural number is a ratio over one.
  .ofRatio Nat.one_pos (by simpa using below) small

/-- A number is as finite as its negative. -/
theorem isFinite_negate {number : Binary64} (finite : number.isFinite = true) :
    number.negate.isFinite = true := by
  -- The sign sits above the magnitude and does not touch it.
  have small : number.magnitude < 2 ^ 63 :=
    (of_decide_eq_true finite).trans (by decide : infinite < 2 ^ 63)
  unfold isFinite negate
  rwa [magnitude_ofMagnitude small]

end Binary64

/-! ## Numerals -/

/-- The number is one that JSON has: a whole number of at most 64 bits, or a finite one. -/
def JsonNumber.Proper : JsonNumber → Prop
  | integer value => -2 ^ 63 ≤ value ∧ value < 2 ^ 64
  | float value => value.isFinite = true

instance : DecidablePred JsonNumber.Proper := fun number =>
  match number with
  | .integer value => inferInstanceAs (Decidable (-2 ^ 63 ≤ value ∧ value < 2 ^ 64))
  | .float value => inferInstanceAs (Decidable (value.isFinite = true))

namespace Numeral

open Binary64

/-- A significand stays within 64 bits. -/
theorem gather_le {significand : Nat} (digits : List Nat) (room : significand ≤ fullSignificand) :
    (gather significand digits).1 ≤ fullSignificand := by
  -- A digit is taken only while there is room for it.
  induction digits generalizing significand with
  | nil => exact room
  | cons digit rest ih =>
    unfold gather
    split
    · exact room
    · exact ih (by omega)

/-- A significand is below the power of two of which it has the bits. -/
theorem gather_lt {significand : Nat} (digits : List Nat) (room : significand ≤ fullSignificand) :
    (gather significand digits).1 < 2 ^ 64 :=
  -- The full significand fits into the bits of a word.
  Nat.lt_of_le_of_lt (gather_le digits room) (by decide)

/-- The powers of ten are one or more. -/
theorem powerOfTen_ratio : ∀ exponent ≤ greatestPower,
    0 < (powerOfTen exponent).ratio.2 ∧
      (powerOfTen exponent).ratio.2 ≤ (powerOfTen exponent).ratio.1 := by
  -- There are finitely many of them, and each is evaluated.
  decide +kernel

/-- Division by a power of ten, however many rounds it takes, needs a place for each of them. -/
theorem within_divide {value : Binary64} {power fuel : Nat} (within : value.Within power)
    (small : power + fuel ≤ 1023) (exponent : Nat) :
    (divide value fuel exponent).Within (power + fuel) := by
  -- Each round divides by a power of ten, which is one or more, and costs one place.
  induction fuel generalizing value power exponent with
  | zero => exact within
  | succ fuel ih =>
    unfold divide
    split
    · rename_i one
      obtain ⟨nonzero, atLeastOne⟩ := powerOfTen_ratio exponent one
      exact (within.quotient (by omega) nonzero atLeastOne).mono (by omega)
    · split
      · exact within.mono (by omega)
      · obtain ⟨nonzero, atLeastOne⟩ := powerOfTen_ratio greatestPower (Nat.le_refl _)
        exact (ih (within.quotient (by omega) nonzero atLeastOne) (by omega) _).mono (by omega)

/-- A significand that is moved by a power of ten is finite, or refused. -/
theorem isFinite_scaled {significand : Nat} {exponent : Int} {value : Binary64}
    (small : significand < 2 ^ 64) (done : scaled significand exponent = some value) :
    value.isFinite = true := by
  -- It begins below `2 ^ 64`, and the rounds of division leave it far below the greatest number.
  have within := within_ofNat small (by decide)
  unfold scaled at done
  cases exponent with
  | negSucc down =>
    obtain rfl := Option.some.inj done
    exact (within_divide within (by decide) _).isFinite (by decide)
  | ofNat up =>
    dsimp only at done
    -- A product is checked before it is given, so it is finite where there is one.
    split at done
    · split at done
      · rename_i finite
        exact Option.some.inj done ▸ finite
      · cases done
    · split at done
      · obtain rfl := Option.some.inj done
        exact within.isFinite (by decide)
      · cases done

/-- A numeral with a point or an exponent is read as a finite number, or refused. -/
theorem isFinite_float {parts : Parts} {value : Binary64} (done : float parts = some value) :
    value.isFinite = true := by
  obtain ⟨unsigned, isValue, rfl⟩ := Option.map_eq_some_iff.mp done
  have finite : unsigned.isFinite = true := by
    -- The digits before and behind the point gather in one significand of 64 bits.
    have small := gather_lt (parts.fraction.getD []) (gather_le parts.whole (Nat.zero_le _))
    dsimp only at isValue
    split at isValue
    · exact isFinite_scaled small isValue
    · split at isValue
      · -- An exponent that is too great leaves nothing, or zero.
        split at isValue
        · cases isValue
        · obtain rfl := Option.some.inj isValue
          decide
      · exact isFinite_scaled small isValue
  split
  · exact isFinite_negate finite
  · exact finite

/-- A numeral is read as a number that JSON has, or refused. -/
theorem proper_value {parts : Parts} {number : JsonNumber} (done : value parts = some number) :
    number.Proper := by
  -- The digits are gathered in 64 bits, and the sign decides which numbers these are.
  have small := gather_lt parts.whole (Nat.zero_le _)
  unfold value at done
  dsimp only at done
  split at done
  · obtain ⟨float, isFloat, rfl⟩ := Option.map_eq_some_iff.mp done
    exact isFinite_float isFloat
  · split at done
    · -- Without a sign the number is whole as it stands.
      obtain rfl := Option.some.inj done
      exact ⟨by omega, by exact_mod_cast small⟩
    · -- With one it is whole while 63 bits are enough, and otherwise read as a float.
      split at done
      · obtain rfl := Option.some.inj done
        exact isFinite_negate ((within_ofNat small (by decide)).isFinite (by decide))
      · rename_i within
        obtain rfl := Option.some.inj done
        have bound : (gather 0 parts.whole).1 ≤ 2 ^ 63 := by
          have two : Nat.pow 2 63 = 2 ^ 63 := rfl
          simp only [Bool.or_eq_true, decide_eq_true_eq, not_or, two] at within
          omega
        exact ⟨by omega, by omega⟩

end Numeral

end ModelCatalog
