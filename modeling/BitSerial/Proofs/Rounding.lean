import Mathlib
import BitSerial.Report

/-! # Whole numbers in floating point

A floating point number keeps 53 binary places. A whole number that needs no more of them, zeros at its end apart, is
kept exactly, and a product of two such numbers is rounded once, like the number that it is. A power of two moves the
places of the other factor and rounds nothing. A number that was rounded is still itself, so it divides itself to one.

The numbers are positive and far from overflow. Subnormal numbers do not occur.
-/

namespace BitSerial

open Float.Model Float.Model.UnpackedFloat

namespace Binary64

theorem shiftRight_add (extended : ExtendedMantissa) (first second : Nat) :
    extended >>> (first + second) = (extended >>> first) >>> second := by
  induction second with
  | zero => rfl
  | succ second ih => exact congrArg ExtendedMantissa.shiftRightOne ih

/-- Zeros that are shifted out leave nothing behind. -/
theorem shiftRight_mul_two_pow (mantissa zeros : Nat) :
    ExtendedMantissa.ofMantissaAndAccuracy (mantissa * 2 ^ zeros) .exact >>> zeros =
      ExtendedMantissa.ofMantissaAndAccuracy mantissa .exact := by
  induction zeros with
  | zero =>
    rw [pow_zero, Nat.mul_one]
    rfl
  | succ zeros ih =>
    have heven : ExtendedMantissa.ofMantissaAndAccuracy (mantissa * 2 ^ (zeros + 1)) .exact >>> 1 =
        ExtendedMantissa.ofMantissaAndAccuracy (mantissa * 2 ^ zeros) .exact := by
      change ExtendedMantissa.mk (mantissa * 2 ^ (zeros + 1) / 2) (mantissa * 2 ^ (zeros + 1) % 2 != 0) false = _
      rw [pow_succ, ← Nat.mul_assoc, Nat.mul_div_cancel _ Nat.two_pos, Nat.mul_mod_left]
      rfl
    rw [Nat.add_comm zeros 1, shiftRight_add, Nat.add_comm 1 zeros, heven, ih]

theorem shiftRight_mantissa (extended : ExtendedMantissa) (places : Nat) :
    (extended >>> places).mantissa = extended.mantissa / 2 ^ places := by
  induction places with
  | zero => exact (Nat.div_one _).symm
  | succ places ih =>
    change (extended >>> places).mantissa / 2 = _
    rw [ih, Nat.div_div_eq_div_mul, pow_succ]

theorem roundedMantissa_bounds (extended : ExtendedMantissa) :
    extended.mantissa ≤ extended.roundedMantissa ∧ extended.roundedMantissa ≤ extended.mantissa + 1 := by
  obtain ⟨mantissa, _ | _, _ | _⟩ := extended <;>
    simp only [ExtendedMantissa.roundedMantissa, ExtendedMantissa.accuracy, Accuracy.roundToNearestEven] <;> omega

theorem targetExponent_eq (total : Int) : Format.binary64.targetExponent total = max (total - 53) (-1074) := rfl

theorem log2_mul_two_pow {number : Nat} (hpos : number ≠ 0) (zeros : Nat) :
    (number * 2 ^ zeros).log2 = number.log2 + zeros := by
  obtain ⟨hfrom, hto⟩ := (Nat.log2_eq_iff hpos).mp (Eq.refl number.log2)
  refine (Nat.log2_eq_iff (Nat.mul_ne_zero hpos (Nat.ne_of_gt (Nat.two_pow_pos zeros)))).mpr ⟨?_, ?_⟩
  · rw [pow_add]
    exact Nat.mul_le_mul_right _ hfrom
  · rw [Nat.add_right_comm, pow_add]
    exact Nat.mul_lt_mul_of_pos_right hto (Nat.two_pow_pos zeros)

section Mantissa

/-- A mantissa whose places beyond the 53 that are kept are shifted out. -/
def cut (mantissa : Nat) : ExtendedMantissa :=
  ExtendedMantissa.ofMantissaAndAccuracy mantissa .exact >>> (mantissa.log2 - 52)

/-- The 53 places that are kept of a mantissa. Rounding up can make a place more, so they are cut out again. -/
def significand (mantissa : Nat) : Nat := (cut (cut mantissa).roundedMantissa).mantissa

/-- The number of places of a mantissa that are not kept. -/
def dropped (mantissa : Nat) : Nat := mantissa.log2 - 52 + ((cut mantissa).roundedMantissa.log2 - 52)

variable {mantissa : Nat} {exponent : Int}

theorem ne_zero_of_long (hlong : 52 ≤ mantissa.log2) : mantissa ≠ 0 := by
  rintro rfl
  cases hlong

theorem cut_of_log2 (hlog : mantissa.log2 = 52) :
    cut mantissa = ExtendedMantissa.ofMantissaAndAccuracy mantissa .exact := by
  unfold cut
  rw [hlog]
  rfl

theorem shiftToTargetExponent_eq (hlong : 52 ≤ mantissa.log2) (hexponent : -1074 ≤ exponent) :
    shiftToTargetExponent .binary64 mantissa exponent .exact =
      (cut mantissa, exponent + (mantissa.log2 - 52 : Nat)) := by
  have hplaces : (Format.binary64.targetExponent (totalExponent mantissa exponent) - exponent).toNat =
      mantissa.log2 - 52 := by
    rw [targetExponent_eq, totalExponent]
    omega
  unfold shiftToTargetExponent shiftToExponent cut
  dsimp only
  rw [hplaces]

/-- A rounded mantissa has 53 places, or it is the least number of 54. -/
theorem roundedMantissa_cases (hlong : 52 ≤ mantissa.log2) :
    (cut mantissa).roundedMantissa.log2 = 52 ∨ (cut mantissa).roundedMantissa = 2 ^ 53 := by
  have hmantissa : (cut mantissa).mantissa = mantissa / 2 ^ (mantissa.log2 - 52) := shiftRight_mantissa _ _
  have hlow : 2 ^ 52 ≤ (cut mantissa).mantissa := by
    rw [hmantissa, Nat.le_div_iff_mul_le (Nat.two_pow_pos _), ← pow_add, Nat.add_sub_cancel' hlong]
    exact Nat.log2_self_le (ne_zero_of_long hlong)
  have hhigh : (cut mantissa).mantissa < 2 ^ 53 := by
    rw [hmantissa, Nat.div_lt_iff_lt_mul (Nat.two_pow_pos _), ← pow_add]
    refine Nat.lt_of_lt_of_le Nat.lt_log2_self (Nat.pow_le_pow_right Nat.two_pos ?_)
    omega
  obtain ⟨hrounded, hroundedUp⟩ := roundedMantissa_bounds (cut mantissa)
  rcases Nat.lt_or_ge (cut mantissa).roundedMantissa (2 ^ 53) with hfits | hcarry
  · refine .inl ((Nat.log2_eq_iff ?_).mpr ⟨Nat.le_trans hlow hrounded, hfits⟩)
    omega
  · exact .inr (Nat.le_antisymm (Nat.le_trans hroundedUp hhigh) hcarry)

theorem log2_roundedMantissa (hlong : 52 ≤ mantissa.log2) :
    52 ≤ (cut mantissa).roundedMantissa.log2 ∧ (cut mantissa).roundedMantissa.log2 ≤ 53 := by
  rcases roundedMantissa_cases hlong with hfits | hcarry
  · omega
  · rw [hcarry]
    decide

theorem significand_log2 (hlong : 52 ≤ mantissa.log2) : (significand mantissa).log2 = 52 := by
  unfold significand
  rcases roundedMantissa_cases hlong with hfits | hcarry
  · rw [cut_of_log2 hfits]
    exact hfits
  · rw [hcarry]
    rfl

theorem significand_pos (hlong : 52 ≤ mantissa.log2) : 0 < significand mantissa :=
  Nat.pos_of_ne_zero (ne_zero_of_long (Nat.le_of_eq (significand_log2 hlong).symm))

/-- What a long mantissa is rounded to. -/
theorem roundWithAccuracy_eq (sign : Sign) (hlong : 52 ≤ mantissa.log2) (hexponent : -1074 ≤ exponent) :
    roundWithAccuracy .binary64 sign mantissa exponent .exact =
      .finite sign (significand mantissa) (exponent + dropped mantissa) (significand_pos hlong) := by
  have hrounds : roundWithAccuracy .binary64 sign mantissa exponent .exact =
      if h : significand mantissa = 0 then .zero sign
      else .finite sign (significand mantissa) (exponent + (mantissa.log2 - 52 : Nat) +
        ((cut mantissa).roundedMantissa.log2 - 52 : Nat)) (Nat.pos_of_ne_zero h) := by
    unfold roundWithAccuracy
    rw [shiftToTargetExponent_eq hlong hexponent]
    dsimp only
    rw [shiftToTargetExponent_eq (log2_roundedMantissa hlong).1 (by omega)]
    rfl
  rw [hrounds, dif_neg (Nat.ne_of_gt (significand_pos hlong)), Int.add_assoc]
  rfl

/-- A mantissa of 53 places is kept as it is. -/
theorem significand_of_log2 (hlog : mantissa.log2 = 52) : significand mantissa = mantissa ∧ dropped mantissa = 0 := by
  have hrounded : (cut mantissa).roundedMantissa = mantissa := by
    rw [cut_of_log2 hlog]
    rfl
  unfold significand dropped
  rw [hrounded, cut_of_log2 hlog, hlog]
  exact ⟨rfl, rfl⟩

/-- Zeros at the end are among the places that are not kept. -/
theorem significand_mul_two_pow (hlong : 52 ≤ mantissa.log2) (zeros : Nat) :
    significand (mantissa * 2 ^ zeros) = significand mantissa ∧
      dropped (mantissa * 2 ^ zeros) = dropped mantissa + zeros := by
  have hlog := log2_mul_two_pow (ne_zero_of_long hlong) zeros
  have hcut : cut (mantissa * 2 ^ zeros) = cut mantissa := by
    unfold cut
    rw [hlog, Nat.add_comm, Nat.add_sub_assoc hlong, shiftRight_add, shiftRight_mul_two_pow]
  unfold significand dropped
  rw [hcut, hlog]
  exact ⟨rfl, by omega⟩

/-- A mantissa of 53 places makes a product long. -/
theorem long_mul (hlog : mantissa.log2 = 52) {factor : Nat} (hfactor : 0 < factor) :
    52 ≤ (mantissa * factor).log2 := by
  have hpos := ne_zero_of_long (Nat.le_of_eq hlog.symm)
  have hlow := ((Nat.log2_eq_iff hpos).mp hlog).1
  exact (Nat.le_log2 (Nat.mul_ne_zero hpos (Nat.ne_of_gt hfactor))).mpr
    (Nat.le_trans hlow (Nat.le_mul_of_pos_right _ hfactor))

/-- A number of 53 places survives packing. -/
theorem unpack_pack (sign : Sign) (hlog : mantissa.log2 = 52) (hlow : -1074 ≤ exponent) (hhigh : exponent ≤ 971)
    (hpos : 0 < mantissa) :
    (Float.Model.pack (.finite sign mantissa exponent hpos)).unpack = .finite sign mantissa exponent hpos := by
  obtain ⟨hfrom, hto⟩ := (Nat.log2_eq_iff (Nat.ne_of_gt hpos)).mp hlog
  let biased := (exponent + (1023 : Nat) + (52 : Nat)).toNat
  have hbiased : (biased : Int) = exponent + 1075 := by omega
  have hpack : UnpackedFloat.pack .binary64 (.finite sign mantissa exponent hpos) =
      packComponents .binary64 sign (BitVec.ofNat 11 biased) (BitVec.ofNat 52 mantissa) := by
    change (if 2 ^ 11 ≤ biased + 1 then _ else if mantissa.log2 + 1 = 53 then _ else _) = _
    rw [if_neg (by omega), if_pos (by omega)]
    rfl
  have hexponent : (BitVec.ofNat 11 biased).toNat = biased := Nat.mod_eq_of_lt (by omega)
  have hmantissa : (1#1 ++ BitVec.ofNat 52 mantissa).toNat = mantissa := by
    rw [BitVec.toNat_append, BitVec.toNat_ofNat, BitVec.toNat_ofNat,
      ← Nat.shiftLeft_add_eq_or_of_lt (Nat.mod_lt _ (Nat.two_pow_pos 52))]
    omega
  -- the exponent is neither the one of infinity nor the one of subnormal numbers
  have hfinite : BitVec.ofNat 11 biased ≠ -1#11 := by
    intro h
    have hall : biased = 2047 := hexponent.symm.trans (congrArg BitVec.toNat h)
    omega
  have hnormal : BitVec.ofNat 11 biased ≠ 0#11 := by
    intro h
    have hnone : biased = 0 := hexponent.symm.trans (congrArg BitVec.toNat h)
    omega
  change UnpackedFloat.unpack .binary64 (UnpackedFloat.pack .binary64 (.finite sign mantissa exponent hpos)) = _
  rw [hpack]
  unfold UnpackedFloat.unpack
  simp only [unpackMantissa_packComponents, unpackExponent_packComponents, unpackSign_packComponents,
    Sign.ofBitVec_toBitVec, hexponent, hmantissa]
  rw [if_neg hfinite, if_neg hnormal, UnpackedFloat.finite.injEq]
  refine ⟨rfl, rfl, ?_⟩
  change (biased : Int) - (1023 + 52) = exponent
  omega

end Mantissa

section Whole

variable {number other : Nat}

theorem le_log2_whole (hpos : 0 < number) : 52 ≤ (number * 2 ^ 52).log2 := by
  rw [log2_mul_two_pow (Nat.ne_of_gt hpos)]
  exact Nat.le_add_left _ _

/-- What a whole number is rounded to. -/
def whole (number : Nat) (hpos : 0 < number) : UnpackedFloat :=
  .finite .positive (significand (number * 2 ^ 52)) (dropped (number * 2 ^ 52) - 52)
    (significand_pos (le_log2_whole hpos))

/-- A mantissa and an exponent that stand for a whole number are rounded like the number. -/
theorem roundWithAccuracy_whole (hpos : 0 < number) {mantissa : Nat} {exponent : Int} (up down : Nat)
    (hvalue : mantissa * 2 ^ up = number * 2 ^ down) (hexponent : exponent = up - down)
    (hlong : 52 ≤ mantissa.log2) (hlow : -1074 ≤ exponent) :
    roundWithAccuracy .binary64 .positive mantissa exponent .exact = whole number hpos := by
  have hsame : mantissa * 2 ^ (up + 52) = number * 2 ^ 52 * 2 ^ down := by
    rw [pow_add, ← Nat.mul_assoc, hvalue, Nat.mul_right_comm]
  obtain ⟨hkept, hdropped⟩ := significand_mul_two_pow hlong (up + 52)
  obtain ⟨hwhole, hwholeDropped⟩ := significand_mul_two_pow (le_log2_whole hpos) down
  rw [hsame, hwhole] at hkept
  rw [hsame, hwholeDropped] at hdropped
  rw [roundWithAccuracy_eq _ hlong hlow, whole, UnpackedFloat.finite.injEq]
  exact ⟨rfl, hkept.symm, by omega⟩

theorem round_whole (hpos : 0 < number) : UnpackedFloat.round .binary64 .positive number 0 = whole number hpos := by
  have hzeros : (0 - Format.binary64.targetExponent (totalExponent number 0)).toNat = 52 - number.log2 := by
    rw [targetExponent_eq, totalExponent]
    omega
  have hrounds : UnpackedFloat.round .binary64 .positive number 0 =
      roundWithAccuracy .binary64 .positive (number <<< (52 - number.log2)) (0 - (52 - number.log2 : Nat)) .exact := by
    unfold UnpackedFloat.round decreaseExponent
    dsimp only
    rw [hzeros]
  rw [hrounds]
  refine roundWithAccuracy_whole hpos 0 (52 - number.log2) ?_ rfl ?_ (by omega)
  · rw [pow_zero, Nat.mul_one, Nat.shiftLeft_eq]
  · rw [Nat.shiftLeft_eq, log2_mul_two_pow (Nat.ne_of_gt hpos)]
    omega

theorem unpack_whole (hpos : 0 < number) (hsmall : number < 2 ^ 200) :
    (Float.Model.pack (whole number hpos)).unpack = whole number hpos := by
  have hlong := le_log2_whole hpos
  have hlog := log2_mul_two_pow (Nat.ne_of_gt hpos) 52
  have hbound := (Nat.log2_lt (Nat.ne_of_gt hpos)).mpr hsmall
  have hdropped : dropped (number * 2 ^ 52) ≤ number.log2 + 1 := by
    have hrounded := (log2_roundedMantissa hlong).2
    unfold dropped
    omega
  exact unpack_pack .positive (significand_log2 hlong) (by omega) (by omega) _

theorem mul_whole (hpos : 0 < number) (hother : 0 < other) :
    UnpackedFloat.mul .binary64 (whole number hpos) (whole other hother) =
      roundWithAccuracy .binary64 .positive (significand (number * 2 ^ 52) * significand (other * 2 ^ 52))
        (dropped (number * 2 ^ 52) - 52 + (dropped (other * 2 ^ 52) - 52)) .exact :=
  rfl

theorem significand_two_pow (places : Nat) :
    significand (2 ^ places * 2 ^ 52) = 2 ^ 52 ∧ dropped (2 ^ places * 2 ^ 52) = places := by
  have hlog : (2 ^ 52).log2 = 52 := by decide
  obtain ⟨hkept, hdropped⟩ := significand_mul_two_pow (Nat.le_of_eq hlog.symm) places
  obtain ⟨hsame, hnone⟩ := significand_of_log2 hlog
  rw [Nat.mul_comm, hkept, hdropped, hsame, hnone]
  exact ⟨rfl, Nat.zero_add places⟩

/-- Multiplication by a power of two moves the places of a number. -/
theorem mul_whole_two_pow (hpos : 0 < number) (places : Nat) :
    UnpackedFloat.mul .binary64 (whole number hpos) (whole (2 ^ places) (Nat.two_pow_pos places)) =
      whole (number * 2 ^ places) (Nat.mul_pos hpos (Nat.two_pow_pos places)) := by
  have hlong := le_log2_whole hpos
  have hlog := significand_log2 hlong
  obtain ⟨hone, hplaces⟩ := significand_two_pow places
  obtain ⟨hkept, hdropped⟩ := significand_mul_two_pow (Nat.le_of_eq hlog.symm) 52
  obtain ⟨hsame, hnone⟩ := significand_of_log2 hlog
  obtain ⟨hwhole, hwholeDropped⟩ := significand_mul_two_pow hlong places
  rw [mul_whole, hone, hplaces, roundWithAccuracy_eq _ (long_mul hlog (Nat.two_pow_pos 52)) (by omega), whole,
    UnpackedFloat.finite.injEq, Nat.mul_right_comm, hwhole, hwholeDropped, hkept, hdropped, hsame, hnone]
  exact ⟨rfl, rfl, by omega⟩

/-- A whole number all of whose places are kept. -/
def Exact (number : Nat) : Prop :=
  significand (number * 2 ^ 52) * 2 ^ dropped (number * 2 ^ 52) = number * 2 ^ 52

/-- A number of 53 places keeps all of them. -/
theorem Exact.of_lt (hpos : 0 < number) (hsmall : number < 2 ^ 53) : Exact number := by
  have hlog := (Nat.log2_lt (Nat.ne_of_gt hpos)).mpr hsmall
  have hfull : (number * 2 ^ (52 - number.log2)).log2 = 52 := by
    rw [log2_mul_two_pow (Nat.ne_of_gt hpos)]
    omega
  have hwhole : number * 2 ^ (52 - number.log2) * 2 ^ number.log2 = number * 2 ^ 52 := by
    rw [Nat.mul_assoc, ← pow_add, Nat.sub_add_cancel (by omega)]
  obtain ⟨hsame, hnone⟩ := significand_of_log2 hfull
  obtain ⟨hkept, hdropped⟩ := significand_mul_two_pow (Nat.le_of_eq hfull.symm) number.log2
  rw [hwhole] at hkept hdropped
  rw [Exact, hkept, hdropped, hsame, hnone, Nat.zero_add, hwhole]

/-- Zeros at the end of a number are not lost. -/
theorem Exact.mul_two_pow (hexact : Exact number) (hpos : 0 < number) (zeros : Nat) : Exact (number * 2 ^ zeros) := by
  obtain ⟨hkept, hdropped⟩ := significand_mul_two_pow (le_log2_whole hpos) zeros
  unfold Exact at hexact ⊢
  rw [Nat.mul_right_comm, hkept, hdropped, pow_add, ← Nat.mul_assoc, hexact]

/-- The product of two numbers that are kept is rounded like the number that it is. -/
theorem Exact.mul_whole (hexact : Exact number) (hother : Exact other) (hpos : 0 < number) (hotherPos : 0 < other) :
    UnpackedFloat.mul .binary64 (whole number hpos) (whole other hotherPos) =
      whole (number * other) (Nat.mul_pos hpos hotherPos) := by
  have hlog := significand_log2 (le_log2_whole hpos)
  have hfactor := significand_pos (le_log2_whole hotherPos)
  unfold Exact at hexact hother
  rw [Binary64.mul_whole]
  refine roundWithAccuracy_whole _ (dropped (number * 2 ^ 52) + dropped (other * 2 ^ 52)) (52 + 52) ?_ (by omega)
    (long_mul hlog hfactor) (by omega)
  calc significand (number * 2 ^ 52) * significand (other * 2 ^ 52) *
        2 ^ (dropped (number * 2 ^ 52) + dropped (other * 2 ^ 52))
    _ = significand (number * 2 ^ 52) * 2 ^ dropped (number * 2 ^ 52) *
        (significand (other * 2 ^ 52) * 2 ^ dropped (other * 2 ^ 52)) := by
      rw [pow_add, Nat.mul_mul_mul_comm]
    _ = number * other * 2 ^ (52 + 52) := by
      rw [hexact, hother, pow_add, Nat.mul_mul_mul_comm]

theorem divCore_self {mantissa : Nat} (hpos : 0 < mantissa) (exponent : Int) :
    divCore .binary64 mantissa exponent mantissa exponent = (2 ^ 53, -53, .exact) := by
  unfold divCore
  rw [Int.sub_self, Int.sub_self, targetExponent_eq]
  change ((mantissa <<< 53) / mantissa, (-53 : Int), accuracyOfFraction ((mantissa <<< 53) % mantissa) mantissa) = _
  rw [Nat.shiftLeft_eq, Nat.mul_div_cancel_left _ hpos, Nat.mul_mod_right]
  rfl

theorem div_whole_self (hpos : 0 < number) :
    UnpackedFloat.div .binary64 (whole number hpos) (whole number hpos) = whole 1 Nat.one_pos := by
  have hdivides : UnpackedFloat.div .binary64 (whole number hpos) (whole number hpos) =
      roundWithAccuracy .binary64 .positive (2 ^ 53) (-53) .exact := by
    unfold whole UnpackedFloat.div
    dsimp only
    rw [divCore_self (significand_pos (le_log2_whole hpos))]
    rfl
  rw [hdivides]
  exact roundWithAccuracy_whole Nat.one_pos 0 53 rfl rfl (by decide) (by decide)

end Whole

end Binary64

section Numbers

open Binary64

variable {number other : Nat}

theorem pack_mul_pack (hpos : 0 < number) (hother : 0 < other) (hsmall : number < 2 ^ 200)
    (hotherSmall : other < 2 ^ 200) :
    Float.ofModel (Float.Model.pack (whole number hpos)) * Float.ofModel (Float.Model.pack (whole other hother)) =
      Float.ofModel (Float.Model.pack (UnpackedFloat.mul .binary64 (whole number hpos) (whole other hother))) := by
  change Float.ofModel (Float.Model.pack (UnpackedFloat.mul .binary64 (Float.Model.pack (whole number hpos)).unpack
    (Float.Model.pack (whole other hother)).unpack)) = _
  rw [unpack_whole hpos hsmall, unpack_whole hother hotherSmall]

/-- A whole number in floating point. Below 2^53 it comes as a machine word times one, above as a decimal fraction. -/
theorem ofNat_eq_pack (hpos : 0 < number) :
    Float.ofNat number = Float.ofModel (Float.Model.pack (whole number hpos)) := by
  change Float.ofScientific number false 0 = _
  unfold Float.ofScientific
  by_cases hexact : number < 2 ^ 53
  · have hword : number.toUInt64.toNat = number := Nat.mod_eq_of_lt (by omega)
    have htoFloat : number.toUInt64.toFloat = Float.ofModel (Float.Model.pack (whole number hpos)) := by
      change Float.ofModel (Float.Model.pack
        (UnpackedFloat.normalize .binary64 (number.toUInt64.toNat : Int) 0 .positive)) = _
      rw [hword, UnpackedFloat.normalize, Int.compare_eq_gt.mpr (Int.natCast_pos.mpr hpos)]
      dsimp only
      rw [Int.toNat_natCast, round_whole hpos]
    have hone : (1.0 : Float) = Float.ofModel (Float.Model.pack (whole (2 ^ 0) (Nat.two_pow_pos 0))) := rfl
    rw [dif_pos ⟨hexact, Nat.zero_le _⟩]
    change number.toUInt64.toFloat * (1.0 : Float) = _
    rw [htoFloat, hone, pack_mul_pack _ _ (by omega) (by decide), mul_whole_two_pow hpos 0]
    simp only [pow_zero, Nat.mul_one]
  · have hlog : 53 ≤ number.log2 := (Nat.le_log2 (Nat.ne_of_gt hpos)).mpr (Nat.le_of_not_lt hexact)
    have hscientific : UnpackedFloat.ofScientific .binary64 number 0 =
        roundWithAccuracy .binary64 .positive (number <<< 53 * 1) (-53 + 0) .exact := by
      have hhigh : ¬ (0 : Int) < -(2 ^ 11 + number.log2) := by omega
      unfold UnpackedFloat.ofScientific
      rw [dif_neg (Nat.ne_of_gt hpos), if_neg (by decide), if_neg hhigh, if_pos (Int.le_refl 0)]
      rfl
    rw [dif_neg fun h => hexact h.1]
    refine congrArg (fun unpacked => Float.ofModel (Float.Model.pack unpacked)) (hscientific.trans ?_)
    refine roundWithAccuracy_whole hpos 0 53 ?_ rfl ?_ (by decide)
    · rw [pow_zero, Nat.mul_one, Nat.mul_one, Nat.shiftLeft_eq]
    · rw [Nat.mul_one, Nat.shiftLeft_eq, log2_mul_two_pow (Nat.ne_of_gt hpos)]
      omega

/-- The product of two whole numbers that are kept exactly. -/
theorem ofNat_mul (hpos : 0 < number) (hother : 0 < other) (hsmall : number * other < 2 ^ 200) (hexact : Exact number)
    (hotherExact : Exact other) : Float.ofNat number * Float.ofNat other = Float.ofNat (number * other) := by
  have hnumber := Nat.lt_of_le_of_lt (Nat.le_mul_of_pos_right number hother) hsmall
  have hfactor := Nat.lt_of_le_of_lt (Nat.le_mul_of_pos_left other hpos) hsmall
  rw [ofNat_eq_pack hpos, ofNat_eq_pack hother, ofNat_eq_pack (Nat.mul_pos hpos hother),
    pack_mul_pack hpos hother hnumber hfactor, hexact.mul_whole hotherExact]

/-- The product of two whole numbers that is below 2^53. -/
theorem ofNat_mul_of_lt (hpos : 0 < number) (hother : 0 < other) (hsmall : number * other < 2 ^ 53) :
    Float.ofNat number * Float.ofNat other = Float.ofNat (number * other) := by
  have hnumber := Nat.lt_of_le_of_lt (Nat.le_mul_of_pos_right number hother) hsmall
  have hfactor := Nat.lt_of_le_of_lt (Nat.le_mul_of_pos_left other hpos) hsmall
  exact ofNat_mul hpos hother (by omega) (.of_lt hpos hnumber) (.of_lt hother hfactor)

/-- Twice the product of three whole numbers. -/
theorem two_mul_ofNat {first second third : Nat} (hpos : 0 < 2 * first * second * third)
    (hsmall : 2 * first * second * third < 2 ^ 53) :
    2.0 * Float.ofNat first * Float.ofNat second * Float.ofNat third = Float.ofNat (2 * first * second * third) := by
  have hthird := Nat.pos_of_mul_pos_left hpos
  have hproduct := Nat.pos_of_mul_pos_right hpos
  have hsecond := Nat.pos_of_mul_pos_left hproduct
  have hdouble := Nat.pos_of_mul_pos_right hproduct
  have htwo : (2.0 : Float) = Float.ofNat 2 := rfl
  have hproductSmall := Nat.lt_of_le_of_lt (Nat.le_mul_of_pos_right _ hthird) hsmall
  have hdoubleSmall := Nat.lt_of_le_of_lt (Nat.le_mul_of_pos_right _ hsecond) hproductSmall
  rw [htwo, ofNat_mul_of_lt Nat.two_pos (Nat.pos_of_mul_pos_left hdouble) hdoubleSmall,
    ofNat_mul_of_lt hdouble hsecond hproductSmall, ofNat_mul_of_lt hproduct hthird hsmall]

/-- The product of a whole number and a power of two. -/
theorem ofNat_mul_two_pow (hpos : 0 < number) (places : Nat) (hsmall : number * 2 ^ places < 2 ^ 200) :
    Float.ofNat number * Float.ofNat (2 ^ places) = Float.ofNat (number * 2 ^ places) := by
  have hpower := Nat.two_pow_pos places
  have hnumber := Nat.lt_of_le_of_lt (Nat.le_mul_of_pos_right number hpower) hsmall
  have hfactor := Nat.lt_of_le_of_lt (Nat.le_mul_of_pos_left (2 ^ places) hpos) hsmall
  rw [ofNat_eq_pack hpos, ofNat_eq_pack hpower, ofNat_eq_pack (Nat.mul_pos hpos hpower),
    pack_mul_pack hpos hpower hnumber hfactor, mul_whole_two_pow]

/-- A positive number over itself is one, rounded or not. -/
theorem quotient_ofNat_self (hpos : 0 < number) (hsmall : number < 2 ^ 200) :
    quotient (Float.ofNat number) (Float.ofNat number) = 1.0 := by
  have hpack := ofNat_eq_pack hpos
  have hnonzero : (Float.ofNat number == 0.0) = false := by
    rw [hpack]
    change (Float.Model.pack (whole number hpos)).unpack.beq (.zero .positive) = false
    rw [unpack_whole hpos hsmall]
    rfl
  have hone : (1.0 : Float) = Float.ofModel (Float.Model.pack (whole 1 Nat.one_pos)) := ofNat_eq_pack Nat.one_pos
  rw [quotient, hnonzero, hpack, hone]
  change Float.ofModel (Float.Model.pack (UnpackedFloat.div .binary64 (Float.Model.pack (whole number hpos)).unpack
    (Float.Model.pack (whole number hpos)).unpack)) = _
  rw [unpack_whole hpos hsmall, div_whole_self hpos]

end Numbers

end BitSerial
