import Formulary.Proofs.Binary64.Extremes
import Mathlib

/-!
# Packed doubles

Arithmetic on doubles goes through an unpacked form, with a significand and an exponent.
This module ties that form to the datum of a double: a double that is taken apart has the
datum of its unpacked form, and what is packed has the datum of what was to be packed, or is
an infinity.

Main results:

- Definition `Datum.ofUnpacked`: the datum of an unpacked double.
- Theorem `decode_eq_ofUnpacked`: the datum of a double is that of its unpacked form.
- Theorem `decode_pack`: the datum of what is packed.
- Theorem `decode_encode`: a magnitude of at most 53 binary digits is decoded as encoded.
-/

open Float.Model Float.Model.UnpackedFloat

namespace Formulary.Binary64

/-! ## Unpacked doubles -/

/-- The format of doubles. -/
abbrev format : Format := Format.binary64

/-- A sign as it is stored. -/
def isMinus : Sign → Bool
  | .negative => true
  | .positive => false

/-- The datum of an unpacked double. -/
def Datum.ofUnpacked : UnpackedFloat → Datum
  | .notANumber => .notANumber
  | .infinity sign => .infinite (isMinus sign)
  | .zero sign => .finite (isMinus sign) 0
  | .finite sign significand exponent _ =>
    .finite (isMinus sign) (significand * Nat.pow 2 (exponent + 1074).toNat)

/-- A significand has 53 binary digits unless the exponent is the least one. -/
def IsCanonical : UnpackedFloat → Prop
  | .finite _ significand exponent _ =>
    -1074 ≤ exponent ∧ significand < 2 * fractionEnd ∧
      (fractionEnd ≤ significand ∨ exponent = -1074)
  | _ => True

/-- What a sign, an exponent and a fraction stand for when they are stored. -/
def Datum.ofFields (negative : Bool) (exponent fraction : Nat) : Datum :=
  if exponent = 2047 then if fraction = 0 then .infinite negative else .notANumber
  else .finite negative (magnitude exponent fraction)

/-! ## Magnitudes of doubles -/

/-- A magnitude that a double can have, if it is not too large. -/
def IsMagnitude (units : Nat) : Prop :=
  ∃ exponent fraction, fraction < fractionEnd ∧ units = magnitude exponent fraction

/-- A magnitude beyond the doubles becomes an infinity. -/
def Datum.bounded : Datum → Datum
  | .finite negative units =>
    if units < magnitude 2047 0 then .finite negative units else .infinite negative
  | datum => datum

/-- A significand with 53 binary digits has the magnitude of its stored fields. -/
theorem magnitude_sub_fractionEnd {significand exponent : Nat} (full : fractionEnd ≤ significand) :
    magnitude (exponent + 1) (significand - fractionEnd) = significand * Nat.pow 2 exponent := by
  rw [magnitude_succ, Nat.add_sub_cancel' full]

/-- A magnitude is below the infinities exactly if its exponent is one of a finite double. -/
theorem magnitude_lt_infinite {exponent fraction : Nat} (fits : fraction < fractionEnd) :
    magnitude exponent fraction < magnitude 2047 0 ↔ exponent < 2047 := by
  constructor
  · intro lt
    by_contra ge
    rcases Nat.lt_or_eq_of_le (Nat.le_of_not_lt ge) with gt | same
    · exact absurd lt (Nat.not_lt_of_gt (magnitude_lt_of_exponent fractionEnd_pos gt fraction))
    · rw [← same] at lt
      exact absurd lt (Nat.not_lt_of_ge (magnitude_le_of_fraction _ (Nat.zero_le _)))
  · intro lt
    exact magnitude_lt_of_exponent fits lt 0

/-! ## Bits -/

section

variable (bits : BitVec 64)

theorem toNat_unpackMantissa :
    (@unpackMantissa format bits).toNat = bits.toNat % fractionEnd := by
  rw [unpackMantissa_def, BitVec.extractLsb'_toNat]
  rfl

theorem toNat_unpackExponent :
    (@unpackExponent format bits).toNat = bits.toNat / fractionEnd % 2048 := by
  rw [unpackExponent_def, BitVec.extractLsb'_toNat, Nat.shiftRight_eq_div_pow]
  rfl

theorem isMinus_unpackSign :
    isMinus (Sign.ofBitVec (@unpackSign format bits)) =
      decide (Nat.pow 2 63 ≤ bits.toNat) := by
  have fits : bits.toNat < 18446744073709551616 := bits.isLt
  have half : Nat.pow 2 63 = 9223372036854775808 := rfl
  have bit : (@unpackSign format bits).toNat = bits.toNat / 9223372036854775808 := by
    have place : 2 ^ (format.mantissaBitsWithoutImplicit + format.exponentBits) =
        9223372036854775808 := rfl
    rw [unpackSign_def, BitVec.extractLsb'_toNat, Nat.shiftRight_eq_div_pow, place]
    omega
  rw [Sign.ofBitVec, half]
  split
  · next low =>
    have low := congrArg BitVec.toNat low
    rw [bit] at low
    simp [isMinus] at low ⊢
    omega
  · next high =>
    rw [← BitVec.toNat_inj, bit] at high
    simp [isMinus] at high ⊢
    omega

/-- The significand of a normal double has a leading bit that is not stored. -/
theorem toNat_leading : (1#1 ++ @unpackMantissa format bits).toNat =
    fractionEnd + bits.toNat % fractionEnd := by
  rw [BitVec.toNat_append, ← Nat.shiftLeft_add_eq_or_of_lt (BitVec.isLt _), toNat_unpackMantissa]
  rfl

/-- An unpacked double is canonical, and has the datum of its fields. -/
theorem ofUnpacked_unpack :
    IsCanonical (UnpackedFloat.unpack format bits) ∧
      Datum.ofUnpacked (UnpackedFloat.unpack format bits) =
        Datum.ofFields (decide (Nat.pow 2 63 ≤ bits.toNat)) (bits.toNat / fractionEnd % 2048)
          (bits.toNat % fractionEnd) := by
  have last : @unpackExponent format bits = -1#11 ↔ bits.toNat / fractionEnd % 2048 = 2047 := by
    rw [← BitVec.toNat_inj, toNat_unpackExponent]
    rfl
  have least : @unpackExponent format bits = 0#11 ↔ bits.toNat / fractionEnd % 2048 = 0 := by
    rw [← BitVec.toNat_inj, toNat_unpackExponent]
    rfl
  have whole : @unpackMantissa format bits = 0#52 ↔ bits.toNat % fractionEnd = 0 := by
    rw [← BitVec.toNat_inj, toNat_unpackMantissa]
    rfl
  have fits := Nat.mod_lt bits.toNat fractionEnd_pos
  have bias : ((format.exponentBias + format.mantissaBitsWithoutImplicit : Nat) : Int) = 1075 := rfl
  rw [UnpackedFloat.unpack, Datum.ofFields, ← isMinus_unpackSign bits]
  dsimp only
  split
  · next infinite =>
    rw [if_pos (last.1 infinite)]
    split
    · next zero => exact ⟨trivial, by rw [if_pos (whole.1 zero), Datum.ofUnpacked]⟩
    · next fraction => exact ⟨trivial, by rw [if_neg (mt whole.2 fraction), Datum.ofUnpacked]⟩
  · next finite =>
    rw [if_neg (mt last.2 finite)]
    split
    · next small =>
      have small := least.1 small
      split
      · next zero => exact ⟨trivial, by rw [Datum.ofUnpacked, small, whole.1 zero]; rfl⟩
      · rw [Datum.ofUnpacked, IsCanonical, toNat_unpackExponent, toNat_unpackMantissa, small]
        refine ⟨⟨by decide, by omega, .inr rfl⟩, ?_⟩
        simp [magnitude, Format.exponentBias]
    · next normal =>
      have normal := mt least.2 normal
      have shift : ((bits.toNat / fractionEnd % 2048 : Nat) -
          (format.exponentBias + format.mantissaBitsWithoutImplicit) + 1074 : Int).toNat =
            bits.toNat / fractionEnd % 2048 - 1 := by
        rw [← Int.natCast_add, bias]
        omega
      rw [Datum.ofUnpacked, IsCanonical, toNat_unpackExponent, toNat_leading, shift, magnitude,
        if_neg normal]
      refine ⟨⟨?_, by omega, .inl (Nat.le_add_right _ _)⟩, rfl⟩
      rw [← Int.natCast_add, bias]
      omega

end

/-- The datum of a double is that of its unpacked form. -/
theorem decode_eq_ofUnpacked (x : Float) :
    IsCanonical x.toModel.unpack ∧ decode x = Datum.ofUnpacked x.toModel.unpack := by
  obtain ⟨canonical, same⟩ := ofUnpacked_unpack x.toModel.toBits.toBitVec
  exact ⟨canonical, (decode_eq x).trans same.symm⟩

/-- A double that is put together from fields has the datum of these fields. -/
theorem ofUnpacked_unpack_packComponents (sign : Sign) (exponent : BitVec 11)
    (mantissa : BitVec 52) :
    Datum.ofUnpacked (UnpackedFloat.unpack format (packComponents format sign exponent mantissa)) =
      Datum.ofFields (isMinus sign) exponent.toNat mantissa.toNat := by
  rw [(ofUnpacked_unpack _).2, ← isMinus_unpackSign, ← toNat_unpackExponent,
    ← toNat_unpackMantissa, unpackSign_packComponents, Sign.ofBitVec_toBitVec,
    unpackExponent_packComponents, unpackMantissa_packComponents]

/-! ## Packing -/

section

variable {sign : Sign} {significand : Nat} {exponent : Int} {positive : 0 < significand}

/-- The exponent is stored so that the least one stands for the second least. -/
theorem toNat_biased (least : -1074 ≤ exponent) :
    (exponent + format.exponentBias + format.mantissaBitsWithoutImplicit).toNat =
      (exponent + 1074).toNat + 1 := by
  have bias : (format.exponentBias : Int) = 1023 := rfl
  have places : (format.mantissaBitsWithoutImplicit : Int) = 52 := rfl
  omega

theorem ofUnpacked_unpack_pack_normal (least : -1074 ≤ exponent)
    (full : fractionEnd ≤ significand) (fits : significand < 2 * fractionEnd) :
    Datum.ofUnpacked (UnpackedFloat.unpack format
        (UnpackedFloat.pack format (.finite sign significand exponent positive))) =
      (Datum.ofUnpacked (.finite sign significand exponent positive)).bounded := by
  have digits : significand.log2 + 1 = format.mantissaBits :=
    congrArg (· + 1) ((Nat.log2_eq_iff (Nat.ne_of_gt positive)).2 ⟨full, fits⟩)
  have fraction : significand - fractionEnd < fractionEnd := by omega
  rw [UnpackedFloat.pack, toNat_biased least, Datum.ofUnpacked, Datum.bounded]
  generalize (exponent + 1074).toNat = power
  have below := @magnitude_lt_infinite (power + 1) _ fraction
  rw [magnitude_sub_fractionEnd full] at below
  have last : 2 ^ format.exponentBits ≤ power + 1 + 1 ↔ ¬power + 1 < 2047 := by
    have width : 2 ^ format.exponentBits = 2048 := rfl
    omega
  by_cases finite : power + 1 < 2047
  · have stored : (BitVec.ofNat format.exponentBits (power + 1)).toNat = power + 1 := by
      rw [BitVec.toNat_ofNat]
      exact Nat.mod_eq_of_lt (Nat.lt_trans finite (by decide))
    have rest : (BitVec.ofNat format.mantissaBitsWithoutImplicit significand).toNat =
        significand - fractionEnd := by
      have ending : 2 ^ format.mantissaBitsWithoutImplicit = fractionEnd := rfl
      rw [BitVec.toNat_ofNat, ending, Nat.mod_eq_sub_mod full]
      exact Nat.mod_eq_of_lt fraction
    rw [if_neg (mt last.1 (not_not_intro finite)), if_pos digits, if_pos (below.2 finite),
      ofUnpacked_unpack_packComponents, Datum.ofFields, stored, rest,
      if_neg (Nat.ne_of_lt finite), magnitude_sub_fractionEnd full]
  · rw [if_pos (last.2 finite), if_neg (mt below.1 finite)]
    exact ofUnpacked_unpack_packComponents _ _ _

theorem ofUnpacked_unpack_pack_subnormal (part : significand < fractionEnd) :
    Datum.ofUnpacked (UnpackedFloat.unpack format
        (UnpackedFloat.pack format (.finite sign significand (-1074) positive))) =
      (Datum.ofUnpacked (.finite sign significand (-1074) positive)).bounded := by
  have digits : significand.log2 + 1 ≠ format.mantissaBits := by
    have few : significand.log2 < 52 := (Nat.log2_lt (Nat.ne_of_gt positive)).2 part
    have width : format.mantissaBits = 53 := rfl
    omega
  have units : significand * Nat.pow 2 (-1074 + 1074 : Int).toNat = magnitude 0 significand :=
    Nat.mul_one _
  have below : magnitude 0 significand < magnitude 2047 0 :=
    (magnitude_lt_infinite part).2 (by decide)
  have whole : (BitVec.ofNat format.mantissaBitsWithoutImplicit significand).toNat =
      significand := by
    rw [BitVec.toNat_ofNat]
    exact Nat.mod_eq_of_lt part
  rw [UnpackedFloat.pack, toNat_biased (by decide), Datum.ofUnpacked, units, Datum.bounded,
    if_pos below, if_neg (by decide), if_neg digits, ofUnpacked_unpack_packComponents, whole]
  rfl

end

/-- What is packed and unpacked again has the same datum, up to the infinities. -/
theorem ofUnpacked_unpack_pack {f : UnpackedFloat} (canonical : IsCanonical f) :
    Datum.ofUnpacked (UnpackedFloat.unpack format (UnpackedFloat.pack format f)) =
      (Datum.ofUnpacked f).bounded := by
  cases f with
  | notANumber => exact ofUnpacked_unpack_packComponents _ _ _
  | infinity sign => exact ofUnpacked_unpack_packComponents _ _ _
  | zero sign =>
    have below : magnitude 0 0 < magnitude 2047 0 :=
      (magnitude_lt_infinite fractionEnd_pos).2 (by decide)
    rw [Datum.ofUnpacked, Datum.bounded, if_pos (show 0 < magnitude 2047 0 from below)]
    exact ofUnpacked_unpack_packComponents _ _ _
  | finite sign significand exponent positive =>
    obtain ⟨least, fits, normal⟩ := canonical
    by_cases full : fractionEnd ≤ significand
    · exact ofUnpacked_unpack_pack_normal least full fits
    · obtain rfl : exponent = -1074 := normal.resolve_left full
      exact ofUnpacked_unpack_pack_subnormal (Nat.lt_of_not_le full)

/-- The datum of a packed double. -/
theorem decode_pack {f : UnpackedFloat} (canonical : IsCanonical f) :
    decode (.ofModel (Float.Model.pack f)) = (Datum.ofUnpacked f).bounded := by
  rw [(decode_eq_ofUnpacked _).2]
  exact ofUnpacked_unpack_pack canonical

/-! ## Encoded data -/

/-- Fields of a double stand for a datum that a double has. -/
theorem bounded_ofFields {negative : Bool} {exponent fraction : Nat} (stored : exponent < 2048)
    (fits : fraction < fractionEnd) :
    (Datum.ofFields negative exponent fraction).bounded =
      Datum.ofFields negative exponent fraction := by
  rw [Datum.ofFields]
  split
  · split
    · rfl
    · rfl
  · next finite =>
    have below : magnitude exponent fraction < magnitude 2047 0 :=
      (magnitude_lt_infinite fits).2 (by omega)
    rw [Datum.bounded, if_pos below]

/-- A double made of bits has the datum of the fields that are read from them. -/
theorem decode_ofBits (bits : UInt64) :
    decode (Float.ofBits bits) =
      Datum.ofFields (decide (Nat.pow 2 63 ≤ bits.toNat)) (bits.toNat / fractionEnd % 2048)
        (bits.toNat % fractionEnd) := by
  obtain ⟨canonical, datum⟩ := ofUnpacked_unpack bits.toBitVec
  have packed : decode (Float.ofBits bits) = _ := decode_pack canonical
  rw [packed, datum]
  exact bounded_ofFields (Nat.mod_lt _ (by decide)) (Nat.mod_lt _ fractionEnd_pos)

/-- What stands in the fields of a word is what is decoded. -/
theorem decode_ofBits_fields (negative : Bool) {exponent fraction : Nat} (stored : exponent < 2048)
    (fits : fraction < fractionEnd) :
    decode (Float.ofBits (UInt64.ofNat
        ((if negative then Nat.pow 2 63 else 0) + (exponent * fractionEnd + fraction)))) =
      Datum.ofFields negative exponent fraction := by
  have half : Nat.pow 2 63 = fractionEnd * 2048 := rfl
  have sign : (if negative then fractionEnd * 2048 else 0) =
      fractionEnd * (2048 * negative.toNat) := by
    cases negative with
    | false => rfl
    | true => rfl
  have word : (if negative then Nat.pow 2 63 else 0) + (exponent * fractionEnd + fraction) =
      fraction + fractionEnd * (2048 * negative.toNat + exponent) := by
    rw [half, sign, Nat.mul_comm exponent, ← Nat.add_assoc, ← Nat.mul_add, Nat.add_comm]
  generalize top : 2048 * negative.toNat + exponent = fields at word
  have place : (fraction + fractionEnd * fields) / fractionEnd = fields := by
    rw [Nat.add_mul_div_left _ _ fractionEnd_pos, Nat.div_eq_of_lt fits, Nat.zero_add]
  have high : fractionEnd * 2048 ≤ fraction + fractionEnd * fields ↔ 2048 ≤ fields := by
    rw [Nat.mul_comm fractionEnd 2048, ← Nat.le_div_iff_mul_le fractionEnd_pos, place]
  have minus : decide (fractionEnd * 2048 ≤ fraction + fractionEnd * fields) = negative := by
    cases negative with
    | false =>
      rw [Bool.toNat_false] at top
      exact decide_eq_false (mt high.1 (by omega))
    | true =>
      rw [Bool.toNat_true] at top
      exact decide_eq_true (high.2 (by omega))
  have bits : (UInt64.ofNat (fraction + fractionEnd * fields)).toNat =
      fraction + fractionEnd * fields := by
    have bound : (fraction + fractionEnd * fields) / fractionEnd < 4096 := by
      have bit := Bool.toNat_lt negative
      omega
    rw [UInt64.toNat_ofNat']
    exact Nat.mod_eq_of_lt ((Nat.div_lt_iff_lt_mul fractionEnd_pos).1 bound)
  have exponents : fields % 2048 = exponent := by omega
  rw [decode_ofBits, word, bits, half, minus, place, exponents, Nat.add_mul_mod_self_left,
    Nat.mod_eq_of_lt fits]

/-- A magnitude is encoded by its exponent and its fraction. -/
theorem magnitudeBits_magnitude {exponent fraction : Nat} (fits : fraction < fractionEnd) :
    magnitudeBits (magnitude exponent fraction) = exponent * fractionEnd + fraction := by
  cases exponent with
  | zero =>
    have small : fraction < Nat.pow 2 53 := Nat.lt_trans fits (by decide)
    rw [show magnitude 0 fraction = fraction from rfl, magnitudeBits_of_lt small]
    omega
  | succ exponent =>
    have digits : (magnitude (exponent + 1) fraction).log2 = exponent + 52 := by
      have positive : 0 < Nat.pow 2 exponent := Nat.two_pow_pos exponent
      have low : Nat.pow 2 (exponent + 52) = fractionEnd * Nat.pow 2 exponent :=
        (Nat.pow_add 2 exponent 52).trans (Nat.mul_comm _ _)
      have high : Nat.pow 2 (exponent + 53) = 2 * fractionEnd * Nat.pow 2 exponent :=
        (Nat.pow_add 2 exponent 53).trans (Nat.mul_comm _ _)
      rw [magnitude_succ]
      refine (Nat.log2_eq_iff (Nat.ne_of_gt (Nat.mul_pos (by omega) positive))).2
        ⟨Nat.le_trans (Nat.le_of_eq low) ?_, Nat.lt_of_lt_of_le ?_ (Nat.le_of_eq high.symm)⟩
      · exact Nat.mul_le_mul_right _ (Nat.le_add_right _ _)
      · exact Nat.mul_lt_mul_of_pos_right (by omega) positive
    have whole : magnitude (exponent + 1) fraction / Nat.pow 2 exponent = fractionEnd + fraction :=
      Nat.mul_div_cancel _ (Nat.two_pow_pos exponent)
    rw [magnitudeBits, digits, Nat.add_sub_cancel, whole, Nat.succ_mul, Nat.add_assoc]

/-- A magnitude of a finite double is decoded as it was encoded. -/
theorem decode_encode (negative : Bool) {units : Nat} (stored : IsMagnitude units)
    (finite : units < magnitude 2047 0) :
    decode (encode (.finite negative units)) = .finite negative units := by
  obtain ⟨exponent, fraction, fits, rfl⟩ := stored
  have small : exponent < 2047 := (magnitude_lt_infinite fits).1 finite
  rw [encode, magnitudeBits_magnitude fits,
    decode_ofBits_fields negative (Nat.lt_succ_of_lt small) fits, Datum.ofFields,
    if_neg (Nat.ne_of_lt small)]

end Formulary.Binary64
