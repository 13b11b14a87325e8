import FormBasic.Number.Binary64
import Mathlib

/-!
# Floats and their bits

A float is made of its bits and taken apart into them without loss, as long as they are those of a
finite number: the core library keeps the bits of a float, but sends every float through an unpacked
form, of which the finite ones are packed again into the same bits.

## Main statements

* `Binary64.toBits_ofBits` - the bits of a finite float are kept
* `Binary64.decode_ofMagnitude`, `Binary64.isFinite_ofMagnitude` - a float made of finite bits
-/

namespace FormBasic.Binary64

open Float.Model (Format)
open Float.Model.UnpackedFloat

-- ════════════════════════════════════════════════════════════════════════════
-- Bits
-- ════════════════════════════════════════════════════════════════════════════

section Bits

variable {b : BitVec Format.binary64.numBits} {bits : UInt64}

theorem toNat_unpackExponent (b : BitVec Format.binary64.numBits) :
    (unpackExponent b).toNat = b.toNat / 2 ^ 52 % 2 ^ 11 := by
  simp [unpackExponent, Nat.shiftRight_eq_div_pow]

/-- The exponents of finite floats are all but the last one, which has no bit that is not set. -/
theorem unpackExponent_ne (h : b.toNat / 2 ^ 52 % 2 ^ 11 ≠ 2047) : unpackExponent b ≠ -1#_ :=
  fun hlast => h ((toNat_unpackExponent b).symm.trans (congrArg BitVec.toNat hlast))

theorem pack_unpack_of_ne (h : b.toNat / 2 ^ 52 % 2 ^ 11 ≠ 2047) :
    pack .binary64 (unpack .binary64 b) = b := by
  have hnumber : ¬ isNaNBits b = true :=
    fun hnan => unpackExponent_ne h (of_decide_eq_true hnan).1
  rw [pack_unpack b, if_neg hnumber]

theorem toBits_ofBits (h : bits.toNat / 2 ^ 52 % 2 ^ 11 ≠ 2047) :
    (Float.ofBits bits).toBits = bits :=
  congrArg UInt64.ofBitVec (pack_unpack_of_ne h)

theorem isFinite_ofBits (h : bits.toNat / 2 ^ 52 % 2 ^ 11 ≠ 2047) :
    (Float.ofBits bits).isFinite = true := by
  have hbits : (Float.ofBits bits).isFinite = (unpack .binary64 bits.toBitVec).isFinite :=
    congrArg (fun bits : UInt64 => (unpack .binary64 bits.toBitVec).isFinite) (toBits_ofBits h)
  rw [hbits, unpack, if_neg (unpackExponent_ne h)]
  split
  · split <;> rfl
  · rfl

end Bits

-- ════════════════════════════════════════════════════════════════════════════
-- Floats
-- ════════════════════════════════════════════════════════════════════════════

section Magnitudes

variable {bits : Nat}

/-- The bits of a finite float with a sign. -/
theorem toNat_ofNat_magnitude (h : bits < infinityBits) (negative : Bool) :
    (UInt64.ofNat (if negative then Nat.pow 2 63 + bits else bits)).toNat =
      if negative then 2 ^ 63 + bits else bits := by
  simp only [infinityBits, Nat.pow_eq] at h ⊢
  rw [UInt64.toNat_ofNat']
  split <;> omega

theorem exponent_magnitude (h : bits < infinityBits) (negative : Bool) :
    (UInt64.ofNat (if negative then Nat.pow 2 63 + bits else bits)).toNat / 2 ^ 52 % 2 ^ 11 =
      bits / 2 ^ 52 := by
  rw [toNat_ofNat_magnitude h]
  simp only [infinityBits, Nat.pow_eq] at h
  split <;> omega

theorem exponent_magnitude_ne (h : bits < infinityBits) (negative : Bool) :
    (UInt64.ofNat (if negative then Nat.pow 2 63 + bits else bits)).toNat / 2 ^ 52 % 2 ^ 11 ≠
      2047 := by
  rw [exponent_magnitude h]
  simp only [infinityBits, Nat.pow_eq] at h
  omega

theorem isFinite_ofMagnitude (h : bits < infinityBits) (negative : Bool) :
    (ofMagnitude negative bits).isFinite = true :=
  isFinite_ofBits (exponent_magnitude_ne h negative)

/-- A float made of a sign and finite bits is taken apart into them. -/
theorem decode_ofMagnitude (h : bits < infinityBits) (negative : Bool) :
    decode (ofMagnitude negative bits) =
      if bits / 2 ^ 52 = 0 then .finite negative (bits % 2 ^ 52) (-1074)
      else .finite negative (2 ^ 52 + bits % 2 ^ 52) ((bits / 2 ^ 52 : Nat) - 1075) := by
  have hsign : ((if negative then 2 ^ 63 + bits else bits) / Nat.pow 2 63 == 1) = negative := by
    simp only [infinityBits, Nat.pow_eq] at h ⊢
    cases negative with
    | false =>
      rw [if_neg Bool.false_ne_true, beq_eq_false_iff_ne]
      omega
    | true =>
      rw [if_pos rfl, beq_iff_eq]
      omega
  have hfraction : (if negative then 2 ^ 63 + bits else bits) % Nat.pow 2 52 = bits % 2 ^ 52 := by
    simp only [Nat.pow_eq]
    split <;> omega
  have hexponent : (if negative then 2 ^ 63 + bits else bits) / Nat.pow 2 52 % 2048 =
      bits / 2 ^ 52 := by
    rw [← toNat_ofNat_magnitude h]
    exact exponent_magnitude h negative
  have hfinite : bits / 2 ^ 52 ≠ 2047 := by
    rw [← exponent_magnitude h negative]
    exact exponent_magnitude_ne h negative
  rw [decode, ofMagnitude, toBits_ofBits (exponent_magnitude_ne h negative),
    toNat_ofNat_magnitude h]
  simp only [hsign, hfraction, hexponent, hfinite, if_false]
  rfl

end Magnitudes

end FormBasic.Binary64
