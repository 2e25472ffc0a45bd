import Mathlib.Tactic.Common

/-!
# CRC-16/XMODEM

The checksum with the polynomial `0x1021`, no initial value, the most significant bit first.  A shift of
the remainder is linear, so that eight shifts are a table look-up of its upper byte, with the lower byte
moved up (`shifts_eight`).
-/

namespace StellarForge.Encoding

namespace Crc16

/-- One bit of the division by the polynomial. -/
def shift (crc : BitVec 16) : BitVec 16 := (crc <<< 1) ^^^ (if crc.msb then 0x1021#16 else 0#16)

/-- `n` bits of it. -/
def shifts : ℕ → BitVec 16 → BitVec 16
  | 0, crc => crc
  | n + 1, crc => shift (shifts n crc)

/-- The remainder after one more byte. -/
def step (crc : BitVec 16) (byte : UInt8) : BitVec 16 :=
  shifts 8 (crc ^^^ (byte.toBitVec.setWidth 16 <<< 8))

/-- The checksum of some bytes. -/
def xmodem (bytes : List UInt8) : BitVec 16 := bytes.foldl step 0#16

/-- The shift of the register is linear. -/
theorem shift_xor (x y : BitVec 16) : shift (x ^^^ y) = shift x ^^^ shift y := by
  have hmsb : (x ^^^ y).msb = (x.msb ^^ y.msb) := BitVec.msb_xor
  unfold shift
  rw [hmsb, BitVec.shiftLeft_xor_distrib]
  cases x.msb <;> cases y.msb
  · simp only [Bool.xor_false, Bool.false_eq_true, if_false, BitVec.xor_zero]
  · simp only [Bool.false_xor, if_true, Bool.false_eq_true, if_false, BitVec.xor_zero,
      BitVec.xor_assoc]
  · simp only [Bool.xor_false, if_true, Bool.false_eq_true, if_false, BitVec.xor_zero]
    ac_rfl
  · have hcancel (a b p : BitVec 16) : a ^^^ p ^^^ (b ^^^ p) = a ^^^ b := by
      rw [BitVec.xor_comm b p, BitVec.xor_assoc, ← BitVec.xor_assoc p, BitVec.xor_self,
        BitVec.zero_xor]
    simp only [Bool.xor_self, if_true, Bool.false_eq_true, if_false, BitVec.xor_zero, hcancel]

theorem shifts_xor (n : ℕ) (x y : BitVec 16) : shifts n (x ^^^ y) = shifts n x ^^^ shifts n y := by
  induction n with
  | zero => rfl
  | succ n ih =>
    show shift (shifts n (x ^^^ y)) = shift (shifts n x) ^^^ shift (shifts n y)
    rw [ih, shift_xor]

/-- The bits of a lower byte move up without a division. -/
theorem shifts_low (low : BitVec 8) : shifts 8 (low.setWidth 16) = low.setWidth 16 <<< 8 := by
  revert low
  decide +kernel

/-- A checksum is its two bytes. -/
theorem split (crc : BitVec 16) :
    crc = ((crc >>> 8).setWidth 8).setWidth 16 <<< 8 ^^^ (crc.setWidth 8).setWidth 16 := by
  apply BitVec.eq_of_getLsbD_eq
  intro i hi
  simp only [BitVec.getLsbD_xor, BitVec.getLsbD_shiftLeft, BitVec.getLsbD_setWidth,
    BitVec.getLsbD_ushiftRight]
  by_cases hlow : i < 8
  · simp [hlow, hi]
  · have hsum : 8 + (i - 8) = i := by omega
    have hupper : i - 8 < 8 := by omega
    have hwidth : i - 8 < 16 := by omega
    simp [hlow, hi, hsum, hupper, hwidth]

/-- Eight shifts of a remainder: those of its upper byte, and its lower byte moved up. -/
theorem shifts_eight (crc : BitVec 16) :
    shifts 8 crc = shifts 8 (((crc >>> 8).setWidth 8).setWidth 16 <<< 8) ^^^ (crc <<< 8) := by
  have hlow : (crc.setWidth 8).setWidth 16 <<< 8 = crc <<< 8 := by
    apply BitVec.eq_of_getLsbD_eq
    intro i hi
    simp only [BitVec.getLsbD_shiftLeft, BitVec.getLsbD_setWidth]
    by_cases h : i < 8
    · simp [h]
    · have hupper : i - 8 < 8 := by omega
      have hwidth : i - 8 < 16 := by omega
      simp [h, hi, hupper, hwidth]
  conv_lhs => rw [split crc]
  rw [shifts_xor, shifts_low, hlow]

end Crc16

end StellarForge.Encoding
