import PacketForwarder.Beacon
import PacketForwarder.Lib.Gf2

/-!
# The CRC of the beacons

`crc16` takes a byte string in bit by bit, with `int` arithmetic that is cut to 16 bits on
every assignment.

* `crc16Bit_int`, `crc16Byte_int` — the cuts lose nothing that 16 bits would keep;
* `crc16_eq_crc` — `crc16` is the shift register of GF(2) division by
  `X ^ 16 + X ^ 12 + X ^ 5 + 1`;
* `crc16_remainder` — what it computes is the remainder, so it is 0 on a byte string with its
  own CRC behind it, and additive.
-/

namespace PacketForwarder

open Polynomial Gf2

/-- The assignment of the inner loop, in the types of the source: `x` is promoted to `int`,
and the result cut to 16 bits. -/
theorem crc16Bit_int (x : U16) :
    (if x.setWidth 32 &&& 0x8000 ≠ (0 : BitVec 32) then (x.setWidth 32 <<< 1) ^^^ 0x1021
      else x.setWidth 32 <<< 1).setWidth 16 = crc16Bit x := by
  have hcut : (x.setWidth 32 &&& 0x8000 : BitVec 32) = (x &&& 0x8000).setWidth 32 := by
    rw [BitVec.setWidth_and]
    rfl
  have htest : (x.setWidth 32 &&& 0x8000 ≠ (0 : BitVec 32)) ↔ x &&& 0x8000 ≠ 0 := by
    rw [hcut, ne_eq, ne_eq, not_iff_not]
    constructor
    · intro h
      simpa using congrArg (BitVec.setWidth 16) h
    · intro h
      rw [h]
      rfl
  have hshift : (x.setWidth 32 <<< 1 : BitVec 32).setWidth 16 = x <<< 1 := by
    apply BitVec.eq_of_getLsbD_eq
    intro i hi
    simp [hi]
  rw [crc16Bit]
  by_cases h : x &&& 0x8000 ≠ 0
  · rw [if_pos h, if_pos (htest.mpr h), BitVec.setWidth_xor, hshift]
    rfl
  · rw [if_neg h, if_neg (mt htest.mp h), hshift]

/-- The assignment that takes a byte in. -/
theorem crc16Byte_int (x : U16) (b : U8) :
    crc16Bit^[8] ((x.setWidth 32 ^^^ (b.setWidth 16).setWidth 32 <<< 8 : BitVec 32).setWidth 16) =
      crc16Byte x b := by
  have hbyte : ((b.setWidth 16).setWidth 32 <<< 8 : BitVec 32).setWidth 16 =
      b.setWidth 16 <<< 8 := by
    apply BitVec.eq_of_getLsbD_eq
    intro i hi
    simp [hi]
  rw [BitVec.setWidth_xor, hbyte, BitVec.setWidth_setWidth_of_le x (by decide), BitVec.setWidth_eq,
    crc16Byte]

theorem crc16Bit_eq_crcBit : crc16Bit = crcBit 0x1021 := by
  funext x
  have htest : x &&& 0x8000 ≠ 0 ↔ x.msb = true := by
    rw [show (0x8000 : U16) = BitVec.twoPow 16 15 from rfl, BitVec.and_twoPow,
      BitVec.msb_eq_getLsbD_last]
    cases x.getLsbD (16 - 1) <;> decide
  rw [crc16Bit, crcBit]
  exact if_congr htest rfl rfl

theorem crc16_eq_crc (d : List U8) : crc16 d = crc 0x1021 d := by
  rw [crc16, crc]
  congr 1
  funext x b
  rw [crc16Byte, crc16Bit_eq_crcBit]
  rfl

/-- The polynomial of the checksum is `X ^ 16 + X ^ 12 + X ^ 5 + 1`. -/
theorem modulus_crc16 : modulus (0x1021 : U16) = X ^ 16 + X ^ 12 + X ^ 5 + 1 := by
  have hpoly : poly (0x1021 : U16) = X ^ 12 + X ^ 5 + 1 := by
    simp [poly, Finset.sum_range_succ]
    ring
  rw [modulus, hpoly]
  ring

/-- The two bytes of a CRC, the higher one first. -/
theorem message_high_low (crc : U16) :
    message [(crc >>> 8).setWidth 8, crc.setWidth 8] = poly crc := by
  have hbytes : (crc >>> 8).setWidth 8 ++ crc.setWidth 8 = crc := by
    apply BitVec.eq_of_getLsbD_eq
    intro i hi
    rw [BitVec.getLsbD_append]
    split
    · rename_i hlow
      simp [hlow]
    · rename_i hhigh
      have hlow : i - 8 < 8 := by omega
      have hback : 8 + (i - 8) = i := by omega
      simp [hlow, hback]
  calc message [(crc >>> 8).setWidth 8, crc.setWidth 8]
      = poly ((crc >>> 8).setWidth 8) * X ^ 8 + poly (crc.setWidth 8) := by
        simp [message_cons]
    _ = poly crc := by rw [← poly_append, hbytes]

/-- **`crc16` is the CRC with polynomial `X ^ 16 + X ^ 12 + X ^ 5 + 1`.**  It is the remainder
of the byte string times `X ^ 16`; a byte string with its own CRC behind it, the high byte
first, has the CRC 0; and the CRC of the exclusive or of two byte strings of equal lengths is
the exclusive or of their CRCs. -/
theorem crc16_remainder :
    (∀ d : List U8, poly (crc16 d) = (message d * X ^ 16) %ₘ (X ^ 16 + X ^ 12 + X ^ 5 + 1)) ∧
      (∀ d : List U8,
        crc16 (d ++ [(crc16 d >>> 8).setWidth 8, (crc16 d).setWidth 8]) = 0) ∧
      ∀ a b : List U8, a.length = b.length →
        crc16 (a.zipWith (· ^^^ ·) b) = crc16 a ^^^ crc16 b := by
  refine ⟨fun d => ?_, fun d => ?_, fun a b h => ?_⟩
  · rw [crc16_eq_crc, poly_crc _ (by decide), modulus_crc16]
  · have hown := message_high_low (crc16 d)
    rw [crc16_eq_crc d] at hown ⊢
    rw [crc16_eq_crc]
    exact crc_append_self _ (by decide) d _ rfl hown
  · rw [crc16_eq_crc, crc16_eq_crc, crc16_eq_crc]
    exact crc_zipWith_xor _ (by decide) h

theorem crc16_remainder_xor :
    crc16 ([0x31, 0x32].zipWith (· ^^^ ·) [0x0F, 0xF0]) =
      crc16 [0x31, 0x32] ^^^ crc16 [0x0F, 0xF0] :=
  crc16_remainder.2.2 _ _ rfl

/-- The check value: the CRC of the digits from 1 to 9 in ASCII. -/
example : crc16 [0x31, 0x32, 0x33, 0x34, 0x35, 0x36, 0x37, 0x38, 0x39] = 0x31C3 := by
  decide +kernel

end PacketForwarder
