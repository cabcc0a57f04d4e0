import Mathlib

/-!
# Cyclic redundancy checks over GF(2)

A bit vector read as a polynomial over GF(2), and the shift register that divides one
polynomial by another as it takes the pieces of a message in.

* `poly` — bit `i` of the vector is the coefficient of `X ^ i`; exclusive or is addition
  (`poly_xor`), and a shift is multiplication by a power of `X` as long as nothing leaves the
  vector (`poly_setWidth_shiftLeft`);
* `crcBit`, `crcPiece`, `crc` — one bit, one piece of `v` bits and a whole message through a
  register of `w` bits.  What leaves the register is put back as `g`, since
  `X ^ w = g` modulo `modulus g`;
* `poly_crc` — **the register holds the remainder** of the message times `X ^ w`;
* `crc_append_self`, `crc_zipWith_xor` — so a message with its own check behind it has the
  check 0, and the check is additive.
-/

namespace Gf2

open Polynomial

variable {v w : ℕ}

/-! ## Bit vectors as polynomials -/

/-- The polynomial of a bit vector. -/
noncomputable def poly (x : BitVec w) : (ZMod 2)[X] :=
  ∑ i ∈ Finset.range w, if x.getLsbD i then X ^ i else 0

theorem coeff_poly (x : BitVec w) (i : ℕ) :
    (poly x).coeff i = if x.getLsbD i then 1 else 0 := by
  have hcoeff : ∀ j, (if x.getLsbD j then (X : (ZMod 2)[X]) ^ j else 0).coeff i =
      if i = j then (if x.getLsbD i then 1 else 0) else 0 := by
    intro j
    by_cases hij : i = j
    · subst hij
      split <;> simp
    · split <;> simp [coeff_X_pow, hij]
  rw [poly, finsetSum_coeff, Finset.sum_congr rfl fun j _ => hcoeff j, Finset.sum_ite_eq]
  by_cases hi : i < w
  · rw [if_pos (Finset.mem_range.mpr hi)]
  · rw [if_neg (by rwa [Finset.mem_range]), x.getLsbD_of_ge i (Nat.le_of_not_lt hi),
      if_neg Bool.false_ne_true]

@[simp] theorem poly_zero : poly (0 : BitVec w) = 0 := by
  ext i
  rw [coeff_poly]
  simp

theorem poly_xor (x y : BitVec w) : poly (x ^^^ y) = poly x + poly y := by
  ext i
  rw [coeff_add, coeff_poly, coeff_poly, coeff_poly, BitVec.getLsbD_xor]
  cases x.getLsbD i <;> cases y.getLsbD i <;> decide

theorem poly_injective : Function.Injective (poly : BitVec w → (ZMod 2)[X]) := by
  intro x y h
  apply BitVec.eq_of_getLsbD_eq
  intro i _
  have hi : (poly x).coeff i = (poly y).coeff i := by rw [h]
  rw [coeff_poly, coeff_poly] at hi
  revert hi
  cases x.getLsbD i <;> cases y.getLsbD i <;> decide

theorem degree_poly_lt (x : BitVec w) : (poly x).degree < w := by
  rw [degree_lt_iff_coeff_zero]
  intro i hi
  rw [coeff_poly, x.getLsbD_of_ge i hi, if_neg Bool.false_ne_true]

/-- A shift that loses no bit. -/
theorem poly_setWidth_shiftLeft (x : BitVec v) {k : ℕ} (h : v + k ≤ w) :
    poly (x.setWidth w <<< k) = poly x * X ^ k := by
  ext i
  rw [coeff_mul_X_pow', coeff_poly, coeff_poly, BitVec.getLsbD_shiftLeft, BitVec.getLsbD_setWidth]
  by_cases hk : k ≤ i
  · rw [if_pos hk]
    by_cases hi : i < w
    · have hlt : i - k < w := by omega
      simp [hi, hk, hlt]
    · -- above the register there is no bit of `x` either
      rw [x.getLsbD_of_ge (i - k) (by omega)]
      simp
  · rw [if_neg hk]
    simp [Nat.lt_of_not_le hk]

theorem poly_append (x : BitVec v) (y : BitVec w) : poly (x ++ y) = poly x * X ^ w + poly y := by
  ext i
  rw [coeff_add, coeff_mul_X_pow', coeff_poly, coeff_poly, coeff_poly, BitVec.getLsbD_append]
  by_cases hi : i < w
  · rw [if_pos hi, if_neg (Nat.not_le.mpr hi), zero_add]
  · rw [if_neg hi, if_pos (Nat.le_of_not_lt hi), y.getLsbD_of_ge i (Nat.le_of_not_lt hi),
      if_neg Bool.false_ne_true, add_zero]

/-! ## The register -/

/-- `X ^ w + g`. -/
noncomputable def modulus (g : BitVec w) : (ZMod 2)[X] := X ^ w + poly g

theorem monic_modulus (g : BitVec w) : (modulus g).Monic := monic_X_pow_add (degree_poly_lt g)

theorem degree_modulus (g : BitVec w) : (modulus g).degree = w := by
  have h : (poly g).degree < ((X : (ZMod 2)[X]) ^ w).degree := by
    rw [degree_X_pow]
    exact degree_poly_lt g
  rw [modulus, degree_add_eq_left_of_degree_lt h, degree_X_pow]

/-- One bit: the register moves up, and a bit that leaves it is put back as `g`. -/
def crcBit (g x : BitVec w) : BitVec w := if x.msb then (x <<< 1) ^^^ g else x <<< 1

/-- One piece of the message, added to the upper end of the register. -/
def crcPiece (g x : BitVec w) (b : BitVec v) : BitVec w :=
  (crcBit g)^[v] (x ^^^ b.setWidth w <<< (w - v))

/-- The register after a whole message, from zero on. -/
def crc (g : BitVec w) (d : List (BitVec v)) : BitVec w := d.foldl (crcPiece g) 0

/-- The message as one polynomial, the first piece highest. -/
noncomputable def message (d : List (BitVec v)) : (ZMod 2)[X] :=
  d.foldl (fun p b => p * X ^ v + poly b) 0

/-- What a shift loses is the highest bit. -/
theorem X_mul_poly (x : BitVec w) :
    X * poly x = poly (x <<< 1) + if x.msb then X ^ w else 0 := by
  ext i
  have hleft : (X * poly x).coeff i = if 1 ≤ i ∧ x.getLsbD (i - 1) then 1 else 0 := by
    have h := coeff_mul_X_pow' (poly x) 1 i
    rw [pow_one] at h
    rw [mul_comm, h, coeff_poly]
    by_cases hi : 1 ≤ i <;> simp [hi]
  have hlast : (if x.msb then (X : (ZMod 2)[X]) ^ w else 0).coeff i =
      if i = w ∧ x.msb then 1 else 0 := by
    split
    · rename_i hmsb
      simp [coeff_X_pow, hmsb]
    · rename_i hmsb
      simp [hmsb]
  rw [coeff_add, hleft, hlast, coeff_poly, BitVec.getLsbD_shiftLeft, BitVec.msb_eq_getLsbD_last]
  obtain hi | rfl | hi := lt_trichotomy i w
  · rw [if_neg (c := i = w ∧ _) (fun h => absurd h.1 hi.ne), add_zero]
    simp [hi, Nat.one_le_iff_ne_zero]
  · obtain rfl | hpos := Nat.eq_zero_or_pos i
    · simp
    · simp [Nat.one_le_iff_ne_zero.mp hpos, Nat.one_le_iff_ne_zero]
  · rw [x.getLsbD_of_ge (i - 1) (by omega)]
    simp [hi.ne', Nat.not_lt.mpr hi.le]

theorem poly_crcBit (g x : BitVec w) :
    X * poly x = poly (crcBit g x) + if x.msb then modulus g else 0 := by
  rw [X_mul_poly, crcBit]
  cases x.msb with
  | false => rfl
  | true =>
    simp only [if_true, poly_xor, modulus]
    -- `g` is added twice
    have htwice : poly g + poly g = 0 := CharTwo.add_self_eq_zero (poly g)
    calc poly (x <<< 1) + X ^ w
        = poly (x <<< 1) + X ^ w + (poly g + poly g) := by rw [htwice, add_zero]
      _ = poly (x <<< 1) + poly g + (X ^ w + poly g) := by ring

/-! ## Residues

Two polynomials have the same remainder if they are equal in the quotient ring. -/

variable (g : BitVec w)

theorem mk_crcBit (x : BitVec w) :
    AdjoinRoot.mk (modulus g) (poly (crcBit g x)) = AdjoinRoot.mk (modulus g) (X * poly x) := by
  rw [poly_crcBit g x, map_add]
  split
  · rw [AdjoinRoot.mk_self, add_zero]
  · rw [map_zero, add_zero]

theorem mk_iterate_crcBit (k : ℕ) (x : BitVec w) :
    AdjoinRoot.mk (modulus g) (poly ((crcBit g)^[k] x)) =
      AdjoinRoot.mk (modulus g) (X ^ k * poly x) := by
  induction k with
  | zero => rw [Function.iterate_zero, id, pow_zero, one_mul]
  | succ k ih =>
    rw [Function.iterate_succ_apply', mk_crcBit, map_mul, ih, ← map_mul, ← mul_assoc, ← pow_succ']

theorem mk_crcPiece (hv : v ≤ w) (x : BitVec w) (b : BitVec v) :
    AdjoinRoot.mk (modulus g) (poly (crcPiece g x b)) =
      AdjoinRoot.mk (modulus g) (poly x * X ^ v + poly b * X ^ w) := by
  rw [crcPiece, mk_iterate_crcBit, poly_xor, poly_setWidth_shiftLeft b (by omega)]
  congr 1
  calc X ^ v * (poly x + poly b * X ^ (w - v))
      = poly x * X ^ v + poly b * (X ^ v * X ^ (w - v)) := by ring
    _ = poly x * X ^ v + poly b * X ^ w := by rw [← pow_add, Nat.add_sub_cancel' hv]

theorem mk_foldl_crcPiece (hv : v ≤ w) (d : List (BitVec v)) (x : BitVec w) (p : (ZMod 2)[X])
    (h : AdjoinRoot.mk (modulus g) (poly x) = AdjoinRoot.mk (modulus g) (p * X ^ w)) :
    AdjoinRoot.mk (modulus g) (poly (d.foldl (crcPiece g) x)) =
      AdjoinRoot.mk (modulus g) (d.foldl (fun p b => p * X ^ v + poly b) p * X ^ w) := by
  induction d generalizing x p with
  | nil => exact h
  | cons b d ih =>
    refine ih _ _ ?_
    calc AdjoinRoot.mk (modulus g) (poly (crcPiece g x b))
        = AdjoinRoot.mk (modulus g) (poly x) * AdjoinRoot.mk (modulus g) (X ^ v) +
            AdjoinRoot.mk (modulus g) (poly b * X ^ w) := by
          rw [mk_crcPiece g hv, map_add, map_mul]
      _ = AdjoinRoot.mk (modulus g) (p * X ^ w * X ^ v + poly b * X ^ w) := by
          rw [h, ← map_mul, ← map_add]
      _ = AdjoinRoot.mk (modulus g) ((p * X ^ v + poly b) * X ^ w) := by
          congr 1
          ring

/-- **The register holds the remainder** of the message, times a power of the variable, by the
modulus. -/
theorem poly_crc (hv : v ≤ w) (d : List (BitVec v)) :
    poly (crc g d) = (message d * X ^ w) %ₘ modulus g := by
  have hmk : AdjoinRoot.mk (modulus g) (poly (crc g d)) =
      AdjoinRoot.mk (modulus g) (message d * X ^ w) :=
    mk_foldl_crcPiece g hv d 0 0 (by rw [poly_zero, zero_mul])
  have hself : poly (crc g d) %ₘ modulus g = poly (crc g d) :=
    (modByMonic_eq_self_iff (monic_modulus g)).mpr (by
      rw [degree_modulus]
      exact degree_poly_lt _)
  rw [← hself]
  exact modByMonic_eq_of_dvd_sub (monic_modulus g) (AdjoinRoot.mk_eq_mk.mp hmk)

/-! ## What follows for messages -/

@[simp] theorem message_nil : message ([] : List (BitVec v)) = 0 := rfl

theorem foldl_message (p : (ZMod 2)[X]) (d : List (BitVec v)) :
    d.foldl (fun p b => p * X ^ v + poly b) p = p * X ^ (v * d.length) + message d := by
  induction d generalizing p with
  | nil => simp
  | cons b d ih =>
    have hmessage : message (b :: d) = (0 * X ^ v + poly b) * X ^ (v * d.length) + message d := by
      rw [message, List.foldl_cons, ih]
    rw [List.foldl_cons, ih, hmessage, List.length_cons, Nat.mul_succ, pow_add]
    ring

theorem message_cons (b : BitVec v) (d : List (BitVec v)) :
    message (b :: d) = poly b * X ^ (v * d.length) + message d := by
  rw [message, List.foldl_cons, foldl_message, zero_mul, zero_add]

theorem message_append (d e : List (BitVec v)) :
    message (d ++ e) = message d * X ^ (v * e.length) + message e := by
  rw [message, List.foldl_append, foldl_message]
  rfl

/-- A message with its own check behind it. -/
theorem crc_append_self (hv : v ≤ w) (d e : List (BitVec v)) (hlen : v * e.length = w)
    (he : message e = poly (crc g d)) : crc g (d ++ e) = 0 := by
  apply poly_injective
  rw [poly_crc g hv, message_append, hlen, he, poly_zero, modByMonic_eq_zero_iff_dvd
    (monic_modulus g)]
  refine Dvd.dvd.mul_right ?_ (X ^ w)
  -- subtraction is addition
  rw [← sub_neg_eq_add, CharTwo.neg_eq, poly_crc g hv]
  exact dvd_sub_comm.mp (dvd_modByMonic_sub _ _)

theorem message_zipWith_xor {a b : List (BitVec v)} (h : a.length = b.length) :
    message (a.zipWith (· ^^^ ·) b) = message a + message b := by
  induction a generalizing b with
  | nil =>
    obtain rfl := List.length_eq_zero_iff.mp h.symm
    simp
  | cons x a ih =>
    cases b with
    | nil => cases h
    | cons y b =>
      have hlen : a.length = b.length := Nat.succ.inj h
      have hzip : (a.zipWith (· ^^^ ·) b).length = b.length := by
        rw [List.length_zipWith, hlen, Nat.min_self]
      rw [List.zipWith_cons_cons, message_cons, message_cons, message_cons, ih hlen, poly_xor,
        hzip, hlen]
      ring

/-- The check of a sum of messages is the sum of their checks. -/
theorem crc_zipWith_xor (hv : v ≤ w) {a b : List (BitVec v)} (h : a.length = b.length) :
    crc g (a.zipWith (· ^^^ ·) b) = crc g a ^^^ crc g b := by
  apply poly_injective
  rw [poly_xor, poly_crc g hv, poly_crc g hv, poly_crc g hv, message_zipWith_xor h, add_mul,
    add_modByMonic]

end Gf2
