import Mathlib

/-!
# Counts on a circle

A free-running `w`-bit counter lives on a circle of `2 ^ w` ticks: two of its
readings are neither before nor after one another, but one is always a definite
number of ticks *ahead* of the other.  This file is the arithmetic of that
distance, for any width.

* `ahead a b` — how many ticks after `a` the counter next reads `b`, which is
  the unsigned difference `b - a`;
* `ahead_add_ahead` — going round: there and back is one full turn;
* `ahead_eq_add` — distances add up as long as they stay within one turn;
* `toInt_sub_nonpos` — what the difference says when it is read as a signed number;
* `signedAhead` — the distance the shorter way round, negative for what lies behind;
* `ahead_le_add` — what is due soon after one reading of a clock is due soon after a later one;
* `exists_mul_eq_iff` — where steps of one length lead to.
-/

namespace Circle

variable {w : ℕ}

/-- How far `b` lies ahead of `a`, in ticks. -/
def ahead (a b : BitVec w) : ℕ := (b - a).toNat

theorem ahead_lt (a b : BitVec w) : ahead a b < 2 ^ w := (b - a).isLt

@[simp] theorem ahead_self (a : BitVec w) : ahead a a = 0 := by simp [ahead]

/-- Only a reading itself is no distance ahead. -/
theorem ahead_eq_zero {a b : BitVec w} : ahead a b = 0 ↔ a = b := by
  constructor
  · intro h
    have hsub : b - a = 0#w := BitVec.eq_of_toNat_eq (by simpa [ahead] using h)
    have : b - a + a = a := by rw [hsub]; simp
    rw [BitVec.sub_add_cancel] at this
    exact this.symm
  · rintro rfl; exact ahead_self a

theorem ahead_pos {a b : BitVec w} (h : a ≠ b) : 0 < ahead a b :=
  Nat.pos_of_ne_zero (fun hz => h (ahead_eq_zero.mp hz))

/-- Different readings are at different distances. -/
theorem ahead_inj {a b c : BitVec w} : ahead a b = ahead a c ↔ b = c := by
  constructor
  · intro h
    have hsub : b - a = c - a := BitVec.eq_of_toNat_eq h
    rw [← BitVec.sub_add_cancel b a, hsub, BitVec.sub_add_cancel]
  · rintro rfl
    rfl

/-- Passing through `b` on the way to `c` covers the distance up to full turns. -/
theorem ahead_add_mod (a b c : BitVec w) : (ahead a b + ahead b c) % 2 ^ w = ahead a c := by
  rw [ahead, ahead, ahead, ← BitVec.toNat_add, sub_add_sub_cancel' b a c]

/-- There and back again is one full turn. -/
theorem ahead_add_ahead {a b : BitVec w} (h : a ≠ b) : ahead a b + ahead b a = 2 ^ w := by
  have hmod := ahead_add_mod a b a
  rw [ahead_self] at hmod
  have h1 := ahead_pos h
  have h2 := ahead_lt a b
  have h3 := ahead_lt b a
  obtain ⟨k, hk⟩ := Nat.dvd_of_mod_eq_zero hmod
  have hk1 : k = 1 := by
    have hlo : 0 < k := Nat.pos_of_ne_zero (by rintro rfl; omega)
    have hhi : k < 2 := by
      by_contra hge
      have : 2 ^ w * 2 ≤ 2 ^ w * k := Nat.mul_le_mul_left _ (by omega)
      omega
    omega
  rw [hk, hk1, Nat.mul_one]

/-- Distances add up when the whole way is less than one turn. -/
theorem ahead_eq_add {a b c : BitVec w} (h : ahead a b + ahead b c < 2 ^ w) :
    ahead a c = ahead a b + ahead b c := by
  rw [← ahead_add_mod a b c, Nat.mod_eq_of_lt h]

/-- A reading that comes no later than `c` splits the way to `c` in two. -/
theorem ahead_eq_sub {a b c : BitVec w} (h : ahead a b ≤ ahead a c) :
    ahead b c = ahead a c - ahead a b := by
  have hmod := ahead_add_mod a b c
  have h1 := ahead_lt b c
  have h2 := ahead_lt a c
  have hlt : ahead a b + ahead b c < 2 ^ w := by
    by_contra hge
    have hle : 2 ^ w ≤ ahead a b + ahead b c := by omega
    have hsub : (ahead a b + ahead b c) % 2 ^ w = ahead a b + ahead b c - 2 ^ w := by
      rw [Nat.mod_eq_sub_mod hle, Nat.mod_eq_of_lt (by omega)]
    omega
  have := ahead_eq_add hlt
  omega

/-- A reading that comes no later than `c` is no further from `c` than the start was. -/
theorem ahead_le_of_le {a b c : BitVec w} (h : ahead a b ≤ ahead a c) :
    ahead b c ≤ ahead a c := by
  rw [ahead_eq_sub h]
  exact Nat.sub_le _ _

/-! ## Reading the distance with a sign -/

/-- The signed difference `a - b` is not positive exactly when `b` is at most half
a turn ahead of `a`. -/
theorem toInt_sub_nonpos {a b : BitVec w} : (a - b).toInt ≤ 0 ↔ 2 * ahead a b ≤ 2 ^ w := by
  by_cases hab : a = b
  · subst hab; simp
  · have h1 := ahead_add_ahead hab
    have h2 := ahead_pos hab
    have h3 := ahead_lt a b
    have hdef : (a - b).toNat = ahead b a := rfl
    rw [BitVec.toInt_eq_toNat_cond, hdef]
    split <;> omega

/-- How far `b` lies ahead of `a` the shorter way round: negative if it lies behind. -/
def signedAhead (a b : BitVec w) : ℤ := (b - a).toInt

/-- The two distances differ by a full turn where the reading lies behind. -/
theorem signedAhead_cases (a b : BitVec w) :
    2 * ahead a b < 2 ^ w ∧ signedAhead a b = ahead a b ∨
      2 ^ w ≤ 2 * ahead a b ∧ signedAhead a b = ahead a b - 2 ^ w := by
  rw [signedAhead, BitVec.toInt_eq_toNat_cond]
  split
  · rename_i hlt
    exact .inl ⟨hlt, rfl⟩
  · rename_i hlt
    refine .inr ⟨not_lt.mp hlt, ?_⟩
    push_cast
    rfl

/-- Between readings at most half a turn ahead of a third one, the signed distance is the
difference of how far ahead they are. -/
theorem signedAhead_eq_sub {t a b : BitVec w} (ha : 2 * ahead t a < 2 ^ w)
    (hb : 2 * ahead t b < 2 ^ w) : signedAhead a b = ahead t b - ahead t a := by
  by_cases hab : a = b
  · subst hab
    simp [signedAhead]
  · have hturn := ahead_add_ahead hab
    have hcast : ((2 ^ w : ℕ) : ℤ) = 2 ^ w := by push_cast; rfl
    rcases le_total (ahead t a) (ahead t b) with hle | hle
    · have hsub := ahead_eq_sub hle
      rcases signedAhead_cases a b with ⟨-, hd⟩ | ⟨hfar, -⟩ <;> omega
    · have hsub := ahead_eq_sub hle
      rcases signedAhead_cases a b with ⟨hnear, -⟩ | ⟨-, hd⟩ <;> omega

/-- On half a turn, what is due within `d` of an earlier reading `s` of the clock comes at most
`d` after a later reading `t`. -/
theorem ahead_le_add {c s t x : BitVec w} {d : ℕ} (hclock : 2 * ahead s t < 2 ^ w)
    (hdue : ahead s x ≤ d) (hx : 2 * ahead c x < 2 ^ w) : ahead c x ≤ ahead c t + d := by
  rcases le_total (ahead c x) (ahead c t) with hbefore | hbehind
  · exact hbefore.trans (Nat.le_add_right _ _)
  · have htx := ahead_eq_sub hbehind
    rcases le_total (ahead s t) (ahead s x) with hlate | hpast
    · have := ahead_le_of_le hlate
      omega
    · -- Seen from `s` the reading `t` is past `x`, so that either is less than half a turn ahead
      -- of the other: they are the same.
      have hxt := ahead_eq_sub hpast
      by_cases hne : t = x
      · rw [hne]
        exact Nat.le_add_right _ _
      · have := ahead_add_ahead hne
        omega

/-- The multiples of `a` are those of its greatest common divisor with a full turn. -/
theorem exists_mul_eq_iff {w : ℕ} (a d : BitVec w) :
    (∃ k : ℕ, BitVec.ofNat w k * a = d) ↔ a.toNat.gcd (2 ^ w) ∣ d.toNat := by
  constructor
  · rintro ⟨k, rfl⟩
    rw [BitVec.toNat_mul, BitVec.toNat_ofNat, Nat.mod_mul_mod]
    exact (Nat.dvd_mod_iff (Nat.gcd_dvd_right _ _)).mpr
      ((Nat.gcd_dvd_left a.toNat (2 ^ w)).mul_left k)
  · intro hdvd
    have hbezout : (Int.gcd (a.toNat : ℤ) ((2 ^ w : ℕ) : ℤ) : ℤ) ∣ (d.toNat : ℤ) :=
      Int.natCast_dvd_natCast.mpr hdvd
    obtain ⟨x, y, hxy⟩ := Int.gcd_dvd_iff.mp (Int.natCast_dvd_natCast.mp hbezout)
    have hpos : (0 : ℤ) < ((2 ^ w : ℕ) : ℤ) := by positivity
    have hk := Int.toNat_of_nonneg (Int.emod_nonneg x hpos.ne')
    have hmod : x % ((2 ^ w : ℕ) : ℤ) * a.toNat ≡ d.toNat [ZMOD ((2 ^ w : ℕ) : ℤ)] := by
      have hmul := (Int.mod_modEq x ((2 ^ w : ℕ) : ℤ)).mul_right (a.toNat : ℤ)
      have hsum : x * a.toNat = d.toNat + ((2 ^ w : ℕ) : ℤ) * -y := by
        rw [hxy]
        ring
      rw [hsum] at hmul
      exact hmul.trans (Int.modEq_add_fac_self.trans rfl)
    refine ⟨(x % ((2 ^ w : ℕ) : ℤ)).toNat, BitVec.eq_of_toNat_eq ?_⟩
    rw [BitVec.toNat_mul, BitVec.toNat_ofNat, Nat.mod_mul_mod]
    rw [← hk] at hmod
    have hnat : (x % ((2 ^ w : ℕ) : ℤ)).toNat * a.toNat ≡ d.toNat [MOD 2 ^ w] := by
      exact_mod_cast hmod
    exact Eq.trans hnat (Nat.mod_eq_of_lt d.isLt)

end Circle
