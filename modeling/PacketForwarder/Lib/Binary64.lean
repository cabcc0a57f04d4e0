import Mathlib

/-!
# Double-precision numbers

IEEE binary64 arithmetic as C code uses it: a finite double is the rational it
stands for, and an operation is the exact one followed by a rounding.  (The two
zeros are one value here; no conversion to an integer tells them apart.)

* `Binary64.ofRat` — round to nearest, ties to even, with gradual underflow and
  overflow to infinity;
* `add`, `mul`, `div`, `modf` — the operations;
* `truncated` and the conversions `toUnsigned`, `toSigned` — to an integer type of
  a given width, towards zero.  C leaves a conversion undefined when the result
  does not fit; `outside` stands for what the machine gives then;
* `exists_ofRat_eq_finite` — what is not large is rounded to a finite double next to it;
* `truncated_div_natCast` — a quotient of integers, rounded and truncated, is the integer
  quotient.
-/

/-- A double is a rational number, an infinity or not a number at all. -/
inductive Binary64
  | finite (value : ℚ)
  | infinity (negative : Bool)
  | nan
  deriving DecidableEq

namespace Binary64

/-! ## Rounding -/

/-- `2 ^ k`. -/
def pow2 : ℤ → ℚ
  | .ofNat k => ((2 ^ k : ℕ) : ℚ)
  | .negSucc k => mkRat 1 (2 ^ (k + 1))

/-- The nearest integer, ties to even. -/
def nearest (r : ℚ) : ℤ :=
  let low := r.floor
  let rest := r - low
  if rest < 1 / 2 then low
  else if 1 / 2 < rest then low + 1
  else if low % 2 = 0 then low
  else low + 1

/-- The `e` with `2 ^ e ≤ |r| < 2 ^ (e + 1)`, for `r ≠ 0`. -/
def exponent (r : ℚ) : ℤ :=
  let e : ℤ := (r.num.natAbs.log2 : ℤ) - (r.den.log2 : ℤ)
  if pow2 e ≤ |r| then e else e - 1

/-- The distance of adjacent doubles around `r`: a 53-bit significand, but no finer
than the subnormal doubles. -/
def spacing (r : ℚ) : ℚ := pow2 (max (exponent r - 52) (-1074))

/-- The double nearest to a rational. -/
def ofRat (r : ℚ) : Binary64 :=
  if r = 0 then .finite 0
  else
    let rounded := nearest (r / spacing r) * spacing r
    if |rounded| < pow2 1024 then .finite rounded else .infinity (r < 0)

/-! ## Operations -/

/-- A sign, of a number that is not `nan`. -/
def isNegative : Binary64 → Bool
  | .finite q => q < 0
  | .infinity negative => negative
  | .nan => false

/-- `a + b`. -/
def add : Binary64 → Binary64 → Binary64
  | .finite a, .finite b => ofRat (a + b)
  | .nan, _ | _, .nan => .nan
  | .infinity a, .infinity b => if a = b then .infinity a else .nan
  | .infinity a, .finite _ | .finite _, .infinity a => .infinity a

/-- `a * b`. -/
def mul : Binary64 → Binary64 → Binary64
  | .finite a, .finite b => ofRat (a * b)
  | .nan, _ | _, .nan => .nan
  | .infinity _, .finite 0 | .finite 0, .infinity _ => .nan
  | a, b => .infinity (a.isNegative != b.isNegative)

/-- `a / b` for a finite divisor other than zero. -/
def div (a : Binary64) (b : ℚ) : Binary64 :=
  match a with
  | .finite a => ofRat (a / b)
  | .infinity negative => .infinity (negative != (b < 0))
  | .nan => .nan

/-- The integer part of a number, rounded towards zero. -/
def truncate (q : ℚ) : ℤ := if q < 0 then q.ceil else q.floor

/-- `modf`: the fractional and the integer part. -/
def modf : Binary64 → Binary64 × Binary64
  | .finite q => (.finite (q - truncate q), .finite (truncate q))
  | .infinity negative => (.finite 0, .infinity negative)
  | .nan => (.nan, .nan)

/-! ## Conversions -/

/-- The integer a conversion gives, if there is one. -/
def truncated : Binary64 → Option ℤ
  | .finite q => some (truncate q)
  | .infinity _ | .nan => none

/-- Convert to an unsigned type of `w` bits. -/
def toUnsigned (outside : (w : ℕ) → Binary64 → BitVec w) (w : ℕ) (x : Binary64) : BitVec w :=
  match x.truncated with
  | some z => if 0 ≤ z ∧ z < 2 ^ w then BitVec.ofInt w z else outside w x
  | none => outside w x

/-- Convert to a signed type of `w` bits. -/
def toSigned (outside : (w : ℕ) → Binary64 → BitVec w) (w : ℕ) (x : Binary64) : BitVec w :=
  match x.truncated with
  | some z =>
    if -2 ^ (w - 1) ≤ z ∧ z < 2 ^ (w - 1) then BitVec.ofInt w z else outside w x
  | none => outside w x

/-! ## Bounds -/

theorem pow2_eq_zpow (k : ℤ) : pow2 k = 2 ^ k := by
  cases k with
  | ofNat k => simp [pow2]
  | negSucc k => simp [pow2, Rat.mkRat_eq_div, zpow_negSucc]

/-- Rounding moves a number by less than one. -/
theorem abs_nearest_sub_le (r : ℚ) : |(nearest r : ℚ) - r| ≤ 1 := by
  have hlow : (r.floor : ℚ) ≤ r := Rat.floor_le r
  have hhigh : r < r.floor + 1 := by exact_mod_cast Rat.lt_floor_add_one r
  have hcases : nearest r = r.floor ∨ nearest r = r.floor + 1 := by
    unfold nearest
    simp only
    split_ifs <;> simp
  rw [abs_le]
  rcases hcases with h | h
  · rw [h]
    constructor <;> linarith
  · rw [h]
    push_cast
    constructor <;> linarith

/-- A number next to an integer is rounded to it. -/
theorem nearest_eq_of_abs_sub_lt {r : ℚ} {n : ℤ} (h : |r - n| < 1 / 2) : nearest r = n := by
  have hlow : (r.floor : ℚ) ≤ r := Rat.floor_le r
  have hhigh : r < r.floor + 1 := by exact_mod_cast Rat.lt_floor_add_one r
  rw [abs_lt] at h
  unfold nearest
  simp only
  have hlt : (r.floor : ℚ) < n + 1 := by linarith
  have hgt : (n : ℚ) < r.floor + 2 := by linarith
  have hlt' : r.floor < n + 1 := by exact_mod_cast hlt
  have hgt' : n < r.floor + 2 := by exact_mod_cast hgt
  have hcases : r.floor = n ∨ r.floor = n - 1 := by omega
  rcases hcases with heq | heq
  · have hrest : r - r.floor < 1 / 2 := by
      rw [heq]
      linarith
    rw [if_pos hrest, heq]
  · have hrest : 1 / 2 < r - r.floor := by
      rw [heq]
      push_cast
      linarith
    rw [if_neg (not_lt.mpr hrest.le), if_pos hrest, heq]
    omega

theorem pow2_exponent_le {r : ℚ} (h : r ≠ 0) : pow2 (exponent r) ≤ |r| := by
  unfold exponent
  simp only
  split
  · rename_i hle
    exact hle
  · have hnum : (2 : ℚ) ^ r.num.natAbs.log2 ≤ r.num.natAbs := by
      exact_mod_cast Nat.log2_self_le (Int.natAbs_ne_zero.mpr (Rat.num_ne_zero.mpr h))
    have hden : (r.den : ℚ) ≤ 2 ^ (r.den.log2 + 1) := by
      exact_mod_cast (Nat.lt_log2_self).le
    have habs : |r| = r.num.natAbs / r.den := by
      rw [Nat.cast_natAbs, Int.cast_abs, ← Nat.abs_cast r.den, ← abs_div, Rat.num_div_den]
    rw [pow2_eq_zpow, habs, sub_sub, zpow_sub₀ two_ne_zero, zpow_natCast]
    refine div_le_div₀ (by positivity) hnum ?_ ?_
    · exact_mod_cast r.den_pos
    · exact_mod_cast hden

/-- Adjacent doubles are near to each other. -/
theorem spacing_le {r : ℚ} (h : r ≠ 0) : spacing r ≤ |r| / 2 ^ 52 + 1 / 2 ^ 64 := by
  have hexp := pow2_exponent_le h
  have hnonneg : 0 ≤ |r| / 2 ^ 52 := by positivity
  unfold spacing
  rw [pow2_eq_zpow] at hexp ⊢
  rcases max_cases (exponent r - 52) (-1074) with ⟨hmax, -⟩ | ⟨hmax, -⟩
  · have hdiv : (2 : ℚ) ^ (exponent r - 52) ≤ |r| / 2 ^ 52 := by
      rw [zpow_sub₀ two_ne_zero]
      exact div_le_div_of_nonneg_right hexp (by positivity)
    rw [hmax]
    refine hdiv.trans ?_
    have : (0 : ℚ) ≤ 1 / 2 ^ 64 := by positivity
    linarith
  · have hle : (2 : ℚ) ^ (-1074 : ℤ) ≤ 2 ^ (-64 : ℤ) := zpow_le_zpow_right₀ one_le_two (by decide)
    rw [hmax]
    have heq : (2 : ℚ) ^ (-64 : ℤ) = 1 / 2 ^ 64 := by
      rw [zpow_neg, one_div]
      rfl
    rw [heq] at hle
    linarith

/-- A number that is not large is rounded to a finite double next to it. -/
theorem exists_ofRat_eq_finite {r : ℚ} (h : |r| ≤ 2 ^ 64) :
    ∃ q, ofRat r = .finite q ∧ |q - r| ≤ |r| / 2 ^ 52 + 1 / 2 ^ 64 := by
  unfold ofRat
  split
  · rename_i hr
    refine ⟨0, rfl, ?_⟩
    rw [hr]
    norm_num
  · rename_i hr
    have hspacing := spacing_le hr
    have hpos : 0 < spacing r := by
      unfold spacing
      rw [pow2_eq_zpow]
      positivity
    have hround : |(nearest (r / spacing r) : ℚ) * spacing r - r| ≤ spacing r := by
      have hmul : (nearest (r / spacing r) : ℚ) * spacing r - r =
          ((nearest (r / spacing r) : ℚ) - r / spacing r) * spacing r := by
        field_simp
      rw [hmul, abs_mul, abs_of_pos hpos]
      exact mul_le_of_le_one_left hpos.le (abs_nearest_sub_le _)
    have hsmall : |(nearest (r / spacing r) : ℚ) * spacing r| < pow2 1024 := by
      have htri := abs_sub_abs_le_abs_sub ((nearest (r / spacing r) : ℚ) * spacing r) r
      have hbig : (2 : ℚ) ^ 66 < pow2 1024 := by
        rw [pow2_eq_zpow, ← zpow_natCast]
        exact zpow_lt_zpow_right₀ one_lt_two (by decide)
      have hle : |r| / 2 ^ 52 ≤ |r| := div_le_self (abs_nonneg r) (by norm_num)
      have hone : (1 : ℚ) / 2 ^ 64 ≤ 1 := by norm_num
      have hpow : (2 : ℚ) ^ 66 = 4 * 2 ^ 64 := by norm_num
      have hpow1 : (1 : ℚ) ≤ 2 ^ 64 := by norm_num
      linarith
    simp only
    rw [if_pos hsmall]
    exact ⟨_, rfl, hround.trans hspacing⟩

/-! ## Integers -/

theorem nearest_intCast (k : ℤ) : nearest (k : ℚ) = k :=
  nearest_eq_of_abs_sub_lt (by rw [sub_self, abs_zero]; norm_num)

/-- An integer of at most 53 bits is a double. -/
theorem ofRat_intCast {k : ℤ} (h : |k| < 2 ^ 53) : ofRat k = .finite k := by
  by_cases hk : k = 0
  · subst hk
    rfl
  · have hkq : (k : ℚ) ≠ 0 := Int.cast_ne_zero.mpr hk
    have habs : |(k : ℚ)| < 2 ^ 53 := by exact_mod_cast h
    have hexp : exponent (k : ℚ) < 53 := by
      have hle := (pow2_exponent_le hkq).trans_lt habs
      rw [pow2_eq_zpow, ← zpow_natCast] at hle
      exact (zpow_lt_zpow_iff_right₀ one_lt_two).mp hle
    obtain ⟨j, hj⟩ : ∃ j : ℕ, max (exponent (k : ℚ) - 52) (-1074) = -(j : ℤ) :=
      ⟨(-max (exponent (k : ℚ) - 52) (-1074)).toNat, by omega⟩
    have hspacing : spacing (k : ℚ) = (2 ^ j)⁻¹ := by
      rw [spacing, hj, pow2_eq_zpow, zpow_neg, zpow_natCast]
    have hscaled : (k : ℚ) / spacing k = ((k * 2 ^ j : ℤ) : ℚ) := by
      rw [hspacing, div_inv_eq_mul]
      push_cast
      rfl
    have hround : (nearest ((k : ℚ) / spacing k) : ℚ) * spacing k = k := by
      rw [hscaled, nearest_intCast, ← hscaled, div_mul_cancel₀]
      rw [hspacing]
      positivity
    have hsmall : |(k : ℚ)| < pow2 1024 := by
      refine habs.trans ?_
      rw [pow2_eq_zpow, ← zpow_natCast]
      exact zpow_lt_zpow_right₀ one_lt_two (by decide)
    unfold ofRat
    simp only [if_neg hkq, hround, if_pos hsmall]

/-- **A quotient is truncated to the integer quotient**, though it is rounded before. -/
theorem truncated_div_natCast {n d : ℕ} (hd : 0 < d) (hn : n ≤ 2 ^ 51) (hdmax : d ≤ 2 ^ 62) :
    (div (.finite n) d).truncated = some ((n / d : ℕ) : ℤ) := by
  have hdq : (0 : ℚ) < d := by exact_mod_cast hd
  have hmod : (n : ℚ) = d * (n / d : ℕ) + (n % d : ℕ) := by
    exact_mod_cast (Nat.div_add_mod n d).symm
  show (ofRat ((n : ℚ) / d)).truncated = _
  by_cases hzero : n % d = 0
  · have hexact : (n : ℚ) / d = (((n / d : ℕ) : ℤ) : ℚ) := by
      rw [hzero, Nat.cast_zero, add_zero] at hmod
      rw [hmod, mul_div_cancel_left₀ _ hdq.ne']
      rfl
    have hlt : |((n / d : ℕ) : ℤ)| < 2 ^ 53 := by
      have hle := Nat.div_le_self n d
      rw [abs_of_nonneg (Int.natCast_nonneg _)]
      omega
    rw [hexact, ofRat_intCast hlt]
    simp [truncated, truncate]
  · have hlow : 1 ≤ n % d := Nat.one_le_iff_ne_zero.mpr hzero
    have hhigh : n % d + 1 ≤ d := Nat.mod_lt n hd
    have hlowq : (1 : ℚ) ≤ (n % d : ℕ) := by exact_mod_cast hlow
    have hhighq : ((n % d : ℕ) : ℚ) + 1 ≤ d := by exact_mod_cast hhigh
    have hnq : (n : ℚ) ≤ 2 ^ 51 := by exact_mod_cast hn
    have hdmaxq : (d : ℚ) ≤ 2 ^ 62 := by exact_mod_cast hdmax
    have hone : (1 : ℚ) ≤ d := by exact_mod_cast hd
    have hpos : (0 : ℚ) ≤ (n : ℚ) / d := by positivity
    have hle : |(n : ℚ) / d| ≤ 2 ^ 64 := by
      rw [abs_of_nonneg hpos, div_le_iff₀ hdq]
      nlinarith
    obtain ⟨q, hq, herror⟩ := exists_ofRat_eq_finite hle
    rw [abs_of_nonneg hpos, abs_le] at herror
    -- The error is less than the distance to the next integer.
    have hsmall : (n : ℚ) / d / 2 ^ 52 + 1 / 2 ^ 64 < 1 / d := by
      rw [div_div, div_add_div _ _ (by positivity) (by positivity),
        div_lt_div_iff₀ (by positivity) hdq]
      nlinarith
    have hquot : (n : ℚ) / d = (n / d : ℕ) + (n % d : ℕ) / d := by
      nth_rewrite 1 [hmod]
      rw [add_div, mul_div_cancel_left₀ _ hdq.ne']
    have hfirst : 1 / (d : ℚ) ≤ (n % d : ℕ) / d := div_le_div_of_nonneg_right hlowq hdq.le
    have hlast : ((n % d : ℕ) : ℚ) / d + 1 / d ≤ 1 := by
      rw [← add_div, div_le_one hdq]
      exact hhighq
    have hfloor : q.floor = ((n / d : ℕ) : ℤ) := by
      show ⌊q⌋ = _
      rw [Int.floor_eq_iff, Int.cast_natCast]
      constructor <;> linarith
    have hnonneg : ¬ q < 0 := by
      have : (0 : ℚ) ≤ (n / d : ℕ) := Nat.cast_nonneg _
      linarith
    rw [hq]
    simp only [truncated, truncate, if_neg hnonneg, hfloor]

theorem truncated_natCast (n : ℕ) : (finite n).truncated = some (n : ℤ) := by
  have hnonneg : ¬ (n : ℚ) < 0 := not_lt.mpr (Nat.cast_nonneg n)
  have hfloor : (n : ℚ).floor = n := by
    show ⌊(n : ℚ)⌋ = n
    exact Int.floor_natCast n
  simp only [truncated, truncate, if_neg hnonneg, hfloor]

variable {outside : (w : ℕ) → Binary64 → BitVec w} {w : ℕ} {x : Binary64}

/-- A natural number that fits an unsigned type is converted to itself. -/
theorem toNat_toUnsigned {k : ℕ} (hx : x.truncated = some (k : ℤ)) (hk : k < 2 ^ w) :
    (x.toUnsigned outside w).toNat = k := by
  have hfits : (0 : ℤ) ≤ k ∧ (k : ℤ) < 2 ^ w := ⟨Int.natCast_nonneg k, by exact_mod_cast hk⟩
  unfold toUnsigned
  rw [hx]
  simp only [if_pos hfits]
  rw [BitVec.ofInt_natCast, BitVec.toNat_ofNat, Nat.mod_eq_of_lt hk]

/-- One that does not fit is not. -/
theorem toNat_toUnsigned_iff {k : ℕ} (hx : x.truncated = some (k : ℤ)) :
    (x.toUnsigned outside w).toNat = k ↔ k < 2 ^ w :=
  ⟨fun h => h ▸ BitVec.isLt _, toNat_toUnsigned hx⟩

/-- A natural number that fits a signed type is converted to itself. -/
theorem toInt_toSigned {k : ℕ} (hw : 0 < w) (hx : x.truncated = some (k : ℤ))
    (hk : k < 2 ^ (w - 1)) : (x.toSigned outside w).toInt = k := by
  have hkz : (k : ℤ) < 2 ^ (w - 1) := by exact_mod_cast hk
  have hpow : (0 : ℤ) < 2 ^ (w - 1) := by positivity
  have hfits : -2 ^ (w - 1) ≤ (k : ℤ) ∧ (k : ℤ) < 2 ^ (w - 1) := ⟨by omega, hkz⟩
  unfold toSigned
  rw [hx]
  simp only [if_pos hfits]
  rw [BitVec.toInt_ofInt_eq_self hw hfits.1 hfits.2]

end Binary64
