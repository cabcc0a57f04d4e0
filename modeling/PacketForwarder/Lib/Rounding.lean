import PacketForwarder.Lib.Binary64

/-!
# Rounding errors

How far a double lies from the number it was rounded from, and what becomes of such errors in
the computations that follow.

* `exponent_eq`, `spacing_eq` — the doubles around a number;
* `abs_sub_le_of_ofRat` — a rounding moves a number by half of the spacing at most;
* `ofRat_eq_of_near` — a double is found again from nearby;
* `mul_ofRat_div`, `truncated_mul_ofRat_div` — a number is divided by a scale and multiplied by
  it again: where the powers of two lie favourably nothing is lost, else at most the last unit;
* `within_foldl_add` — a sum of doubles;
* `within_lowPass` — a low-pass filter forgets its errors faster than it makes them.
-/

namespace Binary64

/-! ## More operations -/

/-- `-a`. -/
def neg : Binary64 → Binary64
  | finite a => finite (-a)
  | infinity negative => infinity (!negative)
  | nan => nan

/-- `a - b`. -/
def sub (a b : Binary64) : Binary64 := a.add b.neg

/-- `a / b`; a divisor that is zero is a positive one. -/
def quotient : Binary64 → Binary64 → Binary64
  | nan, _ | _, nan | infinity _, infinity _ => nan
  | finite _, infinity _ => finite 0
  | infinity negative, finite b => infinity (negative != (b < 0))
  | finite a, finite b =>
    if b = 0 then if a = 0 then nan else infinity (a < 0)
    else ofRat (a / b)

/-- `x < q`. -/
def below (q : ℚ) : Binary64 → Bool
  | finite a => a < q
  | infinity negative => negative
  | nan => false

/-- `q < x`. -/
def above (q : ℚ) : Binary64 → Bool
  | finite a => q < a
  | infinity negative => !negative
  | nan => false

/-- `x - x / c + y / c`. -/
def lowPass (c : ℚ) (x y : Binary64) : Binary64 := (x.sub (x.div c)).add (y.div c)

@[simp] theorem add_finite (a b : ℚ) : (finite a).add (finite b) = ofRat (a + b) := rfl

@[simp] theorem mul_finite (a b : ℚ) : (finite a).mul (finite b) = ofRat (a * b) := rfl

@[simp] theorem div_finite (a b : ℚ) : (finite a).div b = ofRat (a / b) := rfl

@[simp] theorem sub_finite (a b : ℚ) : (finite a).sub (finite b) = ofRat (a - b) := by
  simp [sub, neg, sub_eq_add_neg]

@[simp] theorem below_finite (q a : ℚ) : below q (finite a) = decide (a < q) := rfl

@[simp] theorem above_finite (q a : ℚ) : above q (finite a) = decide (q < a) := rfl

theorem quotient_finite (a : ℚ) {b : ℚ} (h : b ≠ 0) :
    (finite a).quotient (finite b) = ofRat (a / b) := by
  simp [quotient, h]

/-! ## The grid -/

theorem abs_nearest_sub_le_half (r : ℚ) : |(nearest r : ℚ) - r| ≤ 1 / 2 := by
  have hlow : (r.floor : ℚ) ≤ r := Rat.floor_le r
  have hhigh : r < r.floor + 1 := by exact_mod_cast Rat.lt_floor_add_one r
  unfold nearest
  simp only
  rw [abs_le]
  split_ifs with hless hmore
  · constructor <;> linarith
  · push_cast
    constructor <;> linarith
  · constructor <;> linarith
  · push_cast
    constructor <;> linarith

/-- The exponent of a number is large enough for it. -/
theorem lt_pow2_exponent (r : ℚ) : |r| < pow2 (exponent r + 1) := by
  have hnum : (r.num.natAbs : ℚ) < 2 ^ (r.num.natAbs.log2 + 1) := by
    exact_mod_cast Nat.lt_log2_self
  have hden : (2 : ℚ) ^ r.den.log2 ≤ r.den := by
    exact_mod_cast Nat.log2_self_le r.den_pos.ne'
  have habs : |r| = r.num.natAbs / r.den := by
    rw [Nat.cast_natAbs, Int.cast_abs, ← Nat.abs_cast r.den, ← abs_div, Rat.num_div_den]
  have hdenPos : (0 : ℚ) < r.den := by exact_mod_cast r.den_pos
  have hbound : |r| < pow2 ((r.num.natAbs.log2 : ℤ) - r.den.log2 + 1) := by
    rw [pow2_eq_zpow, habs, sub_add_eq_add_sub, zpow_sub₀ two_ne_zero, zpow_natCast]
    have hexp : (2 : ℚ) ^ ((r.num.natAbs.log2 : ℤ) + 1) = 2 ^ (r.num.natAbs.log2 + 1) := by
      exact_mod_cast zpow_natCast (2 : ℚ) (r.num.natAbs.log2 + 1)
    rw [hexp]
    exact div_lt_div₀ hnum hden (by positivity) (by positivity)
  unfold exponent
  simp only
  split
  · exact hbound
  · rename_i hless
    rw [sub_add_cancel]
    exact not_le.mp hless

theorem exponent_eq {r : ℚ} {e : ℤ} (hle : (2 : ℚ) ^ e ≤ |r|) (hlt : |r| < 2 ^ (e + 1)) :
    exponent r = e := by
  have hr : r ≠ 0 := by
    rintro rfl
    rw [abs_zero] at hle
    exact absurd hle (not_le.mpr (by positivity))
  have hlow := (pow2_exponent_le hr).trans_lt hlt
  have hhigh := hle.trans_lt (lt_pow2_exponent r)
  rw [pow2_eq_zpow] at hlow hhigh
  have hlow' := (zpow_lt_zpow_iff_right₀ (one_lt_two (α := ℚ))).mp hlow
  have hhigh' := (zpow_lt_zpow_iff_right₀ (one_lt_two (α := ℚ))).mp hhigh
  omega

theorem spacing_eq {r : ℚ} {e : ℤ} (hle : (2 : ℚ) ^ e ≤ |r|) (hlt : |r| < 2 ^ (e + 1))
    (he : -1022 ≤ e) : spacing r = 2 ^ (e - 52) := by
  rw [spacing, exponent_eq hle hlt, max_eq_left (by omega), pow2_eq_zpow]

theorem spacing_pos (r : ℚ) : 0 < spacing r := by
  rw [spacing, pow2_eq_zpow]
  positivity

/-! ## One rounding -/

/-- **A rounding moves a number by half of the spacing at most.** -/
theorem abs_sub_le_of_ofRat {r q : ℚ} (h : ofRat r = .finite q) : |q - r| ≤ spacing r / 2 := by
  have hpos := spacing_pos r
  unfold ofRat at h
  split at h
  · rename_i hr
    cases h
    rw [hr, sub_self, abs_zero]
    rw [hr] at hpos
    positivity
  · simp only at h
    split at h
    · cases h
      have hmul : (nearest (r / spacing r) : ℚ) * spacing r - r =
          ((nearest (r / spacing r) : ℚ) - r / spacing r) * spacing r := by
        field_simp
      rw [hmul, abs_mul, abs_of_pos hpos]
      have hhalf := mul_le_mul_of_nonneg_right (abs_nearest_sub_le_half (r / spacing r)) hpos.le
      linarith
    · cases h

/-- **A double is found again from nearby.** -/
theorem ofRat_eq_of_near {r x : ℚ} {k : ℤ} (hr : r ≠ 0) (hx : x = k * spacing r)
    (hnear : |r - x| < spacing r / 2) (hsmall : |x| < pow2 1024) : ofRat r = .finite x := by
  have hpos := spacing_pos r
  have hscaled : |r / spacing r - k| < 1 / 2 := by
    have hmul : r / spacing r - k = (r - x) / spacing r := by
      rw [hx]
      field_simp
    rw [hmul, abs_div, abs_of_pos hpos, div_lt_iff₀ hpos]
    linarith
  have hround := nearest_eq_of_abs_sub_lt hscaled
  rw [ofRat, if_neg hr]
  simp only
  rw [hround, ← hx, if_pos hsmall]

/-- A number of moderate size is rounded to one nearby. -/
theorem exists_ofRat_within {r bound : ℚ} (h : |r| ≤ bound) (hbound : bound ≤ 2 ^ 64) :
    ∃ q, ofRat r = .finite q ∧ |q - r| ≤ bound / 2 ^ 52 + 1 / 2 ^ 64 := by
  obtain ⟨q, hq, herror⟩ := exists_ofRat_eq_finite (h.trans hbound)
  refine ⟨q, hq, herror.trans ?_⟩
  have hdiv := div_le_div_of_nonneg_right h (by positivity : (0 : ℚ) ≤ 2 ^ 52)
  linarith

/-- **Truncation takes less than one away**, and makes a small negative number zero. -/
theorem exists_truncated {q : ℚ} (h : -1 < q) :
    ∃ k : ℕ, (finite q).truncated = some (k : ℤ) ∧ q < k + 1 ∧ (k : ℚ) ≤ max q 0 := by
  have hcut : 0 ≤ truncate q ∧ q < truncate q + 1 ∧ (truncate q : ℚ) ≤ max q 0 := by
    unfold truncate
    split
    · rename_i hneg
      have hhigh : q.ceil ≤ 0 := Rat.ceil_le_iff.mpr (by exact_mod_cast hneg.le)
      have hlow : -1 < q.ceil := Rat.lt_ceil_iff.mpr (by exact_mod_cast h)
      have hzero : q.ceil = 0 := by omega
      rw [hzero]
      refine ⟨le_rfl, ?_, ?_⟩
      · push_cast
        linarith
      · push_cast
        exact le_max_right q 0
    · rename_i hnonneg
      have hlow : (q.floor : ℚ) ≤ q := Rat.floor_le q
      have hhigh : q < q.floor + 1 := by exact_mod_cast Rat.lt_floor_add_one q
      refine ⟨?_, hhigh, hlow.trans (le_max_left q 0)⟩
      show 0 ≤ ⌊q⌋
      exact Int.floor_nonneg.mpr (not_lt.mp hnonneg)
  obtain ⟨k, hk⟩ := Int.eq_ofNat_of_zero_le hcut.1
  rw [hk] at hcut
  exact ⟨k, congrArg some hk, by exact_mod_cast hcut.2.1, by exact_mod_cast hcut.2.2⟩

/-! ## Divided by a scale and multiplied by it -/

section Scale

variable {s n b : ℕ} {a : ℤ}

/-- The quotient has the exponent `a`. -/
theorem quotient_bounds (hs : (s : ℚ) * 2 ^ a < 2 ^ b) (hlow : 2 ^ b < n)
    (hhigh : (n : ℚ) < s * 2 ^ (a + 1)) :
    (0 : ℚ) < s ∧ (2 : ℚ) ^ a ≤ |(n : ℚ) / s| ∧ |(n : ℚ) / s| < 2 ^ (a + 1) := by
  have hlowq : (2 : ℚ) ^ b < n := by exact_mod_cast hlow
  have hspos : (0 : ℚ) < s := by
    have hnpos : (0 : ℚ) < s * 2 ^ (a + 1) := lt_trans (lt_trans (by positivity) hlowq) hhigh
    exact pos_of_mul_pos_left hnpos (by positivity)
  rw [abs_of_nonneg (by positivity), le_div_iff₀ hspos, div_lt_iff₀ hspos]
  refine ⟨hspos, ?_, ?_⟩
  · linarith
  · linarith

/-- The quotient is small enough to be finite. -/
theorem quotient_le (hb : b ≤ 52) (hs : (s : ℚ) * 2 ^ a < 2 ^ b) (hlow : 2 ^ b < n)
    (hhigh : (n : ℚ) < s * 2 ^ (a + 1)) : |(n : ℚ) / s| ≤ 2 ^ 64 := by
  obtain ⟨hspos, -, hquot⟩ := quotient_bounds hs hlow hhigh
  have hone : (1 : ℚ) ≤ s := by exact_mod_cast (Nat.cast_pos.mp hspos : 0 < s)
  have hbpow : (2 : ℚ) ^ b ≤ 2 ^ 52 := pow_le_pow_right₀ one_le_two hb
  have ha : (2 : ℚ) ^ a ≤ s * 2 ^ a := le_mul_of_one_le_left (by positivity) hone
  rw [zpow_add_one₀ two_ne_zero] at hquot
  linarith

/-- The product is nearer to `n` than half of the spacing there. -/
theorem abs_product_sub_lt {d : ℚ} (ha : -1022 ≤ a) (hs : (s : ℚ) * 2 ^ a < 2 ^ b)
    (hlow : 2 ^ b < n) (hhigh : (n : ℚ) < s * 2 ^ (a + 1)) (hd : ofRat (n / s) = .finite d) :
    |(s : ℚ) * d - n| < 2 ^ ((b : ℤ) - 52) / 2 := by
  obtain ⟨hspos, hquotLow, hquotHigh⟩ := quotient_bounds hs hlow hhigh
  have herror := abs_sub_le_of_ofRat hd
  rw [spacing_eq hquotLow hquotHigh ha] at herror
  have heq : (s : ℚ) * d - n = s * (d - n / s) := by
    field_simp
  calc |(s : ℚ) * d - n| = s * |d - n / s| := by rw [heq, abs_mul, abs_of_pos hspos]
    _ ≤ s * (2 ^ (a - 52) / 2) := mul_le_mul_of_nonneg_left herror hspos.le
    _ = s * 2 ^ a / 2 ^ 52 / 2 := by
      rw [zpow_sub₀ two_ne_zero]
      norm_num
      ring
    _ < 2 ^ b / 2 ^ 52 / 2 := by gcongr
    _ = 2 ^ ((b : ℤ) - 52) / 2 := by
      rw [zpow_sub₀ two_ne_zero, zpow_natCast]
      norm_num

/-- Near to a number above `2 ^ b` the spacing is that of the number. -/
theorem spacing_product {x : ℚ} (hb : b ≤ 52) (hlow : 2 ^ b < n) (hhigh : n < 2 ^ (b + 1))
    (hx : |x - n| < 2 ^ ((b : ℤ) - 52) / 2) : 0 < x ∧ spacing x = 2 ^ ((b : ℤ) - 52) := by
  have hlowq : (2 : ℚ) ^ b + 1 ≤ n := by exact_mod_cast hlow
  have hhighq : (n : ℚ) + 1 ≤ 2 ^ (b + 1) := by exact_mod_cast hhigh
  have hunit : (2 : ℚ) ^ ((b : ℤ) - 52) ≤ 2 ^ (0 : ℤ) :=
    zpow_le_zpow_right₀ one_le_two (by omega)
  rw [zpow_zero] at hunit
  rw [abs_lt] at hx
  have hpow : (0 : ℚ) < 2 ^ b := by positivity
  have hpos : 0 < x := by linarith
  refine ⟨hpos, spacing_eq ?_ ?_ (by omega)⟩
  · rw [abs_of_pos hpos, zpow_natCast]
    linarith
  · rw [abs_of_pos hpos]
    have hexp : (2 : ℚ) ^ ((b : ℤ) + 1) = 2 ^ (b + 1) := by
      exact_mod_cast zpow_natCast (2 : ℚ) (b + 1)
    rw [hexp]
    linarith

/-- **Nothing is lost** where the quotient is relatively farther above its power of two than
the number above its own. -/
theorem mul_ofRat_div (ha : -1022 ≤ a) (hb : b ≤ 52) (hs : (s : ℚ) * 2 ^ a < 2 ^ b)
    (hlow : 2 ^ b < n) (hhigh : (n : ℚ) < s * 2 ^ (a + 1)) :
    mul (.finite s) (ofRat (n / s)) = .finite n := by
  have hdouble : n < 2 ^ (b + 1) := by
    have hlt : (n : ℚ) < 2 ^ (b + 1) := by
      rw [zpow_add_one₀ two_ne_zero] at hhigh
      rw [pow_succ]
      linarith
    exact_mod_cast hlt
  obtain ⟨d, hd, -⟩ := exists_ofRat_eq_finite (quotient_le hb hs hlow hhigh)
  have hproduct := abs_product_sub_lt ha hs hlow hhigh hd
  obtain ⟨hpos, hspacing⟩ := spacing_product hb hlow hdouble hproduct
  have hmultiple : (n : ℚ) = ((n * 2 ^ (52 - b) : ℕ) : ℤ) * 2 ^ ((b : ℤ) - 52) := by
    have hexp : (b : ℤ) - 52 = -((52 - b : ℕ) : ℤ) := by omega
    rw [hexp, zpow_neg, zpow_natCast]
    push_cast
    field_simp
  have hlarge : (n : ℚ) < 2 ^ (1024 : ℤ) := by
    have hdoubleq : (n : ℚ) < 2 ^ (b + 1) := by exact_mod_cast hdouble
    refine hdoubleq.trans_le ?_
    rw [← zpow_natCast]
    exact zpow_le_zpow_right₀ one_le_two (by push_cast; omega)
  rw [hd, mul_finite]
  refine ofRat_eq_of_near hpos.ne' (hspacing ▸ hmultiple) (hspacing ▸ hproduct) ?_
  rw [abs_of_nonneg (Nat.cast_nonneg n), pow2_eq_zpow]
  exact hlarge

/-- **At most the last unit is lost**, wherever the powers of two lie. -/
theorem truncated_mul_ofRat_div (hs : 0 < s) (hs' : s ≤ 2 ^ 40) (hn : 0 < n) (hn' : n ≤ 2 ^ 40) :
    (mul (.finite s) (ofRat (n / s))).truncated = some (n : ℤ) ∨
      (mul (.finite s) (ofRat (n / s))).truncated = some ((n : ℤ) - 1) := by
  have hsq : (1 : ℚ) ≤ s := by exact_mod_cast hs
  have hsq' : (s : ℚ) ≤ 2 ^ 40 := by exact_mod_cast hs'
  have hnq : (1 : ℚ) ≤ n := by exact_mod_cast hn
  have hnq' : (n : ℚ) ≤ 2 ^ 40 := by exact_mod_cast hn'
  have hquot : |(n : ℚ) / s| ≤ n := by
    rw [abs_of_nonneg (by positivity)]
    exact div_le_self (by positivity) hsq
  obtain ⟨d, hd, hdn⟩ := exists_ofRat_eq_finite (hquot.trans (hnq'.trans (by norm_num)))
  have hproduct : |(s : ℚ) * d - n| ≤ 1 / 4 := by
    have heq : (s : ℚ) * d - n = s * (d - n / s) := by
      field_simp
    have hspos : (0 : ℚ) < s := by linarith
    have habs : |(n : ℚ) / s| = n / s := abs_of_nonneg (by positivity)
    rw [heq, abs_mul, abs_of_pos hspos]
    rw [habs] at hdn
    refine (mul_le_mul_of_nonneg_left hdn hspos.le).trans ?_
    have hexpand : (s : ℚ) * (n / s / 2 ^ 52 + 1 / 2 ^ 64) = n / 2 ^ 52 + s / 2 ^ 64 := by
      field_simp
    rw [hexpand]
    linarith
  rw [abs_le] at hproduct
  have hbound : |(s : ℚ) * d| ≤ 2 ^ 41 := by
    rw [abs_le]
    constructor
    · linarith
    · linarith
  obtain ⟨q, hq, hqd⟩ := exists_ofRat_within hbound (by norm_num)
  rw [abs_le] at hqd
  obtain ⟨k, hk, hklow, hkhigh⟩ := exists_truncated (q := q) (by linarith)
  rw [max_eq_left (by linarith)] at hkhigh
  have hlow : n < k + 2 := by
    have hltq : (n : ℚ) < k + 2 := by linarith
    exact_mod_cast hltq
  have hhigh : k < n + 1 := by
    have hltq : (k : ℚ) < n + 1 := by linarith
    exact_mod_cast hltq
  rw [hd, mul_finite, hq, hk]
  rcases (by omega : (k : ℤ) = n ∨ (k : ℤ) = n - 1) with heq | heq
  · exact .inl (congrArg some heq)
  · exact .inr (congrArg some heq)

end Scale

/-! ## Sums -/

/-- A double lies within these bounds, and is finite. -/
def Within (lo hi : ℚ) (x : Binary64) : Prop := ∃ q, x = .finite q ∧ lo ≤ q ∧ q ≤ hi

/-- **A sum of doubles**: each addition adds its own error, and there are no more than that. -/
theorem within_foldl_add {lo hi : ℚ} {bound : ℕ} (hlo : 0 ≤ lo) (hhi : lo ≤ hi)
    (hbound : bound * (hi + 1) ≤ 2 ^ 51) (xs : List Binary64)
    (hxs : ∀ x ∈ xs, Within lo hi x) (hlen : xs.length ≤ bound) :
    Within (xs.length * (lo - (bound * (hi + 1) / 2 ^ 52 + 1 / 2 ^ 64)))
      (xs.length * (hi + (bound * (hi + 1) / 2 ^ 52 + 1 / 2 ^ 64)))
      (xs.foldl add (.finite 0)) := by
  generalize herr : (bound : ℚ) * (hi + 1) / 2 ^ 52 + 1 / 2 ^ 64 = err
  have hhi0 : 0 ≤ hi := hlo.trans hhi
  have herrPos : 0 ≤ err := by
    rw [← herr]
    positivity
  have herrLe : err ≤ 1 := by
    rw [← herr]
    linarith
  induction xs using List.reverseRecOn with
  | nil => exact ⟨0, rfl, by simp, by simp⟩
  | append_singleton xs x ih =>
    rw [List.length_append, List.length_singleton] at hlen ⊢
    obtain ⟨sum, hsum, hlow, hhigh⟩ := ih (fun y hy => hxs y (List.mem_append_left _ hy))
      (by omega)
    obtain ⟨q, rfl, hqlow, hqhigh⟩ := hxs x (by simp)
    have hlenq : (xs.length : ℚ) + 1 ≤ bound := by exact_mod_cast hlen
    have hlenPos : (0 : ℚ) ≤ xs.length := Nat.cast_nonneg _
    have hsize : |sum + q| ≤ bound * (hi + 1) := by
      rw [abs_le]
      constructor
      · nlinarith
      · nlinarith
    obtain ⟨next, hnext, herror⟩ := exists_ofRat_within hsize (hbound.trans (by norm_num))
    rw [herr, abs_le] at herror
    refine ⟨next, ?_, ?_, ?_⟩
    · rw [List.foldl_append, hsum, List.foldl_cons, List.foldl_nil, add_finite, hnext]
    · push_cast
      linarith
    · push_cast
      linarith

/-! ## A filter -/

/-- What the filter computes, but for the roundings. -/
theorem filter_bounds {lo hi slack c x y : ℚ} (hc : 1 ≤ c) (hx : lo - slack ≤ x ∧ x ≤ hi + slack)
    (hy : lo ≤ y ∧ y ≤ hi) :
    lo - slack + slack / c ≤ x - x / c + y / c ∧
      x - x / c + y / c ≤ hi + slack - slack / c := by
  have hcpos : 0 < c := by linarith
  have hkeep : 0 ≤ 1 - 1 / c := sub_nonneg.mpr (div_le_one_of_le₀ hc hcpos.le)
  have hnew : 0 ≤ 1 / c := by positivity
  have hsplit : ∀ z w, z - z / c + w / c = z * (1 - 1 / c) + w * (1 / c) := fun z w => by ring
  rw [hsplit]
  constructor
  · calc lo - slack + slack / c = (lo - slack) * (1 - 1 / c) + lo * (1 / c) := by ring
      _ ≤ x * (1 - 1 / c) + y * (1 / c) := by
        gcongr
        · exact hx.1
        · exact hy.1
  · calc x * (1 - 1 / c) + y * (1 / c) ≤ (hi + slack) * (1 - 1 / c) + hi * (1 / c) := by
          gcongr
          · exact hx.2
          · exact hy.2
      _ = hi + slack - slack / c := by ring

/-- A rounding of a small number. -/
theorem exists_ofRat_small {r : ℚ} (hlow : -4 ≤ r) (hhigh : r ≤ 4) :
    ∃ q, ofRat r = .finite q ∧ r - 1 / 2 ^ 49 ≤ q ∧ q ≤ r + 1 / 2 ^ 49 := by
  obtain ⟨q, hq, herror⟩ := exists_ofRat_within (abs_le.mpr ⟨hlow, hhigh⟩) (by norm_num)
  rw [abs_le] at herror
  exact ⟨q, hq, by linarith, by linarith⟩

/-- **A low-pass filter forgets its errors**: its four roundings are made up for by the part
of the old value that it drops. -/
theorem within_lowPass {lo hi slack : ℚ} {c : ℕ} {x y : Binary64} (hc : 0 < c) (hhi : hi ≤ 3)
    (hslack : 4 * c / 2 ^ 49 ≤ slack) (hslack' : slack ≤ lo) (hslack'' : slack ≤ 1 / 2)
    (hx : Within (lo - slack) (hi + slack) x) (hy : Within lo hi y) :
    Within (lo - slack) (hi + slack) (lowPass c x y) := by
  obtain ⟨x, rfl, hx⟩ := hx
  obtain ⟨y, rfl, hy⟩ := hy
  have hcq : (1 : ℚ) ≤ c := by exact_mod_cast hc
  have hcpos : (0 : ℚ) < c := by linarith
  have herrors : 4 / 2 ^ 49 ≤ slack / c := by
    rw [le_div_iff₀ hcpos]
    linarith
  obtain ⟨hlow, hhigh⟩ := filter_bounds hcq hx hy
  have hpart : ∀ z : ℚ, 0 ≤ z → 0 ≤ z / c ∧ z / c ≤ z := fun z hz =>
    ⟨div_nonneg hz hcpos.le, div_le_self hz hcq⟩
  obtain ⟨hxlow, hxhigh⟩ := hpart x (by linarith)
  obtain ⟨hylow, hyhigh⟩ := hpart y (by linarith)
  obtain ⟨dropped, hdropped, hdropped₁, hdropped₂⟩ := exists_ofRat_small (r := x / c)
    (by linarith) (by linarith)
  obtain ⟨kept, hkept, hkept₁, hkept₂⟩ := exists_ofRat_small (r := x - dropped)
    (by linarith) (by linarith)
  obtain ⟨new, hnew, hnew₁, hnew₂⟩ := exists_ofRat_small (r := y / c) (by linarith) (by linarith)
  obtain ⟨sum, hsum, hsum₁, hsum₂⟩ := exists_ofRat_small (r := kept + new)
    (by linarith) (by linarith)
  refine ⟨sum, ?_, by linarith, by linarith⟩
  simp only [lowPass, div_finite, hdropped, hnew, sub_finite, hkept, add_finite, hsum]

end Binary64
