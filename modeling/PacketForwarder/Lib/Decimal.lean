import PacketForwarder.Lib.Binary64

/-!
# Decimal numerals

Numbers as programs print them and as a parser reads them back, over bytes.

* `digits` — the last digits of a number, as many as are asked for;
* `Decimal` — a numeral: a sign, a whole part and some decimal places;
* `Decimal.text` — its text; `Decimal.read` — the numeral at the start of a text;
* `Decimal.fixed` — the numeral of a rational with a given number of places, rounded to
  nearest, ties to even, as `printf("%.nf")` does.

`Decimal.read_text`: what is printed is read back, and nothing more is read.
-/

/-! ## Digits -/

/-- The digit of a number below ten. -/
def digit (d : ℕ) : BitVec 8 := BitVec.ofNat 8 (48 + d)

/-- A byte is a digit where it is one of `0` to `9`. -/
def isDigitByte (c : BitVec 8) : Bool := 48 ≤ c && c ≤ 57

/-- The number a digit stands for. -/
def digitValue (c : BitVec 8) : ℕ := c.toNat - 48

/-- The `k` last decimal digits of `n`. -/
def digits : ℕ → ℕ → List (BitVec 8)
  | 0, _ => []
  | k + 1, n => digits k (n / 10) ++ [digit (n % 10)]

/-- The number a row of digits stands for. -/
def valueOfDigits (ds : List (BitVec 8)) : ℕ := ds.foldl (fun v c => 10 * v + digitValue c) 0

/-- The number of digits that `n` is written with. -/
def decimalWidth (n : ℕ) : ℕ := Nat.log 10 n + 1

theorem digit_cases {d : ℕ} (h : d < 10) :
    isDigitByte (digit d) = true ∧ digitValue (digit d) = d := by
  revert d
  decide

theorem digitValue_lt {c : BitVec 8} (h : isDigitByte c = true) : digitValue c < 10 := by
  simp only [isDigitByte, Bool.and_eq_true, decide_eq_true_eq, BitVec.le_def] at h
  have hmax : c.toNat ≤ 57 := h.2
  unfold digitValue
  omega

@[simp] theorem length_digits (k n : ℕ) : (digits k n).length = k := by
  induction k generalizing n with
  | zero => rfl
  | succ k ih => simp [digits, ih]

theorem isDigitByte_of_mem_digits {k n : ℕ} : ∀ c ∈ digits k n, isDigitByte c = true := by
  induction k generalizing n with
  | zero => exact fun c h => absurd h List.not_mem_nil
  | succ k ih =>
    intro c h
    rcases List.mem_append.mp h with hmem | hmem
    · exact ih c hmem
    · rw [List.mem_singleton.mp hmem]
      exact (digit_cases (Nat.mod_lt n (by decide))).1

theorem valueOfDigits_concat (ds : List (BitVec 8)) (c : BitVec 8) :
    valueOfDigits (ds ++ [c]) = 10 * valueOfDigits ds + digitValue c := by
  simp [valueOfDigits]

/-- Digits are read back, all but those that were cut off. -/
theorem valueOfDigits_digits {k n : ℕ} (h : n < 10 ^ k) : valueOfDigits (digits k n) = n := by
  induction k generalizing n with
  | zero =>
    rw [pow_zero, Nat.lt_one_iff] at h
    rw [h]
    rfl
  | succ k ih =>
    have hlt : n / 10 < 10 ^ k := by
      rw [Nat.div_lt_iff_lt_mul (by decide)]
      rwa [pow_succ] at h
    rw [digits, valueOfDigits_concat, ih hlt, (digit_cases (Nat.mod_lt n (by decide))).2]
    omega

theorem valueOfDigits_lt {ds : List (BitVec 8)} (h : ∀ c ∈ ds, isDigitByte c = true) :
    valueOfDigits ds < 10 ^ ds.length := by
  induction ds using List.reverseRecOn with
  | nil => decide
  | append_singleton ds c ih =>
    have hlt := ih fun x hx => h x (List.mem_append_left _ hx)
    have hc := digitValue_lt (h c (List.mem_append_right _ (List.mem_singleton_self c)))
    rw [valueOfDigits_concat, List.length_append, List.length_singleton, pow_succ]
    omega

theorem lt_pow_decimalWidth (n : ℕ) : n < 10 ^ decimalWidth n :=
  Nat.lt_pow_succ_log_self (by decide) n

/-- `decimalWidth` is the least width that holds the number. -/
theorem decimalWidth_le {n k : ℕ} (hk : k ≠ 0) (h : n < 10 ^ k) : decimalWidth n ≤ k := by
  obtain ⟨k, rfl⟩ := Nat.exists_eq_succ_of_ne_zero hk
  exact Nat.succ_le_succ (Nat.lt_succ_iff.mp (Nat.log_lt_of_lt_pow' (Nat.succ_ne_zero k) h))

/-- The first of the digits is the highest. -/
theorem digits_succ (k n : ℕ) : digits (k + 1) n = digit (n / 10 ^ k % 10) :: digits k n := by
  induction k generalizing n with
  | zero => simp [digits]
  | succ k ih =>
    rw [digits, ih, List.cons_append, Nat.div_div_eq_div_mul, ← pow_succ']
    rfl

/-- A number of two digits or more does not start with a zero. -/
theorem head_digits_decimalWidth {n : ℕ} (h : 1 < decimalWidth n) :
    (digits (decimalWidth n) n).head? ≠ some 48 := by
  have hn : n ≠ 0 := by
    rintro rfl
    exact absurd h (by decide)
  have hlow : 10 ^ Nat.log 10 n ≤ n := Nat.pow_log_le_self 10 hn
  have hhigh : n < 10 ^ Nat.log 10 n * 10 := lt_pow_decimalWidth n
  have hpos : 0 < n / 10 ^ Nat.log 10 n := Nat.div_pos hlow (by positivity)
  have hlt : n / 10 ^ Nat.log 10 n < 10 := Nat.div_lt_of_lt_mul hhigh
  have hdigit : ∀ d < 10, 0 < d → digit d ≠ 48 := by decide
  rw [decimalWidth, digits_succ, List.head?_cons, Nat.mod_eq_of_lt hlt]
  exact fun heq => hdigit _ hlt hpos (Option.some.inj heq)

/-! ## Taking digits off a text -/

/-- What follows a number does not begin with another digit. -/
def NoDigit (rest : List (BitVec 8)) : Prop := ∀ c ∈ rest.head?, isDigitByte c = false

theorem takeWhile_digits {ds rest : List (BitVec 8)} (h : ∀ c ∈ ds, isDigitByte c = true)
    (hrest : NoDigit rest) :
    (ds ++ rest).takeWhile isDigitByte = ds ∧ (ds ++ rest).dropWhile isDigitByte = rest := by
  induction ds with
  | nil =>
    cases rest with
    | nil => exact ⟨rfl, rfl⟩
    | cons c rest =>
      have hc : isDigitByte c = false := hrest c rfl
      simp [hc]
  | cons d ds ih =>
    have hd := h d List.mem_cons_self
    obtain ⟨htake, hdrop⟩ := ih fun c hc => h c (List.mem_cons_of_mem d hc)
    simp [hd, htake, hdrop]

/-! ## Numerals -/

/-- A numeral is a signed whole number with some decimal places. -/
structure Decimal where
  negative : Bool
  whole : ℕ
  /-- The number of decimal places. -/
  places : ℕ
  /-- The decimal places, as a number. -/
  fraction : ℕ
  fraction_lt : fraction < 10 ^ places

namespace Decimal

@[ext] theorem ext {d e : Decimal} (hnegative : d.negative = e.negative)
    (hwhole : d.whole = e.whole) (hplaces : d.places = e.places)
    (hfraction : d.fraction = e.fraction) : d = e := by
  cases d
  cases e
  simp_all

/-- A number of digits without a sign. -/
def ofNat (n : ℕ) : Decimal := ⟨false, n, 0, 0, by decide⟩

/-- An integer is a numeral without decimal places. -/
def ofInt (z : ℤ) : Decimal := ⟨z < 0, z.natAbs, 0, 0, by decide⟩

/-- A number with a sign, to a number of decimal places. -/
def fixed (places : ℕ) (negative : Bool) (magnitude : ℚ≥0) : Decimal :=
  let scaled := (Binary64.nearest (magnitude * 10 ^ places)).toNat
  ⟨negative, scaled / 10 ^ places, places, scaled % 10 ^ places, Nat.mod_lt _ (by positivity)⟩

/-- A number next to one with as many places is printed as that one. -/
theorem fixed_eq {places n : ℕ} {negative : Bool} {magnitude : ℚ≥0}
    (h : |(magnitude : ℚ) * 10 ^ places - n| < 1 / 2) :
    fixed places negative magnitude =
      ⟨negative, n / 10 ^ places, places, n % 10 ^ places, Nat.mod_lt _ (by positivity)⟩ := by
  have hn : (Binary64.nearest (magnitude * 10 ^ places)).toNat = n := by
    rw [Binary64.nearest_eq_of_abs_sub_lt (n := n) (by exact_mod_cast h)]
    exact Int.toNat_natCast n
  simp only [fixed, hn]

/-- The sign of a numeral is only written where it is negative. -/
def signText (negative : Bool) : List (BitVec 8) := if negative then [45] else []

/-- The decimal places, with their point. -/
def fractionText (places fraction : ℕ) : List (BitVec 8) :=
  if places = 0 then [] else 46 :: digits places fraction

/-- The text of a numeral, with all its decimal places. -/
def text (d : Decimal) : List (BitVec 8) :=
  signText d.negative ++ digits (decimalWidth d.whole) d.whole ++ fractionText d.places d.fraction

/-- The length of the text that a numeral is written as. -/
def width (d : Decimal) : ℕ :=
  d.negative.toNat + decimalWidth d.whole + if d.places = 0 then 0 else d.places + 1

@[simp] theorem length_text (d : Decimal) : d.text.length = d.width := by
  have hsign : (signText d.negative).length = d.negative.toNat := by
    cases d.negative with
    | false => rfl
    | true => rfl
  unfold text width fractionText
  rw [List.length_append, List.length_append, hsign, length_digits]
  split <;> simp

/-! ## Reading -/

/-- The integer an integral numeral stands for. -/
def toInt? (d : Decimal) : Option ℤ :=
  if d.places = 0 then some (if d.negative then -d.whole else d.whole) else none

@[simp] theorem toInt?_ofNat (n : ℕ) : (ofNat n).toInt? = some ↑n := rfl

@[simp] theorem toInt?_ofInt (z : ℤ) : (ofInt z).toInt? = some z := by
  unfold toInt? ofInt
  rw [if_pos rfl]
  by_cases h : z < 0
  · simp only [h, decide_true, if_true]
    rw [Int.ofNat_natAbs_of_nonpos h.le, neg_neg]
  · simp only [h, decide_false, Bool.false_eq_true, if_false]
    rw [Int.natAbs_of_nonneg (not_lt.mp h)]

/-- A minus sign is read where there is one. -/
def readSign : List (BitVec 8) → Bool × List (BitVec 8)
  | [] => (false, [])
  | c :: s => if c = 45 then (true, s) else (false, c :: s)

/-- The whole part: at least one digit, and no needless zero in front. -/
def readWhole (s : List (BitVec 8)) : Option (ℕ × List (BitVec 8)) :=
  let ds := s.takeWhile isDigitByte
  if ds = [] ∨ 1 < ds.length ∧ ds.head? = some 48 then none
  else some (valueOfDigits ds, s.dropWhile isDigitByte)

/-- A numeral with the given decimal places. -/
def withPlaces (negative : Bool) (whole : ℕ) (s : List (BitVec 8)) : Decimal :=
  ⟨negative, whole, (s.takeWhile isDigitByte).length, valueOfDigits (s.takeWhile isDigitByte),
    valueOfDigits_lt fun _ h => List.mem_takeWhile_imp h⟩

/-- The decimal places, if a point follows. -/
def readPlaces (negative : Bool) (whole : ℕ) (s : List (BitVec 8)) :
    Option (Decimal × List (BitVec 8)) :=
  match s with
  | [] => some (withPlaces negative whole [], [])
  | c :: s' =>
    if c = 46 then
      if s'.takeWhile isDigitByte = [] then none
      else some (withPlaces negative whole s', s'.dropWhile isDigitByte)
    else some (withPlaces negative whole [], c :: s')

/-- The numeral a text starts with, and what follows. -/
def read (s : List (BitVec 8)) : Option (Decimal × List (BitVec 8)) :=
  (readWhole (readSign s).2).bind fun (whole, s') => readPlaces (readSign s).1 whole s'

/-- What follows does not go on with the numeral. -/
def Ends (rest : List (BitVec 8)) : Prop := NoDigit rest ∧ rest.head? ≠ some 46

theorem readSign_signText (negative : Bool) {s : List (BitVec 8)} (h : s.head? ≠ some 45) :
    readSign (signText negative ++ s) = (negative, s) := by
  cases negative with
  | true => rfl
  | false =>
    cases s with
    | nil => rfl
    | cons c s =>
      have hc : c ≠ 45 := fun heq => h (congrArg some heq)
      show (if c = 45 then _ else _) = _
      rw [if_neg hc]

theorem readWhole_digits (n : ℕ) {rest : List (BitVec 8)} (h : NoDigit rest) :
    readWhole (digits (decimalWidth n) n ++ rest) = some (n, rest) := by
  obtain ⟨htake, hdrop⟩ := takeWhile_digits (isDigitByte_of_mem_digits (n := n)) h
  have hne : digits (decimalWidth n) n ≠ [] := by
    rw [ne_eq, ← List.length_eq_zero_iff, length_digits]
    exact Nat.succ_ne_zero _
  have hlead : ¬(1 < (digits (decimalWidth n) n).length ∧
      (digits (decimalWidth n) n).head? = some 48) := by
    rw [length_digits]
    exact fun hzero => head_digits_decimalWidth hzero.1 hzero.2
  unfold readWhole
  rw [htake, hdrop, if_neg (not_or.mpr ⟨hne, hlead⟩), valueOfDigits_digits (lt_pow_decimalWidth n)]

theorem readPlaces_fractionText (d : Decimal) {rest : List (BitVec 8)} (h : Ends rest) :
    readPlaces d.negative d.whole (fractionText d.places d.fraction ++ rest) = some (d, rest) := by
  by_cases hplaces : d.places = 0
  · have hfraction : d.fraction = 0 := by
      have hlt := d.fraction_lt
      rw [hplaces] at hlt
      omega
    have hd : withPlaces d.negative d.whole [] = d :=
      Decimal.ext rfl rfl hplaces.symm hfraction.symm
    rw [fractionText, if_pos hplaces, List.nil_append]
    cases rest with
    | nil => rw [readPlaces, hd]
    | cons c rest =>
      have hc : c ≠ 46 := fun heq => h.2 (congrArg some heq)
      rw [readPlaces, if_neg hc, hd]
  · obtain ⟨htake, hdrop⟩ := takeWhile_digits
      (isDigitByte_of_mem_digits (k := d.places) (n := d.fraction)) h.1
    have hne : digits d.places d.fraction ≠ [] := by
      rwa [ne_eq, ← List.length_eq_zero_iff, length_digits]
    have hd : withPlaces d.negative d.whole (digits d.places d.fraction ++ rest) = d := by
      refine Decimal.ext rfl rfl ?_ ?_
      · show ((digits d.places d.fraction ++ rest).takeWhile isDigitByte).length = d.places
        rw [htake, length_digits]
      · show valueOfDigits ((digits d.places d.fraction ++ rest).takeWhile isDigitByte) = d.fraction
        rw [htake, valueOfDigits_digits d.fraction_lt]
    rw [fractionText, if_neg hplaces, List.cons_append, readPlaces, if_pos rfl, htake, if_neg hne,
      hdrop, hd]

/-- The decimal places start with a point, if there are any. -/
theorem noDigit_fractionText (d : Decimal) {rest : List (BitVec 8)} (h : NoDigit rest) :
    NoDigit (fractionText d.places d.fraction ++ rest) := by
  unfold fractionText
  split
  · exact h
  · rintro c ⟨⟩
    decide

/-- **A numeral is read back.**  Nothing but its text is read. -/
theorem read_text (d : Decimal) {rest : List (BitVec 8)} (h : Ends rest) :
    read (d.text ++ rest) = some (d, rest) := by
  have hsign : (digits (decimalWidth d.whole) d.whole ++
      (fractionText d.places d.fraction ++ rest)).head? ≠ some 45 := by
    rw [decimalWidth, digits_succ, List.cons_append, List.head?_cons]
    have hdigit : ∀ n < 10, digit n ≠ 45 := by decide
    exact fun heq => hdigit _ (Nat.mod_lt _ (by decide)) (Option.some.inj heq)
  unfold read text
  rw [List.append_assoc, List.append_assoc, readSign_signText d.negative hsign,
    readWhole_digits d.whole (noDigit_fractionText d h.1)]
  exact readPlaces_fractionText d h

end Decimal
