import PacketForwarder.Lib.Decimal

/-!
# Reading a double off a text

The numerals C's `strtod` knows, in the "C" locale: decimal and hexadecimal ones with or
without a point and an exponent, and the words for infinity and for what is not a number.

* `strtod` — the double at the start of a text, and what follows it;
* `Scientific` — a decimal numeral with or without an exponent, as JSON has them;
* `Scientific.text`, `Scientific.value` — its text, and the number it stands for.

`strtod_text`: the text of such a numeral is read to its end, as the double nearest to it.
-/

/-! ## Characters -/

/-- `isspace`. -/
def isSpaceByte (c : BitVec 8) : Bool := c = 32 || (9 ≤ c && c ≤ 13)

/-- `isxdigit`. -/
def isHexDigit (c : BitVec 8) : Bool :=
  isDigitByte c || (65 ≤ c && c ≤ 70) || (97 ≤ c && c ≤ 102)

/-- The number a hexadecimal digit stands for. -/
def hexDigitValue (c : BitVec 8) : ℕ := if isDigitByte c then digitValue c else c.toNat % 32 + 9

/-- `tolower`. -/
def lowerCase (c : BitVec 8) : BitVec 8 := if 65 ≤ c ∧ c ≤ 90 then c + 32 else c

/-- A letter or a digit, or an underscore. -/
def isWordByte (c : BitVec 8) : Bool :=
  isDigitByte c || (97 ≤ lowerCase c && lowerCase c ≤ 122) || c = 95

/-! ## The parts of a numeral -/

/-- The number a row of digits stands for in a base. -/
def valueInBase (base : ℕ) (digitValue : BitVec 8 → ℕ) (ds : List (BitVec 8)) : ℕ :=
  ds.foldl (fun v c => base * v + digitValue c) 0

/-- `base ^ k`. -/
def powerOf (base : ℕ) : ℤ → ℚ
  | .ofNat k => ((base ^ k : ℕ) : ℚ)
  | .negSucc k => mkRat 1 (base ^ (k + 1))

/-- A sign, if there is one. -/
def readPlusMinus : List (BitVec 8) → Bool × List (BitVec 8)
  | [] => (false, [])
  | c :: s => if c = 45 then (true, s) else if c = 43 then (false, s) else (false, c :: s)

/-- The decimal places behind a point, if there is one. -/
def readPoint (isDigit : BitVec 8 → Bool) : List (BitVec 8) → List (BitVec 8) × List (BitVec 8)
  | [] => ([], [])
  | c :: s => if c = 46 then (s.takeWhile isDigit, s.dropWhile isDigit) else ([], c :: s)

/-- The digits in front of a point and behind it, at least one of them. -/
def readSignificand (isDigit : BitVec 8 → Bool) (s : List (BitVec 8)) :
    Option (List (BitVec 8) × List (BitVec 8) × List (BitVec 8)) :=
  let whole := s.takeWhile isDigit
  let (places, rest) := readPoint isDigit (s.dropWhile isDigit)
  if whole = [] ∧ places = [] then none else some (whole, places, rest)

/-- The exponent behind its letter, if there is one: without digits, the letter is not read. -/
def readExponent (letter : BitVec 8) : List (BitVec 8) → ℤ × List (BitVec 8)
  | [] => (0, [])
  | c :: s =>
    if lowerCase c = letter then
      let (negative, rest) := readPlusMinus s
      let ds := rest.takeWhile isDigitByte
      if ds = [] then (0, c :: s)
      else (if negative then -(valueOfDigits ds : ℤ) else valueOfDigits ds,
        rest.dropWhile isDigitByte)
    else (0, c :: s)

/-- The start of a text, whatever its case. -/
def startsWithWord (word s : List (BitVec 8)) : Bool := (s.take word.length).map lowerCase = word

/-! ## The function -/

/-- A decimal numeral without its sign. -/
def readDecimal (s : List (BitVec 8)) : Option (ℚ × List (BitVec 8)) :=
  (readSignificand isDigitByte s).map fun (whole, places, rest) =>
    let (exponent, rest) := readExponent 101 rest
    (valueOfDigits (whole ++ places) * powerOf 10 (exponent - places.length), rest)

/-- A hexadecimal numeral behind its `0x`. -/
def readHexadecimal (s : List (BitVec 8)) : Option (ℚ × List (BitVec 8)) :=
  (readSignificand isHexDigit s).map fun (whole, places, rest) =>
    let (exponent, rest) := readExponent 112 rest
    (valueInBase 16 hexDigitValue (whole ++ places) * powerOf 2 (exponent - 4 * places.length),
      rest)

/-- What follows the word `nan`: without a bracket at the end, nothing more is read. -/
def skipNanChars (s : List (BitVec 8)) : List (BitVec 8) :=
  match s with
  | [] => []
  | c :: s' =>
    if c = 40 then
      match s'.dropWhile isWordByte with
      | [] => s
      | d :: rest => if d = 41 then rest else s
    else s

/-- A number without its sign: the numeral, or the word. -/
def readUnsigned (negative : Bool) (s : List (BitVec 8)) :
    Option (Binary64 × List (BitVec 8)) :=
  let sign : ℚ := if negative then -1 else 1
  if startsWithWord [105, 110, 102, 105, 110, 105, 116, 121] s then
    some (.infinity negative, s.drop 8)
  else if startsWithWord [105, 110, 102] s then some (.infinity negative, s.drop 3)
  else if startsWithWord [110, 97, 110] s then some (.nan, skipNanChars (s.drop 3))
  else
    let hexadecimal := if startsWithWord [48, 120] s then readHexadecimal (s.drop 2) else none
    (hexadecimal.or (readDecimal s)).map fun (q, rest) => (.ofRat (sign * q), rest)

/-- `strtod`: the number, and the text from `end` on. -/
def strtod (s : List (BitVec 8)) : Binary64 × List (BitVec 8) :=
  let (negative, s') := readPlusMinus (s.dropWhile isSpaceByte)
  (readUnsigned negative s').getD (.finite 0, s)

/-! ## Numerals with an exponent -/

/-- An exponent: its letter, its sign and its digits. -/
structure Exponent where
  upper : Bool
  /-- The sign that is printed, a minus or a plus. -/
  sign : Option Bool
  width : ℕ
  value : ℕ
  width_pos : 0 < width
  value_lt : value < 10 ^ width

namespace Exponent

def signText : Option Bool → List (BitVec 8)
  | none => []
  | some true => [45]
  | some false => [43]

def text (e : Exponent) : List (BitVec 8) :=
  (if e.upper then 69 else 101) :: (signText e.sign ++ digits e.width e.value)

def toInt (e : Exponent) : ℤ := if e.sign = some true then -e.value else e.value

end Exponent

/-- A decimal numeral, with or without an exponent. -/
structure Scientific where
  significand : Decimal
  exponent : Option Exponent

namespace Scientific

def exponentText : Option Exponent → List (BitVec 8)
  | none => []
  | some e => e.text

def exponentToInt : Option Exponent → ℤ
  | none => 0
  | some e => e.toInt

/-- The text of a numeral, with its exponent if it has one. -/
def text (n : Scientific) : List (BitVec 8) := n.significand.text ++ exponentText n.exponent

/-- The number a numeral stands for. -/
def value (n : Scientific) : ℚ :=
  (if n.significand.negative then -1 else 1) *
    ((n.significand.whole * 10 ^ n.significand.places + n.significand.fraction : ℕ) *
      powerOf 10 (exponentToInt n.exponent - n.significand.places))

/-- What follows does not go on with the numeral. -/
def Ends (rest : List (BitVec 8)) : Prop :=
  ∀ c ∈ rest.head?, isDigitByte c = false ∧ c ≠ 46 ∧ lowerCase c ≠ 101 ∧ lowerCase c ≠ 120

end Scientific

/-! ## What is printed is read -/

theorem valueOfDigits_append (ds es : List (BitVec 8)) :
    valueOfDigits (ds ++ es) = valueOfDigits ds * 10 ^ es.length + valueOfDigits es := by
  induction es using List.reverseRecOn with
  | nil => simp [valueOfDigits]
  | append_singleton es c ih =>
    rw [← List.append_assoc, valueOfDigits_concat, ih, valueOfDigits_concat, List.length_append,
      List.length_singleton, pow_succ]
    ring

/-- A digit is no sign, no point and no letter. -/
theorem isDigitByte_ne {c : BitVec 8} (h : isDigitByte c = true) :
    c ≠ 45 ∧ c ≠ 43 ∧ c ≠ 46 ∧ lowerCase c = c ∧ c ≠ 105 ∧ c ≠ 110 ∧ isSpaceByte c = false := by
  revert c
  decide

theorem isDigitByte_digits_head {k n : ℕ} (hk : 0 < k) :
    ∃ c s, digits k n = c :: s ∧ isDigitByte c = true := by
  obtain ⟨k, rfl⟩ := Nat.exists_eq_succ_of_ne_zero hk.ne'
  exact ⟨_, _, digits_succ k n, (digit_cases (Nat.mod_lt _ (by decide))).1⟩

namespace Scientific

theorem Ends.noDigit {rest : List (BitVec 8)} (h : Ends rest) : NoDigit rest :=
  fun c hc => (h c hc).1

theorem readExponent_of_ends {rest : List (BitVec 8)} (h : Ends rest) :
    readExponent 101 rest = (0, rest) := by
  cases rest with
  | nil => rfl
  | cons c rest => rw [readExponent, if_neg (h c rfl).2.2.1]

/-- A sign in front of a digit is read, or that there is none. -/
theorem readPlusMinus_signText (sign : Option Bool) {c : BitVec 8} (s : List (BitVec 8))
    (hc : isDigitByte c = true) :
    readPlusMinus (Exponent.signText sign ++ c :: s) = (decide (sign = some true), c :: s) := by
  obtain ⟨hminus, hplus, -⟩ := isDigitByte_ne hc
  match sign with
  | none =>
    show (if c = 45 then _ else if c = 43 then _ else _) = _
    rw [if_neg hminus, if_neg hplus]
    rfl
  | some true => rfl
  | some false => rfl

theorem readExponent_text (e : Exponent) {rest : List (BitVec 8)} (h : NoDigit rest) :
    readExponent 101 (e.text ++ rest) = (e.toInt, rest) := by
  obtain ⟨c, s, hdigits, hc⟩ := isDigitByte_digits_head (n := e.value) e.width_pos
  obtain ⟨htake, hdrop⟩ := takeWhile_digits
    (isDigitByte_of_mem_digits (k := e.width) (n := e.value)) h
  have hletter : lowerCase (if e.upper then 69 else 101) = 101 := by
    cases e.upper with
    | true => decide
    | false => decide
  have hsign : readPlusMinus (Exponent.signText e.sign ++ digits e.width e.value ++ rest) =
      (decide (e.sign = some true), digits e.width e.value ++ rest) := by
    rw [hdigits, List.append_assoc, List.cons_append, readPlusMinus_signText _ _ hc]
  have hne : digits e.width e.value ≠ [] := by simp [hdigits]
  rw [Exponent.text, List.cons_append, readExponent, if_pos hletter, hsign]
  simp only [htake, hdrop, if_neg hne, valueOfDigits_digits e.value_lt, decide_eq_true_eq]
  rfl

/-- The exponent, and what follows it. -/
theorem readExponent_exponentText (e : Option Exponent) {rest : List (BitVec 8)} (h : Ends rest) :
    readExponent 101 (exponentText e ++ rest) = (exponentToInt e, rest) := by
  cases e with
  | none => exact readExponent_of_ends h
  | some e => exact readExponent_text e h.noDigit

/-- An exponent starts with its letter. -/
theorem noDigit_exponentText (e : Option Exponent) {rest : List (BitVec 8)} (h : Ends rest) :
    NoDigit (exponentText e ++ rest) ∧ (exponentText e ++ rest).head? ≠ some 46 := by
  cases e with
  | none => exact ⟨h.noDigit, fun heq => (h 46 heq).2.1 rfl⟩
  | some e =>
    rw [exponentText, Exponent.text]
    cases e.upper with
    | true => exact ⟨by rintro c ⟨⟩; decide, by simp⟩
    | false => exact ⟨by rintro c ⟨⟩; decide, by simp⟩

/-- The decimal places, and what follows them. -/
theorem readPoint_fractionText (d : Decimal) {rest : List (BitVec 8)} (h : NoDigit rest)
    (hpoint : rest.head? ≠ some 46) :
    readPoint isDigitByte (Decimal.fractionText d.places d.fraction ++ rest) =
      (digits d.places d.fraction, rest) := by
  by_cases hplaces : d.places = 0
  · rw [Decimal.fractionText, if_pos hplaces, hplaces, List.nil_append]
    cases rest with
    | nil => rfl
    | cons c rest =>
      have hc : c ≠ 46 := fun heq => hpoint (congrArg some heq)
      rw [readPoint, if_neg hc]
      rfl
  · obtain ⟨htake, hdrop⟩ := takeWhile_digits
      (isDigitByte_of_mem_digits (k := d.places) (n := d.fraction)) h
    rw [Decimal.fractionText, if_neg hplaces, List.cons_append, readPoint, if_pos rfl, htake, hdrop]

/-- A numeral is read without its sign. -/
theorem readDecimal_text (n : Scientific) {rest : List (BitVec 8)} (h : Ends rest) :
    readDecimal (digits (decimalWidth n.significand.whole) n.significand.whole ++
        (Decimal.fractionText n.significand.places n.significand.fraction ++
          (exponentText n.exponent ++ rest))) =
      some ((n.significand.whole * 10 ^ n.significand.places + n.significand.fraction : ℕ) *
        powerOf 10 (exponentToInt n.exponent - n.significand.places), rest) := by
  obtain ⟨hexp, hpoint⟩ := noDigit_exponentText n.exponent h
  obtain ⟨htake, hdrop⟩ := takeWhile_digits
    (isDigitByte_of_mem_digits (k := decimalWidth n.significand.whole) (n := n.significand.whole))
    (Decimal.noDigit_fractionText n.significand hexp)
  have hne : digits (decimalWidth n.significand.whole) n.significand.whole ≠ [] := by
    rw [ne_eq, ← List.length_eq_zero_iff, length_digits]
    exact Nat.succ_ne_zero _
  have hvalue : valueOfDigits (digits (decimalWidth n.significand.whole) n.significand.whole ++
      digits n.significand.places n.significand.fraction) =
      n.significand.whole * 10 ^ n.significand.places + n.significand.fraction := by
    rw [valueOfDigits_append, valueOfDigits_digits (lt_pow_decimalWidth _),
      valueOfDigits_digits n.significand.fraction_lt, length_digits]
  have hread : readSignificand isDigitByte
      (digits (decimalWidth n.significand.whole) n.significand.whole ++
        (Decimal.fractionText n.significand.places n.significand.fraction ++
          (exponentText n.exponent ++ rest))) =
      some (digits (decimalWidth n.significand.whole) n.significand.whole,
        digits n.significand.places n.significand.fraction, exponentText n.exponent ++ rest) := by
    unfold readSignificand
    simp only [htake, hdrop, readPoint_fractionText n.significand hexp hpoint,
      if_neg fun hnil => hne (And.left hnil)]
  unfold readDecimal
  rw [hread]
  simp only [Option.map_some, readExponent_exponentText n.exponent h, hvalue, length_digits]

/-- The characters that a numeral can be written with. -/
def isNumeralByte (c : BitVec 8) : Bool :=
  isDigitByte c || c = 43 || c = 45 || c = 46 || c = 69 || c = 101

theorem lowerCase_ne_of_isNumeralByte {c : BitVec 8} (h : isNumeralByte c = true) :
    lowerCase c ≠ 120 ∧ c ≠ 120 ∧ c ≠ 88 := by
  revert c
  decide

theorem isNumeralByte_of_isDigitByte {c : BitVec 8} (h : isDigitByte c = true) :
    isNumeralByte c = true := by
  simp [isNumeralByte, h]

/-- The text of a numeral without its sign. -/
def unsignedText (n : Scientific) : List (BitVec 8) :=
  digits (decimalWidth n.significand.whole) n.significand.whole ++
    (Decimal.fractionText n.significand.places n.significand.fraction ++ exponentText n.exponent)

theorem text_eq (n : Scientific) :
    n.text = Decimal.signText n.significand.negative ++ n.unsignedText := by
  simp [text, unsignedText, Decimal.text]

theorem isNumeralByte_of_mem_fractionText {places fraction : ℕ} :
    ∀ c ∈ Decimal.fractionText places fraction, isNumeralByte c = true := by
  unfold Decimal.fractionText
  split
  · simp
  · intro c hc
    rcases List.mem_cons.mp hc with rfl | hdigit
    · decide
    · exact isNumeralByte_of_isDigitByte (isDigitByte_of_mem_digits c hdigit)

theorem isNumeralByte_of_mem_exponentText {e : Option Exponent} :
    ∀ c ∈ exponentText e, isNumeralByte c = true := by
  cases e with
  | none => simp [exponentText]
  | some e =>
    have hsign : ∀ c ∈ Exponent.signText e.sign, isNumeralByte c = true := by
      rcases e.sign with _ | _ | _ <;> decide
    intro c hc
    rcases List.mem_cons.mp hc with rfl | hrest
    · cases e.upper <;> decide
    · rcases List.mem_append.mp hrest with hmem | hdigit
      · exact hsign c hmem
      · exact isNumeralByte_of_isDigitByte (isDigitByte_of_mem_digits c hdigit)

theorem isNumeralByte_of_mem_unsignedText (n : Scientific) :
    ∀ c ∈ n.unsignedText, isNumeralByte c = true := by
  intro c hc
  rcases List.mem_append.mp hc with hdigit | hrest
  · exact isNumeralByte_of_isDigitByte (isDigitByte_of_mem_digits c hdigit)
  · rcases List.mem_append.mp hrest with hfraction | hexponent
    · exact isNumeralByte_of_mem_fractionText c hfraction
    · exact isNumeralByte_of_mem_exponentText c hexponent

theorem isNumeralByte_of_mem_text (n : Scientific) : ∀ c ∈ n.text, isNumeralByte c = true := by
  intro c hc
  rw [text_eq] at hc
  rcases List.mem_append.mp hc with hsign | hrest
  · unfold Decimal.signText at hsign
    split at hsign
    · rw [List.mem_singleton.mp hsign]
      decide
    · exact absurd hsign List.not_mem_nil
  · exact isNumeralByte_of_mem_unsignedText n c hrest

/-- A numeral starts with a digit behind its sign. -/
theorem exists_unsignedText_eq (n : Scientific) :
    ∃ c s, n.unsignedText = c :: s ∧ isDigitByte c = true := by
  obtain ⟨c, s, hdigits, hc⟩ := isDigitByte_digits_head (n := n.significand.whole)
    (Nat.succ_pos (Nat.log 10 n.significand.whole))
  refine ⟨c, s ++ (Decimal.fractionText n.significand.places n.significand.fraction ++
    exponentText n.exponent), ?_, hc⟩
  rw [unsignedText, decimalWidth, hdigits, List.cons_append]

/-- No numeral starts like a hexadecimal one. -/
theorem not_startsWithWord_unsignedText (n : Scientific) {rest : List (BitVec 8)} (h : Ends rest) :
    startsWithWord [48, 120] (n.unsignedText ++ rest) = false := by
  obtain ⟨c, s, hs, -⟩ := exists_unsignedText_eq n
  have hnext : ∀ d ∈ (s ++ rest).head?, lowerCase d ≠ 120 := by
    intro d hd
    cases hs' : s with
    | nil =>
      rw [hs', List.nil_append] at hd
      exact (h d hd).2.2.2
    | cons d' s' =>
      rw [hs', List.cons_append] at hd
      have hmem : d ∈ n.unsignedText := by
        rw [hs, hs', ← Option.some.inj hd]
        simp
      exact (lowerCase_ne_of_isNumeralByte (isNumeralByte_of_mem_unsignedText n d hmem)).1
  rw [hs, List.cons_append]
  cases htail : s ++ rest with
  | nil => simp [startsWithWord]
  | cons d t =>
    rw [htail] at hnext
    have hd : lowerCase d ≠ 120 := hnext d rfl
    refine decide_eq_false fun heq => hd ?_
    simpa using congrArg List.tail heq

/-- A digit does not begin one of the words either. -/
theorem not_startsWithWord_of_isDigitByte {c d : BitVec 8} (hc : isDigitByte c = true)
    (hd : d = 105 ∨ d = 110) (word s : List (BitVec 8)) :
    startsWithWord (d :: word) (c :: s) = false := by
  obtain ⟨-, -, -, hlower, hi, hn, -⟩ := isDigitByte_ne hc
  have hne : c ≠ d := by
    rcases hd with rfl | rfl
    · exact hi
    · exact hn
  simp [startsWithWord, hlower, hne]

end Scientific

/-- **A decimal numeral is read to its end, as the double nearest to it.** -/
theorem strtod_text (n : Scientific) {rest : List (BitVec 8)} (h : Scientific.Ends rest) :
    strtod (n.text ++ rest) = (.ofRat n.value, rest) := by
  obtain ⟨c, s, hs, hc⟩ := n.exists_unsignedText_eq
  have hspace : (n.text ++ rest).dropWhile isSpaceByte = n.text ++ rest := by
    obtain ⟨-, -, -, -, -, -, hblank⟩ := isDigitByte_ne hc
    have hminus : ¬isSpaceByte 45 = true := by decide
    rw [Scientific.text_eq, hs]
    cases n.significand.negative with
    | true => exact List.dropWhile_cons_of_neg hminus
    | false => exact List.dropWhile_cons_of_neg (by simp [hblank])
  have hsign : readPlusMinus (n.text ++ rest) =
      (n.significand.negative, n.unsignedText ++ rest) := by
    obtain ⟨hminus, hplus, -⟩ := isDigitByte_ne hc
    rw [Scientific.text_eq, hs]
    cases n.significand.negative with
    | true => rfl
    | false =>
      show (if c = 45 then _ else if c = 43 then _ else _) = _
      rw [if_neg hminus, if_neg hplus]
      rfl
  have hdecimal : readDecimal (n.unsignedText ++ rest) =
      some ((n.significand.whole * 10 ^ n.significand.places + n.significand.fraction : ℕ) *
        powerOf 10 (Scientific.exponentToInt n.exponent - n.significand.places), rest) := by
    have hread := Scientific.readDecimal_text n h
    simpa only [Scientific.unsignedText, List.append_assoc] using hread
  have hwords : startsWithWord [105, 110, 102, 105, 110, 105, 116, 121] (n.unsignedText ++ rest) =
      false ∧ startsWithWord [105, 110, 102] (n.unsignedText ++ rest) = false ∧
      startsWithWord [110, 97, 110] (n.unsignedText ++ rest) = false := by
    rw [hs, List.cons_append]
    exact ⟨Scientific.not_startsWithWord_of_isDigitByte hc (.inl rfl) _ _,
      Scientific.not_startsWithWord_of_isDigitByte hc (.inl rfl) _ _,
      Scientific.not_startsWithWord_of_isDigitByte hc (.inr rfl) _ _⟩
  obtain ⟨hinfinity, hinf, hnan⟩ := hwords
  unfold strtod
  rw [hspace, hsign]
  simp only [readUnsigned, hinfinity, hinf, hnan, n.not_startsWithWord_unsignedText h, hdecimal,
    Bool.false_eq_true, if_false, Option.none_or, Option.map_some, Option.getD_some]
  rfl

/-! ## What is left is an end of the text -/

theorem readPlusMinus_suffix (s : List (BitVec 8)) : (readPlusMinus s).2 <:+ s := by
  cases s with
  | nil => exact List.suffix_rfl
  | cons c s =>
    rw [readPlusMinus]
    split
    · exact List.suffix_cons c s
    · split
      · exact List.suffix_cons c s
      · exact List.suffix_rfl

theorem readPoint_suffix (isDigit : BitVec 8 → Bool) (s : List (BitVec 8)) :
    (readPoint isDigit s).2 <:+ s := by
  cases s with
  | nil => exact List.suffix_rfl
  | cons c s =>
    rw [readPoint]
    split
    · exact (List.dropWhile_suffix _).trans (List.suffix_cons c s)
    · exact List.suffix_rfl

theorem readSignificand_suffix {isDigit : BitVec 8 → Bool} {s whole places rest : List (BitVec 8)}
    (h : readSignificand isDigit s = some (whole, places, rest)) : rest <:+ s := by
  unfold readSignificand at h
  simp only at h
  split at h
  · cases h
  · cases h
    exact (readPoint_suffix _ _).trans (List.dropWhile_suffix _)

theorem readExponent_suffix (letter : BitVec 8) (s : List (BitVec 8)) :
    (readExponent letter s).2 <:+ s := by
  cases s with
  | nil => exact List.suffix_rfl
  | cons c s =>
    rw [readExponent]
    split
    · simp only
      split
      · exact List.suffix_rfl
      · exact ((List.dropWhile_suffix _).trans (readPlusMinus_suffix s)).trans
          (List.suffix_cons c s)
    · exact List.suffix_rfl

theorem readDecimal_suffix {s rest : List (BitVec 8)} {q : ℚ}
    (h : readDecimal s = some (q, rest)) : rest <:+ s := by
  obtain ⟨⟨whole, places, rest'⟩, hread, heq⟩ := Option.map_eq_some_iff.mp h
  obtain ⟨-, rfl⟩ := Prod.mk.inj heq
  exact (readExponent_suffix _ _).trans (readSignificand_suffix hread)

theorem readHexadecimal_suffix {s rest : List (BitVec 8)} {q : ℚ}
    (h : readHexadecimal s = some (q, rest)) : rest <:+ s := by
  obtain ⟨⟨whole, places, rest'⟩, hread, heq⟩ := Option.map_eq_some_iff.mp h
  obtain ⟨-, rfl⟩ := Prod.mk.inj heq
  exact (readExponent_suffix _ _).trans (readSignificand_suffix hread)

theorem skipNanChars_suffix (s : List (BitVec 8)) : skipNanChars s <:+ s := by
  unfold skipNanChars
  split
  · exact List.suffix_rfl
  · next c s =>
    split
    · split
      · exact List.suffix_rfl
      · next d rest hdrop =>
        split
        · have hsuffix : d :: rest <:+ s := hdrop ▸ List.dropWhile_suffix _
          exact ((List.suffix_cons d rest).trans hsuffix).trans (List.suffix_cons c s)
        · exact List.suffix_rfl
    · exact List.suffix_rfl

theorem readUnsigned_suffix {negative : Bool} {s rest : List (BitVec 8)} {x : Binary64}
    (h : readUnsigned negative s = some (x, rest)) : rest <:+ s := by
  unfold readUnsigned at h
  simp only at h
  split at h
  · cases h
    exact List.drop_suffix _ _
  · split at h
    · cases h
      exact List.drop_suffix _ _
    · split at h
      · cases h
        exact (skipNanChars_suffix _).trans (List.drop_suffix _ _)
      · obtain ⟨⟨q, rest'⟩, hread, heq⟩ := Option.map_eq_some_iff.mp h
        obtain ⟨-, rfl⟩ := Prod.mk.inj heq
        rcases Option.or_eq_some_iff.mp hread with hhex | ⟨-, hdec⟩
        · split at hhex
          · exact (readHexadecimal_suffix hhex).trans (List.drop_suffix _ _)
          · cases hhex
        · exact readDecimal_suffix hdec

/-- `end` is never in front of the text. -/
theorem strtod_suffix (s : List (BitVec 8)) : (strtod s).2 <:+ s := by
  unfold strtod
  simp only
  cases hread : readUnsigned (readPlusMinus (s.dropWhile isSpaceByte)).1
      (readPlusMinus (s.dropWhile isSpaceByte)).2 with
  | none => exact List.suffix_rfl
  | some p =>
    obtain ⟨x, rest⟩ := p
    exact ((readUnsigned_suffix hread).trans (readPlusMinus_suffix _)).trans
      (List.dropWhile_suffix _)
