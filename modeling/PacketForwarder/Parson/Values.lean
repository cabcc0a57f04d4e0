import PacketForwarder.Parson.Strings

/-!
# Values are read as they are meant

The parser on the text of a tree without comments.

* `syntaxValue` — the value a tree stands for;
* `accepts` — what the parser accepts: no more levels, members and items than its limits,
  no name twice, and no number `0` with an exponent but without a point;
* `parseValue_text` — the text of a tree is read as its value if it is accepted, else refused.

The proof is by recursion on the tree.  What the two loops have gathered so far is any list
within the limits: `Grown` says how far its capacity has come.
-/

namespace PacketForwarder

/-! ## What a tree stands for -/

/-- The name a key stands for, to its terminator. -/
def keyName (key : Key) : CString := (key.name.flatMap StringPiece.bytes).takeWhile (· ≠ 0)

mutual

/-- The value a tree stands for. -/
def syntaxValue : JsonSyntax → JsonValue
  | .null => .null
  | .boolean b => .boolean b
  | .number n => .number (.ofRat n.value)
  | .string pieces => .string (pieces.flatMap StringPiece.bytes)
  | .emptyArray _ => .array []
  | .array items => .array (itemsValues items)
  | .emptyObject _ => .object []
  | .object members => .object (membersFields members)

def itemsValues : JsonItems → List JsonValue
  | .last _ v _ => [syntaxValue v]
  | .more _ v _ rest => syntaxValue v :: itemsValues rest

def membersFields : JsonMembers → JsonObject
  | .last key _ v _ => [(keyName key, syntaxValue v)]
  | .more key _ v _ rest => (keyName key, syntaxValue v) :: membersFields rest

end

/-- The root of a text has to be an array or an object. -/
def isContainer : JsonSyntax → Bool
  | .emptyArray _ | .array _ | .emptyObject _ | .object _ => true
  | _ => false

/-- `0` with an exponent needs a point. -/
def numberAccepted (n : Scientific) : Bool :=
  ¬(n.significand.whole = 0 ∧ n.significand.places = 0 ∧ n.exponent.isSome)

mutual

/-- What the parser accepts with so many levels left. -/
def accepts : ℕ → JsonSyntax → Bool
  | 0, _ => false
  | _ + 1, .null | _ + 1, .boolean _ | _ + 1, .string _ => true
  | _ + 1, .emptyArray _ | _ + 1, .emptyObject _ => true
  | _ + 1, .number n => numberAccepted n
  | levels + 1, .array items =>
    acceptsItems levels items && (itemsValues items).length ≤ arrayMaxCapacity
  | levels + 1, .object members =>
    acceptsMembers levels members && ((membersFields members).map Prod.fst).Nodup &&
      (membersFields members).length ≤ objectMaxCapacity

def acceptsItems : ℕ → JsonItems → Bool
  | levels, .last _ v _ => accepts levels v
  | levels, .more _ v _ rest => accepts levels v && acceptsItems levels rest

def acceptsMembers : ℕ → JsonMembers → Bool
  | levels, .last _ _ v _ => accepts levels v
  | levels, .more _ _ v _ rest => accepts levels v && acceptsMembers levels rest

end

/-! ## Blanks -/

/-- A blank that is no comment. -/
abbrev Blank.IsPlain (b : Blank) : Prop := b.isComment = false

theorem skipWhitespaces_cons {c : U8} (h : isSpaceByte c = false) (s : CString) :
    skipWhitespaces (c :: s) = c :: s :=
  List.dropWhile_cons_of_neg (by simp [h])

theorem skipWhitespaces_idem (s : CString) :
    skipWhitespaces (skipWhitespaces s) = skipWhitespaces s := by
  induction s with
  | nil => rfl
  | cons c s ih =>
    by_cases hc : isSpaceByte c = true
    · have hdrop : skipWhitespaces (c :: s) = skipWhitespaces s := List.dropWhile_cons_of_pos hc
      rw [hdrop, ih]
    · rw [skipWhitespaces_cons (Bool.not_eq_true _ ▸ hc),
        skipWhitespaces_cons (Bool.not_eq_true _ ▸ hc)]

theorem skipWhitespaces_blanks {blanks : List Blank} (h : ∀ b ∈ blanks, Blank.IsPlain b)
    (s : CString) : skipWhitespaces (blanksText blanks ++ s) = skipWhitespaces s := by
  induction blanks with
  | nil => rfl
  | cons b bs ih =>
    obtain ⟨hb, hbs⟩ := List.forall_mem_cons.mp h
    rw [blanksText_cons, List.append_assoc, ← ih hbs]
    cases b with
    | space | tab | newline | carriageReturn => rfl
    | block body noNul ends => exact absurd hb (by simp [Blank.IsPlain, Blank.isComment])
    | line body plain noBlock => exact absurd hb (by simp [Blank.IsPlain, Blank.isComment])

/-- What stands behind a value: a blank, a comma or a bracket. -/
def Follows (rest : CString) : Prop :=
  ∃ c s, rest = c :: s ∧ (isSpaceByte c = true ∨ c = 44 ∨ c = 93 ∨ c = 125)

theorem Follows.ends {rest : CString} (h : Follows rest) : Scientific.Ends rest := by
  obtain ⟨c, s, rfl, hc⟩ := h
  rintro d ⟨⟩
  have hall : ∀ c : U8, isSpaceByte c = true ∨ c = 44 ∨ c = 93 ∨ c = 125 →
      isDigitByte c = false ∧ c ≠ 46 ∧ lowerCase c ≠ 101 ∧ lowerCase c ≠ 120 := by
    decide
  exact hall c hc

theorem Follows.ne_nil {rest : CString} (h : Follows rest) : rest ≠ [] := by
  obtain ⟨c, s, rfl, -⟩ := h
  exact List.cons_ne_nil c s

theorem follows_blanks {blanks : List Blank} (h : ∀ b ∈ blanks, Blank.IsPlain b) {c : U8}
    (hc : c = 44 ∨ c = 93 ∨ c = 125) (s : CString) : Follows (blanksText blanks ++ c :: s) := by
  cases blanks with
  | nil => exact ⟨c, s, rfl, .inr hc⟩
  | cons b bs =>
    have hb := h b List.mem_cons_self
    cases b with
    | space | tab | newline | carriageReturn => exact ⟨_, _, rfl, .inl (by decide)⟩
    | block body noNul ends => exact absurd hb (by simp [Blank.IsPlain, Blank.isComment])
    | line body plain noBlock => exact absurd hb (by simp [Blank.IsPlain, Blank.isComment])

/-! ## Numbers -/

/-- A number but zero starts with another digit. -/
theorem head_digits_ne {n : ℕ} (hn : n ≠ 0) :
    (digits (decimalWidth n) n).head? ≠ some 48 := by
  by_cases hwidth : 1 < decimalWidth n
  · exact head_digits_decimalWidth hwidth
  · have hone : decimalWidth n = 1 := by
      have hpos : 0 < decimalWidth n := Nat.succ_pos _
      omega
    have hlt : n < 10 := by
      have hpow := lt_pow_decimalWidth n
      rwa [hone] at hpow
    have hdigit : ∀ d < 10, d ≠ 0 → digit d ≠ 48 := by decide
    rw [hone, digits_succ, pow_zero, Nat.div_one, Nat.mod_eq_of_lt hlt]
    exact fun heq => hdigit n hlt hn (Option.some.inj heq)

/-- The test of `is_decimal` on a number without its sign. -/
theorem leadingZero_iff (n : Scientific) (rest : CString) :
    (1 < n.unsignedText.length ∧ (n.unsignedText ++ rest).head? = some 48 ∧
        (n.unsignedText ++ rest)[1]? ≠ some 46) ↔ numberAccepted n = false := by
  simp only [numberAccepted, decide_eq_false_iff_not, not_not]
  by_cases hwhole : n.significand.whole = 0
  · have htext : n.unsignedText = 48 :: (Decimal.fractionText n.significand.places
        n.significand.fraction ++ Scientific.exponentText n.exponent) := by
      rw [Scientific.unsignedText, hwhole]
      rfl
    rw [htext]
    by_cases hplaces : n.significand.places = 0
    · rw [Decimal.fractionText, if_pos hplaces, List.nil_append]
      cases n.exponent with
      | none => simp [Scientific.exponentText]
      | some e =>
        have hletter : (if e.upper then 69 else 101 : U8) ≠ 46 := by
          cases e.upper with
          | true => decide
          | false => decide
        simp only [Scientific.exponentText, Exponent.text, hwhole, hplaces, List.length_cons,
          List.cons_append, List.head?_cons, List.getElem?_cons_succ, List.getElem?_cons_zero,
          Option.isSome_some, and_true, true_and, iff_true]
        exact ⟨by omega, fun heq => hletter (Option.some.inj heq)⟩
    · rw [Decimal.fractionText, if_neg hplaces]
      simp [hplaces]
  · obtain ⟨c, s, hdigits, -⟩ := isDigitByte_digits_head (n := n.significand.whole)
      (Nat.succ_pos (Nat.log 10 n.significand.whole))
    have hhead := head_digits_ne hwhole
    rw [decimalWidth, hdigits] at hhead
    have htext : (n.unsignedText ++ rest).head? = some c := by
      rw [Scientific.unsignedText, decimalWidth, hdigits]
      rfl
    rw [htext]
    simp only [hwhole, false_and, iff_false]
    exact fun hzero => hhead hzero.2.1

/-- `is_decimal` on the text of a number. -/
theorem isDecimal_text (n : Scientific) (rest : CString) :
    isDecimal (n.text ++ rest) n.text.length = numberAccepted n := by
  have hletters : ((n.text ++ rest).take n.text.length).all (fun c => c ≠ 120 ∧ c ≠ 88) = true := by
    rw [List.take_left, List.all_eq_true]
    intro c hc
    exact decide_eq_true
      (Scientific.lowerCase_ne_of_isNumeralByte (n.isNumeralByte_of_mem_text c hc)).2
  have hlead := leadingZero_iff n rest
  obtain ⟨c, s, hs, hc⟩ := n.exists_unsignedText_eq
  unfold isDecimal
  rw [hletters, Scientific.text_eq]
  cases n.significand.negative with
  | false =>
    have hsign : ¬[45, 48] <+: n.unsignedText ++ rest := by
      rw [hs]
      rintro ⟨t, ht⟩
      exact (isDigitByte_ne hc).1 (List.cons.inj ht).1.symm
    simp only [Decimal.signText, Bool.false_eq_true, if_false, List.nil_append, hsign, false_and,
      and_false]
    cases hacc : numberAccepted n with
    | false => rw [if_pos (hlead.mpr hacc)]
    | true => rw [if_neg fun hzero => absurd (hacc.symm.trans (hlead.mp hzero)) (by decide)]
  | true =>
    have hfirst : (45 :: (n.unsignedText ++ rest)).head? ≠ some 48 := by simp
    have hsecond : (2 < n.unsignedText.length + 1 ∧ [45, 48] <+: 45 :: (n.unsignedText ++ rest) ∧
        (45 :: (n.unsignedText ++ rest))[2]? ≠ some 46) ↔ numberAccepted n = false := by
      rw [← hlead, List.cons_prefix_cons, List.getElem?_cons_succ, hs]
      simp only [List.cons_append, List.cons_prefix_cons, List.nil_prefix, List.head?_cons,
        Option.some.injEq, true_and, and_true, eq_comm (b := c)]
      exact and_congr_left' (by omega)
    simp only [Decimal.signText, if_true, List.cons_append, List.nil_append, List.length_cons,
      hfirst, false_and, and_false, if_false]
    cases hacc : numberAccepted n with
    | false => rw [if_pos (hsecond.mpr hacc)]
    | true => rw [if_neg fun hzero => absurd (hacc.symm.trans (hsecond.mp hzero)) (by decide)]

/-- **A number is read**, if the parser accepts it. -/
theorem parseNumberValue_text (n : Scientific) {rest : CString} (h : Follows rest) :
    parseNumberValue (n.text ++ rest) =
      if numberAccepted n then some (.number (.ofRat n.value), rest) else none := by
  have hlen : (n.text ++ rest).length - rest.length = n.text.length := by simp
  unfold parseNumberValue
  rw [strtod_text n h.ends]
  simp only [hlen, isDecimal_text]

/-! ## Objects and arrays -/

/-- What capacities come to: none, or the first one doubled up to `m` times. -/
def Grown (m count capacity : ℕ) : Prop :=
  count ≤ capacity ∧ (capacity = 0 ∨ ∃ k ≤ m, capacity = startingCapacity * 2 ^ k)

theorem grown_init (m : ℕ) : Grown m 0 0 := ⟨le_rfl, .inl rfl⟩

theorem Grown.le {m count capacity : ℕ} (h : Grown m count capacity) :
    count ≤ startingCapacity * 2 ^ m := by
  obtain ⟨hle, rfl | ⟨k, hk, rfl⟩⟩ := h
  · omega
  · exact hle.trans (Nat.mul_le_mul_left _ (Nat.pow_le_pow_right (by decide) hk))

/-- There is room for one more until the last capacity is full. -/
theorem Grown.next {m count capacity : ℕ} (h : Grown m count capacity) :
    (count < startingCapacity * 2 ^ m ∧ ∃ capacity',
      grownCapacity count capacity (startingCapacity * 2 ^ m) = some capacity' ∧
        Grown m (count + 1) capacity') ∨
    (count = startingCapacity * 2 ^ m ∧
      grownCapacity count capacity (startingCapacity * 2 ^ m) = none) := by
  obtain ⟨hle, hcapacity⟩ := h
  unfold grownCapacity
  by_cases hroom : count < capacity
  · rw [if_neg (not_le.mpr hroom)]
    have hmax := Grown.le ⟨le_rfl, hcapacity⟩
    exact .inl ⟨by omega, capacity, rfl, hroom, hcapacity⟩
  · obtain rfl : count = capacity := by omega
    rw [if_pos le_rfl]
    rcases hcapacity with rfl | ⟨k, hk, rfl⟩
    · have hpos : startingCapacity ≤ startingCapacity * 2 ^ m :=
        Nat.le_mul_of_pos_right _ (by positivity)
      have hmax : max (0 * 2) startingCapacity = startingCapacity := by simp
      simp only [hmax, if_neg (not_lt.mpr hpos)]
      exact .inl ⟨Nat.mul_pos (by decide) (by positivity), _, rfl, by simp,
        .inr ⟨0, Nat.zero_le m, by simp⟩⟩
    · have hmax : max (startingCapacity * 2 ^ k * 2) startingCapacity =
          startingCapacity * 2 ^ (k + 1) := by
        have hpos : 0 < 2 ^ k := by positivity
        simp only [startingCapacity, pow_succ]
        omega
      simp only [hmax]
      by_cases hlast : k = m
      · have hlt : startingCapacity * 2 ^ m < startingCapacity * 2 ^ (m + 1) :=
          Nat.mul_lt_mul_of_pos_left (Nat.pow_lt_pow_right (by decide) (Nat.lt_succ_self m))
            (by decide)
        rw [hlast, if_pos hlt]
        exact .inr ⟨rfl, rfl⟩
      · have hle : startingCapacity * 2 ^ (k + 1) ≤ startingCapacity * 2 ^ m :=
          Nat.mul_le_mul_left _ (Nat.pow_le_pow_right (by decide) (by omega))
        have hlt : startingCapacity * 2 ^ k < startingCapacity * 2 ^ (k + 1) :=
          Nat.mul_lt_mul_of_pos_left (Nat.pow_lt_pow_right (by decide) (Nat.lt_succ_self k))
            (by decide)
        rw [if_neg (not_lt.mpr hle)]
        exact .inl ⟨hlt.trans_le hle, _, rfl, hlt, .inr ⟨k + 1, by omega, rfl⟩⟩

/-- An array takes items up to its limit. -/
theorem jsonArrayAdd_eq {array : JsonArrayT} (h : Grown 13 array.items.length array.capacity)
    (value : JsonValue) :
    if array.items.length + 1 ≤ arrayMaxCapacity then
      ∃ array', jsonArrayAdd array value = some array' ∧ array'.items = array.items ++ [value] ∧
        Grown 13 array'.items.length array'.capacity
    else jsonArrayAdd array value = none := by
  rcases h.next with ⟨hlt, capacity, hsome, hgrown⟩ | ⟨heq, hnone⟩
  · rw [if_pos (show array.items.length + 1 ≤ arrayMaxCapacity from hlt)]
    refine ⟨⟨array.items ++ [value], capacity⟩, ?_, rfl, by simpa using hgrown⟩
    show (grownCapacity array.items.length array.capacity arrayMaxCapacity).map _ = _
    rw [show arrayMaxCapacity = startingCapacity * 2 ^ 13 from rfl, hsome]
    rfl
  · rw [if_neg (show ¬array.items.length + 1 ≤ arrayMaxCapacity by rw [heq]; decide)]
    show (grownCapacity array.items.length array.capacity arrayMaxCapacity).map _ = _
    rw [show arrayMaxCapacity = startingCapacity * 2 ^ 13 from rfl, hnone]
    rfl

theorem isSome_jsonObjectNgetValue (object : JsonObject) (name : CString) :
    (jsonObjectNgetValue object name).isSome = true ↔ name ∈ object.map Prod.fst := by
  simp [jsonObjectNgetValue, List.find?_isSome]

/-- An object takes members of new names up to its limit. -/
theorem jsonObjectAdd_eq {object : JsonObjectT}
    (h : Grown 6 object.fields.length object.capacity) (name : CString) (value : JsonValue) :
    if object.fields.length + 1 ≤ objectMaxCapacity ∧
        name.takeWhile (· ≠ 0) ∉ object.fields.map Prod.fst then
      ∃ object', jsonObjectAdd object name value = some object' ∧
        object'.fields = object.fields ++ [(name.takeWhile (· ≠ 0), value)] ∧
        Grown 6 object'.fields.length object'.capacity
    else jsonObjectAdd object name value = none := by
  have hmax : objectMaxCapacity = startingCapacity * 2 ^ 6 := rfl
  simp only [jsonObjectAdd, isSome_jsonObjectNgetValue]
  rcases h.next with ⟨hlt, capacity, hsome, hgrown⟩ | ⟨heq, hnone⟩
  · have hroom : object.fields.length + 1 ≤ objectMaxCapacity := hlt
    rw [hmax, hsome, ← hmax, Option.bind_some]
    by_cases hnew : name.takeWhile (· ≠ 0) ∈ object.fields.map Prod.fst
    · rw [if_neg fun hboth => hboth.2 hnew, if_pos hnew]
    · rw [if_pos ⟨hroom, hnew⟩, if_neg hnew]
      exact ⟨_, rfl, rfl, by simpa using hgrown⟩
  · have hfull : ¬object.fields.length + 1 ≤ objectMaxCapacity := by
      rw [heq]
      decide
    rw [if_neg fun hboth => hfull hboth.1, hmax, hnone]
    rfl

/-! ## The parser -/

theorem parseValue_skipWhitespaces (levels : ℕ) (s : CString) :
    parseValue levels (skipWhitespaces s) = parseValue levels s := by
  cases levels with
  | zero => rfl
  | succ levels =>
    rw [parseValue]
    simp only [skipWhitespaces_idem]

/-- Blanks in front of a value are passed over. -/
theorem parseValue_blanks {blanks : List Blank} (h : ∀ b ∈ blanks, Blank.IsPlain b) (levels : ℕ)
    (s : CString) :
    parseValue levels (skipWhitespaces (blanksText blanks ++ s)) = parseValue levels s := by
  rw [skipWhitespaces_blanks h, parseValue_skipWhitespaces]

/-- The first character tells the kind of a value. -/
theorem parseValue_cons (levels : ℕ) {c : U8} (hc : isSpaceByte c = false) (s : CString) :
    parseValue (levels + 1) (c :: s) =
      if c = 123 then parseObjectValue (parseValue levels) (c :: s)
      else if c = 91 then parseArrayValue (parseValue levels) (c :: s)
      else if c = 34 then parseStringValue (c :: s)
      else if c = 102 ∨ c = 116 then parseBooleanValue (c :: s)
      else if c = 45 ∨ isDigitByte c then parseNumberValue (c :: s)
      else if c = 110 then parseNullValue (c :: s)
      else none := by
  rw [parseValue]
  simp only [skipWhitespaces_cons hc]

/-- The first character of a number. -/
theorem exists_text_eq (n : Scientific) :
    ∃ c s, n.text = c :: s ∧ (c = 45 ∨ isDigitByte c = true) := by
  obtain ⟨c, s, hs, hc⟩ := n.exists_unsignedText_eq
  rw [Scientific.text_eq, hs]
  cases n.significand.negative with
  | true => exact ⟨45, c :: s, rfl, .inl rfl⟩
  | false => exact ⟨c, s, rfl, .inr hc⟩

theorem numberHead_ne {c : U8} (h : c = 45 ∨ isDigitByte c = true) :
    isSpaceByte c = false ∧ c ≠ 123 ∧ c ≠ 91 ∧ c ≠ 34 ∧ ¬(c = 102 ∨ c = 116) ∧ c ≠ 93 := by
  revert c
  decide

/-- A value starts with no blank and no closing bracket. -/
theorem exists_head_syntax (t : JsonSyntax) :
    ∃ c s, t.text = c :: s ∧ isSpaceByte c = false ∧ c ≠ 93 := by
  match t with
  | .null | .boolean true | .boolean false | .string _ | .emptyArray _ | .array _
  | .emptyObject _ | .object _ =>
    rw [JsonSyntax.text]
    exact ⟨_, _, rfl, by decide, by decide⟩
  | .number n =>
    obtain ⟨c, s, hs, hc⟩ := exists_text_eq n
    rw [JsonSyntax.text]
    exact ⟨c, s, hs, (numberHead_ne hc).1, (numberHead_ne hc).2.2.2.2.2⟩

/-- Behind its blanks, an item is there. -/
theorem skipWhitespaces_item {blanks : List Blank} (h : ∀ b ∈ blanks, Blank.IsPlain b)
    (t : JsonSyntax) (s : CString) :
    skipWhitespaces (blanksText blanks ++ (t.text ++ s)) = t.text ++ s := by
  obtain ⟨c, s', hs, hc, -⟩ := exists_head_syntax t
  rw [skipWhitespaces_blanks h, hs, List.cons_append, skipWhitespaces_cons hc]

/-- One round of the loop over the items. -/
theorem parseItems_next {levels n : ℕ} {array : JsonArrayT} {s tail : CString} {v : JsonSyntax}
    (hs : s ≠ [])
    (hv : parseValue levels s = if accepts levels v then some (syntaxValue v, tail) else none)
    (hgrown : Grown 13 array.items.length array.capacity) :
    if accepts levels v = true ∧ array.items.length + 1 ≤ arrayMaxCapacity then
      ∃ array', array'.items = array.items ++ [syntaxValue v] ∧
        Grown 13 array'.items.length array'.capacity ∧
        parseItems (parseValue levels) (n + 1) array s =
          if (skipWhitespaces tail).head? ≠ some 44 then some (array', skipWhitespaces tail)
          else parseItems (parseValue levels) n array'
            (skipWhitespaces (skipWhitespaces tail).tail)
    else parseItems (parseValue levels) (n + 1) array s = none := by
  rw [parseItems, if_neg hs, hv]
  have hadd := jsonArrayAdd_eq hgrown (syntaxValue v)
  by_cases hacc : accepts levels v = true
  · rw [if_pos hacc, Option.bind_some]
    by_cases hroom : array.items.length + 1 ≤ arrayMaxCapacity
    · rw [if_pos hroom] at hadd
      obtain ⟨array', hsome, hitems, hgrown'⟩ := hadd
      rw [if_pos ⟨hacc, hroom⟩]
      refine ⟨array', hitems, hgrown', ?_⟩
      simp only [hsome, Option.bind_some]
    · rw [if_neg hroom] at hadd
      rw [if_neg fun hboth => hroom hboth.2]
      simp only [hadd, Option.bind_none]
  · rw [if_neg hacc, if_neg fun hboth => hacc hboth.1]
    rfl

/-- One round of the loop over the members. -/
theorem parseMembers_next {levels n : ℕ} {object : JsonObjectT} {key : Key} {s tail : CString}
    {v : JsonSyntax} (hkey : ∀ b ∈ key.after, Blank.IsPlain b)
    (hv : parseValue levels s = if accepts levels v then some (syntaxValue v, tail) else none)
    (hgrown : Grown 6 object.fields.length object.capacity) :
    if accepts levels v = true ∧ object.fields.length + 1 ≤ objectMaxCapacity ∧
        keyName key ∉ object.fields.map Prod.fst then
      ∃ object', object'.fields = object.fields ++ [(keyName key, syntaxValue v)] ∧
        Grown 6 object'.fields.length object'.capacity ∧
        parseMembers (parseValue levels) (n + 1) object
            (quotedText key.name ++ (blanksText key.after ++ 58 :: s)) =
          if (skipWhitespaces tail).head? ≠ some 44 then some (object', skipWhitespaces tail)
          else parseMembers (parseValue levels) n object'
            (skipWhitespaces (skipWhitespaces tail).tail)
    else
      parseMembers (parseValue levels) (n + 1) object
        (quotedText key.name ++ (blanksText key.after ++ 58 :: s)) = none := by
  have hne : quotedText key.name ++ (blanksText key.after ++ 58 :: s) ≠ [] := by simp [quotedText]
  have hcolon : skipWhitespaces (blanksText key.after ++ 58 :: s) = 58 :: s := by
    rw [skipWhitespaces_blanks hkey, skipWhitespaces_cons (by decide)]
  have hhead : ¬(58 :: s).head? ≠ some 58 := by simp
  rw [parseMembers, if_neg hne, getQuotedString_text key.name (by simp), Option.bind_some]
  simp only [hcolon, if_neg hhead, List.tail_cons, hv]
  have hadd := jsonObjectAdd_eq hgrown (key.name.flatMap StringPiece.bytes) (syntaxValue v)
  have hname : (key.name.flatMap StringPiece.bytes).takeWhile (· ≠ 0) = keyName key := rfl
  rw [hname] at hadd
  by_cases hacc : accepts levels v = true
  · rw [if_pos hacc, Option.bind_some]
    by_cases hroom : object.fields.length + 1 ≤ objectMaxCapacity ∧
        keyName key ∉ object.fields.map Prod.fst
    · rw [if_pos hroom] at hadd
      obtain ⟨object', hsome, hfields, hgrown'⟩ := hadd
      rw [if_pos ⟨hacc, hroom⟩]
      refine ⟨object', hfields, hgrown', ?_⟩
      simp only [hsome, Option.bind_some]
    · rw [if_neg hroom] at hadd
      rw [if_neg fun hboth => hroom hboth.2]
      simp only [hadd, Option.bind_none]
  · rw [if_neg hacc, if_neg fun hboth => hacc hboth.1]
    rfl

/-- Every item of an array takes at least a character of the text. -/
theorem length_itemsValues_le : ∀ items : JsonItems, (itemsValues items).length ≤ items.text.length
  | .more before v after rest => by
    have hrest := length_itemsValues_le rest
    simp [itemsValues, JsonItems.text]
    omega
  | .last before v after => by
    simp [itemsValues, JsonItems.text]
    omega

/-- Every member of an object takes at least a character of the text. -/
theorem length_membersFields_le :
    ∀ members : JsonMembers, (membersFields members).length ≤ members.text.length
  | .more key before v after rest => by
    have hrest := length_membersFields_le rest
    simp [membersFields, JsonMembers.text]
    omega
  | .last key before v after => by
    simp [membersFields, JsonMembers.text]
    omega

/-- The items and what follows, behind the first blanks. -/
theorem skipWhitespaces_items {items : JsonItems} (h : items.AllBlanks Blank.IsPlain)
    (rest : CString) :
    (skipWhitespaces (items.text ++ rest)).head? ≠ some 93 ∧
      (itemsValues items).length ≤ (skipWhitespaces (items.text ++ rest)).length := by
  cases items with
  | last before v after =>
    obtain ⟨c, s, hs, hc, hne⟩ := exists_head_syntax v
    rw [JsonItems.AllBlanks] at h
    rw [JsonItems.text, List.append_assoc, List.append_assoc, skipWhitespaces_item h.1, hs]
    exact ⟨by simpa using hne, by simp [itemsValues]⟩
  | more before v after rest' =>
    obtain ⟨c, s, hs, hc, hne⟩ := exists_head_syntax v
    have hlen := length_itemsValues_le rest'
    rw [JsonItems.AllBlanks] at h
    rw [JsonItems.text, List.append_assoc, List.append_assoc, skipWhitespaces_item h.1, hs]
    refine ⟨by simpa using hne, ?_⟩
    simp [itemsValues]
    omega

/-- The members and what follows, behind the first blanks. -/
theorem skipWhitespaces_members {members : JsonMembers} (h : members.AllBlanks Blank.IsPlain)
    (rest : CString) :
    (skipWhitespaces (members.text ++ rest)).head? ≠ some 125 ∧
      (membersFields members).length ≤ (skipWhitespaces (members.text ++ rest)).length := by
  have hquote : isSpaceByte 34 = false := by decide
  cases members with
  | last key before v after =>
    rw [JsonMembers.AllBlanks] at h
    rw [JsonMembers.text, Key.text, List.append_assoc, List.append_assoc,
      skipWhitespaces_blanks h.1.1, quotedText, List.cons_append, List.cons_append,
      skipWhitespaces_cons hquote]
    exact ⟨by simp, by simp [membersFields]⟩
  | more key before v after rest' =>
    have hlen := length_membersFields_le rest'
    rw [JsonMembers.AllBlanks] at h
    rw [JsonMembers.text, Key.text, List.append_assoc, List.append_assoc,
      skipWhitespaces_blanks h.1.1, quotedText, List.cons_append, List.cons_append,
      skipWhitespaces_cons hquote]
    refine ⟨by simp, ?_⟩
    simp [membersFields]
    omega

/-- A member and what follows, behind the blanks in front of it. -/
theorem skipWhitespaces_key {key : Key} (h : ∀ b ∈ key.before, Blank.IsPlain b) (s : CString) :
    skipWhitespaces (key.text ++ s) = quotedText key.name ++ (blanksText key.after ++ 58 :: s) := by
  have hquote : isSpaceByte 34 = false := by decide
  simp only [Key.text, List.append_assoc, List.singleton_append]
  rw [skipWhitespaces_blanks h, quotedText, List.cons_append, skipWhitespaces_cons hquote]

/-- A new name keeps the names distinct. -/
theorem nodup_append_singleton {object : JsonObject} (h : (object.map Prod.fst).Nodup)
    (field : CString × JsonValue) :
    ((object ++ [field]).map Prod.fst).Nodup ↔ field.1 ∉ object.map Prod.fst := by
  rw [List.map_append, List.map_singleton, ← List.concat_eq_append, List.nodup_concat]
  exact and_iff_left h

theorem length_itemsValues_pos (items : JsonItems) : 0 < (itemsValues items).length := by
  cases items <;> simp [itemsValues]

theorem length_membersFields_pos (members : JsonMembers) : 0 < (membersFields members).length := by
  cases members <;> simp [membersFields]

mutual

/-- **The text of a tree is read as its value**, if the parser accepts it, and nothing of what
follows. -/
theorem parseValue_text : ∀ (t : JsonSyntax) (levels : ℕ) (rest : CString),
    t.AllBlanks Blank.IsPlain → (isContainer t = false → Follows rest) →
    parseValue levels (t.text ++ rest) =
      if accepts levels t then some (syntaxValue t, rest) else none
  | t, 0, rest, _, _ => by
    rw [accepts]
    rfl
  | .null, levels + 1, rest, _, _ => by
    rw [accepts]
    rfl
  | .boolean true, levels + 1, rest, _, _ => by
    rw [accepts]
    rfl
  | .boolean false, levels + 1, rest, _, _ => by
    rw [accepts]
    rfl
  | .number n, levels + 1, rest, _, hrest => by
    obtain ⟨c, s, hs, hc⟩ := exists_text_eq n
    obtain ⟨hspace, hbrace, hbracket, hquote, hword, -⟩ := numberHead_ne hc
    have hnumber := parseNumberValue_text n (hrest rfl)
    rw [JsonSyntax.text, accepts, syntaxValue]
    rw [hs, List.cons_append] at hnumber ⊢
    rw [parseValue_cons levels hspace, if_neg hbrace, if_neg hbracket, if_neg hquote,
      if_neg hword, if_pos hc, hnumber]
  | .string pieces, levels + 1, rest, _, hrest => by
    have hstring := getQuotedString_text pieces (hrest rfl).ne_nil
    rw [quotedText, List.cons_append] at hstring
    rw [JsonSyntax.text, accepts, syntaxValue, quotedText, List.cons_append,
      parseValue_cons levels (by decide), if_neg (by decide), if_neg (by decide), if_pos rfl,
      parseStringValue, hstring]
    rfl
  | .emptyArray blanks, levels + 1, rest, hplain, _ => by
    rw [JsonSyntax.AllBlanks] at hplain
    have hskip : skipWhitespaces (blanksText blanks ++ [93] ++ rest) = 93 :: rest := by
      rw [List.append_assoc, skipWhitespaces_blanks hplain]
      exact skipWhitespaces_cons (by decide) rest
    rw [JsonSyntax.text, accepts, syntaxValue, List.cons_append,
      parseValue_cons levels (by decide), if_neg (by decide), if_pos rfl, parseArrayValue]
    simp only [List.tail_cons, hskip, List.head?_cons, if_true]
  | .emptyObject blanks, levels + 1, rest, hplain, _ => by
    rw [JsonSyntax.AllBlanks] at hplain
    have hskip : skipWhitespaces (blanksText blanks ++ [125] ++ rest) = 125 :: rest := by
      rw [List.append_assoc, skipWhitespaces_blanks hplain]
      exact skipWhitespaces_cons (by decide) rest
    rw [JsonSyntax.text, accepts, syntaxValue, List.cons_append,
      parseValue_cons levels (by decide), if_pos rfl, parseObjectValue]
    simp only [List.tail_cons, hskip, List.head?_cons, if_true]
  | .array items, levels + 1, rest, hplain, _ => by
    rw [JsonSyntax.AllBlanks] at hplain
    obtain ⟨hhead, hlen⟩ := skipWhitespaces_items hplain rest
    -- The loop begins with no item, and with fuel for every byte that is left.
    have hitems := parseItems_text items levels
      ((skipWhitespaces (items.text ++ rest)).length + 1) jsonArrayInit rest hplain (by omega)
      (grown_init 13)
    rw [JsonSyntax.text, accepts, syntaxValue, List.cons_append,
      parseValue_cons levels (by decide), if_neg (by decide), if_pos rfl, parseArrayValue]
    simp only [List.tail_cons, hhead, if_false, Bool.and_eq_true, decide_eq_true_eq]
    simp only [jsonArrayInit, List.length_nil, zero_add, List.nil_append] at hitems ⊢
    split at hitems
    · obtain ⟨⟨⟨_, capacity⟩, s'⟩, hparse, heq⟩ := Option.map_eq_some_iff.mp hitems
      obtain ⟨rfl, rfl⟩ := Prod.mk.inj heq
      rw [hparse, if_pos ‹_›, Option.bind_some]
      simp only [skipWhitespaces_cons (show isSpaceByte 93 = false by decide), List.head?_cons,
        List.tail_cons, ne_eq, not_true, if_false]
    · rw [Option.map_eq_none_iff.mp hitems, if_neg ‹_›]
      rfl
  | .object members, levels + 1, rest, hplain, _ => by
    rw [JsonSyntax.AllBlanks] at hplain
    obtain ⟨hhead, hlen⟩ := skipWhitespaces_members hplain rest
    have hmembers := parseMembers_text members levels
      ((skipWhitespaces (members.text ++ rest)).length + 1) jsonObjectInit rest hplain (by omega)
      (grown_init 6) List.nodup_nil
    rw [JsonSyntax.text, accepts, syntaxValue, List.cons_append,
      parseValue_cons levels (by decide), if_pos rfl, parseObjectValue]
    simp only [List.tail_cons, hhead, if_false, Bool.and_eq_true, decide_eq_true_eq, and_assoc]
    simp only [jsonObjectInit, List.length_nil, zero_add, List.nil_append] at hmembers ⊢
    split at hmembers
    · obtain ⟨⟨⟨_, capacity⟩, s'⟩, hparse, heq⟩ := Option.map_eq_some_iff.mp hmembers
      obtain ⟨rfl, rfl⟩ := Prod.mk.inj heq
      rw [hparse, if_pos ‹_›, Option.bind_some]
      simp only [skipWhitespaces_cons (show isSpaceByte 125 = false by decide), List.head?_cons,
        List.tail_cons, ne_eq, not_true, if_false]
    · rw [Option.map_eq_none_iff.mp hmembers, if_neg ‹_›]
      rfl

theorem parseItems_text : ∀ (items : JsonItems) (levels n : ℕ) (array : JsonArrayT)
    (rest : CString), items.AllBlanks Blank.IsPlain → (itemsValues items).length ≤ n →
    Grown 13 array.items.length array.capacity →
    (parseItems (parseValue levels) n array (skipWhitespaces (items.text ++ rest))).map
        (fun (array, s) => (array.items, s)) =
      if acceptsItems levels items = true ∧
          array.items.length + (itemsValues items).length ≤ arrayMaxCapacity then
        some (array.items ++ itemsValues items, 93 :: rest)
      else none
  | .last before v after, levels, n, array, rest, hplain, hn, hgrown => by
    rw [JsonItems.AllBlanks] at hplain
    obtain ⟨hbefore, hv, hafter⟩ := hplain
    obtain ⟨n, rfl⟩ : ∃ k, n = k + 1 := ⟨n - 1, by simp [itemsValues] at hn; omega⟩
    have hread := parseValue_text v levels (blanksText after ++ 93 :: rest) hv
      (fun _ => follows_blanks hafter (by decide) rest)
    have hbracket : skipWhitespaces (blanksText after ++ 93 :: rest) = 93 :: rest := by
      rw [skipWhitespaces_blanks hafter, skipWhitespaces_cons (by decide)]
    obtain ⟨c, s, hs, -⟩ := exists_head_syntax v
    have hnext := parseItems_next (n := n) (by simp [hs]) hread hgrown
    rw [JsonItems.text, List.append_assoc, List.append_assoc, List.append_assoc,
      List.singleton_append, skipWhitespaces_item hbefore, acceptsItems, itemsValues,
      List.length_singleton]
    split at hnext
    · obtain ⟨array', hitems, -, heq⟩ := hnext
      rw [heq, hbracket, if_pos (by simp), if_pos ‹_›, ← hitems]
      rfl
    · rw [hnext, if_neg ‹_›]
      rfl
  | .more before v after items, levels, n, array, rest, hplain, hn, hgrown => by
    rw [JsonItems.AllBlanks] at hplain
    obtain ⟨hbefore, hv, hafter, hitems⟩ := hplain
    obtain ⟨n, rfl⟩ : ∃ k, n = k + 1 := ⟨n - 1, by simp [itemsValues] at hn; omega⟩
    have hread := parseValue_text v levels (blanksText after ++ 44 :: (items.text ++ rest)) hv
      (fun _ => follows_blanks hafter (by decide) _)
    have hcomma : skipWhitespaces (blanksText after ++ 44 :: (items.text ++ rest)) =
        44 :: (items.text ++ rest) := by
      rw [skipWhitespaces_blanks hafter, skipWhitespaces_cons (by decide)]
    obtain ⟨c, s, hs, -⟩ := exists_head_syntax v
    have hnext := parseItems_next (n := n) (by simp [hs]) hread hgrown
    have hpos := length_itemsValues_pos items
    rw [JsonItems.text, List.append_assoc, List.append_assoc, List.append_assoc,
      List.cons_append, skipWhitespaces_item hbefore, acceptsItems, itemsValues,
      List.length_cons]
    simp only [Bool.and_eq_true]
    -- The item is taken if its value is and there is room for it.
    by_cases hcond : accepts levels v = true ∧ array.items.length + 1 ≤ arrayMaxCapacity
    · rw [if_pos hcond] at hnext
      obtain ⟨array', hsome, hgrown', heq⟩ := hnext
      have hrest := parseItems_text items levels n array' rest hitems
        (by simpa [itemsValues] using hn) hgrown'
      rw [heq, hcomma, if_neg (by simp), List.tail_cons, hrest, hsome, List.length_append,
        List.length_singleton, List.append_assoc, List.singleton_append]
      refine if_congr ?_ rfl rfl
      rw [and_assoc, and_iff_right hcond.1, add_assoc, add_comm 1]
    · rw [if_neg hcond] at hnext
      rw [hnext, if_neg fun hall => hcond ⟨hall.1.1, by omega⟩]
      rfl

theorem parseMembers_text : ∀ (members : JsonMembers) (levels n : ℕ) (object : JsonObjectT)
    (rest : CString), members.AllBlanks Blank.IsPlain → (membersFields members).length ≤ n →
    Grown 6 object.fields.length object.capacity → (object.fields.map Prod.fst).Nodup →
    (parseMembers (parseValue levels) n object (skipWhitespaces (members.text ++ rest))).map
        (fun (object, s) => (object.fields, s)) =
      if acceptsMembers levels members = true ∧
          ((object.fields ++ membersFields members).map Prod.fst).Nodup ∧
          object.fields.length + (membersFields members).length ≤ objectMaxCapacity then
        some (object.fields ++ membersFields members, 125 :: rest)
      else none
  | .last key before v after, levels, n, object, rest, hplain, hn, hgrown, hnodup => by
    rw [JsonMembers.AllBlanks] at hplain
    obtain ⟨hkey, hbefore, hv, hafter⟩ := hplain
    obtain ⟨n, rfl⟩ : ∃ k, n = k + 1 := ⟨n - 1, by simp [membersFields] at hn; omega⟩
    have hread := parseValue_text v levels (blanksText after ++ 125 :: rest) hv
      (fun _ => follows_blanks hafter (by decide) rest)
    rw [← parseValue_blanks hbefore, parseValue_skipWhitespaces] at hread
    have hbrace : skipWhitespaces (blanksText after ++ 125 :: rest) = 125 :: rest := by
      rw [skipWhitespaces_blanks hafter, skipWhitespaces_cons (by decide)]
    have hnext := parseMembers_next (n := n) hkey.2 hread hgrown
    have hunique : ((object.fields ++ [(keyName key, syntaxValue v)]).map Prod.fst).Nodup ↔
        keyName key ∉ object.fields.map Prod.fst := nodup_append_singleton hnodup _
    have htext : (JsonMembers.last key before v after).text ++ rest =
        key.text ++ (blanksText before ++ (v.text ++ (blanksText after ++ 125 :: rest))) := by
      simp [JsonMembers.text]
    rw [htext, skipWhitespaces_key hkey.1, acceptsMembers, membersFields, List.length_singleton]
    -- The member is taken if its value is, there is room for it, and its name is new.
    by_cases hcond : accepts levels v = true ∧ object.fields.length + 1 ≤ objectMaxCapacity ∧
        keyName key ∉ object.fields.map Prod.fst
    · rw [if_pos hcond] at hnext
      obtain ⟨object', hfields, -, heq⟩ := hnext
      rw [heq, hbrace, if_pos (by simp), if_pos ⟨hcond.1, hunique.mpr hcond.2.2, hcond.2.1⟩,
        ← hfields]
      rfl
    · rw [if_neg hcond] at hnext
      rw [hnext, if_neg fun hall => hcond ⟨hall.1, hall.2.2, hunique.mp hall.2.1⟩]
      rfl
  | .more key before v after members, levels, n, object, rest, hplain, hn, hgrown, hnodup => by
    rw [JsonMembers.AllBlanks] at hplain
    obtain ⟨hkey, hbefore, hv, hafter, hmembers⟩ := hplain
    obtain ⟨n, rfl⟩ : ∃ k, n = k + 1 := ⟨n - 1, by simp [membersFields] at hn; omega⟩
    have hread := parseValue_text v levels (blanksText after ++ 44 :: (members.text ++ rest)) hv
      (fun _ => follows_blanks hafter (by decide) _)
    rw [← parseValue_blanks hbefore, parseValue_skipWhitespaces] at hread
    have hcomma : skipWhitespaces (blanksText after ++ 44 :: (members.text ++ rest)) =
        44 :: (members.text ++ rest) := by
      rw [skipWhitespaces_blanks hafter, skipWhitespaces_cons (by decide)]
    have hnext := parseMembers_next (n := n) hkey.2 hread hgrown
    have hpos := length_membersFields_pos members
    have hunique : ((object.fields ++ [(keyName key, syntaxValue v)]).map Prod.fst).Nodup ↔
        keyName key ∉ object.fields.map Prod.fst := nodup_append_singleton hnodup _
    have happend : object.fields ++ (keyName key, syntaxValue v) :: membersFields members =
        object.fields ++ [(keyName key, syntaxValue v)] ++ membersFields members := by simp
    have htext : (JsonMembers.more key before v after members).text ++ rest =
        key.text ++ (blanksText before ++ (v.text ++ (blanksText after ++
          44 :: (members.text ++ rest)))) := by
      simp [JsonMembers.text]
    rw [htext, skipWhitespaces_key hkey.1, acceptsMembers, membersFields, List.length_cons,
      happend]
    simp only [Bool.and_eq_true]
    by_cases hcond : accepts levels v = true ∧ object.fields.length + 1 ≤ objectMaxCapacity ∧
        keyName key ∉ object.fields.map Prod.fst
    · rw [if_pos hcond] at hnext
      obtain ⟨object', hfields, hgrown', heq⟩ := hnext
      have hrest := parseMembers_text members levels n object' rest hmembers
        (by simpa [membersFields] using hn) hgrown' (by rw [hfields, hunique]; exact hcond.2.2)
      rw [heq, hcomma, if_neg (by simp), List.tail_cons, hrest, hfields, List.length_append,
        List.length_singleton]
      refine if_congr ?_ rfl rfl
      rw [and_assoc, and_iff_right hcond.1, add_assoc, add_comm 1]
    · rw [if_neg hcond] at hnext
      rw [hnext, if_neg fun hall => hcond ⟨hall.1.1, by omega, ?_⟩]
      · rfl
      · have hnodup' := hall.2.1
        rw [List.map_append] at hnodup'
        exact hunique.mp hnodup'.of_append_left

end

/-- A container starts with its bracket, and nothing else does. -/
theorem head_text_iff (t : JsonSyntax) (rest : CString) :
    ((t.text ++ rest).head? ≠ some 123 ∧ (t.text ++ rest).head? ≠ some 91) ↔
      isContainer t = false := by
  match t with
  | .null | .boolean true | .boolean false | .string _ | .emptyArray _ | .array _
  | .emptyObject _ | .object _ => simp [JsonSyntax.text, isContainer, quotedText]
  | .number n =>
    obtain ⟨c, s, hs, hc⟩ := exists_text_eq n
    obtain ⟨-, hbrace, hbracket, -⟩ := numberHead_ne hc
    rw [JsonSyntax.text, hs]
    simpa [isContainer] using ⟨hbrace, hbracket⟩

/-- **A text without comments is parsed as its value**: an array or an object that the parser
accepts.  What follows it does not matter. -/
theorem jsonParseString_text {blanks : List Blank} {t : JsonSyntax}
    (hblanks : ∀ b ∈ blanks, Blank.IsPlain b) (ht : t.AllBlanks Blank.IsPlain) (rest : CString) :
    jsonParseString (blanksText blanks ++ (t.text ++ rest)) =
      if isContainer t && accepts (maxNesting + 1) t then some (syntaxValue t) else none := by
  unfold jsonParseString
  rw [skipWhitespaces_item hblanks]
  simp only [head_text_iff]
  cases hcontainer : isContainer t with
  | false => rfl
  | true =>
    rw [if_neg (by decide), parseValue_text t _ rest ht (by simp [hcontainer]), Bool.true_and]
    split
    · rfl
    · rfl

end PacketForwarder
