import PacketForwarder.Lib.Decimal

/-!
# JSON texts

The part of JSON that programs print by hand: numbers, strings, arrays and objects,
without blanks, escapes and exponents.  Whatever is accepted here is JSON.

* `PlainText` — what may stand between two quotes as it is;
* `Json`, `Json.text` — a value, and the text that denotes it;
* `Json.parse` — the value a text denotes, if it is a text of one value;
* `Json.get?`, `Json.string?`, `Json.int?` — reading a value.

`Json.parse_text`: every value is parsed back from its text.
-/

/-! ## Strings -/

/-- A printable character that needs no escape. -/
def isPlain (c : BitVec 8) : Bool := 32 ≤ c && c ≤ 126 && c ≠ 34 && c ≠ 92

/-- A text whose characters need no escape. -/
structure PlainText where
  bytes : List (BitVec 8)
  plain : ∀ c ∈ bytes, isPlain c = true
  deriving DecidableEq

theorem isPlain_of_isDigitByte {c : BitVec 8} (h : isDigitByte c = true) : isPlain c = true := by
  revert c
  decide

theorem plain_digits {k n : ℕ} : ∀ c ∈ digits k n, isPlain c = true :=
  fun c h => isPlain_of_isDigitByte (isDigitByte_of_mem_digits c h)

/-- The text between two quotes, from after the first quote. -/
def PlainText.read (s : List (BitVec 8)) : Option (PlainText × List (BitVec 8)) :=
  match s.dropWhile isPlain with
  | [] => none
  | c :: rest =>
    if c = 34 then some (⟨s.takeWhile isPlain, fun _ h => List.mem_takeWhile_imp h⟩, rest)
    else none

theorem PlainText.read_bytes (t : PlainText) (rest : List (BitVec 8)) :
    PlainText.read (t.bytes ++ 34 :: rest) = some (t, rest) := by
  have hquote : ¬isPlain 34 = true := by decide
  have htake : (t.bytes ++ 34 :: rest).takeWhile isPlain = t.bytes := by
    rw [List.takeWhile_append_of_pos t.plain, List.takeWhile_cons_of_neg hquote,
      List.append_nil]
  have hdrop : (t.bytes ++ 34 :: rest).dropWhile isPlain = 34 :: rest := by
    rw [List.dropWhile_append_of_pos t.plain, List.dropWhile_cons_of_neg hquote]
  simp only [PlainText.read, hdrop, htake, if_true]

/-! ## Values -/

/-- A JSON value whose texts need no escapes and whose numbers are numerals. -/
inductive Json
  | number (d : Decimal)
  | string (t : PlainText)
  | array (items : List Json)
  | object (members : List (PlainText × Json))

namespace Json

mutual

/-- The text of a value, without any blanks. -/
def text : Json → List (BitVec 8)
  | number d => d.text
  | string t => 34 :: (t.bytes ++ [34])
  | array [] => [91, 93]
  | array (v :: vs) => 91 :: (text v ++ itemsText vs)
  | object [] => [123, 125]
  | object ((name, v) :: ms) => 123 :: 34 :: (name.bytes ++ 34 :: 58 :: (text v ++ membersText ms))

/-- The items of an array after the first, and the bracket. -/
def itemsText : List Json → List (BitVec 8)
  | [] => [93]
  | v :: vs => 44 :: (text v ++ itemsText vs)

/-- The members of an object after the first, and the brace. -/
def membersText : List (PlainText × Json) → List (BitVec 8)
  | [] => [125]
  | (name, v) :: ms => 44 :: 34 :: (name.bytes ++ 34 :: 58 :: (text v ++ membersText ms))

end

/-- A member of an object after the first. -/
def memberText (m : PlainText × Json) : List (BitVec 8) :=
  44 :: 34 :: (m.1.bytes ++ 34 :: 58 :: text m.2)

theorem membersText_eq (ms : List (PlainText × Json)) :
    membersText ms = ms.flatMap memberText ++ [125] := by
  induction ms with
  | nil => rfl
  | cons m ms ih =>
    rw [membersText, ih, List.flatMap_cons, memberText]
    simp

/-- The first member has no comma. -/
theorem text_object_cons (m : PlainText × Json) (ms : List (PlainText × Json)) :
    text (object (m :: ms)) = 123 :: ((memberText m).tail ++ membersText ms) := by
  simp [text, memberText]

theorem itemsText_eq (vs : List Json) :
    itemsText vs = (vs.flatMap fun v => 44 :: text v) ++ [93] := by
  induction vs with
  | nil => rfl
  | cons v vs ih =>
    rw [itemsText, ih, List.flatMap_cons]
    simp

/-- The member of an object with the given name. -/
def get? (name : List (BitVec 8)) : Json → Option Json
  | object members => (members.find? fun m => m.1.bytes = name).map Prod.snd
  | _ => none

theorem get?_object_cons (n : List (BitVec 8)) (name : PlainText) (v : Json)
    (ms : List (PlainText × Json)) :
    (object ((name, v) :: ms)).get? n = if name.bytes = n then some v else (object ms).get? n := by
  simp only [get?, List.find?_cons]
  by_cases h : name.bytes = n <;> simp [h]

/-- Members with other names are passed over. -/
theorem get?_object_append {n : List (BitVec 8)} {ms : List (PlainText × Json)}
    (h : ∀ m ∈ ms, m.1.bytes ≠ n) (ms' : List (PlainText × Json)) :
    (object (ms ++ ms')).get? n = (object ms').get? n := by
  induction ms with
  | nil => rfl
  | cons m ms ih =>
    obtain ⟨hm, hrest⟩ := List.forall_mem_cons.mp h
    rw [List.cons_append, get?_object_cons, if_neg hm, ih hrest]

/-- A value is read as a string where it is one. -/
def string? : Json → Option (List (BitVec 8))
  | string t => some t.bytes
  | _ => none

/-- A value is read as an integer where it is one. -/
def int? : Json → Option ℤ
  | number d => d.toInt?
  | _ => none

/-! ## Parsing -/

/-- A character that must come next. -/
def expect (c : BitVec 8) : List (BitVec 8) → Option (List (BitVec 8))
  | [] => none
  | c' :: s => if c' = c then some s else none

/-- The name of a member, with its colon. -/
def readName (s : List (BitVec 8)) : Option (PlainText × List (BitVec 8)) := do
  let s ← expect 34 s
  let (name, s) ← PlainText.read s
  let s ← expect 58 s
  return (name, s)

mutual

/-- The value a text starts with, and what follows; at most `n` calls deep. -/
def read : ℕ → List (BitVec 8) → Option (Json × List (BitVec 8))
  | 0, _ => none
  | _ + 1, [] => none
  | n + 1, c :: s =>
    if c = 34 then (PlainText.read s).map fun (t, s) => (string t, s)
    else if c = 91 then
      if s.head? = some 93 then some (array [], s.tail)
      else do
        let (v, s) ← read n s
        let (vs, s) ← readItems n s
        return (array (v :: vs), s)
    else if c = 123 then
      if s.head? = some 125 then some (object [], s.tail)
      else do
        let (name, s) ← readName s
        let (v, s) ← read n s
        let (ms, s) ← readMembers n s
        return (object ((name, v) :: ms), s)
    else (Decimal.read (c :: s)).map fun (d, s) => (number d, s)

/-- The items of an array after the first. -/
def readItems : ℕ → List (BitVec 8) → Option (List Json × List (BitVec 8))
  | 0, _ => none
  | _ + 1, [] => none
  | n + 1, c :: s =>
    if c = 93 then some ([], s)
    else if c = 44 then do
      let (v, s) ← read n s
      let (vs, s) ← readItems n s
      return (v :: vs, s)
    else none

/-- The members of an object after the first. -/
def readMembers : ℕ → List (BitVec 8) → Option (List (PlainText × Json) × List (BitVec 8))
  | 0, _ => none
  | _ + 1, [] => none
  | n + 1, c :: s =>
    if c = 125 then some ([], s)
    else if c = 44 then do
      let (name, s) ← readName s
      let (v, s) ← read n s
      let (ms, s) ← readMembers n s
      return ((name, v) :: ms, s)
    else none

end

/-- The value a text denotes.  Every call but the last takes at least one character. -/
def parse (s : List (BitVec 8)) : Option Json :=
  match read s.length s with
  | some (v, []) => some v
  | _ => none

/-! ## What is printed is parsed -/

theorem readName_text (name : PlainText) (rest : List (BitVec 8)) :
    readName (34 :: (name.bytes ++ 34 :: 58 :: rest)) = some (name, rest) := by
  show ((PlainText.read (name.bytes ++ 34 :: 58 :: rest)).bind fun (name, s) =>
    (expect 58 s).bind fun s => some (name, s)) = _
  rw [PlainText.read_bytes]
  rfl

/-- After a value comes a comma or a bracket. -/
theorem ends_itemsText (vs : List Json) (rest : List (BitVec 8)) :
    Decimal.Ends (itemsText vs ++ rest) := by
  cases vs with
  | nil => exact ⟨by rintro c ⟨⟩; decide, by simp [itemsText]⟩
  | cons v vs => exact ⟨by rintro c ⟨⟩; decide, by simp [itemsText]⟩

/-- After a member comes a comma or a brace. -/
theorem ends_membersText (ms : List (PlainText × Json)) (rest : List (BitVec 8)) :
    Decimal.Ends (membersText ms ++ rest) := by
  cases ms with
  | nil => exact ⟨by rintro c ⟨⟩; decide, by simp [membersText]⟩
  | cons m ms => exact ⟨by rintro c ⟨⟩; decide, by simp [membersText]⟩

/-- The first character of a numeral. -/
theorem exists_head_text (d : Decimal) :
    ∃ c s, d.text = c :: s ∧ c ≠ 34 ∧ c ≠ 91 ∧ c ≠ 93 ∧ c ≠ 123 ∧ c ≠ 125 := by
  have hdigit : ∀ n < 10, digit n ≠ 34 ∧ digit n ≠ 91 ∧ digit n ≠ 93 ∧ digit n ≠ 123 ∧
      digit n ≠ 125 := by decide
  unfold Decimal.text Decimal.signText
  rw [decimalWidth, digits_succ]
  cases d.negative with
  | true => exact ⟨45, _, rfl, by decide⟩
  | false => exact ⟨_, _, rfl, hdigit _ (Nat.mod_lt _ (by decide))⟩

/-- No text of a value starts with a closing bracket. -/
theorem head_text_ne (v : Json) (rest : List (BitVec 8)) :
    (text v ++ rest).head? ≠ some 93 := by
  cases v with
  | number d =>
    obtain ⟨c, s, hc, -, -, hne, -⟩ := exists_head_text d
    rw [text, hc]
    exact fun heq => hne (Option.some.inj heq)
  | string t => simp [text]
  | array vs => cases vs <;> simp [text]
  | object ms => cases ms <;> simp [text]

mutual

/-- A value is read back, and nothing that follows it. -/
theorem read_text : ∀ (v : Json) (n : ℕ) (rest : List (BitVec 8)), (text v).length ≤ n →
    Decimal.Ends rest → read n (text v ++ rest) = some (v, rest)
  | number d, n, rest, hn, hrest => by
    -- The first character tells a number from the other values.
    obtain ⟨c, s, hc, h34, h91, -, h123, -⟩ := exists_head_text d
    have hread := Decimal.read_text d hrest
    rw [text] at hn ⊢
    rw [hc] at hn hread ⊢
    cases n with
    | zero => exact absurd hn (by simp)
    | succ n =>
      rw [List.cons_append] at hread ⊢
      rw [read, if_neg h34, if_neg h91, if_neg h123, hread]
      rfl
  | string t, n, rest, hn, _ => by
    rw [text] at hn ⊢
    cases n with
    | zero => exact absurd hn (by simp)
    | succ n =>
      rw [List.cons_append, List.append_assoc, List.singleton_append, read, if_pos rfl,
        PlainText.read_bytes]
      rfl
  | array [], n, rest, hn, _ => by
    rw [text] at hn ⊢
    cases n with
    | zero => exact absurd hn (by simp)
    | succ n => rfl
  | array (v :: vs), n, rest, hn, _ => by
    rw [text] at hn ⊢
    cases n with
    | zero => exact absurd hn (by simp)
    | succ n =>
      rw [List.length_cons, List.length_append] at hn
      have hv := read_text v n (itemsText vs ++ rest) (by omega) (ends_itemsText vs rest)
      have hvs := readItems_text vs n rest (by omega)
      rw [List.cons_append, List.append_assoc, read, if_neg (by decide), if_pos rfl,
        if_neg (head_text_ne v _), hv]
      simp [hvs]
  | object [], n, rest, hn, _ => by
    rw [text] at hn ⊢
    cases n with
    | zero => exact absurd hn (by simp)
    | succ n => rfl
  | object ((name, v) :: ms), n, rest, hn, _ => by
    rw [text] at hn ⊢
    cases n with
    | zero => exact absurd hn (by simp)
    | succ n =>
      simp only [List.length_cons, List.length_append] at hn
      have hv := read_text v n (membersText ms ++ rest) (by omega) (ends_membersText ms rest)
      have hms := readMembers_text ms n rest (by omega)
      simp only [List.cons_append, List.append_assoc]
      rw [read, if_neg (by decide), if_neg (by decide), if_pos rfl, if_neg (by simp),
        readName_text]
      simp [hv, hms]

/-- The items of an array are read back. -/
theorem readItems_text : ∀ (vs : List Json) (n : ℕ) (rest : List (BitVec 8)),
    (itemsText vs).length ≤ n → readItems n (itemsText vs ++ rest) = some (vs, rest)
  | [], n, rest, hn => by
    rw [itemsText] at hn ⊢
    cases n with
    | zero => exact absurd hn (by simp)
    | succ n => rfl
  | v :: vs, n, rest, hn => by
    rw [itemsText] at hn ⊢
    cases n with
    | zero => exact absurd hn (by simp)
    | succ n =>
      rw [List.length_cons, List.length_append] at hn
      have hv := read_text v n (itemsText vs ++ rest) (by omega) (ends_itemsText vs rest)
      have hvs := readItems_text vs n rest (by omega)
      rw [List.cons_append, List.append_assoc, readItems, if_neg (by decide), if_pos rfl, hv]
      simp [hvs]

/-- The members of an object are read back. -/
theorem readMembers_text : ∀ (ms : List (PlainText × Json)) (n : ℕ) (rest : List (BitVec 8)),
    (membersText ms).length ≤ n → readMembers n (membersText ms ++ rest) = some (ms, rest)
  | [], n, rest, hn => by
    rw [membersText] at hn ⊢
    cases n with
    | zero => exact absurd hn (by simp)
    | succ n => rfl
  | (name, v) :: ms, n, rest, hn => by
    rw [membersText] at hn ⊢
    cases n with
    | zero => exact absurd hn (by simp)
    | succ n =>
      simp only [List.length_cons, List.length_append] at hn
      have hv := read_text v n (membersText ms ++ rest) (by omega) (ends_membersText ms rest)
      have hms := readMembers_text ms n rest (by omega)
      simp only [List.cons_append, List.append_assoc]
      rw [readMembers, if_neg (by decide), if_pos rfl, readName_text]
      simp [hv, hms]

end

/-- **Every value is parsed back from its text.** -/
theorem parse_text (v : Json) : parse (text v) = some v := by
  have hread := read_text v (text v).length [] le_rfl ⟨by rintro c ⟨⟩, by simp⟩
  rw [List.append_nil] at hread
  unfold parse
  rw [hread]

end Json
