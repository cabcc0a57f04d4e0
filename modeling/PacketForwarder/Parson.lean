import PacketForwarder.Json
import PacketForwarder.Lib.Strtod

/-!
# The JSON parser

`parson.c`, from the text to the tree.  A pointer into the text is the rest of the text from
there on; its end is the terminator.  `parse_value` counts the nesting up to its limit, and
here it is the levels that are left; no memory allocation fails.

* `removeComments` — blanks in place of the comments;
* `processString`, `getQuotedString` — strings and their escapes;
* `jsonObjectAdd`, `jsonArrayAdd` — objects and arrays that grow up to a capacity;
* `parseValue`, `jsonParseString`, `jsonParseStringWithComments` — the parser.
-/

namespace PacketForwarder

/-- `STARTING_CAPACITY`. -/
@[simp] abbrev startingCapacity : ℕ := 15

/-- `ARRAY_MAX_CAPACITY`. -/
@[simp] abbrev arrayMaxCapacity : ℕ := 122880

/-- `OBJECT_MAX_CAPACITY`. -/
@[simp] abbrev objectMaxCapacity : ℕ := 960

/-- `MAX_NESTING`. -/
@[simp] abbrev maxNesting : ℕ := 19

/-- `SKIP_WHITESPACES`. -/
def skipWhitespaces (s : CString) : CString := s.dropWhile isSpaceByte

/-! ## Comments -/

/-- `strstr`: where a token stands first. -/
def strstr (token : CString) : CString → Option ℕ
  | [] => if token = [] then some 0 else none
  | c :: s => if token <+: c :: s then some 0 else (strstr token s).map (· + 1)

/-- The loop of `remove_comments`, for at most `n` rounds. -/
def removeCommentsLoop (startToken endToken : CString) : ℕ → Bool → Bool → CString → CString
  | 0, _, _, s => s
  | _ + 1, _, _, [] => []
  | n + 1, inString, escaped, c :: s =>
    if c = 92 ∧ escaped = false then c :: removeCommentsLoop startToken endToken n inString true s
    else if c = 34 ∧ escaped = false then
      c :: removeCommentsLoop startToken endToken n (!inString) false s
    else if inString = false ∧ startToken <+: c :: s then
      let string := (c :: s).drop startToken.length
      List.replicate startToken.length 32 ++
        match strstr endToken string with
        | none => string
        | some ptr =>
          List.replicate (ptr + endToken.length) 32 ++
            removeCommentsLoop startToken endToken n inString false
              (string.drop (ptr + endToken.length))
    else c :: removeCommentsLoop startToken endToken n inString false s

/-- `remove_comments`. -/
def removeComments (startToken endToken s : CString) : CString :=
  if startToken = [] ∨ endToken = [] then s
  else removeCommentsLoop startToken endToken s.length false false s

/-! ## Strings -/

/-- The loop of `skip_quotes`. -/
def skipQuotesLoop : CString → CString
  | [] => []
  | c :: s =>
    if c = 34 then s
    else if c = 92 then
      match s with
      | [] => []
      | _ :: s' => skipQuotesLoop s'
    else skipQuotesLoop s

/-- `skip_quotes`. -/
def skipQuotes (s : CString) : CString := skipQuotesLoop s.tail

/-- `is_utf16_hex`. -/
def isUtf16Hex (s : CString) : Bool := 4 ≤ s.length && (s.take 4).all isHexDigit

/-- `sscanf(.., "%4x", ..)` on four digits. -/
def scanHex (s : CString) : U32 := BitVec.ofNat 32 (valueInBase 16 hexDigitValue (s.take 4))

/-- `((cp >> shift) & mask) | tag`, as a `char`. -/
def utf8Byte (cp : U32) (shift : ℕ) (mask tag : U32) : U8 :=
  (((cp >>> shift) &&& mask) ||| tag).setWidth 8

/-- `parse_utf_16`, from behind the `u`: the bytes, and how many digits and so on are read. -/
def parseUtf16 (s : CString) : Option (CString × ℕ) :=
  let cp := scanHex s
  if isUtf16Hex s = false then none
  else if cp < 0x80 then some ([cp.setWidth 8], 4)
  else if cp < 0x800 then some ([utf8Byte cp 6 0x1F 0xC0, utf8Byte cp 0 0x3F 0x80], 4)
  else if cp < 0xD800 ∨ 0xDFFF < cp then
    some ([utf8Byte cp 12 0x0F 0xE0, utf8Byte cp 6 0x3F 0x80, utf8Byte cp 0 0x3F 0x80], 4)
  else if 0xD800 ≤ cp ∧ cp ≤ 0xDBFF then
    let s' := s.drop 6
    let trail := scanHex s'
    if ¬[92, 117] <+: s.drop 4 ∨ isUtf16Hex s' = false ∨ trail < 0xDC00 ∨ 0xDFFF < trail then none
    else
      let cp := (((cp - 0xD800) &&& 0x3FF) <<< 10 ||| ((trail - 0xDC00) &&& 0x3FF)) + 0x010000
      some ([utf8Byte cp 18 0x07 0xF0, utf8Byte cp 12 0x3F 0x80, utf8Byte cp 6 0x3F 0x80,
        utf8Byte cp 0 0x3F 0x80], 10)
  else none

/-- The `switch` of `process_string`, from behind the backslash: the bytes, and how many
characters are read. -/
def processEscape : CString → Option (CString × ℕ)
  | [] => none
  | c :: s =>
    if c = 34 ∨ c = 92 ∨ c = 47 then some ([c], 1)
    else if c = 98 then some ([8], 1)
    else if c = 102 then some ([12], 1)
    else if c = 110 then some ([10], 1)
    else if c = 114 then some ([13], 1)
    else if c = 116 then some ([9], 1)
    else if c = 117 then (parseUtf16 s).map fun (bytes, k) => (bytes, k + 1)
    else none

/-- The loop of `process_string`, for at most `n` rounds; `len` is what is left of the length. -/
def processStringLoop : ℕ → ℕ → CString → Option CString
  | 0, _, _ => some []
  | _ + 1, _, [] => some []
  | n + 1, len, c :: s =>
    if len = 0 then some []
    else if c = 92 then
      (processEscape s).bind fun (bytes, k) =>
        (processStringLoop n (len - 1 - k) (s.drop k)).map (bytes ++ ·)
    else if c < 0x20 then none
    else (processStringLoop n (len - 1) s).map (c :: ·)

/-- `process_string`. -/
def processString (input : CString) (len : ℕ) : Option CString := processStringLoop len len input

/-- `get_quoted_string`: the contents, and the text behind the quote. -/
def getQuotedString (s : CString) : Option (CString × CString) :=
  let string := skipQuotes s
  if string = [] then none
  else (processString s.tail (s.length - string.length - 2)).map fun bytes => (bytes, string)

/-! ## Objects and arrays -/

/-- `json_object_t`, while it grows. -/
structure JsonObjectT where
  fields : JsonObject
  capacity : ℕ

/-- `json_object_init`. -/
def jsonObjectInit : JsonObjectT := ⟨[], 0⟩

/-- `json_object_nget_value`, for a name of `n` characters. -/
def jsonObjectNgetValue (object : JsonObject) (name : CString) : Option JsonValue :=
  (object.find? fun field => field.1 = name).map Prod.snd

/-- The capacity for one element more, if there may be one. -/
def grownCapacity (count capacity maxCapacity : ℕ) : Option ℕ :=
  if capacity ≤ count then
    let newCapacity := max (capacity * 2) startingCapacity
    if maxCapacity < newCapacity then none else some newCapacity
  else some capacity

/-- `json_object_add`. -/
def jsonObjectAdd (object : JsonObjectT) (name : CString) (value : JsonValue) :
    Option JsonObjectT :=
  let name := name.takeWhile (· ≠ 0)
  (grownCapacity object.fields.length object.capacity objectMaxCapacity).bind fun capacity =>
    if (jsonObjectNgetValue object.fields name).isSome then none
    else some ⟨object.fields ++ [(name, value)], capacity⟩

/-- `json_array_t`, while it grows. -/
structure JsonArrayT where
  items : List JsonValue
  capacity : ℕ

/-- `json_array_init`. -/
def jsonArrayInit : JsonArrayT := ⟨[], 0⟩

/-- `json_array_add`. -/
def jsonArrayAdd (array : JsonArrayT) (value : JsonValue) : Option JsonArrayT :=
  (grownCapacity array.items.length array.capacity arrayMaxCapacity).map fun capacity =>
    ⟨array.items ++ [value], capacity⟩

/-! ## Values -/

/-- `is_decimal`. -/
def isDecimal (s : CString) (length : ℕ) : Bool :=
  if 1 < length ∧ s.head? = some 48 ∧ s[1]? ≠ some 46 then false
  else if 2 < length ∧ [45, 48] <+: s ∧ s[2]? ≠ some 46 then false
  else (s.take length).all fun c => c ≠ 120 ∧ c ≠ 88

/-- `parse_number_value`. -/
def parseNumberValue (s : CString) : Option (JsonValue × CString) :=
  let (number, rest) := strtod s
  if isDecimal s (s.length - rest.length) then some (.number number, rest) else none

/-- `parse_boolean_value`. -/
def parseBooleanValue (s : CString) : Option (JsonValue × CString) :=
  if cstr "true" <+: s then some (.boolean true, s.drop 4)
  else if cstr "false" <+: s then some (.boolean false, s.drop 5)
  else none

/-- `parse_null_value`. -/
def parseNullValue (s : CString) : Option (JsonValue × CString) :=
  if cstr "null" <+: s then some (.null, s.drop 4) else none

/-- `parse_string_value`. -/
def parseStringValue (s : CString) : Option (JsonValue × CString) :=
  (getQuotedString s).map fun (bytes, s) => (.string bytes, s)

/-- The loop of `parse_object_value`, for at most `n` members. -/
def parseMembers (value : CString → Option (JsonValue × CString)) :
    ℕ → JsonObjectT → CString → Option (JsonObjectT × CString)
  | 0, _, _ => none
  | n + 1, object, s =>
    if s = [] then some (object, s)
    else
      (getQuotedString s).bind fun (newKey, s) =>
      let s := skipWhitespaces s
      if s.head? ≠ some 58 then none
      else
        (value s.tail).bind fun (newValue, s) =>
        (jsonObjectAdd object newKey newValue).bind fun object =>
        let s := skipWhitespaces s
        if s.head? ≠ some 44 then some (object, s)
        else parseMembers value n object (skipWhitespaces s.tail)

/-- `parse_object_value`, with the parser of the level below. -/
def parseObjectValue (value : CString → Option (JsonValue × CString)) (s : CString) :
    Option (JsonValue × CString) :=
  let s := skipWhitespaces s.tail
  if s.head? = some 125 then some (.object [], s.tail)
  else
    (parseMembers value (s.length + 1) jsonObjectInit s).bind fun (object, s) =>
    let s := skipWhitespaces s
    if s.head? ≠ some 125 then none else some (.object object.fields, s.tail)

/-- The loop of `parse_array_value`, for at most `n` items. -/
def parseItems (value : CString → Option (JsonValue × CString)) :
    ℕ → JsonArrayT → CString → Option (JsonArrayT × CString)
  | 0, _, _ => none
  | n + 1, array, s =>
    if s = [] then some (array, s)
    else
      (value s).bind fun (newValue, s) =>
      (jsonArrayAdd array newValue).bind fun array =>
      let s := skipWhitespaces s
      if s.head? ≠ some 44 then some (array, s)
      else parseItems value n array (skipWhitespaces s.tail)

/-- `parse_array_value`, with the parser of the level below. -/
def parseArrayValue (value : CString → Option (JsonValue × CString)) (s : CString) :
    Option (JsonValue × CString) :=
  let s := skipWhitespaces s.tail
  if s.head? = some 93 then some (.array [], s.tail)
  else
    (parseItems value (s.length + 1) jsonArrayInit s).bind fun (array, s) =>
    let s := skipWhitespaces s
    if s.head? ≠ some 93 then none else some (.array array.items, s.tail)

/-- `parse_value`: without a level left, `nesting > MAX_NESTING`. -/
def parseValue : ℕ → CString → Option (JsonValue × CString)
  | 0 => fun _ => none
  | levels + 1 => fun s =>
    let s := skipWhitespaces s
    match s with
    | [] => none
    | c :: _ =>
      if c = 123 then parseObjectValue (parseValue levels) s
      else if c = 91 then parseArrayValue (parseValue levels) s
      else if c = 34 then parseStringValue s
      else if c = 102 ∨ c = 116 then parseBooleanValue s
      else if c = 45 ∨ isDigitByte c then parseNumberValue s
      else if c = 110 then parseNullValue s
      else none

/-- `json_parse_string`, but for a null pointer. -/
def jsonParseString (s : CString) : Option JsonValue :=
  let s := skipWhitespaces s
  if s.head? ≠ some 123 ∧ s.head? ≠ some 91 then none
  else (parseValue (maxNesting + 1) s).map Prod.fst

/-- `json_parse_string_with_comments`. -/
def jsonParseStringWithComments (s : CString) : Option JsonValue :=
  jsonParseString
    (removeComments (cstr "//") (cstr "\n") (removeComments (cstr "/*") (cstr "*/") s))

end PacketForwarder
