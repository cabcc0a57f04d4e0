import PacketForwarder.Hal

/-!
# Base64

`b64_to_bin` and `bin_to_b64` of `base64.c`.  A character or a code outside the alphabet
calls `exit`, which is compiled to `mem_exit` here and ends the calling thread.
-/

namespace PacketForwarder

/-- The value `char_to_code` returns; a foreign character ends the process instead. -/
def charToCode (x : U8) : Option U8 :=
  if 65 ≤ x ∧ x ≤ 90 then some (x - 65)
  else if 97 ≤ x ∧ x ≤ 122 then some (x - 97 + 26)
  else if 48 ≤ x ∧ x ≤ 57 then some (x - 48 + 52)
  else if x = 43 then some 62
  else if x = 47 then some 63
  else none

/-- A character as six bits of a block. -/
def codeBits (x : U8) (shift : ℕ) : Option U32 := do
  let code : U32 := (0x3F &&& (← charToCode x)).setWidth 32
  return code <<< shift

/-- A byte is cut out of a block of 24 bits. -/
def blockByte (b : U32) (shift : ℕ) : U8 := (b >>> shift).setWidth 8

/-- The blocks of four characters, and the last characters, two or three. -/
def decodeBlocks : CString → Option (List U8)
  | a :: b :: c :: d :: rest => do
    let block := (← codeBits a 18) ||| (← codeBits b 12) ||| (← codeBits c 6) ||| (← codeBits d 0)
    let bytes ← decodeBlocks rest
    return blockByte block 16 :: blockByte block 8 :: blockByte block 0 :: bytes
  | [a, b, c] => do
    let block := (← codeBits a 18) ||| (← codeBits b 12) ||| (← codeBits c 6)
    return [blockByte block 16, blockByte block 8]
  | [a, b] => do
    let block := (← codeBits a 18) ||| (← codeBits b 12)
    return [blockByte block 16]
  | _ => some []

/-- What a decoder or an encoder does. -/
inductive B64Result
  /-- It returns a number, having written the given bytes to the start of `out`. -/
  | returns (len : ℤ) (written : List U8)
  /-- A foreign character ends the calling thread. -/
  | exits
  deriving DecidableEq

/-- `b64_to_bin_nopad`. -/
def b64ToBinNopad (input : CString) (maxLen : ℕ) : B64Result :=
  let fullBlocks := input.length / 4
  let lastChars := input.length % 4
  if input.length = 0 then .returns 0 []
  else if lastChars = 1 then .returns (-1) []
  else
    let lastBytes := lastChars - 1
    let resultLen := 3 * fullBlocks + lastBytes
    if maxLen < resultLen then .returns (-1) []
    else
      match decodeBlocks input with
      | none => .exits
      | some bytes => .returns resultLen bytes

/-- `b64_to_bin`. -/
def b64ToBin (input : CString) (maxLen : ℕ) : B64Result :=
  let size := input.length
  if size % 4 = 0 ∧ 4 ≤ size then
    if input.getD (size - 2) 0 = 61 then b64ToBinNopad (input.take (size - 2)) maxLen
    else if input.getD (size - 1) 0 = 61 then b64ToBinNopad (input.take (size - 1)) maxLen
    else b64ToBinNopad input maxLen
  else b64ToBinNopad input maxLen

/-! ## Encoding -/

/-- The character `code_to_char` returns; a value above 63 ends the process instead. -/
def codeToChar (x : U8) : Option U8 :=
  if x ≤ 25 then some (65 + x)
  else if 26 ≤ x ∧ x ≤ 51 then some (97 + (x - 26))
  else if 52 ≤ x ∧ x ≤ 61 then some (48 + (x - 52))
  else if x = 62 then some 43
  else if x = 63 then some 47
  else none

/-- A byte as eight bits of a block. -/
def byteBits (x : U8) (shift : ℕ) : U32 := (0xFF &&& x.setWidth 32) <<< shift

/-- Six bits of a block as a character. -/
def blockChar (b : U32) (shift : ℕ) : Option U8 :=
  codeToChar ((b >>> shift &&& 0x3F).setWidth 8)

/-- The blocks of three bytes, and the last bytes, one or two. -/
def encodeBlocks : List U8 → Option CString
  | a :: b :: c :: rest => do
    let block := byteBits a 16 ||| byteBits b 8 ||| byteBits c 0
    let chars ← encodeBlocks rest
    return (← blockChar block 18) :: (← blockChar block 12) :: (← blockChar block 6) ::
      (← blockChar block 0) :: chars
  | [a, b] => do
    let block := byteBits a 16 ||| byteBits b 8
    return [← blockChar block 18, ← blockChar block 12, ← blockChar block 6]
  | [a] => do
    let block := byteBits a 16
    return [← blockChar block 18, ← blockChar block 12]
  | [] => some []

/-- `bin_to_b64_nopad`. -/
def binToB64Nopad (input : List U8) (maxLen : ℕ) : B64Result :=
  let fullBlocks := input.length / 3
  let lastBytes := input.length % 3
  if input.length = 0 then .returns 0 [0]
  else
    let lastChars := if lastBytes = 0 then 0 else lastBytes + 1
    let resultLen := 4 * fullBlocks + lastChars
    if maxLen < resultLen + 1 then .returns (-1) []
    else
      match encodeBlocks input with
      | none => .exits
      | some chars => .returns resultLen (chars ++ [0])

/-- `bin_to_b64`. -/
def binToB64 (input : List U8) (maxLen : ℕ) : B64Result :=
  match binToB64Nopad input maxLen with
  | .exits => .exits
  | .returns ret written =>
    if ret = -1 then .returns (-1) written
    else if ret % 4 = 0 then .returns ret written
    else if ret % 4 = 1 then .returns (-1) written
    else if ret % 4 = 2 then
      if ret + 2 + 1 ≤ maxLen then .returns (ret + 2) (written.take ret.toNat ++ [61, 61, 0])
      else .returns (-1) written
    else
      if ret + 1 + 1 ≤ maxLen then .returns (ret + 1) (written.take ret.toNat ++ [61, 0])
      else .returns (-1) written

end PacketForwarder
