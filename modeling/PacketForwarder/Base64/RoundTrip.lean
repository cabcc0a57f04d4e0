import PacketForwarder.Base64

/-!
# Base64 there and back

What `bin_to_b64` writes, and that `b64_to_bin` reads it back.

* `exists_encodedAs` — the encoder never ends the thread, and its characters are
  decoded to the bytes they came from;
* `binToB64_eq` — into a large enough buffer go the characters, the padding and a
  terminator;
* `b64ToBin_encoded`, `b64ToBin_chars` — `b64_to_bin` reads the characters back, padded
  or not;
* `base64_round_trip` — there and back, from either side.
-/

namespace PacketForwarder

/-! ## Characters -/

/-- A character of the alphabet is one that `char_to_code` returns from. -/
def InAlphabet (c : U8) : Prop := (charToCode c).isSome

theorem InAlphabet.ne_pad {c : U8} (h : InAlphabet c) : c ≠ 61 := by
  rintro rfl
  cases h

theorem charToCode_codeToChar {x : U8} (h : x ≤ 63) :
    ∃ c, codeToChar x = some c ∧ charToCode c = some x := by
  have hall : ∀ x : U8, x ≤ 63 →
      (codeToChar x).any (fun c => charToCode c = some x) = true := by decide
  obtain ⟨c, hc, hx⟩ := (Option.any_eq_true _ _).mp (hall x h)
  exact ⟨c, hc, by simpa using hx⟩

/-- Six bits of a block stay where they are. -/
theorem shift_mask (b mask : U32) (shift : ℕ) :
    (b >>> shift &&& mask) <<< shift = b &&& mask <<< shift := by
  ext i hi
  simp only [BitVec.getElem_shiftLeft, BitVec.getElem_and, BitVec.getElem_ushiftRight]
  by_cases h : i < shift
  · simp [h]
  · rw [Nat.add_sub_cancel' (not_lt.mp h), BitVec.getLsbD_eq_getElem hi]
    simp [h]

/-- Six bits of a block become a character, and this character the six bits again. -/
theorem exists_blockChar (b : U32) (shift : ℕ) :
    ∃ c, blockChar b shift = some c ∧ InAlphabet c ∧
      codeBits c shift = some (b &&& (0x3F : U32) <<< shift) := by
  have hle : (b >>> shift &&& 0x3F).setWidth 8 ≤ (63 : U8) := by
    have hand : (b >>> shift &&& 0x3F).toNat ≤ 63 := by
      rw [BitVec.toNat_and]
      exact Nat.and_le_right
    rw [BitVec.le_def, BitVec.toNat_setWidth]
    exact (Nat.mod_le _ _).trans hand
  obtain ⟨c, hc, hcode⟩ := charToCode_codeToChar hle
  refine ⟨c, hc, Option.isSome_of_mem hcode, ?_⟩
  have hbits : (0x3F &&& (b >>> shift &&& 0x3F).setWidth 8 : U8).setWidth 32 =
      b >>> shift &&& 0x3F := by
    ext i hi
    simp
    interval_cases i <;> simp
  unfold codeBits
  rw [hcode, ← shift_mask]
  show some ((0x3F &&& (b >>> shift &&& 0x3F).setWidth 8 : U8).setWidth 32 <<< shift) = _
  rw [hbits]

/-! ## Blocks -/

theorem getLsbD_byteBits (x : U8) (shift i : ℕ) :
    (byteBits x shift).getLsbD i =
      (decide (i < 32) && !decide (i < shift) && x.getLsbD (i - shift)) := by
  have hmask : (0xFF : U32) = (BitVec.allOnes 8).setWidth 32 := rfl
  unfold byteBits
  rw [hmask, ← BitVec.setWidth_and, BitVec.allOnes_and, BitVec.getLsbD_shiftLeft,
    BitVec.getLsbD_setWidth]
  by_cases h : i < 32
  · have hi : i - shift < 32 := by omega
    simp [hi]
  · simp [h]

/-- A mask that covers a byte leaves it. -/
theorem byteBits_and {x : U8} {shift : ℕ} {mask : U32}
    (h : (0xFF : U32) <<< shift &&& mask = (0xFF : U32) <<< shift) :
    byteBits x shift &&& mask = byteBits x shift := by
  unfold byteBits
  rw [BitVec.shiftLeft_and_distrib, BitVec.and_assoc, BitVec.and_comm _ mask,
    ← BitVec.and_assoc, h]

/-- A block of three bytes has 24 bits. -/
theorem mask_three (a b c : U8) :
    (byteBits a 16 ||| byteBits b 8 ||| byteBits c 0) &&& 0xFFFFFF =
      byteBits a 16 ||| byteBits b 8 ||| byteBits c 0 := by
  rw [BitVec.and_or_distrib_right, BitVec.and_or_distrib_right, byteBits_and (by decide),
    byteBits_and (by decide), byteBits_and (by decide)]

/-- A block of two bytes has 16 bits, which end in the third character. -/
theorem mask_two (a b : U8) :
    (byteBits a 16 ||| byteBits b 8) &&& 0xFFFFC0 = byteBits a 16 ||| byteBits b 8 := by
  rw [BitVec.and_or_distrib_right, byteBits_and (by decide), byteBits_and (by decide)]

theorem blockByte_or (x y : U32) (shift : ℕ) :
    blockByte (x ||| y) shift = blockByte x shift ||| blockByte y shift := by
  unfold blockByte
  rw [BitVec.ushiftRight_or_distrib, BitVec.setWidth_or]

/-- A byte is found where it has been put. -/
theorem blockByte_same (x : U8) {shift : ℕ} (h : shift ≤ 24) :
    blockByte (byteBits x shift) shift = x := by
  apply BitVec.eq_of_getLsbD_eq
  intro i hi
  have hlt : shift + i < 32 := by omega
  simp only [blockByte, BitVec.getLsbD_setWidth, BitVec.getLsbD_ushiftRight, getLsbD_byteBits]
  simp [hi, hlt]

/-- It is not found in the place of another one. -/
theorem blockByte_other (x : U8) {shift shift' : ℕ}
    (h : shift + 8 ≤ shift' ∨ shift' + 8 ≤ shift) :
    blockByte (byteBits x shift) shift' = 0#8 := by
  apply BitVec.eq_of_getLsbD_eq
  intro i hi
  simp only [blockByte, BitVec.getLsbD_setWidth, BitVec.getLsbD_ushiftRight, getLsbD_byteBits]
  rcases h with hbelow | habove
  · simp [BitVec.getLsbD_of_ge x (shift' + i - shift) (by omega)]
  · have hlt : shift' + i < shift := by omega
    simp [hlt]

/-- The bytes of a block of two. -/
theorem blockByte_two (a b : U8) :
    blockByte (byteBits a 16 ||| byteBits b 8) 16 = a ∧
      blockByte (byteBits a 16 ||| byteBits b 8) 8 = b := by
  constructor
  · rw [blockByte_or, blockByte_same a (by decide), blockByte_other b (by decide),
      BitVec.or_zero]
  · rw [blockByte_or, blockByte_other a (by decide), blockByte_same b (by decide),
      BitVec.zero_or]

/-- The bytes of a block of three. -/
theorem blockByte_three (a b c : U8) :
    blockByte (byteBits a 16 ||| byteBits b 8 ||| byteBits c 0) 16 = a ∧
      blockByte (byteBits a 16 ||| byteBits b 8 ||| byteBits c 0) 8 = b ∧
      blockByte (byteBits a 16 ||| byteBits b 8 ||| byteBits c 0) 0 = c := by
  obtain ⟨ha, hb⟩ := blockByte_two a b
  refine ⟨?_, ?_, ?_⟩
  · rw [blockByte_or, ha, blockByte_other c (by decide), BitVec.or_zero]
  · rw [blockByte_or, hb, blockByte_other c (by decide), BitVec.or_zero]
  · rw [blockByte_or, blockByte_or, blockByte_other a (by decide), blockByte_other b (by decide),
      blockByte_same c (by decide), BitVec.or_zero, BitVec.zero_or]

/-! ## The encoding -/

/-- What an encoder makes of some bytes. -/
structure EncodedAs (input : List U8) (chars : CString) : Prop where
  encoded : encodeBlocks input = some chars
  decoded : decodeBlocks chars = some input
  length : chars.length = (4 * input.length + 2) / 3
  alphabet : ∀ c ∈ chars, InAlphabet c

theorem EncodedAs.one (a : U8) : ∃ chars, EncodedAs [a] chars := by
  obtain ⟨c1, h1, ha1, hb1⟩ := exists_blockChar (byteBits a 16) 18
  obtain ⟨c2, h2, ha2, hb2⟩ := exists_blockChar (byteBits a 16) 12
  have hjoin : byteBits a 16 &&& (0x3F : U32) <<< 18 ||| byteBits a 16 &&& (0x3F : U32) <<< 12 =
      byteBits a 16 := by
    rw [← BitVec.and_or_distrib_left]
    exact byteBits_and (by decide)
  have hbyte : blockByte (byteBits a 16) 16 = a := blockByte_same a (by decide)
  refine ⟨[c1, c2], ?_, ?_, by simp, by simp [ha1, ha2]⟩
  · simp [encodeBlocks, h1, h2]
  · simp only [decodeBlocks, hb1, hb2, Option.bind_eq_bind, Option.bind_some, Option.pure_def]
    rw [hjoin, hbyte]

theorem EncodedAs.two (a b : U8) : ∃ chars, EncodedAs [a, b] chars := by
  obtain ⟨c1, h1, ha1, hb1⟩ := exists_blockChar (byteBits a 16 ||| byteBits b 8) 18
  obtain ⟨c2, h2, ha2, hb2⟩ := exists_blockChar (byteBits a 16 ||| byteBits b 8) 12
  obtain ⟨c3, h3, ha3, hb3⟩ := exists_blockChar (byteBits a 16 ||| byteBits b 8) 6
  have hjoin : (byteBits a 16 ||| byteBits b 8) &&& (0x3F : U32) <<< 18 |||
      (byteBits a 16 ||| byteBits b 8) &&& (0x3F : U32) <<< 12 |||
      (byteBits a 16 ||| byteBits b 8) &&& (0x3F : U32) <<< 6 =
      byteBits a 16 ||| byteBits b 8 := by
    rw [← BitVec.and_or_distrib_left, ← BitVec.and_or_distrib_left]
    exact mask_two a b
  obtain ⟨hbyte1, hbyte2⟩ := blockByte_two a b
  refine ⟨[c1, c2, c3], ?_, ?_, by simp, by simp [ha1, ha2, ha3]⟩
  · simp [encodeBlocks, h1, h2, h3]
  · simp only [decodeBlocks, hb1, hb2, hb3, Option.bind_eq_bind, Option.bind_some,
      Option.pure_def]
    rw [hjoin, hbyte1, hbyte2]

/-- Three bytes more are four characters more. -/
theorem EncodedAs.cons (a b c : U8) {rest : List U8} {chars : CString}
    (h : EncodedAs rest chars) : ∃ chars', EncodedAs (a :: b :: c :: rest) chars' := by
  obtain ⟨c1, h1, ha1, hb1⟩ :=
    exists_blockChar (byteBits a 16 ||| byteBits b 8 ||| byteBits c 0) 18
  obtain ⟨c2, h2, ha2, hb2⟩ :=
    exists_blockChar (byteBits a 16 ||| byteBits b 8 ||| byteBits c 0) 12
  obtain ⟨c3, h3, ha3, hb3⟩ :=
    exists_blockChar (byteBits a 16 ||| byteBits b 8 ||| byteBits c 0) 6
  obtain ⟨c4, h4, ha4, hb4⟩ :=
    exists_blockChar (byteBits a 16 ||| byteBits b 8 ||| byteBits c 0) 0
  have hjoin : (byteBits a 16 ||| byteBits b 8 ||| byteBits c 0) &&& (0x3F : U32) <<< 18 |||
      (byteBits a 16 ||| byteBits b 8 ||| byteBits c 0) &&& (0x3F : U32) <<< 12 |||
      (byteBits a 16 ||| byteBits b 8 ||| byteBits c 0) &&& (0x3F : U32) <<< 6 |||
      (byteBits a 16 ||| byteBits b 8 ||| byteBits c 0) &&& (0x3F : U32) <<< 0 =
      byteBits a 16 ||| byteBits b 8 ||| byteBits c 0 := by
    rw [← BitVec.and_or_distrib_left, ← BitVec.and_or_distrib_left,
      ← BitVec.and_or_distrib_left]
    exact mask_three a b c
  obtain ⟨hbyte1, hbyte2, hbyte3⟩ := blockByte_three a b c
  refine ⟨c1 :: c2 :: c3 :: c4 :: chars, ?_, ?_, ?_, ?_⟩
  · simp [encodeBlocks, h1, h2, h3, h4, h.encoded]
  · simp only [decodeBlocks, hb1, hb2, hb3, hb4, h.decoded, Option.bind_eq_bind,
      Option.bind_some, Option.pure_def]
    rw [hjoin, hbyte1, hbyte2, hbyte3]
  · have hlen := h.length
    simp only [List.length_cons]
    omega
  · simp only [List.forall_mem_cons]
    exact ⟨ha1, ha2, ha3, ha4, h.alphabet⟩

/-- **The encoder always returns, and its characters are decoded to the bytes.** -/
theorem exists_encodedAs (input : List U8) : ∃ chars, EncodedAs input chars := by
  induction input using encodeBlocks.induct with
  | case1 a b c rest ih =>
    obtain ⟨chars, h⟩ := ih
    exact h.cons a b c
  | case2 a b => exact EncodedAs.two a b
  | case3 a => exact EncodedAs.one a
  | case4 => exact ⟨[], rfl, rfl, rfl, fun c h => absurd h List.not_mem_nil⟩

/-! ## Padding -/

/-- The padding after the encoding of `n` bytes. -/
def padding (n : ℕ) : CString :=
  if n % 3 = 0 then [] else if n % 3 = 1 then [61, 61] else [61]

theorem length_padding {input : List U8} {chars : CString} (h : EncodedAs input chars) :
    (chars ++ padding input.length).length = 4 * ((input.length + 2) / 3) := by
  rw [List.length_append, h.length]
  unfold padding
  split_ifs <;> simp <;> omega

/-- What `bin_to_b64_nopad` writes is the unpadded encoding of its input, if there is room. -/
theorem binToB64Nopad_eq {input : List U8} {chars : CString} (h : EncodedAs input chars)
    {maxLen : ℕ} (hmax : chars.length < maxLen) :
    binToB64Nopad input maxLen = .returns chars.length (chars ++ [0]) := by
  have hlen := h.length
  unfold binToB64Nopad
  by_cases hzero : input.length = 0
  · have hnil : chars = [] := by
      rw [← List.length_eq_zero_iff, hlen, hzero]
    rw [if_pos hzero, hnil]
    rfl
  · have hresult : 4 * (input.length / 3) +
        (if input.length % 3 = 0 then 0 else input.length % 3 + 1) = chars.length := by
      split_ifs <;> omega
    simp only [if_neg hzero, hresult, h.encoded]
    rw [if_neg (by omega)]

/-- **What `bin_to_b64` writes.**  If the padded characters and their terminator fit, they
are what it writes, and their number what it returns. -/
theorem binToB64_eq {input : List U8} {chars : CString} (h : EncodedAs input chars) {maxLen : ℕ}
    (hmax : (chars ++ padding input.length).length < maxLen) :
    binToB64 input maxLen = .returns (chars ++ padding input.length).length
      (chars ++ padding input.length ++ [0]) := by
  have hlen := h.length
  have hpadded := length_padding h
  have hchars : chars.length < maxLen := by
    rw [List.length_append] at hmax
    omega
  unfold binToB64
  rw [binToB64Nopad_eq h hchars]
  simp only [Int.toNat_natCast, List.take_left]
  rw [if_neg (by omega)]
  by_cases h0 : input.length % 3 = 0
  · rw [if_pos (by omega), padding, if_pos h0, List.append_nil]
  · by_cases h1 : input.length % 3 = 1
    · rw [padding, if_neg h0, if_pos h1] at hmax ⊢
      simp only [List.length_append, List.length_cons, List.length_nil] at hmax ⊢
      rw [if_neg (by omega), if_neg (by omega), if_pos (by omega), if_pos (by omega)]
      simp
    · rw [padding, if_neg h0, if_neg h1] at hmax ⊢
      simp only [List.length_append, List.length_cons, List.length_nil] at hmax ⊢
      rw [if_neg (by omega), if_neg (by omega), if_neg (by omega), if_pos (by omega)]
      simp

/-! ## Decoding -/

theorem b64ToBinNopad_encoded {input : List U8} {chars : CString} (h : EncodedAs input chars)
    {maxLen : ℕ} (hmax : input.length ≤ maxLen) :
    b64ToBinNopad chars maxLen = .returns input.length input := by
  have hlen := h.length
  unfold b64ToBinNopad
  by_cases hzero : chars.length = 0
  · have hnil : input = [] := by
      rw [← List.length_eq_zero_iff]
      omega
    rw [if_pos hzero, hnil]
    rfl
  · have hresult : 3 * (chars.length / 4) + (chars.length % 4 - 1) = input.length := by omega
    simp only [if_neg hzero, hresult, h.decoded]
    rw [if_neg (by omega), if_neg (by omega)]

/-- No character of an encoding is taken for padding. -/
theorem getD_ne_pad {input : List U8} {chars : CString} (h : EncodedAs input chars) {k : ℕ}
    (hk : k < chars.length) (rest : CString) : (chars ++ rest).getD k 0 ≠ 61 := by
  rw [List.getD_append _ _ _ _ hk, List.getD_eq_getElem _ _ hk]
  exact (h.alphabet _ (List.getElem_mem hk)).ne_pad

/-- **`b64_to_bin` reads back what `bin_to_b64` writes.** -/
theorem b64ToBin_encoded {input : List U8} {chars : CString} (h : EncodedAs input chars)
    {maxLen : ℕ} (hmax : input.length ≤ maxLen) :
    b64ToBin (chars ++ padding input.length) maxLen = .returns input.length input := by
  have hlen := h.length
  have hpadded := length_padding h
  have hdecode := b64ToBinNopad_encoded h hmax
  unfold b64ToBin
  simp only [hpadded]
  by_cases h0 : input.length % 3 = 0
  · rw [padding, if_pos h0]
    by_cases hzero : input.length = 0
    · rw [if_neg (by omega), List.append_nil, hdecode]
    · rw [if_pos (by omega), if_neg (getD_ne_pad h (by omega) []),
        if_neg (getD_ne_pad h (by omega) []), List.append_nil, hdecode]
  · have hpos : input.length ≠ 0 := by
      intro hzero
      rw [hzero] at h0
      exact h0 rfl
    rw [if_pos (by omega)]
    by_cases h1 : input.length % 3 = 1
    · have hend : 4 * ((input.length + 2) / 3) - 2 = chars.length := by omega
      rw [padding, if_neg h0, if_pos h1, hend, if_pos (by simp), List.take_left, hdecode]
    · have hend : 4 * ((input.length + 2) / 3) - 1 = chars.length := by omega
      rw [padding, if_neg h0, if_neg h1, if_neg (getD_ne_pad h (by omega) [61]), hend,
        if_pos (by simp), List.take_left, hdecode]

/-- It reads them back without their padding, too. -/
theorem b64ToBin_chars {input : List U8} {chars : CString} (h : EncodedAs input chars)
    {maxLen : ℕ} (hmax : input.length ≤ maxLen) :
    b64ToBin chars maxLen = .returns input.length input := by
  have hdecode := b64ToBinNopad_encoded h hmax
  unfold b64ToBin
  by_cases hpadded : chars.length % 4 = 0 ∧ 4 ≤ chars.length
  · have hlast := getD_ne_pad h (k := chars.length - 1) (by omega) []
    have hlast2 := getD_ne_pad h (k := chars.length - 2) (by omega) []
    rw [List.append_nil] at hlast hlast2
    simp only [if_pos hpadded, if_neg hlast, if_neg hlast2, hdecode]
  · simp only [if_neg hpadded, hdecode]

/-! ## There and back -/

/-- `bin_to_b64_nopad` fails only for want of room. -/
theorem binToB64Nopad_eq_neg_one {input : List U8} {maxLen : ℕ} (hinput : input ≠ [])
    (hmax : maxLen ≤ (4 * input.length + 2) / 3) :
    binToB64Nopad input maxLen = .returns (-1) [] := by
  have hpos : input.length ≠ 0 := mt List.length_eq_zero_iff.mp hinput
  unfold binToB64Nopad
  simp only [if_neg hpos]
  rw [if_pos (by split_ifs <;> omega)]

/-- So does `bin_to_b64`, where the padded text and its terminator do not fit. -/
theorem exists_binToB64_eq_neg_one {input : List U8} {maxLen : ℕ} (hinput : input ≠ [])
    (hmax : maxLen ≤ 4 * ((input.length + 2) / 3)) :
    ∃ written, binToB64 input maxLen = .returns (-1) written := by
  unfold binToB64
  by_cases hchars : maxLen ≤ (4 * input.length + 2) / 3
  · exact ⟨[], by rw [binToB64Nopad_eq_neg_one hinput hchars]; rfl⟩
  · obtain ⟨chars, h⟩ := exists_encodedAs input
    have hlen := h.length
    refine ⟨chars ++ [0], ?_⟩
    rw [binToB64Nopad_eq h (by omega)]
    dsimp only
    -- There is no partial block if the characters fit and their padding does not.
    have hpartial : input.length % 3 = 1 ∨ input.length % 3 = 2 := by omega
    rw [if_neg (by omega)]
    rcases hpartial with hone | htwo
    · rw [if_neg (by omega), if_neg (by omega), if_pos (by omega), if_neg (by omega)]
    · rw [if_neg (by omega), if_neg (by omega), if_neg (by omega), if_neg (by omega)]

/-- **There and back.**  What either encoder makes of some bytes is read as these bytes, and
what is read from an output of `bin_to_b64` is encoded as this output. -/
theorem base64_round_trip :
    (∀ (bs : List U8) (paddedMax charsMax outMax : ℕ),
      4 * ((bs.length + 2) / 3) < paddedMax → (4 * bs.length + 2) / 3 < charsMax →
      bs.length ≤ outMax →
        ∃ padded chars : CString,
          binToB64 bs paddedMax = .returns padded.length (padded ++ [0]) ∧
          b64ToBin padded outMax = .returns bs.length bs ∧
          binToB64Nopad bs charsMax = .returns chars.length (chars ++ [0]) ∧
          b64ToBin chars outMax = .returns bs.length bs) ∧
      ∀ (bs : List U8) (maxLen : ℕ) (s : CString),
        binToB64 bs maxLen = .returns s.length (s ++ [0]) → ∀ outMax, bs.length ≤ outMax →
          ∃ bytes : List U8, b64ToBin s outMax = .returns bytes.length bytes ∧
            ∀ maxLen', s.length < maxLen' →
              binToB64 bytes maxLen' = .returns s.length (s ++ [0]) := by
  constructor
  · intro bs paddedMax charsMax outMax hpadded hchars hout
    obtain ⟨chars, h⟩ := exists_encodedAs bs
    exact ⟨chars ++ padding bs.length, chars,
      binToB64_eq h (by rw [length_padding h]; exact hpadded), b64ToBin_encoded h hout,
      binToB64Nopad_eq h (by rw [h.length]; exact hchars), b64ToBin_chars h hout⟩
  · intro bs maxLen s hs outMax hout
    obtain ⟨chars, h⟩ := exists_encodedAs bs
    have hprod : s = chars ++ padding bs.length := by
      by_cases hroom : bs = [] ∨ 4 * ((bs.length + 2) / 3) < maxLen
      · rcases hroom with rfl | hroom
        · cases h.encoded
          injection hs with hlen hwritten
          exact List.append_cancel_right hwritten.symm
        · rw [binToB64_eq h (by rw [length_padding h]; exact hroom)] at hs
          injection hs with hlen hwritten
          exact List.append_cancel_right hwritten.symm
      · obtain ⟨hne, hroom⟩ := not_or.mp hroom
        obtain ⟨written, hfail⟩ := exists_binToB64_eq_neg_one hne (not_lt.mp hroom)
        rw [hfail] at hs
        injection hs with hlen
        omega
    subst hprod
    exact ⟨bs, b64ToBin_encoded h hout, fun maxLen' hmax => binToB64_eq h hmax⟩

theorem base64_round_trip_four_bytes :
    (∃ padded chars : CString,
      binToB64 [1, 2, 3, 4] 9 = .returns padded.length (padded ++ [0]) ∧
      b64ToBin padded 4 = .returns 4 [1, 2, 3, 4] ∧
      binToB64Nopad [1, 2, 3, 4] 7 = .returns chars.length (chars ++ [0]) ∧
      b64ToBin chars 4 = .returns 4 [1, 2, 3, 4]) ∧
      ∃ bytes : List U8, b64ToBin (cstr "AQIDBA==") 4 = .returns bytes.length bytes ∧
        binToB64 bytes 9 = .returns 8 (cstr "AQIDBA==" ++ [0]) := by
  refine ⟨base64_round_trip.1 [1, 2, 3, 4] 9 7 4 (by decide) (by decide) (by decide), ?_⟩
  obtain ⟨bytes, hdecode, hencode⟩ :=
    base64_round_trip.2 [1, 2, 3, 4] 9 (cstr "AQIDBA==") (by decide) 4 (by decide)
  exact ⟨bytes, hdecode, hencode 9 (by decide)⟩

end PacketForwarder
