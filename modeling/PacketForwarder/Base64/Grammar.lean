import PacketForwarder.Base64.RoundTrip

/-!
# The grammar of base64

Which strings `b64_to_bin` should take, what they stand for, and which ones it takes.

* `base64Decode` — the bytes a base64 string stands for: the bits of its characters,
  six each, read eight at a time;
* `b64ToBinNopad_eq` — the decoder checks the length first, then the room, then the
  characters, and it ends the calling thread at the first one that is foreign;
* `b64ToBin_eq_base64Result_iff` — it does what the grammar asks for on the strings of the
  grammar and on those whose length alone is wrong, and on no others.
-/

namespace PacketForwarder

/-! ## The grammar -/

/-- The alphabet, a character at the place of its code. -/
def base64Alphabet : CString :=
  (List.range 26).map (fun k => 65 + BitVec.ofNat 8 k) ++
    (List.range 26).map (fun k => 97 + BitVec.ofNat 8 k) ++
    (List.range 10).map (fun k => 48 + BitVec.ofNat 8 k) ++ [43, 47]

/-- **The base64 strings.**  Characters of the alphabet, whose number is not one more than a
multiple of four, and perhaps one or two `=` that complete them to such a multiple. -/
structure IsBase64 (s chars : CString) : Prop where
  alphabet : ∀ c ∈ chars, c ∈ base64Alphabet
  length : chars.length % 4 ≠ 1
  completed : s = chars ∨ s.length % 4 = 0 ∧ (s = chars ++ [61] ∨ s = chars ++ [61, 61])

instance (s chars : CString) : Decidable (IsBase64 s chars) :=
  decidable_of_iff
    ((∀ c ∈ chars, c ∈ base64Alphabet) ∧ chars.length % 4 ≠ 1 ∧
      (s = chars ∨ s.length % 4 = 0 ∧ (s = chars ++ [61] ∨ s = chars ++ [61, 61])))
    ⟨fun ⟨ha, hl, hc⟩ => ⟨ha, hl, hc⟩, fun h => ⟨h.alphabet, h.length, h.completed⟩⟩

/-- The code of a character is its place in the alphabet. -/
def sextet (c : U8) : BitVec 6 := BitVec.ofNat 6 (base64Alphabet.idxOf c)

/-- Six bits, the highest one first. -/
def sextetBits (x : BitVec 6) : List Bool :=
  [x.getMsbD 0, x.getMsbD 1, x.getMsbD 2, x.getMsbD 3, x.getMsbD 4, x.getMsbD 5]

/-- Bits as bytes, the highest one first.  The last ones, fewer than eight, are dropped. -/
def octets : List Bool → List U8
  | b7 :: b6 :: b5 :: b4 :: b3 :: b2 :: b1 :: b0 :: rest =>
    BitVec.ofBoolListBE [b7, b6, b5, b4, b3, b2, b1, b0] :: octets rest
  | _ => []

/-- What a sequence of characters stands for. -/
def charsBytes (chars : CString) : List U8 :=
  octets (chars.flatMap fun c => sextetBits (sextet c))

/-- What a string stands for, if it is a base64 string. -/
def base64Decode (s : CString) : Option (List U8) :=
  let chars := s.takeWhile (· ∈ base64Alphabet)
  if IsBase64 s chars then some (charsBytes chars) else none

theorem IsBase64.takeWhile_eq {s chars : CString} (h : IsBase64 s chars) :
    s.takeWhile (· ∈ base64Alphabet) = chars := by
  have hall : ∀ c ∈ chars, decide (c ∈ base64Alphabet) = true := by simpa using h.alphabet
  have hpad : 61#8 ∉ base64Alphabet := by decide
  rcases h.completed with rfl | ⟨-, rfl | rfl⟩
  · exact List.takeWhile_eq_self_iff.mpr hall
  · simp [List.takeWhile_append_of_pos hall, hpad]
  · simp [List.takeWhile_append_of_pos hall, hpad]

theorem base64Decode_eq_some_iff {s : CString} {bytes : List U8} :
    base64Decode s = some bytes ↔ ∃ chars, IsBase64 s chars ∧ bytes = charsBytes chars := by
  unfold base64Decode
  constructor
  · intro h
    by_cases hs : IsBase64 s (s.takeWhile (· ∈ base64Alphabet))
    · rw [if_pos hs] at h
      exact ⟨_, hs, (Option.some.inj h).symm⟩
    · rw [if_neg hs] at h
      cases h
  · rintro ⟨chars, h, rfl⟩
    rw [h.takeWhile_eq, if_pos h]

theorem length_octets : ∀ bits : List Bool, (octets bits).length = bits.length / 8
  | b7 :: b6 :: b5 :: b4 :: b3 :: b2 :: b1 :: b0 :: rest => by
    simp only [octets, List.length_cons, length_octets rest]
    omega
  | [] | [_] | [_, _] | [_, _, _] | [_, _, _, _] | [_, _, _, _, _] | [_, _, _, _, _, _]
  | [_, _, _, _, _, _, _] => by simp [octets]

theorem length_charsBytes (chars : CString) : (charsBytes chars).length = 3 * chars.length / 4 := by
  have hbits : (chars.flatMap fun c => sextetBits (sextet c)).length = 6 * chars.length := by
    induction chars with
    | nil => rfl
    | cons c rest ih =>
      rw [List.flatMap_cons, List.length_append, ih, List.length_cons]
      show 6 + 6 * rest.length = _
      omega
  rw [charsBytes, length_octets, hbits]
  omega

/-! ## The decoder -/

theorem charToCode_eq (c : U8) :
    charToCode c = if c ∈ base64Alphabet then some ((sextet c).setWidth 8) else none := by
  have hall : ∀ c : U8, charToCode c =
      if c ∈ base64Alphabet then some ((sextet c).setWidth 8) else none := by decide +kernel
  exact hall c

/-- A character as six bits of a block. -/
theorem codeBits_eq (c : U8) (shift : ℕ) :
    codeBits c shift =
      if c ∈ base64Alphabet then some ((sextet c).setWidth 32 <<< shift) else none := by
  have hmask : ∀ x : BitVec 6, (0x3F &&& x.setWidth 8 : U8).setWidth 32 = x.setWidth 32 := by
    decide +kernel
  unfold codeBits
  rw [charToCode_eq]
  split_ifs
  · rw [Option.bind_eq_bind, Option.bind_some, hmask, Option.pure_def]
  · rfl

/-- The bytes of a block of four characters. -/
theorem octets_four (x y z w : BitVec 6) (rest : List Bool) :
    let block := x.setWidth 32 <<< 18 ||| y.setWidth 32 <<< 12 ||| z.setWidth 32 <<< 6 |||
      w.setWidth 32 <<< 0
    octets (sextetBits x ++ (sextetBits y ++ (sextetBits z ++ (sextetBits w ++ rest)))) =
      blockByte block 16 :: blockByte block 8 :: blockByte block 0 :: octets rest := by
  simp only [sextetBits, List.cons_append, List.nil_append, octets, List.cons.injEq, and_true]
  refine ⟨?_, ?_, ?_⟩ <;>
  · apply BitVec.eq_of_getMsbD_eq
    intro i (hi : i < 8)
    rw [BitVec.getMsbD_ofBoolListBE]
    interval_cases i <;> simp [blockByte, BitVec.getMsbD]

/-- The bytes of a last block of three: those of a block whose last character is zero. -/
theorem octets_three (x y z : BitVec 6) :
    let block := x.setWidth 32 <<< 18 ||| y.setWidth 32 <<< 12 ||| z.setWidth 32 <<< 6
    octets (sextetBits x ++ (sextetBits y ++ (sextetBits z ++ []))) =
      [blockByte block 16, blockByte block 8] := by
  have hfour := octets_four x y z 0#6 []
  have hzero : (0#6).setWidth 32 <<< 0 = 0#32 := by decide
  simp only [hzero, BitVec.or_zero, sextetBits, List.cons_append, List.nil_append, octets,
    List.cons.injEq, and_true] at hfour ⊢
  exact ⟨hfour.1, hfour.2.1⟩

/-- The byte of a last block of two: likewise. -/
theorem octets_two (x y : BitVec 6) :
    let block := x.setWidth 32 <<< 18 ||| y.setWidth 32 <<< 12
    octets (sextetBits x ++ (sextetBits y ++ [])) = [blockByte block 16] := by
  have hthree := octets_three x y 0#6
  have hzero : (0#6).setWidth 32 <<< 6 = 0#32 := by decide
  simp only [hzero, BitVec.or_zero, sextetBits, List.cons_append, List.nil_append, octets,
    List.cons.injEq, and_true] at hthree ⊢
  exact hthree.1

/-- **The blocks are the bits of the characters**, if they are all in the alphabet. -/
theorem decodeBlocks_eq (chars : CString) (hlen : chars.length % 4 ≠ 1) :
    decodeBlocks chars =
      if ∀ c ∈ chars, c ∈ base64Alphabet then some (charsBytes chars) else none := by
  induction chars using decodeBlocks.induct with
  | case1 a b c d rest ih =>
    have hrest : rest.length % 4 ≠ 1 := by
      simp only [List.length_cons] at hlen
      omega
    simp only [decodeBlocks, codeBits_eq, ih hrest, charsBytes, List.flatMap_cons, octets_four]
    split_ifs <;> simp_all
  | case2 a b c =>
    simp only [decodeBlocks, codeBits_eq, charsBytes, List.flatMap_cons, List.flatMap_nil,
      octets_three]
    split_ifs <;> simp_all
  | case3 a b =>
    simp only [decodeBlocks, codeBits_eq, charsBytes, List.flatMap_cons, List.flatMap_nil,
      octets_two]
    split_ifs <;> simp_all
  | case4 chars hfour hthree htwo =>
    have hnil : chars = [] := by
      rcases chars with _ | ⟨a, _ | ⟨b, _ | ⟨c, _ | ⟨d, rest⟩⟩⟩⟩
      · rfl
      · exact absurd rfl hlen
      · exact absurd rfl (htwo a b)
      · exact absurd rfl (hthree a b c)
      · exact absurd rfl (hfour a b c d rest)
    subst hnil
    rfl

/-- **What the decoder does.**  It looks at the length first, then at the room, and then at
the characters. -/
theorem b64ToBinNopad_eq (chars : CString) (maxLen : ℕ) :
    b64ToBinNopad chars maxLen =
      if chars.length % 4 = 1 ∨ maxLen < 3 * chars.length / 4 then .returns (-1) []
      else if ∀ c ∈ chars, c ∈ base64Alphabet then
        .returns (charsBytes chars).length (charsBytes chars)
      else .exits := by
  unfold b64ToBinNopad
  by_cases hzero : chars.length = 0
  · have hnil : chars = [] := List.length_eq_zero_iff.mp hzero
    subst hnil
    rfl
  · by_cases hone : chars.length % 4 = 1
    · simp only [hzero, hone, if_true, if_false, true_or]
    · have hresult : 3 * (chars.length / 4) + (chars.length % 4 - 1) = 3 * chars.length / 4 := by
        omega
      simp only [hzero, hone, if_false, false_or, hresult, decodeBlocks_eq chars hone,
        length_charsBytes]
      by_cases hroom : maxLen < 3 * chars.length / 4
      · simp only [hroom, if_true]
      · simp only [hroom, if_false]
        split_ifs <;> rfl

/-! ## Padding -/

/-- The characters `b64_to_bin` takes for those before the padding. -/
def unpadded (input : CString) : CString :=
  let size := input.length
  if size % 4 = 0 ∧ 4 ≤ size then
    if input.getD (size - 2) 0 = 61 then input.take (size - 2)
    else if input.getD (size - 1) 0 = 61 then input.take (size - 1)
    else input
  else input

theorem b64ToBin_eq (input : CString) (maxLen : ℕ) :
    b64ToBin input maxLen = b64ToBinNopad (unpadded input) maxLen := by
  unfold b64ToBin unpadded
  dsimp only
  split_ifs <;> rfl

theorem length_unpadded_le (input : CString) : (unpadded input).length ≤ input.length := by
  unfold unpadded
  dsimp only
  split_ifs <;> simp

/-- No padding is left where there was none to complete the length. -/
theorem length_unpadded_mod (input : CString) :
    (unpadded input).length % 4 = 1 ↔ input.length % 4 = 1 := by
  unfold unpadded
  dsimp only
  split_ifs with hfour
  · rw [List.length_take_of_le (Nat.sub_le _ _)]
    omega
  · rw [List.length_take_of_le (Nat.sub_le _ _)]
    omega
  · rfl
  · rfl

theorem ne_pad_of_mem {c : U8} (h : c ∈ base64Alphabet) : c ≠ 61 := by
  rintro rfl
  revert h
  decide

/-- It finds the characters of a base64 string. -/
theorem IsBase64.unpadded_eq {s chars : CString} (h : IsBase64 s chars) : unpadded s = chars := by
  have hne : ∀ {k : ℕ} (rest : CString), k < chars.length → (chars ++ rest).getD k 0 ≠ 61 := by
    intro k rest hk
    rw [List.getD_append _ _ _ _ hk, List.getD_eq_getElem _ _ hk]
    exact ne_pad_of_mem (h.alphabet _ (List.getElem_mem hk))
  have hlen := h.length
  unfold unpadded
  rcases h.completed with rfl | ⟨hfour, rfl | rfl⟩
  · by_cases hpadded : s.length % 4 = 0 ∧ 4 ≤ s.length
    · have hlast := hne [] (k := s.length - 1) (by omega)
      have hlast2 := hne [] (k := s.length - 2) (by omega)
      rw [List.append_nil] at hlast hlast2
      simp only [if_pos hpadded, if_neg hlast, if_neg hlast2]
    · simp only [if_neg hpadded]
  · simp only [List.length_append, List.length_cons, List.length_nil] at hfour ⊢
    have hend : chars.length + (0 + 1) - 1 = chars.length := by omega
    have hlast2 := hne [61] (k := chars.length + (0 + 1) - 2) (by omega)
    rw [if_pos (by omega), if_neg hlast2, hend, if_pos (by simp), List.take_left]
  · simp only [List.length_append, List.length_cons, List.length_nil] at hfour ⊢
    have hend : chars.length + (0 + 1 + 1) - 2 = chars.length := by omega
    rw [if_pos (by omega), hend, if_pos (by simp), List.take_left]

/-- **A base64 string is read**, if there is room for its bytes. -/
theorem b64ToBin_of_base64Decode {s : CString} {bytes : List U8} {maxLen : ℕ}
    (h : base64Decode s = some bytes) (hroom : bytes.length ≤ maxLen) :
    b64ToBin s maxLen = .returns bytes.length bytes := by
  obtain ⟨chars, hs, rfl⟩ := base64Decode_eq_some_iff.mp h
  rw [length_charsBytes] at hroom
  rw [b64ToBin_eq, b64ToBinNopad_eq, hs.unpadded_eq,
    if_neg (not_or.mpr ⟨hs.length, not_lt.mpr hroom⟩), if_pos hs.alphabet]

/-! ## Exactness -/

/-- What a decoder of the grammar does. -/
def base64Result (s : CString) : B64Result :=
  match base64Decode s with
  | some bytes => .returns bytes.length bytes
  | none => .returns (-1) []

/-- The room a string needs: for the bytes it stands for, or for as many as its characters
could stand for. -/
def base64Room (s : CString) : ℕ :=
  match base64Decode s with
  | some bytes => bytes.length
  | none => 3 * s.length / 4

/-- **`b64_to_bin` and the grammar.**  It does what the grammar asks for exactly on the strings
of the grammar and on those of a length that no padding explains.  A foreign character in any
other string either ends the calling thread or is dropped with the padding. -/
theorem b64ToBin_eq_base64Result_iff (s : CString) (maxLen : ℕ) (hroom : base64Room s ≤ maxLen) :
    b64ToBin s maxLen = base64Result s ↔ (base64Decode s).isSome ∨ s.length % 4 = 1 := by
  unfold base64Result
  unfold base64Room at hroom
  cases hs : base64Decode s with
  | some bytes =>
    rw [hs] at hroom
    simp only [b64ToBin_of_base64Decode hs hroom, Option.isSome_some, true_or]
  | none =>
    rw [hs] at hroom
    dsimp only at hroom
    have hmod := length_unpadded_mod s
    have hle := length_unpadded_le s
    rw [b64ToBin_eq, b64ToBinNopad_eq]
    by_cases hone : s.length % 4 = 1
    · rw [if_pos (Or.inl (hmod.mpr hone))]
      simp [hone]
    · rw [if_neg (not_or.mpr ⟨mt hmod.mp hone, by omega⟩)]
      simp only [Option.isSome_none, Bool.false_eq_true, hone, or_self, iff_false]
      split_ifs
      · intro h
        injection h with hlen
        omega
      · intro h
        cases h

/-- `$A`: at the foreign character the thread ends. -/
theorem b64ToBin_foreign_char :
    ¬ ∀ (s : CString) (maxLen : ℕ), base64Room s ≤ maxLen →
      b64ToBin s maxLen = base64Result s := by
  intro h
  exact absurd (h [36, 65] 1 (by decide)) (by decide)

theorem b64ToBin_eq_base64Result_iff_padded :
    b64ToBin [81, 81, 61, 61] 1 = base64Result [81, 81, 61, 61] ↔
      (base64Decode [81, 81, 61, 61]).isSome ∨ [81, 81, 61, 61].length % 4 = 1 :=
  b64ToBin_eq_base64Result_iff [81, 81, 61, 61] 1 (by decide)

end PacketForwarder
