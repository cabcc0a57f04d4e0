import PacketForwarder.Parson
import PacketForwarder.Lib.JsonSyntax

/-!
# Strings are read as they are meant

* `parseUtf16_unicode`, `parseUtf16_surrogates` — an escape gives the UTF-8 encoding of the
  character it stands for, in one half or in two;
* `getQuotedString_text` — a string gives what its pieces stand for, and the text behind it.

The closing quote is found first, without a look at the escapes but for the character behind
each backslash; `skipQuotesLoop_pieces` says that no piece hides it or looks like it.
-/

namespace PacketForwarder

/-! ## UTF-8 -/

/-- The bits of one byte: a part of the code point below the tag. -/
theorem utf8Byte_ofNat {v shift k t : ℕ} (hv : v < 2 ^ 32) (hk : k ≤ 8) (ht : 2 ^ k * t < 256) :
    utf8Byte (BitVec.ofNat 32 v) shift (BitVec.ofNat 32 (2 ^ k - 1)) (BitVec.ofNat 32 (2 ^ k * t)) =
      BitVec.ofNat 8 (2 ^ k * t + v / 2 ^ shift % 2 ^ k) := by
  have hpow : 2 ^ k ≤ 2 ^ 8 := Nat.pow_le_pow_right (by decide) hk
  have hmask : (2 ^ k - 1) % 2 ^ 32 = 2 ^ k - 1 := Nat.mod_eq_of_lt (by omega)
  have htag : (2 ^ k * t) % 2 ^ 32 = 2 ^ k * t := Nat.mod_eq_of_lt (by omega)
  have hlow : v / 2 ^ shift % 2 ^ k < 2 ^ k := Nat.mod_lt _ (by positivity)
  apply BitVec.eq_of_toNat_eq
  simp only [utf8Byte, BitVec.toNat_setWidth, BitVec.toNat_or, BitVec.toNat_and,
    BitVec.toNat_ushiftRight, BitVec.toNat_ofNat, Nat.mod_eq_of_lt hv, hmask, htag,
    Nat.shiftRight_eq_div_pow, Nat.and_two_pow_sub_one_eq_mod]
  rw [Nat.or_comm, Nat.two_pow_add_eq_or_of_lt hlow]

/-- A byte behind the first one. -/
theorem utf8Byte_tail {v shift d : ℕ} (hv : v < 2 ^ 32) (hd : 2 ^ shift = d) :
    utf8Byte (BitVec.ofNat 32 v) shift 0x3F 0x80 = BitVec.ofNat 8 (0x80 + v / d % 64) := by
  rw [← hd]
  exact utf8Byte_ofNat (k := 6) (t := 2) hv (by decide) (by decide)

/-- The last byte of an encoding holds the six lowest bits. -/
theorem utf8Byte_low {v : ℕ} (hv : v < 2 ^ 32) :
    utf8Byte (BitVec.ofNat 32 v) 0 0x3F 0x80 = BitVec.ofNat 8 (0x80 + v % 64) := by
  rw [utf8Byte_tail hv (pow_zero 2), Nat.div_one]

theorem length_text_hexQuad (q : HexQuad) : q.text.length = 4 := rfl

theorem hexDigitValue_lt {c : U8} (h : isHexDigit c = true) : hexDigitValue c < 16 := by
  revert c
  decide

theorem value_hexQuad_lt (q : HexQuad) : q.value < 65536 := by
  obtain ⟨ha, hb, hc, hd⟩ := q.isHex
  have hda := hexDigitValue_lt ha
  have hdb := hexDigitValue_lt hb
  have hdc := hexDigitValue_lt hc
  have hdd := hexDigitValue_lt hd
  simp only [HexQuad.value, valueInBase, HexQuad.text, List.foldl_cons, List.foldl_nil]
  omega

theorem isUtf16Hex_text (q : HexQuad) (s : CString) : isUtf16Hex (q.text ++ s) = true := by
  obtain ⟨ha, hb, hc, hd⟩ := q.isHex
  simp [isUtf16Hex, HexQuad.text, ha, hb, hc, hd]

theorem scanHex_text (q : HexQuad) (s : CString) :
    scanHex (q.text ++ s) = BitVec.ofNat 32 q.value := rfl

theorem ofNat_lt_ofNat {m n : ℕ} (hm : m < 2 ^ 32) (hn : n < 2 ^ 32) :
    BitVec.ofNat 32 m < BitVec.ofNat 32 n ↔ m < n := by
  rw [BitVec.lt_def, BitVec.toNat_ofNat, BitVec.toNat_ofNat, Nat.mod_eq_of_lt hm,
    Nat.mod_eq_of_lt hn]

theorem ofNat_le_ofNat {m n : ℕ} (hm : m < 2 ^ 32) (hn : n < 2 ^ 32) :
    BitVec.ofNat 32 m ≤ BitVec.ofNat 32 n ↔ m ≤ n := by
  rw [BitVec.le_def, BitVec.toNat_ofNat, BitVec.toNat_ofNat, Nat.mod_eq_of_lt hm,
    Nat.mod_eq_of_lt hn]

/-- A character of the first plane. -/
theorem parseUtf16_unicode (q : HexQuad) (hq : q.value < 0xD800 ∨ 0xDFFF < q.value)
    (s : CString) : parseUtf16 (q.text ++ s) = some (utf8 q.value, 4) := by
  have hv := value_hexQuad_lt q
  have hv32 : q.value < 2 ^ 32 := by omega
  have h7 : BitVec.ofNat 32 q.value < 0x80 ↔ q.value < 0x80 := ofNat_lt_ofNat hv32 (by decide)
  have h11 : BitVec.ofNat 32 q.value < 0x800 ↔ q.value < 0x800 := ofNat_lt_ofNat hv32 (by decide)
  have hsingle : BitVec.ofNat 32 q.value < 0xD800 ∨ 0xDFFF < BitVec.ofNat 32 q.value :=
    hq.imp (ofNat_lt_ofNat hv32 (by decide)).mpr (ofNat_lt_ofNat (by decide) hv32).mpr
  unfold parseUtf16 utf8
  rw [isUtf16Hex_text, scanHex_text]
  simp only [Bool.true_eq_false, if_false, h7, h11, if_pos hsingle, if_pos hv]
  split
  · refine congrArg some (Prod.ext (congrArg (fun b => [b]) ?_) rfl)
    exact BitVec.eq_of_toNat_eq (by simp)
  · split
    · have hdiv : q.value / 2 ^ 6 % 2 ^ 5 = q.value / 64 := Nat.mod_eq_of_lt (by omega)
      have hhigh : utf8Byte (BitVec.ofNat 32 q.value) 6 0x1F 0xC0 =
          BitVec.ofNat 8 (0xC0 + q.value / 64) :=
        (utf8Byte_ofNat (k := 5) (t := 6) hv32 (by decide) (by decide)).trans (by rw [hdiv]; rfl)
      rw [hhigh, utf8Byte_low hv32]
    · have hdiv : q.value / 2 ^ 12 % 2 ^ 4 = q.value / 4096 := Nat.mod_eq_of_lt (by omega)
      have hhigh : utf8Byte (BitVec.ofNat 32 q.value) 12 0x0F 0xE0 =
          BitVec.ofNat 8 (0xE0 + q.value / 4096) :=
        (utf8Byte_ofNat (k := 4) (t := 14) hv32 (by decide) (by decide)).trans (by rw [hdiv]; rfl)
      rw [hhigh, utf8Byte_tail (d := 64) hv32 rfl, utf8Byte_low hv32]

/-- What one half of a character adds: ten bits above its base. -/
theorem toNat_half (base : ℕ) {v : ℕ} (hbase : base ≤ v) (hv : v < base + 2 ^ 10)
    (hv32 : v < 2 ^ 32) :
    ((BitVec.ofNat 32 v - BitVec.ofNat 32 base) &&& 0x3FF).toNat = v - base := by
  have hlit : (0x3FF : U32).toNat = 2 ^ 10 - 1 := rfl
  have hbase32 : base < 2 ^ 32 := by omega
  have hten : v - base < 2 ^ 10 := by omega
  have hsub : (2 ^ 32 - base + v) % 2 ^ 32 = v - base := by omega
  rw [BitVec.toNat_and, BitVec.toNat_sub, BitVec.toNat_ofNat, BitVec.toNat_ofNat, hlit,
    Nat.mod_eq_of_lt hv32, Nat.mod_eq_of_lt hbase32, hsub, Nat.and_two_pow_sub_one_eq_mod,
    Nat.mod_eq_of_lt hten]

/-- The two halves of a character of another plane, put together. -/
theorem surrogates_ofNat {lead trail : ℕ} (hlead : 0xD800 ≤ lead ∧ lead ≤ 0xDBFF)
    (htrail : 0xDC00 ≤ trail ∧ trail ≤ 0xDFFF) :
    (((BitVec.ofNat 32 lead - 0xD800) &&& 0x3FF) <<< 10 |||
        ((BitVec.ofNat 32 trail - 0xDC00) &&& 0x3FF)) + 0x010000 =
      BitVec.ofNat 32 (0x10000 + (lead - 0xD800) * 0x400 + (trail - 0xDC00)) := by
  have hhigh : ((BitVec.ofNat 32 lead - 0xD800) &&& 0x3FF).toNat = lead - 0xD800 :=
    toNat_half 0xD800 hlead.1 (by omega) (by omega)
  have hlow : ((BitVec.ofNat 32 trail - 0xDC00) &&& 0x3FF).toNat = trail - 0xDC00 :=
    toNat_half 0xDC00 htrail.1 (by omega) (by omega)
  have hor : (lead - 0xD800) * 2 ^ 10 ||| (trail - 0xDC00) =
      (lead - 0xD800) * 2 ^ 10 + (trail - 0xDC00) := by
    rw [mul_comm]
    exact (Nat.two_pow_add_eq_or_of_lt (by omega) _).symm
  have hlit : (0x010000 : U32).toNat = 0x10000 := rfl
  have hshift : (lead - 0xD800) * 2 ^ 10 % 2 ^ 32 = (lead - 0xD800) * 2 ^ 10 :=
    Nat.mod_eq_of_lt (by omega)
  apply BitVec.eq_of_toNat_eq
  rw [BitVec.toNat_add, BitVec.toNat_or, BitVec.toNat_shiftLeft, hhigh, hlow,
    Nat.shiftLeft_eq, hshift, hor, BitVec.toNat_ofNat, hlit]
  exact congrArg (· % 2 ^ 32) (by omega)

/-- A character of another plane is put together from its two halves. -/
theorem parseUtf16_surrogates (lead trail : HexQuad)
    (hlead : 0xD800 ≤ lead.value ∧ lead.value ≤ 0xDBFF)
    (htrail : 0xDC00 ≤ trail.value ∧ trail.value ≤ 0xDFFF) (s : CString) :
    parseUtf16 (lead.text ++ (92 :: 117 :: (trail.text ++ s))) =
      some (utf8 (0x10000 + (lead.value - 0xD800) * 0x400 + (trail.value - 0xDC00)), 10) := by
  have hl32 : lead.value < 2 ^ 32 := by omega
  have ht32 : trail.value < 2 ^ 32 := by omega
  have h7 : ¬BitVec.ofNat 32 lead.value < 0x80 :=
    fun h => absurd ((ofNat_lt_ofNat (n := 0x80) hl32 (by decide)).mp h) (by omega)
  have h11 : ¬BitVec.ofNat 32 lead.value < 0x800 :=
    fun h => absurd ((ofNat_lt_ofNat (n := 0x800) hl32 (by decide)).mp h) (by omega)
  have hsingle : ¬(BitVec.ofNat 32 lead.value < 0xD800 ∨ 0xDFFF < BitVec.ofNat 32 lead.value) := by
    rintro (h | h)
    · exact absurd ((ofNat_lt_ofNat (n := 0xD800) hl32 (by decide)).mp h) (by omega)
    · exact absurd ((ofNat_lt_ofNat (m := 0xDFFF) (by decide) hl32).mp h) (by omega)
  have hisLead : 0xD800 ≤ BitVec.ofNat 32 lead.value ∧ BitVec.ofNat 32 lead.value ≤ 0xDBFF :=
    ⟨(ofNat_le_ofNat (by decide) hl32).mpr hlead.1, (ofNat_le_ofNat hl32 (by decide)).mpr hlead.2⟩
  have hlow : ¬BitVec.ofNat 32 trail.value < 0xDC00 :=
    fun h => absurd ((ofNat_lt_ofNat (n := 0xDC00) ht32 (by decide)).mp h) (by omega)
  have hhigh : ¬0xDFFF < BitVec.ofNat 32 trail.value :=
    fun h => absurd ((ofNat_lt_ofNat (m := 0xDFFF) (by decide) ht32).mp h) (by omega)
  have hdrop4 : (lead.text ++ (92 :: 117 :: (trail.text ++ s))).drop 4 =
      92 :: 117 :: (trail.text ++ s) := rfl
  have hdrop6 : (lead.text ++ (92 :: 117 :: (trail.text ++ s))).drop 6 = trail.text ++ s := rfl
  have hprefix : [92, 117] <+: 92 :: 117 :: (trail.text ++ s) := ⟨trail.text ++ s, rfl⟩
  unfold parseUtf16
  rw [isUtf16Hex_text, scanHex_text, hdrop4, hdrop6]
  simp only [isUtf16Hex_text, scanHex_text, Bool.true_eq_false, if_false, if_neg h7, if_neg h11,
    if_neg hsingle, if_pos hisLead,
    hprefix, not_true, hlow, hhigh, or_self, surrogates_ofNat hlead htrail]
  obtain ⟨cp, hcp⟩ : ∃ cp, cp = 0x10000 + (lead.value - 0xD800) * 0x400 + (trail.value - 0xDC00) :=
    ⟨_, rfl⟩
  rw [← hcp]
  have hcp32 : cp < 2 ^ 32 := by omega
  have hdiv : cp / 2 ^ 18 % 2 ^ 3 = cp / 262144 := Nat.mod_eq_of_lt (by omega)
  have hfirst : utf8Byte (BitVec.ofNat 32 cp) 18 0x07 0xF0 = BitVec.ofNat 8 (0xF0 + cp / 262144) :=
    (utf8Byte_ofNat (k := 3) (t := 30) hcp32 (by decide) (by decide)).trans (by rw [hdiv]; rfl)
  have hutf8 : utf8 cp = [BitVec.ofNat 8 (0xF0 + cp / 262144),
      BitVec.ofNat 8 (0x80 + cp / 4096 % 64), BitVec.ofNat 8 (0x80 + cp / 64 % 64),
      BitVec.ofNat 8 (0x80 + cp % 64)] := by
    unfold utf8
    rw [if_neg (by omega), if_neg (by omega), if_neg (by omega)]
  rw [hfirst, utf8Byte_tail (d := 4096) hcp32 rfl, utf8Byte_tail (d := 64) hcp32 rfl,
    utf8Byte_low hcp32, hutf8]

/-! ## Pieces -/

theorem isHexDigit_ne {c : U8} (h : isHexDigit c = true) : c ≠ 34 ∧ c ≠ 92 := by
  revert c
  decide

/-- A piece that is no plain character stands behind a backslash. -/
theorem processEscape_piece (p : StringPiece) (s : CString) :
    (∃ c, p.text = [c] ∧ p.bytes = [c] ∧ 32 ≤ c ∧ c ≠ 34 ∧ c ≠ 92) ∨
      ∃ t, p.text = 92 :: t ∧ processEscape (t ++ s) = some (p.bytes, t.length) := by
  match p with
  | .plain c allowed => exact .inl ⟨c, rfl, rfl, allowed⟩
  | .escape e =>
    refine .inr ⟨[e.letter], rfl, ?_⟩
    cases e <;> rfl
  | .unicode q single =>
    refine .inr ⟨117 :: q.text, rfl, ?_⟩
    show (parseUtf16 (q.text ++ s)).map _ = _
    rw [parseUtf16_unicode q single]
    rfl
  | .surrogates lead trail isLead isTrail =>
    refine .inr ⟨117 :: (lead.text ++ 92 :: 117 :: trail.text), rfl, ?_⟩
    have hread := parseUtf16_surrogates lead trail isLead isTrail s
    show (parseUtf16 (lead.text ++ 92 :: 117 :: trail.text ++ s)).map _ = _
    rw [List.append_assoc, List.cons_append, List.cons_append, hread]
    rfl

theorem skipQuotesLoop_cons {c : U8} (hquote : c ≠ 34) (hbackslash : c ≠ 92) (s : CString) :
    skipQuotesLoop (c :: s) = skipQuotesLoop s := by
  rw [skipQuotesLoop.eq_def]
  simp only [if_neg hquote, if_neg hbackslash]

theorem skipQuotesLoop_backslash (c : U8) (s : CString) :
    skipQuotesLoop (92 :: c :: s) = skipQuotesLoop s := by
  have hne : (92 : U8) ≠ 34 := by decide
  rw [skipQuotesLoop.eq_def]
  simp only [if_neg hne, if_true]

theorem skipQuotesLoop_quote (s : CString) : skipQuotesLoop (34 :: s) = s := by
  rw [skipQuotesLoop.eq_def]
  simp only [if_true]

theorem skipQuotesLoop_hexQuad (q : HexQuad) (s : CString) :
    skipQuotesLoop (92 :: 117 :: (q.text ++ s)) = skipQuotesLoop s := by
  obtain ⟨ha, hb, hc, hd⟩ := q.isHex
  have hcons : ∀ {c : U8} (s : CString), isHexDigit c = true →
      skipQuotesLoop (c :: s) = skipQuotesLoop s :=
    fun s h => skipQuotesLoop_cons (isHexDigit_ne h).1 (isHexDigit_ne h).2 s
  rw [skipQuotesLoop_backslash]
  show skipQuotesLoop (q.a :: q.b :: q.c :: q.d :: s) = _
  rw [hcons _ ha, hcons _ hb, hcons _ hc, hcons _ hd]

/-- No piece of a string ends it for `skip_quotes`. -/
theorem skipQuotesLoop_piece (p : StringPiece) (s : CString) :
    skipQuotesLoop (p.text ++ s) = skipQuotesLoop s := by
  match p with
  | .plain c allowed => exact skipQuotesLoop_cons allowed.2.1 allowed.2.2 s
  | .escape e => exact skipQuotesLoop_backslash e.letter s
  | .unicode q _ => exact skipQuotesLoop_hexQuad q s
  | .surrogates lead trail _ _ =>
    show skipQuotesLoop (92 :: 117 :: (lead.text ++ 92 :: 117 :: trail.text ++ s)) = _
    rw [List.append_assoc, skipQuotesLoop_hexQuad]
    exact skipQuotesLoop_hexQuad trail s

theorem skipQuotesLoop_pieces (pieces : List StringPiece) (s : CString) :
    skipQuotesLoop (pieces.flatMap StringPiece.text ++ 34 :: s) = s := by
  induction pieces with
  | nil => exact skipQuotesLoop_quote s
  | cons p pieces ih => rw [List.flatMap_cons, List.append_assoc, skipQuotesLoop_piece, ih]

/-- **The contents of a string**, whatever stands behind it. -/
theorem processStringLoop_pieces (pieces : List StringPiece) (s : CString) {n : ℕ}
    (hn : (pieces.flatMap StringPiece.text).length ≤ n) :
    processStringLoop n (pieces.flatMap StringPiece.text).length
        (pieces.flatMap StringPiece.text ++ s) =
      some (pieces.flatMap StringPiece.bytes) := by
  induction pieces generalizing n with
  | nil =>
    cases n with
    | zero => rfl
    | succ n =>
      cases s with
      | nil => rfl
      | cons c s => rfl
  | cons p pieces ih =>
    rw [List.flatMap_cons, List.length_append] at hn
    rw [List.flatMap_cons, List.flatMap_cons, List.append_assoc, List.length_append]
    rcases processEscape_piece p (pieces.flatMap StringPiece.text ++ s) with
      ⟨c, htext, hbytes, hmin, -, hbackslash⟩ | ⟨t, htext, hescape⟩
    · rw [htext, List.length_singleton] at hn
      obtain ⟨n, rfl⟩ : ∃ k, n = k + 1 := ⟨n - 1, by omega⟩
      have hcontrol : ¬c < 0x20 := BitVec.not_lt.mpr hmin
      have hlen : 1 + (pieces.flatMap StringPiece.text).length - 1 =
          (pieces.flatMap StringPiece.text).length :=
        Nat.add_sub_cancel_left 1 _
      rw [htext, hbytes, List.length_singleton, List.cons_append, List.nil_append,
        processStringLoop, if_neg (by omega), if_neg hbackslash, if_neg hcontrol, hlen,
        ih (by omega)]
      rfl
    · rw [htext, List.length_cons] at hn
      obtain ⟨n, rfl⟩ : ∃ k, n = k + 1 := ⟨n - 1, by omega⟩
      have hlen : t.length + 1 + (pieces.flatMap StringPiece.text).length - 1 - t.length =
          (pieces.flatMap StringPiece.text).length := by omega
      rw [htext, List.length_cons, List.cons_append, processStringLoop, if_neg (by omega),
        if_pos rfl, hescape, Option.bind_some]
      simp only
      rw [List.drop_left, hlen, ih (by omega)]
      rfl

/-- **A string is read**, when something stands behind it. -/
theorem getQuotedString_text (pieces : List StringPiece) {s : CString} (hs : s ≠ []) :
    getQuotedString (quotedText pieces ++ s) = some (pieces.flatMap StringPiece.bytes, s) := by
  have hskip : skipQuotes (quotedText pieces ++ s) = s := by
    show skipQuotesLoop (pieces.flatMap StringPiece.text ++ [34] ++ s) = s
    rw [List.append_assoc]
    exact skipQuotesLoop_pieces pieces s
  have hlen : (quotedText pieces ++ s).length - s.length - 2 =
      (pieces.flatMap StringPiece.text).length := by
    simp [quotedText]
    omega
  have htail : (quotedText pieces ++ s).tail = pieces.flatMap StringPiece.text ++ (34 :: s) := by
    simp [quotedText]
  unfold getQuotedString
  simp only [hskip, if_neg hs, hlen, htail, processString]
  rw [processStringLoop_pieces pieces (34 :: s) le_rfl]
  rfl

end PacketForwarder
