import PacketForwarder.TxTest

/-!
# The text of a request

The test sender composes its request piece by piece, with the commas and brackets set by hand.

* `requestMembers` — what a request says about its packet; `requestSyntax` — the whole of it;
* `requestStart_eq` — no piece is cut off;
* `pullResp_eq` — **the datagram is always composed**, and what follows its header is the text of
  an object; `length_pullResp_le` — it fits its buffer.
-/

namespace PacketForwarder

namespace TxTest

/-! ## As JSON -/

/-- The frequency in MHz, with six places. -/
def freqDecimal (q : ℚ) : Decimal := Decimal.fixed 6 (q < 0) q.nnabs

theorem plain_formatSigned (z : ℤ) : ∀ c ∈ formatSigned z, isPlain c = true := by
  have htext : formatSigned z =
      Decimal.signText (z < 0) ++ digits (decimalWidth z.natAbs) z.natAbs := List.append_nil _
  rw [htext]
  exact List.forall_mem_append.mpr ⟨plain_signText _, plain_digits⟩

/-- The value of `"datr"` in the request for a LoRa packet. -/
def loraDatr (o : TxTest) : PlainText where
  bytes := cstr "SF" ++ formatSigned o.sf ++ cstr "BW" ++ formatSigned o.bw
  plain := by
    simp only [List.forall_mem_append]
    exact ⟨⟨⟨(jsonName "SF").plain, plain_formatSigned _⟩, (jsonName "BW").plain⟩,
      plain_formatSigned _⟩

/-- The members of the request that depend on the modulation. -/
def modulationMembers (castOutside : (w : ℕ) → Binary64 → BitVec w) (o : TxTest) :
    List (PlainText × JsonSyntax) :=
  if o.fsk then
    [(moduName, (Json.string fskName).toSyntax),
      (datrName, (unsignedJson (o.bitrate castOutside)).toSyntax),
      (jsonName "fdev", (unsignedJson (o.fdev castOutside)).toSyntax)]
  else
    [(moduName, (Json.string loraName).toSyntax),
      (datrName, (Json.string o.loraDatr).toSyntax),
      (codrName, (Json.string (jsonName "4/6")).toSyntax)]

/-- The member `"prea"`, which only the request for a LoRa packet has. -/
def preambleMembers (o : TxTest) : List (PlainText × JsonSyntax) :=
  if o.fsk then [] else [(jsonName "prea", (Json.number (Decimal.ofNat 8)).toSyntax)]

/-- What a request says about its packet. -/
def requestMembers (castOutside : (w : ℕ) → Binary64 → BitVec w) (o : TxTest) (q : ℚ)
    (i : BitVec 32) : List (PlainText × JsonSyntax) :=
  [(jsonName "imme", .boolean true), (freqName, (Json.number (freqDecimal q)).toSyntax),
    (rfchName, (Json.number (Decimal.ofNat 0)).toSyntax),
    (jsonName "powe", (Json.number (Decimal.ofInt o.pow)).toSyntax)] ++
  o.modulationMembers castOutside ++ [(jsonName "ipol", .boolean o.invert)] ++
  o.preambleMembers ++
  [(sizeName, (Json.number (Decimal.ofInt o.payloadSize)).toSyntax),
    (dataName, (Json.string ⟨base64Text (o.perPayload i),
      plain_base64Text (o.perPayload i)⟩).toSyntax)]

/-- The whole JSON text of a request, as a syntax tree. -/
def requestSyntax (castOutside : (w : ℕ) → Binary64 → BitVec w) (o : TxTest) (q : ℚ)
    (i : BitVec 32) : JsonSyntax :=
  compactObject [(jsonName "txpk", compactObject (o.requestMembers castOutside q i))]

/-! ## Nothing is cut off -/

/-- A name, with its comma and colon, and a number. -/
theorem snprintf_field {size : ℕ} {name number : CString} (hname : name.length = 8)
    (h : 8 + number.length < size) : snprintf size (name ++ number) = some (name ++ number) := by
  refine if_pos ?_
  rwa [List.length_append, hname]

theorem length_cstr (s : String) : (cstr s).length = s.toList.length := by
  rw [cstr, List.length_map]

theorem length_formatSigned_le {z : ℤ} {k : ℕ} (hk : k ≠ 0) (h : 0 ≤ z) (hlt : z < 10 ^ k) :
    (formatSigned z).length ≤ k := by
  have hwidth : decimalWidth z.natAbs ≤ k := decimalWidth_le hk (by zify; rwa [abs_of_nonneg h])
  have hsign : decide (z < 0) = false := decide_eq_false (not_lt.mpr h)
  rw [formatSigned, Decimal.length_text, Decimal.width]
  simpa [Decimal.ofInt, hsign] using hwidth

theorem length_formatUnsigned_le (x : U32) : (formatUnsigned x).length ≤ 10 := by
  have hwidth : decimalWidth x.toNat ≤ 10 :=
    decimalWidth_le (by decide) (x.isLt.trans (by decide))
  rw [formatUnsigned, Decimal.length_text, Decimal.width]
  simpa [Decimal.ofNat] using hwidth

section
variable {o : TxTest} {q : ℚ}

/-- The tool accepts only a frequency between 30 and 3000 MHz. -/
theorem Accepted.bounds (h : o.Accepted) (hq : o.fTarget = .finite q) : 30 ≤ q ∧ q ≤ 3000 := by
  obtain ⟨hbelow, habove⟩ := h.fTarget
  rw [hq, Binary64.below_finite, decide_eq_false_iff_not, not_lt] at hbelow
  rw [hq, Binary64.above_finite, decide_eq_false_iff_not, not_lt] at habove
  exact ⟨hbelow, habove⟩

/-- The target frequency in Hz, rounded as the multiplication rounds it. -/
def targetHz (q : ℚ) : ℕ := (Binary64.nearest (q * 10 ^ 6)).toNat

/-- The frequency in Hz is one half away from the number of MHz at most. -/
theorem abs_targetHz_sub_le (hlow : 30 ≤ q) : |(targetHz q : ℚ) - q * 10 ^ 6| ≤ 1 / 2 := by
  have hround := Binary64.abs_nearest_sub_le_half (q * 10 ^ 6)
  unfold targetHz
  generalize Binary64.nearest (q * 10 ^ 6) = n at hround ⊢
  obtain ⟨hleft, -⟩ := abs_le.mp hround
  have hpos : (0 : ℚ) ≤ n := by linarith
  have hcast : ((n.toNat : ℕ) : ℚ) = n := by
    exact_mod_cast Int.toNat_of_nonneg (by exact_mod_cast hpos)
  rwa [hcast]

theorem targetHz_bounds (hlow : 30 ≤ q) (hhigh : q ≤ 3000) :
    30 * 10 ^ 6 ≤ targetHz q ∧ targetHz q ≤ 3000 * 10 ^ 6 := by
  obtain ⟨hleft, hright⟩ := abs_le.mp (abs_targetHz_sub_le hlow)
  constructor
  · have hlt : (30 * 10 ^ 6 : ℚ) < targetHz q + 1 := by linarith
    exact Nat.lt_succ_iff.mp (by exact_mod_cast hlt)
  · have hlt : (targetHz q : ℚ) < 3000 * 10 ^ 6 + 1 := by linarith
    exact Nat.lt_succ_iff.mp (by exact_mod_cast hlt)

theorem freqDecimal_eq (hlow : 30 ≤ q) :
    (freqDecimal q).negative = false ∧ microUnits (freqDecimal q) = targetHz q := by
  have hmagnitude : ((q.nnabs : ℚ≥0) : ℚ) = q := by
    rw [Rat.coe_nnabs]
    exact abs_of_nonneg (by linarith)
  refine ⟨decide_eq_false (not_lt.mpr (by linarith)), ?_⟩
  simp only [microUnits, freqDecimal, Decimal.fixed, hmagnitude, targetHz]
  exact Nat.div_add_mod' _ _

theorem length_freqDecimal_le (hlow : 30 ≤ q) (hhigh : q ≤ 3000) :
    (freqDecimal q).text.length ≤ 11 := by
  obtain ⟨hsign, hunits⟩ := freqDecimal_eq hlow
  have hmax := (targetHz_bounds hlow hhigh).2
  rw [← hunits, microUnits] at hmax
  have hwidth : decimalWidth (freqDecimal q).whole ≤ 4 :=
    decimalWidth_le (by decide) (by omega)
  rw [Decimal.length_text, Decimal.width, hsign]
  simpa [freqDecimal, Decimal.fixed] using hwidth

theorem length_formatSigned_pow_le (h : o.Accepted) : (formatSigned o.pow).length ≤ 2 :=
  length_formatSigned_le (by decide) h.pow.1 (by linarith [h.pow.2])

theorem length_formatSigned_payloadSize_le (h : o.Accepted) :
    (formatSigned o.payloadSize).length ≤ 3 :=
  length_formatSigned_le (by decide) (by linarith [h.payloadSize.1])
    (by linarith [h.payloadSize.2])

/-- The text of the modulation fits for any numbers of the FSK parameters. -/
theorem length_modulationText_lt (h : o.Accepted) (castOutside : (w : ℕ) → Binary64 → BitVec w) :
    (o.modulationText castOutside).length < 50 := by
  have hbitrate := length_formatUnsigned_le (o.bitrate castOutside)
  have hfdev := length_formatUnsigned_le (o.fdev castOutside)
  have hsf : (formatSigned o.sf).length ≤ 2 :=
    length_formatSigned_le (by decide) (by linarith [h.sf.1]) (by linarith [h.sf.2])
  have hbw : (formatSigned o.bw).length ≤ 3 := by
    rcases h.bw with hbw | hbw | hbw <;> rw [hbw] <;> decide
  unfold modulationText
  split
  · simp only [List.length_append, length_cstr, String.reduceToList, List.length_cons,
      List.length_nil]
    omega
  · simp only [List.length_append, length_cstr, String.reduceToList, List.length_cons,
      List.length_nil]
    omega

/-- The text that `requestStart` prints, up to the payload. -/
def startText (castOutside : (w : ℕ) → Binary64 → BitVec w) (o : TxTest) (q : ℚ) : CString :=
  cstr "\x7b\"txpk\":\x7b\"imme\":true" ++ (cstr ",\"freq\":" ++ (freqDecimal q).text) ++
    cstr ",\"rfch\":0" ++ (cstr ",\"powe\":" ++ formatSigned o.pow) ++
    o.modulationText castOutside ++
    (if o.invert then cstr ",\"ipol\":true" else cstr ",\"ipol\":false") ++
    (if o.fsk then [] else cstr ",\"prea\":8") ++
    (cstr ",\"size\":" ++ formatSigned o.payloadSize) ++ cstr ",\"data\":\""

/-- The options that the tool accepts fit their buffer, and nothing of the text is cut off. -/
theorem requestStart_eq (h : o.Accepted) (hq : o.fTarget = .finite q)
    (castOutside : (w : ℕ) → Binary64 → BitVec w) :
    o.requestStart castOutside = some (o.startText castOutside q) := by
  obtain ⟨hlow, hhigh⟩ := h.bounds hq
  have hfreq := length_freqDecimal_le hlow hhigh
  have hpow := length_formatSigned_pow_le h
  have hsize := length_formatSigned_payloadSize_le h
  have hfreqFits : snprintf 20 (cstr ",\"freq\":" ++ (freqDecimal q).text) = some _ :=
    snprintf_field rfl (by omega)
  have hpowFits : snprintf 12 (cstr ",\"powe\":" ++ formatSigned o.pow) = some _ :=
    snprintf_field rfl (by omega)
  have hsizeFits : snprintf 12 (cstr ",\"size\":" ++ formatSigned o.payloadSize) = some _ :=
    snprintf_field rfl (by omega)
  have hmodulationFits : snprintf 50 (o.modulationText castOutside) = some _ :=
    if_pos (length_modulationText_lt h castOutside)
  have hformat : formatDouble 6 o.fTarget = (freqDecimal q).text := by
    rw [hq]
    rfl
  rw [requestStart, hformat, hfreqFits, hpowFits, hmodulationFits, hsizeFits]
  rfl

theorem length_perPayload (h : o.Accepted) (i : BitVec 32) :
    (o.perPayload i).length = o.payloadSize.toNat := by
  have hmin := h.payloadSize.1
  simp only [perPayload, perHeader, List.length_append, List.length_cons, List.length_nil,
    List.length_map, List.length_range]
  omega

/-- The base64 text of a payload fits its buffer, and `payloadB64` gives the whole of it. -/
theorem payloadB64_eq (h : o.Accepted) (i : BitVec 32) :
    o.payloadB64 i = some (base64Text (o.perPayload i)) := by
  obtain ⟨chars, hchars⟩ := exists_encodedAs (o.perPayload i)
  have hlen := length_padding hchars
  rw [length_perPayload h i] at hlen
  have hmax := h.payloadSize.2
  have hencode := binToB64_eq hchars (show _ < payloadB64Size by
    rw [length_perPayload h i]
    simp only [payloadB64Size]
    omega)
  rw [payloadB64, hencode, hchars.base64Text_eq]
  simp only [Int.natCast_nonneg, if_true, Int.toNat_natCast, List.take_left]

/-- What is composed is the text of an object. -/
theorem text_requestSyntax (castOutside : (w : ℕ) → Binary64 → BitVec w) (o : TxTest) (q : ℚ)
    (i : BitVec 32) :
    (o.requestSyntax castOutside q i).text =
      o.startText castOutside q ++ base64Text (o.perPayload i) ++ cstr "\"\x7d\x7d" := by
  have hipol : compactMemberText (jsonName "ipol", .boolean o.invert) =
      if o.invert then cstr ",\"ipol\":true" else cstr ",\"ipol\":false" := by
    cases o.invert <;> rfl
  have hmodulation : (o.modulationMembers castOutside).flatMap compactMemberText =
      o.modulationText castOutside := by
    unfold modulationMembers modulationText
    split <;> simp [compactMemberText, Json.text_toSyntax, Json.text, loraDatr, unsignedJson,
      formatUnsigned, jsonName, cstr]
  have hpreamble : o.preambleMembers.flatMap compactMemberText =
      if o.fsk then [] else cstr ",\"prea\":8" := by
    unfold preambleMembers
    split <;> rfl
  have himme : ∀ ms, (compactObject ((jsonName "imme", .boolean true) :: ms)).text =
      cstr "\x7b\"imme\":true" ++ ms.flatMap compactMemberText ++ cstr "\x7d" := fun ms => by
    rw [text_compactObject]
    rfl
  have hzero : (Decimal.ofNat 0).text = cstr "0" := rfl
  unfold requestSyntax requestMembers
  rw [text_compactObject]
  simp only [List.cons_append, List.nil_append, List.append_assoc]
  rw [compactMemberText, himme]
  simp only [List.flatMap_cons, List.flatMap_append, hipol, hmodulation, hpreamble]
  simp [startText, compactMemberText, Json.text_toSyntax, Json.text, hzero, formatSigned,
    jsonName, cstr]

theorem length_startText_le (h : o.Accepted) (hq : o.fTarget = .finite q)
    (castOutside : (w : ℕ) → Binary64 → BitVec w) :
    (o.startText castOutside q).length ≤ 160 := by
  obtain ⟨hlow, hhigh⟩ := h.bounds hq
  have hfreq := length_freqDecimal_le hlow hhigh
  have hpow := length_formatSigned_pow_le h
  have hsize := length_formatSigned_payloadSize_le h
  have hmodulation := length_modulationText_lt h castOutside
  have hipol :
      (if o.invert then cstr ",\"ipol\":true" else cstr ",\"ipol\":false").length ≤ 13 := by
    split <;> decide
  have hpreamble : (if o.fsk then [] else cstr ",\"prea\":8").length ≤ 9 := by
    split <;> decide
  unfold startText
  simp only [List.length_append, length_cstr, String.reduceToList, List.length_cons,
    List.length_nil]
  omega

/-- **The datagram is always composed**, and what follows its header is the text of an
object. -/
theorem pullResp_eq (h : o.Accepted) (hq : o.fTarget = .finite q)
    (castOutside : (w : ℕ) → Binary64 → BitVec w) (tokenH tokenL : U8) (i : BitVec 32) :
    o.pullResp castOutside tokenH tokenL i =
      some ([protocolVersion, tokenH, tokenL, pktPullResp] ++
        (o.requestSyntax castOutside q i).text) := by
  rw [pullResp, requestStart_eq h hq, payloadB64_eq h, text_requestSyntax]
  simp

/-- The whole datagram fits the buffer that it is written to. -/
theorem length_pullResp_le (h : o.Accepted) (hq : o.fTarget = .finite q)
    (castOutside : (w : ℕ) → Binary64 → BitVec w) (tokenH tokenL : U8) (i : BitVec 32) :
    ([protocolVersion, tokenH, tokenL, pktPullResp] ++
      (o.requestSyntax castOutside q i).text).length ≤ sendToBuflen := by
  have hstart := length_startText_le h hq castOutside
  have hmax := h.payloadSize.2
  have hclose : (cstr "\"\x7d\x7d").length = 3 := rfl
  rw [text_requestSyntax]
  simp only [List.length_append, List.length_cons, List.length_nil, length_base64Text,
    length_perPayload h, hclose, sendToBuflen]
  omega

end

end TxTest

end PacketForwarder
