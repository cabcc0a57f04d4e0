import PacketForwarder.TxTest.Text

/-!
# What the gateway makes of a request

* `TxTest.txpk` — the request of the test sender, as it is parsed;
* `TxTest.Describes` — the packet the options describe;
* `TxTest.request_understood` — **the gateway reads this packet** from the request, and answers
  with one acknowledgement, which the sender waits for.
-/

namespace PacketForwarder

namespace TxTest

variable {o : TxTest} {q : ℚ} {i : BitVec 32}

/-! ## The object in a request -/

/-- The members of `"txpk"` as the parser reads them from the text of the request. -/
def txpk (castOutside : (w : ℕ) → Binary64 → BitVec w) (o : TxTest) (q : ℚ) (i : BitVec 32) :
    JsonObject :=
  (o.requestMembers castOutside q i).map fun m => (m.1.bytes, syntaxValue m.2)

section
variable {castOutside : (w : ℕ) → Binary64 → BitVec w}

theorem names_requestMembers :
    (o.requestMembers castOutside q i).map (fun m => m.1.bytes) =
      if o.fsk then
        [cstr "imme", cstr "freq", cstr "rfch", cstr "powe", cstr "modu", cstr "datr",
          cstr "fdev", cstr "ipol", cstr "size", cstr "data"]
      else
        [cstr "imme", cstr "freq", cstr "rfch", cstr "powe", cstr "modu", cstr "datr",
          cstr "codr", cstr "ipol", cstr "prea", cstr "size", cstr "data"] := by
  unfold requestMembers modulationMembers preambleMembers
  cases o.fsk <;> rfl

theorem names_txpk :
    (txpk castOutside o q i).map Prod.fst =
      (o.requestMembers castOutside q i).map fun m => m.1.bytes := by
  rw [txpk, List.map_map]
  rfl

theorem nodup_requestMembers :
    ((o.requestMembers castOutside q i).map fun m => m.1.bytes).Nodup := by
  rw [names_requestMembers]
  split <;> decide

/-- A member of the request is found under its name. -/
theorem getValue_txpk {m : PlainText × JsonSyntax} (hmem : m ∈ o.requestMembers castOutside q i)
    {name : String} (hname : m.1.bytes = cstr name) :
    jsonObjectGetValue (txpk castOutside o q i) name = some (syntaxValue m.2) := by
  refine jsonObjectGetValue_of_mem ?_ ?_
  · rw [names_txpk]
    exact nodup_requestMembers
  · rw [← hname]
    exact List.mem_map_of_mem hmem

/-- A name that the request does not print is not found in it. -/
theorem getValue_txpk_of_not_mem {name : String}
    (h : cstr name ∉ (o.requestMembers castOutside q i).map fun m => m.1.bytes) :
    jsonObjectGetValue (txpk castOutside o q i) name = none :=
  jsonObjectGetValue_of_not_mem (names_txpk ▸ h)

/-- A member whose value is printed from a `Json` value is read back as that value. -/
theorem getPrinted_txpk (name : PlainText) (v : Json)
    (hmem : (name, v.toSyntax) ∈ o.requestMembers castOutside q i) {s : String}
    (hname : name.bytes = cstr s) :
    jsonObjectGetValue (txpk castOutside o q i) s = some (printedValue v) := by
  rw [getValue_txpk hmem hname, syntaxValue_toSyntax]

/-- A string member of the request is read back as the bytes it was printed from. -/
theorem getString_txpk (name t : PlainText)
    (hmem : (name, (Json.string t).toSyntax) ∈ o.requestMembers castOutside q i) {s : String}
    (hname : name.bytes = cstr s) :
    jsonObjectGetString (txpk castOutside o q i) s = some t.bytes := by
  rw [jsonObjectGetString, getPrinted_txpk name _ hmem hname]
  exact congrArg some (takeWhile_bytes t)

theorem compact_requestMembers :
    ∀ m ∈ o.requestMembers castOutside q i, m.2.Compact := by
  have hboolean : ∀ b, JsonSyntax.Compact (.boolean b) := fun b => by
    simp [JsonSyntax.Compact, JsonSyntax.AllBlanks]
  unfold requestMembers modulationMembers preambleMembers
  cases o.fsk <;> simp [Json.compact_toSyntax, hboolean]

theorem accepts_requestMembers (levels : ℕ) :
    ∀ m ∈ o.requestMembers castOutside q i, accepts (levels + 1) m.2 = true := by
  have hboolean : ∀ b, accepts (levels + 1) (.boolean b) = true := fun _ => rfl
  have hleaf : ∀ v, keepsLimits (levels + 1) v = true →
      accepts (levels + 1) v.toSyntax = true := accepts_toSyntax (levels + 1)
  have hnumber : ∀ d, keepsLimits (levels + 1) (.number d) = true := fun _ => rfl
  have hstring : ∀ t, keepsLimits (levels + 1) (.string t) = true := fun _ => rfl
  unfold requestMembers modulationMembers preambleMembers
  cases o.fsk <;> simp [hboolean, hleaf, hnumber, hstring, unsignedJson]

/-- **The parser accepts the text of a request, and finds `"txpk"` and its members in it.** -/
theorem jsonParse_requestSyntax :
    jsonParseStringWithComments (o.requestSyntax castOutside q i).text =
      some (.object [(cstr "txpk", .object (txpk castOutside o q i))]) := by
  have hinner : (compactObject (o.requestMembers castOutside q i)).Compact :=
    compact_compactObject compact_requestMembers
  have hcompact : (o.requestSyntax castOutside q i).Compact :=
    compact_compactObject (List.forall_mem_singleton.mpr hinner)
  have hlen : (o.requestMembers castOutside q i).length ≤ objectMaxCapacity := by
    rw [← List.length_map fun m => m.1.bytes, names_requestMembers]
    split <;> decide
  have haccepts : accepts (maxNesting + 1) (o.requestSyntax castOutside q i) = true :=
    accepts_compactObject (List.forall_mem_singleton.mpr
      (accepts_compactObject (accepts_requestMembers _) nodup_requestMembers hlen))
      (List.nodup_singleton _) (Nat.one_le_ofNat)
  rw [jsonParse_compact hcompact, haccepts, requestSyntax, isContainer_compactObject,
    syntaxValue_compactObject, List.map_singleton, syntaxValue_compactObject]
  rfl

end

/-! ## The fields -/

/-- The packet has the modulation that the options describe, with its parameters. -/
structure Modulated (castOutside : (w : ℕ) → Binary64 → BitVec w) (o : TxTest) (p : LgwPktTx) :
    Prop where
  lora : o.fsk = false → p.modulation = .lora ∧ p.datarate.spreadingFactor = o.sf ∧
    p.bandwidth.kHz = o.bw ∧ p.coderate = .lora4_6 ∧ p.invertPol = o.invert ∧ p.preamble = 8
  fsk : o.fsk = true → p.modulation = .fsk ∧ p.datarate = .bps (o.bitrate castOutside) ∧
    p.fDev = o.fdevKhz ∧ p.preamble = 5

/-- A packet as the options describe it. -/
structure Describes (castOutside : (w : ℕ) → Binary64 → BitVec w) (o : TxTest) (q : ℚ)
    (antennaGain : U8) (i : BitVec 32) (p : LgwPktTx) : Prop where
  txMode : p.txMode = .immediate
  /-- The frequency in Hz is the target, or one hertz less where the product falls short of it. -/
  freqHz : p.freqHz.toNat = targetHz q ∨ p.freqHz.toNat + 1 = targetHz q
  favourable : Favourable (targetHz q) → p.freqHz.toNat = targetHz q
  rfChain : p.rfChain = 0
  rfPower : p.rfPower = BitVec.ofInt 8 o.pow - antennaGain
  noCrc : p.noCrc = false
  modulated : Modulated castOutside o p
  size : p.size.toNat = o.payloadSize
  payload : p.payload.live p.size.toNat = o.perPayload i

/-- Every spreading factor the options allow is one of the datarates of the HAL. -/
theorem Accepted.exists_datarate (h : o.Accepted) :
    ∃ datarate : Datarate, (∀ rate, datarate ≠ .bps rate) ∧ datarate.spreadingFactor = o.sf ∧
      cstr "SF" ++ formatSigned o.sf = datarateText datarate := by
  have hcases : o.sf = 7 ∨ o.sf = 8 ∨ o.sf = 9 ∨ o.sf = 10 ∨ o.sf = 11 ∨ o.sf = 12 := by
    obtain ⟨hlow, hhigh⟩ := h.sf
    omega
  rcases hcases with hsf | hsf | hsf | hsf | hsf | hsf <;> rw [hsf]
  · exact ⟨.loraSf7, nofun, rfl, rfl⟩
  · exact ⟨.loraSf8, nofun, rfl, rfl⟩
  · exact ⟨.loraSf9, nofun, rfl, rfl⟩
  · exact ⟨.loraSf10, nofun, rfl, rfl⟩
  · exact ⟨.loraSf11, nofun, rfl, rfl⟩
  · exact ⟨.loraSf12, nofun, rfl, rfl⟩

/-- Every bandwidth the options allow is one of the bandwidths of the HAL. -/
theorem Accepted.exists_bandwidth (h : o.Accepted) :
    ∃ bandwidth : Bandwidth, bandwidth ≠ .undefined ∧ bandwidth.kHz = o.bw ∧
      cstr "BW" ++ formatSigned o.bw = bandwidthText bandwidth := by
  rcases h.bw with hbw | hbw | hbw <;> rw [hbw]
  · exact ⟨.bw125kHz, nofun, rfl, rfl⟩
  · exact ⟨.bw250kHz, nofun, rfl, rfl⟩
  · exact ⟨.bw500kHz, nofun, rfl, rfl⟩

section
variable {castOutside : (w : ℕ) → Binary64 → BitVec w} {env : DownEnv} {g : Gateway}

theorem requestedTime_txpk :
    requestedTime env g (txpk castOutside o q i) = .ok (true, 0, .downlinkClassC) := by
  have hmem : (jsonName "imme", .boolean true) ∈ o.requestMembers castOutside q i := by
    simp [requestMembers]
  have himme : jsonObjectGetBoolean (txpk castOutside o q i) "imme" = 1 := by
    rw [jsonObjectGetBoolean, getValue_txpk hmem rfl]
    rfl
  rw [requestedTime, if_pos himme]

theorem mem_modulation {m : PlainText × JsonSyntax} (h : m ∈ o.modulationMembers castOutside) :
    m ∈ o.requestMembers castOutside q i := by
  simp only [requestMembers, List.mem_append]
  tauto

/-- What the gateway reads of the modulation of a LoRa request: the datarate and the bandwidth of
the options, at the coding rate 4/6. -/
theorem requestedModulation_txpk_lora (h : o.Accepted) (hfsk : o.fsk = false) (p : LgwPktTx) :
    ∃ datarate bandwidth, datarate.spreadingFactor = o.sf ∧ bandwidth.kHz = o.bw ∧
      requestedModulation env (txpk castOutside o q i) p = .ok { p with
        modulation := .lora
        datarate := datarate
        bandwidth := bandwidth
        coderate := .lora4_6
        invertPol := o.invert
        preamble := 8 } := by
  obtain ⟨datarate, hrate, hsf, hsfText⟩ := h.exists_datarate
  obtain ⟨bandwidth, hband, hbw, hbwText⟩ := h.exists_bandwidth
  have hmodu : jsonObjectGetString (txpk castOutside o q i) "modu" = some (cstr "LORA") :=
    getString_txpk moduName loraName
      (mem_modulation (by simp [modulationMembers, hfsk])) rfl
  have hdatr : jsonObjectGetString (txpk castOutside o q i) "datr" =
      some (datarateText datarate ++ bandwidthText bandwidth) := by
    have hbytes : o.loraDatr.bytes = datarateText datarate ++ bandwidthText bandwidth := by
      rw [← hsfText, ← hbwText, ← List.append_assoc]
      rfl
    rw [← hbytes]
    exact getString_txpk datrName o.loraDatr
      (mem_modulation (by simp [modulationMembers, hfsk])) rfl
  have hcodr : jsonObjectGetString (txpk castOutside o q i) "codr" = some (cstr "4/6") :=
    getString_txpk codrName (jsonName "4/6")
      (mem_modulation (by simp [modulationMembers, hfsk])) rfl
  have hpreamble : loraPreamble env (txpk castOutside o q i) = 8 := by
    have hprea : jsonObjectGetValue (txpk castOutside o q i) "prea" = some _ :=
      getPrinted_txpk (jsonName "prea") (.number (Decimal.ofNat 8))
        (by simp [requestMembers, preambleMembers, hfsk]) rfl
    rw [loraPreamble, requestedPreamble, hprea, printedValue_ofNat (by decide)]
    rfl
  have hinvert : optionalBool (txpk castOutside o q i) "ipol" = o.invert := by
    have hipol : jsonObjectGetValue (txpk castOutside o q i) "ipol" = some _ :=
      getValue_txpk (m := (jsonName "ipol", .boolean o.invert)) (by simp [requestMembers]) rfl
    rw [optionalBool, hipol]
    cases o.invert <;> rfl
  have hmodulation : requestedModulation env _ p = _ :=
    requestedModulation_lora hrate hband rfl hmodu hdatr hcodr p
  rw [hpreamble, hinvert] at hmodulation
  exact ⟨datarate, bandwidth, hsf, hbw, hmodulation⟩

/-- The tool prints the frequency deviation in Hz, and nothing is lost when it converts it from kHz.
-/
theorem toNat_fdev : (o.fdev castOutside).toNat = o.fdevKhz.toNat * 1000 := by
  have hkhz : o.fdevKhz.toNat < 2 ^ 8 := o.fdevKhz.isLt
  have hsmall : |((o.fdevKhz.toNat * 1000 : ℕ) : ℤ)| < 2 ^ 53 := by
    rw [Nat.abs_cast]
    omega
  have hexact := Binary64.ofRat_intCast hsmall
  push_cast at hexact
  rw [fdev, Binary64.mul_finite, hexact]
  have htruncated := Binary64.truncated_natCast (o.fdevKhz.toNat * 1000)
  push_cast at htruncated
  exact Binary64.toNat_toUnsigned htruncated (by omega)

/-- The gateway gets the frequency deviation in kHz back when it divides what it reads. -/
theorem castU_fdev :
    env.castU 8 ((jsonValueGetNumber (some (printedValue
      (unsignedJson (o.fdev castOutside))))).div 1000) = o.fdevKhz := by
  have hsmall : |(o.fdevKhz.toNat : ℤ)| < 2 ^ 53 := by
    rw [Nat.abs_cast]
    omega
  have hquotient : (((o.fdev castOutside).toNat : ℕ) : ℚ) / 1000 = (o.fdevKhz.toNat : ℤ) := by
    rw [toNat_fdev]
    push_cast
    field_simp
  have hlt : (o.fdev castOutside).toNat < 2 ^ 53 := (o.fdev castOutside).isLt.trans (by decide)
  rw [unsignedJson, printedValue_ofNat hlt, jsonValueGetNumber, Binary64.div_finite, hquotient,
    Binary64.ofRat_intCast hsmall]
  exact BitVec.eq_of_toNat_eq (castU_natCast o.fdevKhz.isLt)

/-- What the gateway reads of the modulation of an FSK request: the bit rate and the deviation of
the options. -/
theorem requestedModulation_txpk_fsk (hfsk : o.fsk = true) (p : LgwPktTx) :
    requestedModulation env (txpk castOutside o q i) p = .ok { p with
      modulation := .fsk
      datarate := .bps (o.bitrate castOutside)
      fDev := o.fdevKhz
      preamble := 5 } := by
  have hmodu : jsonObjectGetString (txpk castOutside o q i) "modu" = some (cstr "FSK") :=
    getString_txpk moduName fskName
      (mem_modulation (by simp [modulationMembers, hfsk])) rfl
  have hdatr : jsonObjectGetValue (txpk castOutside o q i) "datr" = some _ :=
    getPrinted_txpk datrName (unsignedJson (o.bitrate castOutside))
      (mem_modulation (by simp [modulationMembers, hfsk])) rfl
  have hfdev : jsonObjectGetValue (txpk castOutside o q i) "fdev" = some _ :=
    getPrinted_txpk (jsonName "fdev") (unsignedJson (o.fdev castOutside))
      (mem_modulation (by simp [modulationMembers, hfsk])) rfl
  have hpreamble : fskPreamble env (txpk castOutside o q i) = 5 := by
    have hprea : jsonObjectGetValue (txpk castOutside o q i) "prea" = none := by
      refine getValue_txpk_of_not_mem ?_
      rw [names_requestMembers, if_pos hfsk]
      decide
    rw [fskPreamble, requestedPreamble, hprea]
    rfl
  have hmodulation : requestedModulation env _ p = _ :=
    requestedModulation_fsk hmodu hdatr hfdev p
  rwa [castU_unsigned (by decide), castU_fdev, hpreamble] at hmodulation

/-- Either modulation; the other fields stay as they are. -/
theorem exists_modulated (h : o.Accepted) (p : LgwPktTx) :
    ∃ p', requestedModulation env (txpk castOutside o q i) p = .ok p' ∧
      Modulated castOutside o p' ∧ p'.freqHz = p.freqHz ∧ p'.rfChain = p.rfChain ∧
      p'.rfPower = p.rfPower ∧ p'.noCrc = p.noCrc := by
  cases hfsk : o.fsk with
  | false =>
    obtain ⟨datarate, bandwidth, hsf, hbw, hmodulation⟩ := requestedModulation_txpk_lora h hfsk p
    refine ⟨_, hmodulation, ⟨fun _ => ⟨rfl, hsf, hbw, rfl, rfl, rfl⟩, ?_⟩, rfl, rfl, rfl, rfl⟩
    rw [hfsk]
    nofun
  | true =>
    refine ⟨_, requestedModulation_txpk_fsk hfsk p, ⟨?_, fun _ => ⟨rfl, rfl, rfl, rfl⟩⟩, rfl, rfl,
      rfl, rfl⟩
    rw [hfsk]
    nofun

/-- The power of the packet is that of the options, less the gain of the gateway's antenna. -/
theorem requestedPower_txpk (h : o.Accepted) :
    requestedPower env g (txpk castOutside o q i) = BitVec.ofInt 8 o.pow - g.antennaGain := by
  obtain ⟨hlow, hhigh⟩ := h.pow
  have hpowe : jsonObjectGetValue (txpk castOutside o q i) "powe" = some _ :=
    getPrinted_txpk (jsonName "powe") (.number (Decimal.ofInt o.pow))
      (by simp [requestMembers]) rfl
  have hsmall : |o.pow| < 2 ^ 53 := abs_lt.mpr ⟨by omega, by omega⟩
  have hcast : env.castS 8 (.finite o.pow) = BitVec.ofInt 8 o.pow := by
    obtain ⟨n, hn⟩ := Int.eq_ofNat_of_zero_le hlow
    rw [hn]
    refine BitVec.eq_of_toInt_eq ?_
    have hconverted : (env.castS 8 (.finite ((n : ℤ) : ℚ))).toInt = n :=
      Binary64.toInt_toSigned (by decide) (Binary64.truncated_natCast n) (by omega)
    rw [hconverted, BitVec.toInt_ofInt, Int.bmod_eq_of_le (by omega) (by omega)]
  rw [requestedPower, hpowe, printedValue_ofInt hsmall]
  exact congrArg (· - g.antennaGain) hcast

/-- A request does not print `"ncrc"`, so that the packet has a CRC. -/
theorem optionalBool_ncrc : optionalBool (txpk castOutside o q i) "ncrc" = false := by
  have hnone : jsonObjectGetValue (txpk castOutside o q i) "ncrc" = none := by
    refine getValue_txpk_of_not_mem ?_
    rw [names_requestMembers]
    split <;> decide
  rw [optionalBool, hnone]

/-- A request asks for the first RF chain. -/
theorem castU_rfch :
    env.castU 8 (jsonValueGetNumber (some (printedValue (.number (Decimal.ofNat 0))))) = 0 := by
  rw [printedValue_ofNat (by decide)]
  exact BitVec.eq_of_toNat_eq (castU_natCast (by decide))

/-- The gateway reads the size of the payload that the options give. -/
theorem toNat_castU_size (h : o.Accepted) :
    (env.castU 16 (jsonValueGetNumber (some (printedValue
      (.number (Decimal.ofInt o.payloadSize)))))).toNat = o.payloadSize.toNat := by
  obtain ⟨hlow, hhigh⟩ := h.payloadSize
  obtain ⟨n, hn⟩ := Int.eq_ofNat_of_zero_le (show 0 ≤ o.payloadSize by omega)
  rw [hn, printedValue_ofInt (by rw [Nat.abs_cast]; omega)]
  exact castU_natCast (by omega)

/-- **The gateway reads the packet the options describe.** -/
theorem requestedPacket_txpk (h : o.Accepted) (hq : o.fTarget = .finite q) :
    ∃ p, requestedPacket env g (txpk castOutside o q i) = .ok (p, .downlinkClassC) ∧
      o.Describes castOutside q g.antennaGain i p := by
  obtain ⟨hlow, hhigh⟩ := h.bounds hq
  obtain ⟨hsizeLow, hsizeHigh⟩ := h.payloadSize
  obtain ⟨hsign, hunits⟩ := freqDecimal_eq hlow
  obtain ⟨hhzLow, hhzHigh⟩ := targetHz_bounds hlow hhigh
  have hfreq : jsonObjectGetValue (txpk castOutside o q i) "freq" = some _ :=
    getPrinted_txpk freqName (.number (freqDecimal q)) (by simp [requestMembers]) rfl
  have hrfch : jsonObjectGetValue (txpk castOutside o q i) "rfch" = some _ :=
    getPrinted_txpk rfchName (.number (Decimal.ofNat 0)) (by simp [requestMembers]) rfl
  have hsize : jsonObjectGetValue (txpk castOutside o q i) "size" = some _ :=
    getPrinted_txpk sizeName (.number (Decimal.ofInt o.payloadSize))
      (by simp [requestMembers]) rfl
  have hdata : jsonObjectGetString (txpk castOutside o q i) "data" =
      some (base64Text (o.perPayload i)) :=
    getString_txpk dataName ⟨base64Text (o.perPayload i),
      plain_base64Text (o.perPayload i)⟩ (by simp [requestMembers]) rfl
  have hpow : requestedPower env g (txpk castOutside o q i) = _ := requestedPower_txpk h
  have hlen : (o.perPayload i).length ≤ payloadMax := by
    rw [length_perPayload h i]
    simp only [payloadMax]
    omega
  obtain ⟨hnear, hexact⟩ := toNat_hz_of_decimal env hsign rfl (by omega) (by omega)
  rw [hunits] at hnear hexact
  obtain ⟨p, hmodulation, hmodulated, hp, hchain, hpower, hcrc⟩ :=
    exists_modulated (q := q) (i := i) h
      { LgwPktTx.zero with
        countUs := 0
        noCrc := optionalBool (txpk castOutside o q i) "ncrc"
        freqHz := hzOfMhz env (.ofRat (Scientific.value ⟨freqDecimal q, none⟩))
        rfChain := env.castU 8 (jsonValueGetNumber (some (printedValue
          (.number (Decimal.ofNat 0)))))
        rfPower := requestedPower env g (txpk castOutside o q i) }
  refine ⟨_, requestedPacket_eq requestedTime_txpk hfreq hrfch hmodulation hsize hdata hlen, ?_⟩
  exact {
    txMode := rfl
    freqHz := hp ▸ hnear
    favourable := hp ▸ hexact
    rfChain := hchain.trans castU_rfch
    rfPower := hpower.trans hpow
    noCrc := hcrc.trans optionalBool_ncrc
    modulated := ⟨hmodulated.lora, hmodulated.fsk⟩
    size := by
      rw [toNat_castU_size h]
      omega
    payload := by
      rw [toNat_castU_size h, ← length_perPayload h i]
      exact Slots.live_write _ hlen }

end

/-- The parser sees all of the text. -/
theorem requested_pullResp {env : DownEnv} {g : Gateway} (h : o.Accepted)
    (hq : o.fTarget = .finite q) (henv : env.jsonParse = jsonParseStringWithComments)
    (castOutside : (w : ℕ) → Binary64 → BitVec w) (tokenH tokenL : U8) :
    ∃ p, requested env g ([protocolVersion, tokenH, tokenL, pktPullResp] ++
        (o.requestSyntax castOutside q i).text) = .ok (p, .downlinkClassC) ∧
      o.Describes castOutside q g.antennaGain i p := by
  obtain ⟨p, hpacket, hdescribes⟩ : ∃ p, requestedPacket env g (txpk castOutside o q i) = _ ∧ _ :=
    requestedPacket_txpk h hq
  have htext : (o.requestSyntax castOutside q i).text.takeWhile (· ≠ 0) =
      (o.requestSyntax castOutside q i).text :=
    List.takeWhile_eq_self_iff.mpr fun c hc =>
      decide_eq_true ((o.requestSyntax castOutside q i).text_ne_zero c hc)
  refine ⟨p, requested_eq_ok_iff.mpr ⟨_, ?_, hpacket⟩, hdescribes⟩
  have hdrop : ([protocolVersion, tokenH, tokenL, pktPullResp] ++
      (o.requestSyntax castOutside q i).text).drop 4 = (o.requestSyntax castOutside q i).text := rfl
  rw [txpkOf, hdrop, htext, henv, jsonParse_requestSyntax]
  rfl

/-! ## The answer -/

/-- The sender waits for the acknowledgement of its request. -/
theorem acceptsAck_txAck (g : Gateway) (tokenH tokenL : U8) (error : JitError) :
    acceptsAck tokenH tokenL (txAck g tokenH tokenL error) = true := by
  have hlen : 12 ≤ (txAck g tokenH tokenL error).length := by
    simp [txAck]
  exact decide_eq_true ⟨hlen, rfl, rfl, rfl, rfl⟩

/-- A packet that was read is answered once. -/
theorem sent_onRequest (env : DownEnv) (g : Gateway) (time : Timeval) (buff : List U8)
    (p : LgwPktTx) (t : JitPktType) :
    (onRequest env g time buff p t).ended = false ∧ ∃ g' error,
      (onRequest env g time buff p t).sent = [txAck g' (byteAt buff 1) (byteAt buff 2) error] := by
  by_cases hok : txError env { g with measDw := g.measDw.countDgram buff.length p } p = .ok
  · simp only [onRequest, if_pos hok]
    exact ⟨rfl, _, _, rfl⟩
  · simp only [onRequest, if_neg hok]
    exact ⟨rfl, _, _, rfl⟩

section
variable {castOutside : (w : ℕ) → Binary64 → BitVec w} {env : DownEnv}

/-- The datagram the tool sends is long enough to be a `PULL_RESP` and has its identifier. -/
theorem isPacket_pullResp (h : o.Accepted) (hq : o.fTarget = .finite q) {tokenH tokenL : U8}
    {i : BitVec 32} {datagram : List U8}
    (hdatagram : o.pullResp castOutside tokenH tokenL i = some datagram) :
    IsPacket pktPullResp datagram := by
  rw [pullResp_eq h hq] at hdatagram
  rw [← Option.some.inj hdatagram]
  exact ⟨by simp, rfl, rfl⟩

/-- The gateway reads a request as the packet described, and answers it with an acknowledgement
that the sender accepts. -/
theorem answers_pullResp (h : o.Accepted) (hq : o.fTarget = .finite q)
    (henv : env.jsonParse = jsonParseStringWithComments) {tokenH tokenL : U8} {i : BitVec 32}
    {datagram : List U8} (hdatagram : o.pullResp castOutside tokenH tokenL i = some datagram)
    (g : Gateway) (time : Timeval) :
    ∃ p ack, requested env g datagram = .ok (p, .downlinkClassC) ∧
      o.Describes castOutside q g.antennaGain i p ∧
      (onDatagram env g time datagram).sent = [ack] ∧
      (onDatagram env g time datagram).ended = false ∧ acceptsAck tokenH tokenL ack = true := by
  have hresp := isPacket_pullResp h hq hdatagram
  have hack : ¬IsPacket pktPullAck datagram := by
    intro hack
    have hkind : pktPullResp = pktPullAck := hresp.2.2.symm.trans hack.2.2
    exact absurd hkind (by decide)
  obtain ⟨p, hrequested, hdescribes⟩ := requested_pullResp (g := g) (i := i) h hq henv castOutside
    tokenH tokenL
  rw [pullResp_eq h hq] at hdatagram
  have htext := Option.some.inj hdatagram
  rw [htext] at hrequested
  have hbytes : byteAt datagram 1 = tokenH ∧ byteAt datagram 2 = tokenL := by
    rw [← htext]
    exact ⟨rfl, rfl⟩
  have hdown : onDatagram env g time datagram =
      onRequest env g time datagram p .downlinkClassC := by
    rw [onDatagram, if_neg hack, if_pos hresp, onPullResp, hrequested]
  obtain ⟨hended, g', error, hsent⟩ := sent_onRequest env g time datagram p .downlinkClassC
  rw [hbytes.1, hbytes.2] at hsent
  rw [← hdown] at hended hsent
  exact ⟨p, _, hrequested, hdescribes, hsent, hended, acceptsAck_txAck g' tokenH tokenL error⟩

end

/-- **The gateway understands every request of the test sender.**  With options that are accepted
the datagram is composed and fits its buffer; the gateway reads from it the packet the options
describe, to be sent at once, and answers with one acknowledgement, which is the one the sender
waits for. -/
theorem request_understood (h : o.Accepted) (hq : o.fTarget = .finite q) (env : DownEnv)
    (henv : env.jsonParse = jsonParseStringWithComments) (g : Gateway) (time : Timeval)
    (castOutside : (w : ℕ) → Binary64 → BitVec w) (tokenH tokenL : U8) (i : BitVec 32) :
    ∃ datagram p ack, o.pullResp castOutside tokenH tokenL i = some datagram ∧
      datagram.length ≤ sendToBuflen ∧
      requested env g datagram = .ok (p, .downlinkClassC) ∧
      o.Describes castOutside q g.antennaGain i p ∧
      (onDatagram env g time datagram).sent = [ack] ∧
      (onDatagram env g time datagram).ended = false ∧ acceptsAck tokenH tokenL ack = true := by
  have hcomposed := pullResp_eq h hq castOutside tokenH tokenL i
  obtain ⟨p, ack, hanswered⟩ := answers_pullResp h hq henv hcomposed g time
  exact ⟨_, p, ack, hcomposed, length_pullResp_le h hq castOutside tokenH tokenL i, hanswered⟩

/-- The tool called without any options: its first request is a datagram, and the gateway reads the
packet from it. -/
theorem request_understood_default :
    let env := DownEnv.reference
    ∃ datagram p ack, default.pullResp (fun _ _ => 0) 18 52 0 = some datagram ∧
      datagram.length ≤ sendToBuflen ∧
      requested env .reference datagram = .ok (p, .downlinkClassC) ∧
      default.Describes (fun _ _ => 0) 866 0 0 p ∧
      (onDatagram env .reference ⟨0, 0⟩ datagram).sent = [ack] ∧
      (onDatagram env .reference ⟨0, 0⟩ datagram).ended = false ∧ acceptsAck 18 52 ack = true :=
  request_understood accepted_default rfl _ rfl .reference ⟨0, 0⟩ (fun _ _ => 0) 18 52 0

end TxTest

end PacketForwarder
