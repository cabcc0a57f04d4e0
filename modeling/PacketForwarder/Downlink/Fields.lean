import PacketForwarder.Base64.Grammar
import PacketForwarder.Downlink.Indices

/-!
# The fields of a downlink

What a packet that is handed to the queue has of the JSON it was read from.

* `HandedOver` — the packets that reach the queue;
* `payload_decoded_iff` — the packet is the decoded `data` exactly if `size` is the number of
  its bytes.  The comparison of the two only gives a warning;
* `numbers_kept_iff` — the numbers are kept exactly if they fit.  None of the conversions is
  preceded by a check.
-/

namespace PacketForwarder

variable {env : DownEnv} {g : Gateway} {txpk : JsonObject} {txpkt : LgwPktTx} {t : JitPktType}
  {buff : List U8}

/-! ## What is handed to the queue -/

/-- `jit_enqueue` is called with this packet. -/
def HandedOver (env : DownEnv) (g : Gateway) (buff : List U8) (txpkt : LgwPktTx)
    (t : JitPktType) : Prop :=
  requested env g buff = .ok (txpkt, t) ∧ txError env g txpkt = .ok

/-- A packet that is handed over is enqueued, and the server is told how it went. -/
theorem onPullResp_of_handedOver (h : HandedOver env g buff txpkt t) (time : Timeval) :
    onPullResp env g time buff =
      let r := enqueueDownlink env { g with measDw := g.measDw.countDgram buff.length txpkt } time
        txpkt t
      sendTxAck r.1 (byteAt buff 1) (byteAt buff 2) r.2 := by
  have hcheck : txError env { g with measDw := g.measDw.countDgram buff.length txpkt } txpkt =
      .ok := h.2
  unfold onPullResp onRequest
  simp only [h.1, hcheck, if_true]

/-- A packet that is not handed over does not reach the queue. -/
theorem onPullResp_of_not_handedOver (h : ∀ txpkt t, ¬ HandedOver env g buff txpkt t)
    (time : Timeval) :
    (onPullResp env g time buff).gateway.jitQueue = g.jitQueue ∧
      (onPullResp env g time buff).gateway.measDw.nbTxRequested = g.measDw.nbTxRequested := by
  have hrejected : ∀ (m : MeasDw) (e : JitError),
      (m.countRejected e).nbTxRequested = m.nbTxRequested := by
    intro m e
    cases e <;> rfl
  unfold onPullResp
  cases hreq : requested env g buff with
  | error e =>
    cases e with
    | warning text => exact ⟨rfl, rfl⟩
    | gpsUnlocked text => exact ⟨rfl, hrejected _ _⟩
    | exits => exact ⟨rfl, rfl⟩
  | ok r =>
    obtain ⟨txpkt, t⟩ := r
    have hcheck : txError env { g with measDw := g.measDw.countDgram buff.length txpkt } txpkt ≠
        .ok := fun hok => h txpkt t ⟨hreq, hok⟩
    unfold onRequest
    simp only [if_neg hcheck]
    exact ⟨rfl, hrejected _ _⟩

/-- A packet that is handed over was read from the `txpk` object of the datagram. -/
theorem HandedOver.readFrom (h : HandedOver env g buff txpkt t)
    (htxpk : txpkOf env buff = some txpk) : ReadFrom env g txpk txpkt := by
  obtain ⟨txpk', htxpk', hpacket⟩ := requested_eq_ok_iff.mp h.1
  rw [htxpk] at htxpk'
  cases htxpk'
  exact readFrom_of_requestedPacket hpacket

/-! ## Size and data -/

/-- The packet is the decoded data. -/
def IsDecodedData (txpk : JsonObject) (txpkt : LgwPktTx) : Prop :=
  ∃ data bytes, jsonObjectGetString txpk "data" = some data ∧ base64Decode data = some bytes ∧
    txpkt.size.toNat = bytes.length ∧ bytes.length ≤ payloadMax ∧
    txpkt.payload.live txpkt.size.toNat = bytes

/-- The data is base64 of no more bytes than the payload has room for, and the number in `size`,
converted, is the number of these bytes. -/
def SizeMatchesData (env : DownEnv) (txpk : JsonObject) : Prop :=
  ∃ size data bytes, jsonObjectGetValue txpk "size" = some size ∧
    jsonObjectGetString txpk "data" = some data ∧ base64Decode data = some bytes ∧
    bytes.length ≤ payloadMax ∧ (env.castU 16 (jsonValueGetNumber size)).toNat = bytes.length

theorem ReadFrom.isDecodedData_iff (h : ReadFrom env g txpk txpkt) :
    IsDecodedData txpk txpkt ↔ SizeMatchesData env txpk := by
  obtain ⟨size, hsize, hcast⟩ := h.size
  obtain ⟨data, hdata, hpayload⟩ := h.payload
  constructor
  · rintro ⟨data', bytes, hdata', hbytes, hlen, hmax, -⟩
    rw [hcast] at hlen
    exact ⟨size, data', bytes, hsize, hdata', hbytes, hmax, hlen⟩
  · rintro ⟨size', data', bytes, hsize', hdata', hbytes, hmax, hlen⟩
    rw [hsize] at hsize'
    cases hsize'
    rw [hdata] at hdata'
    cases hdata'
    unfold requestedPayload at hpayload
    rw [b64ToBin_of_base64Decode hbytes hmax] at hpayload
    have hwritten := (Slots.replicate payloadMax 0).live_write hmax
    rw [Except.ok.inj hpayload] at hwritten
    have hsized : txpkt.size.toNat = bytes.length := by rw [hcast, hlen]
    rw [← hsized] at hwritten
    exact ⟨data, bytes, hdata, hbytes, hsized, hmax, hwritten⟩

/-- **What is transmitted is the data, exactly if `size` says how long it is.**  Neither a
decoding that fails nor one of another length keeps the packet from the queue. -/
theorem payload_decoded_iff (env : DownEnv) (g : Gateway) (buff : List U8) :
    (∀ txpk txpkt t, txpkOf env buff = some txpk → HandedOver env g buff txpkt t →
      IsDecodedData txpk txpkt) ↔
      ∀ txpk, txpkOf env buff = some txpk → (∃ txpkt t, HandedOver env g buff txpkt t) →
        SizeMatchesData env txpk := by
  constructor
  · rintro hall txpk htxpk ⟨txpkt, t, h⟩
    exact (h.readFrom htxpk).isDecodedData_iff.mp (hall txpk txpkt t htxpk h)
  · intro hmatch txpk txpkt t htxpk h
    exact (h.readFrom htxpk).isDecodedData_iff.mpr (hmatch txpk htxpk ⟨txpkt, t, h⟩)

/-- Four bytes are asked for, and the data holds two. -/
def sizeFourRequest : List U8 :=
  pullRespWith ("\"imme\":true,\"freq\":868.5,\"rfch\":0,\"powe\":14,\"modu\":\"LORA\"," ++
    "\"datr\":\"SF7BW125\",\"codr\":\"4/5\",\"size\":4,\"data\":\"TWE=\"")

/-- A request that is handed over with this property is found by handling it. -/
theorem exists_ok_of_any {p : LgwPktTx × JitPktType → Bool} {buff : List U8}
    (h : (requested env g buff).toOption.any p = true) :
    ∃ r, requested env g buff = .ok r ∧ p r = true := by
  cases hr : requested env g buff with
  | error e =>
    rw [hr] at h
    cases h
  | ok r =>
    rw [hr] at h
    exact ⟨r, rfl, h⟩

/-- Four bytes are asked for and two come with the request: two zeros are sent after them. -/
theorem payload_not_decoded :
    ¬ ∀ (env : DownEnv) (g : Gateway) (buff : List U8) (txpk : JsonObject) (txpkt : LgwPktTx)
      (t : JitPktType), txpkOf env buff = some txpk → HandedOver env g buff txpkt t →
        IsDecodedData txpk txpkt := by
  intro h
  obtain ⟨⟨txpkt, t⟩, hreq, hchecked⟩ := exists_ok_of_any
    (p := fun r => txError .reference .reference r.1 = .ok ∧ r.1.size.toNat = 4)
    (show (requested .reference .reference sizeFourRequest).toOption.any _ = true by
      decide +kernel)
  obtain ⟨hcheck, hsize⟩ := of_decide_eq_true hchecked
  obtain ⟨txpk, htxpk, htext⟩ := (Option.any_eq_true
    (fun txpk => jsonObjectGetString txpk "data" = some (cstr "TWE="))
    (txpkOf .reference sizeFourRequest)).mp (by decide +kernel)
  obtain ⟨data, bytes, hdata, hbytes, hlen, -⟩ :=
    h .reference .reference sizeFourRequest txpk txpkt t htxpk ⟨hreq, hcheck⟩
  rw [of_decide_eq_true htext] at hdata
  have hdecode : base64Decode (cstr "TWE=") = some [77, 97] := by decide +kernel
  rw [← Option.some.inj hdata, hdecode] at hbytes
  rw [hsize, ← Option.some.inj hbytes] at hlen
  exact absurd hlen (by decide)

/-! ## Numbers -/

/-- The number of a field is this natural number. -/
def HasNumber (txpk : JsonObject) (name : String) (n : ℕ) : Prop :=
  ∃ val, jsonObjectGetValue txpk name = some val ∧ jsonValueGetNumber (some val) = .finite n

/-- The numbers are non-negative integers that an `int` holds. -/
def NumbersAreInts (txpk : JsonObject) : Prop :=
  ∀ name ∈ ["rfch", "powe", "prea", "fdev"], ∀ val, jsonObjectGetValue txpk name = some val →
    ∃ n : ℕ, n < 2 ^ 31 ∧ jsonValueGetNumber (some val) = .finite n

/-- A preamble is the number asked for, and not below the minimum. -/
def PreambleKept (txpk : JsonObject) (minPreamb : ℕ) (preamble : U16) : Prop :=
  minPreamb ≤ preamble.toNat ∧
    ∀ n, HasNumber txpk "prea" n → minPreamb ≤ n → preamble.toNat = n

/-- **The packet represents the numbers** of the request, each in the unit of its own field. -/
structure NumbersKept (g : Gateway) (txpk : JsonObject) (txpkt : LgwPktTx) : Prop where
  /-- `MIN_LORA_PREAMB`. -/
  lora : txpkt.modulation = .lora → PreambleKept txpk 6 txpkt.preamble
  /-- `MIN_FSK_PREAMB`. -/
  fsk : txpkt.modulation = .fsk → PreambleKept txpk 3 txpkt.preamble
  fdev : txpkt.modulation = .fsk → ∀ n, HasNumber txpk "fdev" n → txpkt.fDev.toNat = n / 1000
  powe : ∀ n, HasNumber txpk "powe" n →
    txpkt.rfPower.toInt + g.antennaGain.toInt = n
  rfch : ∀ n, HasNumber txpk "rfch" n → txpkt.rfChain.toNat = n

/-- **The numbers fit.**  A power that is no `int8_t` is converted to whatever the machine
makes of it. -/
structure NumbersFit (env : DownEnv) (g : Gateway) (txpk : JsonObject) : Prop where
  prea : ∀ n, HasNumber txpk "prea" n → n < 2 ^ 16
  fdev : jsonObjectGetString txpk "modu" = some (cstr "FSK") →
    ∀ n, HasNumber txpk "fdev" n → n / 1000 < 2 ^ 8
  powe : ∀ n : ℕ, HasNumber txpk "powe" n →
    -2 ^ 7 ≤ n - g.antennaGain.toInt ∧ n - g.antennaGain.toInt < 2 ^ 7 ∧
      (n < 2 ^ 7 ∨ env.castOutside 8 (.finite n) = BitVec.ofNat 8 n)
  rfch : ∀ n, HasNumber txpk "rfch" n → n < 2 ^ 8

theorem HasNumber.unique {name : String} {n m : ℕ} (hn : HasNumber txpk name n)
    (hm : HasNumber txpk name m) : n = m := by
  obtain ⟨val, hval, hnum⟩ := hn
  obtain ⟨val', hval', hnum'⟩ := hm
  rw [hval] at hval'
  cases hval'
  rw [hnum] at hnum'
  injection hnum' with hcast
  exact_mod_cast hcast

/-- The number that a preamble is read from. -/
theorem toNat_requestedPreamble {minPreamb stdPreamb n : ℕ} (hn : n < 2 ^ 31)
    (h : HasNumber txpk "prea" n) :
    (requestedPreamble env txpk minPreamb stdPreamb).toNat =
      if minPreamb ≤ n then n % 2 ^ 16 else minPreamb % 2 ^ 16 := by
  obtain ⟨val, hval, hnum⟩ := h
  have hint : (env.castS 32 (jsonValueGetNumber (some val))).toInt = n := by
    rw [hnum]
    exact Binary64.toInt_toSigned (by decide) (Binary64.truncated_natCast n) hn
  have hnat : (env.castS 32 (jsonValueGetNumber (some val))).toNat = n := by
    have hcond := BitVec.toInt_eq_toNat_cond (env.castS 32 (jsonValueGetNumber (some val)))
    rw [hint] at hcond
    have hlt := (env.castS 32 (jsonValueGetNumber (some val))).isLt
    split_ifs at hcond <;> omega
  unfold requestedPreamble
  rw [hval]
  dsimp only
  rw [hint]
  by_cases hmin : minPreamb ≤ n
  · rw [if_pos (by exact_mod_cast hmin), if_pos hmin, BitVec.toNat_setWidth, hnat]
  · rw [if_neg (by exact_mod_cast hmin), if_neg hmin, BitVec.toNat_ofNat]

/-- A preamble is kept exactly if it fits. -/
theorem preambleKept_iff (hints : NumbersAreInts txpk) {minPreamb stdPreamb : ℕ}
    (hmin : minPreamb ≤ stdPreamb) (hstd : stdPreamb < 2 ^ 16) :
    PreambleKept txpk minPreamb (requestedPreamble env txpk minPreamb stdPreamb) ↔
      ∀ n, HasNumber txpk "prea" n → n < 2 ^ 16 := by
  constructor
  · rintro ⟨-, hkept⟩ n hn
    by_cases hle : minPreamb ≤ n
    · rw [← hkept n hn hle]
      exact BitVec.isLt _
    · omega
  · intro hfit
    cases hval : jsonObjectGetValue txpk "prea" with
    | none =>
      refine ⟨?_, fun n hn => ?_⟩
      · unfold requestedPreamble
        rw [hval, BitVec.toNat_ofNat, Nat.mod_eq_of_lt hstd]
        exact hmin
      · obtain ⟨val, hval', -⟩ := hn
        rw [hval] at hval'
        cases hval'
    | some val =>
      obtain ⟨n, hlt, hnum⟩ := hints "prea" (by decide) val hval
      have hn : HasNumber txpk "prea" n := ⟨val, hval, hnum⟩
      have hread : (requestedPreamble env txpk minPreamb stdPreamb).toNat = _ :=
        toNat_requestedPreamble hlt hn
      have hsmall := hfit n hn
      refine ⟨?_, fun m hm hle => ?_⟩
      · rw [hread]
        split_ifs with hle
        · rwa [Nat.mod_eq_of_lt hsmall]
        · rw [Nat.mod_eq_of_lt (by omega)]
      · cases hn.unique hm
        rw [hread, if_pos hle, Nat.mod_eq_of_lt hsmall]

/-- A difference of two signed bytes, and the second one again. -/
theorem toInt_sub_add_toInt_iff {x y : U8} {n : ℕ} :
    (x - y).toInt + y.toInt = n ↔
      -2 ^ 7 ≤ n - y.toInt ∧ n - y.toInt < 2 ^ 7 ∧ x = BitVec.ofNat 8 n := by
  have hlow := BitVec.le_toInt (x - y)
  have hhigh := BitVec.toInt_lt (x := x - y)
  have hsub : BitVec.ofInt 8 ((n : ℤ) - y.toInt) = BitVec.ofNat 8 n - y := by
    have hadd := BitVec.ofInt_add (n := 8) ((n : ℤ) - y.toInt) y.toInt
    rw [sub_add_cancel, BitVec.ofInt_natCast, BitVec.ofInt_toInt] at hadd
    exact BitVec.eq_sub_iff_add_eq.mpr hadd.symm
  constructor
  · intro h
    have hz : (x - y).toInt = n - y.toInt := by omega
    have hx : x - y = BitVec.ofNat 8 n - y := by rw [← hsub, ← hz, BitVec.ofInt_toInt]
    exact ⟨by omega, by omega, by simpa using hx⟩
  · rintro ⟨hlo, hhi, rfl⟩
    rw [← hsub, BitVec.toInt_ofInt_eq_self (by decide) hlo hhi]
    omega

/-- A power is kept exactly if it and the difference to the antenna gain fit. -/
theorem ReadFrom.powe_iff (h : ReadFrom env g txpk txpkt) {n : ℕ} (hn : n < 2 ^ 31)
    (hpowe : HasNumber txpk "powe" n) :
    txpkt.rfPower.toInt + g.antennaGain.toInt = n ↔
      -2 ^ 7 ≤ n - g.antennaGain.toInt ∧ n - g.antennaGain.toInt < 2 ^ 7 ∧
        (n < 2 ^ 7 ∨ env.castOutside 8 (.finite n) = BitVec.ofNat 8 n) := by
  obtain ⟨val, hval, hnum⟩ := hpowe
  have hcast : env.castS 8 (.finite n) = BitVec.ofNat 8 n ↔
      n < 2 ^ 7 ∨ env.castOutside 8 (.finite n) = BitVec.ofNat 8 n := by
    unfold DownEnv.castS Binary64.toSigned
    rw [Binary64.truncated_natCast]
    dsimp only
    by_cases hfits : n < 2 ^ 7
    · rw [if_pos (by omega), BitVec.ofInt_natCast]
      exact ⟨fun _ => Or.inl hfits, fun _ => rfl⟩
    · rw [if_neg (by omega)]
      exact ⟨Or.inr, fun hor => hor.resolve_left hfits⟩
  have hpower : txpkt.rfPower = env.castS 8 (.finite n) - g.antennaGain := by
    rw [h.rfPower]
    unfold requestedPower
    rw [hval]
    dsimp only
    rw [hnum]
  rw [hpower, toInt_sub_add_toInt_iff, hcast]

theorem ReadFrom.rfch_iff (h : ReadFrom env g txpk txpkt) {n : ℕ}
    (hrfch : HasNumber txpk "rfch" n) : txpkt.rfChain.toNat = n ↔ n < 2 ^ 8 := by
  obtain ⟨val, hval, hnum⟩ := hrfch
  obtain ⟨val', hval', hchain⟩ := h.rfChain
  rw [hval] at hval'
  cases hval'
  rw [hchain, hnum]
  exact Binary64.toNat_toUnsigned_iff (Binary64.truncated_natCast n)

/-- A frequency deviation in Hz, in kHz. -/
theorem toNat_fDev_iff {fdev : JsonValue} {n : ℕ} (hn : n < 2 ^ 31)
    (hnum : jsonValueGetNumber (some fdev) = .finite n) :
    (env.castU 8 ((jsonValueGetNumber fdev).div 1000)).toNat = n / 1000 ↔ n / 1000 < 2 ^ 8 := by
  have hquot := Binary64.truncated_div_natCast (n := n) (d := 1000) (by decide) (by omega)
    (by norm_num)
  rw [hnum]
  exact Binary64.toNat_toUnsigned_iff hquot

/-- **The numbers of a packet are kept exactly if they fit.** -/
theorem ReadFrom.numbersKept_iff (h : ReadFrom env g txpk txpkt) (hints : NumbersAreInts txpk) :
    NumbersKept g txpk txpkt ↔ NumbersFit env g txpk := by
  -- The numbers of a request are integers of the type `int`.
  have hlt : ∀ {name n}, name ∈ ["rfch", "powe", "prea", "fdev"] → HasNumber txpk name n →
      n < 2 ^ 31 := by
    rintro name n hname ⟨val, hval, hnum⟩
    obtain ⟨m, hm, hnum'⟩ := hints name hname val hval
    cases HasNumber.unique ⟨val, hval, hnum⟩ ⟨val, hval, hnum'⟩
    exact hm
  have hpowe : (∀ n : ℕ, HasNumber txpk "powe" n →
      txpkt.rfPower.toInt + g.antennaGain.toInt = n) ↔ _ :=
    forall₂_congr fun n hn => h.powe_iff (hlt (by decide) hn) hn
  have hrfch : (∀ n, HasNumber txpk "rfch" n → txpkt.rfChain.toNat = n) ↔ _ :=
    forall₂_congr fun n hn => h.rfch_iff hn
  cases h.modulation with
  | lora modu modulation preamble =>
    have hprea : PreambleKept txpk 6 txpkt.preamble ↔
        ∀ n, HasNumber txpk "prea" n → n < 2 ^ 16 := by
      rw [preamble]
      exact preambleKept_iff hints (by decide) (by decide)
    constructor
    · intro hkept
      refine ⟨hprea.mp (hkept.lora modulation), fun hfsk => ?_, hpowe.mp hkept.powe,
        hrfch.mp hkept.rfch⟩
      rw [modu] at hfsk
      exact absurd hfsk (by decide)
    · intro hfit
      refine ⟨fun _ => hprea.mpr hfit.prea, fun hfsk => ?_, fun hfsk => ?_,
        hpowe.mpr hfit.powe, hrfch.mpr hfit.rfch⟩
      · rw [modulation] at hfsk
        cases hfsk
      · rw [modulation] at hfsk
        cases hfsk
  | fsk fdev modu modulation preamble value fDev =>
    have hprea : PreambleKept txpk 3 txpkt.preamble ↔
        ∀ n, HasNumber txpk "prea" n → n < 2 ^ 16 := by
      rw [preamble]
      exact preambleKept_iff hints (by decide) (by decide)
    have hfdev : (∀ n, HasNumber txpk "fdev" n → txpkt.fDev.toNat = n / 1000) ↔
        ∀ n, HasNumber txpk "fdev" n → n / 1000 < 2 ^ 8 := by
      refine forall₂_congr fun n hn => ?_
      obtain ⟨val, hval, hnum⟩ := id hn
      rw [value] at hval
      cases hval
      rw [fDev]
      exact toNat_fDev_iff (hlt (by decide) hn) hnum
    constructor
    · intro hkept
      exact ⟨hprea.mp (hkept.fsk modulation), fun _ => hfdev.mp (hkept.fdev modulation),
        hpowe.mp hkept.powe, hrfch.mp hkept.rfch⟩
    · intro hfit
      refine ⟨fun hlora => ?_, fun _ => hprea.mpr hfit.prea, fun _ => hfdev.mpr (hfit.fdev modu),
        hpowe.mpr hfit.powe, hrfch.mpr hfit.rfch⟩
      rw [modulation] at hlora
      cases hlora

/-- **What is transmitted has the numbers of the request, exactly if they fit.** -/
theorem numbers_kept_iff (env : DownEnv) (g : Gateway) (buff : List U8)
    (hints : ∀ txpk, txpkOf env buff = some txpk → NumbersAreInts txpk) :
    (∀ txpk txpkt t, txpkOf env buff = some txpk → HandedOver env g buff txpkt t →
      NumbersKept g txpk txpkt) ↔
      ∀ txpk, txpkOf env buff = some txpk → (∃ txpkt t, HandedOver env g buff txpkt t) →
        NumbersFit env g txpk := by
  constructor
  · rintro hall txpk htxpk ⟨txpkt, t, h⟩
    exact ((h.readFrom htxpk).numbersKept_iff (hints txpk htxpk)).mp (hall txpk txpkt t htxpk h)
  · intro hfit txpk txpkt t htxpk h
    exact ((h.readFrom htxpk).numbersKept_iff (hints txpk htxpk)).mpr
      (hfit txpk htxpk ⟨txpkt, t, h⟩)

/-- A natural number that is the value of a double can only be its numerator. -/
instance (x : Binary64) : Decidable (∃ n : ℕ, n < 2 ^ 31 ∧ x = .finite n) :=
  match x with
  | .finite q => decidable_of_iff (q.num.toNat < 2 ^ 31 ∧ q = q.num.toNat)
      ⟨fun h => ⟨_, h.1, congrArg _ h.2⟩, by
        rintro ⟨n, hn, hq⟩
        cases hq
        exact ⟨hn, rfl⟩⟩
  | .infinity _ => isFalse (by simp)
  | .nan => isFalse (by simp)

instance (txpk : JsonObject) : Decidable (NumbersAreInts txpk) :=
  inferInstanceAs (Decidable (∀ name ∈ ["rfch", "powe", "prea", "fdev"],
    ∀ val ∈ jsonObjectGetValue txpk name,
      ∃ n : ℕ, n < 2 ^ 31 ∧ jsonValueGetNumber (some val) = .finite n))

/-- A class C packet is asked for, with a preamble of this numeral. -/
def preambleRequest (prea : String) : List U8 :=
  pullRespWith ("\"imme\":true,\"freq\":868,\"rfch\":0,\"powe\":14,\"modu\":\"LORA\"," ++
    "\"datr\":\"SF7BW125\",\"codr\":\"4/5\",\"prea\":" ++ prea ++
      ",\"size\":2,\"data\":\"TWE=\"")

/-- A preamble of 65536 symbols becomes one of none. -/
theorem numbers_not_kept :
    ¬ ∀ (env : DownEnv) (g : Gateway) (buff : List U8),
      (∀ txpk, txpkOf env buff = some txpk → NumbersAreInts txpk) →
        ∀ txpk txpkt t, txpkOf env buff = some txpk → HandedOver env g buff txpkt t →
          NumbersKept g txpk txpkt := by
  intro h
  obtain ⟨⟨txpkt, t⟩, hreq, hchecked⟩ := exists_ok_of_any
    (p := fun r => txError .reference .reference r.1 = .ok ∧ r.1.modulation = .lora ∧
      r.1.preamble.toNat = 0)
    (show (requested .reference .reference (preambleRequest "65536")).toOption.any _ = true by
      decide +kernel)
  obtain ⟨hcheck, hlora, hpreamble⟩ := of_decide_eq_true hchecked
  obtain ⟨txpk, htxpk, -⟩ := (Option.any_eq_true (fun _ => true)
    (txpkOf .reference (preambleRequest "65536"))).mp (by decide +kernel)
  have hints : ∀ txpk ∈ txpkOf .reference (preambleRequest "65536"), NumbersAreInts txpk := by
    decide +kernel
  have hkept := h .reference .reference (preambleRequest "65536") hints txpk txpkt t htxpk
    ⟨hreq, hcheck⟩
  have hmin := (hkept.lora hlora).1
  rw [hpreamble] at hmin
  exact absurd hmin (by decide)

/-- A preamble of ten symbols is kept. -/
theorem numbers_kept_iff_ten_symbols :
    (∀ txpk txpkt t, txpkOf .reference (preambleRequest "10") = some txpk →
      HandedOver .reference .reference (preambleRequest "10") txpkt t →
        NumbersKept .reference txpk txpkt) ↔
      ∀ txpk, txpkOf .reference (preambleRequest "10") = some txpk →
        (∃ txpkt t, HandedOver .reference .reference (preambleRequest "10") txpkt t) →
          NumbersFit .reference .reference txpk :=
  numbers_kept_iff .reference .reference (preambleRequest "10")
    (show ∀ txpk ∈ txpkOf .reference (preambleRequest "10"), NumbersAreInts txpk by
      decide +kernel)

end PacketForwarder
