import PacketForwarder.Report
import PacketForwarder.Uplink.Size

/-!
# The text of an uplink

The text `thread_up` composes, with its commas and brackets set by hand, is the text of one
JSON object.

* `rxpkJson` — a packet as a JSON object, `rootJson` — the root object;
* `rxpkText_eq`, `datagramText_eq` — their texts are what is composed;
* `readRxpk` — what a reader of the JSON learns about a packet;
* `push_data_is_json` — a datagram parses to the packets that pass the filter, in order, and
  the report.
-/

namespace PacketForwarder

open TextBuffer

variable {env : UpEnv} {g : UpGateway}

/-! ## A packet as JSON -/

/-- The UTC time of a packet, in the format of ISO 8601. -/
def isoTime (t : Timespec) : CString :=
  let x := gmtime t.tvSec
  formatPadded 4 (x.tmYear + 1900) ++ cstr "-" ++ formatPadded 2 (x.tmMon + 1) ++ cstr "-" ++
    formatPadded 2 x.tmMday ++ cstr "T" ++ formatPadded 2 x.tmHour ++ cstr ":" ++
    formatPadded 2 x.tmMin ++ cstr ":" ++ formatPadded 2 x.tmSec ++ cstr "." ++
    formatPadded 6 (t.tvNsec.tdiv 1000) ++ cstr "Z"

theorem plain_isoTime (t : Timespec) : ∀ c ∈ isoTime t, isPlain c = true := by
  have hsecond : isoTime t = dateTime (gmtime t.tvSec) (cstr "T") ++ cstr "." ++
      formatPadded 6 (t.tvNsec.tdiv 1000) ++ cstr "Z" := rfl
  rw [hsecond]
  simp only [List.forall_mem_append]
  refine ⟨⟨⟨plain_dateTime _ ?_, ?_⟩, plain_formatPadded _ _⟩, ?_⟩ <;> simp [cstr, isPlain]

/-- The member `"time"`, which is there only if the conversion to UTC succeeds. -/
def timeMembers (env : UpEnv) (localRef : Tref) (p : LgwPktRx) : List (PlainText × Json) :=
  match env.lgwCnt2utc localRef p.countUs with
  | none => []
  | some t => [(timeName, .string ⟨isoTime t, plain_isoTime t⟩)]

/-- The member `"tmms"`, which is there only if the conversion to GPS time succeeds. -/
def tmmsMembers (env : UpEnv) (localRef : Tref) (p : LgwPktRx) : List (PlainText × Json) :=
  match env.lgwCnt2gps localRef p.countUs with
  | none => []
  | some t => [(jsonName "tmms", unsignedJson (gpsTimeMs env t))]

/-- The members that give the RX time, which need a valid reference. -/
def gpsMembers (env : UpEnv) (ref : Option Tref) (p : LgwPktRx) : List (PlainText × Json) :=
  match ref with
  | none => []
  | some localRef => timeMembers env localRef p ++ tmmsMembers env localRef p

/-- `"stat"`: 1 for a valid checksum, -1 for a wrong one and 0 without one. -/
def statNumber : RxStatus → ℤ
  | .crcOk => 1
  | .crcBad => -1
  | .noCrc | .undefined => 0

/-- The text of the spreading factor in the value of `"datr"`. -/
def datarateText : Datarate → CString
  | .loraSf7 => cstr "SF7"
  | .loraSf8 => cstr "SF8"
  | .loraSf9 => cstr "SF9"
  | .loraSf10 => cstr "SF10"
  | .loraSf11 => cstr "SF11"
  | .loraSf12 => cstr "SF12"
  | .bps _ => []

/-- The text of the bandwidth in the value of `"datr"`. -/
def bandwidthText : Bandwidth → CString
  | .bw125kHz => cstr "BW125"
  | .bw250kHz => cstr "BW250"
  | .bw500kHz => cstr "BW500"
  | .undefined => []

/-- `"codr"`. -/
def coderateText : Option Coderate → CString
  | some .lora4_5 => cstr "4/5"
  | some .lora4_6 => cstr "4/6"
  | some .lora4_7 => cstr "4/7"
  | some .lora4_8 => cstr "4/8"
  | some .undefined => cstr "OFF"
  | none => []

theorem plain_datarateText (datarate : Datarate) :
    ∀ c ∈ datarateText datarate, isPlain c = true := by
  cases datarate with
  | bps rate => exact fun c h => absurd h List.not_mem_nil
  | _ => simp [datarateText, cstr, isPlain]

theorem plain_bandwidthText (bandwidth : Bandwidth) :
    ∀ c ∈ bandwidthText bandwidth, isPlain c = true := by
  cases bandwidth <;> simp [bandwidthText, cstr, isPlain]

theorem plain_datr (datarate : Datarate) (bandwidth : Bandwidth) :
    ∀ c ∈ datarateText datarate ++ bandwidthText bandwidth, isPlain c = true :=
  List.forall_mem_append.mpr ⟨plain_datarateText datarate, plain_bandwidthText bandwidth⟩

theorem plain_coderateText (coderate : Option Coderate) :
    ∀ c ∈ coderateText coderate, isPlain c = true := by
  cases coderate with
  | none => exact fun c h => absurd h List.not_mem_nil
  | some coderate => cases coderate <;> simp [coderateText, cstr, isPlain]

/-- The members of an entry that depend on the modulation. -/
def modulationMembers (p : LgwPktRx) : List (PlainText × Json) :=
  match p.modulation with
  | .lora =>
    [(moduName, .string loraName),
      (datrName, .string ⟨_, plain_datr p.datarate p.bandwidth⟩),
      (codrName, .string ⟨_, plain_coderateText p.coderate⟩),
      (jsonName "lsnr", fixedJson 1 p.snr)]
  | .fsk =>
    [(moduName, .string fskName),
      (datrName, unsignedJson p.datarate.value)]
  | .undefined => []

theorem InAlphabet.plain {c : U8} (h : InAlphabet c) : isPlain c = true := by
  have hall : ∀ c : U8, (charToCode c).isSome = true → isPlain c = true := by decide
  exact hall c h

theorem plain_base64Text (data : List U8) : ∀ c ∈ base64Text data, isPlain c = true := by
  obtain ⟨chars, h⟩ := exists_encodedAs data
  rw [h.base64Text_eq]
  refine List.forall_mem_append.mpr ⟨fun c hc => (h.alphabet c hc).plain, ?_⟩
  unfold padding
  split_ifs <;> decide

/-- **The JSON object of a packet, with every member the thread prints, in order.** -/
def rxpkJson (env : UpEnv) (ref : Option Tref) (p : LgwPktRx) : Json :=
  .object ((jsonName "tmst", unsignedJson p.countUs) :: (gpsMembers env ref p ++
    [(jsonName "chan", unsignedJson p.ifChain), (rfchName, unsignedJson p.rfChain),
      (freqName, .number (freqDecimal p)),
      (jsonName "stat", .number (Decimal.ofInt (statNumber p.status)))] ++
    modulationMembers p ++
    [(jsonName "rssi", fixedJson 0 p.rssi), (sizeName, unsignedJson p.size),
      (dataName, .string ⟨base64Text p.data, plain_base64Text p.data⟩)]))

theorem memberText_gpsMembers (env : UpEnv) (ref : Option Tref) (p : LgwPktRx) :
    (gpsMembers env ref p).flatMap Json.memberText = piecesText (gpsPieces env ref p) := by
  unfold gpsMembers gpsPieces
  cases ref with
  | none => rfl
  | some localRef =>
    have htime : (timeMembers env localRef p).flatMap Json.memberText =
        piecesText (timePieces env localRef p) := by
      unfold timeMembers timePieces
      cases env.lgwCnt2utc localRef p.countUs with
      | none => rfl
      | some t => simp [Json.memberText, Json.text, Piece.text, isoTime, timeName, jsonName, cstr]
    have htmms : (tmmsMembers env localRef p).flatMap Json.memberText =
        piecesText (tmmsPieces env localRef p) := by
      unfold tmmsMembers tmmsPieces
      cases env.lgwCnt2gps localRef p.countUs with
      | none => rfl
      | some t =>
        simp [Json.memberText, Json.text, Piece.text, unsignedJson, formatUnsigned, jsonName, cstr]
    rw [List.flatMap_append, htime, htmms, piecesText_append]

theorem memberText_stat {status : RxStatus} (h : status ≠ .undefined) :
    Json.memberText (jsonName "stat", .number (Decimal.ofInt (statNumber status))) =
      piecesText (statPieces status) := by
  cases status with
  | undefined => exact absurd rfl h
  | _ =>
    simp [statNumber, statPieces, Json.memberText, Json.text, Piece.text, jsonName, cstr]
    decide

/-- `"datr"` and `"codr"` are composed of parts. -/
theorem memberText_modulationMembers {p : LgwPktRx} (h : p.Known) :
    (modulationMembers p).flatMap Json.memberText = piecesText (modulationPieces p) := by
  unfold modulationMembers modulationPieces
  cases hmodulation : p.modulation with
  | undefined => exact absurd hmodulation h.modulation
  | fsk =>
    simp [Json.memberText, Json.text, Piece.text, unsignedJson, formatUnsigned, jsonName, cstr]
  | lora =>
    have hdatarate : piecesText (dataratePieces p.datarate) =
        cstr ",\"datr\":\"" ++ datarateText p.datarate := by
      cases hrate : p.datarate with
      | bps rate => exact absurd hrate (h.datarate hmodulation rate)
      | _ => rfl
    have hbandwidth : piecesText (bandwidthPieces p.bandwidth) =
        bandwidthText p.bandwidth ++ cstr "\"" := by
      cases hband : p.bandwidth with
      | undefined => exact absurd hband (h.bandwidth hmodulation)
      | _ => rfl
    have hcoderate : piecesText (coderatePieces p.coderate) =
        cstr ",\"codr\":\"" ++ coderateText p.coderate ++ cstr "\"" := by
      cases hcode : p.coderate with
      | none => exact absurd hcode (h.coderate hmodulation)
      | some coderate =>
        cases coderate with
        | _ => rfl
    simp only [piecesText_append, hdatarate, hbandwidth, hcoderate]
    simp [Json.memberText, Json.text, Piece.text, fixedJson, formatFixed, jsonName, cstr]

/-- **What the pieces of a packet print is the text of its JSON object.** -/
theorem rxpkText_eq {p : LgwPktRx} (h : p.Known) (env : UpEnv) (ref : Option Tref) :
    rxpkText env ref p = (rxpkJson env ref p).text := by
  have hstat := memberText_stat h.status
  have hgps := memberText_gpsMembers env ref p
  have hmodulation := memberText_modulationMembers h
  unfold rxpkText rxpkPieces rxpkJson
  simp only [Json.text, Json.membersText_eq, List.flatMap_append, hgps, hmodulation,
    List.flatMap_cons, List.flatMap_nil, hstat, piecesText_append]
  simp [Json.memberText, Json.text, Piece.text, unsignedJson, fixedJson, formatUnsigned,
    formatFixed, formatDouble_freqMhz, jsonName, cstr]

/-! ## The datagram as JSON -/

/-- The array of the packets, if there are any. -/
def rxpkMembers (env : UpEnv) (ref : Option Tref) (rxpkt : List LgwPktRx) :
    List (PlainText × Json) :=
  if rxpkt = [] then [] else [(jsonName "rxpk", .array (rxpkt.map (rxpkJson env ref)))]

/-- The member `"stat"`, which is there only if a report is pending. -/
def statMembers (pending : Option StatReport) : List (PlainText × Json) :=
  pending.toList.map fun r => (jsonName "stat", r.json)

/-- **The root object of an uplink datagram: the packets that are forwarded and the report.** -/
def rootJson (env : UpEnv) (g : UpGateway) (rxpkt : List LgwPktRx)
    (pending : Option StatReport) : Json :=
  .object (rxpkMembers env (g.localRef rxpkt) (g.forwarded rxpkt) ++ statMembers pending)

theorem text_rxpkArray {rxpkt : List LgwPktRx} (h : ∀ p ∈ rxpkt, p.Known) (hne : rxpkt ≠ [])
    (env : UpEnv) (ref : Option Tref) :
    (Json.array (rxpkt.map (rxpkJson env ref))).text =
      cstr "[" ++ rxpkArray env ref rxpkt ++ cstr "]" := by
  cases rxpkt with
  | nil => exact absurd rfl hne
  | cons p rxpkt =>
    obtain ⟨hp, hrest⟩ := List.forall_mem_cons.mp h
    have hmore : (rxpkt.map (rxpkJson env ref)).flatMap (fun v => 44 :: v.text) =
        moreRxpk env ref rxpkt := by
      rw [List.flatMap_map]
      exact List.flatMap_congr fun q hq =>
        congrArg (44 :: ·) (rxpkText_eq (hrest q hq) env ref).symm
    rw [List.map_cons, Json.text, Json.itemsText_eq, hmore, rxpkArray, rxpkText_eq hp]
    simp [cstr]

/-- The whole report is in `status_report`, if it fits there. -/
theorem StatReport.statusReport_eq {r : StatReport} (h : r.text.length < statusSize) :
    r.statusReport = r.text :=
  List.take_of_length_le (Nat.le_pred_of_lt h)

/-- The text of a root object that has only the report. -/
theorem text_statObject (r : StatReport) :
    (Json.object (statMembers (some r))).text = cstr "\x7b" ++ r.text ++ cstr "\x7d" := by
  have hmembers : statMembers (some r) = [(jsonName "stat", r.json)] := rfl
  rw [hmembers, Json.text_object_cons, r.memberText_json]
  simp [Json.membersText, cstr]

/-- The text of a root object that has packets: the array, and whatever follows it. -/
theorem text_rxpkObject {rxpkt : List LgwPktRx} (h : ∀ p ∈ rxpkt, p.Known) (hne : rxpkt ≠ [])
    (env : UpEnv) (ref : Option Tref) (ms : List (PlainText × Json)) :
    (Json.object (rxpkMembers env ref rxpkt ++ ms)).text =
      cstr "\x7b\"rxpk\":[" ++ rxpkArray env ref rxpkt ++ cstr "]" ++ ms.flatMap Json.memberText ++
        cstr "\x7d" := by
  have harray := text_rxpkArray h hne env ref
  rw [rxpkMembers, if_neg hne, List.singleton_append, Json.text_object_cons, Json.memberText,
    harray, Json.membersText_eq]
  simp [jsonName, cstr]

/-- **What the thread prints behind the header of a datagram is the text of the root object.** -/
theorem datagramText_eq {rxpkt : List LgwPktRx} (h : ∀ p ∈ g.forwarded rxpkt, p.Known)
    {pending : Option StatReport} (hpending : g.report = pending.map StatReport.statusReport)
    (hfits : ∀ r ∈ pending, r.text.length < statusSize)
    (hsome : g.forwarded rxpkt ≠ [] ∨ pending ≠ none) (env : UpEnv) :
    datagramText env g rxpkt = (rootJson env g rxpkt pending).text := by
  have hreport : g.report = pending.map StatReport.text := by
    rw [hpending]
    cases pending with
    | none => rw [Option.map_none, Option.map_none]
    | some r => rw [Option.map_some, Option.map_some, StatReport.statusReport_eq (hfits r rfl)]
  unfold rootJson
  by_cases hnil : g.forwarded rxpkt = []
  · have hbefore : textBeforeReport env g rxpkt = cstr "\x7b" :=
      if_pos (List.length_eq_zero_iff.mpr hnil)
    obtain ⟨r, hr⟩ := Option.ne_none_iff_exists'.mp (hsome.resolve_left (not_not.mpr hnil))
    have hmembers : rxpkMembers env (g.localRef rxpkt) (g.forwarded rxpkt) = [] := if_pos hnil
    rw [hmembers, List.nil_append, hr, text_statObject, datagramText, hbefore, hreport, hr]
    rfl
  · have hbefore : textBeforeReport env g rxpkt = _ :=
      if_neg fun hzero => hnil (List.length_eq_zero_iff.mp hzero)
    rw [text_rxpkObject h hnil, datagramText, hbefore, hreport]
    cases pending with
    | none => simp [statMembers]
    | some r => simp [statMembers, r.memberText_json]

/-! ## Reading a packet back -/

/-- What an entry says about the modulation. -/
inductive RxpkModulation
  | lora (datarate : Datarate) (bandwidth : Bandwidth) (coderate : Coderate)
  | fsk (datarate : ℤ)
  deriving DecidableEq

/-- What an entry says about its packet. -/
structure RxpkFields where
  tmst : ℤ
  chan : ℤ
  rfch : ℤ
  stat : RxStatus
  modulation : RxpkModulation
  size : ℤ
  payload : List U8
  deriving DecidableEq

/-- Read the integer that an entry has under a name. -/
def readInt (entry : Json) (name : String) : Option ℤ := (entry.get? (cstr name)).bind Json.int?

/-- Read the string that an entry has under a name. -/
def readString (entry : Json) (name : String) : Option CString :=
  (entry.get? (cstr name)).bind Json.string?

/-- 1 is a valid checksum, -1 a wrong one, and 0 is none. -/
def readStat (stat : ℤ) : Option RxStatus :=
  if stat = 1 then some .crcOk
  else if stat = -1 then some .crcBad
  else if stat = 0 then some .noCrc
  else none

/-- A coding rate, or none at all. -/
def readCoderate (codr : CString) : Option Coderate :=
  if codr = cstr "OFF" then some .undefined else loraCoderate codr

/-- The LoRa fields, as a `PULL_RESP` has them. -/
def readLora (entry : Json) : Option RxpkModulation := do
  let (x0, x1) ← scanDatr (← readString entry "datr")
  return .lora (← loraDatarate x0) (← loraBandwidth x1)
    (← readCoderate (← readString entry "codr"))

/-- The modulation, and what depends on it. -/
def readModulation (entry : Json) : Option RxpkModulation := do
  let modu ← readString entry "modu"
  if modu = cstr "LORA" then readLora entry
  else if modu = cstr "FSK" then return .fsk (← readInt entry "datr")
  else none

/-- Decode the payload with the gateway's own decoder. -/
def readData (data : CString) : Option (List U8) :=
  match b64ToBin data payloadMax with
  | .returns _ payload => some payload
  | .exits => none

/-- **Read the fields of a packet from its entry, as a server would.** -/
def readRxpk (entry : Json) : Option RxpkFields := do
  return {
    tmst := ← readInt entry "tmst"
    chan := ← readInt entry "chan"
    rfch := ← readInt entry "rfch"
    stat := ← readStat (← readInt entry "stat")
    modulation := ← readModulation entry
    size := ← readInt entry "size"
    payload := ← readData (← readString entry "data") }

/-- What there is to know about the modulation of a packet. -/
def LgwPktRx.rxpkModulation (p : LgwPktRx) : RxpkModulation :=
  if p.modulation = .lora then .lora p.datarate p.bandwidth (p.coderate.getD .undefined)
  else .fsk p.datarate.value.toNat

/-- What there is to know about a packet. -/
def LgwPktRx.rxpkFields (p : LgwPktRx) : RxpkFields where
  tmst := p.countUs.toNat
  chan := p.ifChain.toNat
  rfch := p.rfChain.toNat
  stat := p.status
  modulation := p.rxpkModulation
  size := p.size.toNat
  payload := p.data

/-! ## What is read is what was received -/

/-- The names of the members that an entry may have before `"chan"`. -/
def namesBeforeChan : List CString := [cstr "tmst", cstr "time", cstr "tmms"]

/-- The names from `"chan"` up to `"rssi"`. -/
def namesBeforeRssi : List CString :=
  [cstr "chan", cstr "rfch", cstr "freq", cstr "stat", cstr "modu", cstr "datr", cstr "codr",
    cstr "lsnr"]

theorem get?_gpsMembers {n : CString} (h : n ∉ namesBeforeChan) (env : UpEnv)
    (ref : Option Tref) (p : LgwPktRx) (ms : List (PlainText × Json)) :
    (Json.object (gpsMembers env ref p ++ ms)).get? n = (Json.object ms).get? n := by
  simp only [namesBeforeChan, List.mem_cons, List.not_mem_nil, or_false, not_or] at h
  obtain ⟨-, htime, htmms⟩ := h
  refine Json.get?_object_append ?_ ms
  unfold gpsMembers
  split
  · exact fun m h => absurd h List.not_mem_nil
  · refine List.forall_mem_append.mpr ⟨?_, ?_⟩
    · unfold timeMembers
      split
      · exact fun m h => absurd h List.not_mem_nil
      · exact List.forall_mem_singleton.mpr (Ne.symm htime)
    · unfold tmmsMembers
      split
      · exact fun m h => absurd h List.not_mem_nil
      · exact List.forall_mem_singleton.mpr (Ne.symm htmms)

/-- The fields of a packet after its times. -/
def fieldMembers (p : LgwPktRx) : List (PlainText × Json) :=
  [(jsonName "chan", unsignedJson p.ifChain), (rfchName, unsignedJson p.rfChain),
    (freqName, .number (freqDecimal p)),
    (jsonName "stat", .number (Decimal.ofInt (statNumber p.status)))] ++
  modulationMembers p ++
  [(jsonName "rssi", fixedJson 0 p.rssi), (sizeName, unsignedJson p.size),
    (dataName, .string ⟨base64Text p.data, plain_base64Text p.data⟩)]

/-- The fields are found after the times. -/
theorem get?_rxpkJson {n : CString} (h : n ∉ namesBeforeChan) (env : UpEnv) (ref : Option Tref)
    (p : LgwPktRx) : (rxpkJson env ref p).get? n = (Json.object (fieldMembers p)).get? n := by
  have hmembers : rxpkJson env ref p = .object
      ((jsonName "tmst", unsignedJson p.countUs) :: (gpsMembers env ref p ++ fieldMembers p)) := by
    simp [rxpkJson, fieldMembers]
  have htmst : cstr "tmst" ≠ n := fun heq => h (heq ▸ List.mem_cons_self)
  rw [hmembers, Json.get?_object_cons, bytes_jsonName, if_neg htmst, get?_gpsMembers h]

theorem readStat_statNumber {status : RxStatus} (h : status ≠ .undefined) :
    readStat (statNumber status) = some status := by
  cases status with
  | undefined => exact absurd rfl h
  | _ => rfl

/-- The spreading factor that a datarate of the HAL stands for. -/
def Datarate.spreadingFactor : Datarate → ℤ
  | loraSf7 => 7
  | loraSf8 => 8
  | loraSf9 => 9
  | loraSf10 => 10
  | loraSf11 => 11
  | loraSf12 => 12
  | bps _ => 0

/-- The bandwidth in kHz that an enumerant of the HAL stands for. -/
def Bandwidth.kHz : Bandwidth → ℤ
  | bw125kHz => 125
  | bw250kHz => 250
  | bw500kHz => 500
  | undefined => 0

/-- The downlink's parser reads the spreading factor and the bandwidth of an uplink. -/
theorem scanDatr_datarateText {datarate : Datarate} {bandwidth : Bandwidth}
    (hrate : ∀ rate, datarate ≠ .bps rate) (hband : bandwidth ≠ .undefined) :
    scanDatr (datarateText datarate ++ bandwidthText bandwidth) =
      some (datarate.spreadingFactor, bandwidth.kHz) := by
  cases datarate with
  | bps rate => exact absurd rfl (hrate rate)
  | _ =>
    cases bandwidth with
    | undefined => exact absurd rfl hband
    | _ =>
      simp only [scanDatr, scanLiteral, scanShort, datarateText, bandwidthText, cstr,
        String.reduceToList, List.map_cons, List.map_nil]
      rfl

theorem loraDatarate_spreadingFactor {datarate : Datarate} (h : ∀ rate, datarate ≠ .bps rate) :
    loraDatarate datarate.spreadingFactor = some datarate := by
  cases datarate with
  | bps rate => exact absurd rfl (h rate)
  | _ => rfl

theorem loraBandwidth_kHz {bandwidth : Bandwidth} (h : bandwidth ≠ .undefined) :
    loraBandwidth bandwidth.kHz = some bandwidth := by
  cases bandwidth with
  | undefined => exact absurd rfl h
  | _ => rfl

theorem readCoderate_coderateText (coderate : Coderate) :
    readCoderate (coderateText (some coderate)) = some coderate := by
  cases coderate <;>
    simp [readCoderate, coderateText, loraCoderate, cstr]

theorem readInt_rxpkJson {name : String} (h : cstr name ∉ namesBeforeChan) (env : UpEnv)
    (ref : Option Tref) (p : LgwPktRx) :
    readInt (rxpkJson env ref p) name = readInt (.object (fieldMembers p)) name := by
  unfold readInt
  rw [get?_rxpkJson h]

theorem readString_rxpkJson {name : String} (h : cstr name ∉ namesBeforeChan) (env : UpEnv)
    (ref : Option Tref) (p : LgwPktRx) :
    readString (rxpkJson env ref p) name = readString (.object (fieldMembers p)) name := by
  unfold readString
  rw [get?_rxpkJson h]

/-- Reading the modulation from the entry of a packet gives the modulation of the packet. -/
theorem readModulation_rxpkJson {p : LgwPktRx} (h : p.Known) (env : UpEnv) (ref : Option Tref) :
    readModulation (rxpkJson env ref p) = some p.rxpkModulation := by
  have hmodu : readString (rxpkJson env ref p) "modu" =
      readString (.object (fieldMembers p)) "modu" :=
    readString_rxpkJson (by simp [namesBeforeChan, cstr]) env ref p
  have hdatr : readString (rxpkJson env ref p) "datr" =
      readString (.object (fieldMembers p)) "datr" :=
    readString_rxpkJson (by simp [namesBeforeChan, cstr]) env ref p
  have hcodr : readString (rxpkJson env ref p) "codr" =
      readString (.object (fieldMembers p)) "codr" :=
    readString_rxpkJson (by simp [namesBeforeChan, cstr]) env ref p
  have hrate : readInt (rxpkJson env ref p) "datr" = readInt (.object (fieldMembers p)) "datr" :=
    readInt_rxpkJson (by simp [namesBeforeChan, cstr]) env ref p
  unfold readModulation readLora
  rw [hmodu, hdatr, hcodr, hrate]
  unfold fieldMembers modulationMembers LgwPktRx.rxpkModulation
  cases hmodulation : p.modulation with
  | undefined => exact absurd hmodulation h.modulation
  | fsk =>
    simp [readString, readInt, Json.get?_object_cons, Json.string?, Json.int?, unsignedJson, cstr]
  | lora =>
    obtain ⟨coderate, hcoderate⟩ := Option.ne_none_iff_exists'.mp (h.coderate hmodulation)
    have hscan := scanDatr_datarateText (h.datarate hmodulation) (h.bandwidth hmodulation)
    simp [readString, Json.get?_object_cons, Json.string?, hscan, hcoderate,
      loraDatarate_spreadingFactor (h.datarate hmodulation),
      loraBandwidth_kHz (h.bandwidth hmodulation), readCoderate_coderateText, cstr]

theorem readData_base64Text {data : List U8} (h : data.length ≤ payloadMax) :
    readData (base64Text data) = some data := by
  obtain ⟨chars, hchars⟩ := exists_encodedAs data
  rw [readData, hchars.base64Text_eq, b64ToBin_encoded hchars h]

/-- A name that belongs to the fields after the modulation is found among these. -/
theorem get?_fieldMembers {n : CString} (h : n ∉ namesBeforeRssi) (p : LgwPktRx) :
    (Json.object (fieldMembers p)).get? n = (Json.object
      [(jsonName "rssi", fixedJson 0 p.rssi), (sizeName, unsignedJson p.size),
        (dataName, .string ⟨base64Text p.data, plain_base64Text p.data⟩)]).get? n := by
  have hmodulation : ∀ m ∈ modulationMembers p, m.1.bytes ∈ namesBeforeRssi := by
    unfold modulationMembers
    split <;> simp [namesBeforeRssi]
  refine Json.get?_object_append (List.forall_mem_append.mpr ⟨?_, ?_⟩) _
  · have hfirst : ∀ n' ∈ namesBeforeRssi.take 4, n' ≠ n := fun n' hn' heq =>
      h (heq ▸ List.mem_of_mem_take hn')
    simpa [namesBeforeRssi] using hfirst
  · exact fun m hm heq => h (heq ▸ hmodulation m hm)

/-- **A packet is read back from its entry.** -/
theorem readRxpk_rxpkJson {p : LgwPktRx} (h : p.Known) (env : UpEnv) (ref : Option Tref) :
    readRxpk (rxpkJson env ref p) = some p.rxpkFields := by
  have htmst : readInt (rxpkJson env ref p) "tmst" = some ↑p.countUs.toNat := by
    simp [readInt, rxpkJson, Json.get?_object_cons, unsignedJson, Json.int?]
  have hchan : readInt (rxpkJson env ref p) "chan" = some ↑p.ifChain.toNat := by
    rw [readInt_rxpkJson (by simp [namesBeforeChan, cstr])]
    simp [readInt, fieldMembers, Json.get?_object_cons, unsignedJson, Json.int?]
  have hrfch : readInt (rxpkJson env ref p) "rfch" = some ↑p.rfChain.toNat := by
    rw [readInt_rxpkJson (by simp [namesBeforeChan, cstr])]
    simp [readInt, fieldMembers, Json.get?_object_cons, unsignedJson, Json.int?, cstr]
  have hstat : readInt (rxpkJson env ref p) "stat" = some (statNumber p.status) := by
    rw [readInt_rxpkJson (by simp [namesBeforeChan, cstr])]
    simp [readInt, fieldMembers, Json.get?_object_cons, Json.int?, cstr]
  have hsize : readInt (rxpkJson env ref p) "size" = some ↑p.size.toNat := by
    rw [readInt_rxpkJson (by simp [namesBeforeChan, cstr]), readInt,
      get?_fieldMembers (by simp [namesBeforeRssi, cstr])]
    simp [Json.get?_object_cons, unsignedJson, Json.int?, cstr]
  have hdata : readString (rxpkJson env ref p) "data" = some (base64Text p.data) := by
    rw [readString_rxpkJson (by simp [namesBeforeChan, cstr]), readString,
      get?_fieldMembers (by simp [namesBeforeRssi, cstr])]
    simp [Json.get?_object_cons, Json.string?, cstr]
  have hlen : p.data.length ≤ payloadMax := by
    rw [length_data]
    exact p.size_le.trans (by decide)
  unfold readRxpk
  rw [htmst, hchan, hrfch, hstat, hsize, hdata, readModulation_rxpkJson h]
  simp [readStat_statNumber h.status, readData_base64Text hlen, LgwPktRx.rxpkFields]

/-! ## Uplinks are JSON -/

/-- Some packet is forwarded exactly if the filter lets some received packet pass. -/
theorem forwarded_ne_nil_iff {rxpkt : List LgwPktRx} :
    g.forwarded rxpkt ≠ [] ↔ ∃ p ∈ rxpkt, g.forwards p.status = true := by
  unfold UpGateway.forwarded
  rw [ne_eq, List.filter_eq_nil_iff]
  push Not
  rfl

/-- A report is never empty. -/
theorem StatReport.statusReport_ne_nil (r : StatReport) : r.statusReport ≠ [] := by
  have htext : r.text ≠ [] := by simp [StatReport.text, cstr]
  unfold StatReport.statusReport
  simp [htext]

/-- The entries of a datagram are the packets that pass, and read back as these. -/
theorem map_readRxpk {rxpkt : List LgwPktRx} (h : ∀ p ∈ rxpkt, p.Known) (env : UpEnv)
    (ref : Option Tref) :
    (rxpkt.map (rxpkJson env ref)).map readRxpk = rxpkt.map fun p => some p.rxpkFields := by
  rw [List.map_map]
  exact List.map_congr_left fun p hp => readRxpk_rxpkJson (h p hp) env ref

/-- **Uplinks are JSON.**  For any packets with known numbers, any filter, and a report or
none: a datagram is sent exactly if a packet passes the filter or there is a report; and if it
fits the buffer and the report fitted its own, the text after its header is a JSON object, with
an array `"rxpk"` exactly if a packet passes and a `"stat"` exactly if there is a report.  The
entries of the array are those packets, in their order, and each reads back as its packet. -/
theorem push_data_is_json (env : UpEnv) (g : UpGateway) (memory : ℕ → U8) (tokenH tokenL : U8)
    (rxpkt : List LgwPktRx) (h : ∀ p ∈ rxpkt, p.Known) (pending : Option StatReport)
    (hpending : g.report = pending.map StatReport.statusReport) :
    let r := pushData env g memory tokenH tokenL rxpkt
    (r.sent ≠ [] ↔ (∃ p ∈ rxpkt, g.forwards p.status = true) ∨ pending ≠ none) ∧
      r.sent.length ≤ 1 ∧ r.ended = false ∧
      ∀ datagram ∈ r.sent, datagramLength env g rxpkt < txBuffSize →
        (∀ report ∈ pending, report.text.length < statusSize) →
        ∃ entries : List Json,
          Json.parse (datagram.drop 12) = some (.object
            ((if entries = [] then [] else [(jsonName "rxpk", .array entries)]) ++
              (pending.toList.map fun report => (jsonName "stat", report.json)))) ∧
          entries.map readRxpk =
            (rxpkt.filter fun p => g.forwards p.status).map fun p => some p.rxpkFields := by
  intro r
  replace h := known_of_mem_forwarded (g := g) h
  have hreport : g.report ≠ some [] := by
    rw [hpending]
    cases pending with
    | none => simp
    | some report =>
      have hne := report.statusReport_ne_nil
      simpa using hne
  have hnone : g.report = none ↔ pending = none := by
    rw [hpending, Option.map_eq_none_iff]
  have hnil : g.pktInDgram rxpkt = 0 ↔ g.forwarded rxpkt = [] := List.length_eq_zero_iff
  rw [← forwarded_ne_nil_iff]
  by_cases hsome : g.forwarded rxpkt ≠ [] ∨ pending ≠ none
  · have hsend : g.pktInDgram rxpkt ≠ 0 ∨ g.report ≠ none := by
      rwa [ne_eq, ne_eq, hnil, hnone]
    obtain ⟨b, hr, happends⟩ := pushData_sends h hsend hreport env memory tokenH tokenL
    have hr' : r = sendDatagram b := hr
    have hsent : r.sent = [b.contents] := by
      rw [hr']
      rfl
    have hended : r.ended = false := by
      rw [hr']
      rfl
    rw [hsent]
    refine ⟨iff_of_true (List.cons_ne_nil _ _) hsome, le_rfl, hended, ?_⟩
    rw [List.forall_mem_singleton]
    intro hlt hfits
    rw [← length_datagramText h] at hlt
    refine ⟨(g.forwarded rxpkt).map (rxpkJson env (g.localRef rxpkt)), ?_,
      map_readRxpk h env _⟩
    have hstart : (startDatagram memory tokenH tokenL).contents.length = 12 := length_contents _
    rw [happends.contents hlt, List.drop_left' hstart,
      datagramText_eq h hpending hfits hsome env, Json.parse_text]
    simp only [rootJson, rxpkMembers, statMembers, List.map_eq_nil_iff]
  · have hnothing := hsome
    rw [not_or, not_not, not_not] at hnothing
    obtain ⟨b, hr, -⟩ := pushData_of_nothing h (hnil.mpr hnothing.1) (hnone.mpr hnothing.2) env
      memory tokenH tokenL
    have hr' : r = ⟨b, [], false⟩ := hr
    rw [hr']
    exact ⟨iff_of_false (fun hne => hne rfl) hsome, Nat.zero_le _, rfl,
      fun datagram hd => absurd hd List.not_mem_nil⟩

/-! ## Reports that fit -/

theorem length_statTimestamp {t : ℤ} (hyear : 0 ≤ (gmtime t).tmYear + 1900)
    (hyear' : (gmtime t).tmYear + 1900 ≤ 9999) : (statTimestamp t).length = 23 := by
  obtain ⟨hmon, hmon', hday, hday', hhour, hhour', hmin, hmin', hsec, hsec'⟩ := gmtime_ranges t
  unfold statTimestamp
  simp only [List.length_append, length_formatPadded]
  rw [paddedWidth_eq (by decide) hyear (by omega), paddedWidth_eq (by decide) (by omega) (by omega),
    paddedWidth_eq (by decide) hday (by omega), paddedWidth_eq (by decide) hhour (by omega),
    paddedWidth_eq (by decide) hmin (by omega), paddedWidth_eq (by decide) hsec (by omega)]
  simp [cstr]

/-- The widths a report is expected to have: a year of four digits, coordinates on earth, and
a percentage. -/
structure StatReport.Expected (r : StatReport) : Prop where
  year : 0 ≤ (gmtime r.t).tmYear + 1900 ∧ (gmtime r.t).tmYear + 1900 ≤ 9999
  lat : ∀ c ∈ r.coord, (Decimal.fixed 5 c.lat.negative c.lat.magnitude).whole < 1000
  lon : ∀ c ∈ r.coord, (Decimal.fixed 5 c.lon.negative c.lon.magnitude).whole < 1000
  ackPercent : (Decimal.fixed 1 r.ackPercent.negative r.ackPercent.magnitude).whole < 1000

theorem length_formatSigned_toInt (x : BitVec 16) : (formatSigned x.toInt).length ≤ 6 := by
  have hlow := BitVec.le_toInt x
  have hhigh := BitVec.toInt_lt (x := x)
  have hwidth : decimalWidth x.toInt.natAbs ≤ 5 := by
    refine decimalWidth_le (by decide) ?_
    omega
  have hsign := Bool.toNat_le (decide (x.toInt < 0))
  rw [formatSigned, Decimal.length_text]
  unfold Decimal.width Decimal.ofInt
  simp only [if_true]
  omega

theorem length_coordText_le {r : StatReport} (h : r.Expected) :
    (r.coord.elim [] coordText).length ≤ 50 := by
  cases hcoord : r.coord with
  | none => exact Nat.zero_le _
  | some c =>
    have hlat := fixedWidth_le (h.lat c hcoord)
    have hlon := fixedWidth_le (h.lon c hcoord)
    have halt := length_formatSigned_toInt c.alt
    have hlen : (coordText c).length =
        24 + fixedWidth 5 c.lat + fixedWidth 5 c.lon + (formatSigned c.alt.toInt).length := by
      simp [coordText, cstr]
      omega
    rw [Option.elim_some, hlen]
    simp only [OfNat.ofNat_ne_zero, if_false] at hlat hlon
    omega

/-- **The text of a report with values as they occur fits `status_report`, so that nothing is cut
off.** -/
theorem StatReport.length_text_lt {r : StatReport} (h : r.Expected) :
    r.text.length < statusSize := by
  have htime := length_statTimestamp h.year.1 h.year.2
  have hcoord := length_coordText_le h
  have hack := fixedWidth_le h.ackPercent
  have hcounter (x : U32) : decimalWidth x.toNat ≤ 10 :=
    decimalWidth_le (by decide) (x.isLt.trans (by decide))
  have hrcv := hcounter r.nbRxRcv
  have hok := hcounter r.nbRxOk
  have hfwd := hcounter r.upPktFwd
  have hdw := hcounter r.dwDgramRcv
  have htx := hcounter r.nbTxOk
  have hlen : r.text.length = 66 + (statTimestamp r.t).length +
      (r.coord.elim [] coordText).length + decimalWidth r.nbRxRcv.toNat +
      decimalWidth r.nbRxOk.toNat + decimalWidth r.upPktFwd.toNat + fixedWidth 1 r.ackPercent +
      decimalWidth r.dwDgramRcv.toNat + decimalWidth r.nbTxOk.toNat := by
    simp [StatReport.text, cstr]
    omega
  simp only [one_ne_zero, if_false] at hack
  rw [hlen]
  show _ < 200
  omega

/-- A status report that carries the coordinates of a GPS receiver. -/
def exampleStat : StatReport where
  t := 1735689600
  coord := some ⟨⟨false, 4653 / 100⟩, ⟨false, 664 / 100⟩, 430⟩
  nbRxRcv := 3
  nbRxOk := 2
  upPktFwd := 2
  ackPercent := ⟨false, 100⟩
  dwDgramRcv := 1
  nbTxOk := 1

theorem expected_exampleStat : exampleStat.Expected where
  year := by decide
  lat c hc := by
    cases hc
    decide +kernel
  lon c hc := by
    cases hc
    decide +kernel
  ackPercent := by decide +kernel

/-- A packet and a report, which both fit. -/
theorem push_data_is_json_packet_and_report :
    let g := UpGateway.reference (some exampleStat.statusReport)
    let r := pushData .reference g (fun _ => 0) 18 52 [longPacket]
    r.sent ≠ [] ∧ r.sent.length ≤ 1 ∧ r.ended = false ∧
      ∀ datagram ∈ r.sent,
        ∃ entries : List Json,
          Json.parse (datagram.drop 12) = some (.object
            ((if entries = [] then [] else [(jsonName "rxpk", .array entries)]) ++
              [(jsonName "stat", exampleStat.json)])) ∧
          entries.map readRxpk =
            ([longPacket].filter fun p => g.forwards p.status).map fun p => some p.rxpkFields := by
  intro g r
  obtain ⟨hsent, hone, hended, hjson⟩ := push_data_is_json .reference g (fun _ => 0) 18 52
    [longPacket] (List.forall_mem_singleton.mpr (expected_longPacket none).toKnown)
    (some exampleStat) rfl
  have hstat := StatReport.length_text_lt expected_exampleStat
  have hlength : datagramLength .reference g [longPacket] < txBuffSize := by decide +kernel
  refine ⟨hsent.mpr (.inr nofun), hone, hended, fun datagram hd => ?_⟩
  exact hjson datagram hd hlength fun report hr => Option.mem_some.mp hr ▸ hstat

end PacketForwarder
