import PacketForwarder.Base64
import PacketForwarder.JitQueue
import PacketForwarder.Json
import PacketForwarder.Lib.Strtod

/-!
# Downlinks

What `thread_down` does with one datagram from the server.  A `PULL_RESP` carries a
JSON object with the packet to be sent:

* `requested` — read the packet from the JSON, in the order of the source; each of
  its early exits is an `Abort`;
* `txError` — the checks before the queue: frequency and power;
* `sendTxAck` — the `TX_ACK` that tells the server how it went;
* `onPullResp`, `onDatagram` — all of it together.
-/

namespace PacketForwarder

/-! ## The gateway -/

/-- The statistics of the downlink that `thread_down` keeps. -/
structure MeasDw where
  dwAckRcv : U32
  dwDgramRcv : U32
  dwNetworkByte : U32
  dwPayloadByte : U32
  nbTxRequested : U32
  nbTxRejectedCollisionPacket : U32
  nbTxRejectedCollisionBeacon : U32
  nbTxRejectedTooLate : U32
  nbTxRejectedTooEarly : U32
  deriving DecidableEq

/-- The gateway, as far as the downlink reads or writes it. -/
structure Gateway where
  /-- `net_mac_h` and `net_mac_l` as they lie in memory. -/
  netMac : Slots U8 8
  gpsEnabled : Bool
  gpsRefValid : Bool
  timeReferenceGps : Tref
  antennaGain : U8
  txlut : LgwTxGainLut
  txFreqMin : Slots U32 lgwRfChainNb
  txFreqMax : Slots U32 lgwRfChainNb
  jitQueue : JitQueue
  measDw : MeasDw
  /-- The token of the last `PULL_DATA`. -/
  tokenH : U8
  tokenL : U8
  /-- Whether that `PULL_DATA` has been acknowledged. -/
  reqAck : Bool
  autoquitCnt : U32

/-- What the downlink calls and is not modelled here. -/
structure DownEnv where
  jit : JitEnv
  lgwGps2cnt : Gps2cnt
  /-- `json_parse_string_with_comments`. -/
  jsonParse : CString → Option JsonValue
  /-- A conversion to an integer type the number does not fit. -/
  castOutside : (w : ℕ) → Binary64 → BitVec w
  /-- A read outside `tx_freq_min` or `tx_freq_max`. -/
  strayFreq : U32

namespace DownEnv

/-- A cast to an unsigned type. -/
def castU (env : DownEnv) (w : ℕ) (x : Binary64) : BitVec w := x.toUnsigned env.castOutside w

/-- A cast to a signed type. -/
def castS (env : DownEnv) (w : ℕ) (x : Binary64) : BitVec w := x.toSigned env.castOutside w

end DownEnv

/-! ## `sscanf` -/

/-- A literal of the format has to stand at the beginning of the text. -/
def scanLiteral (literal : String) (s : CString) : Option CString :=
  if (cstr literal).isPrefixOf s then some (s.drop (cstr literal).length) else none

/-- A conversion `%<width>hd`: blanks, then at most `width` characters of a number. -/
def scanShort (width : ℕ) (s : CString) : Option (ℤ × CString) :=
  let s := s.dropWhile isSpaceByte
  let sign := s.take 1 |>.filter fun x => x = 43 || x = 45
  let digits := ((s.drop sign.length).takeWhile isDigitByte).take (width - sign.length)
  let value : ℤ := digits.foldl (fun v x => 10 * v + (x - 48).toNat) 0
  if digits = [] then none
  else some (if sign = [45] then -value else value, s.drop (sign.length + digits.length))

/-- `sscanf(str, "SF%2hdBW%3hd", &x0, &x1)`, if both numbers are read. -/
def scanDatr (str : CString) : Option (ℤ × ℤ) := do
  let rest ← scanLiteral "SF" str
  let (x0, rest) ← scanShort 2 rest
  let rest ← scanLiteral "BW" rest
  let (x1, _) ← scanShort 3 rest
  return (x0, x1)

/-! ## The packet that is requested -/

/-- Why no packet is handed on. -/
inductive Abort
  /-- A warning, and nothing is sent. -/
  | warning (text : String)
  /-- A warning, and a `TX_ACK` with `JIT_ERROR_GPS_UNLOCKED`. -/
  | gpsUnlocked (text : String)
  /-- The thread ends, in `exit` of the decoder. -/
  | exits

/-- The warning about a field that is not there, or of another type. -/
def noMandatory (names : String) : Abort :=
  .warning ("no mandatory " ++ names ++ " in JSON, TX aborted")

/-- A mandatory field is there, or the request is aborted with a warning. -/
def mandatory (txpk : JsonObject) (name : String) : Except Abort JsonValue :=
  (jsonObjectGetValue txpk name).elim
    (.error (noMandatory ("\"txpk." ++ name ++ "\" object"))) .ok

/-- A mandatory string is there and is a string, or the request is aborted with a warning. -/
def mandatoryString (txpk : JsonObject) (name : String) : Except Abort CString :=
  (jsonObjectGetString txpk name).elim
    (.error (noMandatory ("\"txpk." ++ name ++ "\" object"))) .ok

/-- `sent_immediate`, `txpkt.count_us` and `downlink_type`. -/
def requestedTime (env : DownEnv) (g : Gateway) (txpk : JsonObject) :
    Except Abort (Bool × U32 × JitPktType) :=
  if jsonObjectGetBoolean txpk "imme" = 1 then .ok (true, 0, .downlinkClassC)
  else
    match jsonObjectGetValue txpk "tmst" with
    | some val => .ok (false, env.castU 32 (jsonValueGetNumber val), .downlinkClassA)
    | none =>
      match jsonObjectGetValue txpk "tmms" with
      | none => .error (noMandatory "\"txpk.tmst\" or \"txpk.tmms\" objects")
      | some val =>
        if g.gpsEnabled = false then
          .error (.gpsUnlocked ("GPS disabled, impossible to send packet on specific GPS time, " ++
            "TX aborted"))
        else if g.gpsRefValid = false then
          .error (.gpsUnlocked ("no valid GPS time reference yet, impossible to send packet " ++
            "on specific GPS time, TX aborted"))
        else
          let x2 := env.castU 64 (jsonValueGetNumber val)
          let (x3, x4) := ((Binary64.ofRat x2.toNat).div 1000).modf
          let gpsTx : Timespec :=
            ⟨(env.castS 64 x4).toInt, (env.castS 64 (x3.mul (.finite 1000000000))).toInt⟩
          match env.lgwGps2cnt g.timeReferenceGps gpsTx with
          | none => .error (.warning "could not convert GPS time to timestamp, TX aborted")
          | some countUs => .ok (false, countUs, .downlinkClassB)

/-- `txpkt.datarate` for a spreading factor. -/
def loraDatarate (x0 : ℤ) : Option Datarate :=
  if x0 = 7 then some .loraSf7
  else if x0 = 8 then some .loraSf8
  else if x0 = 9 then some .loraSf9
  else if x0 = 10 then some .loraSf10
  else if x0 = 11 then some .loraSf11
  else if x0 = 12 then some .loraSf12
  else none

/-- `txpkt.bandwidth` for a bandwidth in kHz. -/
def loraBandwidth (x1 : ℤ) : Option Bandwidth :=
  if x1 = 125 then some .bw125kHz
  else if x1 = 250 then some .bw250kHz
  else if x1 = 500 then some .bw500kHz
  else none

/-- `txpkt.coderate`. -/
def loraCoderate (str : CString) : Option Coderate :=
  if str = cstr "4/5" then some .lora4_5
  else if str = cstr "4/6" ∨ str = cstr "2/3" then some .lora4_6
  else if str = cstr "4/7" then some .lora4_7
  else if str = cstr "4/8" ∨ str = cstr "1/2" then some .lora4_8
  else none

/-- The preamble: optional, and not below the minimum. -/
def requestedPreamble (env : DownEnv) (txpk : JsonObject) (minPreamb stdPreamb : ℕ) : U16 :=
  match jsonObjectGetValue txpk "prea" with
  | some val =>
    let i := env.castS 32 (jsonValueGetNumber val)
    if (minPreamb : ℤ) ≤ i.toInt then i.setWidth 16 else BitVec.ofNat 16 minPreamb
  | none => BitVec.ofNat 16 stdPreamb

/-- `MIN_LORA_PREAMB` and `STD_LORA_PREAMB`. -/
def loraPreamble (env : DownEnv) (txpk : JsonObject) : U16 := requestedPreamble env txpk 6 8

/-- `MIN_FSK_PREAMB` and `STD_FSK_PREAMB`. -/
def fskPreamble (env : DownEnv) (txpk : JsonObject) : U16 := requestedPreamble env txpk 3 5

/-- An optional boolean; what is no boolean reads as -1, which is `true`. -/
def optionalBool (txpk : JsonObject) (name : String) : Bool :=
  match jsonObjectGetValue txpk name with
  | some val => jsonValueGetBoolean val ≠ 0
  | none => false

/-- The fields of a LoRa packet. -/
def requestedLora (env : DownEnv) (txpk : JsonObject) (txpkt : LgwPktTx) :
    Except Abort LgwPktTx := do
  let datr ← mandatoryString txpk "datr"
  let (x0, x1) ← (scanDatr datr).elim
    (.error (.warning "format error in \"txpk.datr\", TX aborted")) .ok
  let datarate ← (loraDatarate x0).elim
    (.error (.warning "format error in \"txpk.datr\", invalid SF, TX aborted")) .ok
  let bandwidth ← (loraBandwidth x1).elim
    (.error (.warning "format error in \"txpk.datr\", invalid BW, TX aborted")) .ok
  let codr ← (jsonObjectGetString txpk "codr").elim
    (.error (.warning "no mandatory \"txpk.codr\" object in json, TX aborted")) .ok
  let coderate ← (loraCoderate codr).elim
    (.error (.warning "format error in \"txpk.codr\", TX aborted")) .ok
  return { txpkt with
    modulation := .lora
    datarate := datarate
    bandwidth := bandwidth
    coderate := coderate
    invertPol := optionalBool txpk "ipol"
    preamble := loraPreamble env txpk }

/-- The fields of an FSK packet. -/
def requestedFsk (env : DownEnv) (txpk : JsonObject) (txpkt : LgwPktTx) :
    Except Abort LgwPktTx := do
  let datr ← mandatory txpk "datr"
  let fdev ← mandatory txpk "fdev"
  return { txpkt with
    modulation := .fsk
    datarate := .bps (env.castU 32 (jsonValueGetNumber datr))
    fDev := env.castU 8 ((jsonValueGetNumber fdev).div 1000)
    preamble := fskPreamble env txpk }

/-- The fields that depend on the modulation. -/
def requestedModulation (env : DownEnv) (txpk : JsonObject) (txpkt : LgwPktTx) :
    Except Abort LgwPktTx := do
  let modu ← mandatoryString txpk "modu"
  if modu = cstr "LORA" then requestedLora env txpk txpkt
  else if modu = cstr "FSK" then requestedFsk env txpk txpkt
  else .error (.warning "invalid modulation in \"txpk.modu\", TX aborted")

/-- `txpkt.rf_power`; without the field it stays zero. -/
def requestedPower (env : DownEnv) (g : Gateway) (txpk : JsonObject) : U8 :=
  match jsonObjectGetValue txpk "powe" with
  | some val => env.castS 8 (jsonValueGetNumber val) - g.antennaGain
  | none => 0

/-- `txpkt.payload`.  A string that cannot be decoded, or does not have `txpk.size` bytes,
only gives a warning. -/
def requestedPayload (data : CString) : Except Abort (Slots U8 payloadMax) :=
  match b64ToBin data payloadMax with
  | .exits => .error .exits
  | .returns _ written => .ok ((Slots.replicate payloadMax 0).write 0 written)

/-- The packet and its class, from the `txpk` object. -/
def requestedPacket (env : DownEnv) (g : Gateway) (txpk : JsonObject) :
    Except Abort (LgwPktTx × JitPktType) := do
  let (sentImmediate, countUs, downlinkType) ← requestedTime env g txpk
  let freq ← mandatory txpk "freq"
  let rfch ← mandatory txpk "rfch"
  let txpkt ← requestedModulation env txpk
    { LgwPktTx.zero with
      countUs := countUs
      noCrc := optionalBool txpk "ncrc"
      freqHz := env.castU 32 ((Binary64.finite 1000000).mul (jsonValueGetNumber freq))
      rfChain := env.castU 8 (jsonValueGetNumber rfch)
      rfPower := requestedPower env g txpk }
  let size ← mandatory txpk "size"
  let data ← mandatoryString txpk "data"
  let payload ← requestedPayload data
  return ({ txpkt with
    size := env.castU 16 (jsonValueGetNumber size)
    payload := payload
    txMode := if sentImmediate then .immediate else .timestamped }, downlinkType)

/-- The packet a `PULL_RESP` asks for.  The JSON ends at the first null byte. -/
def requested (env : DownEnv) (g : Gateway) (buff : List U8) :
    Except Abort (LgwPktTx × JitPktType) :=
  match env.jsonParse ((buff.drop 4).takeWhile (· ≠ 0)) with
  | none => .error (.warning "invalid JSON, TX aborted")
  | some root =>
    match (jsonValueGetObject root).bind fun object => jsonObjectGetObject object "txpk" with
    | none => .error (.warning "no \"txpk\" object in JSON, TX aborted")
    | some txpk => requestedPacket env g txpk

/-! ## The checks before the queue -/

/-- `tx_freq_min[rf_chain]` or `tx_freq_max[rf_chain]`. -/
def chainFreq (env : DownEnv) (freqs : Slots U32 lgwRfChainNb) (rfChain : U8) : U32 :=
  freqs.getD rfChain.toNat env.strayFreq

/-- The power is one of the TX gain table. -/
def powerSupported (txlut : LgwTxGainLut) (rfPower : U8) : Bool :=
  (txlut.lut.live txlut.size.toNat).any fun gain => gain.rfPower = rfPower

/-- `jit_result` before the packet is offered to the queue. -/
def txError (env : DownEnv) (g : Gateway) (txpkt : LgwPktTx) : JitError :=
  if txpkt.freqHz < chainFreq env g.txFreqMin txpkt.rfChain ∨
      chainFreq env g.txFreqMax txpkt.rfChain < txpkt.freqHz then .txFreq
  else if powerSupported g.txlut txpkt.rfPower = false then .txPower
  else .ok

/-! ## `send_tx_ack` -/

/-- `PROTOCOL_VERSION`. -/
@[simp] abbrev protocolVersion : U8 := 2

/-- `PKT_PULL_RESP`. -/
@[simp] abbrev pktPullResp : U8 := 3

/-- `PKT_PULL_ACK`. -/
@[simp] abbrev pktPullAck : U8 := 4

/-- `PKT_TX_ACK`. -/
@[simp] abbrev pktTxAck : U8 := 5

/-- The downlink error status of the JSON structure. -/
def txAckError : JitError → String
  | .full | .collisionPacket => "\"COLLISION_PACKET\""
  | .tooLate => "\"TOO_LATE\""
  | .tooEarly => "\"TOO_EARLY\""
  | .collisionBeacon => "\"COLLISION_BEACON\""
  | .txFreq => "\"TX_FREQ\""
  | .txPower => "\"TX_POWER\""
  | .gpsUnlocked => "\"GPS_UNLOCKED\""
  | .ok | .empty | .invalid => "\"UNKNOWN\""

/-- The JSON structure; there is none if there is nothing to report. -/
def txAckJson (error : JitError) : CString :=
  if error = .ok then []
  else
    cstr "\x7b\"txpk_ack\":\x7b" ++ cstr "\"error\":" ++ cstr (txAckError error) ++
      cstr "\x7d\x7d"

/-- The counter of this error goes up by one. -/
def MeasDw.countRejected (m : MeasDw) : JitError → MeasDw
  | .full | .collisionPacket =>
    { m with nbTxRejectedCollisionPacket := m.nbTxRejectedCollisionPacket + 1 }
  | .tooLate => { m with nbTxRejectedTooLate := m.nbTxRejectedTooLate + 1 }
  | .tooEarly => { m with nbTxRejectedTooEarly := m.nbTxRejectedTooEarly + 1 }
  | .collisionBeacon => { m with nbTxRejectedCollisionBeacon := m.nbTxRejectedCollisionBeacon + 1 }
  | .ok | .empty | .invalid | .txFreq | .txPower | .gpsUnlocked => m

/-- The datagram `send_tx_ack` sends. -/
def txAck (g : Gateway) (tokenH tokenL : U8) (error : JitError) : List U8 :=
  [protocolVersion, tokenH, tokenL, pktTxAck] ++ g.netMac.cells ++ txAckJson error

/-- What handling a datagram leaves behind. -/
structure DownResult where
  gateway : Gateway
  /-- The datagrams that handling has sent. -/
  sent : List (List U8)
  /-- The thread has ended, so that nothing else is received. -/
  ended : Bool

/-- `send_tx_ack`. -/
def sendTxAck (g : Gateway) (tokenH tokenL : U8) (error : JitError) : DownResult where
  gateway := { g with measDw := g.measDw.countRejected error }
  sent := [txAck g tokenH tokenL error]
  ended := false

/-! ## A datagram -/

/-- `buff_down[k]`. -/
def byteAt (buff : List U8) (k : ℕ) : U8 := buff.getD k 0

/-- A datagram without JSON errors is counted. -/
def MeasDw.countDgram (m : MeasDw) (msgLen : ℕ) (txpkt : LgwPktTx) : MeasDw :=
  { m with
    dwDgramRcv := m.dwDgramRcv + 1
    dwNetworkByte := m.dwNetworkByte + BitVec.ofNat 32 msgLen
    dwPayloadByte := m.dwPayloadByte + txpkt.size.setWidth 32 }

/-- The packet is offered to the queue. -/
def enqueueDownlink (env : DownEnv) (g : Gateway) (time : Timeval) (txpkt : LgwPktTx)
    (downlinkType : JitPktType) : Gateway × JitError :=
  let r := jitEnqueue env.jit g.jitQueue time (some txpkt) downlinkType
  ({ g with
    jitQueue := r.queue
    measDw := { g.measDw with nbTxRequested := g.measDw.nbTxRequested + 1 } }, r.error)

/-- A packet that was read from the JSON: check it, offer it to the queue, and tell the
server. -/
def onRequest (env : DownEnv) (g : Gateway) (time : Timeval) (buff : List U8)
    (txpkt : LgwPktTx) (downlinkType : JitPktType) : DownResult :=
  let g := { g with measDw := g.measDw.countDgram buff.length txpkt }
  let error := txError env g txpkt
  if error = .ok then
    let (g, error) := enqueueDownlink env g time txpkt downlinkType
    sendTxAck g (byteAt buff 1) (byteAt buff 2) error
  else sendTxAck g (byteAt buff 1) (byteAt buff 2) error

/-- A `PULL_RESP`.  `time` is the concentrator's time when the packet is offered. -/
def onPullResp (env : DownEnv) (g : Gateway) (time : Timeval) (buff : List U8) : DownResult :=
  match requested env g buff with
  | .error (.warning _) => ⟨g, [], false⟩
  | .error (.gpsUnlocked _) => sendTxAck g (byteAt buff 1) (byteAt buff 2) .gpsUnlocked
  | .error .exits => ⟨g, [], true⟩
  | .ok (txpkt, downlinkType) => onRequest env g time buff txpkt downlinkType

/-- A `PULL_ACK` is counted if it has the token of the last `PULL_DATA`. -/
def onPullAck (g : Gateway) (buff : List U8) : DownResult :=
  if byteAt buff 1 = g.tokenH ∧ byteAt buff 2 = g.tokenL ∧ g.reqAck = false then
    ⟨{ g with
      reqAck := true
      autoquitCnt := 0
      measDw := { g.measDw with dwAckRcv := g.measDw.dwAckRcv + 1 } }, [], false⟩
  else ⟨g, [], false⟩

/-- A datagram that respects the protocol. -/
def IsPacket (identifier : U8) (buff : List U8) : Prop :=
  4 ≤ buff.length ∧ byteAt buff 0 = protocolVersion ∧ byteAt buff 3 = identifier

instance (identifier : U8) (buff : List U8) : Decidable (IsPacket identifier buff) :=
  inferInstanceAs (Decidable (_ ∧ _ ∧ _))

/-- Any datagram; one that does not respect the protocol is ignored. -/
def onDatagram (env : DownEnv) (g : Gateway) (time : Timeval) (buff : List U8) : DownResult :=
  if IsPacket pktPullAck buff then onPullAck g buff
  else if IsPacket pktPullResp buff then onPullResp env g time buff
  else ⟨g, [], false⟩

end PacketForwarder
