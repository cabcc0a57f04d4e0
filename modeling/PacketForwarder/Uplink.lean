import PacketForwarder.Base64
import PacketForwarder.Comms
import PacketForwarder.Downlink
import PacketForwarder.Lib.Decimal
import PacketForwarder.Lib.TextBuffer

/-!
# Uplinks

How `thread_up` turns the packets of one fetch, and the status report if a new one is
pending, into the JSON text of a `PUSH_DATA` datagram.

* `LgwPktRx` — a received packet;
* `Piece` — the ways `thread_up` adds to `buff_up`: `memcpy`, `snprintf`, `bin_to_b64`, the
  step back over `"rxpk":[`, and the exits;
* `rxpkPieces` — a packet, in the order of the source; `loopPieces` — the loop over the
  packets with its filter; `closingPieces` — what follows the loop;
* `pushData` — one pass of `thread_up`.
-/

namespace PacketForwarder

/-! ## `printf` and `gmtime` -/

/-- A finite `float` or `double`.  It is printed with its sign, also if it is zero. -/
structure FiniteFloat where
  negative : Bool
  magnitude : ℚ≥0
  deriving DecidableEq

/-- `%u`, `%1u` and `PRIu64`. -/
def formatUnsigned {w : ℕ} (x : BitVec w) : CString := (Decimal.ofNat x.toNat).text

/-- `%i`. -/
def formatSigned (z : ℤ) : CString := (Decimal.ofInt z).text

/-- `%.<places>f`. -/
def formatFixed (places : ℕ) (x : FiniteFloat) : CString :=
  (Decimal.fixed places x.negative x.magnitude).text

/-- `%.<places>lf` of a number that has been computed. -/
def formatDouble (places : ℕ) : Binary64 → CString
  | .finite q => formatFixed places ⟨q < 0, q.nnabs⟩
  | .infinity negative => if negative then cstr "-inf" else cstr "inf"
  | .nan => cstr "nan"

/-- `%0<width>i`: zeros after the sign, up to the width. -/
def formatPadded (width : ℕ) (z : ℤ) : CString :=
  let sign := Decimal.signText (z < 0)
  sign ++ digits (max (width - sign.length) (decimalWidth z.natAbs)) z.natAbs

/-- `struct tm`. -/
structure Tm where
  /-- The year, counted from 1900. -/
  tmYear : ℤ
  /-- The month, counted from 0 for January. -/
  tmMon : ℤ
  tmMday : ℤ
  tmHour : ℤ
  tmMin : ℤ
  tmSec : ℤ
  deriving DecidableEq

/-- `gmtime`: the Gregorian date and the time of day.  Years are counted from March here, in
eras of 400 years. -/
def gmtime (t : ℤ) : Tm :=
  let days := t / 86400 + 719468
  let era := days / 146097
  let dayOfEra := days % 146097
  let yearOfEra := (dayOfEra - dayOfEra / 1460 + dayOfEra / 36524 - dayOfEra / 146096) / 365
  let dayOfYear := dayOfEra - (365 * yearOfEra + yearOfEra / 4 - yearOfEra / 100)
  let month := (5 * dayOfYear + 2) / 153
  let january := if month < 10 then 0 else 1
  { tmYear := yearOfEra + era * 400 + january - 1900
    tmMon := (month + 2) % 12
    tmMday := dayOfYear - (153 * month + 2) / 5 + 1
    tmHour := t % 86400 / 3600
    tmMin := t % 3600 / 60
    tmSec := t % 60 }

/-- The GPS epoch, and the last second of a leap year. -/
example :
    gmtime 315964800 = ⟨80, 0, 6, 0, 0, 0⟩ ∧
      gmtime 1735689599 = ⟨124, 11, 31, 23, 59, 59⟩ := by
  decide

/-! ## The packets -/

/-- The enumerants of `status` of a received packet. -/
inductive RxStatus
  | undefined
  | noCrc
  | crcBad
  | crcOk
  deriving DecidableEq

/-- The number of a datarate; the HAL has a bit for each spreading factor. -/
def Datarate.value : Datarate → U32
  | loraSf7 => 0x02
  | loraSf8 => 0x04
  | loraSf9 => 0x08
  | loraSf10 => 0x10
  | loraSf11 => 0x20
  | loraSf12 => 0x40
  | bps rate => rate

/-- `struct lgw_pkt_rx_s`, as the concentrator fills it: it has eight bits for the size. -/
structure LgwPktRx where
  freqHz : U32
  ifChain : U8
  status : RxStatus
  countUs : U32
  rfChain : U8
  modulation : Modulation
  bandwidth : Bandwidth
  datarate : Datarate
  /-- `none` is a number the HAL has no name for. -/
  coderate : Option Coderate
  rssi : FiniteFloat
  snr : FiniteFloat
  size : U16
  payload : Slots U8 payloadMax
  size_le : size.toNat ≤ 255

/-- The bytes of the payload: the first `size` cells of the array. -/
def LgwPktRx.data (p : LgwPktRx) : List U8 := p.payload.cells.take p.size.toNat

/-- What `thread_up` calls and is not modelled here. -/
structure UpEnv where
  lgwCnt2utc : Tref → U32 → Option Timespec
  lgwCnt2gps : Tref → U32 → Option Timespec
  /-- A conversion to an integer type the number does not fit. -/
  castOutside : (w : ℕ) → Binary64 → BitVec w

/-- The gateway, as far as `thread_up` reads it. -/
structure UpGateway where
  fwdValidPkt : Bool
  fwdErrorPkt : Bool
  fwdNocrcPkt : Bool
  gpsEnabled : Bool
  gpsRefValid : Bool
  timeReferenceGps : Tref
  /-- The contents of `status_report`, where `report_ready` is set. -/
  report : Option CString

/-! ## Pieces of the text -/

/-- The ways in which the thread adds text to `buff_up`. -/
inductive Piece
  /-- `memcpy`, or characters assigned one by one. -/
  | copy (text : CString)
  /-- `snprintf` up to the end of the buffer. -/
  | print (text : CString)
  /-- `bin_to_b64`. -/
  | base64 (data : List U8)
  /-- `buff_index -= n`. -/
  | rewind (n : ℕ)
  /-- `exit(EXIT_FAILURE)`. -/
  | exits

/-- The buffer `buff_up` as far as it is written, with its `buff_index`. -/
abbrev UpBuff := TextBuffer U8

/-- `TX_BUFF_SIZE-buff_index`, as the `size_t` that `snprintf` takes. -/
def roomAt (buffIndex : ℕ) : ℕ := (BitVec.ofInt 64 ((txBuffSize : ℤ) - buffIndex)).toNat

/-- Add a piece; the thread ends with the buffer as it is then, if a call fails. -/
def addPiece (b : UpBuff) : Piece → Except UpBuff UpBuff
  | .copy text => .ok (b.put text)
  | .print text =>
    let printed := b.print 0 (roomAt b.index) text
    if 0 < text.length then .ok printed else .error printed
  | .base64 data =>
    match binToB64 data 341 with
    | .exits => .error b
    | .returns j written =>
      let encoded := b.write b.index written
      if 0 ≤ j then .ok (encoded.advance j.toNat) else .error encoded
  | .rewind n => .ok { b with index := b.index - n }
  | .exits => .error b

/-- Add the pieces to the buffer one after the other, up to the first that exits. -/
def addPieces (b : UpBuff) (pieces : List Piece) : Except UpBuff UpBuff :=
  pieces.foldlM addPiece b

/-! ## A packet -/

/-- `"time"`, if the timestamp can be converted to UTC. -/
def timePieces (env : UpEnv) (localRef : Tref) (p : LgwPktRx) : List Piece :=
  match env.lgwCnt2utc localRef p.countUs with
  | none => []
  | some pktUtcTime =>
    let x := gmtime pktUtcTime.tvSec
    [.print (cstr ",\"time\":\"" ++ formatPadded 4 (x.tmYear + 1900) ++ cstr "-" ++
      formatPadded 2 (x.tmMon + 1) ++ cstr "-" ++ formatPadded 2 x.tmMday ++ cstr "T" ++
      formatPadded 2 x.tmHour ++ cstr ":" ++ formatPadded 2 x.tmMin ++ cstr ":" ++
      formatPadded 2 x.tmSec ++ cstr "." ++ formatPadded 6 (pktUtcTime.tvNsec.tdiv 1000) ++
      cstr "Z\"")]

/-- `pkt_gps_time_ms`. -/
def gpsTimeMs (env : UpEnv) (pktGpsTime : Timespec) : BitVec 64 :=
  (((Binary64.ofRat pktGpsTime.tvSec).mul (.finite 1000)).add
    ((Binary64.ofRat pktGpsTime.tvNsec).div 1000000)).toUnsigned env.castOutside 64

/-- `"tmms"`, if the timestamp can be converted to GPS time. -/
def tmmsPieces (env : UpEnv) (localRef : Tref) (p : LgwPktRx) : List Piece :=
  match env.lgwCnt2gps localRef p.countUs with
  | none => []
  | some pktGpsTime => [.print (cstr ",\"tmms\":" ++ formatUnsigned (gpsTimeMs env pktGpsTime))]

/-- The RX time, if there is a time reference. -/
def gpsPieces (env : UpEnv) (ref : Option Tref) (p : LgwPktRx) : List Piece :=
  match ref with
  | none => []
  | some localRef => timePieces env localRef p ++ tmmsPieces env localRef p

/-- `(double)p->freq_hz / 1e6`. -/
def LgwPktRx.freqMhz (p : LgwPktRx) : Binary64 := (Binary64.finite p.freqHz.toNat).div 1000000

/-- `"stat"`. -/
def statPieces : RxStatus → List Piece
  | .crcOk => [.copy (cstr ",\"stat\":1")]
  | .crcBad => [.copy (cstr ",\"stat\":-1")]
  | .noCrc => [.copy (cstr ",\"stat\":0")]
  | .undefined => [.copy (cstr ",\"stat\":?"), .exits]

/-- The first half of `"datr"`, which gives the spreading factor. -/
def dataratePieces : Datarate → List Piece
  | .loraSf7 => [.copy (cstr ",\"datr\":\"SF7")]
  | .loraSf8 => [.copy (cstr ",\"datr\":\"SF8")]
  | .loraSf9 => [.copy (cstr ",\"datr\":\"SF9")]
  | .loraSf10 => [.copy (cstr ",\"datr\":\"SF10")]
  | .loraSf11 => [.copy (cstr ",\"datr\":\"SF11")]
  | .loraSf12 => [.copy (cstr ",\"datr\":\"SF12")]
  | .bps _ => [.copy (cstr ",\"datr\":\"SF?"), .exits]

/-- The second half of `"datr"`, which gives the bandwidth. -/
def bandwidthPieces : Bandwidth → List Piece
  | .bw125kHz => [.copy (cstr "BW125\"")]
  | .bw250kHz => [.copy (cstr "BW250\"")]
  | .bw500kHz => [.copy (cstr "BW500\"")]
  | .undefined => [.copy (cstr "BW?\""), .exits]

/-- `"codr"`. -/
def coderatePieces : Option Coderate → List Piece
  | some .lora4_5 => [.copy (cstr ",\"codr\":\"4/5\"")]
  | some .lora4_6 => [.copy (cstr ",\"codr\":\"4/6\"")]
  | some .lora4_7 => [.copy (cstr ",\"codr\":\"4/7\"")]
  | some .lora4_8 => [.copy (cstr ",\"codr\":\"4/8\"")]
  | some .undefined => [.copy (cstr ",\"codr\":\"OFF\"")]
  | none => [.copy (cstr ",\"codr\":\"?\""), .exits]

/-- The member `"modu"` and the members that depend on the modulation. -/
def modulationPieces (p : LgwPktRx) : List Piece :=
  match p.modulation with
  | .lora =>
    [.copy (cstr ",\"modu\":\"LORA\"")] ++ dataratePieces p.datarate ++
      bandwidthPieces p.bandwidth ++ coderatePieces p.coderate ++
      [.print (cstr ",\"lsnr\":" ++ formatFixed 1 p.snr)]
  | .fsk =>
    [.copy (cstr ",\"modu\":\"FSK\""),
      .print (cstr ",\"datr\":" ++ formatUnsigned p.datarate.value)]
  | .undefined => [.exits]

/-- The fields of a packet, and the brace at its end. -/
def rxpkPieces (env : UpEnv) (ref : Option Tref) (p : LgwPktRx) : List Piece :=
  [.print (cstr "\"tmst\":" ++ formatUnsigned p.countUs)] ++ gpsPieces env ref p ++
    [.print (cstr ",\"chan\":" ++ formatUnsigned p.ifChain ++ cstr ",\"rfch\":" ++
      formatUnsigned p.rfChain ++ cstr ",\"freq\":" ++ formatDouble 6 p.freqMhz)] ++
    statPieces p.status ++ modulationPieces p ++
    [.print (cstr ",\"rssi\":" ++ formatFixed 0 p.rssi ++ cstr ",\"size\":" ++
      formatUnsigned p.size),
    .copy (cstr ",\"data\":\""), .base64 p.data, .copy (cstr "\""), .copy (cstr "\x7d")]

/-! ## The datagram -/

/-- The packets of a status are forwarded. -/
def UpGateway.forwards (g : UpGateway) : RxStatus → Bool
  | .crcOk => g.fwdValidPkt
  | .crcBad => g.fwdErrorPkt
  | .noCrc => g.fwdNocrcPkt
  | .undefined => false

/-- The loop over the packets, of which `pktInDgram` are in the datagram already. -/
def loopPieces (env : UpEnv) (g : UpGateway) (ref : Option Tref) :
    ℕ → List LgwPktRx → List Piece
  | _, [] => []
  | pktInDgram, p :: rxpkt =>
    if g.forwards p.status then
      .copy (if pktInDgram = 0 then cstr "\x7b" else cstr ",\x7b") ::
        (rxpkPieces env ref p ++ loopPieces env g ref (pktInDgram + 1) rxpkt)
    else loopPieces env g ref pktInDgram rxpkt

/-- The value of `pkt_in_dgram` after the loop: the number of packets that pass the filter. -/
def UpGateway.pktInDgram (g : UpGateway) (rxpkt : List LgwPktRx) : ℕ :=
  (rxpkt.filter fun p => g.forwards p.status).length

/-- The end of the array.  Without packets the text goes back to after the first brace. -/
def arrayEndPieces (pktInDgram : ℕ) (sendReport : Bool) : List Piece :=
  if pktInDgram = 0 then [.rewind 8]
  else .copy (cstr "]") :: if sendReport then [.copy (cstr ",")] else []

/-- What the thread adds after the loop: the end of the array, the report, and the closing brace. -/
def closingPieces (pktInDgram : ℕ) (report : Option CString) : List Piece :=
  arrayEndPieces pktInDgram report.isSome ++
    (report.elim [] fun statusReport => [.print statusReport]) ++ [.copy (cstr "\x7d")]

/-- What a pass of `thread_up` leaves behind. -/
structure UpResult where
  buff : UpBuff
  /-- The datagrams that the pass has sent, of which there is at most one. -/
  sent : List (List U8)
  /-- Whether the pass has ended the thread. -/
  ended : Bool

/-- The header of the datagram is in the buffer, and the random token goes into it. -/
def startDatagram (memory : ℕ → U8) (tokenH tokenL : U8) : UpBuff :=
  { (TextBuffer.mk memory [] 0).write 1 [tokenH, tokenL] with index := 12 }

/-- The terminator is written behind the text, and the datagram is sent without it. -/
def sendDatagram (b : UpBuff) : UpResult := ⟨b.write b.index [0], [b.contents], false⟩

/-- The time reference for the packets of a fetch, which is copied only if there is a packet and the
reference is valid. -/
def UpGateway.localRef (g : UpGateway) (rxpkt : List LgwPktRx) : Option Tref :=
  if 0 < rxpkt.length ∧ g.gpsEnabled ∧ g.gpsRefValid then some g.timeReferenceGps else none

/-- **One pass of `thread_up`**, from the fetch to the datagram. -/
def pushData (env : UpEnv) (g : UpGateway) (memory : ℕ → U8) (tokenH tokenL : U8)
    (rxpkt : List LgwPktRx) : UpResult :=
  if rxpkt.length = 0 ∧ g.report = none then ⟨⟨memory, [], 0⟩, [], false⟩
  else
    match addPieces (startDatagram memory tokenH tokenL)
        (.copy (cstr "\x7b\"rxpk\":[") :: loopPieces env g (g.localRef rxpkt) 0 rxpkt) with
    | .error b => ⟨b, [], true⟩
    | .ok b =>
      if g.pktInDgram rxpkt = 0 ∧ g.report = none then ⟨b, [], false⟩
      else
        match addPieces b (closingPieces (g.pktInDgram rxpkt) g.report) with
        | .error b => ⟨b, [], true⟩
        | .ok b => sendDatagram b

end PacketForwarder
