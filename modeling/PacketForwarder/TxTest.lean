import PacketForwarder.Downlink.Written
import PacketForwarder.Uplink.Text

/-!
# The test sender

`util_tx_test` runs the forwarder in a thread of its own and sends it one `PULL_RESP` after the
other, each with a payload of its own.

* `TxTest`, `TxTest.Accepted` — the options, and what the command line accepts;
* `TxTest.perPayload` — the payload of a packet;
* `TxTest.pullResp` — the datagram, composed piece by piece;
* `TxTest.acceptsAck` — the `TX_ACK` it waits for.
-/

namespace PacketForwarder

/-! ## Options -/

/-- What the command line sets.  A `float` is kept as the double it is computed with. -/
structure TxTest where
  /-- The target frequency `f_target`, in MHz. -/
  fTarget : Binary64
  /-- `mod` is `"FSK"`, else it is `"LORA"`. -/
  fsk : Bool
  sf : ℤ
  bw : ℤ
  fdevKhz : U8
  brKbps : Binary64
  pow : ℤ
  payloadSize : ℤ
  id : U8
  invert : Bool
  /-- `repeat`. -/
  repeats : ℤ

namespace TxTest

/-- The values the options have when the command line names none of them. -/
def default : TxTest where
  fTarget := .finite 866
  fsk := false
  sf := 10
  bw := 125
  fdevKhz := 25
  brKbps := .finite 50
  pow := 14
  payloadSize := 9
  id := 0
  invert := false
  repeats := 1

/-- No option is refused.  A comparison with a frequency that is no number fails. -/
structure Accepted (o : TxTest) : Prop where
  fTarget : o.fTarget.below 30 = false ∧ o.fTarget.above 3000 = false
  sf : 7 ≤ o.sf ∧ o.sf ≤ 12
  bw : o.bw = 125 ∨ o.bw = 250 ∨ o.bw = 500
  fdevKhz : 1 ≤ o.fdevKhz.toNat ∧ o.fdevKhz.toNat ≤ 250
  brKbps : o.brKbps.below (1 / 2) = false ∧ o.brKbps.above 250 = false
  pow : 0 ≤ o.pow ∧ o.pow ≤ 30
  payloadSize : 9 ≤ o.payloadSize ∧ o.payloadSize ≤ 255
  repeats : 1 ≤ o.repeats

theorem accepted_default : default.Accepted where
  fTarget := ⟨by decide +kernel, by decide +kernel⟩
  sf := by decide
  bw := .inl rfl
  fdevKhz := by decide
  brKbps := ⟨by decide +kernel, by decide +kernel⟩
  pow := by decide
  payloadSize := by decide
  repeats := by decide

/-! ## The payload -/

/-- The first eight bytes: an identifier, the number of the packet and `PER`. -/
def perHeader (o : TxTest) (i : BitVec 32) : List U8 :=
  [o.id, (i.sshiftRight 24).setWidth 8, (i.sshiftRight 16).setWidth 8,
    (i.sshiftRight 8).setWidth 8, i.setWidth 8, 80, 69, 82]

/-- `payload_bin`: the header, its sum, and bytes that count up. -/
def perPayload (o : TxTest) (i : BitVec 32) : List U8 :=
  o.perHeader i ++ [(o.perHeader i).sum] ++
    (List.range (o.payloadSize.toNat - 9)).map (BitVec.ofNat 8)

/-- `sizeof payload_b64`. -/
@[simp] abbrev payloadB64Size : ℕ := 341

/-- `payload_b64`, as far as it is copied. -/
def payloadB64 (o : TxTest) (i : BitVec 32) : Option CString :=
  match binToB64 (o.perPayload i) payloadB64Size with
  | .returns x written => if 0 ≤ x then some (written.take x.toNat) else none
  | .exits => none

/-! ## The request -/

/-- `snprintf`, if the text fits with its terminator. -/
def snprintf (size : ℕ) (text : CString) : Option CString :=
  if text.length < size then some text else none

/-- `(unsigned int)(br_kbps*1e3)`. -/
def bitrate (castOutside : (w : ℕ) → Binary64 → BitVec w) (o : TxTest) : U32 :=
  (o.brKbps.mul (.finite 1000)).toUnsigned castOutside 32

/-- `(unsigned int)(fdev_khz*1e3)`. -/
def fdev (castOutside : (w : ℕ) → Binary64 → BitVec w) (o : TxTest) : U32 :=
  ((Binary64.finite o.fdevKhz.toNat).mul (.finite 1000)).toUnsigned castOutside 32

/-- The member `"modu"` and the members that describe that modulation, as the tool prints them. -/
def modulationText (castOutside : (w : ℕ) → Binary64 → BitVec w) (o : TxTest) : CString :=
  if o.fsk then
    cstr ",\"modu\":\"FSK\",\"datr\":" ++ formatUnsigned (o.bitrate castOutside) ++
      cstr ",\"fdev\":" ++ formatUnsigned (o.fdev castOutside)
  else
    cstr ",\"modu\":\"LORA\",\"datr\":\"SF" ++ formatSigned o.sf ++ cstr "BW" ++
      formatSigned o.bw ++ cstr "\",\"codr\":\"4/6\""

/-- The JSON structure up to the payload. -/
def requestStart (castOutside : (w : ℕ) → Binary64 → BitVec w) (o : TxTest) : Option CString := do
  let freq ← snprintf 20 (cstr ",\"freq\":" ++ formatDouble 6 o.fTarget)
  let powe ← snprintf 12 (cstr ",\"powe\":" ++ formatSigned o.pow)
  let modulation ← snprintf 50 (o.modulationText castOutside)
  let size ← snprintf 12 (cstr ",\"size\":" ++ formatSigned o.payloadSize)
  return cstr "\x7b\"txpk\":\x7b\"imme\":true" ++ freq ++ cstr ",\"rfch\":0" ++ powe ++
    modulation ++ (if o.invert then cstr ",\"ipol\":true" else cstr ",\"ipol\":false") ++
    (if o.fsk then [] else cstr ",\"prea\":8") ++ size ++ cstr ",\"data\":\""

/-- The datagram with the packet `i`; without it, the thread gives up. -/
def pullResp (castOutside : (w : ℕ) → Binary64 → BitVec w) (o : TxTest) (tokenH tokenL : U8)
    (i : BitVec 32) : Option (List U8) := do
  let start ← o.requestStart castOutside
  let payload ← o.payloadB64 i
  return [protocolVersion, tokenH, tokenL, pktPullResp] ++ start ++ payload ++
    cstr "\"\x7d\x7d"

/-- `send_to_buflen`, the size of `databuf`. -/
@[simp] abbrev sendToBuflen : ℕ := 999

/-- The acknowledgement of the request with the given token. -/
def acceptsAck (tokenH tokenL : U8) (databuf2 : List U8) : Bool :=
  12 ≤ databuf2.length ∧ byteAt databuf2 0 = protocolVersion ∧ byteAt databuf2 3 = pktTxAck ∧
    byteAt databuf2 1 = tokenH ∧ byteAt databuf2 2 = tokenL

end TxTest

end PacketForwarder
