import PacketForwarder.Base64.Bounds
import PacketForwarder.Comms
import PacketForwarder.Downlink.Ack

/-!
# Array indices of a downlink

Which elements of which arrays `thread_down` touches while it handles a datagram.

* `receive` — what of a datagram arrives in `buff_down`;
* `parseTxLut` — the loop of the configuration that fills the TX gain table;
* `onDatagramAccesses` — every array access, in order, alongside `onDatagram`;
* `ReadFrom` — which field of a packet comes from which field of the JSON;
* `indices_in_range_iff` — for any bytes, the only index that the server can take out
  of range is the RF chain, which is checked nowhere.
-/

namespace PacketForwarder

variable {env : DownEnv} {g : Gateway}

/-! ## Arrays -/

/-- The arrays that a downlink is written to and read from. -/
inductive DownArray
  | buffDown
  | txFreqMin
  | txFreqMax
  | txlut
  | payload
  | buffAck
  deriving DecidableEq

/-- The number of elements of each array. -/
def DownArray.size : DownArray → ℕ
  | buffDown => rxBuffSize
  | txFreqMin | txFreqMax => lgwRfChainNb
  | txlut => txGainLutSizeMax
  | payload => payloadMax
  | buffAck => 64

/-- An access to one element of an array, for reading or writing. -/
structure DownAccess where
  array : DownArray
  index : ℕ
  deriving DecidableEq

/-- An access is in range where the element exists. -/
def DownAccess.InRange (a : DownAccess) : Prop := a.index < a.array.size

instance (a : DownAccess) : Decidable a.InRange := inferInstanceAs (Decidable (_ < _))

/-- Accesses to the first `k` elements of an array. -/
def firstElements (array : DownArray) (k : ℕ) : List DownAccess :=
  (List.range k).map fun i => ⟨array, i⟩

theorem firstElements_inRange {array : DownArray} {k : ℕ} (h : k ≤ array.size) :
    ∀ a ∈ firstElements array k, a.InRange := by
  intro a ha
  obtain ⟨i, hi, rfl⟩ := List.mem_map.mp ha
  exact lt_of_lt_of_le (List.mem_range.mp hi) h

/-! ## What comes in -/

/-- A datagram in `buff_down`: cut by the queue of the link, and by `mem_recv`. -/
def receive (datagram : List U8) : List U8 :=
  (datagram.take Direction.toFwd.config.sendBuflen).take (rxBuffSize - 1)

theorem length_receive_lt (datagram : List U8) : (receive datagram).length < rxBuffSize := by
  have hlen := List.length_take_le (rxBuffSize - 1)
    (datagram.take Direction.toFwd.config.sendBuflen)
  unfold receive
  simp only [rxBuffSize] at hlen ⊢
  omega

/-- The TX gain table as `parse_SX1301_configuration` fills it: `conf i` is the object
`tx_lut_i`. -/
def parseTxLut (conf : ℕ → Option LgwTxGain) : LgwTxGainLut :=
  (List.range txGainLutSizeMax).foldl (fun txlut i =>
    match conf i with
    | some gain => ⟨txlut.lut.set i gain, txlut.size + 1⟩
    | none => txlut) ⟨.replicate txGainLutSizeMax ⟨0⟩, 0⟩

/-- At most one element is counted for each pass of the loop. -/
theorem size_parseTxLut_le (conf : ℕ → Option LgwTxGain) :
    (parseTxLut conf).size.toNat ≤ txGainLutSizeMax := by
  have hloop : ∀ (l : List ℕ) (txlut : LgwTxGainLut),
      (l.foldl (fun txlut i =>
        match conf i with
        | some gain => ⟨txlut.lut.set i gain, txlut.size + 1⟩
        | none => txlut) txlut).size.toNat ≤ txlut.size.toNat + l.length := by
    intro l
    induction l with
    | nil => exact fun txlut => le_rfl
    | cons i l ih =>
      intro txlut
      rw [List.foldl_cons, List.length_cons]
      refine (ih _).trans ?_
      split
      · have hsucc : (txlut.size + 1).toNat ≤ txlut.size.toNat + 1 := by
          rw [BitVec.toNat_add]
          exact Nat.mod_le _ _
        dsimp only
        omega
      · omega
  have hrange := hloop (List.range txGainLutSizeMax) ⟨.replicate txGainLutSizeMax ⟨0⟩, 0⟩
  rw [List.length_range] at hrange
  exact hrange.trans (by decide)

/-! ## Accesses -/

/-- The `txpk` object of a datagram. -/
def txpkOf (env : DownEnv) (buff : List U8) : Option JsonObject :=
  (env.jsonParse ((buff.drop 4).takeWhile (· ≠ 0))).bind fun root =>
    (jsonValueGetObject root).bind fun object => jsonObjectGetObject object "txpk"

/-- The bytes of the payload that `b64_to_bin` writes, if it is called.  Nothing else ends the
thread, and what it has written before a character that does is kept. -/
def payloadAccesses (env : DownEnv) (g : Gateway) (txpk : JsonObject) : List DownAccess :=
  match requestedPacket env g txpk, jsonObjectGetString txpk "data" with
  | .ok _, some data | .error .exits, some data =>
    (b64ToBinRun data data.length payloadMax).stores.map fun p => ⟨.payload, p.1⟩
  | _, _ => []

/-- The text of the JSON is read up to its terminator. -/
def textAccesses (buff : List U8) : List DownAccess :=
  (List.range (((buff.drop 4).takeWhile (· ≠ 0)).length + 1)).map fun i => ⟨.buffDown, 4 + i⟩

/-- The range of the RF chain is read, and if the frequency is in it the TX gain table, up to
the power asked for. -/
def checkAccesses (env : DownEnv) (g : Gateway) (txpkt : LgwPktTx) : List DownAccess :=
  [⟨.txFreqMin, txpkt.rfChain.toNat⟩, ⟨.txFreqMax, txpkt.rfChain.toNat⟩] ++
    if txError env g txpkt = .txFreq then []
    else
      firstElements .txlut (min g.txlut.size.toNat
        ((g.txlut.lut.cells.findIdx fun gain => gain.rfPower = txpkt.rfPower) + 1))

/-- `buff_ack` is cleared, then filled with a `TX_ACK` and a terminator. -/
def ackAccesses (ack : List U8) : List DownAccess :=
  firstElements .buffAck 64 ++ firstElements .buffAck (ack.length + 1)

/-- What `thread_down` touches while it handles a `PULL_RESP`. -/
def onPullRespAccesses (env : DownEnv) (g : Gateway) (time : Timeval) (buff : List U8) :
    List DownAccess :=
  [⟨.buffDown, buff.length⟩] ++ firstElements .buffDown 4 ++ textAccesses buff ++
    (txpkOf env buff).elim [] (payloadAccesses env g) ++
    (match requested env g buff with
      | .ok (txpkt, _) => checkAccesses env g txpkt
      | .error _ => []) ++
    (onPullResp env g time buff).sent.flatMap ackAccesses

/-- **What a datagram touches**, the four bytes of its header first. -/
def onDatagramAccesses (env : DownEnv) (g : Gateway) (time : Timeval) (buff : List U8) :
    List DownAccess :=
  firstElements .buffDown 4 ++
    if IsPacket pktPullResp buff then onPullRespAccesses env g time buff else []

/-! ## What is in range in any case -/

theorem payloadAccesses_inRange (env : DownEnv) (g : Gateway) (txpk : JsonObject) :
    ∀ a ∈ payloadAccesses env g txpk, a.InRange := by
  have hstores : ∀ data : CString, ∀ p ∈ (b64ToBinRun data data.length payloadMax).stores,
      (⟨.payload, p.1⟩ : DownAccess).InRange :=
    fun data => (within_b64ToBinRun data data.length payloadMax).stores
  unfold payloadAccesses
  split
  · exact List.forall_mem_map.mpr (hstores _)
  · exact List.forall_mem_map.mpr (hstores _)
  · exact fun a ha => absurd ha List.not_mem_nil

theorem textAccesses_inRange {buff : List U8} (h : 4 ≤ buff.length)
    (hlen : buff.length < rxBuffSize) : ∀ a ∈ textAccesses buff, a.InRange := by
  intro a ha
  obtain ⟨i, hi, rfl⟩ := List.mem_map.mp ha
  rw [List.mem_range] at hi
  have htext : ((buff.drop 4).takeWhile (· ≠ 0)).length ≤ (buff.drop 4).length :=
    (List.takeWhile_prefix _).length_le
  rw [List.length_drop] at htext
  show 4 + i < rxBuffSize
  omega

/-- Every `TX_ACK` fits, with its terminator. -/
theorem ackAccesses_inRange {buff : List U8} {time : Timeval} {ack : List U8}
    (h : ack ∈ (onPullResp env g time buff).sent) : ∀ a ∈ ackAccesses ack, a.InRange := by
  have hlen : ack.length < 64 := by
    unfold onPullResp at h
    split at h
    · cases h
    · rw [List.mem_singleton.mp h]
      exact length_txAck_lt _ _ _ _
    · cases h
    · unfold onRequest at h
      simp only at h
      split at h
      · rw [List.mem_singleton.mp h]
        exact length_txAck_lt _ _ _ _
      · rw [List.mem_singleton.mp h]
        exact length_txAck_lt _ _ _ _
  refine List.forall_mem_append.mpr ⟨firstElements_inRange le_rfl, firstElements_inRange ?_⟩
  show ack.length + 1 ≤ 64
  omega

/-- The check of a packet is in range exactly if its RF chain is. -/
theorem checkAccesses_inRange_iff (h : g.txlut.size.toNat ≤ txGainLutSizeMax)
    (txpkt : LgwPktTx) :
    (∀ a ∈ checkAccesses env g txpkt, a.InRange) ↔ txpkt.rfChain.toNat < lgwRfChainNb := by
  constructor
  · intro hall
    exact hall ⟨.txFreqMin, txpkt.rfChain.toNat⟩ (List.mem_append_left _ List.mem_cons_self)
  · intro hchain
    refine List.forall_mem_append.mpr ⟨?_, ?_⟩
    · exact List.forall_mem_cons.mpr ⟨hchain, List.forall_mem_singleton.mpr hchain⟩
    · split
      · exact fun a ha => absurd ha List.not_mem_nil
      · exact firstElements_inRange ((Nat.min_le_left _ _).trans h)

/-! ## Where the fields come from -/

section

variable {txpk : JsonObject} {txpkt : LgwPktTx} {t : JitPktType}

theorem mandatory_eq_ok {name : String} {val : JsonValue} (h : mandatory txpk name = .ok val) :
    jsonObjectGetValue txpk name = some val := by
  unfold mandatory at h
  cases hval : jsonObjectGetValue txpk name with
  | none =>
    rw [hval] at h
    cases h
  | some val' =>
    rw [hval] at h
    cases h
    rfl

theorem mandatoryString_eq_ok {name : String} {s : CString}
    (h : mandatoryString txpk name = .ok s) : jsonObjectGetString txpk name = some s := by
  unfold mandatoryString at h
  cases hval : jsonObjectGetString txpk name with
  | none =>
    rw [hval] at h
    cases h
  | some s' =>
    rw [hval] at h
    cases h
    rfl

/-- What the modulation of a packet decides about where its fields come from. -/
inductive ReadModulation (env : DownEnv) (txpk : JsonObject) (txpkt : LgwPktTx) : Prop
  | lora (modu : jsonObjectGetString txpk "modu" = some (cstr "LORA"))
      (modulation : txpkt.modulation = .lora) (preamble : txpkt.preamble = loraPreamble env txpk)
  | fsk (fdev : JsonValue) (modu : jsonObjectGetString txpk "modu" = some (cstr "FSK"))
      (modulation : txpkt.modulation = .fsk) (preamble : txpkt.preamble = fskPreamble env txpk)
      (value : jsonObjectGetValue txpk "fdev" = some fdev)
      (fDev : txpkt.fDev = env.castU 8 ((jsonValueGetNumber fdev).div 1000))

/-- **Where the fields of a packet come from.** -/
structure ReadFrom (env : DownEnv) (g : Gateway) (txpk : JsonObject) (txpkt : LgwPktTx) :
    Prop where
  modulation : ReadModulation env txpk txpkt
  rfChain : ∃ rfch, jsonObjectGetValue txpk "rfch" = some rfch ∧
    txpkt.rfChain = env.castU 8 (jsonValueGetNumber rfch)
  rfPower : txpkt.rfPower = requestedPower env g txpk
  size : ∃ size, jsonObjectGetValue txpk "size" = some size ∧
    txpkt.size = env.castU 16 (jsonValueGetNumber size)
  payload : ∃ data, jsonObjectGetString txpk "data" = some data ∧
    requestedPayload data = .ok txpkt.payload

/-- The modulation leaves the RF chain and the power as they are. -/
theorem requestedModulation_spec {txpkt' : LgwPktTx}
    (h : requestedModulation env txpk txpkt = .ok txpkt') :
    ReadModulation env txpk txpkt' ∧ txpkt'.rfChain = txpkt.rfChain ∧
      txpkt'.rfPower = txpkt.rfPower := by
  obtain ⟨modu, hmodu, h⟩ := exists_of_bind_eq_ok h
  have hstring := mandatoryString_eq_ok hmodu
  split_ifs at h with hlora hfsk
  · subst hlora
    obtain ⟨datr, -, h⟩ := exists_of_bind_eq_ok h
    obtain ⟨⟨x0, x1⟩, -, h⟩ := exists_of_bind_eq_ok h
    obtain ⟨datarate, -, h⟩ := exists_of_bind_eq_ok h
    obtain ⟨bandwidth, -, h⟩ := exists_of_bind_eq_ok h
    obtain ⟨codr, -, h⟩ := exists_of_bind_eq_ok h
    obtain ⟨coderate, -, h⟩ := exists_of_bind_eq_ok h
    cases h
    exact ⟨.lora hstring rfl rfl, rfl, rfl⟩
  · subst hfsk
    obtain ⟨datr, -, h⟩ := exists_of_bind_eq_ok h
    obtain ⟨fdev, hfdev, h⟩ := exists_of_bind_eq_ok h
    cases h
    exact ⟨.fsk fdev hstring rfl rfl (mandatory_eq_ok hfdev) rfl, rfl, rfl⟩

theorem readFrom_of_requestedPacket (h : requestedPacket env g txpk = .ok (txpkt, t)) :
    ReadFrom env g txpk txpkt := by
  obtain ⟨⟨sentImmediate, countUs, t'⟩, -, h⟩ := exists_of_bind_eq_ok h
  obtain ⟨freq, -, h⟩ := exists_of_bind_eq_ok h
  obtain ⟨rfch, hrfch, h⟩ := exists_of_bind_eq_ok h
  obtain ⟨txpkt', hmodulation, h⟩ := exists_of_bind_eq_ok h
  obtain ⟨size, hsize, h⟩ := exists_of_bind_eq_ok h
  obtain ⟨data, hdata, h⟩ := exists_of_bind_eq_ok h
  obtain ⟨payload, hpayload, h⟩ := exists_of_bind_eq_ok h
  cases h
  obtain ⟨hmodu, hchain, hpower⟩ := requestedModulation_spec hmodulation
  refine ⟨?_, ⟨rfch, mandatory_eq_ok hrfch, hchain⟩, hpower,
    ⟨size, mandatory_eq_ok hsize, rfl⟩, ⟨data, mandatoryString_eq_ok hdata, hpayload⟩⟩
  cases hmodu with
  | lora modu modulation preamble => exact .lora modu modulation preamble
  | fsk fdev modu modulation preamble value fDev =>
    exact .fsk fdev modu modulation preamble value fDev

end

/-! ## The RF chain -/

/-- A packet is requested exactly if there is a `txpk` object it can be read from. -/
theorem requested_eq_ok_iff {buff : List U8} {r : LgwPktTx × JitPktType} :
    requested env g buff = .ok r ↔
      ∃ txpk, txpkOf env buff = some txpk ∧ requestedPacket env g txpk = .ok r := by
  unfold requested txpkOf
  cases env.jsonParse ((buff.drop 4).takeWhile (· ≠ 0)) with
  | none => simp
  | some root =>
    simp only [Option.bind_some]
    split
    · rename_i hnone
      simp [hnone]
    · rename_i txpk htxpk
      simp [htxpk]

/-- The number in `rfch` is an RF chain, if the packet of the datagram can be read. -/
def RfChainOk (env : DownEnv) (g : Gateway) (buff : List U8) : Prop :=
  ∀ txpk rfch, txpkOf env buff = some txpk → jsonObjectGetValue txpk "rfch" = some rfch →
    (∃ r, requestedPacket env g txpk = .ok r) →
    (env.castU 8 (jsonValueGetNumber rfch)).toNat < lgwRfChainNb

theorem rfChainOk_iff {buff : List U8} :
    RfChainOk env g buff ↔ ∀ txpkt t, requested env g buff = .ok (txpkt, t) →
      txpkt.rfChain.toNat < lgwRfChainNb := by
  constructor
  · intro hok txpkt t hreq
    obtain ⟨txpk, htxpk, hpacket⟩ := requested_eq_ok_iff.mp hreq
    obtain ⟨rfch, hrfch, hchain⟩ := (readFrom_of_requestedPacket hpacket).rfChain
    rw [hchain]
    exact hok txpk rfch htxpk hrfch ⟨_, hpacket⟩
  · rintro hall txpk rfch htxpk hrfch ⟨⟨txpkt, t⟩, hpacket⟩
    obtain ⟨rfch', hrfch', hchain⟩ := (readFrom_of_requestedPacket hpacket).rfChain
    rw [hrfch] at hrfch'
    cases hrfch'
    rw [← hchain]
    exact hall txpkt t (requested_eq_ok_iff.mpr ⟨txpk, htxpk, hpacket⟩)

/-- A `PULL_RESP` is handled in range exactly if its RF chain is. -/
theorem onPullRespAccesses_inRange_iff (h : g.txlut.size.toNat ≤ txGainLutSizeMax)
    (time : Timeval) {buff : List U8} (hmin : 4 ≤ buff.length) (hlen : buff.length < rxBuffSize) :
    (∀ a ∈ onPullRespAccesses env g time buff, a.InRange) ↔ RfChainOk env g buff := by
  rw [rfChainOk_iff]
  unfold onPullRespAccesses
  constructor
  · intro hall txpkt t hreq
    have hcheck : ∀ a ∈ checkAccesses env g txpkt, a.InRange := by
      intro a ha
      refine hall a (List.mem_append_left _ (List.mem_append_right _ ?_))
      rw [hreq]
      exact ha
    exact (checkAccesses_inRange_iff h txpkt).mp hcheck
  · intro hchain
    simp only [List.forall_mem_append]
    refine ⟨⟨⟨⟨⟨?_, ?_⟩, ?_⟩, ?_⟩, ?_⟩, ?_⟩
    · exact List.forall_mem_singleton.mpr hlen
    · exact firstElements_inRange (hmin.trans hlen.le)
    · exact textAccesses_inRange hmin hlen
    · cases txpkOf env buff with
      | none => exact fun a ha => absurd ha List.not_mem_nil
      | some txpk => exact payloadAccesses_inRange env g txpk
    · cases hreq : requested env g buff with
      | error e => exact fun a ha => absurd ha List.not_mem_nil
      | ok r => exact (checkAccesses_inRange_iff h r.1).mpr (hchain r.1 r.2 hreq)
    · intro a ha
      obtain ⟨ack, hack, hmem⟩ := List.mem_flatMap.mp ha
      exact ackAccesses_inRange hack a hmem

/-- **Only the RF chain goes out of range.**  For any bytes of any length, and a TX gain
table that comes from the configuration, every index the processing uses is in range
exactly if the datagram is no `PULL_RESP` or the number in `rfch` is an RF chain. -/
theorem indices_in_range_iff (env : DownEnv) (g : Gateway) (conf : ℕ → Option LgwTxGain)
    (hlut : g.txlut = parseTxLut conf) (time : Timeval) (datagram : List U8) :
    (∀ a ∈ onDatagramAccesses env g time (receive datagram), a.InRange) ↔
      (IsPacket pktPullResp (receive datagram) → RfChainOk env g (receive datagram)) := by
  have hsize : g.txlut.size.toNat ≤ txGainLutSizeMax := by
    rw [hlut]
    exact size_parseTxLut_le conf
  have hheader : ∀ a ∈ firstElements .buffDown 4, a.InRange := firstElements_inRange (by decide)
  unfold onDatagramAccesses
  split
  · rename_i hpacket
    rw [List.forall_mem_append, onPullRespAccesses_inRange_iff hsize time hpacket.1
      (length_receive_lt datagram)]
    exact ⟨fun h _ => h.2, fun h => ⟨hheader, h hpacket⟩⟩
  · rename_i hpacket
    rw [List.append_nil]
    exact ⟨fun _ h => absurd h hpacket, fun _ => hheader⟩

/-- A class C packet is asked for, on the RF chain with this numeral. -/
def chainRequest (rfch : String) : List U8 :=
  pullRespWith ("\"imme\":true,\"freq\":868.5,\"rfch\":" ++ rfch ++ ",\"modu\":\"FSK\"," ++
    "\"datr\":50000,\"fdev\":25000,\"size\":2,\"data\":\"TWE=\"")

/-- The reference gateway, with a gain table of one configured element. -/
def Gateway.configured : Gateway :=
  { Gateway.reference with txlut := parseTxLut fun i => if i = 0 then some ⟨14⟩ else none }

/-- Both sides of the equivalence hold for a request on RF chain 1. -/
theorem indices_in_range_iff_chain_one :
    (∀ a ∈ onDatagramAccesses .reference .configured (instant 0) (receive (chainRequest "1")),
        a.InRange) ↔
      (IsPacket pktPullResp (receive (chainRequest "1")) →
        RfChainOk .reference .configured (receive (chainRequest "1"))) :=
  indices_in_range_iff .reference .configured
    (fun i => if i = 0 then some ⟨14⟩ else none) rfl (instant 0) (chainRequest "1")

/-- With `"rfch": 5` the sixth element of `tx_freq_min` is read, of two. -/
theorem not_indices_in_range :
    ∃ a ∈ onDatagramAccesses .reference .configured (instant 0) (receive (chainRequest "5")),
      a.array = .txFreqMin ∧ a.index = 5 ∧ ¬a.InRange := by
  refine ⟨⟨.txFreqMin, 5⟩, ?_, rfl, rfl, by decide⟩
  decide +kernel

end PacketForwarder
