import PacketForwarder.Beacon
import PacketForwarder.Downlink
import PacketForwarder.JitQueue.Conservation
import PacketForwarder.Parson

/-!
# What a `TX_ACK` tells the server

The server learns from the `TX_ACK` whether the packet it asked for will be sent.
For any `PULL_RESP` and any state of the gateway:

* `onPullResp_cases` — what handling it comes to: it is aborted, or answered with an
  error, or its packet is in the queue;
* `onDatagram_steps` — to the queue, a datagram is one pass of `thread_down`;
* `tx_ack_tells_insertion` — at most one `TX_ACK` is sent, with the token of the
  datagram; it carries no error exactly if the packet was inserted, and the queue is
  untouched otherwise.
-/

namespace PacketForwarder

variable {env : DownEnv} {g : Gateway}

/-! ## The `TX_ACK` datagram -/

/-- The JSON part of a `TX_ACK`, after the header of 12 bytes. -/
def ackJson (ack : List U8) : List U8 := ack.drop 12

theorem ackJson_txAck (g : Gateway) (tokenH tokenL : U8) (error : JitError) :
    ackJson (txAck g tokenH tokenL error) = txAckJson error := by
  have hlen : ([protocolVersion, tokenH, tokenL, pktTxAck] ++ g.netMac.cells).length = 12 := by
    rw [List.length_append, g.netMac.length_cells]
    rfl
  unfold ackJson txAck
  rw [← hlen]
  exact List.drop_left

/-- There is JSON exactly if there is an error. -/
theorem txAckJson_eq_nil_iff {error : JitError} : txAckJson error = [] ↔ error = .ok := by
  unfold txAckJson
  split
  · rename_i hok
    exact ⟨fun _ => hok, fun _ => rfl⟩
  · rename_i hok
    refine ⟨fun h => ?_, fun h => absurd h hok⟩
    have hnil := (List.append_eq_nil_iff.mp h).2
    exact absurd hnil (by decide)

/-- The datagram always fits the 64 bytes of `buff_ack`, with its terminator. -/
theorem length_txAck_lt (g : Gateway) (tokenH tokenL : U8) (error : JitError) :
    (txAck g tokenH tokenL error).length < 64 := by
  have hjson : (txAckJson error).length ≤ 41 := by cases error <;> decide
  unfold txAck
  rw [List.length_append, List.length_append, g.netMac.length_cells]
  show 4 + 8 + _ < 64
  omega

/-! ## What handling comes to -/

/-- The queue has got one node more, which holds the given packet. -/
def InsertedAs (q q' : JitQueue) (txpkt : LgwPktTx) (downlinkType : JitPktType) : Prop :=
  ∃ n : JitNode, n.pktType = downlinkType ∧ GivenAs txpkt n.pkt downlinkType ∧
    q'.live.Perm (n :: q.live)

/-- The packet is within the range of its RF chain, and its power in the TX gain table. -/
structure Permitted (g : Gateway) (txpkt : LgwPktTx) : Prop where
  low : ∀ low ∈ g.txFreqMin.cells[txpkt.rfChain.toNat]?, low ≤ txpkt.freqHz
  high : ∀ high ∈ g.txFreqMax.cells[txpkt.rfChain.toNat]?, txpkt.freqHz ≤ high
  power : ∃ gain ∈ g.txlut.lut.live g.txlut.size.toNat, gain.rfPower = txpkt.rfPower

theorem chainFreq_of_mem (env : DownEnv) {freqs : Slots U32 lgwRfChainNb} {rfChain : U8}
    {freq : U32} (h : freq ∈ freqs.cells[rfChain.toNat]?) : chainFreq env freqs rfChain = freq := by
  unfold chainFreq Slots.getD
  rw [List.getD_eq_getElem?_getD, Option.mem_def.mp h]
  rfl

/-- What passes the checks is permitted. -/
theorem permitted_of_txError {txpkt : LgwPktTx} (h : txError env g txpkt = .ok) :
    Permitted g txpkt := by
  unfold txError at h
  split_ifs at h with hfreq hpower
  rw [not_or, BitVec.not_lt, BitVec.not_lt] at hfreq
  refine ⟨?_, ?_, ?_⟩
  · intro low hlow
    rw [← chainFreq_of_mem env hlow]
    exact hfreq.1
  · intro high hhigh
    rw [← chainFreq_of_mem env hhigh]
    exact hfreq.2
  · have hany : powerSupported g.txlut txpkt.rfPower = true := by simpa using hpower
    obtain ⟨gain, hgain, heq⟩ := List.any_eq_true.mp hany
    exact ⟨gain, hgain, by simpa using heq⟩

/-- A queue in which a node was inserted is not the queue it was before. -/
theorem InsertedAs.ne {q q' : JitQueue} {txpkt : LgwPktTx} {t : JitPktType}
    (h : InsertedAs q q' txpkt t) : q' ≠ q := by
  rintro rfl
  obtain ⟨n, -, -, hperm⟩ := h
  have hlen := hperm.length_eq
  rw [List.length_cons] at hlen
  omega

/-- **What a request comes to.**  Its packet is permitted and in the queue and there is no
error, or there is an error and the queue is as it was. -/
theorem onRequest_cases (env : DownEnv) (hq : g.jitQueue.Wf) (time : Timeval) (buff : List U8)
    (txpkt : LgwPktTx) (t : JitPktType) :
    ∃ g' error, onRequest env g time buff txpkt t =
        sendTxAck g' (byteAt buff 1) (byteAt buff 2) error ∧
      (error = .ok ∧ Permitted g txpkt ∧ InsertedAs g.jitQueue g'.jitQueue txpkt t ∨
        error ≠ .ok ∧ g'.jitQueue = g.jitQueue) := by
  unfold onRequest
  simp only
  split
  · rename_i hok
    refine ⟨_, _, rfl, ?_⟩
    show (jitEnqueue env.jit g.jitQueue time (some txpkt) t).error = .ok ∧ _ ∨
      (jitEnqueue env.jit g.jitQueue time (some txpkt) t).error ≠ .ok ∧ _
    rcases jitEnqueue_cases env.jit g.jitQueue time (some txpkt) t with
      ⟨p, hp, hf, herr, -, hins⟩ | ⟨herr, hsame⟩
    · cases hp
      have hlive := live_insertNode_perm env.jit (hq.lt_of_not_full hf)
        (nodeFor env.jit g.jitQueue time.lowUs txpkt t)
      rw [← hins] at hlive
      exact .inl ⟨herr, permitted_of_txError hok,
        _, rfl, givenAs_scheduled time.lowUs txpkt t, hlive⟩
    · exact .inr ⟨herr, hsame⟩
  · rename_i herr
    exact ⟨_, _, rfl, .inr ⟨herr, rfl⟩⟩

/-- **What a `PULL_RESP` comes to.**  Nothing is sent and the queue is as it was; or a
`TX_ACK` with an error is sent and the queue is as it was; or one without an error is
sent, and the packet asked for is permitted and in the queue. -/
theorem onPullResp_cases (env : DownEnv) (hq : g.jitQueue.Wf) (time : Timeval)
    (buff : List U8) :
    (onPullResp env g time buff).sent = [] ∧
        (onPullResp env g time buff).gateway.jitQueue = g.jitQueue ∨
      ∃ g' error, onPullResp env g time buff =
          sendTxAck g' (byteAt buff 1) (byteAt buff 2) error ∧
        (error ≠ .ok ∧ g'.jitQueue = g.jitQueue ∨
          error = .ok ∧ ∃ txpkt t, requested env g buff = .ok (txpkt, t) ∧
            Permitted g txpkt ∧ InsertedAs g.jitQueue g'.jitQueue txpkt t) := by
  unfold onPullResp
  split
  · exact .inl ⟨rfl, rfl⟩
  · exact .inr ⟨g, .gpsUnlocked, rfl, .inl ⟨by decide, rfl⟩⟩
  · exact .inl ⟨rfl, rfl⟩
  · rename_i txpkt t hreq
    obtain ⟨g', error, hack, h⟩ := onRequest_cases env hq time buff txpkt t
    refine .inr ⟨g', error, hack, ?_⟩
    rcases h with ⟨hok, hperm, hins⟩ | ⟨herr, hsame⟩
    · exact .inr ⟨hok, txpkt, t, hreq, hperm, hins⟩
    · exact .inl ⟨herr, hsame⟩

/-! ## Datagrams -/

/-- The packet asked for in a datagram has been inserted. -/
def Inserted (env : DownEnv) (g : Gateway) (buff : List U8) (q' : JitQueue) : Prop :=
  ∃ txpkt t, requested env g buff = .ok (txpkt, t) ∧ InsertedAs g.jitQueue q' txpkt t

theorem not_inserted_of_eq {buff : List U8} {q' : JitQueue} (h : q' = g.jitQueue) :
    ¬Inserted env g buff q' := by
  rintro ⟨txpkt, t, -, hins⟩
  exact hins.ne h

theorem onDatagram_pullResp {buff : List U8} (h : IsPacket pktPullResp buff) (env : DownEnv)
    (g : Gateway) (time : Timeval) : onDatagram env g time buff = onPullResp env g time buff := by
  have hack : ¬IsPacket pktPullAck buff := by
    rintro ⟨-, -, hid⟩
    rw [h.2.2] at hid
    exact absurd hid (by decide)
  unfold onDatagram
  rw [if_neg hack, if_pos h]

/-- A computation that succeeds does so in both its parts. -/
theorem exists_of_bind_eq_ok {ε α β : Type*} {x : Except ε α} {f : α → Except ε β} {b : β}
    (h : x.bind f = .ok b) : ∃ a, x = .ok a ∧ f a = .ok b := by
  cases x with
  | error e => cases h
  | ok a => exact ⟨a, rfl, h⟩

theorem requestedTime_type {txpk : JsonObject} {sentImmediate : Bool} {countUs : U32}
    {t : JitPktType} (h : requestedTime env g txpk = .ok (sentImmediate, countUs, t)) :
    t ≠ .beacon := by
  unfold requestedTime at h
  split at h
  · cases h
    decide
  · split at h
    · cases h
      decide
    · split at h
      · cases h
      · simp only at h
        split_ifs at h
        split at h
        · cases h
        · cases h
          decide

/-- A downlink is of class A, B or C. -/
theorem requested_type {buff : List U8} {txpkt : LgwPktTx} {t : JitPktType}
    (h : requested env g buff = .ok (txpkt, t)) : t ≠ .beacon := by
  unfold requested at h
  split at h
  · cases h
  · split at h
    · cases h
    · unfold requestedPacket at h
      obtain ⟨⟨sentImmediate, countUs, t'⟩, htime, h⟩ := exists_of_bind_eq_ok h
      obtain ⟨freq, -, h⟩ := exists_of_bind_eq_ok h
      obtain ⟨rfch, -, h⟩ := exists_of_bind_eq_ok h
      obtain ⟨txpkt', -, h⟩ := exists_of_bind_eq_ok h
      obtain ⟨size, -, h⟩ := exists_of_bind_eq_ok h
      obtain ⟨data, -, h⟩ := exists_of_bind_eq_ok h
      obtain ⟨payload, -, h⟩ := exists_of_bind_eq_ok h
      cases h
      exact requestedTime_type htime

/-- A request is offered to the queue, or skipped. -/
theorem onRequest_steps (env : DownEnv) {g : Gateway} (time : Timeval) (buff : List U8)
    {txpkt : LgwPktTx} {t : JitPktType} (ht : t ≠ .beacon) {jit : JitPc} :
    Runs.Reaches (System.Step env.jit) Runs.anyStep ⟨g.jitQueue, .downlink, jit⟩
      ⟨(onRequest env g time buff txpkt t).gateway.jitQueue, .start, jit⟩ := by
  unfold onRequest
  simp only
  split
  · show Runs.Reaches (System.Step env.jit) Runs.anyStep _
      (System.mk (jitEnqueue env.jit g.jitQueue time (some txpkt) t).queue .start jit)
    unfold jitEnqueue
    simp only
    split
    · rename_i hfull
      exact .next .start trivial (.downlinkFull rfl hfull)
    · rename_i hfull
      have htest : Runs.Reaches (System.Step env.jit) Runs.anyStep ⟨g.jitQueue, .downlink, jit⟩
          ⟨g.jitQueue, .downlinkTested, jit⟩ :=
        .next .start trivial (.downlinkTest rfl (by simpa using hfull))
      exact htest.next trivial (.downlinkInsert rfl ht)
  · exact .next .start trivial (.skipDownlink rfl)

/-- **A datagram is one pass of `thread_down`.**  To the queue and to `thread_jit`,
handling any datagram is a skipped downlink, or the two critical sections of one
`jit_enqueue`. -/
theorem onDatagram_steps (env : DownEnv) (g : Gateway) (time : Timeval) (buff : List U8)
    {s : System} (hd : s.down = .downlink) (hq : s.queue = g.jitQueue) :
    Runs.Reaches (System.Step env.jit) Runs.anyStep s
      ⟨(onDatagram env g time buff).gateway.jitQueue, .start, s.jit⟩ := by
  obtain ⟨q, down, jit⟩ := s
  cases hd
  cases hq
  have hskip : Runs.Reaches (System.Step env.jit) Runs.anyStep ⟨g.jitQueue, .downlink, jit⟩
      ⟨g.jitQueue, .start, jit⟩ := .next .start trivial (.skipDownlink rfl)
  unfold onDatagram
  split
  · unfold onPullAck
    split
    · exact hskip
    · exact hskip
  · split
    · unfold onPullResp
      split
      · exact hskip
      · exact hskip
      · exact hskip
      · rename_i txpkt t hreq
        exact onRequest_steps env time buff (requested_type hreq)
    · exact hskip

/-- **What a `TX_ACK` tells.**  Handling a `PULL_RESP` sends at most one `TX_ACK`, with the
token of the datagram.  It carries no error JSON exactly if the packet asked for was
inserted; if it carries one, or none is sent, the queue is as it was; and a packet that
is not permitted is never inserted. -/
theorem tx_ack_tells_insertion (env : DownEnv) (g : Gateway) (hq : g.jitQueue.Wf)
    (time : Timeval) (buff : List U8) (hb : IsPacket pktPullResp buff) :
    let r := onDatagram env g time buff
    r.sent.length ≤ 1 ∧
      (∀ ack ∈ r.sent, IsPacket pktTxAck ack ∧
        byteAt ack 1 = byteAt buff 1 ∧ byteAt ack 2 = byteAt buff 2 ∧
        (ackJson ack = [] ↔ Inserted env g buff r.gateway.jitQueue) ∧
        (ackJson ack ≠ [] → r.gateway.jitQueue = g.jitQueue)) ∧
      (r.sent = [] → r.gateway.jitQueue = g.jitQueue) ∧
      ∀ txpkt t, requested env g buff = .ok (txpkt, t) →
        InsertedAs g.jitQueue r.gateway.jitQueue txpkt t → Permitted g txpkt := by
  intro r
  have hr : r = onPullResp env g time buff := onDatagram_pullResp hb env g time
  -- Either nothing is answered and the queue stays, or one acknowledgement tells.
  rcases onPullResp_cases env hq time buff with ⟨hsent, hsame⟩ | ⟨g', error, hack, h⟩
  · rw [← hr] at hsent hsame
    refine ⟨by simp [hsent], by simp [hsent], fun _ => hsame, ?_⟩
    intro txpkt t _ hins
    exact absurd hsame hins.ne
  · rw [← hr] at hack
    have hsent : r.sent = [txAck g' (byteAt buff 1) (byteAt buff 2) error] := by
      rw [hack]
      rfl
    have hqueue : r.gateway.jitQueue = g'.jitQueue := by
      rw [hack]
      rfl
    rw [hsent, hqueue]
    refine ⟨le_rfl, ?_, (by intro h; cases h), ?_⟩
    · intro ack hmem
      rw [List.mem_singleton] at hmem
      subst hmem
      have hlen : 4 ≤ (txAck g' (byteAt buff 1) (byteAt buff 2) error).length := by
        simp [txAck]
      refine ⟨⟨hlen, rfl, rfl⟩, rfl, rfl, ?_, ?_⟩
      · rw [ackJson_txAck, txAckJson_eq_nil_iff]
        rcases h with ⟨herr, hsame⟩ | ⟨hok, txpkt, t, hreq, -, hins⟩
        · exact ⟨fun h => absurd h herr, fun h => absurd h (not_inserted_of_eq hsame)⟩
        · exact ⟨fun _ => ⟨txpkt, t, hreq, hins⟩, fun _ => hok⟩
      · rw [ackJson_txAck, ne_eq, txAckJson_eq_nil_iff]
        rcases h with ⟨-, hsame⟩ | ⟨hok, -⟩
        · exact fun _ => hsame
        · exact fun h => absurd hok h
    · intro txpkt t hreq hins
      rcases h with ⟨-, hsame⟩ | ⟨-, txpkt', t', hreq', hperm, -⟩
      · exact absurd hsame hins.ne
      · rw [hreq] at hreq'
        cases hreq'
        exact hperm

/-- An environment with the `parson` of the sources. -/
def DownEnv.reference : DownEnv where
  jit := .reference
  lgwGps2cnt := elapsedGps2cnt
  jsonParse := jsonParseStringWithComments
  castOutside _ _ := 0
  strayFreq := 0

/-- A gateway without GPS that may send between 863 and 870 MHz at 14 dBm. -/
def Gateway.reference : Gateway where
  netMac := .replicate 8 0
  gpsEnabled := false
  gpsRefValid := false
  timeReferenceGps := trefAt 0
  antennaGain := 0
  txlut := ⟨.replicate 16 ⟨14⟩, 1⟩
  txFreqMin := .replicate 2 863000000
  txFreqMax := .replicate 2 870000000
  jitQueue := jitQueueInit
  measDw := ⟨0, 0, 0, 0, 0, 0, 0, 0, 0⟩
  tokenH := 0
  tokenL := 0
  reqAck := false
  autoquitCnt := 0

/-- The `PULL_RESP` with the token 18, 52 and these members of its `txpk`. -/
def pullRespWith (members : String) : List U8 :=
  [protocolVersion, 18, 52, pktPullResp] ++
    (cstr "\x7b\"txpk\":\x7b" ++ cstr members ++ cstr "\x7d\x7d")

/-- A class A packet of two bytes on 868.5 MHz is asked for, one second ahead. -/
def exampleRequest : List U8 :=
  pullRespWith ("\"tmst\":1000000,\"freq\":868.5,\"rfch\":0,\"powe\":14,\"modu\":\"LORA\"," ++
    "\"datr\":\"SF7BW125\",\"codr\":\"4/5\",\"size\":2,\"data\":\"TWE=\"")

/-- The server's request for that packet is handled by the reference gateway. -/
theorem tx_ack_tells_insertion_class_a :
    let r := onDatagram .reference .reference (instant 0) exampleRequest
    r.sent.length ≤ 1 ∧
      (∀ ack ∈ r.sent, IsPacket pktTxAck ack ∧
        byteAt ack 1 = 18 ∧ byteAt ack 2 = 52 ∧
        (ackJson ack = [] ↔ Inserted .reference .reference exampleRequest r.gateway.jitQueue) ∧
        (ackJson ack ≠ [] → r.gateway.jitQueue = jitQueueInit)) ∧
      (r.sent = [] → r.gateway.jitQueue = jitQueueInit) ∧
      ∀ txpkt t, requested .reference .reference exampleRequest = .ok (txpkt, t) →
        InsertedAs jitQueueInit r.gateway.jitQueue txpkt t → Permitted .reference txpkt :=
  tx_ack_tells_insertion .reference .reference wf_jitQueueInit (instant 0) exampleRequest
    (by decide +kernel)

end PacketForwarder
