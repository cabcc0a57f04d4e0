import PacketForwarder.Downlink.Ack
import PacketForwarder.Threads.Accesses
import PacketForwarder.Threads.Transmission

/-!
# The downlink as a whole

`thread_down` from a datagram to the queue and back to the server, and `thread_jit` from the
queue to `lgw_send`, as one system.  The steps are the critical sections of both, in any
order; what the other threads do to the GPS reference and the statistics in between is an
input, and so are datagrams, clock readings and what the concentrator answers.

* `Station.Step` — the steps;
* `Station.follows` — on the queue they are steps of `System`, so that its invariants hold;
* `Station.followsBeacons`, `Station.followsTx` — so they are on the beacons and for
  `thread_jit`;
* `Station.handles` — a datagram that is handled without interruption has the effect of
  `onDatagram`.
-/

namespace PacketForwarder

/-! ## The system -/

/-- Where `thread_down` is, between two critical sections. -/
inductive DownPoint
  /-- The thread is about to call `mem_recv`. -/
  | receiving
  /-- `mem_recv` has returned a datagram, or nothing. -/
  | received (msg : Option (List U8))
  /-- At the head of the loop over the beacons still to be queued. -/
  | beacons (msg : Option (List U8))
  /-- In `jit_enqueue` of a beacon, after its first critical section; which reference the beacon
  was computed from, and what queue was found. -/
  | beaconTested (tref : Tref) (tested : JitQueue) (msg : Option (List U8))
  /-- The beacons are done with, and the datagram is about to be handled. -/
  | handling (msg : Option (List U8))
  /-- The packet of a request is about to be passed to `jit_enqueue`. -/
  | offering (buff : List U8) (txpkt : LgwPktTx) (downlinkType : JitPktType)
  /-- In `jit_enqueue`, the queue having been found not full. -/
  | offerTested (buff : List U8) (txpkt : LgwPktTx) (downlinkType : JitPktType)
  /-- The request has an answer, which is about to be sent as a `TX_ACK`. -/
  | answering (buff : List U8) (error : JitError)
  /-- The thread has ended. -/
  | ended

/-- A `TX_ACK` that was sent: for which datagram, and with what error. -/
structure Answer where
  buff : List U8
  error : JitError

/-- A packet the queue has taken in. -/
structure Admission where
  /-- The packet and its class as they were put in. -/
  entry : Entry
  /-- The datagram it was in; a beacon is in none. -/
  request : Option (List U8)

/-- Both threads, and what they share. -/
structure Station where
  /-- The gateway of `thread_down`, with the queue both threads share. -/
  gateway : Gateway
  beacons : BeaconState
  down : DownPoint
  /-- Where `thread_jit` is, between two of its critical sections. -/
  pc : TxPc
  /-- The counters that `thread_jit` adds to. -/
  meas : TxCounters
  /-- What `main` has copied of them. -/
  copied : TxCounters
  /-- The datagrams that were received, in their order. -/
  received : List (List U8)
  /-- The datagrams that were sent, in their order. -/
  sent : List (List U8)
  -- recorded for the statements
  answers : List Answer
  admitted : List Admission
  /-- The packets a peek has dropped, and its time. -/
  purged : Multiset (Entry × Timeval)
  taken : List Dequeued
  passed : List Sent
  dropped : List Dequeued

namespace Station

/-- The queue that the two threads share. -/
def queue (s : Station) : JitQueue := s.gateway.jitQueue

/-- The part of the station that `thread_jit` works on. -/
def tx (s : Station) : TxThread where
  queue := s.queue
  pc := s.pc
  meas := s.meas
  copied := s.copied
  taken := s.taken
  passed := s.passed
  dropped := s.dropped

/-- The station after `thread_jit` has gone on to `t`, with the queue it leaves. -/
def withTx (s : Station) (t : TxThread) : Station :=
  { s with
    gateway := { s.gateway with jitQueue := t.queue }
    pc := t.pc
    meas := t.meas
    copied := t.copied
    taken := t.taken
    passed := t.passed
    dropped := t.dropped }

@[simp] theorem tx_withTx (s : Station) (t : TxThread) : (s.withTx t).tx = t := rfl

/-! ## What `thread_down` does -/

/-- `jit_enqueue` from the second time it takes the lock. -/
def insert (env : JitEnv) (s : Station) (time : Timeval) (packet : LgwPktTx) (t : JitPktType)
    (request : Option (List U8)) : Station :=
  let r := jitEnqueueLocked env s.queue time packet t
  { s with
    gateway := { s.gateway with jitQueue := r.queue }
    admitted := if r.error = .ok then s.admitted ++ [⟨(r.packet, t), request⟩] else s.admitted }

/-- `meas_nb_tx_requested += 1`, after `jit_enqueue` has returned. -/
def countRequested (s : Station) : Station :=
  { s with
    gateway := { s.gateway with
      measDw := { s.gateway.measDw with
        nbTxRequested := s.gateway.measDw.nbTxRequested + 1 } } }

@[simp] theorem admitted_countRequested (s : Station) :
    s.countRequested.admitted = s.admitted := rfl

@[simp] theorem beacons_countRequested (s : Station) : s.countRequested.beacons = s.beacons := rfl

@[simp] theorem beacons_insert (env : JitEnv) (s : Station) (time : Timeval) (packet : LgwPktTx)
    (t : JitPktType) (request : Option (List U8)) :
    (s.insert env time packet t request).beacons = s.beacons := rfl

/-- A `PULL_RESP`, up to `jit_enqueue` or to `send_tx_ack`. -/
def handleRequest (env : DownEnv) (s : Station) (buff : List U8) : Station :=
  match requested env s.gateway buff with
  | .error (.warning _) => { s with down := .receiving }
  | .error (.gpsUnlocked _) => { s with down := .answering buff .gpsUnlocked }
  | .error .exits => { s with down := .ended }
  | .ok (txpkt, downlinkType) =>
    let g := { s.gateway with measDw := s.gateway.measDw.countDgram buff.length txpkt }
    if txError env g txpkt = .ok then
      { s with gateway := g, down := .offering buff txpkt downlinkType }
    else { s with gateway := g, down := .answering buff (txError env g txpkt) }

/-- What was received is handled, by its kind, if anything was. -/
def handle (env : DownEnv) (s : Station) : Option (List U8) → Station
  | none => { s with down := .receiving }
  | some buff =>
    if IsPacket pktPullAck buff then
      { s with gateway := (onPullAck s.gateway buff).gateway, down := .receiving }
    else if IsPacket pktPullResp buff then s.handleRequest env buff
    else { s with down := .receiving }

/-- `send_tx_ack`. -/
def answer (s : Station) (buff : List U8) (error : JitError) : Station :=
  let r := sendTxAck s.gateway (byteAt buff 1) (byteAt buff 2) error
  { s with
    gateway := r.gateway
    sent := s.sent ++ r.sent
    answers := s.answers ++ [⟨buff, error⟩]
    down := .receiving }

/-! ## Steps -/

/-- A step is labelled with what it takes from outside. -/
inductive Label
  /-- A `PULL_DATA` with this token is sent. -/
  | pullData (tokenH tokenL : U8)
  | receive (msg : Option (List U8))
  | enterBeacons
  | beaconFull (tref : Tref) (time : Timeval)
  | beaconTest (tref : Tref)
  | beaconInsert (time : Timeval)
  | leaveBeacons
  | handle
  | offerTest
  | offerInsert (time : Timeval)
  | answer
  /-- A step of `thread_jit`, or `main` taking its counters. -/
  | jit (l : TxLabel)
  /-- The other threads synchronise, or take the statistics. -/
  | others (gpsRefValid : Bool) (timeReferenceGps : Tref) (measDw : MeasDw)

/-- What a step of `thread_jit` drops from the queue. -/
def purgedBy (q q' : JitQueue) : TxLabel → Multiset (Entry × Timeval)
  | .peek time => (agenda q - agenda q').map (·, time)
  | _ => 0

/-- The steps of the two threads, and of the others between them. -/
inductive Step (c : BeaconConf) (env : DownEnv) : Station → Label → Station → Prop
  /-- The thread is at the head of the outer loop and sends a `PULL_DATA`. -/
  | pullData {s : Station} {tokenH tokenL : U8} (hd : s.down = .receiving) :
    Step c env s (.pullData tokenH tokenL)
      { s with
        gateway := { s.gateway with
          tokenH := tokenH
          tokenL := tokenL
          reqAck := false
          autoquitCnt := s.gateway.autoquitCnt + 1 } }
  | receive {s : Station} {msg : Option (List U8)} (hd : s.down = .receiving) :
    Step c env s (.receive msg)
      { s with down := .received msg, received := s.received ++ msg.toList }
  /-- `beacon_loop = JIT_NUM_BEACON_IN_QUEUE - jit_queue.num_beacon`, unlocked. -/
  | enterBeacons {s : Station} {msg : Option (List U8)} (hd : s.down = .received msg) :
    Step c env s .enterBeacons
      { s with
        beacons := { s.beacons with
          beaconLoop := BitVec.ofNat 8 jitNumBeaconInQueue - s.queue.numBeacon
          retry := 0
          looping := true }
        down := .beacons msg }
  /-- A beacon is computed from a reference that is valid then, and the queue is full. -/
  | beaconFull {s : Station} {msg : Option (List U8)} {tref : Tref} {time : Timeval}
    (hd : s.down = .beacons msg) (hl : s.beacons.beaconLoop ≠ 0) (hp : c.beaconPeriod ≠ 0)
    (hf : jitQueueIsFull s.queue = true) :
    Step c env s (.beaconFull tref time)
      { s with
        beacons := beaconAttempt c env.lgwGps2cnt env.jit s.beacons tref s.queue s.queue time }
  | beaconTest {s : Station} {msg : Option (List U8)} {tref : Tref}
    (hd : s.down = .beacons msg) (hl : s.beacons.beaconLoop ≠ 0) (hp : c.beaconPeriod ≠ 0)
    (hf : jitQueueIsFull s.queue = false) :
    Step c env s (.beaconTest tref) { s with down := .beaconTested tref s.queue msg }
  | beaconInsert {s : Station} {msg : Option (List U8)} {tref : Tref} {tested : JitQueue}
    {time : Timeval} (hd : s.down = .beaconTested tref tested msg) :
    Step c env s (.beaconInsert time)
      { s.insert env.jit time (nextBeacon c env.lgwGps2cnt s.beacons tref) .beacon none with
        beacons := beaconAttempt c env.lgwGps2cnt env.jit s.beacons tref tested s.queue time
        down := .beacons msg }
  /-- At its end, without a beacon period, or without a valid reference. -/
  | leaveBeacons {s : Station} {msg : Option (List U8)} (hd : s.down = .beacons msg) :
    Step c env s .leaveBeacons
      { s with beacons := { s.beacons with looping := false }, down := .handling msg }
  | handle {s : Station} {msg : Option (List U8)} (hd : s.down = .handling msg) :
    Step c env s .handle (s.handle env msg)
  /-- `JIT_ERROR_FULL`. -/
  | offerFull {s : Station} {buff : List U8} {txpkt : LgwPktTx} {t : JitPktType}
    (hd : s.down = .offering buff txpkt t) (hf : jitQueueIsFull s.queue = true) :
    Step c env s .offerTest { s.countRequested with down := .answering buff .full }
  | offerTest {s : Station} {buff : List U8} {txpkt : LgwPktTx} {t : JitPktType}
    (hd : s.down = .offering buff txpkt t) (hf : jitQueueIsFull s.queue = false) :
    Step c env s .offerTest { s with down := .offerTested buff txpkt t }
  | offerInsert {s : Station} {buff : List U8} {txpkt : LgwPktTx} {t : JitPktType}
    {time : Timeval} (hd : s.down = .offerTested buff txpkt t) :
    Step c env s (.offerInsert time)
      { (s.insert env.jit time txpkt t (some buff)).countRequested with
        down := .answering buff (jitEnqueueLocked env.jit s.queue time txpkt t).error }
  | answer {s : Station} {buff : List U8} {error : JitError}
    (hd : s.down = .answering buff error) : Step c env s .answer (s.answer buff error)
  | jit {s : Station} {l : TxLabel} {t : TxThread} (hl : ∀ q, l ≠ .interfere q)
    (ht : TxThread.Step env.jit s.tx l t) :
    Step c env s (.jit l)
      { s.withTx t with purged := s.purged + purgedBy s.queue t.queue l }
  | others {s : Station} {gpsRefValid : Bool} {timeReferenceGps : Tref} {measDw : MeasDw} :
    Step c env s (.others gpsRefValid timeReferenceGps measDw)
      { s with
        gateway := { s.gateway with
          gpsRefValid := gpsRefValid
          timeReferenceGps := timeReferenceGps
          measDw := measDw } }

/-- When the threads start: `jit_queue_init`, and `thread_down` before its loops. -/
def start (g : Gateway) (b : BeaconState) : Station where
  gateway := { g with jitQueue := jitQueueInit }
  beacons := b
  down := .receiving
  pc := .idle
  meas := .zero
  copied := .zero
  received := []
  sent := []
  answers := []
  admitted := []
  purged := 0
  taken := []
  passed := []
  dropped := []

/-! ## The queue -/

end Station

/-- What `thread_down` does to the queue there. -/
def DownPoint.pc (beaconLoop : U8) : DownPoint → DownPc
  | .receiving | .received _ | .answering _ _ | .ended => .start
  | .beacons _ => .beacons beaconLoop
  | .beaconTested _ _ _ => .beaconTested beaconLoop
  | .handling _ | .offering _ _ _ => .downlink
  | .offerTested _ _ _ => .downlinkTested

/-- Whether the thread is in the loop over the beacons. -/
def DownPoint.looping : DownPoint → Bool
  | .beacons _ | .beaconTested _ _ _ => true
  | _ => false

/-- `thread_jit` is at the same place, as far as the queue is concerned. -/
def TxPc.At : TxPc → JitPc → Prop
  | .peekTested, j => j = .peekTested
  | .selected k, j => ∃ n t, j = .selected k n t
  | .dequeueTested k, j => ∃ n t, j = .dequeueTested k n t
  | .idle, j | .dequeued _, j | .checking _ _, j | .sending _ _, j | .sent _, j => j = .idle

namespace Station

variable {c : BeaconConf} {env : DownEnv}

/-- The two threads on the queue, and what `thread_down` has tested before it goes on. -/
structure Follows (s : Station) (t : System) : Prop where
  queue : t.queue = s.queue
  down : t.down = s.down.pc s.beacons.beaconLoop
  jit : s.pc.At t.jit
  tested : ∀ tref q msg, s.down = .beaconTested tref q msg → jitQueueIsFull q = false
  type : ∀ buff p t, s.down = .offering buff p t ∨ s.down = .offerTested buff p t → t ≠ .beacon

/-- The step of the queue that a step of the station is. -/
def Label.IsPeek (l : Label) (a : Action) : Prop := ∀ time, a = .peek time → l = .jit (.peek time)

/-- A step of `thread_jit` is one on the queue, or none. -/
theorem Follows.jitStep {s : Station} {t : System} {l : TxLabel} {x : TxThread}
    (h : Follows s t) (hl : ∀ q, l ≠ .interfere q) (hx : TxThread.Step env.jit s.tx l x) :
    ∃ t' : System, t'.queue = x.queue ∧ t'.down = t.down ∧ x.pc.At t'.jit ∧
      (t' = t ∨ ∃ a, System.Step env.jit t a t' ∧ ∀ time, a = .peek time → l = .peek time) := by
  obtain ⟨hq, -, hj, -, -⟩ := h
  replace hj : s.tx.pc.At t.jit := hj
  replace hq : t.queue = s.tx.queue := hq
  generalize s.tx = y at hq hj hx
  cases hx with
  | interfere => exact absurd rfl (hl _)
  | copyAndReset => exact ⟨t, hq, rfl, hj, .inl rfl⟩
  | peekEmpty => exact ⟨t, hq, rfl, hj, .inl rfl⟩
  | peekTest hpc he =>
    rw [hpc] at hj
    rw [← hq] at he
    exact ⟨{ t with jit := .peekTested }, hq, rfl, rfl,
      .inr ⟨.peekTest, .peekTest hj he, fun _ h => by cases h⟩⟩
  | @peekNone time k hpc hk hneg =>
    rw [hpc] at hj
    rw [← hq] at hk ⊢
    refine ⟨{ t with queue := (jitPeekLocked env.jit t.queue time).queue, jit := .idle },
      rfl, rfl, rfl, .inr ⟨.peek time, .peekNone hj hk hneg, ?_⟩⟩
    rintro _ ⟨⟩
    rfl
  | @peek time k hpc hk hpos =>
    rw [hpc] at hj
    rw [← hq] at hk ⊢
    refine ⟨{ t with
        queue := (jitPeekLocked env.jit t.queue time).queue
        jit := .selected k ((jitPeekLocked env.jit t.queue time).queue.nodeAt env.jit k) time },
      rfl, rfl, ⟨_, _, rfl⟩, .inr ⟨.peek time, .peek hj hk hpos, ?_⟩⟩
    rintro _ ⟨⟩
    rfl
  | dequeueRefused hpc hr =>
    rw [hpc] at hj
    rw [← hq] at hr
    obtain ⟨n, time, hj⟩ := hj
    exact ⟨{ t with jit := .idle }, hq, rfl, rfl,
      .inr ⟨.dequeueTest, .dequeueRefused hj hr, fun _ h => by cases h⟩⟩
  | @dequeueTest k hpc hk he =>
    rw [hpc] at hj
    rw [← hq] at he
    obtain ⟨n, time, hj⟩ := hj
    exact ⟨{ t with jit := .dequeueTested k n time }, hq, rfl, ⟨n, time, rfl⟩,
      .inr ⟨.dequeueTest, .dequeueTest hj hk he, fun _ h => by cases h⟩⟩
  | @dequeue k d hpc hd =>
    rw [hpc] at hj
    rw [← hq]
    obtain ⟨n, time, hj⟩ := hj
    exact ⟨{ t with queue := (jitDequeueLocked env.jit t.queue k).queue, jit := .idle },
      rfl, rfl, rfl, .inr ⟨.dequeue, .dequeue hj, fun _ h => by cases h⟩⟩
  | countBeacon hpc | emitting hpc | free hpc | send hpc | countSent hpc =>
    rw [hpc] at hj
    exact ⟨t, hq, rfl, hj, .inl rfl⟩

/-- What stays as it was configured. -/
structure SameSettings (g g' : Gateway) : Prop where
  netMac : g'.netMac = g.netMac
  gpsEnabled : g'.gpsEnabled = g.gpsEnabled
  antennaGain : g'.antennaGain = g.antennaGain
  txlut : g'.txlut = g.txlut
  txFreqMin : g'.txFreqMin = g.txFreqMin
  txFreqMax : g'.txFreqMax = g.txFreqMax

theorem SameSettings.refl (g : Gateway) : SameSettings g g := ⟨rfl, rfl, rfl, rfl, rfl, rfl⟩

theorem SameSettings.trans {g g' g'' : Gateway} (h : SameSettings g g')
    (h' : SameSettings g' g'') : SameSettings g g'' :=
  ⟨h'.netMac.trans h.netMac, h'.gpsEnabled.trans h.gpsEnabled, h'.antennaGain.trans h.antennaGain,
    h'.txlut.trans h.txlut, h'.txFreqMin.trans h.txFreqMin, h'.txFreqMax.trans h.txFreqMax⟩

/-- Handling a datagram leads back to the head of the loop, or on to an answer or an offer. -/
theorem handle_cases (env : DownEnv) (s : Station) (msg : Option (List U8)) :
    ∃ g point, s.handle env msg = { s with gateway := g, down := point } ∧
      g.jitQueue = s.queue ∧ SameSettings s.gateway g ∧ (point = .receiving ∨ point = .ended ∨
        (∃ buff, msg = some buff ∧ IsPacket pktPullResp buff ∧
          (point = .answering buff .gpsUnlocked ∨
            ∃ txpkt t, requested env s.gateway buff = .ok (txpkt, t) ∧
              (point = .offering buff txpkt t ∧ txError env s.gateway txpkt = .ok ∨
                point = .answering buff (txError env s.gateway txpkt) ∧
                  txError env s.gateway txpkt ≠ .ok)))) := by
  unfold handle
  cases msg with
  | none => exact ⟨s.gateway, .receiving, rfl, rfl, .refl _, .inl rfl⟩
  | some buff =>
    simp only
    split
    · refine ⟨_, .receiving, rfl, ?_, ?_, .inl rfl⟩
      · unfold onPullAck
        split <;> rfl
      · unfold onPullAck
        split <;> exact ⟨rfl, rfl, rfl, rfl, rfl, rfl⟩
    · split
      · rename_i hresp
        unfold handleRequest
        split
        · exact ⟨s.gateway, .receiving, rfl, rfl, .refl _, .inl rfl⟩
        · exact ⟨s.gateway, _, rfl, rfl, .refl _, .inr (.inr ⟨buff, rfl, hresp, .inl rfl⟩)⟩
        · exact ⟨s.gateway, .ended, rfl, rfl, .refl _, .inr (.inl rfl)⟩
        · rename_i txpkt t hreq
          simp only
          split
          · rename_i hok
            exact ⟨_, _, rfl, rfl, ⟨rfl, rfl, rfl, rfl, rfl, rfl⟩,
              .inr (.inr ⟨buff, rfl, hresp, .inr ⟨txpkt, t, hreq, .inl ⟨rfl, hok⟩⟩⟩)⟩
          · rename_i herr
            exact ⟨_, _, rfl, rfl, ⟨rfl, rfl, rfl, rfl, rfl, rfl⟩,
              .inr (.inr ⟨buff, rfl, hresp, .inr ⟨txpkt, t, hreq, .inr ⟨rfl, herr⟩⟩⟩)⟩
      · exact ⟨s.gateway, .receiving, rfl, rfl, .refl _, .inl rfl⟩

/-- No beacon is put into a full queue. -/
theorem beaconError_of_full (env : JitEnv) {tested : JitQueue} (h : jitQueueIsFull tested = true)
    (met : JitQueue) (time : Timeval) (packet : LgwPktTx) :
    beaconError env tested met time packet ≠ .ok := by
  unfold beaconError
  rw [if_pos h]
  decide

/-- While `thread_down` moves, `thread_jit` stays where it is. -/
theorem Follows.move {s s' : Station} {t t' : System} (h : Follows s t)
    (hq : t'.queue = s'.queue) (hdown : t'.down = s'.down.pc s'.beacons.beaconLoop)
    (htested : ∀ tref q msg, s'.down = .beaconTested tref q msg → jitQueueIsFull q = false)
    (htype : ∀ buff p t, s'.down = .offering buff p t ∨ s'.down = .offerTested buff p t →
      t ≠ .beacon)
    (hpc : s'.pc = s.pc) (hjit : t'.jit = t.jit) : Follows s' t' := by
  refine ⟨hq, hdown, ?_, htested, htype⟩
  rw [hpc, hjit]
  exact h.jit

/-- **On the queue** every step is a step of `System`, or none. -/
theorem Follows.step {s s' : Station} {t : System} {l : Label} (h : Follows s t)
    (hst : Step c env s l s') :
    ∃ t', Follows s' t' ∧ (t' = t ∨ ∃ a, System.Step env.jit t a t' ∧ l.IsPeek a) := by
  have hdown := h.down
  have hqueue := h.queue
  cases hst with
  | pullData hd => exact ⟨t, h.move hqueue hdown h.tested h.type rfl rfl, .inl rfl⟩
  | receive hd =>
    rw [hd] at hdown
    exact ⟨t, h.move hqueue hdown (by simp) (by simp) rfl rfl, .inl rfl⟩
  | enterBeacons hd =>
    rw [hd] at hdown
    refine ⟨{ t with down := .beacons (BitVec.ofNat 8 jitNumBeaconInQueue - t.queue.numBeacon) },
      h.move hqueue ?_ (by simp) (by simp) rfl rfl,
      .inr ⟨.readNumBeacon, .readNumBeacon hdown, fun _ h => by cases h⟩⟩
    rw [hqueue]
    rfl
  | @beaconFull msg tref time hd hl hp hf =>
    refine ⟨t, h.move hqueue ?_ (by simp [hd]) (by simp [hd]) rfl rfl, .inl rfl⟩
    -- The attempt on a full queue leaves the number of beacons to come as it is.
    have hfull := beaconError_of_full env.jit hf s.queue time
      (nextBeacon c env.lgwGps2cnt s.beacons tref)
    rw [hdown, hd, beaconAttempt]
    simp only [if_neg hfull]
  | @beaconTest msg tref hd hl hp hf =>
    rw [hd] at hdown
    refine ⟨{ t with down := .beaconTested s.beacons.beaconLoop },
      h.move hqueue rfl ?_ (by simp) rfl rfl, .inr ⟨.beaconTest, .beaconTest hdown hl ?_,
        fun _ h => by cases h⟩⟩
    · rintro _ _ _ ⟨⟩
      exact hf
    · rw [hqueue]
      exact hf
  | @beaconInsert msg tref tested time hd =>
    rw [hd] at hdown
    have htested := h.tested _ _ _ hd
    refine ⟨{ t with
        queue := (jitEnqueueLocked env.jit t.queue time
          (nextBeacon c env.lgwGps2cnt s.beacons tref) .beacon).queue
        down := .beacons (if (jitEnqueueLocked env.jit t.queue time
          (nextBeacon c env.lgwGps2cnt s.beacons tref) .beacon).error = .ok then
            s.beacons.beaconLoop - 1 else s.beacons.beaconLoop) },
      h.move ?_ ?_ (by simp) (by simp) rfl rfl,
      .inr ⟨.beaconInsert time (nextBeacon c env.lgwGps2cnt s.beacons tref),
        .beaconInsert hdown, fun _ h => by cases h⟩⟩
    · rw [hqueue]
      rfl
    · show DownPc.beacons _ = DownPc.beacons _
      rw [hqueue, beaconAttempt]
      simp only [beaconError, htested]
      split
      · rename_i hok
        rw [if_pos (by simpa using hok)]
      · rename_i herr
        rw [if_neg (by simpa using herr)]
  | leaveBeacons hd =>
    rw [hd] at hdown
    exact ⟨{ t with down := .downlink }, h.move hqueue rfl (by simp) (by simp) rfl rfl,
      .inr ⟨.leaveBeacons, .leaveBeacons hdown, fun _ h => by cases h⟩⟩
  | @handle msg hd =>
    rw [hd] at hdown
    obtain ⟨g, point, heq, hg, -, hpoint⟩ := handle_cases env s msg
    rw [heq]
    -- All outcomes of a datagram but one leave the queue alone, and so skip the downlink part.
    have hskip : ∀ point : DownPoint, point.pc s.beacons.beaconLoop = .start →
        (∀ tref q msg, point ≠ .beaconTested tref q msg) →
        (∀ buff p t, ¬(point = .offering buff p t ∨ point = .offerTested buff p t)) →
        ∃ t' : System, Follows { s with gateway := g, down := point } t' ∧
          (t' = t ∨ ∃ a, System.Step env.jit t a t' ∧ Label.handle.IsPeek a) := by
      intro point hstart htested htype
      exact ⟨{ t with down := .start }, h.move (hqueue.trans hg.symm) hstart.symm
        (fun _ _ _ h => absurd h (htested _ _ _)) (fun _ _ _ h => absurd h (htype _ _ _)) rfl rfl,
        .inr ⟨.skipDownlink, .skipDownlink hdown, fun _ h => by cases h⟩⟩
    rcases hpoint with rfl | rfl | ⟨buff, -, -, rfl | ⟨txpkt, type, hreq, ⟨rfl, -⟩ | ⟨rfl, -⟩⟩⟩
    · exact hskip _ rfl (by simp) (by simp)
    · exact hskip _ rfl (by simp) (by simp)
    · exact hskip _ rfl (by simp) (by simp)
    · refine ⟨t, h.move (hqueue.trans hg.symm) hdown (by simp) ?_ rfl rfl, .inl rfl⟩
      rintro _ _ _ (⟨⟨⟩⟩ | ⟨⟨⟩⟩)
      exact requested_type hreq
    · exact hskip _ rfl (by simp) (by simp)
  | offerFull hd hf =>
    rw [hd] at hdown
    exact ⟨{ t with down := .start }, h.move hqueue rfl (by simp) (by simp) rfl rfl,
      .inr ⟨.downlinkTest, .downlinkFull hdown (by rw [hqueue]; exact hf),
        fun _ h => by cases h⟩⟩
  | offerTest hd hf =>
    have htype := h.type _ _ _ (.inl hd)
    rw [hd] at hdown
    refine ⟨{ t with down := .downlinkTested }, h.move hqueue rfl (by simp) ?_ rfl rfl,
      .inr ⟨.downlinkTest, .downlinkTest hdown (by rw [hqueue]; exact hf),
        fun _ h => by cases h⟩⟩
    rintro _ _ _ (⟨⟨⟩⟩ | ⟨⟨⟩⟩)
    exact htype
  | @offerInsert buff txpkt type time hd =>
    have htype := h.type _ _ _ (.inr hd)
    rw [hd] at hdown
    refine ⟨{ t with
        queue := (jitEnqueueLocked env.jit t.queue time txpkt type).queue
        down := .start },
      h.move ?_ rfl (by simp) (by simp) rfl rfl,
      .inr ⟨.downlinkInsert time txpkt type, .downlinkInsert hdown htype, fun _ h => by cases h⟩⟩
    rw [hqueue]
    rfl
  | answer hd =>
    rw [hd] at hdown
    exact ⟨t, h.move hqueue hdown (by simp [answer]) (by simp [answer]) rfl rfl, .inl rfl⟩
  | @jit l x hl ht =>
    obtain ⟨t', hq', hd', hj', hstep⟩ := h.jitStep hl ht
    refine ⟨t', ⟨hq', hd'.trans hdown, hj', h.tested, h.type⟩, ?_⟩
    rcases hstep with rfl | ⟨a, hstep, hpeek⟩
    · exact .inl rfl
    · exact .inr ⟨a, hstep, fun time ha => congrArg Label.jit (hpeek time ha)⟩
  | others => exact ⟨t, h.move hqueue hdown h.tested h.type rfl rfl, .inl rfl⟩

/-- **The queue's runs.**  A run of the station is one of `System`; a guard there that concerns
peeks only has to hold of the station's. -/
theorem follows {ok : Station → Label → Prop} {ok' : System → Action → Prop}
    (hok : ∀ s l t a, Follows s t → ok s l → l.IsPeek a → ok' t a) {g : Gateway}
    {b : BeaconState} {s : Station} (h : Runs.Reaches (Step c env) ok (start g b) s) :
    ∃ t, System.ReachableBy env.jit ok' t ∧ Follows s t := by
  have h₀ : Follows (start g b) .init := ⟨rfl, rfl, rfl, by simp [start], by simp [start]⟩
  refine h.simulated h₀ ?_
  intro s l s' t _ _ hf hl hst
  obtain ⟨t', hf', rfl | ⟨a, hstep, hpeek⟩⟩ := hf.step hst
  · exact ⟨_, .start, hf'⟩
  · exact ⟨t', .next .start (hok s l t a hf hl hpeek) hstep, hf'⟩

/-- The counters of the queue keep their bounds in every run of the station. -/
theorem exists_counted {ok : Station → Label → Prop} {g : Gateway} {b : BeaconState}
    {s : Station} (h : Runs.Reaches (Step c env) ok (start g b) s) :
    ∃ t, Follows s t ∧ CountersOk t := by
  have hrun : ∃ t, System.ReachableBy env.jit Runs.anyStep t ∧ Follows s t :=
    follows (fun _ _ _ _ _ _ _ => trivial) h
  obtain ⟨t, ht, hf⟩ := hrun
  exact ⟨t, hf, CountersOk.reached ht⟩

/-! ## `thread_jit` -/

/-- To `thread_jit` a step is its own, or one of the others' on the queue. -/
theorem Step.tx_cases {s s' : Station} {l : Label} (hst : Step c env s l s') :
    (∃ x, l = .jit x ∧ TxThread.Step env.jit s.tx x s'.tx ∧
      s'.purged = s.purged + purgedBy s.queue s'.queue x) ∨
      (∀ x, l ≠ .jit x) ∧ s'.tx = { s.tx with queue := s'.queue } ∧ s'.purged = s.purged := by
  cases hst with
  | jit hl ht => exact .inl ⟨_, rfl, ht, rfl⟩
  | @handle msg hd =>
    obtain ⟨g, point, heq, -⟩ := handle_cases env s msg
    rw [heq]
    exact .inr ⟨fun _ h => (by cases h), rfl, rfl⟩
  | _ => exact .inr ⟨fun _ h => (by cases h), rfl, rfl⟩

/-- **The runs of `thread_jit`**: a run of the station is one of that thread, to which the others
change the queue. -/
theorem followsTx {ok : Station → Label → Prop} {g : Gateway} {b : BeaconState} {s : Station}
    (h : Runs.Reaches (Step c env) ok (start g b) s) :
    Runs.Reaches (TxThread.Step env.jit) Runs.anyStep (.start jitQueueInit) s.tx := by
  have h₀ : Runs.Reaches (TxThread.Step env.jit) Runs.anyStep (.start jitQueueInit)
      (start g b).tx := .start
  refine h.invariant (I := fun s => Runs.Reaches _ _ _ s.tx) h₀ ?_
  intro s l s' _ hr _ hst
  rcases hst.tx_cases with ⟨x, -, hx, -⟩ | ⟨-, hx, -⟩
  · exact hr.next trivial hx
  · rw [hx]
    exact hr.next trivial .interfere

/-! ## The beacons -/

/-- A beacon that is accepted lies on the grid. -/
def OnGrid (c : BeaconConf) (env : DownEnv) (s : Station) (l : Label) : Prop :=
  ∀ time tref tested msg, l = .beaconInsert time → s.down = .beaconTested tref tested msg →
    KeepsGrid c env.lgwGps2cnt env.jit s.beacons (.attempt tref tested s.queue time)

/-- What the loop over the beacons relies on. -/
structure InLoop (c : BeaconConf) (s : Station) : Prop where
  looping : s.beacons.looping = s.down.looping
  tested : ∀ tref q msg, s.down = .beaconTested tref q msg →
    s.beacons.beaconLoop ≠ 0 ∧ c.beaconPeriod ≠ 0

/-- Nothing is relied on outside the loop. -/
theorem InLoop.outside {s : Station} (hloop : s.beacons.looping = false)
    (hdown : s.down.looping = false) : InLoop c s where
  looping := hloop.trans hdown.symm
  tested tref q msg h := by
    rw [h] at hdown
    cases hdown

/-- To the beacons a step is one of `thread_down` on them, or none. -/
theorem InLoop.step {s s' : Station} {l : Label} (h : InLoop c s) (hgrid : OnGrid c env s l)
    (hst : Step c env s l s') : InLoop c s' ∧
      (s'.beacons = s.beacons ∨ ∃ e, KeepsGrid c env.lgwGps2cnt env.jit s.beacons e ∧
        BeaconStep c env.lgwGps2cnt env.jit s.beacons e s'.beacons) := by
  obtain ⟨hloop, htested⟩ := h
  have hat : ∀ {point : DownPoint}, s.down = point → s.beacons.looping = point.looping :=
    fun hd => by rw [hloop, hd]
  cases hst with
  | pullData hd => exact ⟨⟨hloop, htested⟩, .inl rfl⟩
  | receive hd =>
    have hloop := hat hd
    exact ⟨.outside hloop rfl, .inl rfl⟩
  | enterBeacons hd =>
    have hloop := hat hd
    exact ⟨⟨rfl, fun _ _ _ h => DownPoint.noConfusion h⟩,
      .inr ⟨.enter s.queue.numBeacon, trivial, .enter hloop⟩⟩
  | @beaconFull msg tref time hd hl hp hf =>
    have hfull := beaconError_of_full env.jit hf s.queue time
      (nextBeacon c env.lgwGps2cnt s.beacons tref)
    have hloop := hat hd
    refine ⟨⟨?_, fun _ _ _ h => DownPoint.noConfusion (hd.symm.trans h)⟩,
      .inr ⟨.attempt tref s.queue s.queue time, fun h => absurd h hfull, .attempt hloop hl hp⟩⟩
    rw [hd, beaconAttempt]
    simp only [if_neg hfull]
    exact hloop
  | beaconTest hd hl hp hf =>
    have hloop := hat hd
    exact ⟨⟨hloop, fun _ _ _ _ => ⟨hl, hp⟩⟩, .inl rfl⟩
  | @beaconInsert msg tref tested time hd =>
    obtain ⟨hl, hp⟩ := htested _ _ _ hd
    have hloop := hat hd
    refine ⟨⟨?_, fun _ _ _ h => DownPoint.noConfusion h⟩,
      .inr ⟨.attempt tref tested s.queue time, hgrid _ _ _ _ rfl hd, .attempt hloop hl hp⟩⟩
    rw [beaconAttempt]
    simp only
    split <;> exact hloop
  | leaveBeacons hd =>
    have hloop := hat hd
    exact ⟨.outside rfl rfl, .inr ⟨.leave, trivial, .leave hloop⟩⟩
  | @handle msg hd =>
    obtain ⟨g, point, heq, -, -, hpoint⟩ := handle_cases env s msg
    have hloop := hat hd
    rw [heq]
    rcases hpoint with rfl | rfl | ⟨buff, -, -, rfl | ⟨txpkt, type, -, ⟨rfl, -⟩ | ⟨rfl, -⟩⟩⟩
    all_goals exact ⟨.outside hloop rfl, .inl rfl⟩
  | offerFull hd | offerTest hd | offerInsert hd | answer hd =>
    have hloop := hat hd
    exact ⟨.outside hloop rfl, .inl rfl⟩
  | jit hl ht => exact ⟨⟨hloop, htested⟩, .inl rfl⟩
  | others => exact ⟨⟨hloop, htested⟩, .inl rfl⟩

/-- **The runs on the beacons**: a run of the station is one of the beacon part, as long as it keeps
to the grid. -/
theorem followsBeacons {g : Gateway} {b : BeaconState} (hb : b.looping = false) {s : Station}
    (h : Runs.Reaches (Step c env) (OnGrid c env) (start g b) s) :
    Runs.Reaches (BeaconStep c env.lgwGps2cnt env.jit)
      (KeepsGrid c env.lgwGps2cnt env.jit) b s.beacons := by
  have h₀ : InLoop c (start g b) ∧ Runs.Reaches (BeaconStep c env.lgwGps2cnt env.jit)
      (KeepsGrid c env.lgwGps2cnt env.jit) b (start g b).beacons := ⟨⟨hb, nofun⟩, .start⟩
  refine (h.invariant (I := fun s => InLoop c s ∧ Runs.Reaches _ _ b s.beacons) h₀ ?_).2
  rintro s l s' - ⟨hl, hr⟩ hok hst
  obtain ⟨hl', heq | ⟨e, he, hstep⟩⟩ := hl.step hok hst
  · rw [heq]
    exact ⟨hl', hr⟩
  · exact ⟨hl', hr.next he hstep⟩

/-! ## A datagram without interruption -/

/-- **Handling is `onDatagram`**, if nobody else takes a step meanwhile. -/
theorem handles (c : BeaconConf) (env : DownEnv) {s : Station} {buff : List U8}
    (hd : s.down = .handling (some buff)) (time : Timeval) :
    let r := onDatagram env s.gateway time buff
    ∃ s', Runs.Reaches (Step c env) Runs.anyStep s s' ∧ s'.gateway = r.gateway ∧
      s'.sent = s.sent ++ r.sent ∧ s'.down = if r.ended then .ended else .receiving := by
  intro r
  have hhandle : Runs.Reaches (Step c env) Runs.anyStep s (s.handle env (some buff)) :=
    .next .start trivial (.handle hd)
  -- Every way to an answer ends with the same step.
  have hanswer : ∀ {s₁ : Station} {error : JitError}, Runs.Reaches (Step c env) Runs.anyStep s s₁ →
      s₁.down = .answering buff error → s₁.sent = s.sent →
      ∃ s', Runs.Reaches (Step c env) Runs.anyStep s s' ∧
        s'.gateway = (sendTxAck s₁.gateway (byteAt buff 1) (byteAt buff 2) error).gateway ∧
        s'.sent = s.sent ++ (sendTxAck s₁.gateway (byteAt buff 1) (byteAt buff 2) error).sent ∧
        s'.down = .receiving := by
    intro s₁ error hr hdown hsent
    refine ⟨_, hr.next trivial (.answer hdown), rfl, ?_, rfl⟩
    rw [← hsent]
    rfl
  unfold handle at hhandle
  simp only at hhandle
  have hr : r = onDatagram env s.gateway time buff := rfl
  rw [hr, onDatagram]
  split
  · rename_i hack
    rw [if_pos hack] at hhandle
    refine ⟨_, hhandle, rfl, ?_, ?_⟩
    · unfold onPullAck
      split <;> simp
    · unfold onPullAck
      split <;> rfl
  · rename_i hack
    rw [if_neg hack] at hhandle
    split
    · rename_i hresp
      rw [if_pos hresp] at hhandle
      unfold handleRequest at hhandle
      unfold onPullResp
      split
      · rename_i text hreq
        simp only [hreq] at hhandle
        exact ⟨_, hhandle, rfl, by simp, rfl⟩
      · rename_i text hreq
        simp only [hreq] at hhandle
        have h := hanswer hhandle rfl rfl
        exact h
      · rename_i hreq
        simp only [hreq] at hhandle
        exact ⟨_, hhandle, rfl, by simp, rfl⟩
      · rename_i txpkt t hreq
        simp only [hreq] at hhandle
        unfold onRequest
        simp only
        split
        · rename_i hok
          rw [if_pos hok] at hhandle
          unfold enqueueDownlink jitEnqueue
          simp only
          split
          · rename_i hf
            have h := hanswer (hhandle.next trivial (.offerFull rfl hf)) rfl rfl
            exact h
          · rename_i hf
            have htest := hhandle.next trivial (.offerTest rfl (Bool.eq_false_iff.mpr hf))
            have h := hanswer
              (htest.next trivial (@Step.offerInsert c env _ buff txpkt t time rfl)) rfl rfl
            exact h
        · rename_i herr
          rw [if_neg herr] at hhandle
          have h := hanswer hhandle rfl rfl
          exact h
    · rename_i hresp
      rw [if_neg hresp] at hhandle
      exact ⟨_, hhandle, rfl, by simp, rfl⟩

/-! ## A run -/

/-- The comparator can order what a peek finds, or nothing is outdated. -/
def PeeksOrdered (s : Station) (l : Label) : Prop :=
  ∀ time, l = .jit (.peek time) → PeekOrdered s.queue time.lowUs

theorem dequeues {env : JitEnv} {x : TxThread} {k : ℕ} (hpc : x.pc = .dequeueTested k) :
    let d : Dequeued := ⟨(x.queue.node env k).pkt, (x.queue.node env k).pktType⟩
    TxThread.Step env x .dequeue
      { x with
        queue := (jitDequeueLocked env x.queue k).queue
        pc := .dequeued d
        taken := x.taken ++ [d] } :=
  .dequeue hpc rfl

/-- The beacon of GPS second 1152 is queued, and sent 20 ms before its departure. -/
theorem reaches_beaconSent :
    ∃ s, Runs.Reaches (Step (everySeconds 128) .reference)
      (fun s l => PeeksOrdered s l ∧ OnGrid (everySeconds 128) .reference s l)
      (start .reference (beaconStart 128)) s ∧ s.passed.length = 1 := by
  have hok : ∀ (s : Station) (l : Label), (∀ time, l ≠ .jit (.peek time)) →
      (∀ time, l ≠ .beaconInsert time) →
      PeeksOrdered s l ∧ OnGrid (everySeconds 128) .reference s l :=
    fun s l hpeek hbeacon => ⟨fun time h => absurd h (hpeek time),
      fun time _ _ _ h => absurd h (hbeacon time)⟩
  have hreceive : Runs.Reaches (Step (everySeconds 128) .reference)
      (fun s l => PeeksOrdered s l ∧ OnGrid (everySeconds 128) .reference s l)
      (start .reference (beaconStart 128)) _ :=
    Runs.Reaches.start.next (hok _ (.receive none) (by simp) (by simp)) (.receive rfl)
  have henter := hreceive.next (hok _ .enterBeacons (by simp) (by simp)) (.enterBeacons rfl)
  have htest := henter.next (hok _ (.beaconTest (trefAt 1024)) (by simp) (by simp))
    (.beaconTest rfl (by decide) (by decide) (by decide))
  have hinsert := htest.next (l := .beaconInsert (instant 0))
    (by
      refine ⟨fun _ h => (by cases h), ?_⟩
      rintro _ _ _ _ ⟨⟩ ⟨⟩
      exact fun _ => ⟨by decide, fun _ => by decide⟩) (.beaconInsert rfl)
  have hpeekTest := hinsert.next (hok _ (.jit .peekTest) (by simp) (by simp))
    (.jit (by simp) (.peekTest rfl (by decide +kernel)))
  have hpeek := hpeekTest.next (l := .jit (.peek (instant 127980000)))
    (by
      refine ⟨?_, fun _ _ _ _ h => (by cases h)⟩
      rintro _ ⟨⟩
      exact .inl (by decide +kernel))
    (.jit (by simp) (.peek (k := 0) rfl (by decide +kernel) (by decide)))
  have hdequeueTest := hpeek.next (hok _ (.jit .dequeueTest) (by simp) (by simp))
    (.jit (by simp) (.dequeueTest (k := 0) rfl (by decide) (by decide +kernel)))
  have hdequeue := hdequeueTest.next (hok _ (.jit .dequeue) (by simp) (by simp))
    (.jit (by simp) (dequeues (k := 0) rfl))
  have hcount := hdequeue.next (hok _ (.jit (.countBeacon 869525000)) (by simp) (by simp))
    (.jit (by simp) (.countBeacon rfl))
  have hfree := hcount.next (hok _ (.jit (.status (some .free))) (by simp) (by simp))
    (.jit (by simp) (.free rfl (by decide)))
  have hsend := hfree.next (hok _ (.jit (.send true)) (by simp) (by simp))
    (.jit (by simp) (.send rfl))
  exact ⟨_, hsend, rfl⟩

end Station

end PacketForwarder
