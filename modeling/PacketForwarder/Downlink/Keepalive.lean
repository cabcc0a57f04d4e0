import PacketForwarder.Downlink.Ack

/-!
# Keepalives and autoquit

The two nested loops of `thread_down`: the outer one sends a `PULL_DATA` with a new token,
the inner one listens until the keepalive interval is over.

* `Window` — a `PULL_DATA` and what is received until the next one;
* `unacked` — how many of them have been sent since one was acknowledged in its own window;
* `autoquitCnt_eq` — the counter is that number in 32 bits, and the number itself whenever
  there is a threshold; it ends the loop when the number reaches the threshold.
-/

namespace PacketForwarder

variable {env : DownEnv} {g : Gateway}

/-! ## The loops -/

/-- A `PULL_DATA`, and the datagrams received before the next one is due. -/
structure Window where
  tokenH : U8
  tokenL : U8
  /-- The datagrams received in the window, the latest first. -/
  received : List (List U8)

/-- Where `thread_down` is between two events, as far as its loops are concerned. -/
inductive DownLoopPc
  /-- At the condition of the outer loop. -/
  | head
  /-- At the condition of the inner loop. -/
  | listening
  /-- The thread is behind both loops. -/
  | left
  deriving DecidableEq

/-- `thread_down` in its two loops, with the counters they work on. -/
structure DownLoop where
  gateway : Gateway
  pc : DownLoopPc
  exitSig : Bool
  quitSig : Bool
  /-- `(int)difftimespec(recv_time, send_time)`. -/
  elapsed : ℤ
  measDwPullSent : U32
  /-- What the main thread has taken from `meas_dw_pull_sent` so far. -/
  reportedSent : U32
  /-- What the main thread has taken from `meas_dw_ack_rcv` so far. -/
  reportedAcks : U32
  /-- All that were sent, the latest first. -/
  windows : List Window

/-- One more datagram is received in the window. -/
def Window.receive (w : Window) (buff : List U8) : Window :=
  { w with received := buff :: w.received }

/-- A datagram is received in the latest window. -/
def record (buff : List U8) : List Window → List Window
  | [] => []
  | w :: ws => w.receive buff :: ws

/-- The head of the outer loop: leave it, or send a `PULL_DATA` with these random bytes. -/
def loopHead (autoquitThreshold : U32) (s : DownLoop) (tokenH tokenL : U8) : DownLoop :=
  if s.exitSig ∨ s.quitSig then { s with pc := .left }
  else if 0 < autoquitThreshold ∧ autoquitThreshold ≤ s.gateway.autoquitCnt then
    { s with exitSig := true, pc := .left }
  else
    { s with
      gateway := { s.gateway with
        tokenH := tokenH
        tokenL := tokenL
        reqAck := false
        autoquitCnt := s.gateway.autoquitCnt + 1 }
      pc := .listening
      elapsed := 0
      measDwPullSent := s.measDwPullSent + 1
      windows := ⟨tokenH, tokenL, []⟩ :: s.windows }

/-- A pass of the inner loop: what `mem_recv` gives, if anything, and the clock then. -/
def listen (env : DownEnv) (keepaliveTime : ℤ) (s : DownLoop) (msg : Option (List U8))
    (elapsed : ℤ) (time : Timeval) : DownLoop :=
  if s.elapsed < keepaliveTime ∧ s.exitSig = false ∧ s.quitSig = false then
    match msg with
    | none => { s with elapsed := elapsed }
    | some buff =>
      let r := onDatagram env s.gateway time buff
      { s with
        gateway := r.gateway
        elapsed := elapsed
        pc := if r.ended then .left else .listening
        windows := record buff s.windows }
  else { s with pc := .head }

/-- What the acknowledgements depend on is the same. -/
structure SameAcks (g g' : Gateway) : Prop where
  tokenH : g'.tokenH = g.tokenH
  tokenL : g'.tokenL = g.tokenL
  reqAck : g'.reqAck = g.reqAck
  autoquitCnt : g'.autoquitCnt = g.autoquitCnt
  dwAckRcv : g'.measDw.dwAckRcv = g.measDw.dwAckRcv

/-- What can happen to `thread_down` in its loops. -/
inductive DownLoopEvent
  | head (tokenH tokenL : U8)
  | listen (msg : Option (List U8)) (elapsed : ℤ) (time : Timeval)
  /-- A signal, or another thread, sets one of the flags. -/
  | signal (exitSig quitSig : Bool)
  /-- The main thread copies the statistics of the downstream and resets them. -/
  | report
  /-- Anything else the gateway does: beacons, transmissions, synchronisations. -/
  | other (g : Gateway)

/-- **A step** of `thread_down`, or of anything around it. -/
inductive DownLoopStep (env : DownEnv) (keepaliveTime : ℤ) (autoquitThreshold : U32) :
    DownLoop → DownLoopEvent → DownLoop → Prop
  | head {s : DownLoop} {tokenH tokenL : U8} : s.pc = .head →
      DownLoopStep env keepaliveTime autoquitThreshold s (.head tokenH tokenL)
        (loopHead autoquitThreshold s tokenH tokenL)
  | listen {s : DownLoop} {msg : Option (List U8)} {elapsed : ℤ} {time : Timeval} :
      s.pc = .listening →
      DownLoopStep env keepaliveTime autoquitThreshold s (.listen msg elapsed time)
        (listen env keepaliveTime s msg elapsed time)
  | signal {s : DownLoop} {exitSig quitSig : Bool} :
      DownLoopStep env keepaliveTime autoquitThreshold s (.signal exitSig quitSig)
        { s with exitSig := s.exitSig || exitSig, quitSig := s.quitSig || quitSig }
  | report {s : DownLoop} :
      DownLoopStep env keepaliveTime autoquitThreshold s .report
        { s with
          gateway := { s.gateway with measDw := { s.gateway.measDw with dwAckRcv := 0 } }
          measDwPullSent := 0
          reportedSent := s.reportedSent + s.measDwPullSent
          reportedAcks := s.reportedAcks + s.gateway.measDw.dwAckRcv }
  | other {s : DownLoop} {g : Gateway} : SameAcks s.gateway g →
      DownLoopStep env keepaliveTime autoquitThreshold s (.other g) { s with gateway := g }

/-- `thread_down` before its loops.  The statistics are those that an earlier `start()` has
left behind. -/
def downLoopStart (g : Gateway) (measDwPullSent : U32) : DownLoop where
  gateway := { g with reqAck := false, autoquitCnt := 0 }
  pc := .head
  exitSig := false
  quitSig := false
  elapsed := 0
  measDwPullSent := measDwPullSent
  reportedSent := 0
  reportedAcks := 0
  windows := []

/-! ## What is acknowledged -/

/-- A datagram is a `PULL_ACK` with this token. -/
def IsAckOf (tokenH tokenL : U8) (buff : List U8) : Prop :=
  IsPacket pktPullAck buff ∧ byteAt buff 1 = tokenH ∧ byteAt buff 2 = tokenL

instance (tokenH tokenL : U8) (buff : List U8) : Decidable (IsAckOf tokenH tokenL buff) :=
  inferInstanceAs (Decidable (_ ∧ _ ∧ _))

/-- The `PULL_DATA` received a `PULL_ACK` with its own token in its own window. -/
def Window.acked (w : Window) : Bool := w.received.any fun buff => IsAckOf w.tokenH w.tokenL buff

/-- The number of `PULL_DATA` sent since the last one that was acknowledged. -/
def unacked (ws : List Window) : ℕ := (ws.takeWhile fun w => !w.acked).length

/-- The number of the windows that were acknowledged. -/
def ackedCount (ws : List Window) : ℕ := ws.countP Window.acked

theorem unacked_of_acked {w : Window} (h : w.acked = true) (ws : List Window) :
    unacked (w :: ws) = 0 := by
  simp [unacked, h]

theorem unacked_of_not_acked {w : Window} (h : w.acked = false) (ws : List Window) :
    unacked (w :: ws) = unacked ws + 1 := by
  simp [unacked, h]

theorem acked_received (w : Window) (buff : List U8) :
    (w.receive buff).acked = (decide (IsAckOf w.tokenH w.tokenL buff) || w.acked) := rfl

/-- What is counted depends on which windows are acknowledged only. -/
theorem unacked_congr {w w' : Window} (h : w'.acked = w.acked) (ws : List Window) :
    unacked (w' :: ws) = unacked (w :: ws) ∧ ackedCount (w' :: ws) = ackedCount (w :: ws) := by
  cases hw : w.acked with
  | true =>
    rw [hw] at h
    rw [unacked_of_acked h, unacked_of_acked hw]
    exact ⟨rfl, by simp [ackedCount, h, hw]⟩
  | false =>
    rw [hw] at h
    rw [unacked_of_not_acked h, unacked_of_not_acked hw]
    exact ⟨rfl, by simp [ackedCount, h, hw]⟩

/-! ## Datagrams -/

theorem countRejected_dwAckRcv (m : MeasDw) (error : JitError) :
    (m.countRejected error).dwAckRcv = m.dwAckRcv := by
  cases error <;> rfl

/-- A `PULL_RESP` changes nothing about the acknowledgements. -/
theorem onPullResp_sameAcks (env : DownEnv) (g : Gateway) (time : Timeval) (buff : List U8) :
    SameAcks g (onPullResp env g time buff).gateway := by
  unfold onPullResp
  split
  · exact ⟨rfl, rfl, rfl, rfl, rfl⟩
  · exact ⟨rfl, rfl, rfl, rfl, countRejected_dwAckRcv _ _⟩
  · exact ⟨rfl, rfl, rfl, rfl, rfl⟩
  · unfold onRequest
    dsimp only
    split
    · exact ⟨rfl, rfl, rfl, rfl, countRejected_dwAckRcv _ _⟩
    · exact ⟨rfl, rfl, rfl, rfl, countRejected_dwAckRcv _ _⟩

/-- **What a datagram acknowledges.**  The first `PULL_ACK` with the token resets the counter;
nothing else changes anything. -/
theorem onDatagram_acks (env : DownEnv) (g : Gateway) (time : Timeval) (buff : List U8) :
    (IsAckOf g.tokenH g.tokenL buff ∧ g.reqAck = false ∧
      (onDatagram env g time buff).gateway =
        { g with
          reqAck := true
          autoquitCnt := 0
          measDw := { g.measDw with dwAckRcv := g.measDw.dwAckRcv + 1 } }) ∨
      ((IsAckOf g.tokenH g.tokenL buff → g.reqAck = true) ∧
        SameAcks g (onDatagram env g time buff).gateway) := by
  unfold onDatagram
  split
  · rename_i hack
    unfold onPullAck
    split
    · rename_i hnew
      exact .inl ⟨⟨hack, hnew.1, hnew.2.1⟩, hnew.2.2, rfl⟩
    · rename_i hold
      refine .inr ⟨fun h => ?_, ⟨rfl, rfl, rfl, rfl, rfl⟩⟩
      by_contra hreq
      exact hold ⟨h.2.1, h.2.2, by simpa using hreq⟩
  · rename_i hack
    refine .inr ⟨fun h => absurd h.1 hack, ?_⟩
    split
    · exact onPullResp_sameAcks env g time buff
    · exact ⟨rfl, rfl, rfl, rfl, rfl⟩

/-! ## The invariant -/

/-- The latest window is the one whose token is waited for, and `req_ack` tells whether it is
acknowledged. -/
def Current (g : Gateway) (ws : List Window) : Prop :=
  ∃ w rest, ws = w :: rest ∧ w.tokenH = g.tokenH ∧ w.tokenL = g.tokenL ∧ w.acked = g.reqAck

theorem Current.of_sameAcks {g g' : Gateway} (hs : SameAcks g g') {ws : List Window}
    (h : Current g ws) : Current g' ws := by
  obtain ⟨w, rest, hws, hh, hl, hreq⟩ := h
  exact ⟨w, rest, hws, hh.trans hs.tokenH.symm, hl.trans hs.tokenL.symm,
    hreq.trans hs.reqAck.symm⟩

/-- **The invariant.**  The counters are what the windows say; `acks` and `sent` are the values
that the statistics had at the start. -/
structure KeepaliveInv (autoquitThreshold acks sent : U32) (s : DownLoop) : Prop where
  current : s.pc = .listening → Current s.gateway s.windows
  counter : s.gateway.autoquitCnt = BitVec.ofNat 32 (unacked s.windows)
  bounded : 0 < autoquitThreshold → unacked s.windows ≤ autoquitThreshold.toNat
  acks : s.reportedAcks + s.gateway.measDw.dwAckRcv =
    acks + BitVec.ofNat 32 (ackedCount s.windows)
  sent : s.reportedSent + s.measDwPullSent = sent + BitVec.ofNat 32 s.windows.length

variable {autoquitThreshold acks sent : U32} {s s' : DownLoop}

theorem keepaliveInv_start (g : Gateway) (measDwPullSent : U32) :
    KeepaliveInv autoquitThreshold g.measDw.dwAckRcv measDwPullSent
      (downLoopStart g measDwPullSent) where
  current h := by cases h
  counter := rfl
  bounded _ := Nat.zero_le _
  acks := BitVec.add_comm _ _
  sent := BitVec.add_comm _ _

/-- With a threshold the counter cannot wrap. -/
theorem KeepaliveInv.toNat_autoquitCnt (h : KeepaliveInv autoquitThreshold acks sent s)
    (hpos : 0 < autoquitThreshold) : s.gateway.autoquitCnt.toNat = unacked s.windows := by
  rw [h.counter, BitVec.toNat_ofNat]
  exact Nat.mod_eq_of_lt ((h.bounded hpos).trans_lt autoquitThreshold.isLt)

/-- The threshold is reached by the counter when it is by the number. -/
theorem KeepaliveInv.reached_iff (h : KeepaliveInv autoquitThreshold acks sent s) :
    (0 < autoquitThreshold ∧ autoquitThreshold ≤ s.gateway.autoquitCnt) ↔
      0 < autoquitThreshold ∧ autoquitThreshold.toNat ≤ unacked s.windows := by
  refine and_congr_right fun hpos => ?_
  rw [BitVec.le_def, h.toNat_autoquitCnt hpos]

theorem KeepaliveInv.loopHead (h : KeepaliveInv autoquitThreshold acks sent s)
    (tokenH tokenL : U8) :
    KeepaliveInv autoquitThreshold acks sent (loopHead autoquitThreshold s tokenH tokenL) := by
  unfold PacketForwarder.loopHead
  split_ifs with hflags hreached
  · exact ⟨(fun hpc => by cases hpc), h.counter, h.bounded, h.acks, h.sent⟩
  · exact ⟨(fun hpc => by cases hpc), h.counter, h.bounded, h.acks, h.sent⟩
  · have hfresh : (⟨tokenH, tokenL, []⟩ : Window).acked = false := rfl
    have hbelow := mt h.reached_iff.mpr hreached
    refine ⟨fun _ => ⟨_, _, rfl, rfl, rfl, rfl⟩, ?_, fun hpos => ?_, ?_, ?_⟩
    · rw [unacked_of_not_acked hfresh, BitVec.ofNat_add, ← h.counter]
      rfl
    · rw [unacked_of_not_acked hfresh]
      exact Nat.lt_of_not_le fun hle => hbelow ⟨hpos, hle⟩
    · rw [ackedCount, List.countP_cons_of_neg (by simp [hfresh])]
      exact h.acks
    · calc s.reportedSent + (s.measDwPullSent + 1)
          = s.reportedSent + s.measDwPullSent + 1 := (BitVec.add_assoc _ _ _).symm
        _ = sent + BitVec.ofNat 32 s.windows.length + 1 := by rw [h.sent]
        _ = sent + BitVec.ofNat 32 (s.windows.length + 1) := by
          rw [BitVec.ofNat_add, BitVec.add_assoc]
          rfl

/-- Whatever is received, the counters stay right. -/
theorem KeepaliveInv.datagram (h : KeepaliveInv autoquitThreshold acks sent s)
    (hpc : s.pc = .listening) (elapsed : ℤ) (time : Timeval) (buff : List U8) (pc : DownLoopPc) :
    KeepaliveInv autoquitThreshold acks sent
      { s with
        gateway := (onDatagram env s.gateway time buff).gateway
        elapsed := elapsed
        pc := pc
        windows := record buff s.windows } := by
  obtain ⟨w, rest, hws, hh, hl, hreq⟩ := h.current hpc
  have hacked := acked_received w buff
  rw [hh, hl, hreq] at hacked
  have hlength : (record buff s.windows).length = s.windows.length := by
    rw [hws]
    rfl
  have hsent : s.reportedSent + s.measDwPullSent =
      sent + BitVec.ofNat 32 (record buff s.windows).length := by
    rw [hlength]
    exact h.sent
  rcases onDatagram_acks env s.gateway time buff with ⟨hack, hnew, hgateway⟩ | ⟨hold, hsame⟩
  · -- The first acknowledgement of this window.
    rw [decide_eq_true hack, Bool.true_or] at hacked
    rw [hnew] at hreq
    have hcount : ackedCount (record buff s.windows) = ackedCount s.windows + 1 := by
      rw [hws]
      simp [record, ackedCount, hacked, hreq]
    have hzero : unacked (record buff s.windows) = 0 := by
      rw [hws]
      exact unacked_of_acked hacked rest
    refine ⟨fun _ => ?_, ?_, fun _ => ?_, ?_, hsent⟩
    · rw [hgateway, hws]
      exact ⟨_, rest, rfl, hh, hl, hacked⟩
    · rw [hgateway, hzero]
      rfl
    · rw [hzero]
      exact Nat.zero_le _
    · rw [hgateway, hcount]
      calc s.reportedAcks + (s.gateway.measDw.dwAckRcv + 1)
          = s.reportedAcks + s.gateway.measDw.dwAckRcv + 1 := (BitVec.add_assoc _ _ _).symm
        _ = acks + BitVec.ofNat 32 (ackedCount s.windows) + 1 := by rw [h.acks]
        _ = acks + BitVec.ofNat 32 (ackedCount s.windows + 1) := by
          rw [BitVec.ofNat_add, BitVec.add_assoc]
          rfl
  · -- No acknowledgement, or another one.
    have hkept : (w.receive buff).acked = w.acked := by
      rw [hacked, hreq]
      by_cases hack : IsAckOf s.gateway.tokenH s.gateway.tokenL buff
      · rw [hold hack, Bool.or_true]
      · rw [decide_eq_false hack, Bool.false_or]
    obtain ⟨hunacked, hcount⟩ := unacked_congr hkept rest
    have hrecord : record buff s.windows = w.receive buff :: rest := by
      rw [hws]
      rfl
    refine ⟨fun _ => ?_, ?_, fun hpos => ?_, ?_, hsent⟩
    · rw [hrecord]
      exact Current.of_sameAcks hsame ⟨_, rest, rfl, hh, hl, hkept.trans hreq⟩
    · rw [hsame.autoquitCnt, hrecord, hunacked, ← hws]
      exact h.counter
    · rw [hrecord, hunacked, ← hws]
      exact h.bounded hpos
    · rw [hsame.dwAckRcv, hrecord, hcount, ← hws]
      exact h.acks

/-- **Every step keeps the invariant.** -/
theorem KeepaliveInv.step {keepaliveTime : ℤ} {e : DownLoopEvent}
    (h : KeepaliveInv autoquitThreshold acks sent s)
    (hst : DownLoopStep env keepaliveTime autoquitThreshold s e s') :
    KeepaliveInv autoquitThreshold acks sent s' := by
  cases hst with
  | head hpc => exact h.loopHead _ _
  | listen hpc =>
    unfold PacketForwarder.listen
    split_ifs
    · split
      · exact ⟨h.current, h.counter, h.bounded, h.acks, h.sent⟩
      · exact h.datagram hpc _ _ _ _
    · exact ⟨(fun hhead => by cases hhead), h.counter, h.bounded, h.acks, h.sent⟩
  | signal => exact ⟨h.current, h.counter, h.bounded, h.acks, h.sent⟩
  | report =>
    refine ⟨fun hpc => ?_, h.counter, h.bounded, ?_, ?_⟩
    · obtain ⟨w, rest, hws, hh, hl, hreq⟩ := h.current hpc
      exact ⟨w, rest, hws, hh, hl, hreq⟩
    · rw [← h.acks]
      exact BitVec.add_zero _
    · rw [← h.sent]
      exact BitVec.add_zero _
  | other hsame =>
    refine ⟨fun hpc => (h.current hpc).of_sameAcks hsame, ?_, h.bounded, ?_, h.sent⟩
    · rw [hsame.autoquitCnt]
      exact h.counter
    · rw [hsame.dwAckRcv]
      exact h.acks

/-- **The counter and the windows.**  In every state of every run the counter is, in 32 bits,
the number of `PULL_DATA` sent since one was acknowledged in its own window; it is that number
if there is a threshold.  At most one acknowledgement is counted for each: what the main thread
has taken and what is left add up to the number of windows, or of acknowledged ones, and the
value at the start.  The head of the loop sets `exit_sig` exactly when there is a threshold and
the number has reached it. -/
theorem autoquitCnt_eq (env : DownEnv) (keepaliveTime : ℤ) (autoquitThreshold : U32)
    (g : Gateway) (measDwPullSent : U32) {s : DownLoop}
    (hr : Runs.Reaches (DownLoopStep env keepaliveTime autoquitThreshold) Runs.anyStep
      (downLoopStart g measDwPullSent) s) :
    s.gateway.autoquitCnt = BitVec.ofNat 32 (unacked s.windows) ∧
      (0 < autoquitThreshold → s.gateway.autoquitCnt.toNat = unacked s.windows) ∧
      s.reportedAcks + s.gateway.measDw.dwAckRcv =
        g.measDw.dwAckRcv + BitVec.ofNat 32 (ackedCount s.windows) ∧
      ackedCount s.windows ≤ s.windows.length ∧
      s.reportedSent + s.measDwPullSent =
        measDwPullSent + BitVec.ofNat 32 s.windows.length ∧
      (s.pc = .head → s.exitSig = false → s.quitSig = false → ∀ tokenH tokenL,
        (loopHead autoquitThreshold s tokenH tokenL).exitSig = true ↔
          0 < autoquitThreshold ∧ autoquitThreshold.toNat ≤ unacked s.windows) := by
  have hi : KeepaliveInv autoquitThreshold g.measDw.dwAckRcv measDwPullSent s :=
    hr.invariant (keepaliveInv_start g measDwPullSent) fun _ _ _ _ hi _ hst => hi.step hst
  refine ⟨hi.counter, hi.toNat_autoquitCnt, hi.acks, List.countP_le_length, hi.sent, ?_⟩
  intro _ hexit hquit tokenH tokenL
  rw [← hi.reached_iff]
  unfold loopHead
  rw [if_neg (by simp [hexit, hquit])]
  split_ifs with hreached
  · exact ⟨fun _ => hreached, fun _ => rfl⟩
  · exact ⟨fun h => absurd (hexit.symm.trans h) (by decide), fun h => absurd h hreached⟩

/-- The first `PULL_DATA` after a `start()` that has left a count of 7 behind, acknowledged in
its window. -/
theorem autoquitCnt_eq_acknowledged :
    let s := listen .reference 5 (loopHead 2 (downLoopStart .reference 7) 18 52)
      (some [2, 18, 52, 4]) 0 (instant 0)
    s.gateway.autoquitCnt = BitVec.ofNat 32 (unacked s.windows) ∧
      (0 < (2 : U32) → s.gateway.autoquitCnt.toNat = unacked s.windows) ∧
      s.reportedAcks + s.gateway.measDw.dwAckRcv =
        Gateway.reference.measDw.dwAckRcv + BitVec.ofNat 32 (ackedCount s.windows) ∧
      ackedCount s.windows ≤ s.windows.length ∧
      s.reportedSent + s.measDwPullSent = 7 + BitVec.ofNat 32 s.windows.length ∧
      (s.pc = .head → s.exitSig = false → s.quitSig = false → ∀ tokenH tokenL,
        (loopHead 2 s tokenH tokenL).exitSig = true ↔
          0 < (2 : U32) ∧ (2 : U32).toNat ≤ unacked s.windows) :=
  autoquitCnt_eq .reference 5 2 .reference 7
    (.next (.next .start trivial (.head rfl)) trivial (.listen rfl))

/-- Without a threshold and without an answer, any number of `PULL_DATA` is sent. -/
theorem exists_unacked (env : DownEnv) (g : Gateway) (n : ℕ) :
    ∃ s, Runs.Reaches (DownLoopStep env 0 0) Runs.anyStep (downLoopStart g 0) s ∧ s.pc = .head ∧
      s.exitSig = false ∧ s.quitSig = false ∧ unacked s.windows = n := by
  induction n with
  | zero => exact ⟨downLoopStart g 0, .start, rfl, rfl, rfl, rfl⟩
  | succ n ih =>
    obtain ⟨s, hr, hpc, hexit, hquit, hn⟩ := ih
    have hsend : loopHead 0 s 0 0 =
        { s with
          gateway := { s.gateway with
            tokenH := 0
            tokenL := 0
            reqAck := false
            autoquitCnt := s.gateway.autoquitCnt + 1 }
          pc := .listening
          elapsed := 0
          measDwPullSent := s.measDwPullSent + 1
          windows := ⟨0, 0, []⟩ :: s.windows } := by
      unfold loopHead
      rw [if_neg (by simp [hexit, hquit]), if_neg (by simp)]
    have hexpire : listen env 0 (loopHead 0 s 0 0) none 0 (instant 0) =
        { loopHead 0 s 0 0 with pc := .head } := by
      rw [hsend]
      exact if_neg (by simp)
    refine ⟨listen env 0 (loopHead 0 s 0 0) none 0 (instant 0),
      .next (.next hr trivial (.head hpc)) trivial (.listen ?_), ?_⟩
    · rw [hsend]
    · rw [hexpire, hsend]
      refine ⟨rfl, hexit, hquit, ?_⟩
      rw [unacked_of_not_acked rfl, hn]

/-- After 2 ^ 32 of them the counter is zero again. -/
theorem autoquitCnt_wraps :
    ¬ ∀ (env : DownEnv) (keepaliveTime : ℤ) (autoquitThreshold : U32) (g : Gateway)
      (s : DownLoop),
      Runs.Reaches (DownLoopStep env keepaliveTime autoquitThreshold) Runs.anyStep
        (downLoopStart g 0) s → s.pc = .head →
        s.gateway.autoquitCnt.toNat = unacked s.windows := by
  intro h
  obtain ⟨s, hr, hpc, -, -, hn⟩ := exists_unacked .reference .reference (2 ^ 32)
  have heq := h .reference 0 0 .reference s hr hpc
  rw [hn] at heq
  exact absurd s.gateway.autoquitCnt.isLt heq.not_lt

end PacketForwarder
