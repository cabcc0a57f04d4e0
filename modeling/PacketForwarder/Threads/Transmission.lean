import PacketForwarder.JitQueue.Reference

/-!
# What becomes of a packet taken out of the queue

`thread_jit` takes a packet out of the queue, counts it if it is a beacon, asks the
concentrator for its state, hands the packet over and counts the outcome.  The steps
here are its critical sections, in any order with those of the others: what they do
to the queue is an input, and so are the answers of `lgw_status` and `lgw_send`.
Whenever it likes, `main` copies the counters and sets them to 0.

* `TxThread.Step` — the body of the loop, with every way out of it;
* `TxThread.Balance` — the invariant: what was taken out has been handed over, or was
  dropped because the concentrator was emitting, or is still at hand, and the
  counters count what was handed over and the beacons dropped;
* `jit_packets_accounted` — as long as the concentrator is never found emitting, every
  packet is handed over and counted once;
* `beacon_dropped_while_emitting` — otherwise it is not: `continue` leaves the loop body
  with the packet neither sent nor counted as failed.
-/

namespace PacketForwarder

variable {env : JitEnv}

/-! ## The thread -/

/-- `tx_status`. -/
inductive TxStatus
  | off
  | free
  | emitting
  | scheduled
  | unknown (status : U8)
  deriving DecidableEq, Repr

/-- A packet that `jit_dequeue` handed out. -/
structure Dequeued where
  pkt : LgwPktTx
  pktType : JitPktType
  deriving DecidableEq

/-- A call of `lgw_send`, with what was dequeued for it. -/
structure Sent where
  /-- The packet as it was taken out of the queue. -/
  dequeued : Dequeued
  /-- The packet passed to `lgw_send`: a beacon's frequency has been corrected. -/
  pkt : LgwPktTx
  /-- Whether `lgw_send` has returned anything but `LGW_HAL_ERROR`. -/
  ok : Bool
  deriving DecidableEq

/-- Where `thread_jit` is, between two steps. -/
inductive TxPc
  /-- The thread is at the head of its loop. -/
  | idle
  /-- In `jit_peek`, the queue having been found not empty. -/
  | peekTested
  /-- `jit_peek` has returned an index, which is about to be dequeued. -/
  | selected (pktIndex : ℤ)
  /-- In `jit_dequeue` of that index, the queue having been found not empty. -/
  | dequeueTested (pktIndex : ℕ)
  /-- `jit_dequeue` has returned a packet, which is not counted yet. -/
  | dequeued (d : Dequeued)
  /-- About to ask for the concentrator's state; a beacon has been counted. -/
  | checking (d : Dequeued) (pkt : LgwPktTx)
  /-- The thread is about to call `lgw_send`. -/
  | sending (d : Dequeued) (pkt : LgwPktTx)
  /-- `lgw_send` has returned, and its result is not counted yet. -/
  | sent (x : Sent)
  deriving DecidableEq

/-- The counters that `thread_jit` updates. -/
structure TxCounters where
  /-- `meas_nb_tx_ok`. -/
  nbTxOk : U32
  /-- `meas_nb_tx_fail`. -/
  nbTxFail : U32
  /-- `meas_nb_beacon_sent`. -/
  nbBeaconSent : U32
  deriving DecidableEq, Repr

namespace TxCounters

def zero : TxCounters := ⟨0, 0, 0⟩

def add (a b : TxCounters) : TxCounters :=
  ⟨a.nbTxOk + b.nbTxOk, a.nbTxFail + b.nbTxFail, a.nbBeaconSent + b.nbBeaconSent⟩

/-- `meas_nb_beacon_sent += 1` for a beacon. -/
def countBeacon (c : TxCounters) (pktType : JitPktType) : TxCounters :=
  if pktType = .beacon then { c with nbBeaconSent := c.nbBeaconSent + 1 } else c

/-- `meas_nb_tx_ok += 1`, or `meas_nb_tx_fail += 1`. -/
def countSent (c : TxCounters) (ok : Bool) : TxCounters :=
  if ok then { c with nbTxOk := c.nbTxOk + 1 } else { c with nbTxFail := c.nbTxFail + 1 }

@[simp] theorem add_zero (a : TxCounters) : a.add zero = a := by
  simp [add, zero]

@[simp] theorem countBeacon_nbTxOk (c : TxCounters) (t : JitPktType) :
    (c.countBeacon t).nbTxOk = c.nbTxOk := by
  unfold countBeacon
  split <;> rfl

@[simp] theorem countBeacon_nbTxFail (c : TxCounters) (t : JitPktType) :
    (c.countBeacon t).nbTxFail = c.nbTxFail := by
  unfold countBeacon
  split <;> rfl

theorem countBeacon_nbBeaconSent (c : TxCounters) (t : JitPktType) :
    (c.countBeacon t).nbBeaconSent = c.nbBeaconSent + if t = .beacon then 1 else 0 := by
  unfold countBeacon
  split <;> simp

theorem countSent_nbTxOk (c : TxCounters) (ok : Bool) :
    (c.countSent ok).nbTxOk = c.nbTxOk + if ok = true then 1 else 0 := by
  unfold countSent
  split <;> simp

theorem countSent_nbTxFail (c : TxCounters) (ok : Bool) :
    (c.countSent ok).nbTxFail = c.nbTxFail + if ok = true then 0 else 1 := by
  unfold countSent
  split <;> simp

@[simp] theorem countSent_nbBeaconSent (c : TxCounters) (ok : Bool) :
    (c.countSent ok).nbBeaconSent = c.nbBeaconSent := by
  unfold countSent
  split <;> rfl

end TxCounters

/-- The thread, the queue and the counters. -/
structure TxThread where
  queue : JitQueue
  pc : TxPc
  meas : TxCounters
  /-- The sum of the copies `main` has taken. -/
  copied : TxCounters
  /-- For the statements: what `jit_dequeue` has handed out so far. -/
  taken : List Dequeued
  /-- For the statements: the calls of `lgw_send` so far. -/
  passed : List Sent
  /-- For the statements: what was given up with the concentrator emitting. -/
  dropped : List Dequeued

/-- The thread at its start, with nothing counted. -/
def TxThread.start (q : JitQueue) : TxThread := ⟨q, .idle, .zero, .zero, [], [], []⟩

/-- A step is labelled with what it takes from outside. -/
inductive TxLabel
  /-- Another thread changes the queue, to whatever it likes. -/
  | interfere (q : JitQueue)
  /-- `main` copies the counters and resets them. -/
  | copyAndReset
  | peekTest
  | peek (time : Timeval)
  | dequeueTest
  | dequeue
  /-- The beacon's statistics; `freqHz` is the frequency corrected by `xtal_correct`. -/
  | countBeacon (freqHz : U32)
  /-- `lgw_status`; `none` if it returns `LGW_HAL_ERROR`. -/
  | status (txStatus : Option TxStatus)
  /-- `lgw_send`, and whether it returns anything but `LGW_HAL_ERROR`. -/
  | send (ok : Bool)
  | countSent

/-- The packet for `lgw_send`: `pkt.freq_hz` is corrected for a beacon. -/
def Dequeued.corrected (d : Dequeued) (freqHz : U32) : LgwPktTx :=
  if d.pktType = .beacon then { d.pkt with freqHz := freqHz } else d.pkt

namespace TxThread

/-- The steps of `thread_jit`, and what the others do meanwhile. -/
inductive Step (env : JitEnv) : TxThread → TxLabel → TxThread → Prop
  | interfere {s : TxThread} {q : JitQueue} : Step env s (.interfere q) { s with queue := q }
  | copyAndReset {s : TxThread} :
    Step env s .copyAndReset { s with meas := .zero, copied := s.copied.add s.meas }
  /-- `JIT_ERROR_EMPTY`. -/
  | peekEmpty {s : TxThread} (hpc : s.pc = .idle) (he : jitQueueIsEmpty s.queue = true) :
    Step env s .peekTest s
  | peekTest {s : TxThread} (hpc : s.pc = .idle) (he : jitQueueIsEmpty s.queue = false) :
    Step env s .peekTest { s with pc := .peekTested }
  /-- Nothing to send yet: `pkt_index` is not above -1. -/
  | peekNone {s : TxThread} {time : Timeval} {k : ℤ} (hpc : s.pc = .peekTested)
    (hk : (jitPeekLocked env s.queue time).pktIdx = some k) (hneg : ¬-1 < k) :
    Step env s (.peek time)
      { s with queue := (jitPeekLocked env s.queue time).queue, pc := .idle }
  | peek {s : TxThread} {time : Timeval} {k : ℤ} (hpc : s.pc = .peekTested)
    (hk : (jitPeekLocked env s.queue time).pktIdx = some k) (hpos : -1 < k) :
    Step env s (.peek time)
      { s with queue := (jitPeekLocked env s.queue time).queue, pc := .selected k }
  /-- `jit_dequeue` refuses the index, or finds the queue empty. -/
  | dequeueRefused {s : TxThread} {k : ℤ} (hpc : s.pc = .selected k)
    (hr : k < 0 ∨ jitQueueMax ≤ k ∨ jitQueueIsEmpty s.queue = true) :
    Step env s .dequeueTest { s with pc := .idle }
  | dequeueTest {s : TxThread} {k : ℕ} (hpc : s.pc = .selected k) (hk : k < jitQueueMax)
    (he : jitQueueIsEmpty s.queue = false) :
    Step env s .dequeueTest { s with pc := .dequeueTested k }
  | dequeue {s : TxThread} {k : ℕ} {d : Dequeued} (hpc : s.pc = .dequeueTested k)
    (hd : (jitDequeueLocked env s.queue k).out = some (d.pkt, d.pktType)) :
    Step env s .dequeue
      { s with
        queue := (jitDequeueLocked env s.queue k).queue
        pc := .dequeued d
        taken := s.taken ++ [d] }
  /-- For a beacon `meas_nb_beacon_sent += 1`, before the concentrator is asked. -/
  | countBeacon {s : TxThread} {d : Dequeued} {freqHz : U32} (hpc : s.pc = .dequeued d) :
    Step env s (.countBeacon freqHz)
      { s with
        pc := .checking d (d.corrected freqHz)
        meas := s.meas.countBeacon d.pktType }
  /-- The concentrator is emitting: the packet is dropped with `continue`. -/
  | emitting {s : TxThread} {d : Dequeued} {pkt : LgwPktTx} (hpc : s.pc = .checking d pkt) :
    Step env s (.status (some .emitting))
      { s with pc := .idle, dropped := s.dropped ++ [d] }
  /-- `lgw_status` failed, or there is nothing on the air; a scheduled packet is overwritten. -/
  | free {s : TxThread} {d : Dequeued} {pkt : LgwPktTx} {txStatus : Option TxStatus}
    (hpc : s.pc = .checking d pkt) (hne : txStatus ≠ some .emitting) :
    Step env s (.status txStatus) { s with pc := .sending d pkt }
  | send {s : TxThread} {d : Dequeued} {pkt : LgwPktTx} {ok : Bool}
    (hpc : s.pc = .sending d pkt) :
    Step env s (.send ok)
      { s with pc := .sent ⟨d, pkt, ok⟩, passed := s.passed ++ [⟨d, pkt, ok⟩] }
  | countSent {s : TxThread} {x : Sent} (hpc : s.pc = .sent x) :
    Step env s .countSent
      { s with pc := .idle, meas := s.meas.countSent x.ok }

/-! ## The balance -/

/-- The packet `thread_jit` has at hand, not yet passed to `lgw_send`. -/
def atHand (s : TxThread) : List Dequeued :=
  match s.pc with
  | .dequeued d | .checking d _ | .sending d _ => [d]
  | _ => []

/-- The beacons among packets at hand that have been counted. -/
def countedAtHand (s : TxThread) : List Dequeued :=
  match s.pc with
  | .checking d _ | .sending d _ => [d]
  | _ => []

/-- The call of `lgw_send` whose outcome has not been counted yet. -/
def uncounted (s : TxThread) : List Sent :=
  match s.pc with
  | .sent x => [x]
  | _ => []

/-- What was counted since the start, also in the intervals `main` has reported. -/
def total (s : TxThread) : TxCounters := s.copied.add s.meas

/-- How many of the packets are beacons. -/
def beacons (l : List Dequeued) : ℕ := l.countP fun d => d.pktType = .beacon

/-- How many of the calls have the given outcome. -/
def outcomes (ok : Bool) (l : List Sent) : ℕ := l.countP fun x => x.ok = ok

/-- The invariant: every packet taken out is in one place, and the counters agree. -/
structure Balance (s : TxThread) : Prop where
  places : s.taken.Perm (s.passed.map Sent.dequeued ++ s.dropped ++ s.atHand)
  /-- Only a beacon's frequency has changed on the way. -/
  same : ∀ x ∈ s.passed, ∃ freqHz, x.pkt = x.dequeued.corrected freqHz
  sameAtHand : ∀ d pkt, s.pc = .checking d pkt ∨ s.pc = .sending d pkt →
    ∃ freqHz, pkt = d.corrected freqHz
  ok : s.total.nbTxOk + BitVec.ofNat 32 (outcomes true s.uncounted) =
    BitVec.ofNat 32 (outcomes true s.passed)
  fail : s.total.nbTxFail + BitVec.ofNat 32 (outcomes false s.uncounted) =
    BitVec.ofNat 32 (outcomes false s.passed)
  beacon : s.total.nbBeaconSent = BitVec.ofNat 32
    (beacons (s.passed.map Sent.dequeued ++ s.dropped ++ s.countedAtHand))

theorem balance_start (q : JitQueue) : (start q).Balance := by
  refine ⟨?_, ?_, ?_, ?_, ?_, ?_⟩
  all_goals simp [start, atHand, uncounted, countedAtHand, total, TxCounters.add, TxCounters.zero,
    outcomes, beacons]

theorem outcomes_append (ok : Bool) (l : List Sent) (x : Sent) :
    outcomes ok (l ++ [x]) = outcomes ok l + outcomes ok [x] := by
  simp [outcomes]

theorem beacons_append (l l' : List Dequeued) : beacons (l ++ l') = beacons l + beacons l' := by
  simp [beacons]

/-- **One step** moves a packet from one place to the next and counts accordingly. -/
theorem Balance.step {s s' : TxThread} {l : TxLabel} (h : s.Balance) (hs : Step env s l s') :
    s'.Balance := by
  obtain ⟨hplaces, hsame, hhand, hok, hfail, hbeacon⟩ := h
  cases hs with
  | interfere => exact ⟨hplaces, hsame, hhand, hok, hfail, hbeacon⟩
  | copyAndReset =>
    refine ⟨hplaces, hsame, hhand, ?_, ?_, ?_⟩
    all_goals unfold total; dsimp only; rw [TxCounters.add_zero]
    · exact hok
    · exact hfail
    · exact hbeacon
  | peekEmpty => exact ⟨hplaces, hsame, hhand, hok, hfail, hbeacon⟩
  | peekTest hpc | peekNone hpc | peek hpc | dequeueRefused hpc | dequeueTest hpc =>
    simp only [atHand, countedAtHand, uncounted, hpc] at hplaces hok hfail hbeacon
    exact ⟨hplaces, hsame, by simp, hok, hfail, hbeacon⟩
  | @dequeue _ d hpc =>
    simp only [atHand, countedAtHand, uncounted, hpc, List.append_nil] at hplaces hok hfail hbeacon
    refine ⟨hplaces.append_right [d], hsame, by simp, hok, hfail, ?_⟩
    rw [countedAtHand, List.append_nil]
    exact hbeacon
  | @countBeacon d freqHz hpc =>
    simp only [atHand, countedAtHand, uncounted, hpc, List.append_nil] at hplaces hok hfail hbeacon
    refine ⟨hplaces, hsame, ?_, ?_, ?_, ?_⟩
    · rintro d' pkt (heq | heq)
      · cases heq
        exact ⟨freqHz, rfl⟩
      · cases heq
    · simpa [total, TxCounters.add, uncounted] using hok
    · simpa [total, TxCounters.add, uncounted] using hfail
    · rw [countedAtHand, beacons_append, BitVec.ofNat_add, ← hbeacon]
      simp only [total, TxCounters.add, TxCounters.countBeacon_nbBeaconSent, BitVec.add_assoc]
      by_cases ht : d.pktType = .beacon <;> simp [ht, beacons]
  | @emitting d pkt hpc =>
    simp only [atHand, countedAtHand, uncounted, hpc, List.append_assoc]
      at hplaces hok hfail hbeacon
    refine ⟨?_, hsame, by simp, hok, hfail, ?_⟩
    · rw [atHand, List.append_nil]
      exact hplaces
    · rw [countedAtHand, List.append_nil]
      exact hbeacon
  | @free d pkt txStatus hpc =>
    simp only [atHand, countedAtHand, uncounted, hpc] at hplaces hok hfail hbeacon
    refine ⟨hplaces, hsame, ?_, hok, hfail, hbeacon⟩
    rintro d' pkt' (heq | heq)
    · cases heq
    · cases heq
      exact hhand d pkt (.inl hpc)
  | @send d pkt ok hpc =>
    simp only [atHand, countedAtHand, uncounted, hpc] at hplaces hok hfail hbeacon
    -- The packet goes from the hand to those that were passed on.
    have hperm : (s.passed.map Sent.dequeued ++ s.dropped ++ [d]).Perm
        ((s.passed ++ [Sent.mk d pkt ok]).map Sent.dequeued ++ s.dropped ++ []) := by
      rw [List.map_append, List.append_nil, List.append_assoc, List.append_assoc]
      exact List.perm_append_comm.append_left _
    refine ⟨hplaces.trans hperm, ?_, by simp, ?_, ?_, ?_⟩
    · intro x hx
      rcases List.mem_append.mp hx with hx | hx
      · exact hsame x hx
      · rw [List.mem_singleton] at hx
        subst hx
        exact hhand d pkt (.inr hpc)
    · rw [outcomes_append, BitVec.ofNat_add, ← hok]
      simp [uncounted, total, outcomes]
    · rw [outcomes_append, BitVec.ofNat_add, ← hfail]
      simp [uncounted, total, outcomes]
    · exact hbeacon.trans (congrArg _ (hperm.countP_eq _))
  | @countSent x hpc =>
    simp only [atHand, countedAtHand, uncounted, hpc] at hplaces hok hfail hbeacon
    refine ⟨hplaces, hsame, by simp, ?_, ?_, ?_⟩
    · rw [← hok]
      simp only [total, TxCounters.add, TxCounters.countSent_nbTxOk, BitVec.add_assoc]
      cases hx : x.ok <;> simp [outcomes, uncounted, hx]
    · rw [← hfail]
      simp only [total, TxCounters.add, TxCounters.countSent_nbTxFail, BitVec.add_assoc]
      cases hx : x.ok <;> simp [outcomes, uncounted, hx]
    · simpa [total, TxCounters.add, countedAtHand] using hbeacon

/-- **The balance holds in every run**, whatever the other threads do to the queue. -/
theorem balance_of_reaches {ok : TxThread → TxLabel → Prop} {q : JitQueue} {s : TxThread}
    (h : Runs.Reaches (Step env) ok (start q) s) : s.Balance :=
  h.invariant (balance_start q) fun _ _ _ _ hb _ hs => hb.step hs

/-! ## What the statistics are worth -/

/-- **Every packet taken out is accounted for once**: it is passed to `lgw_send` (a beacon with
its frequency corrected), whose outcome is counted, unless the thread still has it at
hand; and the beacons counted are those passed to `lgw_send`, or about to be. -/
structure Accounted (s : TxThread) : Prop where
  once : s.taken.Perm (s.passed.map Sent.dequeued ++ s.atHand)
  same : ∀ x ∈ s.passed, ∃ freqHz, x.pkt = x.dequeued.corrected freqHz
  ok : s.total.nbTxOk + BitVec.ofNat 32 (outcomes true s.uncounted) =
    BitVec.ofNat 32 (outcomes true s.passed)
  fail : s.total.nbTxFail + BitVec.ofNat 32 (outcomes false s.uncounted) =
    BitVec.ofNat 32 (outcomes false s.passed)
  beacon : s.total.nbBeaconSent =
    BitVec.ofNat 32 (beacons (s.passed.map Sent.dequeued ++ s.countedAtHand))

/-- What was not dropped is accounted for. -/
theorem Balance.accounted {s : TxThread} (h : s.Balance) (hnone : s.dropped = []) :
    s.Accounted := by
  obtain ⟨hplaces, hsame, -, hok, hfail, hbeacon⟩ := h
  rw [hnone, List.append_nil] at hplaces hbeacon
  exact ⟨hplaces, hsame, hok, hfail, hbeacon⟩

/-- Once a packet has been dropped, not every packet is accounted for. -/
theorem Balance.not_accounted {s : TxThread} (h : s.Balance) (hsome : s.dropped ≠ []) :
    ¬s.Accounted := by
  intro hacc
  have hlen := (h.places.symm.trans hacc.once).length_eq
  have hpos := List.length_pos_iff.mpr hsome
  simp only [List.length_append] at hlen
  omega

/-- The concentrator is not found emitting. -/
def NotEmitting (_ : TxThread) (l : TxLabel) : Prop := l ≠ .status (some .emitting)

/-- **As long as the concentrator is never found emitting, `thread_jit` accounts for every packet
it takes out of the queue.** -/
theorem jit_packets_accounted {q : JitQueue} {s : TxThread}
    (h : Runs.Reaches (Step env) NotEmitting (start q) s) : s.Accounted := by
  refine (balance_of_reaches h).accounted ?_
  refine h.invariant (I := fun s => s.dropped = []) rfl ?_
  intro s l s' _ hnone hfree hs
  cases hs with
  | emitting => exact absurd rfl hfree
  | _ => exact hnone

/-- A queue with one beacon, whose departure is at 5 s. -/
def oneBeacon : JitQueue :=
  jitRun .reference [.enqueue (instant 0) (some (packetAt 5000000)) .beacon]

/-- The thread has taken the beacon out 20 ms before its departure, and counted it. -/
def beaconChecked : TxThread where
  queue := (jitDequeueLocked .reference
    (jitPeekLocked .reference oneBeacon (instant 4980000)).queue 0).queue
  pc := .checking ⟨packetAt 5000000, .beacon⟩ (packetAt 5000000)
  meas := ⟨0, 0, 1⟩
  copied := .zero
  taken := [⟨packetAt 5000000, .beacon⟩]
  passed := []
  dropped := []

theorem reaches_beaconChecked {ok : TxThread → TxLabel → Prop}
    (hok : ∀ s l, NotEmitting s l → ok s l) :
    Runs.Reaches (Step .reference) ok (start oneBeacon) beaconChecked := by
  have hpeekTest : Runs.Reaches (Step .reference) ok (start oneBeacon)
      { start oneBeacon with pc := .peekTested } :=
    Runs.Reaches.start.next (hok _ _ (by simp [NotEmitting])) (.peekTest rfl (by decide +kernel))
  have hpeek := hpeekTest.next (hok _ (.peek (instant 4980000)) (by simp [NotEmitting]))
    (.peek (k := 0) rfl (by decide +kernel) (by decide))
  have htest := hpeek.next (hok _ .dequeueTest (by simp [NotEmitting]))
    (.dequeueTest (k := 0) rfl (by decide) (by decide +kernel))
  have hdequeue := htest.next (hok _ .dequeue (by simp [NotEmitting]))
    (.dequeue (d := ⟨packetAt 5000000, .beacon⟩) rfl (by decide +kernel))
  exact hdequeue.next (hok _ (.countBeacon (packetAt 5000000).freqHz) (by simp [NotEmitting]))
    (.countBeacon rfl)

/-- A beacon is sent with the concentrator free. -/
theorem jit_packets_accounted_one_beacon :
    ∃ s : TxThread, s.pc = .idle ∧ s.passed.length = 1 ∧ s.total = ⟨1, 0, 1⟩ ∧ s.Accounted := by
  have hrun := reaches_beaconChecked fun _ _ h => h
  have hfree := hrun.next (l := .status (some .free)) (by simp [NotEmitting])
    (.free rfl (by decide))
  have hsend := hfree.next (l := .send true) (by simp [NotEmitting]) (.send rfl)
  have hcount := hsend.next (l := .countSent) (by simp [NotEmitting]) (.countSent rfl)
  exact ⟨_, rfl, rfl, by decide, jit_packets_accounted hcount⟩

/-- **A beacon can be counted as sent and be lost.**  With the concentrator emitting, the loop
goes on with the next round: the beacon that was taken out is neither passed to `lgw_send`
nor counted as failed. -/
theorem beacon_dropped_while_emitting :
    ∃ s : TxThread, Runs.Reaches (Step .reference) Runs.anyStep (start oneBeacon) s ∧
      s.pc = .idle ∧ s.taken.length = 1 ∧ s.passed = [] ∧ s.total = ⟨0, 0, 1⟩ ∧
      ¬s.Accounted := by
  have hrun : Runs.Reaches (Step .reference) Runs.anyStep (start oneBeacon) beaconChecked :=
    reaches_beaconChecked fun _ _ _ => trivial
  have hlost := hrun.next trivial (.emitting rfl)
  exact ⟨_, hlost, rfl, rfl, rfl, by decide, (balance_of_reaches hlost).not_accounted (by simp)⟩

end TxThread

end PacketForwarder
