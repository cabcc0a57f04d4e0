import PacketForwarder.JitQueue.Reference

/-!
# The two threads on the queue

`thread_down` is the only one to enqueue, `thread_jit` the only one to peek and
dequeue.  The queue is protected by `mx_jit_queue`, but one call takes the lock
twice, first for the fullness or emptiness test and then for the operation, and
`thread_down` reads `num_beacon` without it.  The steps of `System.Step` are these
critical sections, in any order of the two threads; clock readings, packets and
the decisions the threads take between them are inputs.

* `System.Step` — the critical sections of both threads;
* `CountersOk` — the invariant that ties a test in one critical section to the use
  made of it in a later one;
* `counters_bounded` — in every interleaving the two counters stay within their
  bounds and never wrap, and `beacon_loop` never underflows.
-/

namespace PacketForwarder

open Circle

variable {env : JitEnv} {q : JitQueue}

/-! ## The system -/

/-- Where `thread_down` is, between two critical sections. -/
inductive DownPc
  /-- The thread is about to read `num_beacon`. -/
  | start
  /-- At the head of the loop over the beacons still to be queued. -/
  | beacons (beaconLoop : U8)
  /-- In `jit_enqueue` of a beacon, the queue having been found not full. -/
  | beaconTested (beaconLoop : U8)
  /-- After the loop; a datagram may bring a downlink. -/
  | downlink
  /-- In `jit_enqueue` of a downlink, the queue having been found not full. -/
  | downlinkTested

/-- Where `thread_jit` is, between two critical sections. -/
inductive JitPc
  /-- The thread is about to call `jit_peek`. -/
  | idle
  /-- In `jit_peek`, the queue having been found not empty. -/
  | peekTested
  /-- `jit_peek` has selected an index; which node that was, and when, is recorded
  for the statements. -/
  | selected (pktIndex : ℤ) (picked : JitNode) (time : Timeval)
  /-- In `jit_dequeue` of that index, the queue having been found not empty. -/
  | dequeueTested (pktIndex : ℕ) (picked : JitNode) (time : Timeval)

/-- The queue and the two threads. -/
structure System where
  queue : JitQueue
  down : DownPc
  jit : JitPc

/-- The threads start after `jit_queue_init`. -/
def System.init : System := ⟨jitQueueInit, .start, .idle⟩

/-- A critical section and its inputs. -/
inductive Action
  | readNumBeacon
  | leaveBeacons
  | beaconTest
  | beaconInsert (time : Timeval) (packet : LgwPktTx)
  | skipDownlink
  | downlinkTest
  | downlinkInsert (time : Timeval) (packet : LgwPktTx) (pktType : JitPktType)
  | peekTest
  | peek (time : Timeval)
  | dequeueTest
  | dequeue

/-- The steps of the two threads. -/
inductive System.Step (env : JitEnv) : System → Action → System → Prop
  /-- `beacon_loop = JIT_NUM_BEACON_IN_QUEUE - jit_queue.num_beacon`, unlocked. -/
  | readNumBeacon {s : System} (hd : s.down = .start) :
    Step env s .readNumBeacon
      { s with down := .beacons (BitVec.ofNat 8 jitNumBeaconInQueue - s.queue.numBeacon) }
  /-- The loop is left at its end, without a beacon period, or without GPS. -/
  | leaveBeacons {s : System} {loop : U8} (hd : s.down = .beacons loop) :
    Step env s .leaveBeacons { s with down := .downlink }
  /-- The queue is full: `jit_enqueue` answers `JIT_ERROR_FULL`, and the loop tries again. -/
  | beaconFull {s : System} {loop : U8} (hd : s.down = .beacons loop) (hl : loop ≠ 0)
    (hf : jitQueueIsFull s.queue = true) : Step env s .beaconTest s
  | beaconTest {s : System} {loop : U8} (hd : s.down = .beacons loop) (hl : loop ≠ 0)
    (hf : jitQueueIsFull s.queue = false) :
    Step env s .beaconTest { s with down := .beaconTested loop }
  /-- `beacon_loop` is decremented if the beacon is accepted, else the loop tries again. -/
  | beaconInsert {s : System} {loop : U8} {time : Timeval} {packet : LgwPktTx}
    (hd : s.down = .beaconTested loop) :
    Step env s (.beaconInsert time packet)
      { s with
        queue := (jitEnqueueLocked env s.queue time packet .beacon).queue
        down := .beacons
          (if (jitEnqueueLocked env s.queue time packet .beacon).error = .ok then loop - 1
          else loop) }
  /-- No datagram, or one that is not enqueued. -/
  | skipDownlink {s : System} (hd : s.down = .downlink) :
    Step env s .skipDownlink { s with down := .start }
  | downlinkFull {s : System} (hd : s.down = .downlink) (hf : jitQueueIsFull s.queue = true) :
    Step env s .downlinkTest { s with down := .start }
  | downlinkTest {s : System} (hd : s.down = .downlink) (hf : jitQueueIsFull s.queue = false) :
    Step env s .downlinkTest { s with down := .downlinkTested }
  | downlinkInsert {s : System} {time : Timeval} {packet : LgwPktTx} {pktType : JitPktType}
    (hd : s.down = .downlinkTested) (ht : pktType ≠ .beacon) :
    Step env s (.downlinkInsert time packet pktType)
      { s with
        queue := (jitEnqueueLocked env s.queue time packet pktType).queue
        down := .start }
  | peekEmpty {s : System} (hj : s.jit = .idle) (he : jitQueueIsEmpty s.queue = true) :
    Step env s .peekTest s
  | peekTest {s : System} (hj : s.jit = .idle) (he : jitQueueIsEmpty s.queue = false) :
    Step env s .peekTest { s with jit := .peekTested }
  /-- There is nothing to send yet, and no index is picked. -/
  | peekNone {s : System} {time : Timeval} {k : ℤ} (hj : s.jit = .peekTested)
    (hk : (jitPeekLocked env s.queue time).pktIdx = some k) (hneg : ¬-1 < k) :
    Step env s (.peek time)
      { s with queue := (jitPeekLocked env s.queue time).queue, jit := .idle }
  | peek {s : System} {time : Timeval} {k : ℤ} (hj : s.jit = .peekTested)
    (hk : (jitPeekLocked env s.queue time).pktIdx = some k) (hpos : -1 < k) :
    Step env s (.peek time)
      { s with
        queue := (jitPeekLocked env s.queue time).queue
        jit := .selected k ((jitPeekLocked env s.queue time).queue.nodeAt env k) time }
  /-- The index is refused, or the queue is empty. -/
  | dequeueRefused {s : System} {k : ℤ} {picked : JitNode} {time : Timeval}
    (hj : s.jit = .selected k picked time)
    (he : k < 0 ∨ jitQueueMax ≤ k ∨ jitQueueIsEmpty s.queue = true) :
    Step env s .dequeueTest { s with jit := .idle }
  | dequeueTest {s : System} {k : ℕ} {picked : JitNode} {time : Timeval}
    (hj : s.jit = .selected k picked time) (hk : k < jitQueueMax)
    (he : jitQueueIsEmpty s.queue = false) :
    Step env s .dequeueTest { s with jit := .dequeueTested k picked time }
  | dequeue {s : System} {k : ℕ} {picked : JitNode} {time : Timeval}
    (hj : s.jit = .dequeueTested k picked time) :
    Step env s .dequeue
      { s with queue := (jitDequeueLocked env s.queue k).queue, jit := .idle }

/-- The runs of the system whose steps satisfy `ok`. -/
abbrev System.ReachableBy (env : JitEnv) (ok : System → Action → Prop) (s : System) : Prop :=
  Runs.Reaches (System.Step env) ok .init s

/-! ## What a step does to the queue -/

/-- `thread_down` has found the queue not full and is about to insert. -/
def DownPc.Inserting : DownPc → Prop
  | .beaconTested _ | .downlinkTested => True
  | .start | .beacons _ | .downlink => False

/-- `thread_jit` has found the queue not empty and is about to remove. -/
def JitPc.Removing : JitPc → Prop
  | .peekTested | .dequeueTested _ _ _ => True
  | .idle | .selected _ _ _ => False

/-- The insertion an action stands for. -/
def Action.insertion : Action → Option (Timeval × LgwPktTx × JitPktType)
  | .beaconInsert time packet => some (time, packet, .beacon)
  | .downlinkInsert time packet pktType => some (time, packet, pktType)
  | _ => none

/-- **The steps by their effect on the queue.**  A step leaves it alone, or inserts an
accepted node, or scans it, or removes the node at the index `thread_jit` holds. -/
theorem System.Step.queue_cases {s s' : System} {a : Action} (h : System.Step env s a s') :
    s'.queue = s.queue ∨
      (∃ time p t, a.insertion = some (time, p, t) ∧ s.down.Inserting ∧ s'.jit = s.jit ∧
        Accepted s.queue time.lowUs (nodeFor env s.queue time.lowUs p t) ∧
        s'.queue = insertNode env s.queue (nodeFor env s.queue time.lowUs p t)) ∨
      (∃ time, a = .peek time ∧ s.jit = .peekTested ∧
        s'.queue = (jitPeekScan env s.queue time.lowUs).queue) ∨
      ∃ k n t, s.jit = .dequeueTested k n t ∧ s'.jit = .idle ∧
        s'.queue = removeNode env s.queue k := by
  cases h with
  | readNumBeacon hd => exact .inl rfl
  | leaveBeacons hd => exact .inl rfl
  | beaconFull hd hl hf => exact .inl rfl
  | beaconTest hd hl hf => exact .inl rfl
  | @beaconInsert loop time packet hd =>
    rcases jitEnqueueLocked_cases env s.queue time packet .beacon with ⟨-, ha, hq⟩ | ⟨-, hq⟩
    · exact .inr (.inl ⟨time, packet, .beacon, rfl, by rw [hd]; trivial, rfl, ha, hq⟩)
    · exact .inl hq
  | skipDownlink hd => exact .inl rfl
  | downlinkFull hd hf => exact .inl rfl
  | downlinkTest hd hf => exact .inl rfl
  | @downlinkInsert time packet pktType hd ht =>
    rcases jitEnqueueLocked_cases env s.queue time packet pktType with ⟨-, ha, hq⟩ | ⟨-, hq⟩
    · exact .inr (.inl ⟨time, packet, pktType, rfl, by rw [hd]; trivial, rfl, ha, hq⟩)
    · exact .inl hq
  | peekEmpty hj he => exact .inl rfl
  | peekTest hj he => exact .inl rfl
  | peekNone hj hk hneg => exact .inr (.inr (.inl ⟨_, rfl, hj, rfl⟩))
  | peek hj hk hpos => exact .inr (.inr (.inl ⟨_, rfl, hj, rfl⟩))
  | dequeueRefused hj he => exact .inl rfl
  | dequeueTest hj hk he => exact .inl rfl
  | dequeue hj => exact .inr (.inr (.inr ⟨_, _, _, hj, rfl, rfl⟩))

/-! ## Beacon nodes in the array -/

/-- How many of the cells, live or not, hold a beacon. -/
def beaconCells (q : JitQueue) : ℕ := q.nodes.cells.countP fun n => n.pktType = .beacon

/-- 1 for a beacon, 0 for another node. -/
def JitNode.beaconCount (n : JitNode) : ℕ := if n.pktType = .beacon then 1 else 0

theorem countP_beacon_cons (n : JitNode) (l : List JitNode) :
    (n :: l).countP (fun n => n.pktType = .beacon) =
      n.beaconCount + l.countP fun n => n.pktType = .beacon := by
  rw [List.countP_cons, JitNode.beaconCount, add_comm]
  simp only [decide_eq_true_eq]

theorem beaconCells_insertNode_le (env : JitEnv) (hq : q.numPkt.toNat < 32) (n : JitNode) :
    beaconCells (insertNode env q n) ≤ n.beaconCount + beaconCells q := by
  have hlen : q.numPkt.toNat < q.nodes.cells.length := by
    rw [q.nodes.length_cells]
    exact hq
  have hsort := (cells_insertNode_perm env hq n).countP_eq
    fun n => decide (n.pktType = .beacon)
  have hset := (Slots.cons_set_perm hlen n).countP_eq fun n => decide (n.pktType = .beacon)
  rw [countP_beacon_cons, countP_beacon_cons] at hset
  unfold beaconCells
  omega

theorem beaconCells_removeNode (env : JitEnv) (hw : q.Wf) (hq : 0 < q.numPkt.toNat) {i : ℕ}
    (hi : i < 32) :
    (q.node env i).beaconCount + beaconCells (removeNode env q i) = beaconCells q := by
  have hle : q.numPkt.toNat ≤ 32 := hw
  have hlast : q.numPkt.toNat - 1 < 32 := by omega
  have hnode : q.node env i = q.nodes.getD i .zero := by
    rw [JitQueue.node, ← Slots.getElem_live q.nodes (m := 32) (by simpa using hi),
      Slots.getElem_live]
  have hsort := (cells_removeNode_perm env hw hq i).countP_eq
    fun n => decide (n.pktType = .beacon)
  have hswap := (q.nodes.removeSwap_perm .zero hi hlast).countP_eq
    fun n => decide (n.pktType = .beacon)
  rw [countP_beacon_cons, countP_beacon_cons, ← hnode] at hswap
  have hzero : JitNode.zero.beaconCount = 0 := rfl
  unfold beaconCells
  omega

/-! ## The counters -/

/-- `num_beacon` counts at least the beacons in the array. -/
def Covered (q : JitQueue) : Prop := beaconCells q ≤ q.numBeacon.toNat

/-- Inserting a node raises `num_beacon` by one for a beacon and by nothing else, and every beacon
in the array stays counted. -/
theorem counters_insertNode (env : JitEnv) (hq : q.numPkt.toNat < 32) (hc : Covered q) {n : JitNode}
    (hb : n.beaconCount + q.numBeacon.toNat ≤ 3) :
    (insertNode env q n).numBeacon.toNat = n.beaconCount + q.numBeacon.toNat ∧
      Covered (insertNode env q n) := by
  have hcells := beaconCells_insertNode_le env hq n
  have hnum : (insertNode env q n).numBeacon.toNat = n.beaconCount + q.numBeacon.toNat := by
    rw [numBeacon_insertNode]
    unfold JitNode.beaconCount at hb ⊢
    split
    · rename_i hbeacon
      rw [if_pos hbeacon] at hb
      rw [BitVec.toNat_add]
      show (q.numBeacon.toNat + 1) % 2 ^ 8 = _
      omega
    · omega
  unfold Covered at hc ⊢
  exact ⟨hnum, by omega⟩

/-- Removing one node: a beacon among the cells has been counted. -/
theorem counters_removeNode (env : JitEnv) (hw : q.Wf) (hq : 0 < q.numPkt.toNat)
    (hc : Covered q) {i : ℕ} (hi : i < 32) :
    (q.node env i).beaconCount + (removeNode env q i).numBeacon.toNat = q.numBeacon.toNat ∧
      Covered (removeNode env q i) := by
  have hcells := beaconCells_removeNode env hw hq hi
  have hbound := q.numBeacon.isLt
  unfold Covered at hc ⊢
  have hnum : (q.node env i).beaconCount + (removeNode env q i).numBeacon.toNat =
      q.numBeacon.toNat := by
    rw [numBeacon_removeNode]
    unfold JitNode.beaconCount at hcells ⊢
    split
    · rename_i hbeacon
      rw [if_pos hbeacon] at hcells
      rw [BitVec.toNat_sub]
      show 1 + (2 ^ 8 - 1 + q.numBeacon.toNat) % 2 ^ 8 = _
      omega
    · omega
  exact ⟨hnum, by omega⟩

/-- A peek lowers both counters, and neither below zero. -/
theorem counters_jitPeekLocked (env : JitEnv) (hw : q.Wf) (hc : Covered q) (time : Timeval) :
    (jitPeekLocked env q time).queue.Wf ∧
      (jitPeekLocked env q time).queue.numPkt.toNat ≤ q.numPkt.toNat ∧
      (jitPeekLocked env q time).queue.numBeacon.toNat ≤ q.numBeacon.toNat ∧
      Covered (jitPeekLocked env q time).queue := by
  let I : PeekScan → Prop := fun s => s.queue.Wf ∧ s.queue.numPkt.toNat ≤ q.numPkt.toNat ∧
    s.queue.numBeacon.toNat ≤ q.numBeacon.toNat ∧ Covered s.queue
  have h₀ : I ⟨q, 0, -1, []⟩ := ⟨hw, le_rfl, le_rfl, hc⟩
  rw [jitPeekLocked_queue]
  refine jitPeekScan_invariant h₀ ?_
  rintro s ⟨hsw, hnum, hbeacon, hcov⟩ hi
  rcases jitPeekBody_cases env time.lowUs s with ⟨-, hq, -⟩ | ⟨-, hq, -⟩
  · have hle : s.queue.numPkt.toNat ≤ 32 := hsw
    have hrem := counters_removeNode env hsw (by omega) hcov (i := s.i) (by omega)
    show _ ∧ _
    rw [hq]
    refine ⟨wf_removeNode hsw (by omega) _, ?_, ?_, hrem.2⟩
    · rw [numPkt_removeNode env (by omega)]
      omega
    · omega
  · show _ ∧ _
    rw [hq]
    exact ⟨hsw, hnum, hbeacon, hcov⟩

/-! ## The invariant -/

/-- The beacons `thread_down` still means to queue. -/
def DownPc.beaconLoop : DownPc → U8
  | .beacons loop | .beaconTested loop => loop
  | .start | .downlink | .downlinkTested => 0

/-- **The invariant of both threads.**  What was planned or tested in one critical
section still holds in a later one, because each thread moves the counters in one
direction only. -/
structure CountersOk (s : System) : Prop where
  wf : s.queue.Wf
  covered : Covered s.queue
  planned : s.down.beaconLoop.toNat + s.queue.numBeacon.toNat ≤ 3
  room : s.down.Inserting → s.queue.numPkt.toNat < 32
  tested : ∀ loop, s.down = .beaconTested loop → loop ≠ 0
  present : s.jit.Removing → 0 < s.queue.numPkt.toNat
  inside : ∀ k n t, s.jit = .dequeueTested k n t → k < 32

/-- An action is one that `thread_jit` takes. -/
def Action.ofJit : Action → Bool
  | .peekTest | .peek _ | .dequeueTest | .dequeue => true
  | _ => false

/-- Neither counter wraps in the step: `thread_jit` takes no more from it than there
is, `thread_down` adds at most one. -/
def NoWrap (s : System) (a : Action) (s' : System) : Prop :=
  if a.ofJit then
    s'.queue.numPkt.toNat ≤ s.queue.numPkt.toNat ∧
      s'.queue.numBeacon.toNat ≤ s.queue.numBeacon.toNat
  else
    (s.queue.numPkt.toNat ≤ s'.queue.numPkt.toNat ∧
        s'.queue.numPkt.toNat ≤ s.queue.numPkt.toNat + 1) ∧
      s.queue.numBeacon.toNat ≤ s'.queue.numBeacon.toNat ∧
        s'.queue.numBeacon.toNat ≤ s.queue.numBeacon.toNat + 1

theorem NoWrap.of_queue_eq {s s' : System} (h : s'.queue = s.queue) (a : Action) :
    NoWrap s a s' := by
  unfold NoWrap
  rw [h]
  split
  · exact ⟨le_rfl, le_rfl⟩
  · exact ⟨⟨le_rfl, Nat.le_succ _⟩, le_rfl, Nat.le_succ _⟩

theorem NoWrap.of_le {s s' : System} {a : Action} (ha : a.ofJit = true)
    (hnum : s'.queue.numPkt.toNat ≤ s.queue.numPkt.toNat)
    (hbeacon : s'.queue.numBeacon.toNat ≤ s.queue.numBeacon.toNat) : NoWrap s a s' := by
  unfold NoWrap
  rw [if_pos ha]
  exact ⟨hnum, hbeacon⟩

/-- The difference `thread_down` computes from a count it may believe. -/
theorem toNat_beaconLoop {numBeacon : U8} (h : numBeacon.toNat ≤ 3) :
    (BitVec.ofNat 8 jitNumBeaconInQueue - numBeacon).toNat = 3 - numBeacon.toNat := by
  rw [BitVec.toNat_sub]
  show (2 ^ 8 - numBeacon.toNat + 3) % 2 ^ 8 = _
  omega

theorem toNat_beaconLoop_sub_one {loop : U8} (h : loop ≠ 0) :
    (loop - 1).toNat + 1 = loop.toNat := by
  have hpos : loop.toNat ≠ 0 := fun h0 => h (BitVec.eq_of_toNat_eq h0)
  have := loop.isLt
  rw [BitVec.toNat_sub]
  show (2 ^ 8 - 1 + loop.toNat) % 2 ^ 8 + 1 = _
  omega

/-- Inserting in the second critical section of `jit_enqueue`. -/
theorem counters_jitEnqueueLocked (env : JitEnv) (hq : q.numPkt.toNat < 32) (hc : Covered q)
    (time : Timeval) (p : LgwPktTx) {t : JitPktType}
    (hb : (if t = .beacon then 1 else 0) + q.numBeacon.toNat ≤ 3) :
    let r := jitEnqueueLocked env q time p t
    r.queue.Wf ∧ Covered r.queue ∧
      r.queue.numPkt.toNat = q.numPkt.toNat + (if r.error = .ok then 1 else 0) ∧
      r.queue.numBeacon.toNat =
        q.numBeacon.toNat + (if r.error = .ok ∧ t = .beacon then 1 else 0) := by
  intro r
  rcases jitEnqueueLocked_cases env q time p t with ⟨hok, -, hins⟩ | ⟨herr, hsame⟩
  · replace hok : r.error = .ok := hok
    replace hins : r.queue = _ := hins
    have hcount : (nodeFor env q time.lowUs p t).beaconCount = if t = .beacon then 1 else 0 := rfl
    have hnum := counters_insertNode env hq hc (n := nodeFor env q time.lowUs p t)
      (by rw [hcount]; exact hb)
    rw [hins, hok]
    refine ⟨wf_insertNode env hq _, hnum.2, ?_, ?_⟩
    · rw [numPkt_insertNode env hq, if_pos rfl]
    · rw [hnum.1, hcount, add_comm]
      simp only [true_and]
  · replace herr : r.error ≠ .ok := herr
    replace hsame : r.queue = q := hsame
    rw [hsame, if_neg herr, if_neg fun h => herr h.1]
    exact ⟨Nat.le_of_lt hq, hc, rfl, rfl⟩

/-- `thread_down` goes on without a beacon to queue. -/
theorem CountersOk.moveDown {s : System} (hi : CountersOk s) {down : DownPc}
    (hloop : down.beaconLoop = 0) (hroom : down.Inserting → s.queue.numPkt.toNat < 32)
    (htested : ∀ loop, down = .beaconTested loop → loop ≠ 0) :
    CountersOk { s with down := down } where
  wf := hi.wf
  covered := hi.covered
  planned := by
    show down.beaconLoop.toNat + s.queue.numBeacon.toNat ≤ 3
    rw [hloop]
    exact (Nat.add_le_add_right (Nat.zero_le _) _).trans hi.planned
  room := hroom
  tested := htested
  present := hi.present
  inside := hi.inside

/-- `thread_jit` takes from the queue, or leaves it as it is, and is then not about to remove. -/
theorem CountersOk.lower {s : System} (hi : CountersOk s) {queue : JitQueue} {jit : JitPc}
    (hw : queue.Wf) (hc : Covered queue) (hnum : queue.numPkt.toNat ≤ s.queue.numPkt.toNat)
    (hbeacon : queue.numBeacon.toNat ≤ s.queue.numBeacon.toNat) (hjit : ¬jit.Removing) :
    CountersOk { s with queue := queue, jit := jit } where
  wf := hw
  covered := hc
  planned := (Nat.add_le_add_left hbeacon _).trans hi.planned
  room hd := hnum.trans_lt (hi.room hd)
  tested := hi.tested
  present hr := absurd hr hjit
  inside k n t h := by
    have hpc : jit = .dequeueTested k n t := h
    rw [hpc] at hjit
    exact absurd trivial hjit

/-- **One step.**  Every critical section keeps the invariant, and wraps no counter. -/
theorem CountersOk.step {s s' : System} {a : Action} (hi : CountersOk s)
    (h : System.Step env s a s') : CountersOk s' ∧ NoWrap s a s' := by
  have ⟨hw, hc, hplan, hroom, htested, hpresent, hinside⟩ := hi
  cases h with
  | readNumBeacon hd =>
    refine ⟨⟨hw, hc, ?_, nofun, nofun, hpresent, hinside⟩, .of_queue_eq rfl _⟩
    have hle : s.queue.numBeacon.toNat ≤ 3 := (Nat.le_add_left _ _).trans hplan
    show (BitVec.ofNat 8 jitNumBeaconInQueue - s.queue.numBeacon).toNat +
      s.queue.numBeacon.toNat ≤ 3
    rw [toNat_beaconLoop hle]
    omega
  | leaveBeacons hd => exact ⟨hi.moveDown rfl nofun nofun, .of_queue_eq rfl _⟩
  | beaconFull hd hl hf => exact ⟨hi, .of_queue_eq rfl _⟩
  | beaconTest hd hl hf =>
    refine ⟨⟨hw, hc, ?_, fun _ => hw.lt_of_not_full hf, ?_, hpresent, hinside⟩,
      .of_queue_eq rfl _⟩
    · rw [hd] at hplan
      exact hplan
    · intro loop' h
      cases h
      exact hl
  | @beaconInsert loop time packet hd =>
    have hlt := hroom (by rw [hd]; trivial)
    have hl := toNat_beaconLoop_sub_one (htested _ hd)
    rw [hd] at hplan
    replace hplan : loop.toNat + s.queue.numBeacon.toNat ≤ 3 := hplan
    -- The plan leaves room for this beacon, so that `num_beacon` cannot wrap.
    obtain ⟨hw', hc', hnum, hbeacon⟩ := counters_jitEnqueueLocked env hlt hc time
      packet (t := .beacon) (by rw [if_pos rfl]; omega)
    simp only [and_true] at hbeacon
    refine ⟨⟨hw', hc', ?_, nofun, nofun, ?_, hinside⟩, ?_⟩
    · show (if _ then loop - 1 else loop).toNat + _ ≤ 3
      rw [hbeacon]
      split <;> omega
    · intro hr
      have := hpresent hr
      show 0 < (jitEnqueueLocked env s.queue time packet .beacon).queue.numPkt.toNat
      omega
    · show (_ ∧ _) ∧ _ ∧ _
      rw [hnum, hbeacon]
      split <;> omega
  | skipDownlink hd => exact ⟨hi.moveDown rfl nofun nofun, .of_queue_eq rfl _⟩
  | downlinkFull hd hf => exact ⟨hi.moveDown rfl nofun nofun, .of_queue_eq rfl _⟩
  | downlinkTest hd hf =>
    exact ⟨hi.moveDown rfl (fun _ => hw.lt_of_not_full hf) nofun, .of_queue_eq rfl _⟩
  | @downlinkInsert time packet pktType hd ht =>
    have hlt := hroom (by rw [hd]; trivial)
    have hle : s.queue.numBeacon.toNat ≤ 3 := (Nat.le_add_left _ _).trans hplan
    obtain ⟨hw', hc', hnum, hbeacon⟩ := counters_jitEnqueueLocked env hlt hc time
      packet (t := pktType) (by rw [if_neg ht]; omega)
    rw [if_neg fun h => ht h.2] at hbeacon
    refine ⟨⟨hw', hc', ?_, nofun, nofun, ?_, hinside⟩, ?_⟩
    · show (0 : U8).toNat + _ ≤ 3
      rw [hbeacon]
      exact (Nat.zero_add _).trans_le hle
    · intro hr
      have := hpresent hr
      show 0 < (jitEnqueueLocked env s.queue time packet pktType).queue.numPkt.toNat
      omega
    · show (_ ∧ _) ∧ _ ∧ _
      rw [hnum, hbeacon]
      split <;> omega
  | peekEmpty hj he => exact ⟨hi, .of_queue_eq rfl _⟩
  | peekTest hj he =>
    have hpos := jitQueueIsEmpty_eq_false_iff.mp he
    exact ⟨⟨hw, hc, hplan, hroom, htested, fun _ => hpos, fun _ _ _ h => by cases h⟩,
      .of_queue_eq rfl _⟩
  | @peekNone time k hj hk hneg =>
    obtain ⟨hw', hnum, hbeacon, hcov⟩ := counters_jitPeekLocked env hw hc time
    exact ⟨hi.lower hw' hcov hnum hbeacon nofun, .of_le rfl hnum hbeacon⟩
  | @peek time k hj hk hpos =>
    obtain ⟨hw', hnum, hbeacon, hcov⟩ := counters_jitPeekLocked env hw hc time
    exact ⟨hi.lower hw' hcov hnum hbeacon nofun, .of_le rfl hnum hbeacon⟩
  | dequeueRefused hj he => exact ⟨hi.lower hw hc le_rfl le_rfl nofun, .of_queue_eq rfl _⟩
  | dequeueTest hj hk he =>
    have hpos := jitQueueIsEmpty_eq_false_iff.mp he
    refine ⟨⟨hw, hc, hplan, hroom, htested, fun _ => hpos, ?_⟩, .of_queue_eq rfl _⟩
    intro k' n t h
    cases h
    exact hk
  | @dequeue k picked time hj =>
    have hpos := hpresent (by rw [hj]; trivial)
    -- Only this thread removes packets, so the one that the test found is still there.
    obtain ⟨hnum, hcov⟩ := counters_removeNode env hw hpos hc (hinside _ _ _ hj)
    have hpkt := numPkt_removeNode env hpos k
    rw [← jitDequeueLocked_queue] at hnum hcov hpkt
    have hbeacon : (jitDequeueLocked env s.queue k).queue.numBeacon.toNat ≤
        s.queue.numBeacon.toNat := by omega
    have hless : (jitDequeueLocked env s.queue k).queue.numPkt.toNat ≤
        s.queue.numPkt.toNat := by omega
    have hw' : (jitDequeueLocked env s.queue k).queue.Wf := by
      rw [jitDequeueLocked_queue]
      exact wf_removeNode hw hpos _
    exact ⟨hi.lower hw' hcov hless hbeacon nofun, .of_le rfl hless hbeacon⟩

/-- The invariant holds in every reached state. -/
theorem CountersOk.reached {ok : System → Action → Prop} {s : System}
    (h : System.ReachableBy env ok s) : CountersOk s := by
  have h₀ : CountersOk .init :=
    ⟨wf_jitQueueInit, Nat.zero_le _, Nat.zero_le _, nofun, nofun, nofun, fun _ _ _ h => by cases h⟩
  refine Runs.Reaches.invariant h₀ ?_ h
  intro s a s' _ hs _ hst
  exact (hs.step hst).1

/-- **The counters stay within their bounds.**  In every interleaving of the two
threads `num_pkt` is at most `JIT_QUEUE_MAX` and `num_beacon` at most
`JIT_NUM_BEACON_IN_QUEUE`, the beacons still planned included; the difference
`beacon_loop` is computed from is the true one; and no step wraps a counter. -/
theorem counters_bounded {s : System} (h : System.ReachableBy env Runs.anyStep s) :
    s.queue.numPkt.toNat ≤ jitQueueMax ∧ s.queue.numBeacon.toNat ≤ jitNumBeaconInQueue ∧
      s.down.beaconLoop.toNat + s.queue.numBeacon.toNat ≤ jitNumBeaconInQueue ∧
      (BitVec.ofNat 8 jitNumBeaconInQueue - s.queue.numBeacon).toNat =
        jitNumBeaconInQueue - s.queue.numBeacon.toNat ∧
      ∀ a s', System.Step env s a s' → NoWrap s a s' := by
  have hi := CountersOk.reached h
  have hle : s.queue.numBeacon.toNat ≤ 3 := (Nat.le_add_left _ _).trans hi.planned
  exact ⟨hi.wf, hle, hi.planned, toNat_beaconLoop hle, fun a s' hst => (hi.step hst).2⟩

/-- `thread_down` has found room for its second beacon while `thread_jit` is about to remove the
first one. -/
theorem reaches_beacon_between :
    ∃ s, System.ReachableBy .reference Runs.anyStep s ∧ s.queue.numBeacon.toNat = 1 ∧
      s.down.beaconLoop.toNat = 2 ∧ s.down.Inserting ∧ s.jit.Removing := by
  have hread : System.ReachableBy .reference Runs.anyStep _ :=
    Runs.Reaches.start.next trivial (.readNumBeacon rfl)
  have htest := hread.next trivial (.beaconTest rfl (by decide) (by decide))
  have hinsert := htest.next (l := .beaconInsert (instant 0) (packetAt 1000000)) trivial
    (.beaconInsert rfl)
  have hpeekTest := hinsert.next trivial (.peekTest rfl (by decide +kernel))
  have hpeek := hpeekTest.next (l := .peek (instant 980000)) trivial
    (.peek (k := 0) rfl (by decide +kernel) (by decide))
  have hdequeueTest := hpeek.next trivial
    (.dequeueTest (k := 0) rfl (by decide) (by decide +kernel))
  have hagain := hdequeueTest.next trivial
    (.beaconTest rfl (by decide +kernel) (by decide +kernel))
  exact ⟨_, hagain, by decide +kernel, by decide +kernel, trivial, trivial⟩

/-- The bounds hold while both threads are between the test and the use of a counter. -/
theorem counters_bounded_beacon_between :
    ∃ s : System, s.queue.numBeacon.toNat = 1 ∧ s.down.beaconLoop.toNat = 2 ∧
      s.down.Inserting ∧ s.jit.Removing ∧
      s.queue.numPkt.toNat ≤ jitQueueMax ∧ s.queue.numBeacon.toNat ≤ jitNumBeaconInQueue ∧
      s.down.beaconLoop.toNat + s.queue.numBeacon.toNat ≤ jitNumBeaconInQueue ∧
      (BitVec.ofNat 8 jitNumBeaconInQueue - s.queue.numBeacon).toNat =
        jitNumBeaconInQueue - s.queue.numBeacon.toNat ∧
      ∀ a s', System.Step .reference s a s' → NoWrap s a s' := by
  obtain ⟨s, hreached, hbeacon, hloop, hinserting, hremoving⟩ := reaches_beacon_between
  exact ⟨s, hbeacon, hloop, hinserting, hremoving, counters_bounded hreached⟩

end PacketForwarder
