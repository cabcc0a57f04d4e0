import PacketForwarder.Hal
import PacketForwarder.Lib.CmpOrder

/-!
# The just-in-time queue

The scheduler of `jitqueue.c`: a fixed array of nodes of which the first
`num_pkt` are live, each reserving the air from `pre_delay` before to
`post_delay` after its departure.

* `jitEnqueue` — refuse a packet that is too late, too early or collides with a
  live node, else insert it and sort; a class C packet is first given the
  earliest slot `asapSlot` finds;
* `jitDequeue` — hand over the node at an index;
* `jitPeek` — drop the nodes that look outdated, and report the node to be sent
  within `txJitDelay`.

Each operation is split where the code releases `mx_jit_queue`: the fullness and
emptiness tests are critical sections of their own, and the `..Locked`
definitions are what happens in the other one.

Every operation also returns its `accesses`, the indices `k` of the `nodes[k]`
it touches.
-/

namespace PacketForwarder

/-! ## Constants and types -/

/-- `JIT_QUEUE_MAX`: the length of the array. -/
@[simp] abbrev jitQueueMax : ℕ := 32

/-- `JIT_NUM_BEACON_IN_QUEUE`: how many beacons are kept loaded. -/
@[simp] abbrev jitNumBeaconInQueue : ℕ := 3

/-- `TX_START_DELAY`, in microseconds. -/
@[simp] abbrev txStartDelay : U32 := 1500

/-- `TX_MARGIN_DELAY`: packet overlap margin, in microseconds. -/
@[simp] abbrev txMarginDelay : U32 := 1000

/-- `TX_JIT_DELAY`: how long before its departure a packet is programmed. -/
@[simp] abbrev txJitDelay : U32 := 30000

/-- `TX_MAX_ADVANCE_DELAY`, a `double`; the counts it is compared with are exact
as doubles, so the comparison is one of numbers. -/
@[simp] abbrev txMaxAdvanceDelay : ℕ := (jitNumBeaconInQueue + 1) * 128 * 1000000

/-- `BEACON_GUARD`: interval before a beacon where no ping slot can be placed. -/
@[simp] abbrev beaconGuard : U32 := 3000000

/-- `BEACON_RESERVED`: time on air of the beacon, with some margin. -/
@[simp] abbrev beaconReserved : U32 := 2120000

/-- `enum jit_pkt_type_e`. -/
inductive JitPktType
  | downlinkClassA
  | downlinkClassB
  | downlinkClassC
  | beacon
  deriving DecidableEq, Repr

/-- `enum jit_error_e`. -/
inductive JitError
  | ok
  | tooLate
  | tooEarly
  | full
  | empty
  | collisionPacket
  | collisionBeacon
  | txFreq
  | txPower
  | gpsUnlocked
  | invalid
  deriving DecidableEq, Repr

/-- `struct jit_node_s`. -/
structure JitNode where
  pkt : LgwPktTx
  pktType : JitPktType
  /-- Amount of time before the packet's departure to be reserved. -/
  preDelay : U32
  /-- Amount of time after the packet's departure to be reserved (time on air). -/
  postDelay : U32
  deriving DecidableEq

/-- A node after `memset(&node, 0, sizeof node)`. -/
def JitNode.zero : JitNode := ⟨.zero, .downlinkClassA, 0, 0⟩

/-- `struct jit_queue_s`. -/
structure JitQueue where
  numPkt : U8
  numBeacon : U8
  nodes : Slots JitNode jitQueueMax
  deriving DecidableEq

/-- What `jitqueue.c` calls and does not define. -/
structure JitEnv where
  /-- `lgw_time_on_air` of the HAL, in milliseconds. -/
  lgwTimeOnAir : LgwPktTx → U32
  /-- `qsort_r` of the C library, with the comparator it is given. -/
  qsortR : (JitNode → JitNode → ℤ) → List JitNode → List JitNode
  /-- `qsort_r` only rearranges the elements it is given. -/
  qsortR_perm : ∀ cmp l, (qsortR cmp l).Perm l
  /-- What converting a `double` beyond `UINT32_MAX` to `uint32_t` gives, which C
  leaves undefined. -/
  outOfRange : ℕ → U32
  /-- What a read outside `nodes` finds. -/
  stray : ℤ → JitNode

namespace JitEnv

variable (env : JitEnv)

/-- The HAL reports at most 100 s of time on air. -/
def AirtimeBounded : Prop := ∀ p, (env.lgwTimeOnAir p).toNat ≤ 100000

/-- `qsort_r` sorts whenever its comparator is consistent on the input. -/
def QsortSorts : Prop :=
  ∀ cmp l, CmpOrder.OrderOn cmp l → CmpOrder.Ascending cmp (env.qsortR cmp l)

/-- `qsort_r` depends on the elements only through the comparator's answers. -/
def QsortByOutcomes : Prop :=
  ∀ (cmp : JitNode → JitNode → ℤ) (f : JitNode → JitNode) (l : List JitNode),
    (∀ a ∈ l, ∀ b ∈ l, cmp (f a) (f b) = cmp a b) →
      env.qsortR cmp (l.map f) = (env.qsortR cmp l).map f

/-- Convert a whole non-negative `double` to `uint32_t`. -/
def f64ToU32 (v : ℕ) : U32 := if v < 2 ^ 32 then BitVec.ofNat 32 v else env.outOfRange v

end JitEnv

/-- An access `nodes[k]`, and how many nodes were live when it was made. -/
structure Access where
  /-- The index `k`. -/
  index : ℤ
  /-- `num_pkt` at that moment. -/
  numPkt : ℕ
  /-- The node is read to take a scheduling decision, not moved or written. -/
  decides : Bool
  deriving DecidableEq, Repr

/-- The access stays inside the array, and on a live node if a decision reads it. -/
def Access.Ok (a : Access) : Prop :=
  0 ≤ a.index ∧ a.index < jitQueueMax ∧ (a.decides = true → a.index < a.numPkt)

instance (a : Access) : Decidable a.Ok := inferInstanceAs (Decidable (_ ∧ _ ∧ _))

/-- Decisions reading `nodes[0]`, …, `nodes[k - 1]`. -/
def readsBelow (numPkt k : ℕ) : List Access :=
  (List.range k).map fun i : ℕ => ⟨i, numPkt, true⟩

/-! ## The queue as a whole -/

namespace JitQueue

/-- The live nodes, `nodes[0]` to `nodes[num_pkt - 1]`. -/
def live (q : JitQueue) : List JitNode := q.nodes.live q.numPkt.toNat

/-- `nodes[i]`. -/
def node (env : JitEnv) (q : JitQueue) (i : ℕ) : JitNode := q.nodes.getD i (env.stray i)

/-- `nodes[k]` for a signed index. -/
def nodeAt (env : JitEnv) (q : JitQueue) (k : ℤ) : JitNode :=
  if k < 0 then env.stray k else q.node env k.toNat

/-- The live count does not exceed the array. -/
def Wf (q : JitQueue) : Prop := q.numPkt.toNat ≤ jitQueueMax

end JitQueue

/-- `jit_queue_is_full`. -/
def jitQueueIsFull (q : JitQueue) : Bool := q.numPkt == BitVec.ofNat 8 jitQueueMax

/-- `jit_queue_is_empty`. -/
def jitQueueIsEmpty (q : JitQueue) : Bool := q.numPkt == 0

/-- `jit_queue_init`. -/
def jitQueueInit : JitQueue := ⟨0, 0, .replicate jitQueueMax .zero⟩

/-- `compare`: the counts are converted to `int`, whose subtraction wraps. -/
def compare (p q : JitNode) : ℤ := (p.pkt.countUs - q.pkt.countUs).toInt

/-- `jit_sort_queue`. -/
def jitSortQueue (env : JitEnv) (q : JitQueue) : JitQueue :=
  if q.numPkt = 0 then q else { q with nodes := q.nodes.fill (env.qsortR compare q.live) }

/-- `jit_collision_test`. -/
def jitCollisionTest (p1CountUs p1PreDelay p1PostDelay p2CountUs p2PreDelay p2PostDelay : U32) :
    Bool :=
  p1CountUs - p2CountUs ≤ p1PreDelay + p2PostDelay + txMarginDelay ||
    p2CountUs - p1CountUs ≤ p2PreDelay + p1PostDelay + txMarginDelay

/-! ## `jit_enqueue` -/

/-- `packet_pre_delay` of a packet of the given type. -/
def packetPreDelay : JitPktType → U32
  | .downlinkClassA | .downlinkClassB | .downlinkClassC => txStartDelay + txJitDelay
  | .beacon => txStartDelay + beaconGuard + txJitDelay

/-- `packet_post_delay` of a packet of the given type. -/
def packetPostDelay (env : JitEnv) (packet : LgwPktTx) : JitPktType → U32
  | .downlinkClassA | .downlinkClassB | .downlinkClassC => env.lgwTimeOnAir packet * 1000
  | .beacon => beaconReserved

/-- The earliest count the search for a class C slot tries after a node. -/
def slotAfter (preDelay : U32) (n : JitNode) : U32 :=
  n.pkt.countUs + n.postDelay + preDelay + txJitDelay + txMarginDelay

/-- The search for a class C slot between the live nodes: the slot, and how many
nodes were read.  The candidate after a node is tested against the next node
only; after the last node it is taken as it is. -/
def slotSearch (asapCountUs preDelay postDelay : U32) : List JitNode → U32 × ℕ
  | [] => (asapCountUs, 0)
  | [n] => (slotAfter preDelay n, 1)
  | n :: m :: rest =>
    if jitCollisionTest (slotAfter preDelay n) preDelay postDelay
        m.pkt.countUs m.preDelay m.postDelay then
      let r := slotSearch asapCountUs preDelay postDelay (m :: rest)
      (r.1, r.2 + 1)
    else (slotAfter preDelay n, 2)

/-- The departure an immediate downlink is given, if `asapCountUs` is the ASAP time:
that time unless it collides, else the first slot of the search. -/
def firstSlot (q : JitQueue) (asapCountUs preDelay postDelay : U32) : U32 × List Access :=
  let num := q.numPkt.toNat
  if q.numPkt = 0 then (asapCountUs, [])
  else
    let i := q.live.findIdx fun n => jitCollisionTest asapCountUs preDelay postDelay
      n.pkt.countUs n.preDelay n.postDelay
    if i = num then (asapCountUs, readsBelow num num)
    else
      let r := slotSearch asapCountUs preDelay postDelay q.live
      (r.1, readsBelow num (i + 1) ++ readsBelow num r.2)

/-- The departure an immediate downlink is given: `asap_count_us = time_us + 1E6` is a
`double`, converted back. -/
def asapSlot (env : JitEnv) (q : JitQueue) (timeUs preDelay postDelay : U32) :
    U32 × List Access :=
  firstSlot q (env.f64ToU32 (timeUs.toNat + 1000000)) preDelay postDelay

/-- The departure of a packet: its own count, but for class C the slot found for it. -/
def departure (env : JitEnv) (q : JitQueue) (timeUs : U32) (packet : LgwPktTx)
    (pktType : JitPktType) : U32 :=
  if pktType = .downlinkClassC then
    (asapSlot env q timeUs (packetPreDelay pktType) (packetPostDelay env packet pktType)).1
  else packet.countUs

/-- The packet as `jit_enqueue` leaves it: a class C packet becomes a timestamped
one with the slot found for it. -/
def scheduled (env : JitEnv) (q : JitQueue) (timeUs : U32) (packet : LgwPktTx)
    (pktType : JitPktType) : LgwPktTx :=
  if pktType = .downlinkClassC then
    { packet with txMode := .timestamped, countUs := departure env q timeUs packet pktType }
  else packet

/-- The node that a packet becomes, with its delays and its departure. -/
def nodeFor (env : JitEnv) (q : JitQueue) (timeUs : U32) (packet : LgwPktTx)
    (pktType : JitPktType) : JitNode where
  pkt := scheduled env q timeUs packet pktType
  pktType := pktType
  preDelay := packetPreDelay pktType
  postDelay := packetPostDelay env packet pktType

/-- `target_pre_delay`: the beacon guard is ignored for class A and C downlinks. -/
def targetPreDelay (pktType : JitPktType) (n : JitNode) : U32 :=
  if (pktType = .downlinkClassA ∨ pktType = .downlinkClassC) ∧ n.pktType = .beacon then
    txStartDelay
  else n.preDelay

/-- Criteria 3: the new node overlaps with a node already enqueued. -/
def overlaps (new n : JitNode) : Bool :=
  jitCollisionTest new.pkt.countUs new.preDelay new.postDelay
    n.pkt.countUs (targetPreDelay new.pktType n) n.postDelay

/-- `err_collision`, by the type of the node collided with. -/
def errCollision : JitPktType → JitError
  | .downlinkClassA | .downlinkClassB | .downlinkClassC => .collisionPacket
  | .beacon => .collisionBeacon

/-- What `jit_enqueue` returns and leaves behind. -/
structure EnqueueResult where
  error : JitError
  queue : JitQueue
  /-- The packet of the caller as the call leaves it. -/
  packet : LgwPktTx
  accesses : List Access

/-- A node is appended behind the last one, and the queue is sorted again. -/
def insertNode (env : JitEnv) (q : JitQueue) (n : JitNode) : JitQueue :=
  jitSortQueue env
    { numPkt := q.numPkt + 1
      numBeacon := if n.pktType = .beacon then q.numBeacon + 1 else q.numBeacon
      nodes := q.nodes.set q.numPkt.toNat n }

/-- The reads of the slot search, for class C only. -/
def slotAccesses (env : JitEnv) (q : JitQueue) (timeUs : U32) (packet : LgwPktTx)
    (pktType : JitPktType) : List Access :=
  if pktType = .downlinkClassC then
    (asapSlot env q timeUs (packetPreDelay pktType) (packetPostDelay env packet pktType)).2
  else []

/-- `jit_enqueue` from the second time it takes the lock. -/
def jitEnqueueLocked (env : JitEnv) (q : JitQueue) (time : Timeval) (packet : LgwPktTx)
    (pktType : JitPktType) : EnqueueResult :=
  let timeUs := time.lowUs
  let num := q.numPkt.toNat
  let new := nodeFor env q timeUs packet pktType
  let reads := slotAccesses env q timeUs packet pktType
  -- criteria 1: too late to program it
  if new.pkt.countUs - timeUs ≤ txStartDelay + txMarginDelay + txJitDelay then
    ⟨.tooLate, q, new.pkt, reads⟩
  -- criteria 2: too far ahead to be plausible (class A and B only)
  else if (pktType = .downlinkClassA ∨ pktType = .downlinkClassB) ∧
      txMaxAdvanceDelay < (new.pkt.countUs - timeUs).toNat then
    ⟨.tooEarly, q, new.pkt, reads⟩
  else
    let reads := reads ++ readsBelow num (min (q.live.findIdx (overlaps new) + 1) num)
    match q.live.find? (overlaps new) with
    | some n => ⟨errCollision n.pktType, q, new.pkt, reads⟩
    | none =>
      ⟨.ok, insertNode env q new, new.pkt,
        reads ++ ⟨num, num, false⟩ :: readsBelow (num + 1) (num + 1)⟩

/-- `jit_enqueue`; a null `packet` is `none`. -/
def jitEnqueue (env : JitEnv) (q : JitQueue) (time : Timeval) (packet : Option LgwPktTx)
    (pktType : JitPktType) : EnqueueResult :=
  match packet with
  | none => ⟨.invalid, q, .zero, []⟩
  | some packet =>
    if jitQueueIsFull q then ⟨.full, q, packet, []⟩
    else jitEnqueueLocked env q time packet pktType

/-! ## `jit_dequeue` -/

/-- What `jit_dequeue` returns and leaves behind. -/
structure DequeueResult where
  error : JitError
  queue : JitQueue
  /-- `*packet` and `*pkt_type`, if they were written. -/
  out : Option (LgwPktTx × JitPktType)
  accesses : List Access

/-- Remove the node at `i`: the last live node takes its place, the queue is sorted again. -/
def removeNode (env : JitEnv) (q : JitQueue) (i : ℕ) : JitQueue :=
  jitSortQueue env
    { numPkt := q.numPkt - 1
      numBeacon := if (q.node env i).pktType = .beacon then q.numBeacon - 1 else q.numBeacon
      nodes := q.nodes.removeSwap .zero i (q.numPkt - 1).toNat }

/-- The accesses of a removal, once the live count is down to `num`. -/
def removeAccesses (i num : ℕ) : List Access :=
  ⟨i, num, false⟩ :: ⟨num, num, false⟩ :: readsBelow num num

/-- `jit_dequeue` from the second time it takes the lock. -/
def jitDequeueLocked (env : JitEnv) (q : JitQueue) (index : ℕ) : DequeueResult :=
  let n := q.node env index
  ⟨.ok, removeNode env q index, some (n.pkt, n.pktType),
    ⟨index, q.numPkt.toNat, true⟩ :: removeAccesses index (q.numPkt - 1).toNat⟩

/-- `jit_dequeue`; `packet` tells whether the output pointer is not null. -/
def jitDequeue (env : JitEnv) (q : JitQueue) (index : ℤ) (packet : Bool) : DequeueResult :=
  if packet = false then ⟨.invalid, q, none, []⟩
  else if index < 0 ∨ jitQueueMax ≤ index then ⟨.invalid, q, none, []⟩
  else if jitQueueIsEmpty q then ⟨.empty, q, none, []⟩
  else jitDequeueLocked env q index.toNat

/-! ## `jit_peek` -/

/-- What `jit_peek` returns and leaves behind. -/
structure PeekResult where
  error : JitError
  queue : JitQueue
  /-- `*pkt_idx`, if it was written. -/
  pktIdx : Option ℤ
  accesses : List Access

/-- The purge test of `jit_peek`, which is made on each node before it can be picked. -/
def outdated (timeUs : U32) (n : JitNode) : Prop :=
  txMaxAdvanceDelay ≤ (n.pkt.countUs - timeUs).toNat

instance (timeUs : U32) (n : JitNode) : Decidable (outdated timeUs n) :=
  inferInstanceAs (Decidable (_ ≤ _))

/-- The scan of `jit_peek` at the head of its loop. -/
structure PeekScan where
  queue : JitQueue
  /-- `i`. -/
  i : ℕ
  /-- `idx_highest_priority`. -/
  idx : ℤ
  /-- The accesses to the array that have been made so far. -/
  accesses : List Access

/-- One iteration of the `for` loop of `jit_peek`, with the `i++` that ends it. -/
def jitPeekBody (env : JitEnv) (timeUs : U32) (s : PeekScan) : PeekScan :=
  let num := s.queue.numPkt.toNat
  let n := s.queue.node env s.i
  if outdated timeUs n then
    -- the packet is dropped; after `i = 0; continue;` the scan resumes at index 1
    { queue := removeNode env s.queue s.i
      i := 1
      idx := s.idx
      accesses := s.accesses ++
        ⟨s.i, num, true⟩ :: removeAccesses s.i (s.queue.numPkt - 1).toNat }
  else if s.idx = -1 then
    { queue := s.queue, i := s.i + 1, idx := s.i, accesses := s.accesses ++ [⟨s.i, num, true⟩] }
  else
    let best := s.queue.nodeAt env s.idx
    { queue := s.queue
      i := s.i + 1
      idx := if n.pkt.countUs - timeUs < best.pkt.countUs - timeUs then s.i else s.idx
      accesses := s.accesses ++ [⟨s.i, num, true⟩, ⟨s.idx, num, true⟩] }

/-- The `for` loop of `jit_peek`.  The fuel bounds the number of iterations;
`jitPeekLoop_done` shows that `peekFuel` is enough for the loop to end by its own
test. -/
def jitPeekLoop (env : JitEnv) (timeUs : U32) : ℕ → PeekScan → PeekScan
  | 0, s => s
  | fuel + 1, s =>
    if s.i < s.queue.numPkt.toNat then jitPeekLoop env timeUs fuel (jitPeekBody env timeUs s)
    else s

/-- Enough fuel for the scan of a queue. -/
def peekFuel (q : JitQueue) : ℕ := (q.numPkt.toNat + 1) * (q.numPkt.toNat + 1)

/-- The scan of the whole queue, from `i = 0` and `idx_highest_priority = -1`. -/
def jitPeekScan (env : JitEnv) (q : JitQueue) (timeUs : U32) : PeekScan :=
  jitPeekLoop env timeUs (peekFuel q) ⟨q, 0, -1, []⟩

/-- `jit_peek` from the second time it takes the lock. -/
def jitPeekLocked (env : JitEnv) (q : JitQueue) (time : Timeval) : PeekResult :=
  let timeUs := time.lowUs
  let s := jitPeekScan env q timeUs
  let idx :=
    if (s.queue.nodeAt env s.idx).pkt.countUs - timeUs < txJitDelay then s.idx else -1
  ⟨.ok, s.queue, some idx, s.accesses ++ [⟨s.idx, s.queue.numPkt.toNat, true⟩]⟩

/-- `jit_peek`; a null `time` is `none`, and `pktIdx` tells whether the output
pointer is not null. -/
def jitPeek (env : JitEnv) (q : JitQueue) (time : Option Timeval) (pktIdx : Bool) : PeekResult :=
  match time with
  | none => ⟨.invalid, q, none, []⟩
  | some time =>
    if pktIdx = false then ⟨.invalid, q, none, []⟩
    else if jitQueueIsEmpty q then ⟨.empty, q, none, []⟩
    else jitPeekLocked env q time

/-! ## Calls -/

/-- One call of the queue's interface, with any arguments. -/
inductive JitCall
  | enqueue (time : Timeval) (packet : Option LgwPktTx) (pktType : JitPktType)
  | dequeue (index : ℤ) (packet : Bool)
  | peek (time : Option Timeval) (pktIdx : Bool)

/-- The queue after a call. -/
def JitCall.apply (env : JitEnv) (q : JitQueue) : JitCall → JitQueue
  | .enqueue time packet pktType => (jitEnqueue env q time packet pktType).queue
  | .dequeue index packet => (jitDequeue env q index packet).queue
  | .peek time pktIdx => (jitPeek env q time pktIdx).queue

end PacketForwarder
