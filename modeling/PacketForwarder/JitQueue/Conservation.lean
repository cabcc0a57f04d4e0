import PacketForwarder.JitQueue.Reference

/-!
# No packet is invented, duplicated or lost

What the queue is for, without its array: it holds a bag of packets, each with
its class, and every packet that comes in is either still there, or was handed
over, or was dropped because it was missed.

* `agenda` — the bag a queue holds: the abstraction of its live nodes;
* `Conserves` — what a call may do to the bag;
* `conservation` — every call of a run conserves packets, and over the whole run
  the books balance, provided `jit_dequeue` is given indices of live nodes;
* `dequeue_loses_packet` — given an index that is in the array but not live,
  `jit_dequeue` reports success, hands over a blank packet and loses a live one.
-/

namespace PacketForwarder

open Circle

variable {env : JitEnv} {q : JitQueue}

/-! ## The bag of packets -/

/-- A packet and its class are what conservation is about. -/
abbrev Entry : Type := LgwPktTx × JitPktType

/-- A node stands for its packet and the class it was enqueued with. -/
def JitNode.entry (n : JitNode) : Entry := (n.pkt, n.pktType)

/-- The packets a queue holds, each as often as it is there. -/
def agenda (q : JitQueue) : Multiset Entry := q.live.map JitNode.entry

/-- The queue counts its beacons: `num_beacon` is how many live nodes are one. -/
def BeaconsCounted (q : JitQueue) : Prop :=
  q.numBeacon.toNat = q.live.countP fun n => n.pktType = .beacon

/-- `p'` is the packet `p` a caller gave: the same, but for the mode and the
departure a class C packet is assigned. -/
def GivenAs (p p' : LgwPktTx) (t : JitPktType) : Prop :=
  if t = .downlinkClassC then p' = { p with txMode := .timestamped, countUs := p'.countUs }
  else p' = p

/-- **What a call may do to the packets.**  Enqueueing adds the given packet, dequeueing
takes the one it returns, peeking takes outdated ones only, and a call that reports
an error changes nothing at all. -/
def Conserves (env : JitEnv) (q : JitQueue) : JitCall → Prop
  | .enqueue time p t =>
    let r := jitEnqueue env q time p t
    (r.error = .ok → ∃ p', p = some p' ∧ GivenAs p' r.packet t ∧
      agenda r.queue = (r.packet, t) ::ₘ agenda q) ∧
    (r.error ≠ .ok → r.queue = q)
  | .dequeue index packet =>
    let r := jitDequeue env q index packet
    (r.error = .ok → ∃ e, r.out = some e ∧ agenda q = e ::ₘ agenda r.queue) ∧
    (r.error ≠ .ok → r.queue = q)
  | .peek time pktIdx =>
    let r := jitPeek env q time pktIdx
    (r.error = .ok → ∃ t dropped, time = some t ∧ agenda q = dropped + agenda r.queue ∧
      ∀ e ∈ dropped, txMaxAdvanceDelay ≤ ahead t.lowUs e.1.countUs) ∧
    (r.error ≠ .ok → r.queue = q)

/-- `jit_dequeue` is called for a live node, or refuses the call. -/
def IndexLive (q : JitQueue) : JitCall → Prop
  | .dequeue index packet =>
    packet = false ∨ q.numPkt.toNat = 0 ∨ index < 0 ∨ jitQueueMax ≤ index ∨
      index < q.numPkt.toNat
  | _ => True

/-! ## The three operations -/

theorem agenda_insertNode (hq : q.numPkt.toNat < 32) (n : JitNode) :
    agenda (insertNode env q n) = n.entry ::ₘ agenda q :=
  Multiset.coe_eq_coe.mpr ((live_insertNode_perm env hq n).map _)

theorem agenda_removeNode (env : JitEnv) (hw : q.Wf) {i : ℕ} (hi : i < q.numPkt.toNat) :
    agenda q = (q.node env i).entry ::ₘ agenda (removeNode env q i) :=
  (Multiset.coe_eq_coe.mpr ((live_removeNode_perm env hw hi).map _)).symm

theorem beaconsCounted_insertNode (hq : q.numPkt.toNat < 32) (h : BeaconsCounted q)
    (n : JitNode) : BeaconsCounted (insertNode env q n) := by
  have hle : q.live.countP (fun n => n.pktType = .beacon) ≤ q.live.length := List.countP_le_length
  have hlen : q.live.length = q.numPkt.toNat := JitQueue.length_live (Nat.le_of_lt hq)
  unfold BeaconsCounted at h ⊢
  rw [numBeacon_insertNode, (live_insertNode_perm env hq n).countP_eq, List.countP_cons]
  split
  · rename_i hn
    rw [BitVec.toNat_add]
    show (q.numBeacon.toNat + 1) % 2 ^ 8 = _
    simp only [hn, decide_true, if_true]
    omega
  · rename_i hn
    simp only [hn, decide_false, Bool.false_eq_true, if_false]
    omega

theorem beaconsCounted_removeNode (hw : q.Wf) {i : ℕ} (hi : i < q.numPkt.toNat)
    (h : BeaconsCounted q) : BeaconsCounted (removeNode env q i) := by
  have hcount := (live_removeNode_perm env hw hi).countP_eq fun n => decide (n.pktType = .beacon)
  have hbound := q.numBeacon.isLt
  unfold BeaconsCounted at h ⊢
  rw [List.countP_cons] at hcount
  rw [numBeacon_removeNode]
  split
  · rename_i hn
    simp only [hn, decide_true, if_true] at hcount
    rw [BitVec.toNat_sub]
    show (2 ^ 8 - 1 + q.numBeacon.toNat) % 2 ^ 8 = _
    omega
  · rename_i hn
    simp only [hn, decide_false, Bool.false_eq_true, if_false] at hcount
    omega

/-- The scan takes outdated packets only. -/
theorem jitPeekScan_agenda (env : JitEnv) (hw : q.Wf) (h : BeaconsCounted q) (timeUs : U32) :
    BeaconsCounted (jitPeekScan env q timeUs).queue ∧
      ∃ dropped, agenda q = dropped + agenda (jitPeekScan env q timeUs).queue ∧
        ∀ e ∈ dropped, txMaxAdvanceDelay ≤ ahead timeUs e.1.countUs := by
  let I : PeekScan → Prop := fun s => s.queue.Wf ∧ BeaconsCounted s.queue ∧
    ∃ dropped, agenda q = dropped + agenda s.queue ∧
      ∀ e ∈ dropped, txMaxAdvanceDelay ≤ ahead timeUs e.1.countUs
  have h₀ : I ⟨q, 0, -1, []⟩ := ⟨hw, h, 0, by simp, by simp⟩
  refine (jitPeekScan_invariant h₀ ?_).2
  rintro s ⟨hsw, hsb, dropped, hbag, hout⟩ hi
  rcases jitPeekBody_cases env timeUs s with ⟨hold, hq, -⟩ | ⟨-, hq, -⟩
  · show _ ∧ _ ∧ _
    rw [hq]
    refine ⟨wf_removeNode hsw (by omega) _, beaconsCounted_removeNode hsw hi hsb,
      (s.queue.node env s.i).entry ::ₘ dropped, ?_, ?_⟩
    · rw [hbag, agenda_removeNode env hsw hi, Multiset.add_cons, Multiset.cons_add]
    · intro e he
      rcases Multiset.mem_cons.mp he with rfl | he
      · exact hold
      · exact hout e he
  · show _ ∧ _ ∧ _
    rw [hq]
    exact ⟨hsw, hsb, dropped, hbag, hout⟩

/-- The caller's packet is what becomes of it. -/
theorem givenAs_scheduled (timeUs : U32) (p : LgwPktTx) (t : JitPktType) :
    GivenAs p (scheduled env q timeUs p t) t := by
  unfold GivenAs scheduled
  split <;> rfl

/-- An accepted packet is left with the caller as it was enqueued. -/
theorem jitEnqueue_packet {time : Timeval} {p : LgwPktTx} {t : JitPktType}
    (h : (jitEnqueue env q time (some p) t).error = .ok) :
    (jitEnqueue env q time (some p) t).packet = scheduled env q time.lowUs p t := by
  unfold jitEnqueue at h ⊢
  simp only at h ⊢
  split at h
  · cases h
  · rename_i hf
    rw [if_neg hf]
    unfold jitEnqueueLocked
    simp only
    split
    · rfl
    · split
      · rfl
      · split <;> rfl

/-- **The step.**  A call for a live node conserves packets and keeps the count of
beacons. -/
theorem conserves_of_indexLive (env : JitEnv) (hw : q.Wf) (hb : BeaconsCounted q) {c : JitCall}
    (hc : IndexLive q c) : Conserves env q c ∧ BeaconsCounted (c.apply env q) := by
  cases c with
  | enqueue time p t =>
    rcases jitEnqueue_cases env q time p t with ⟨p', rfl, hf, hok, -, hq⟩ | ⟨herr, hq⟩
    · have hlt := hw.lt_of_not_full hf
      simp only [Conserves, JitCall.apply, hq]
      refine ⟨⟨fun _ => ⟨p', rfl, ?_, ?_⟩, fun h => absurd hok h⟩,
        beaconsCounted_insertNode hlt hb _⟩
      · rw [jitEnqueue_packet hok]
        exact givenAs_scheduled _ _ _
      · rw [agenda_insertNode hlt, jitEnqueue_packet hok]
        rfl
    · simp only [Conserves, JitCall.apply, hq]
      exact ⟨⟨fun h => absurd h herr, fun _ => trivial⟩, hb⟩
  | dequeue index packet =>
    rcases jitDequeue_cases env q index packet with ⟨i, rfl, hi, hpos, hok, hout, hq⟩ | ⟨herr, hq⟩
    · have hlive : i < q.numPkt.toNat := by
        rcases hc with rfl | h | h | h | h
        · cases hok
        · omega
        · omega
        · simp only [jitQueueMax] at h
          omega
        · omega
      simp only [Conserves, JitCall.apply, hq, hout]
      exact ⟨⟨fun _ => ⟨_, rfl, agenda_removeNode env hw hlive⟩, fun h => absurd hok h⟩,
        beaconsCounted_removeNode hw hlive hb⟩
    · simp only [Conserves, JitCall.apply, hq]
      exact ⟨⟨fun h => absurd h herr, fun _ => trivial⟩, hb⟩
  | peek time pktIdx =>
    rcases jitPeek_cases env q time pktIdx with ⟨t, rfl, -, hok, hq⟩ | ⟨herr, hq⟩
    · obtain ⟨hcount, dropped, hbag, hout⟩ := jitPeekScan_agenda env hw hb t.lowUs
      simp only [Conserves, JitCall.apply, hq]
      exact ⟨⟨fun _ => ⟨t, dropped, rfl, hbag, hout⟩, fun h => absurd hok h⟩, hcount⟩
    · simp only [Conserves, JitCall.apply, hq]
      exact ⟨⟨fun h => absurd h herr, fun _ => trivial⟩, hb⟩

/-! ## Whole runs -/

/-- The books kept beside a queue, from what its calls return: what was accepted,
handed over and dropped so far. -/
structure Books where
  accepted : Multiset Entry
  handedOver : Multiset Entry
  dropped : Multiset Entry

/-- Before any call nothing has been inserted, handed out or dropped. -/
def Books.empty : Books := ⟨0, 0, 0⟩

/-- Enter a call into the books. -/
def Books.enter (env : JitEnv) (q : JitQueue) (b : Books) : JitCall → Books
  | .enqueue time p t =>
    if (jitEnqueue env q time p t).error = .ok then
      { b with accepted := ((jitEnqueue env q time p t).packet, t) ::ₘ b.accepted }
    else b
  | .dequeue index packet =>
    match (jitDequeue env q index packet).out with
    | some e => { b with handedOver := e ::ₘ b.handedOver }
    | none => b
  | .peek time pktIdx =>
    { b with dropped := agenda q - agenda (jitPeek env q time pktIdx).queue + b.dropped }

/-- The queue with its books as a transition system. -/
def bookedStep (env : JitEnv) (s : JitQueue × Books) (c : JitCall) (s' : JitQueue × Books) :
    Prop :=
  s' = (c.apply env s.1, s.2.enter env s.1 c)

/-- What was accepted is still queued, or was handed over, or was dropped. -/
def Balanced (q : JitQueue) (b : Books) : Prop :=
  b.accepted = agenda q + b.handedOver + b.dropped

/-- A refused call writes no output packet. -/
theorem jitDequeue_out_of_error {index : ℤ} {packet : Bool}
    (h : (jitDequeue env q index packet).error ≠ .ok) :
    (jitDequeue env q index packet).out = none := by
  unfold jitDequeue at h ⊢
  split
  · rfl
  · rename_i hp
    rw [if_neg hp] at h
    split
    · rfl
    · rename_i hidx
      rw [if_neg hidx] at h
      split
      · rfl
      · rename_i hempty
        rw [if_neg hempty] at h
        exact absurd rfl h

/-- Entering a call that conserves packets keeps the books balanced. -/
theorem Balanced.enter {b : Books} (h : Balanced q b) {c : JitCall} (hc : Conserves env q c) :
    Balanced (c.apply env q) (b.enter env q c) := by
  unfold Balanced at h ⊢
  cases c with
  | enqueue time p t =>
    unfold Books.enter JitCall.apply
    simp only
    split
    · rename_i hok
      obtain ⟨p', -, -, hbag⟩ := hc.1 hok
      rw [hbag, h, Multiset.cons_add, Multiset.cons_add]
    · rename_i herr
      rw [hc.2 herr]
      exact h
  | dequeue index packet =>
    unfold Books.enter JitCall.apply
    simp only
    by_cases hok : (jitDequeue env q index packet).error = .ok
    · obtain ⟨e, hout, hbag⟩ := hc.1 hok
      rw [hout]
      simp only
      rw [h, hbag, Multiset.cons_add, Multiset.add_cons]
    · rw [jitDequeue_out_of_error hok, hc.2 hok]
      exact h
  | peek time pktIdx =>
    unfold Books.enter JitCall.apply
    simp only
    have hle : agenda (jitPeek env q time pktIdx).queue ≤ agenda q := by
      by_cases hok : (jitPeek env q time pktIdx).error = .ok
      · obtain ⟨t, dropped, -, hbag, -⟩ := hc.1 hok
        rw [hbag]
        exact Multiset.le_add_left _ _
      · rw [hc.2 hok]
    rw [h]
    nth_rewrite 1 [← Multiset.sub_add_cancel hle]
    ac_rfl

/-- **Conservation of packets.**  In every run whose dequeues name live nodes, every
call conserves packets, the books balance, and `num_beacon` is the number of live
beacons. -/
theorem conservation {s : JitQueue × Books}
    (h : Runs.Reaches (bookedStep env) (fun s c => IndexLive s.1 c) (jitQueueInit, .empty) s) :
    Balanced s.1 s.2 ∧ BeaconsCounted s.1 ∧ ∀ c, IndexLive s.1 c → Conserves env s.1 c := by
  have h₀ : jitQueueInit.Wf ∧ BeaconsCounted jitQueueInit ∧ Balanced jitQueueInit .empty :=
    ⟨wf_jitQueueInit, rfl, rfl⟩
  have hinv : s.1.Wf ∧ BeaconsCounted s.1 ∧ Balanced s.1 s.2 := by
    refine Runs.Reaches.invariant (I := fun s => s.1.Wf ∧ BeaconsCounted s.1 ∧
      Balanced s.1 s.2) h₀ ?_ h
    rintro s c s' - ⟨hw, hcount, hbal⟩ hok hst
    cases hst
    have hstep := conserves_of_indexLive env hw hcount hok
    exact ⟨(JitCall.live_cases env hw c).1, hstep.2, hbal.enter hstep.1⟩
  obtain ⟨hw, hcount, hbal⟩ := hinv
  exact ⟨hbal, hcount, fun c hc => (conserves_of_indexLive env hw hcount hc).1⟩

/-- One packet is accepted, and handed over. -/
theorem conservation_one_packet :
    let c₁ : JitCall := .enqueue (instant 0) (some (packetAt 1000000)) .downlinkClassA
    let c₂ : JitCall := .dequeue 0 true
    let q := c₂.apply .reference (c₁.apply .reference jitQueueInit)
    let b := (Books.empty.enter .reference jitQueueInit c₁).enter .reference
      (c₁.apply .reference jitQueueInit) c₂
    Balanced q b ∧ BeaconsCounted q ∧ ∀ c, IndexLive q c → Conserves .reference q c := by
  intro c₁ c₂ q b
  have h₁ : Runs.Reaches (bookedStep .reference) (fun s c => IndexLive s.1 c)
      (jitQueueInit, .empty) _ := .next .start (l := c₁) trivial rfl
  have hlive : IndexLive (c₁.apply .reference jitQueueInit) c₂ := by
    refine .inr (.inr (.inr (.inr ?_)))
    decide +kernel
  exact conservation (s := (q, b)) (.next h₁ hlive rfl)

/-- **A dead index loses a packet.**  With a single packet queued, `jit_dequeue` of
index 5 returns `JIT_ERROR_OK` and a blank packet, and the queue is empty. -/
theorem dequeue_loses_packet :
    ∃ q, Reachable .reference q ∧ ∃ c, ¬Conserves .reference q c := by
  refine ⟨_, reachable_jitRun _ [.enqueue (instant 0) (some (packetAt 1000000)) .downlinkClassA],
    .dequeue 5 true, ?_⟩
  intro h
  obtain ⟨e, hout, hbag⟩ := h.1 (by decide +kernel)
  have he : e = (.zero, .downlinkClassA) := by
    have hzero : (jitDequeue .reference (jitRun .reference [.enqueue (instant 0)
        (some (packetAt 1000000)) .downlinkClassA]) 5 true).out =
          some (LgwPktTx.zero, .downlinkClassA) := by decide +kernel
    rw [hzero] at hout
    exact (Option.some.inj hout).symm
  have hlive : agenda (jitRun .reference [.enqueue (instant 0) (some (packetAt 1000000))
      .downlinkClassA]) = {(packetAt 1000000, .downlinkClassA)} := by decide +kernel
  rw [hlive, he] at hbag
  have hmem : ((LgwPktTx.zero, .downlinkClassA) : Entry) ∈
      ({(packetAt 1000000, .downlinkClassA)} : Multiset Entry) := by
    rw [hbag]
    exact Multiset.mem_cons_self _ _
  rw [Multiset.mem_singleton] at hmem
  exact absurd (congrArg (fun e => e.1.size) hmem) (by decide)

end PacketForwarder
