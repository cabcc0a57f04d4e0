import PacketForwarder.JitQueue
import PacketForwarder.Lib.Circle
import PacketForwarder.Lib.Runs

/-!
# What each queue operation does

One lemma for each operation of the queue, saying everything the later files
need of it, so that none of them unfolds the operation again.

* `live_insertNode_perm`, `live_removeNode_perm` — inserting adds one node to the
  live ones, removing a live index takes exactly that node out, in either case up
  to the order `qsort_r` leaves;
* `jitEnqueueLocked_cases` — what an acceptance has checked, and that a refusal
  changes nothing;
* `jitPeekBody_cases`, `jitPeekLoop_invariant` and `jitPeekLoop_done` — one
  iteration of the scan, the induction over all of them, and its end;
* `JitCall.live_cases` — the live nodes after any call;
* `ReachableBy`, with `ReachableBy.wf` and `ReachableBy.sorted` — the states of the
  queue, in each of which `num_pkt` stays within the array and the live nodes are
  sorted;
* `ReachableBy.live_invariant` — the induction for what does not depend on the order.
-/

namespace PacketForwarder

open Circle

variable {env : JitEnv} {q : JitQueue}

/-! ## The counters -/

theorem toNat_numPkt_add_one (h : q.numPkt.toNat < 32) :
    (q.numPkt + 1).toNat = q.numPkt.toNat + 1 := by
  rw [BitVec.toNat_add]
  show (q.numPkt.toNat + 1) % 2 ^ 8 = _
  omega

theorem toNat_numPkt_sub_one (h : 0 < q.numPkt.toNat) :
    (q.numPkt - 1).toNat = q.numPkt.toNat - 1 := by
  have := q.numPkt.isLt
  rw [BitVec.toNat_sub]
  show (2 ^ 8 - 1 + q.numPkt.toNat) % 2 ^ 8 = _
  omega

theorem numPkt_eq_zero : q.numPkt = 0 ↔ q.numPkt.toNat = 0 :=
  ⟨fun h => by rw [h]; rfl, fun h => BitVec.eq_of_toNat_eq h⟩

theorem jitQueueIsEmpty_iff : jitQueueIsEmpty q = true ↔ q.numPkt.toNat = 0 := by
  rw [jitQueueIsEmpty, beq_iff_eq, numPkt_eq_zero]

theorem jitQueueIsEmpty_eq_false_iff : jitQueueIsEmpty q = false ↔ 0 < q.numPkt.toNat := by
  rw [← Bool.not_eq_true, jitQueueIsEmpty_iff, Nat.pos_iff_ne_zero]

theorem jitQueueIsFull_iff : jitQueueIsFull q = true ↔ q.numPkt.toNat = 32 := by
  rw [jitQueueIsFull, beq_iff_eq]
  constructor
  · intro h; rw [h]; rfl
  · intro h; exact BitVec.eq_of_toNat_eq h

/-- A queue within its array that is not full has a free cell. -/
theorem JitQueue.Wf.lt_of_not_full (hq : q.Wf) (hf : jitQueueIsFull q = false) :
    q.numPkt.toNat < 32 := by
  have hne : q.numPkt.toNat ≠ 32 := by
    rw [Ne, ← jitQueueIsFull_iff, hf]
    exact Bool.false_ne_true
  exact lt_of_le_of_ne hq hne

/-! ## The live nodes -/

namespace JitQueue

theorem length_live (hq : q.Wf) : q.live.length = q.numPkt.toNat :=
  q.nodes.length_live_of_le hq

theorem node_mem_live (hq : q.Wf) {i : ℕ} (hi : i < q.numPkt.toNat) : q.node env i ∈ q.live :=
  q.nodes.getD_mem_live hi hq _

theorem exists_node_of_mem_live (env : JitEnv) {n : JitNode} (h : n ∈ q.live) (hq : q.Wf) :
    ∃ i, i < q.numPkt.toNat ∧ q.node env i = n := by
  obtain ⟨i, hi, rfl⟩ := List.getElem_of_mem h
  exact ⟨i, by rwa [length_live hq] at hi, (q.nodes.getElem_live hi _).symm⟩

theorem getElem_live (env : JitEnv) {i : ℕ} (h : i < q.live.length) : q.live[i] = q.node env i :=
  q.nodes.getElem_live h _

end JitQueue

/-- The live nodes after sorting are what `qsort_r` returns. -/
theorem live_jitSortQueue (env : JitEnv) (hq : q.Wf) (hne : q.numPkt ≠ 0) :
    (jitSortQueue env q).live = env.qsortR compare q.live := by
  have hl : (env.qsortR compare q.live).length = q.numPkt.toNat := by
    rw [(env.qsortR_perm _ _).length_eq, JitQueue.length_live hq]
  unfold jitSortQueue
  rw [if_neg hne]
  exact Slots.live_fill _ hl hq

/-- Sorting rearranges the live nodes, and neither loses nor copies one. -/
theorem live_jitSortQueue_perm (env : JitEnv) (hq : q.Wf) :
    (jitSortQueue env q).live.Perm q.live := by
  by_cases hne : q.numPkt = 0
  · unfold jitSortQueue
    rw [if_pos hne]
  · rw [live_jitSortQueue env hq hne]
    exact env.qsortR_perm _ _

@[simp] theorem numPkt_jitSortQueue : (jitSortQueue env q).numPkt = q.numPkt := by
  unfold jitSortQueue
  split <;> rfl

@[simp] theorem numBeacon_jitSortQueue : (jitSortQueue env q).numBeacon = q.numBeacon := by
  unfold jitSortQueue
  split <;> rfl

/-- Sorting rearranges the whole array, the cells behind the live nodes included. -/
theorem cells_jitSortQueue_perm (hq : q.Wf) :
    (jitSortQueue env q).nodes.cells.Perm q.nodes.cells := by
  unfold jitSortQueue
  split
  · exact List.Perm.refl _
  · exact q.nodes.cells_fill_perm hq (env.qsortR_perm _ _)

/-- The live nodes are in the order of the comparator, if it is consistent on them. -/
def JitQueue.Sorted (q : JitQueue) : Prop :=
  CmpOrder.OrderOn compare q.live → CmpOrder.Ascending compare q.live

/-- Sorting sorts the live nodes wherever the comparator can order them. -/
theorem sorted_jitSortQueue (hs : env.QsortSorts) (hq : q.Wf) : (jitSortQueue env q).Sorted := by
  intro ho
  have ho' := ho.perm (live_jitSortQueue_perm env hq).symm
  by_cases hne : q.numPkt = 0
  · have hnil : (jitSortQueue env q).live = [] := by
      refine List.eq_nil_of_length_eq_zero ?_
      rw [(live_jitSortQueue_perm env hq).length_eq, JitQueue.length_live hq,
        numPkt_eq_zero.mp hne]
    rw [hnil]
    exact List.Pairwise.nil
  · rw [live_jitSortQueue env hq hne]
    exact hs _ _ ho'

/-! ## Inserting -/

theorem numPkt_insertNode (env : JitEnv) (hq : q.numPkt.toNat < 32) (n : JitNode) :
    (insertNode env q n).numPkt.toNat = q.numPkt.toNat + 1 := by
  rw [insertNode, numPkt_jitSortQueue, toNat_numPkt_add_one hq]

theorem numBeacon_insertNode (q : JitQueue) (n : JitNode) :
    (insertNode env q n).numBeacon =
      if n.pktType = .beacon then q.numBeacon + 1 else q.numBeacon := by
  rw [insertNode, numBeacon_jitSortQueue]

/-- Inserting adds the node to the live ones. -/
theorem live_insertNode_perm (env : JitEnv) (hq : q.numPkt.toNat < 32) (n : JitNode) :
    (insertNode env q n).live.Perm (n :: q.live) := by
  refine (live_jitSortQueue_perm env ?_).trans ?_
  · show (q.numPkt + 1).toNat ≤ 32
    rw [toNat_numPkt_add_one hq]
    exact hq
  · show (Slots.live _ (q.numPkt + 1).toNat).Perm _
    rw [toNat_numPkt_add_one hq, Slots.live_set_last _ hq]
    exact List.perm_append_singleton _ _

theorem cells_insertNode_perm (env : JitEnv) (hq : q.numPkt.toNat < 32) (n : JitNode) :
    (insertNode env q n).nodes.cells.Perm (q.nodes.cells.set q.numPkt.toNat n) := by
  refine cells_jitSortQueue_perm ?_
  show (q.numPkt + 1).toNat ≤ 32
  rw [toNat_numPkt_add_one hq]
  exact hq

theorem wf_insertNode (env : JitEnv) (hq : q.numPkt.toNat < 32) (n : JitNode) :
    (insertNode env q n).Wf := by
  show _ ≤ 32
  rw [numPkt_insertNode env hq]
  exact hq

theorem sorted_insertNode (hs : env.QsortSorts) (hq : q.numPkt.toNat < 32) (n : JitNode) :
    (insertNode env q n).Sorted := by
  refine sorted_jitSortQueue hs ?_
  show (q.numPkt + 1).toNat ≤ 32
  rw [toNat_numPkt_add_one hq]
  exact hq

/-! ## Removing -/

theorem numPkt_removeNode (env : JitEnv) (hq : 0 < q.numPkt.toNat) (i : ℕ) :
    (removeNode env q i).numPkt.toNat = q.numPkt.toNat - 1 := by
  rw [removeNode, numPkt_jitSortQueue, toNat_numPkt_sub_one hq]

theorem numBeacon_removeNode (q : JitQueue) (i : ℕ) :
    (removeNode env q i).numBeacon =
      if (q.node env i).pktType = .beacon then q.numBeacon - 1 else q.numBeacon := by
  rw [removeNode, numBeacon_jitSortQueue]

theorem wf_removeNode (hw : q.Wf) (hq : 0 < q.numPkt.toNat) (i : ℕ) :
    (removeNode env q i).Wf := by
  show _ ≤ 32
  have : q.numPkt.toNat ≤ 32 := hw
  rw [numPkt_removeNode env hq]
  omega

theorem sorted_removeNode (hs : env.QsortSorts) (hw : q.Wf) (hq : 0 < q.numPkt.toNat) (i : ℕ) :
    (removeNode env q i).Sorted := by
  have : q.numPkt.toNat ≤ 32 := hw
  refine sorted_jitSortQueue hs ?_
  show (q.numPkt - 1).toNat ≤ 32
  rw [toNat_numPkt_sub_one hq]
  omega

theorem cells_removeNode_perm (env : JitEnv) (hw : q.Wf) (hq : 0 < q.numPkt.toNat) (i : ℕ) :
    (removeNode env q i).nodes.cells.Perm
      (q.nodes.removeSwap .zero i (q.numPkt.toNat - 1)).cells := by
  have : q.numPkt.toNat ≤ 32 := hw
  rw [← toNat_numPkt_sub_one hq]
  refine cells_jitSortQueue_perm ?_
  show (q.numPkt - 1).toNat ≤ 32
  rw [toNat_numPkt_sub_one hq]
  omega

/-- What is live after a removal, before it is sorted. -/
theorem live_removeNode_perm_live (hw : q.Wf) (hq : 0 < q.numPkt.toNat) (i : ℕ) :
    (removeNode env q i).live.Perm
      ((q.nodes.removeSwap .zero i (q.numPkt.toNat - 1)).live (q.numPkt.toNat - 1)) := by
  have : q.numPkt.toNat ≤ 32 := hw
  refine (live_jitSortQueue_perm env ?_).trans ?_
  · show (q.numPkt - 1).toNat ≤ 32
    rw [toNat_numPkt_sub_one hq]
    omega
  · show (Slots.live _ (q.numPkt - 1).toNat).Perm _
    rw [toNat_numPkt_sub_one hq]

/-- Removing a live index takes exactly the node at that index out. -/
theorem live_removeNode_perm (env : JitEnv) (hw : q.Wf) {i : ℕ} (hi : i < q.numPkt.toNat) :
    (q.node env i :: (removeNode env q i).live).Perm q.live := by
  have hle : q.numPkt.toNat ≤ 32 := hw
  refine ((live_removeNode_perm_live hw (by omega) i).cons _).trans ?_
  have hnode : q.node env i = q.nodes.getD i .zero := by
    rw [JitQueue.node, ← Slots.getElem_live q.nodes (m := q.numPkt.toNat) (by simp; omega),
      Slots.getElem_live]
  have := q.nodes.live_removeSwap_perm .zero (i := i) (m := q.numPkt.toNat - 1) (by omega)
    (by simp only [jitQueueMax]; omega)
  rwa [Nat.sub_add_cancel (by omega), ← hnode] at this

/-- What is left is the live nodes without that one. -/
theorem live_removeNode_perm_eraseIdx (env : JitEnv) (hw : q.Wf) {i : ℕ}
    (hi : i < q.numPkt.toNat) : (removeNode env q i).live.Perm (q.live.eraseIdx i) := by
  have hlen : i < q.live.length := by
    rw [JitQueue.length_live hw]
    exact hi
  have hcons := List.getElem_cons_eraseIdx_perm hlen
  rw [JitQueue.getElem_live env hlen] at hcons
  exact ((live_removeNode_perm env hw hi).trans hcons.symm).cons_inv

/-- They are what `qsort_r` makes of some rearrangement of these. -/
theorem exists_live_removeNode_eq (env : JitEnv) (hw : q.Wf) {i : ℕ} (hi : i < q.numPkt.toNat)
    (htwo : 1 < q.numPkt.toNat) :
    ∃ l, l.Perm (q.live.eraseIdx i) ∧ (removeNode env q i).live = env.qsortR compare l := by
  have hle : q.numPkt.toNat ≤ 32 := hw
  have hnum := toNat_numPkt_sub_one (q := q) (by omega)
  have heq := live_jitSortQueue env (q := ⟨q.numPkt - 1,
      if (q.node env i).pktType = .beacon then q.numBeacon - 1 else q.numBeacon,
      q.nodes.removeSwap .zero i (q.numPkt - 1).toNat⟩)
    (by show (q.numPkt - 1).toNat ≤ 32; omega)
    (by rw [Ne, numPkt_eq_zero]; show ¬(q.numPkt - 1).toNat = 0; omega)
  have hperm := live_removeNode_perm_eraseIdx env hw hi
  refine ⟨_, ?_, heq⟩
  refine List.Perm.trans ?_ hperm
  rw [removeNode, heq]
  exact (env.qsortR_perm _ _).symm

/-- Removing an index beyond the live nodes loses the last live node instead. -/
theorem live_removeNode_dead (env : JitEnv) (hw : q.Wf) (hq : 0 < q.numPkt.toNat) {i : ℕ}
    (hi : q.numPkt.toNat ≤ i) :
    (q.node env (q.numPkt.toNat - 1) :: (removeNode env q i).live).Perm q.live := by
  have hle : q.numPkt.toNat ≤ 32 := hw
  refine ((live_removeNode_perm_live hw hq i).cons _).trans ?_
  rw [Slots.live_removeSwap_dead _ _ (by omega), JitQueue.node]
  have := q.nodes.live_succ (m := q.numPkt.toNat - 1) (by simp only [jitQueueMax]; omega)
    (env.stray ↑(q.numPkt.toNat - 1))
  rw [Nat.sub_add_cancel (by omega)] at this
  rw [JitQueue.live, this]
  exact (List.perm_append_singleton _ _).symm

/-- Whatever index is removed, the live nodes only become fewer. -/
theorem live_removeNode_subperm (env : JitEnv) (hw : q.Wf) (hq : 0 < q.numPkt.toNat) (i : ℕ) :
    (removeNode env q i).live.Subperm q.live := by
  rcases Nat.lt_or_ge i q.numPkt.toNat with hi | hi
  · exact (List.sublist_cons_self _ _).subperm.trans (live_removeNode_perm env hw hi).subperm
  · exact (List.sublist_cons_self _ _).subperm.trans (live_removeNode_dead env hw hq hi).subperm

/-! ## Collisions -/

/-- Two reservations whose lengths do not overflow are disjoint on the circle. -/
theorem jitCollisionTest_eq_false {c₁ pre₁ post₁ c₂ pre₂ post₂ : U32}
    (h₁ : pre₁.toNat + post₂.toNat + 1000 < 2 ^ 32)
    (h₂ : pre₂.toNat + post₁.toNat + 1000 < 2 ^ 32) :
    jitCollisionTest c₁ pre₁ post₁ c₂ pre₂ post₂ = false ↔
      pre₁.toNat + post₂.toNat + 1000 < ahead c₂ c₁ ∧
        pre₂.toNat + post₁.toNat + 1000 < ahead c₁ c₂ := by
  have hsum : ∀ a b : U32, a.toNat + b.toNat + 1000 < 2 ^ 32 →
      (a + b + txMarginDelay).toNat = a.toNat + b.toNat + 1000 := by
    intro a b h
    rw [BitVec.toNat_add, BitVec.toNat_add]
    show ((a.toNat + b.toNat) % 2 ^ 32 + 1000) % 2 ^ 32 = _
    omega
  unfold jitCollisionTest
  rw [Bool.or_eq_false_iff, decide_eq_false_iff_not, decide_eq_false_iff_not, BitVec.le_def,
    BitVec.le_def, hsum _ _ h₁, hsum _ _ h₂, not_le, not_le]
  rfl

/-- The delays of a node as `jit_enqueue` sets them: the reservation before it
follows from its type, the one after it is bounded, and fixed for a beacon. -/
structure JitNode.Ok (n : JitNode) : Prop where
  pre : n.preDelay = packetPreDelay n.pktType
  post : n.postDelay.toNat ≤ 100000000
  beacon : n.pktType = .beacon → n.postDelay = beaconReserved

theorem packetPreDelay_le (t : JitPktType) : (packetPreDelay t).toNat ≤ 3031500 := by
  cases t <;> decide

theorem packetPostDelay_le (hair : env.AirtimeBounded) (p : LgwPktTx) (t : JitPktType) :
    (packetPostDelay env p t).toNat ≤ 100000000 := by
  have h : (env.lgwTimeOnAir p * 1000).toNat ≤ 100000000 := by
    have := hair p
    calc (env.lgwTimeOnAir p).toNat * 1000 % 2 ^ 32
        ≤ (env.lgwTimeOnAir p).toNat * 1000 := Nat.mod_le _ _
      _ ≤ 100000000 := by omega
  cases t with
  | beacon => simp [packetPostDelay]
  | downlinkClassA => exact h
  | downlinkClassB => exact h
  | downlinkClassC => exact h

theorem nodeFor_ok (hair : env.AirtimeBounded) (timeUs : U32) (p : LgwPktTx) (t : JitPktType) :
    (nodeFor env q timeUs p t).Ok := by
  refine ⟨rfl, packetPostDelay_le hair p t, ?_⟩
  intro ht
  show packetPostDelay env p t = beaconReserved
  rw [show t = .beacon from ht, packetPostDelay]

/-! ## Enqueueing -/

/-- What `jit_enqueue` has checked of a node it accepts. -/
structure Accepted (q : JitQueue) (timeUs : U32) (n : JitNode) : Prop where
  /-- Criteria 1: the packet does not come too late to be programmed. -/
  late : 32500 < ahead timeUs n.pkt.countUs
  /-- Criteria 2: the packet of a class A or B downlink does not come too early. -/
  early : n.pktType = .downlinkClassA ∨ n.pktType = .downlinkClassB →
    ahead timeUs n.pkt.countUs ≤ 512000000
  /-- Criteria 3: the packet does not overlap with any in the queue. -/
  clear : ∀ m ∈ q.live, overlaps n m = false

/-- The departure of the node a packet becomes. -/
theorem nodeFor_countUs (timeUs : U32) (p : LgwPktTx) (t : JitPktType) :
    (nodeFor env q timeUs p t).pkt.countUs = departure env q timeUs p t := by
  cases t <;> rfl

/-- **What enqueueing does.**  Either the packet passed every test and its node
was inserted, or an error is returned and the queue is as before. -/
theorem jitEnqueueLocked_cases (env : JitEnv) (q : JitQueue) (time : Timeval) (p : LgwPktTx)
    (t : JitPktType) :
    ((jitEnqueueLocked env q time p t).error = .ok ∧
        Accepted q time.lowUs (nodeFor env q time.lowUs p t) ∧
        (jitEnqueueLocked env q time p t).queue =
          insertNode env q (nodeFor env q time.lowUs p t)) ∨
      ((jitEnqueueLocked env q time p t).error ≠ .ok ∧
        (jitEnqueueLocked env q time p t).queue = q) := by
  unfold jitEnqueueLocked
  simp only
  split
  · exact .inr ⟨by simp, rfl⟩
  · rename_i hlate
    split
    · exact .inr ⟨by simp, rfl⟩
    · rename_i hearly
      split
      · rename_i n _
        refine .inr ⟨?_, rfl⟩
        cases hn : n.pktType <;> simp [errCollision]
      · rename_i hnone
        refine .inl ⟨rfl, ⟨?_, ?_, ?_⟩, rfl⟩
        · rw [BitVec.le_def, not_le] at hlate
          exact hlate
        · intro ht
          rw [not_and] at hearly
          exact not_lt.mp (hearly ht)
        · intro m hm
          have := List.find?_eq_none.mp hnone m hm
          simpa using this

/-- The same of the whole of `jit_enqueue`: what is inserted finds a free cell. -/
theorem jitEnqueue_cases (env : JitEnv) (q : JitQueue) (time : Timeval) (p : Option LgwPktTx)
    (t : JitPktType) :
    (∃ p', p = some p' ∧ jitQueueIsFull q = false ∧ (jitEnqueue env q time p t).error = .ok ∧
        Accepted q time.lowUs (nodeFor env q time.lowUs p' t) ∧
        (jitEnqueue env q time p t).queue = insertNode env q (nodeFor env q time.lowUs p' t)) ∨
      ((jitEnqueue env q time p t).error ≠ .ok ∧ (jitEnqueue env q time p t).queue = q) := by
  cases p with
  | none => exact .inr ⟨by simp [jitEnqueue], rfl⟩
  | some p =>
    simp only [jitEnqueue]
    split
    · exact .inr ⟨by simp, rfl⟩
    · rename_i hf
      rcases jitEnqueueLocked_cases env q time p t with ⟨he, ha, hq⟩ | ⟨he, hq⟩
      · exact .inl ⟨p, rfl, by simpa using hf, he, ha, hq⟩
      · exact .inr ⟨he, hq⟩

/-! ## Dequeueing -/

/-- **What dequeueing does.**  Either the index is in the array and the queue not
empty, and the node at the index is handed over and removed, or an error is
returned and the queue is as before. -/
theorem jitDequeue_cases (env : JitEnv) (q : JitQueue) (index : ℤ) (packet : Bool) :
    (∃ i : ℕ, index = i ∧ i < 32 ∧ 0 < q.numPkt.toNat ∧
        (jitDequeue env q index packet).error = .ok ∧
        (jitDequeue env q index packet).out =
          some ((q.node env i).pkt, (q.node env i).pktType) ∧
        (jitDequeue env q index packet).queue = removeNode env q i) ∨
      ((jitDequeue env q index packet).error ≠ .ok ∧
        (jitDequeue env q index packet).queue = q) := by
  unfold jitDequeue
  split
  · exact .inr ⟨by simp, rfl⟩
  · split
    · exact .inr ⟨by simp, rfl⟩
    · rename_i hidx
      split
      · exact .inr ⟨by simp, rfl⟩
      · rename_i hempty
        rw [jitQueueIsEmpty_iff] at hempty
        simp only [jitQueueMax, not_or, not_lt, not_le] at hidx
        refine .inl ⟨index.toNat, by omega, by omega, by omega, rfl, rfl, rfl⟩

/-! ## Peeking -/

/-- **One iteration of the scan.**  It drops an outdated node, or takes the node
as the one with the highest priority so far, or passes it over. -/
theorem jitPeekBody_cases (env : JitEnv) (timeUs : U32) (s : PeekScan) :
    (outdated timeUs (s.queue.node env s.i) ∧
        (jitPeekBody env timeUs s).queue = removeNode env s.queue s.i ∧
        (jitPeekBody env timeUs s).i = 1 ∧ (jitPeekBody env timeUs s).idx = s.idx ∧
        (jitPeekBody env timeUs s).accesses = s.accesses ++
          ⟨s.i, s.queue.numPkt.toNat, true⟩ ::
            removeAccesses s.i (s.queue.numPkt - 1).toNat) ∨
      (¬outdated timeUs (s.queue.node env s.i) ∧
        (jitPeekBody env timeUs s).queue = s.queue ∧ (jitPeekBody env timeUs s).i = s.i + 1 ∧
        ((jitPeekBody env timeUs s).idx = s.i ∧
            (s.idx ≠ -1 → ahead timeUs (s.queue.node env s.i).pkt.countUs <
              ahead timeUs (s.queue.nodeAt env s.idx).pkt.countUs) ∨
          s.idx ≠ -1 ∧ (jitPeekBody env timeUs s).idx = s.idx ∧
            ahead timeUs (s.queue.nodeAt env s.idx).pkt.countUs ≤
              ahead timeUs (s.queue.node env s.i).pkt.countUs) ∧
        (jitPeekBody env timeUs s).accesses = s.accesses ++
          ⟨s.i, s.queue.numPkt.toNat, true⟩ ::
            (if s.idx = -1 then [] else [⟨s.idx, s.queue.numPkt.toNat, true⟩])) := by
  unfold jitPeekBody
  simp only
  split
  · rename_i ho
    exact .inl ⟨ho, rfl, rfl, rfl, rfl⟩
  · rename_i ho
    refine .inr ⟨ho, ?_⟩
    split
    · rename_i hidx
      exact ⟨rfl, rfl, .inl ⟨rfl, fun h => absurd hidx h⟩, rfl⟩
    · rename_i hidx
      refine ⟨rfl, rfl, ?_, rfl⟩
      by_cases hlt : (s.queue.node env s.i).pkt.countUs - timeUs <
          (s.queue.nodeAt env s.idx).pkt.countUs - timeUs
      · exact .inl ⟨if_pos hlt, fun _ => BitVec.lt_def.mp hlt⟩
      · exact .inr ⟨hidx, if_neg hlt, not_lt.mp fun h => hlt (BitVec.lt_def.mpr h)⟩

/-- **The loop rule.**  What every iteration within the live nodes keeps, the
whole loop keeps. -/
theorem jitPeekLoop_invariant {timeUs : U32} {I : PeekScan → Prop}
    (hstep : ∀ s, I s → s.i < s.queue.numPkt.toNat → I (jitPeekBody env timeUs s))
    (fuel : ℕ) {s : PeekScan} (hs : I s) : I (jitPeekLoop env timeUs fuel s) := by
  induction fuel generalizing s with
  | zero => exact hs
  | succ fuel ih =>
    unfold jitPeekLoop
    split
    · rename_i hi
      exact ih (hstep s hs hi)
    · exact hs

/-- At most how many iterations are still to come. -/
def PeekScan.remaining (s : PeekScan) : ℕ :=
  s.queue.numPkt.toNat * s.queue.numPkt.toNat + (s.queue.numPkt.toNat - s.i)

theorem remaining_jitPeekBody (env : JitEnv) (timeUs : U32) {s : PeekScan}
    (hi : s.i < s.queue.numPkt.toNat) :
    (jitPeekBody env timeUs s).remaining < s.remaining := by
  unfold PeekScan.remaining
  rcases jitPeekBody_cases env timeUs s with ⟨-, hq, hi', -, -⟩ | ⟨-, hq, hi', -, -⟩
  · rw [hq, hi', numPkt_removeNode env (by omega)]
    obtain ⟨m, hm⟩ := Nat.exists_eq_add_of_lt hi
    rw [hm]
    show (s.i + m) * (s.i + m) + (s.i + m - 1) < (s.i + m + 1) * (s.i + m + 1) + _
    nlinarith [Nat.sub_le (s.i + m) 1]
  · rw [hq, hi']
    omega

/-- **The loop ends by its own test**, given fuel for the iterations to come. -/
theorem jitPeekLoop_done {timeUs : U32} {fuel : ℕ} {s : PeekScan} (h : s.remaining ≤ fuel) :
    (jitPeekLoop env timeUs fuel s).queue.numPkt.toNat ≤ (jitPeekLoop env timeUs fuel s).i := by
  induction fuel generalizing s with
  | zero =>
    show s.queue.numPkt.toNat ≤ s.i
    unfold PeekScan.remaining at h
    omega
  | succ fuel ih =>
    unfold jitPeekLoop
    split
    · rename_i hi
      have := remaining_jitPeekBody env timeUs hi
      exact ih (by omega)
    · rename_i hi
      exact not_lt.mp hi

/-- The scan of a queue ends by its own test. -/
theorem jitPeekScan_done (env : JitEnv) (q : JitQueue) (timeUs : U32) :
    (jitPeekScan env q timeUs).queue.numPkt.toNat ≤ (jitPeekScan env q timeUs).i := by
  refine jitPeekLoop_done ?_
  show q.numPkt.toNat * q.numPkt.toNat + q.numPkt.toNat ≤ _
  unfold peekFuel
  nlinarith

/-- The invariant rule for the scan of a queue. -/
theorem jitPeekScan_invariant {timeUs : U32} {I : PeekScan → Prop} (h₀ : I ⟨q, 0, -1, []⟩)
    (hstep : ∀ s, I s → s.i < s.queue.numPkt.toNat → I (jitPeekBody env timeUs s)) :
    I (jitPeekScan env q timeUs) :=
  jitPeekLoop_invariant hstep _ h₀

/-- The queue after a peek is the queue the scan leaves. -/
theorem jitPeekLocked_queue (env : JitEnv) (q : JitQueue) (time : Timeval) :
    (jitPeekLocked env q time).queue = (jitPeekScan env q time.lowUs).queue := rfl

theorem jitDequeueLocked_queue (env : JitEnv) (q : JitQueue) (i : ℕ) :
    (jitDequeueLocked env q i).queue = removeNode env q i := rfl

/-- A peek either reports an error and changes nothing, or scans. -/
theorem jitPeek_cases (env : JitEnv) (q : JitQueue) (time : Option Timeval) (pktIdx : Bool) :
    (∃ t, time = some t ∧ 0 < q.numPkt.toNat ∧
        (jitPeek env q time pktIdx).error = .ok ∧
        (jitPeek env q time pktIdx).queue = (jitPeekScan env q t.lowUs).queue) ∨
      ((jitPeek env q time pktIdx).error ≠ .ok ∧ (jitPeek env q time pktIdx).queue = q) := by
  cases time with
  | none => exact .inr ⟨by simp [jitPeek], rfl⟩
  | some t =>
    simp only [jitPeek]
    split
    · exact .inr ⟨by simp, rfl⟩
    · split
      · exact .inr ⟨by simp, rfl⟩
      · rename_i hempty
        rw [jitQueueIsEmpty_iff] at hempty
        exact .inl ⟨t, rfl, by omega, rfl, rfl⟩

/-- An iteration keeps to the array. -/
theorem wf_jitPeekBody (env : JitEnv) {timeUs : U32} {s : PeekScan} (hw : s.queue.Wf)
    (hi : s.i < s.queue.numPkt.toNat) : (jitPeekBody env timeUs s).queue.Wf := by
  rcases jitPeekBody_cases env timeUs s with ⟨-, hq, -⟩ | ⟨-, hq, -⟩
  · rw [hq]
    exact wf_removeNode hw (by omega) _
  · rw [hq]
    exact hw

/-- The scan leaves the queue sorted. -/
theorem sorted_jitPeekScan (hs : env.QsortSorts) (hw : q.Wf) (hsort : q.Sorted) (timeUs : U32) :
    (jitPeekScan env q timeUs).queue.Sorted := by
  refine (jitPeekScan_invariant (I := fun s => s.queue.Wf ∧ s.queue.Sorted) ⟨hw, hsort⟩ ?_).2
  rintro s ⟨hsw, hss⟩ hi
  rcases jitPeekBody_cases env timeUs s with ⟨-, hq, -⟩ | ⟨-, hq, -⟩
  · rw [hq]
    exact ⟨wf_removeNode hsw (by omega) _, sorted_removeNode hs hsw (by omega) _⟩
  · rw [hq]
    exact ⟨hsw, hss⟩

/-- The scan keeps to the array, and the live nodes only become fewer. -/
theorem jitPeekScan_live (env : JitEnv) (hw : q.Wf) (timeUs : U32) :
    (jitPeekScan env q timeUs).queue.Wf ∧
      (jitPeekScan env q timeUs).queue.live.Subperm q.live := by
  refine jitPeekScan_invariant (I := fun s => s.queue.Wf ∧ s.queue.live.Subperm q.live)
    ⟨hw, List.Subperm.refl _⟩ ?_
  rintro s ⟨hsw, hsub⟩ hi
  rcases jitPeekBody_cases env timeUs s with ⟨-, hq, -⟩ | ⟨-, hq, -⟩
  · rw [hq]
    exact ⟨wf_removeNode hsw (by omega) _,
      (live_removeNode_subperm env hsw (by omega) _).trans hsub⟩
  · rw [hq]
    exact ⟨hsw, hsub⟩

/-! ## How far ahead the nodes lie -/

theorem compare_nonpos {a b : JitNode} :
    compare a b ≤ 0 ↔ ahead a.pkt.countUs b.pkt.countUs ≤ 2 ^ 31 := by
  unfold compare
  rw [toInt_sub_nonpos]
  omega

/-- No node of the list is outdated at this time. -/
def AllFresh (timeUs : U32) (l : List JitNode) : Prop :=
  ∀ n ∈ l, ahead timeUs n.pkt.countUs < txMaxAdvanceDelay

/-- The comparator compares how far ahead of `timeUs` the nodes lie. -/
def ComparesAhead (timeUs : U32) (l : List JitNode) : Prop :=
  ∀ a ∈ l, ∀ b ∈ l,
    compare a b = ahead timeUs a.pkt.countUs - ahead timeUs b.pkt.countUs

theorem ComparesAhead.orderOn {timeUs : U32} {l : List JitNode} (h : ComparesAhead timeUs l) :
    CmpOrder.OrderOn compare l :=
  .of_sub (f := fun n => (ahead timeUs n.pkt.countUs : ℤ)) h

/-- It does so among nodes less than half a turn ahead. -/
theorem ComparesAhead.of_lt {timeUs : U32} {l : List JitNode}
    (h : ∀ n ∈ l, ahead timeUs n.pkt.countUs < 2 ^ 31) : ComparesAhead timeUs l := by
  intro a ha b hb
  have ha' := h a ha
  have hb' := h b hb
  exact signedAhead_eq_sub (by omega) (by omega)

/-- Nodes that are not outdated are less than half a turn ahead. -/
theorem AllFresh.lt {timeUs : U32} {l : List JitNode} (h : AllFresh timeUs l) :
    ∀ n ∈ l, ahead timeUs n.pkt.countUs < 2 ^ 31 :=
  fun n hn => (h n hn).trans (by decide)

theorem AllFresh.comparesAhead {timeUs : U32} {l : List JitNode} (h : AllFresh timeUs l) :
    ComparesAhead timeUs l := .of_lt h.lt

/-! ## Runs of the queue -/

/-- **What any call does to the live nodes**: it adds one that was accepted into a
free cell, or they only become fewer. -/
theorem JitCall.live_cases (env : JitEnv) (hw : q.Wf) (c : JitCall) :
    (c.apply env q).Wf ∧
      ((∃ time p t, c = .enqueue time (some p) t ∧ q.numPkt.toNat < 32 ∧
          Accepted q time.lowUs (nodeFor env q time.lowUs p t) ∧
          c.apply env q = insertNode env q (nodeFor env q time.lowUs p t)) ∨
        (c.apply env q).live.Subperm q.live) := by
  cases c with
  | enqueue time p t =>
    rcases jitEnqueue_cases env q time p t with ⟨p', rfl, hf, -, ha, hq⟩ | ⟨-, hq⟩
    · have hlt := hw.lt_of_not_full hf
      simp only [JitCall.apply]
      refine ⟨?_, .inl ⟨time, p', t, rfl, hlt, ha, hq⟩⟩
      rw [hq]
      exact wf_insertNode env hlt _
    · simp only [JitCall.apply, hq]
      exact ⟨hw, .inr (List.Subperm.refl _)⟩
  | dequeue index packet =>
    rcases jitDequeue_cases env q index packet with ⟨i, -, -, hpos, -, -, hq⟩ | ⟨-, hq⟩
    · simp only [JitCall.apply, hq]
      exact ⟨wf_removeNode hw hpos _, .inr (live_removeNode_subperm env hw hpos _)⟩
    · simp only [JitCall.apply, hq]
      exact ⟨hw, .inr (List.Subperm.refl _)⟩
  | peek time pktIdx =>
    rcases jitPeek_cases env q time pktIdx with ⟨t, -, -, -, hq⟩ | ⟨-, hq⟩
    · simp only [JitCall.apply, hq]
      exact ⟨(jitPeekScan_live env hw _).1, .inr (jitPeekScan_live env hw _).2⟩
    · simp only [JitCall.apply, hq]
      exact ⟨hw, .inr (List.Subperm.refl _)⟩

/-- The queue as a transition system: the labels are the calls. -/
def jitStep (env : JitEnv) (q : JitQueue) (c : JitCall) (q' : JitQueue) : Prop :=
  q' = c.apply env q

/-- The states of the queue after calls each of which satisfies `ok`. -/
def ReachableBy (env : JitEnv) (ok : JitQueue → JitCall → Prop) (q : JitQueue) : Prop :=
  Runs.Reaches (jitStep env) ok jitQueueInit q

/-- The states of the queue after any calls. -/
def Reachable (env : JitEnv) (q : JitQueue) : Prop := ReachableBy env Runs.anyStep q

theorem wf_jitQueueInit : jitQueueInit.Wf := Nat.zero_le _

/-- **The live count never exceeds the array.** -/
theorem ReachableBy.wf {ok : JitQueue → JitCall → Prop} (h : ReachableBy env ok q) : q.Wf := by
  refine Runs.Reaches.invariant wf_jitQueueInit ?_ h
  rintro s c s' - hw - hst
  cases hst
  exact (JitCall.live_cases env hw c).1

/-- **The live nodes are always sorted**, as far as the comparator allows. -/
theorem ReachableBy.sorted {ok : JitQueue → JitCall → Prop} (hs : env.QsortSorts)
    (h : ReachableBy env ok q) : q.Sorted := by
  have h₀ : jitQueueInit.Sorted := fun _ => List.Pairwise.nil
  refine Runs.Reaches.invariant h₀ ?_ h
  rintro s c s' hr hsort - hst
  cases hst
  have hw := ReachableBy.wf hr
  cases c with
  | enqueue time p t =>
    rcases jitEnqueue_cases env s time p t with ⟨p', rfl, hf, -, -, hq⟩ | ⟨-, hq⟩
    · simp only [JitCall.apply, hq]
      exact sorted_insertNode hs (hw.lt_of_not_full hf) _
    · simpa only [JitCall.apply, hq] using hsort
  | dequeue index packet =>
    rcases jitDequeue_cases env s index packet with ⟨i, -, -, hpos, -, -, hq⟩ | ⟨-, hq⟩
    · simp only [JitCall.apply, hq]
      exact sorted_removeNode hs hw hpos _
    · simpa only [JitCall.apply, hq] using hsort
  | peek time pktIdx =>
    rcases jitPeek_cases env s time pktIdx with ⟨t, -, -, -, hq⟩ | ⟨-, hq⟩
    · simp only [JitCall.apply, hq]
      exact sorted_jitPeekScan hs hw hsort _
    · simpa only [JitCall.apply, hq] using hsort

/-- The invariant rule for a property of the live nodes that does not depend on
their order: what is lost when nodes become fewer must not matter, and an
accepted node must keep it. -/
theorem ReachableBy.live_invariant {ok : JitQueue → JitCall → Prop} {P : List JitNode → Prop}
    (h₀ : P []) (hsub : ∀ l l', l'.Subperm l → P l → P l')
    (hadd : ∀ q time p t, ReachableBy env ok q → P q.live → ok q (.enqueue time (some p) t) →
      Accepted q time.lowUs (nodeFor env q time.lowUs p t) →
      P (nodeFor env q time.lowUs p t :: q.live))
    (h : ReachableBy env ok q) : P q.live := by
  refine Runs.Reaches.invariant (I := fun q => P q.live) h₀ ?_ h
  rintro s c s' hr hP hok hst
  cases hst
  rcases (JitCall.live_cases env (ReachableBy.wf hr) c).2 with
    ⟨time, p, t, rfl, hlt, hacc, hq⟩ | hfew
  · rw [hq]
    exact hsub _ _ (live_insertNode_perm env hlt _).subperm (hadd s time p t hr hP hok hacc)
  · exact hsub _ _ hfew hP

end PacketForwarder
